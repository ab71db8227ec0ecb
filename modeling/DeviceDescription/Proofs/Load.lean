import DeviceDescription.Session

/-!
# Loading a description

A load takes over the lines of the expansion whether or not that was stopped. It succeeds exactly
when nothing stopped it, and otherwise answers with the fault and the line that did.
-/

namespace DeviceDescription

/-- A disk that holds just the files given, each a text under the one path that leads to it. -/
def Disk.ofTexts (texts : List (String × String)) : Disk :=
  ⟨fun path =>
    match texts.lookup path with
    | some text => ⟨some path, .ok (.bytes (Utf8.encode text))⟩
    | none => ⟨none, .error .notFound⟩⟩

namespace Session

variable (s : Session) (disk : Disk) (path : String)

def holding (e : Expansion) : Session :=
  { s with passed := [], ahead := e.lines, filesOpened := e.opened, blockType := none, status := .ok }

theorem load_of_complete (h : (expand disk s.settings.depthLimit.toNat path).stop = none) :
    s.load disk path = (.ok (), s.holding (expand disk s.settings.depthLimit.toNat path)) := by
  simp only [load, h]
  rfl

theorem load_of_stopped {stop : Stop}
    (h : (expand disk s.settings.depthLimit.toNat path).stop = some stop) :
    s.load disk path =
      (.error ((s.holding (expand disk s.settings.depthLimit.toNat path)).fail stop.fault stop.site).1,
        ((s.holding (expand disk s.settings.depthLimit.toNat path)).fail stop.fault stop.site).2) := by
  simp only [load, h]
  rfl

@[simp] theorem fail_fault (fault : Fault) (site : Option Line) :
    (s.fail fault site).1.fault = fault := rfl

@[simp] theorem fail_site (fault : Fault) (site : Option Line) :
    (s.fail fault site).1.site = site := rfl

@[simp] theorem fail_lines (fault : Fault) (site : Option Line) :
    (s.fail fault site).2.lines = s.lines := rfl

@[simp] theorem holding_lines (e : Expansion) : (s.holding e).lines = e.lines := rfl

theorem load_eq_ok_iff :
    (s.load disk path).1 = .ok () ↔ (expand disk s.settings.depthLimit.toNat path).stop = none := by
  cases h : (expand disk s.settings.depthLimit.toNat path).stop with
  | none => simp [s.load_of_complete disk path h]
  | some stop => simp [s.load_of_stopped disk path h]

theorem load_lines :
    (s.load disk path).2.lines = (expand disk s.settings.depthLimit.toNat path).lines := by
  cases h : (expand disk s.settings.depthLimit.toNat path).stop with
  | none => rw [s.load_of_complete disk path h, holding_lines]
  | some stop => rw [s.load_of_stopped disk path h, fail_lines, holding_lines]

theorem exists_stop_of_load {d : Diagnostic} (h : (s.load disk path).1 = .error d) :
    (expand disk s.settings.depthLimit.toNat path).stop = some ⟨d.fault, d.site⟩ := by
  cases he : (expand disk s.settings.depthLimit.toNat path).stop with
  | none => simp [s.load_of_complete disk path he] at h
  | some stop =>
    rw [s.load_of_stopped disk path he] at h
    obtain rfl := Except.error.inj h
    rw [fail_fault, fail_site]

/-- The load of `path` fails on `line`, having taken over the lines `before` until then. -/
def FailsAt (before : List Line) (line : Line) (fault : Fault) : Prop :=
  ∃ d, (s.load disk path).1 = .error d ∧ d.fault = fault ∧ d.site = some line ∧
    (s.load disk path).2.lines = before ++ [line] ∧ (s.load disk path).2.status = .error d

theorem failsAt_iff {before : List Line} {line : Line} {fault : Fault} :
    s.FailsAt disk path before line fault ↔
      (expand disk s.settings.depthLimit.toNat path).stop = some ⟨fault, some line⟩ ∧
        (expand disk s.settings.depthLimit.toNat path).lines = before ++ [line] := by
  constructor
  · rintro ⟨d, hd, rfl, hsite, hlines, -⟩
    rw [s.exists_stop_of_load disk path hd, hsite, ← s.load_lines disk path]
    exact ⟨rfl, hlines⟩
  · rintro ⟨hstop, hlines⟩
    rw [← s.load_lines disk path, s.load_of_stopped disk path hstop] at hlines
    rw [FailsAt, s.load_of_stopped disk path hstop]
    exact ⟨_, rfl, rfl, rfl, hlines, rfl⟩

end Session

end DeviceDescription
