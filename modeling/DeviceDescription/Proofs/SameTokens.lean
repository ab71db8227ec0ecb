import DeviceDescription.Proofs.Alike

/-!
# Rewriting files token by token

A description means what its tokens say. If every file of a disk is rewritten so that its lines,
without those that have no tokens, have the same tokens as before, then every load opens as many
files as before and fails for the same reason, or the sessions it gives read alike. Line numbers
and texts are different throughout; the file that a line stands in is the same.
-/

namespace DeviceDescription

/-- The lines are texts that can be cut into tokens. The rows are the tokens of those with any. -/
inductive Reads : List (List UInt8) → List (List String) → Prop
  | nil : Reads [] []
  | blank {text rest rows} : tokenize text = .ok [] → Reads rest rows →
      Reads (Utf8.encode text :: rest) rows
  | row {text word arguments rest rows} : tokenize text = .ok (word :: arguments) →
      Reads rest rows → Reads (Utf8.encode text :: rest) ((word :: arguments) :: rows)

/-- The rows of lines, if these are texts that can be cut into tokens. -/
def rows? : List (List UInt8) → Option (List (List String))
  | [] => some []
  | bytes :: rest =>
    match (Utf8.decode bytes).map tokenize with
    | .ok (.ok []) => rows? rest
    | .ok (.ok (word :: arguments)) => (rows? rest).map ((word :: arguments) :: ·)
    | .ok (.error _) | .error _ => none

/-- Both files can be read, and their lines have the same rows. -/
def SameRows (data data' : List UInt8) : Prop :=
  ∃ rows, Reads (fileLines data) rows ∧ Reads (fileLines data') rows

/-- The same failure, or files with the same rows. -/
inductive ContentsAlike : Except Obstacle Contents → Except Obstacle Contents → Prop
  | closed (obstacle : Obstacle) : ContentsAlike (.error obstacle) (.error obstacle)
  | unreadable (obstacle : Obstacle) :
      ContentsAlike (.ok (.unreadable obstacle)) (.ok (.unreadable obstacle))
  | bytes {data data'} : SameRows data data' →
      ContentsAlike (.ok (.bytes data)) (.ok (.bytes data'))

/-- Every path leads to the same file on both disks, with the same rows in it. -/
structure Disk.SameTokens (disk disk' : Disk) : Prop where
  identity : ∀ path, (disk.look path).identity = (disk'.look path).identity
  contents : ∀ path, ContentsAlike (disk.look path).contents (disk'.look path).contents

def InSameFile (line line' : Line) : Prop := line.file = line'.file

/-! ### Rows -/

/-- Lines that have the same tokens, when those without tokens are left out. -/
inductive LinesAlike : List (List UInt8) → List (List UInt8) → Prop
  | nil : LinesAlike [] []
  | blank {text rest rest'} : tokenize text = .ok [] → LinesAlike rest rest' →
      LinesAlike (Utf8.encode text :: rest) rest'
  | blank' {text rest rest'} : tokenize text = .ok [] → LinesAlike rest rest' →
      LinesAlike rest (Utf8.encode text :: rest')
  | row {text text' tokens rest rest'} : tokenize text = .ok tokens →
      tokenize text' = .ok tokens → LinesAlike rest rest' →
      LinesAlike (Utf8.encode text :: rest) (Utf8.encode text' :: rest')

theorem reads_of_rows? {lines : List (List UInt8)} {rows : List (List String)}
    (h : rows? lines = some rows) : Reads lines rows := by
  induction lines generalizing rows with
  | nil =>
    obtain rfl := Option.some.inj h
    exact .nil
  | cons bytes rest ih =>
    rw [rows?] at h
    cases hd : Utf8.decode bytes with
    | error flaw => simp [hd, Except.map] at h
    | ok text =>
      obtain rfl := Utf8.decode_eq_ok_iff.mp hd
      cases ht : tokenize text with
      | error e => simp [hd, ht, Except.map] at h
      | ok tokens =>
        cases tokens with
        | nil =>
          simp only [hd, ht, Except.map] at h
          exact .blank ht (ih h)
        | cons word arguments =>
          simp only [hd, ht, Except.map] at h
          obtain ⟨rows, hrows, rfl⟩ := Option.map_eq_some_iff.mp h
          exact .row ht (ih hrows)

theorem Reads.alike {lines lines' : List (List UInt8)} {rows : List (List String)}
    (h : Reads lines rows) (h' : Reads lines' rows) : LinesAlike lines lines' := by
  -- For each row of the first file, the second one is read on over its lines without tokens.
  induction h generalizing lines' with
  | nil =>
    generalize hrows : [] = rows at h'
    induction h' with
    | nil => exact .nil
    | blank ht _ ih => exact .blank' ht (ih hrows)
    | row => cases hrows
  | blank ht _ ih => exact .blank ht (ih h')
  | @row text word arguments rest rows ht _ ih =>
    generalize hrows : (word :: arguments) :: rows = rows' at h'
    induction h' with
    | nil => cases hrows
    | blank ht' _ ih' => exact .blank' ht' (ih' hrows)
    | row ht' hrest' =>
      obtain ⟨htokens, rfl⟩ := List.cons.inj hrows
      rw [← htokens] at ht'
      exact .row ht ht' (ih hrest')

theorem SameRows.alike {data data' : List UInt8} (h : SameRows data data') :
    LinesAlike (fileLines data) (fileLines data') := by
  obtain ⟨rows, hrows, hrows'⟩ := h
  exact hrows.alike hrows'

theorem Disk.SameTokens.key_eq {disk disk' : Disk} (h : disk.SameTokens disk') (path : String) :
    disk.key path = disk'.key path := by
  rw [Disk.key, Disk.key, h.identity]

/-! ### Expansions -/

section Expansion

structure Stop.Alike (stop stop' : Stop) : Prop where
  fault : stop.fault = stop'.fault
  site : Option.Rel InSameFile stop.site stop'.site

variable (showIncludes : Bool)

/-- The expansions deliver alike lines, open as many files and stop alike. -/
structure Expansion.Alike (e e' : Expansion) : Prop where
  delivered : List.Forall₂ (DeliveryAlike InSameFile) (deliveries showIncludes e.lines)
    (deliveries showIncludes e'.lines)
  opened : e.opened = e'.opened
  stop : Option.Rel Stop.Alike e.stop e'.stop

variable {showIncludes} {e e' : Expansion} {second second' : Unit → Expansion} {line line' : Line}
  {tokens : List String}

theorem deliveries_append (lines lines' : List Line) :
    deliveries showIncludes (lines ++ lines') =
      deliveries showIncludes lines ++ deliveries showIncludes lines' :=
  List.filterMap_append

theorem deliveries_of_tokens (rest : List Line) (h : tokenize line.text = .ok tokens) :
    deliveries showIncludes (line :: rest) =
      (if isDelivered showIncludes tokens then [(line, tokens)] else []) ++
        deliveries showIncludes rest := by
  rw [deliveries, List.filterMap_cons, Line.deliveredTokens?, h]
  dsimp only
  cases isDelivered showIncludes tokens <;> rfl

namespace Expansion.Alike

theorem empty : Expansion.empty.Alike showIncludes .empty := ⟨.nil, rfl, .none⟩

theorem stopped (fault : Fault) {site site' : Option Line} (h : Option.Rel InSameFile site site') :
    (Expansion.stopped fault site).Alike showIncludes (.stopped fault site') :=
  ⟨.nil, rfl, .some ⟨rfl, h⟩⟩

theorem opening (h : e.Alike showIncludes e') : e.opening.Alike showIncludes e'.opening :=
  ⟨h.delivered, congrArg (· + 1) h.opened, h.stop⟩

theorem andThen (h : e.Alike showIncludes e')
    (hsecond : (second ()).Alike showIncludes (second' ())) :
    (e.andThen second).Alike showIncludes (e'.andThen second') := by
  have hstop := h.stop
  generalize hs : e.stop = stop at hstop
  generalize hs' : e'.stop = stop' at hstop
  cases hstop with
  | some =>
    rw [Expansion.andThen_of_stopped hs, Expansion.andThen_of_stopped hs']
    exact h
  | none =>
    rw [Expansion.andThen_of_complete hs, Expansion.andThen_of_complete hs']
    refine ⟨?_, ?_, hsecond.stop⟩
    · rw [deliveries_append, deliveries_append]
      exact List.rel_append h.delivered hsecond.delivered
    · rw [h.opened, hsecond.opened]

theorem ofLine (hfile : InSameFile line line') (h : tokenize line.text = .ok tokens)
    (h' : tokenize line'.text = .ok tokens) :
    (Expansion.ofLine line).Alike showIncludes (.ofLine line') := by
  refine ⟨?_, rfl, .none⟩
  rw [Expansion.ofLine, Expansion.ofLine, deliveries_of_tokens [] h, deliveries_of_tokens [] h']
  cases isDelivered showIncludes tokens with
  | true => exact .cons ⟨hfile, rfl⟩ .nil
  | false => exact .nil

theorem skip (hline : tokenize line.text = .ok [])
    (hsecond : (second ()).Alike showIncludes e') :
    ((Expansion.ofLine line).andThen second).Alike showIncludes e' := by
  rw [Expansion.ofLine_andThen]
  refine ⟨?_, hsecond.opened, hsecond.stop⟩
  rw [deliveries_of_tokens _ hline]
  exact hsecond.delivered

theorem skip' (hline : tokenize line.text = .ok [])
    (hsecond : e.Alike showIncludes (second' ())) :
    e.Alike showIncludes ((Expansion.ofLine line).andThen second') := by
  rw [Expansion.ofLine_andThen]
  refine ⟨?_, hsecond.opened, hsecond.stop⟩
  rw [deliveries_of_tokens _ hline]
  exact hsecond.delivered

end Expansion.Alike

section Lines

variable {text path : String} {fault : Fault} (expandInclude : Line → String → Expansion)
  (file : String) (number : Nat) (rest : List (List UInt8))

theorem expandLines_of_error (ht : tokenize text = .ok tokens)
    (h : includeTarget tokens = .error fault) :
    expandLines expandInclude file number (Utf8.encode text :: rest) =
      (Expansion.ofLine ⟨file, number, text⟩).andThen fun _ =>
        .stopped fault (some ⟨file, number, text⟩) := by
  simp only [expandLines, lineTarget_encode file ht, h, Utf8.decodeLossy_encode]

theorem expandLines_of_none (ht : tokenize text = .ok tokens)
    (h : includeTarget tokens = .ok none) :
    expandLines expandInclude file number (Utf8.encode text :: rest) =
      (Expansion.ofLine ⟨file, number, text⟩).andThen fun _ =>
        expandLines expandInclude file (number + 1) rest := by
  simp only [expandLines, lineTarget_encode file ht, h, Utf8.decodeLossy_encode]

theorem expandLines_of_some (ht : tokenize text = .ok tokens)
    (h : includeTarget tokens = .ok (some path)) :
    expandLines expandInclude file number (Utf8.encode text :: rest) =
      (Expansion.ofLine ⟨file, number, text⟩).andThen fun _ =>
        (expandInclude ⟨file, number, text⟩ path).andThen fun _ =>
          expandLines expandInclude file (number + 1) rest := by
  simp only [expandLines, lineTarget_encode file ht, h, Utf8.decodeLossy_encode]

end Lines

section Files

variable {expandInclude expandInclude' : Line → String → Expansion}
  (hinclude : ∀ site site' path, InSameFile site site' →
    (expandInclude site path).Alike showIncludes (expandInclude' site' path))
include hinclude

theorem expandLines_alike {lines lines' : List (List UInt8)} (h : LinesAlike lines lines')
    (file : String) (number number' : Nat) :
    (expandLines expandInclude file number lines).Alike showIncludes
      (expandLines expandInclude' file number' lines') := by
  induction h generalizing number number' with
  | nil => exact .empty
  | blank ht _ ih =>
    rw [expandLines_of_none expandInclude file number _ ht rfl]
    exact .skip ht (ih (number + 1) number')
  | blank' ht _ ih =>
    rw [expandLines_of_none expandInclude' file number' _ ht rfl]
    exact .skip' ht (ih number (number' + 1))
  | @row text text' tokens rest rest' ht ht' _ ih =>
    have hline : (Expansion.ofLine ⟨file, number, text⟩).Alike showIncludes
        (.ofLine ⟨file, number', text'⟩) := .ofLine rfl ht ht'
    have hrest := ih (number + 1) (number' + 1)
    cases htarget : includeTarget tokens with
    | error fault =>
      rw [expandLines_of_error expandInclude file number rest ht htarget,
        expandLines_of_error expandInclude' file number' rest' ht' htarget]
      exact hline.andThen (.stopped fault (.some rfl))
    | ok target =>
      cases target with
      | none =>
        rw [expandLines_of_none expandInclude file number rest ht htarget,
          expandLines_of_none expandInclude' file number' rest' ht' htarget]
        exact hline.andThen hrest
      | some path =>
        rw [expandLines_of_some expandInclude file number rest ht htarget,
          expandLines_of_some expandInclude' file number' rest' ht' htarget]
        have hpath := hinclude ⟨file, number, text⟩ ⟨file, number', text'⟩ path rfl
        exact hline.andThen (hpath.andThen hrest)

theorem expandFile_alike {disk disk' : Disk} (h : disk.SameTokens disk') {site site' : Option Line}
    (hsite : Option.Rel InSameFile site site') (path : String) :
    (expandFile disk expandInclude site path).Alike showIncludes
      (expandFile disk' expandInclude' site' path) := by
  have hcontents := h.contents path
  unfold expandFile
  generalize (disk.look path).contents = contents at hcontents ⊢
  generalize (disk'.look path).contents = contents' at hcontents ⊢
  cases hcontents with
  | closed obstacle => exact .stopped _ hsite
  | unreadable obstacle => exact .opening (.stopped _ .none)
  | bytes hrows => exact .opening (expandLines_alike hinclude hrows.alike path 1 1)

end Files

theorem expandInclude_alike {disk disk' : Disk} (h : disk.SameTokens disk') (limit levels : Nat)
    (active : List String) (path : String) {site site' : Line} (hsite : InSameFile site site') :
    (expandInclude disk limit levels active site path).Alike showIncludes
      (expandInclude disk' limit levels active site' path) := by
  induction levels generalizing active path site site' with
  | zero =>
    rw [expandInclude, expandInclude, h.key_eq]
    split
    · exact .stopped _ (.some hsite)
    · exact .stopped _ (.some hsite)
  | succ levels ih =>
    rw [expandInclude, expandInclude, h.key_eq]
    split
    · exact .stopped _ (.some hsite)
    · exact expandFile_alike (fun site site' path hsite => ih _ path hsite) h (.some hsite) path

variable (showIncludes) in
theorem expand_alike {disk disk' : Disk} (h : disk.SameTokens disk') (limit : Nat)
    (root : String) : (expand disk limit root).Alike showIncludes (expand disk' limit root) := by
  rw [expand, expand, h.key_eq]
  exact expandFile_alike (fun site site' path hsite => expandInclude_alike h _ _ _ path hsite) h
    .none root

end Expansion

/-! ### Sessions -/

/-- Two disks with the same tokens in their files are told apart neither by a load, which fails
with the same fault or opens as many files, nor by the signals and documents that follow. -/
theorem load_alike_of_sameTokens {disk disk' : Disk} (h : disk.SameTokens disk') (s : Session)
    (root : String) :
    AnswerAlike InSameFile (· = ·) (s.load disk root).1 (s.load disk' root).1 ∧
      (s.load disk root).2.filesOpened = (s.load disk' root).2.filesOpened ∧
      (s.load disk root).2.Alike InSameFile (s.load disk' root).2 := by
  have he := expand_alike s.settings.showIncludes h s.settings.depthLimit.toNat root
  have hstop := he.stop
  generalize hs : (expand disk s.settings.depthLimit.toNat root).stop = stop at hstop
  generalize hs' : (expand disk' s.settings.depthLimit.toNat root).stop = stop' at hstop
  cases hstop with
  | none =>
    have hstands := Session.stands_of_load ((s.load_eq_ok_iff disk root).mpr hs)
    have hstands' := Session.stands_of_load ((s.load_eq_ok_iff disk' root).mpr hs')
    rw [s.load_lines] at hstands hstands'
    have halike := hstands.alike hstands' .none he.delivered
    rw [s.load_of_complete disk root hs, s.load_of_complete disk' root hs'] at halike ⊢
    exact ⟨.ok rfl, he.opened, halike⟩
  | some hstop =>
    rw [s.load_of_stopped disk root hs, s.load_of_stopped disk' root hs']
    exact ⟨.error ⟨hstop.fault, hstop.site⟩, he.opened,
      Session.alike_of_diagnostic rfl rfl ⟨hstop.fault, hstop.site⟩ .none⟩

theorem Disk.ofTexts_sameTokens {texts texts' : List (String × String)}
    (h : List.Forall₂ (fun file file' => file.1 = file'.1 ∧
      SameRows (Utf8.encode file.2) (Utf8.encode file'.2)) texts texts') :
    (Disk.ofTexts texts).SameTokens (.ofTexts texts') := by
  have hlookup (path : String) :
      Option.Rel (fun text text' => SameRows (Utf8.encode text) (Utf8.encode text'))
        (texts.lookup path) (texts'.lookup path) := by
    induction h with
    | nil => exact .none
    | @cons file file' texts texts' hfile _ ih =>
      obtain ⟨name, text⟩ := file
      obtain ⟨name', text'⟩ := file'
      obtain ⟨rfl, hrows⟩ := hfile
      rw [List.lookup_cons, List.lookup_cons]
      cases path == name with
      | true => exact .some hrows
      | false => exact ih
  have hlook (path : String) :
      ((Disk.ofTexts texts).look path).identity = ((Disk.ofTexts texts').look path).identity ∧
        ContentsAlike ((Disk.ofTexts texts).look path).contents
          ((Disk.ofTexts texts').look path).contents := by
    have hpath := hlookup path
    dsimp only [ofTexts]
    generalize texts.lookup path = text at hpath ⊢
    generalize texts'.lookup path = text' at hpath ⊢
    cases hpath with
    | none => exact ⟨rfl, .closed .notFound⟩
    | some hrows => exact ⟨rfl, .bytes hrows⟩
  exact ⟨fun path => (hlook path).1, fun path => (hlook path).2⟩

def knee : Disk :=
  .ofTexts [("knee.dd", "begin motor left\n  include gains.dd\nend motor\n"),
    ("gains.dd", "kp 40.0\nkd 2.5")]

/-- The same knee with a comment, quotes, empty lines and other line ends. -/
def kneeRewritten : Disk :=
  .ofTexts [("knee.dd", "# the left one\r\nbegin \"motor\" left\r\n\r\ninclude gains.dd\r\nend motor"),
    ("gains.dd", "kp \"40.0\" # stiff\n\n kd\t2.5\n")]

theorem knee_sameTokens : knee.SameTokens kneeRewritten := by
  apply Disk.ofTexts_sameTokens
  refine .cons
    ⟨rfl, [["begin", "motor", "left"], ["include", "gains.dd"], ["end", "motor"]], ?_, ?_⟩
    (.cons ⟨rfl, [["kp", "40.0"], ["kd", "2.5"]], ?_, ?_⟩ .nil)
  all_goals exact reads_of_rows? (by decide +kernel)

/-- The device of the rewritten knee begins one line further down. -/
theorem load_kneeRewritten :
    knee.SameTokens kneeRewritten ∧
      ((Session.new {}).load knee "knee.dd").2.Alike InSameFile
        ((Session.new {}).load kneeRewritten "knee.dd").2 ∧
      ((Session.new {}).load knee "knee.dd").2.readDocument.1 = .ok ⟨[], [⟨"motor", "knee.dd", 1,
        [["include", "gains.dd"], ["kp", "40.0"], ["kd", "2.5"]]⟩]⟩ ∧
      ((Session.new {}).load kneeRewritten "knee.dd").2.readDocument.1 = .ok ⟨[], [⟨"motor",
        "knee.dd", 2, [["include", "gains.dd"], ["kp", "40.0"], ["kd", "2.5"]]⟩]⟩ := by
  obtain ⟨-, -, halike⟩ := load_alike_of_sameTokens knee_sameTokens (.new {}) "knee.dd"
  exact ⟨knee_sameTokens, halike, by decide +kernel, by decide +kernel⟩

end DeviceDescription
