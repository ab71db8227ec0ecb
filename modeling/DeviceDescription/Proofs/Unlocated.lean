import DeviceDescription.Proofs.Reach

/-!
# Failures without a line

A load that fails after a line has been read blames the line read last, with one exception. A file
that is included, opens and then cannot be read is blamed on no line at all, as if it were the root
of the description.
-/

namespace DeviceDescription

/-- The expansion of `root` comes to `line` after the lines `before`. The line includes a file that
is neither being expanded nor too deep, opens, and then cannot be read. -/
inductive OpensUnreadable (disk : Disk) (limit : Nat) (root : String) (before : List Line)
    (line : Line) (path : String) (obstacle : Obstacle) : Prop
  | intro {above rest} :
      Reached disk limit root before line.file above line.number (Utf8.encode line.text :: rest) →
      tokenize line.text = .ok [includeWord, path] →
      disk.key path ∉ (line.file :: above).map disk.key → above.length < limit →
      (disk.look path).contents = .ok (.unreadable obstacle) →
      OpensUnreadable disk limit root before line path obstacle

section Site

variable {disk : Disk} {limit : Nat} {root : String} {before : List Line} {file : String}
  {above : List String} {number : Nat} {bytes : List UInt8} {rest : List (List UInt8)}
  {fault : Fault} {site : Option Line}

theorem Disk.Refuses.site_eq {chain : List String} {line : Line} {path : String}
    (h : disk.Refuses limit chain line path ⟨fault, site⟩) :
    site = some line ∨
      site = none ∧ disk.key path ∉ chain.map disk.key ∧ chain.length ≤ limit ∧
        ∃ obstacle, (disk.look path).contents = .ok (.unreadable obstacle) := by
  generalize hstop : (⟨fault, site⟩ : Stop) = stop at h
  cases h with
  | cycle | deep | closed =>
    obtain ⟨-, hsite⟩ := Stop.mk.inj hstop
    exact .inl hsite
  | unreadable hfresh hlen hc =>
    obtain ⟨-, hsite⟩ := Stop.mk.inj hstop
    exact .inr ⟨hsite, hfresh, hlen, _, hc⟩

theorem Faulty.site_eq_or_opensUnreadable
    (h : Faulty disk limit file above number bytes ⟨fault, site⟩)
    (hreached : Reached disk limit root before file above number (bytes :: rest)) :
    site = some ⟨file, number, Utf8.decodeLossy bytes⟩ ∨
      site = none ∧ ∃ path obstacle, OpensUnreadable disk limit root before
        ⟨file, number, Utf8.decodeLossy bytes⟩ path obstacle := by
  generalize hstop : (⟨fault, site⟩ : Stop) = stop at h
  cases h with
  | malformed =>
    obtain ⟨-, hsite⟩ := Stop.mk.inj hstop
    exact .inl hsite
  | @refused path _ htarget hrefuses =>
    obtain ⟨text, tokens, rfl, htok, hsome⟩ := exists_tokens_of_lineTarget htarget
    obtain rfl := includeTarget_eq_some_iff.mp hsome
    rw [← hstop] at hrefuses
    refine hrefuses.site_eq.imp_right ?_
    rintro ⟨hsite, hfresh, hlen, obstacle, hc⟩
    rw [Utf8.decodeLossy_encode]
    exact ⟨hsite, path, obstacle, .intro hreached htok hfresh hlen hc⟩

theorem OpensUnreadable.stops {line : Line} {path : String} {obstacle : Obstacle}
    (h : OpensUnreadable disk limit root before line path obstacle) :
    (expand disk limit root).stop = some ⟨.readFailed path obstacle.message, none⟩ ∧
      (expand disk limit root).lines = before ++ [line] := by
  obtain ⟨hreached, htok, hfresh, hlen, hc⟩ := h
  have hfaulty : Faulty disk limit line.file _ line.number (Utf8.encode line.text)
      ⟨.readFailed path obstacle.message, none⟩ :=
    .refused (lineTarget_include line.file htok) (.unreadable hfresh hlen hc)
  have hstops := (hreached.stops_iff _).mpr hfaulty
  rwa [Utf8.decodeLossy_encode] at hstops

theorem lines_eq_nil_iff_not_holds (hstop : (expand disk limit root).stop ≠ none) :
    (expand disk limit root).lines = [] ↔ ∀ data, ¬ disk.Holds root data := by
  constructor
  · intro hnil data hholds
    rw [expand_of_holds hholds] at hstop hnil
    exact lines_ne_nil_of_stop hstop hnil
  · intro hno
    rcases exists_holds_or_stop disk limit root with ⟨data, hholds⟩ | ⟨_, hnil, -⟩
    · exact absurd hholds (hno data)
    · exact hnil

theorem stop_site_cases (hstop : (expand disk limit root).stop = some ⟨fault, site⟩) :
    (site = none ∧ ∀ data, ¬ disk.Holds root data) ∨
      (∃ before line, site = some line ∧ (expand disk limit root).lines = before ++ [line]) ∨
      (site = none ∧ ∃ before line path obstacle,
        OpensUnreadable disk limit root before line path obstacle) := by
  rcases exists_holds_or_stop disk limit root with ⟨data, hholds⟩ | ⟨_, hnil, hroot⟩
  · have hpart := hstop
    rw [expand_of_holds hholds] at hpart
    obtain ⟨before, file, above, number, bytes, rest, hreached, hfaulty⟩ :=
      exists_faulty_of_expandRest (.root hholds) hpart
    have hlines := ((hreached.stops_iff _).mpr hfaulty).2
    rcases hfaulty.site_eq_or_opensUnreadable hreached with hsite | ⟨hsite, path, obstacle, hopens⟩
    · exact .inr (.inl ⟨before, _, hsite, hlines⟩)
    · exact .inr (.inr ⟨hsite, before, _, path, obstacle, hopens⟩)
  · have hsome : (expand disk limit root).stop ≠ none := by
      rw [hstop]
      exact Option.some_ne_none _
    have hno := (lines_eq_nil_iff_not_holds hsome).mp hnil
    rw [hstop, Option.some.injEq, Option.some.injEq, Stop.mk.injEq, Stop.mk.injEq] at hroot
    refine .inl ⟨?_, hno⟩
    rcases hroot with ⟨-, hsite⟩ | ⟨-, hsite⟩ <;> exact hsite

theorem OpensUnreadable.fault_eq {line : Line} {path : String} {obstacle : Obstacle}
    (h : OpensUnreadable disk limit root before line path obstacle)
    (hstop : (expand disk limit root).stop = some ⟨fault, site⟩) :
    fault = .readFailed path obstacle.message ∧ site = none := by
  have hsame := hstop.symm.trans h.stops.1
  exact Stop.mk.inj (Option.some.inj hsame)

theorem lines_of_site {line : Line}
    (hstop : (expand disk limit root).stop = some ⟨fault, some line⟩) :
    ∃ before, (expand disk limit root).lines = before ++ [line] := by
  rcases stop_site_cases hstop with ⟨hnone, -⟩ | ⟨before, line', hline, hlines⟩ | ⟨hnone, -⟩
  · cases hnone
  · obtain rfl := Option.some.inj hline
    exact ⟨before, hlines⟩
  · cases hnone

theorem stop_site_eq_none_iff (hstop : (expand disk limit root).stop = some ⟨fault, site⟩) :
    site = none ↔ (∀ data, ¬ disk.Holds root data) ∨
      ∃ before line path obstacle, OpensUnreadable disk limit root before line path obstacle := by
  constructor
  · intro hsite
    rcases stop_site_cases hstop with ⟨-, hno⟩ | ⟨before, line, hline, -⟩ | ⟨-, hunreadable⟩
    · exact .inl hno
    · rw [hsite] at hline
      cases hline
    · exact .inr hunreadable
  · rintro (hno | ⟨before, line, path, obstacle, hopens⟩)
    · have hsome : (expand disk limit root).stop ≠ none := by
        rw [hstop]
        exact Option.some_ne_none _
      have hnil := (lines_eq_nil_iff_not_holds hsome).mpr hno
      cases site with
      | none => rfl
      | some line =>
        obtain ⟨before, hlines⟩ := lines_of_site hstop
        rw [hnil] at hlines
        exact absurd hlines.symm (List.append_ne_nil_of_right_ne_nil _ (List.cons_ne_nil _ _))
    · exact (hopens.fault_eq hstop).2

end Site

/-- A load that fails blames the last line taken over unless it has taken over none, the root being
one that does not open or cannot be read, or the last line includes a file that opens and cannot be
read. In these two cases it blames no line. -/
theorem load_site_eq_none_iff (s : Session) (disk : Disk) (root : String) (d : Diagnostic)
    (hload : (s.load disk root).1 = .error d) :
    (d.site = none ↔ (∀ data, ¬ disk.Holds root data) ∨ ∃ before line path obstacle,
      OpensUnreadable disk s.settings.depthLimit.toNat root before line path obstacle) ∧
    (∀ before line path obstacle,
      OpensUnreadable disk s.settings.depthLimit.toNat root before line path obstacle →
      (s.load disk root).2.lines = before ++ [line] ∧
        d.fault = .readFailed path obstacle.message) ∧
    (∀ line, d.site = some line → ∃ before, (s.load disk root).2.lines = before ++ [line]) ∧
    ((s.load disk root).2.lines = [] ↔ ∀ data, ¬ disk.Holds root data) := by
  have hstop := s.exists_stop_of_load disk root hload
  rw [s.load_lines]
  generalize s.settings.depthLimit.toNat = limit at hstop ⊢
  refine ⟨stop_site_eq_none_iff hstop, ?_, ?_, ?_⟩
  · intro before line path obstacle hopens
    exact ⟨hopens.stops.2, (hopens.fault_eq hstop).1⟩
  · intro line hsite
    rw [hsite] at hstop
    exact lines_of_site hstop
  · apply lines_eq_nil_iff_not_holds
    rw [hstop]
    exact Option.some_ne_none _

/-- The disk with a directory at `path`, which can be opened but not read. -/
def Disk.withDirectory (disk : Disk) (path : String) : Disk :=
  ⟨fun p => if p = path then ⟨some p, .ok (.unreadable .isDirectory)⟩ else disk.look p⟩

/-- A robot that includes the directory of its parts in the place of a file. -/
def partsDirectory : Disk :=
  (Disk.ofTexts [("robot.dd", "bus can0\ninclude parts\n")]).withDirectory "parts"

def partsDirectoryDiagnostic : Diagnostic :=
  ⟨.readFailed "parts" "Is a directory (os error 21)", none,
    "failed reading parts: Is a directory (os error 21)"⟩

theorem opensUnreadable_partsDirectory :
    OpensUnreadable partsDirectory 64 "robot.dd" [⟨"robot.dd", 1, "bus can0"⟩]
      ⟨"robot.dd", 2, "include parts"⟩ "parts" .isDirectory := by
  have hholds : partsDirectory.Holds "robot.dd" (Utf8.encode "bus can0\ninclude parts\n") := by
    simp only [partsDirectory, Disk.withDirectory, Disk.Holds, Disk.ofTexts]
    rfl
  have hlines : fileLines (Utf8.encode "bus can0\ninclude parts\n") =
      [Utf8.encode "bus can0", Utf8.encode "include parts"] := by decide +kernel
  have hroot : Reached partsDirectory 64 "robot.dd" [] "robot.dd" [] 1
      (fileLines (Utf8.encode "bus can0\ninclude parts\n")) := .root hholds
  rw [hlines] at hroot
  have hinclude := @Reached.plain _ _ _ _ _ _ _ _ ["bus", "can0"] _ hroot (by decide +kernel)
    (by decide +kernel)
  exact .intro hinclude (by decide +kernel) (by decide +kernel) (by decide) rfl

theorem load_partsDirectory :
    ((Session.new {}).load partsDirectory "robot.dd").1 = .error partsDirectoryDiagnostic ∧
      partsDirectoryDiagnostic.site = none ∧
      ((Session.new {}).load partsDirectory "robot.dd").2.lines =
        [⟨"robot.dd", 1, "bus can0"⟩] ++ [⟨"robot.dd", 2, "include parts"⟩] := by
  have hload : ((Session.new {}).load partsDirectory "robot.dd").1 =
      .error partsDirectoryDiagnostic := by decide +kernel
  obtain ⟨hnone, hlast, -, -⟩ := load_site_eq_none_iff (.new {}) partsDirectory "robot.dd"
    partsDirectoryDiagnostic hload
  have hopens := opensUnreadable_partsDirectory
  exact ⟨hload, hnone.mpr (.inr ⟨_, _, _, _, hopens⟩), (hlast _ _ _ _ hopens).1⟩

theorem not_located_of_lines_ne_nil :
    ¬ ∀ (s : Session) (disk : Disk) (root : String) (d : Diagnostic),
      (s.load disk root).1 = .error d → (s.load disk root).2.lines ≠ [] →
        ∃ line ∈ (s.load disk root).2.lines, d.site = some line := by
  intro hlocated
  have hload : ((Session.new {}).load partsDirectory "robot.dd").1 =
      .error partsDirectoryDiagnostic := by decide +kernel
  have hlines : ((Session.new {}).load partsDirectory "robot.dd").2.lines ≠ [] := by
    decide +kernel
  obtain ⟨line, -, hsite⟩ := hlocated _ _ _ _ hload hlines
  cases hsite

end DeviceDescription
