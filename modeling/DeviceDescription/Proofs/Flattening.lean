import DeviceDescription.Proofs.Alike
import DeviceDescription.Proofs.Hiding
import DeviceDescription.Proofs.Lines

/-!
# Flattening a description

The lines that a load takes over from many files, written to a single file without the include
lines among them, load as that file does, and are read alike: `WrittenTo` says which line has become
which. No more is asked of the lines than that they are texts without a newline and can be cut into
tokens, and this they are because they have been loaded.
-/

namespace DeviceDescription

/-- The lines that are not include lines. -/
def ownLines (lines : List Line) : List Line := lines.filter fun line => !line.isInclude

/-- The lines that are not include lines as a text, each with a newline after it. -/
def flatText (lines : List Line) : String :=
  String.join ((ownLines lines).map fun line => line.text ++ "\n")

/-- The first line has become the second: it is the one of `lines` that the second one's number in
the file at `path` counts. -/
structure WrittenTo (path : String) (lines : List Line) (line line' : Line) : Prop where
  file : line'.file = path
  number : ∃ k, line'.number = k + 1 ∧ lines[k]? = some line

/-- The line has become one with the same tokens. -/
structure CopiedTo (path : String) (lines : List Line) (line line' : Line) : Prop where
  written : WrittenTo path lines line line'
  tokens : tokenize line'.text = tokenize line.text

/-! ### The text -/

theorem Spliced.newline_not_mem {disk : Disk} {limit : Nat} {file : String} {above : List String}
    {number : Nat} {rest : List (List UInt8)} {lines : List Line}
    (h : Spliced disk limit file above number rest lines) (hrest : ∀ bytes ∈ rest, newline ∉ bytes) :
    ∀ line ∈ lines, newline ∉ Utf8.encode line.text := by
  induction h with
  | done =>
    intro line hl
    cases hl
  | plain _ _ _ ih =>
    obtain ⟨hfirst, hrest⟩ := List.forall_mem_cons.mp hrest
    exact List.forall_mem_cons.mpr ⟨hfirst, ih hrest⟩
  | included _ _ _ _ ihInner ihRest =>
    obtain ⟨hfirst, hrest⟩ := List.forall_mem_cons.mp hrest
    have hinner := ihInner fun bytes => newline_not_mem_of_fileLines
    exact List.forall_mem_cons.mpr ⟨hfirst, List.forall_mem_append.mpr ⟨hinner, ihRest hrest⟩⟩

theorem encode_flatText (lines : List Line) :
    Utf8.encode (flatText lines) =
      ((ownLines lines).map fun line => Utf8.encode line.text).flatMap
        fun bytes => bytes ++ [newline] := by
  rw [flatText]
  induction ownLines lines with
  | nil => rfl
  | cons line rest ih =>
    rw [List.map_cons, List.map_cons, String.join_cons, Utf8.encode_append, Utf8.encode_append, ih,
      List.flatMap_cons]
    rfl

theorem fileLines_flatText {lines : List Line}
    (h : ∀ line ∈ lines, newline ∉ Utf8.encode line.text) :
    fileLines (Utf8.encode (flatText lines)) =
      (ownLines lines).map fun line => dropReturn (Utf8.encode line.text) := by
  have hpieces : ∀ bytes ∈ (ownLines lines).map fun line => Utf8.encode line.text,
      newline ∉ bytes := by
    intro bytes hb
    obtain ⟨line, hline, rfl⟩ := List.mem_map.mp hb
    exact h line (List.mem_of_mem_filter hline)
  rw [fileLines, encode_flatText, splitLines_flatMap_ended hpieces, List.map_map]
  rfl

/-! ### The file -/

section File

variable {path : String} {lines copies : List Line}

theorem exists_tokens_of_ownLines (h : ∀ line ∈ lines, line.Checked) :
    ∀ line ∈ ownLines lines, ∃ tokens, tokenize line.text = .ok tokens ∧
      tokens.head? ≠ some includeWord := by
  intro line hline
  obtain ⟨hmem, hown⟩ := List.mem_filter.mp hline
  obtain ⟨tokens, ht, -⟩ := h line hmem
  refine ⟨tokens, ht, ?_⟩
  intro hword
  rw [(isInclude_iff ht).mpr hword] at hown
  cases hown

variable (path) in
theorem exists_spliced_of_own (disk : Disk) (limit : Nat) (before : List Line) {rest : List Line}
    (hsplit : before ++ rest = lines)
    (h : ∀ line ∈ rest, ∃ tokens, tokenize line.text = .ok tokens ∧
      tokens.head? ≠ some includeWord) :
    ∃ copies, List.Forall₂ (CopiedTo path lines) rest copies ∧
      Spliced disk limit path [] (before.length + 1)
        (rest.map fun line => dropReturn (Utf8.encode line.text)) copies := by
  -- The lines `before` have been written already, and so number the next one.
  induction rest generalizing before with
  | nil => exact ⟨[], .nil, .done⟩
  | cons line rest ih =>
    obtain ⟨⟨tokens, ht, hword⟩, hrest⟩ := List.forall_mem_cons.mp h
    have hmore : (before ++ [line]) ++ rest = lines := by
      rw [List.append_assoc, List.singleton_append, hsplit]
    obtain ⟨copies, hcopies, hspliced⟩ := ih _ hmore hrest
    rw [List.length_append, List.length_singleton] at hspliced
    obtain ⟨kept, hkept, hcases⟩ := Utf8.dropReturn_encode line.text
    have hsame : tokenize kept = tokenize line.text := by
      rcases hcases with heq | heq
      · rw [heq]
      · rw [heq, tokenize_return]
    have hplace : lines[before.length]? = some line := by
      rw [← hsplit, List.getElem?_append_right (Nat.le_refl _), Nat.sub_self]
      rfl
    refine ⟨⟨path, before.length + 1, kept⟩ :: copies,
      .cons ⟨⟨rfl, before.length, rfl, hplace⟩, hsame⟩ hcopies, ?_⟩
    rw [List.map_cons, hkept]
    exact .plain (hsame.trans ht) hword hspliced

theorem deliveries_copies (showIncludes : Bool) {rest : List Line}
    (h : List.Forall₂ (CopiedTo path lines) rest copies) :
    List.Forall₂ (DeliveryAlike (WrittenTo path lines)) (deliveries showIncludes rest)
      (deliveries showIncludes copies) := by
  refine List.rel_filterMap ?_ h
  intro line line' hcopied
  dsimp only
  rw [Line.deliveredTokens?, Line.deliveredTokens?, hcopied.tokens]
  cases tokenize line.text with
  | error e => exact .none
  | ok tokens =>
    dsimp only
    cases isDelivered showIncludes tokens with
    | true => exact .some ⟨hcopied.written, rfl⟩
    | false => exact .none

theorem countP_isInclude_copies {rest : List Line}
    (h : List.Forall₂ (CopiedTo path lines) rest copies) :
    copies.countP Line.isInclude = rest.countP Line.isInclude := by
  induction h with
  | nil => rfl
  | @cons line line' _ _ hcopied _ ih =>
    have hsame : line'.isInclude = line.isInclude := by
      rw [Line.isInclude, Line.isInclude, hcopied.tokens]
    rw [List.countP_cons, List.countP_cons, ih, hsame]

theorem countP_isInclude_ownLines (lines : List Line) :
    (ownLines lines).countP Line.isInclude = 0 := by
  rw [List.countP_eq_zero]
  intro line hline
  simpa using (List.mem_filter.mp hline).2

theorem expands_copies {disk : Disk} (limit : Nat)
    (hholds : disk.Holds path (Utf8.encode (flatText lines)))
    (hchecked : ∀ line ∈ lines, line.Checked)
    (hnewline : ∀ line ∈ lines, newline ∉ Utf8.encode line.text) :
    ∃ copies, List.Forall₂ (CopiedTo path (ownLines lines)) (ownLines lines) copies ∧
      expand disk limit path = ⟨copies, 1, none⟩ := by
  obtain ⟨copies, hcopies, hspliced⟩ := exists_spliced_of_own path disk limit []
    (List.nil_append (ownLines lines)) (exists_tokens_of_ownLines hchecked)
  rw [← fileLines_flatText hnewline] at hspliced
  have hexpands : disk.Expands limit path copies := ⟨_, hholds, hspliced⟩
  refine ⟨copies, hcopies, ?_⟩
  rw [hexpands.expand_eq, countP_isInclude_copies hcopies, countP_isInclude_ownLines]

end File

/-! ### Reading -/

/-- Lines that are not include lines are delivered whether or not these are shown. -/
theorem deliveries_ownLines (showIncludes : Bool) (lines : List Line) :
    deliveries showIncludes (ownLines lines) = deliveries false lines := by
  rw [ownLines, deliveries, deliveries, List.filterMap_filter]
  congr 1
  funext line
  unfold Line.isInclude Line.deliveredTokens?
  cases tokenize line.text with
  | error e => simp
  | ok tokens =>
    cases tokens with
    | nil => rfl
    | cons word arguments => by_cases h : word = includeWord <;> simp [isDelivered, h]

theorem newline_not_mem_of_load {s : Session} {disk : Disk} {root : String}
    (h : (s.load disk root).1 = .ok ()) :
    ∀ line ∈ (s.load disk root).2.lines, newline ∉ Utf8.encode line.text := by
  obtain ⟨data, -, hspliced⟩ := expands_of_expand ((s.load_eq_ok_iff disk root).mp h)
  rw [s.load_lines]
  exact hspliced.newline_not_mem fun bytes => newline_not_mem_of_fileLines

/-- A description that loads is written to one file without its include lines. Whatever the session
it is loaded in, that file loads, as the only one, and is then read like the description with
include lines hidden: the signals are the same to the end, which is in both the end of the lines or
the same fault at the same line, and so is the document but for the places of its devices, or the
fault for which there is none. -/
theorem load_flatText (s t : Session) (disk disk' : Disk) (root path : String)
    (hload : (s.load disk root).1 = .ok ())
    (hholds : disk'.Holds path (Utf8.encode (flatText (s.load disk root).2.lines))) :
    (t.load disk' path).1 = .ok () ∧ (t.load disk' path).2.filesOpened = 1 ∧
      ((s.showing false).load disk root).2.Alike
        (WrittenTo path (ownLines (s.load disk root).2.lines)) (t.load disk' path).2 := by
  obtain ⟨copies, hcopies, hexpand⟩ := expands_copies t.settings.depthLimit.toNat hholds
    (Session.checked_of_load hload) (newline_not_mem_of_load hload)
  have hflat : (expand disk' t.settings.depthLimit.toNat path).stop = none := by rw [hexpand]
  have hok : (t.load disk' path).1 = .ok () := (t.load_eq_ok_iff disk' path).mpr hflat
  refine ⟨hok, ?_, ?_⟩
  · rw [t.load_of_complete disk' path hflat, hexpand]
    rfl
  · have hhidden : ((s.showing false).load disk root).1 = .ok () := by rw [s.load_showing, hload]
    have hstands := Session.stands_of_load hhidden
    have hstands' := Session.stands_of_load hok
    have hlines : ((s.showing false).load disk root).2.lines = (s.load disk root).2.lines := by
      rw [s.load_showing]
      rfl
    rw [hlines] at hstands
    rw [t.load_lines, hexpand] at hstands'
    refine hstands.alike hstands' .none ?_
    have hdelivered := deliveries_copies t.settings.showIncludes hcopies
    rw [deliveries_ownLines] at hdelivered
    exact hdelivered

/-- A motor whose block begins in another file than it ends in. Of its first gain the line ends in a
carriage return of its own. -/
def ankle : Disk :=
  .ofTexts [("ankle.dd", "include open.dd\n  kp 40.0\r\r\nend motor"),
    ("open.dd", "# the ankle\nbegin motor")]

def ankleLines : List Line :=
  [⟨"ankle.dd", 1, "include open.dd"⟩, ⟨"open.dd", 1, "# the ankle"⟩, ⟨"open.dd", 2, "begin motor"⟩,
    ⟨"ankle.dd", 2, "  kp 40.0\r"⟩, ⟨"ankle.dd", 3, "end motor"⟩]

def ankleFlat : Disk :=
  .ofTexts [("flat.dd", "# the ankle\nbegin motor\n  kp 40.0\r\nend motor\n")]

theorem load_ankleFlat :
    ankleFlat.Holds "flat.dd" (Utf8.encode (flatText ankleLines)) ∧
      ((Session.new {}).load ankleFlat "flat.dd").2.filesOpened = 1 ∧
      (((Session.new {}).showing false).load ankle "ankle.dd").2.Alike
        (WrittenTo "flat.dd" (ownLines ankleLines)) ((Session.new {}).load ankleFlat "flat.dd").2 ∧
      (((Session.new {}).showing false).load ankle "ankle.dd").2.readDocument.1 =
        .ok ⟨[], [⟨"motor", "open.dd", 2, [["kp", "40.0"]]⟩]⟩ ∧
      ((Session.new {}).load ankleFlat "flat.dd").2.readDocument.1 =
        .ok ⟨[], [⟨"motor", "flat.dd", 2, [["kp", "40.0"]]⟩]⟩ := by
  have hlines : ((Session.new {}).load ankle "ankle.dd").2.lines = ankleLines := by decide +kernel
  have hflat : flatText ankleLines = "# the ankle\nbegin motor\n  kp 40.0\r\nend motor\n" := by
    decide +kernel
  have hholds : ankleFlat.Holds "flat.dd" (Utf8.encode (flatText ankleLines)) := by
    rw [hflat]
    rfl
  have hload := load_flatText (.new {}) (.new {}) ankle ankleFlat "ankle.dd" "flat.dd"
    (by decide +kernel) (by rw [hlines]; exact hholds)
  rw [hlines] at hload
  obtain ⟨-, hopened, halike⟩ := hload
  exact ⟨hholds, hopened, halike, by decide +kernel, by decide +kernel⟩

end DeviceDescription
