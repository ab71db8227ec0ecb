import DeviceDescription.Proofs.Lines
import DeviceDescription.Proofs.Splice

/-!
# Line ends

A file is its lines, each with the way it ends. Put together from texts and line ends, a file is cut
into the same texts again; and every file is put together like that from the lines that it is cut
into. What can be told from the lines alone is all but the line ends: a carriage return before a
newline, or before the end of the file, belongs to these, and so does the newline that the last line
may lack.
-/

namespace DeviceDescription

inductive LineEnd where
  | lf
  | crlf
  | cr
  | bare
  deriving DecidableEq, Repr

namespace LineEnd

def bytes : LineEnd → List UInt8
  | lf => [newline]
  | crlf => [carriageReturn, newline]
  | cr => [carriageReturn]
  | bare => []

/-- Whether the line ends in a newline. Only the last line of a file may not. -/
def isTerminated : LineEnd → Bool
  | lf | crlf => true
  | cr | bare => false

def hasReturn : LineEnd → Bool
  | crlf | cr => true
  | lf | bare => false

/-- The bytes before the newline. -/
def returnBytes (ending : LineEnd) : List UInt8 := if ending.hasReturn then [carriageReturn] else []

end LineEnd

/-- The file that has these lines with these ends. -/
def fileOf (rows : List (String × LineEnd)) : List UInt8 :=
  rows.flatMap fun row => Utf8.encode row.1 ++ row.2.bytes

/-- The text can stand before the line end: it has no newline, and a carriage return at its end is
followed by another one. -/
structure LineEnd.Fits (ending : LineEnd) (text : String) : Prop where
  oneLine : '\n' ∉ text.toList
  return_eq : text.toList.getLast? = some '\r' → ending.hasReturn = true

/-- The rows can be the lines of a file: no line but the last lacks a newline, and that one is not
altogether empty. -/
inductive Lined : List (String × LineEnd) → Prop
  | nil : Lined []
  | last {text ending} : ending.Fits text → ending.isTerminated = false → (text, ending) ≠ ("", .bare) →
      Lined [(text, ending)]
  | cons {text ending rows} : ending.Fits text → ending.isTerminated = true → Lined rows →
      Lined ((text, ending) :: rows)

/-- The texts as lines of `file`, numbered from `number` on. -/
def numbered (file : String) (number : Nat) : List String → List Line
  | [] => []
  | text :: texts => ⟨file, number, text⟩ :: numbered file (number + 1) texts

/-- The text is cut into tokens and includes nothing. -/
def IsOwn (text : String) : Prop :=
  ∃ tokens, tokenize text = .ok tokens ∧ tokens.head? ≠ some includeWord

instance (text : String) : Decidable (IsOwn text) :=
  match h : tokenize text with
  | .ok tokens => decidable_of_iff (tokens.head? ≠ some includeWord) (by simp [IsOwn, h])
  | .error _ => .isFalse (by simp [IsOwn, h])

/-! ### Line ends -/

section Ends

variable {rest : List UInt8} {text : String} {ending : LineEnd}

theorem LineEnd.bytes_of_terminated (h : ending.isTerminated = true) :
    ending.bytes = ending.returnBytes ++ [newline] := by
  cases ending with
  | lf | crlf => rfl
  | cr | bare => cases h

theorem LineEnd.bytes_of_not_terminated (h : ending.isTerminated = false) :
    ending.bytes = ending.returnBytes := by
  cases ending with
  | lf | crlf => cases h
  | cr | bare => rfl

namespace LineEnd.Fits

theorem newline_not_mem (h : ending.Fits text) :
    newline ∉ Utf8.encode text ++ ending.returnBytes := by
  rw [List.mem_append]
  rintro (htext | hreturn)
  · exact h.oneLine (Utf8.newline_mem_encode_iff.mp htext)
  · unfold returnBytes at hreturn
    split at hreturn
    · exact absurd hreturn (by decide)
    · cases hreturn

theorem dropReturn_eq (h : ending.Fits text) :
    dropReturn (Utf8.encode text ++ ending.returnBytes) = Utf8.encode text := by
  unfold returnBytes
  split
  · exact dropReturn_concat _
  · next hnot =>
    rw [List.append_nil]
    refine if_neg ?_
    intro hlast
    obtain ⟨kept, rfl⟩ := Utf8.exists_eq_append_return hlast
    exact hnot (h.return_eq (by simp [String.toList_append]))

theorem of_newline_not_mem (hnewline : newline ∉ Utf8.encode text)
    (hreturn : (Utf8.encode text).getLast? = some carriageReturn → ending.hasReturn = true) :
    ending.Fits text where
  oneLine := fun hc => hnewline (Utf8.newline_mem_encode_iff.mpr hc)
  return_eq := by
    intro hlast
    obtain ⟨kept, hkept⟩ := List.getLast?_eq_some_iff.mp hlast
    apply hreturn
    have htext : text = String.ofList kept ++ "\r" := by
      rw [← String.toList_inj, hkept, String.toList_append, String.toList_ofList]
      rfl
    rw [htext, Utf8.encode_return, List.getLast?_concat]

theorem fileLines_eq (h : ending.Fits text) (hterminated : ending.isTerminated = true) :
    fileLines (Utf8.encode text ++ ending.bytes ++ rest) = Utf8.encode text :: fileLines rest := by
  have hbytes : Utf8.encode text ++ ending.bytes ++ rest =
      Utf8.encode text ++ ending.returnBytes ++ newline :: rest := by
    rw [LineEnd.bytes_of_terminated hterminated]
    simp only [List.append_assoc, List.singleton_append]
  rw [hbytes, fileLines, splitLines_ended h.newline_not_mem, List.map_cons, h.dropReturn_eq]
  rfl

theorem fileLines_last (h : ending.Fits text) (hopen : ending.isTerminated = false)
    (hne : Utf8.encode text ++ ending.bytes ≠ []) :
    fileLines (Utf8.encode text ++ ending.bytes) = [Utf8.encode text] := by
  rw [LineEnd.bytes_of_not_terminated hopen] at hne ⊢
  rw [fileLines, splitLines_of_not_mem hne h.newline_not_mem, List.map_singleton, h.dropReturn_eq]

end LineEnd.Fits

theorem LineEnd.exists_of_bools (terminated hasReturn : Bool) :
    ∃ ending : LineEnd, ending.isTerminated = terminated ∧ ending.hasReturn = hasReturn := by
  cases terminated <;> cases hasReturn
  · exact ⟨.bare, rfl, rfl⟩
  · exact ⟨.cr, rfl, rfl⟩
  · exact ⟨.lf, rfl, rfl⟩
  · exact ⟨.crlf, rfl, rfl⟩

/-- What a line was before a carriage return at its end was dropped. -/
theorem exists_ending_of_dropReturn {piece : List UInt8} (hpiece : newline ∉ piece)
    (h : dropReturn piece = Utf8.encode text) (terminated : Bool) :
    ∃ ending : LineEnd, ending.isTerminated = terminated ∧ ending.Fits text ∧
      piece = Utf8.encode text ++ ending.returnBytes := by
  rcases eq_of_dropReturn h with ⟨rfl, hlast⟩ | rfl
  · obtain ⟨ending, hterminated, hreturn⟩ := LineEnd.exists_of_bools terminated false
    refine ⟨ending, hterminated, .of_newline_not_mem hpiece fun h => absurd h hlast, ?_⟩
    rw [LineEnd.returnBytes, hreturn, if_neg Bool.false_ne_true, List.append_nil]
  · obtain ⟨ending, hterminated, hreturn⟩ := LineEnd.exists_of_bools terminated true
    have htext : newline ∉ Utf8.encode text := fun hmem => hpiece (List.mem_append_left _ hmem)
    refine ⟨ending, hterminated, .of_newline_not_mem htext fun _ => hreturn, ?_⟩
    rw [LineEnd.returnBytes, hreturn, if_pos rfl]

end Ends

theorem encode_eq_nil_iff {text : String} : Utf8.encode text = [] ↔ text = "" := by
  rw [Utf8.encode, List.flatMap_eq_nil_iff, ← String.toList_inj]
  constructor
  · intro h
    rw [List.eq_nil_iff_forall_not_mem.mpr fun c hc => String.utf8EncodeChar_ne_nil (h c hc)]
    rfl
  · intro h
    rw [h]
    rintro c ⟨⟩

/-! ### Files -/

section Files

variable {rows : List (String × LineEnd)}

theorem fileOf_cons (text : String) (ending : LineEnd) (rows : List (String × LineEnd)) :
    fileOf ((text, ending) :: rows) = Utf8.encode text ++ ending.bytes ++ fileOf rows := by
  rw [fileOf, List.flatMap_cons]
  rfl

theorem fileOf_singleton_ne_nil {text : String} {ending : LineEnd}
    (h : (text, ending) ≠ ("", .bare)) : Utf8.encode text ++ ending.bytes ≠ [] := by
  intro hnil
  obtain ⟨htext, hbytes⟩ := List.append_eq_nil_iff.mp hnil
  rw [encode_eq_nil_iff.mp htext] at h
  cases ending with
  | lf | crlf | cr => cases hbytes
  | bare => exact h rfl

theorem Lined.fileLines_fileOf (h : Lined rows) :
    fileLines (fileOf rows) = (rows.map Prod.fst).map Utf8.encode := by
  induction h with
  | nil => rw [fileOf, List.flatMap_nil, fileLines, splitLines]; rfl
  | last hfits hopen hne =>
    rw [fileOf_cons, fileOf, List.flatMap_nil, List.append_nil,
      hfits.fileLines_last hopen (fileOf_singleton_ne_nil hne)]
    rfl
  | cons hfits hterminated _ ih =>
    rw [fileOf_cons, hfits.fileLines_eq hterminated, ih]
    rfl

/-- Every file is put together from its lines. -/
theorem exists_lined_of_fileLines {data : List UInt8} {texts : List String}
    (h : fileLines data = texts.map Utf8.encode) :
    ∃ rows, Lined rows ∧ data = fileOf rows ∧ rows.map Prod.fst = texts := by
  induction texts generalizing data with
  | nil =>
    by_cases hne : data = []
    · exact ⟨[], .nil, hne, rfl⟩
    · rw [fileLines, splitLines_of_ne_nil hne] at h
      cases h
  | cons text texts ih =>
    have hne : data ≠ [] := by
      rintro rfl
      rw [fileLines, splitLines] at h
      cases h
    rcases splitLines_cases hne with ⟨hpiece, hs⟩ | ⟨piece, rest, hpiece, rfl, hs⟩
    · rw [fileLines, hs] at h
      obtain ⟨hfirst, hrest⟩ := List.cons.inj h
      obtain rfl := List.map_eq_nil_iff.mp hrest.symm
      obtain ⟨ending, hopen, hfits, hbytes⟩ := exists_ending_of_dropReturn hpiece hfirst false
      rw [← LineEnd.bytes_of_not_terminated hopen] at hbytes
      refine ⟨[(text, ending)], .last hfits hopen ?_, ?_, rfl⟩
      · rintro ⟨⟩
        exact hne hbytes
      · rw [fileOf_cons, ← hbytes]
        exact (List.append_nil _).symm
    · rw [fileLines, hs, List.map_cons] at h
      obtain ⟨hfirst, hrest⟩ := List.cons.inj h
      obtain ⟨rows, hlined, rfl, rfl⟩ := ih hrest
      obtain ⟨ending, hterminated, hfits, rfl⟩ := exists_ending_of_dropReturn hpiece hfirst true
      refine ⟨(text, ending) :: rows, .cons hfits hterminated hlined, ?_, rfl⟩
      rw [fileOf_cons, LineEnd.bytes_of_terminated hterminated]
      simp only [List.append_assoc, List.singleton_append]

theorem Lined.fileOf_eq_nil_iff (h : Lined rows) : fileOf rows = [] ↔ rows = [] := by
  constructor
  · intro hnil
    have hlines := h.fileLines_fileOf
    rw [hnil, fileLines, splitLines] at hlines
    exact List.map_eq_nil_iff.mp (List.map_eq_nil_iff.mp hlines.symm)
  · rintro rfl
    rfl

/-- A newline is at the end of the file exactly if it is at the end of the last line. -/
theorem Lined.isTerminated_iff (h : Lined rows) {row : String × LineEnd}
    (hlast : rows.getLast? = some row) :
    row.2.isTerminated = true ↔ (fileOf rows).getLast? = some newline := by
  induction h with
  | nil => cases hlast
  | @last text ending hfits hopen hne =>
    rw [List.getLast?_singleton, Option.some.injEq] at hlast
    subst hlast
    rw [hopen, fileOf_cons, fileOf, List.flatMap_nil, List.append_nil,
      LineEnd.bytes_of_not_terminated hopen]
    refine ⟨nofun, ?_⟩
    intro hnewline
    exact absurd (List.mem_of_getLast? hnewline) hfits.newline_not_mem
  | @cons text ending rows hfits hterminated hrows ih =>
    rw [fileOf_cons]
    by_cases hmore : rows = []
    · subst hmore
      rw [List.getLast?_singleton, Option.some.injEq] at hlast
      subst hlast
      rw [hterminated, LineEnd.bytes_of_terminated hterminated, fileOf, List.flatMap_nil,
        List.append_nil, ← List.append_assoc, List.getLast?_concat]
      exact ⟨fun _ => rfl, fun _ => rfl⟩
    · have hne : fileOf rows ≠ [] := fun hnil => hmore (hrows.fileOf_eq_nil_iff.mp hnil)
      rw [List.getLast?_append_of_ne_nil _ hne]
      apply ih
      rw [← hlast, ← List.singleton_append, List.getLast?_append_of_ne_nil _ hmore]

end Files

/-! ### Loads -/

section Loads

variable {disk : Disk} {limit : Nat} {file : String} {above : List String} {number : Nat}

theorem spliced_numbered {texts : List String} (h : ∀ text ∈ texts, IsOwn text) :
    Spliced disk limit file above number (texts.map Utf8.encode) (numbered file number texts) := by
  induction texts generalizing number with
  | nil => exact .done
  | cons text texts ih =>
    obtain ⟨⟨tokens, ht, hword⟩, hrest⟩ := List.forall_mem_cons.mp h
    exact .plain ht hword (ih hrest)

theorem Spliced.eq_numbered {rest : List (List UInt8)} {lines : List Line}
    (h : Spliced disk limit file above number rest lines)
    (hown : ∀ line ∈ lines, line.isInclude = false) :
    rest = (lines.map Line.text).map Utf8.encode ∧
      lines = numbered file number (lines.map Line.text) := by
  induction h with
  | done => exact ⟨rfl, rfl⟩
  | plain _ _ _ ih =>
    obtain ⟨-, hrest⟩ := List.forall_mem_cons.mp hown
    obtain ⟨hbytes, hlines⟩ := ih hrest
    refine ⟨?_, ?_⟩
    · rw [List.map_cons, List.map_cons, ← hbytes]
    · rw [List.map_cons, numbered, ← hlines]
  | included ht _ _ _ _ _ =>
    obtain ⟨hfirst, -⟩ := List.forall_mem_cons.mp hown
    cases hfirst.symm.trans ((isInclude_iff ht).mpr rfl)

end Loads

/-- A file made of texts that include nothing, with any line ends between them, loads, and its
lines are these texts, numbered from one. Whatever loads without an include line is such a file:
its bytes are the texts of the lines, each with the end of its line, which has no newline only at
the end of a file that has none there; and the file without any bytes has no lines. -/
theorem load_fileOf (s : Session) (disk : Disk) (root : String) (data : List UInt8)
    (hholds : disk.Holds root data) :
    (∀ rows, Lined rows → (∀ row ∈ rows, IsOwn row.1) → data = fileOf rows →
      (s.load disk root).1 = .ok () ∧
        (s.load disk root).2.lines = numbered root 1 (rows.map Prod.fst)) ∧
    ((s.load disk root).1 = .ok () →
      (∀ line ∈ (s.load disk root).2.lines, line.isInclude = false) →
      ∃ rows, Lined rows ∧ data = fileOf rows ∧
        (s.load disk root).2.lines = numbered root 1 (rows.map Prod.fst) ∧
        (∀ row, rows.getLast? = some row →
          (row.2.isTerminated = true ↔ data.getLast? = some newline)) ∧
        (data = [] ↔ rows = [])) := by
  rw [s.load_eq_ok_iff, s.load_lines]
  generalize s.settings.depthLimit.toNat = limit
  constructor
  · rintro rows hlined hown rfl
    have hspliced : Spliced disk limit root [] 1 (fileLines (fileOf rows))
        (numbered root 1 (rows.map Prod.fst)) := by
      rw [hlined.fileLines_fileOf]
      exact spliced_numbered (List.forall_mem_map.mpr hown)
    have hexpands : disk.Expands limit root _ := ⟨_, hholds, hspliced⟩
    rw [hexpands.expand_eq]
    exact ⟨rfl, rfl⟩
  · intro hdone hown
    obtain ⟨data', hholds', hspliced⟩ := expands_of_expand hdone
    obtain rfl : data = data' := by
      rw [Disk.Holds, hholds] at hholds'
      exact Contents.bytes.inj (Except.ok.inj hholds')
    obtain ⟨hbytes, hlines⟩ := hspliced.eq_numbered hown
    obtain ⟨rows, hlined, rfl, htexts⟩ := exists_lined_of_fileLines hbytes
    rw [← htexts] at hlines
    exact ⟨rows, hlined, rfl, hlines, fun row => hlined.isTerminated_iff,
      hlined.fileOf_eq_nil_iff⟩

/-- A leg with line ends of every kind: the first gain ends in a carriage return of its own, and the
last line in one that no newline follows. -/
def legRows : List (String × LineEnd) :=
  [("begin motor", .crlf), ("", .lf), ("  kp 40.0\r", .crlf), ("name \"süd\"", .lf),
    ("end motor", .cr)]

def leg : Disk :=
  .ofTexts [("leg.dd", "begin motor\r\n\n  kp 40.0\r\r\nname \"süd\"\nend motor\r")]

theorem load_leg :
    leg.Holds "leg.dd" (fileOf legRows) ∧ Lined legRows ∧
      (∀ row ∈ legRows, IsOwn row.1) ∧
      ((Session.new {}).load leg "leg.dd").1 = .ok () ∧
      ((Session.new {}).load leg "leg.dd").2.lines =
        [⟨"leg.dd", 1, "begin motor"⟩, ⟨"leg.dd", 2, ""⟩, ⟨"leg.dd", 3, "  kp 40.0\r"⟩,
          ⟨"leg.dd", 4, "name \"süd\""⟩, ⟨"leg.dd", 5, "end motor"⟩] := by
  have hbytes : fileOf legRows = Utf8.encode
      "begin motor\r\n\n  kp 40.0\r\r\nname \"süd\"\nend motor\r" := by decide +kernel
  have hholds : leg.Holds "leg.dd" (fileOf legRows) := by
    rw [hbytes]
    rfl
  have hlined : Lined legRows :=
    .cons ⟨by decide, by decide⟩ rfl (.cons ⟨by decide, by decide⟩ rfl
      (.cons ⟨by decide, by decide⟩ rfl (.cons ⟨by decide, by decide⟩ rfl
        (.last ⟨by decide, by decide⟩ rfl (by decide)))))
  have hown : ∀ row ∈ legRows, IsOwn row.1 := by decide +kernel
  obtain ⟨hforth, -⟩ := load_fileOf (.new {}) leg "leg.dd" _ hholds
  obtain ⟨hok, hlines⟩ := hforth legRows hlined hown rfl
  exact ⟨hholds, hlined, hown, hok, hlines⟩

end DeviceDescription
