import DeviceDescription.Proofs.Decoding
import DeviceDescription.Proofs.Fields
import DeviceDescription.Proofs.JsonPrinter
import DeviceDescription.Proofs.Subcommands

/-!
# Documents are read back from their records

The record of a document holds all of it, so that whoever reads what `dump --json` has printed has
the document that was made. Only numbers of 64 bits are read back; the numbers of lines are such,
since a file has no more lines than bytes.
-/

namespace DeviceDescription

open Json (Legible fields?_record list?_map)

/-! ### Records -/

/-- The number of the line is one of 64 bits. -/
def Line.Numbered (line : Line) : Prop := line.number < UInt64.size

def Device.Numbered (device : Device) : Prop := device.line < UInt64.size

def Document.Numbered (doc : Document) : Prop := ∀ device ∈ doc.devices, device.Numbered

theorem legible_jsonOfTokenLists (lists : List (List String)) :
    (jsonOfTokenLists lists).Legible := by
  refine .array (List.forall_mem_map.mpr ?_)
  intro tokens _
  refine .array (List.forall_mem_map.mpr ?_)
  exact fun token _ => .text token

theorem tokenLists?_jsonOfTokenLists (lists : List (List String)) :
    tokenLists? (jsonOfTokenLists lists) = some lists :=
  list?_map fun _ _ => list?_map fun _ _ => rfl

section Line

variable (line : Line)

theorem Line.legible_toJson : line.toJson.Legible := by
  apply Legible.record
  simp only [List.forall_mem_cons]
  exact ⟨.text line.file, .natural line.number, .text line.text, by simp⟩

variable {line}

theorem Line.ofJson?_toJson (h : line.Numbered) : Line.ofJson? line.toJson = some line := by
  have hfields : line.toJson.fields? ["origin_file", "line_number", "raw_text"] =
      some [some (.text line.file), some (.natural line.number), some (.text line.text)] :=
    fields?_record (by simp)
  rw [ofJson?, hfields]
  simp only [Json.text, Json.text?, Json.word?_natural h]
  rfl

end Line

section Device

variable (device : Device)

theorem Device.legible_toJson : device.toJson.Legible := by
  apply Legible.record
  simp only [List.forall_mem_cons]
  exact ⟨.text device.type, .text device.file, .natural device.line,
    legible_jsonOfTokenLists device.params, by simp⟩

variable {device}

theorem Device.ofJson?_toJson (h : device.Numbered) :
    Device.ofJson? device.toJson = some device := by
  have hfields : device.toJson.fields? ["device_type", "file", "line", "params"] =
      some [some (.text device.type), some (.text device.file), some (.natural device.line),
        some (jsonOfTokenLists device.params)] :=
    fields?_record (by simp)
  rw [ofJson?, hfields]
  simp only [Json.text, Json.text?, Json.word?_natural h, tokenLists?_jsonOfTokenLists]
  rfl

end Device

section Document

variable (doc : Document)

theorem Document.legible_toJson : doc.toJson.Legible := by
  apply Legible.record
  simp only [List.forall_mem_cons]
  refine ⟨legible_jsonOfTokenLists doc.globals, .array ?_, by simp⟩
  rw [List.forall_mem_map]
  exact fun device _ => device.legible_toJson

variable {doc}

theorem Document.ofJson?_toJson (h : doc.Numbered) : Document.ofJson? doc.toJson = some doc := by
  have hfields : doc.toJson.fields? ["globals", "devices"] =
      some [some (jsonOfTokenLists doc.globals), some (.array (doc.devices.map Device.toJson))] :=
    fields?_record (by simp)
  have hdevices : Json.list? Device.ofJson? (.array (doc.devices.map Device.toJson)) =
      some doc.devices :=
    list?_map fun device hdevice => Device.ofJson?_toJson (h device hdevice)
  rw [ofJson?, hfields]
  simp only [tokenLists?_jsonOfTokenLists, hdevices]
  rfl

end Document

/-- What can be read from a record can be read from the text it is printed as. -/
theorem parse?_bind_of_legible {α : Type} {read : Json → Option α} {value : Json} {a : α}
    (hlegible : value.Legible) (h : read value = some a) :
    (Json.parse? value.pretty).bind read = some a := by
  rw [Json.parse?_pretty hlegible, Option.bind_some, h]

/-! ### The numbers of lines -/

theorem length_splitLines_le (bytes : List UInt8) : (splitLines bytes).length ≤ bytes.length := by
  induction bytes using splitLines.induct with
  | case1 => simp [splitLines]
  | case2 b rest line ih =>
    have hcut : splitLines (b :: rest) =
        line :: splitLines ((b :: rest).drop (line.length + 1)) := by rw [splitLines]
    simp only [hcut, List.length_drop, List.length_cons] at ih ⊢
    omega

theorem length_fileLines_le (bytes : List UInt8) : (fileLines bytes).length ≤ bytes.length := by
  rw [fileLines, List.length_map]
  exact length_splitLines_le bytes

/-- The sizes of all files are numbers of 64 bits. -/
def Disk.Sized (disk : Disk) : Prop :=
  ∀ path data, disk.Holds path data → data.length < UInt64.size

theorem Disk.sized_ofTexts {texts : List (String × String)}
    (h : ∀ entry ∈ texts, (Utf8.encode entry.2).length < UInt64.size) : (ofTexts texts).Sized := by
  intro path data hholds
  rw [Holds, ofTexts] at hholds
  cases htext : texts.lookup path with
  | none =>
    simp only [htext] at hholds
    cases hholds
  | some text =>
    simp only [htext, Except.ok.injEq, Contents.bytes.injEq] at hholds
    subst hholds
    obtain ⟨before, after, rfl, -⟩ := List.lookup_eq_some_iff.mp htext
    exact h (path, text) (by simp)

theorem Spliced.numbered {disk : Disk} {limit : Nat} {file : String} {above : List String}
    {number : Nat} {rest : List (List UInt8)} {lines : List Line} (hsized : disk.Sized)
    (h : Spliced disk limit file above number rest lines)
    (hnumber : number + rest.length ≤ UInt64.size) : ∀ line ∈ lines, line.Numbered := by
  induction h with
  | done => simp
  | plain _ _ _ ih =>
    rw [List.length_cons] at hnumber
    refine List.forall_mem_cons.mpr ⟨?_, ih (by omega)⟩
    simp only [Line.Numbered]
    omega
  | @included _ _ _ _ path data _ _ _ _ hadmits _ _ ihInner ihRest =>
    rw [List.length_cons] at hnumber
    have hsize := hsized path data hadmits.holds
    have hlength := length_fileLines_le data
    refine List.forall_mem_cons.mpr ⟨?_, List.forall_mem_append.mpr ⟨ihInner ?_, ihRest ?_⟩⟩
    · simp only [Line.Numbered]
      omega
    · omega
    · omega

theorem numbered_of_load {s : Session} {disk : Disk} {root : String} (hsized : disk.Sized)
    (h : (s.load disk root).1 = .ok ()) : ∀ line ∈ (s.load disk root).2.lines, line.Numbered := by
  obtain ⟨data, hholds, hspliced⟩ := expands_of_expand ((s.load_eq_ok_iff disk root).mp h)
  have hsize := hsized root data hholds
  have hlength := length_fileLines_le data
  rw [s.load_lines]
  exact hspliced.numbered hsized (by omega)

theorem Grouped.numbered {entries : List Delivery} {doc : Document} (h : Grouped entries doc)
    (hentries : ∀ entry ∈ entries, entry.1.Numbered) : doc.Numbered := by
  induction h with
  | nil => simp [Document.Numbered, Document.empty]
  | content _ _ ih => exact ih fun entry hentry => hentries entry (List.mem_cons_of_mem _ hentry)
  | @block line type extra inside last extra' rest doc _ _ ih =>
    refine List.forall_mem_cons.mpr ⟨hentries _ List.mem_cons_self, ih ?_⟩
    intro entry hentry
    exact hentries entry (by simp [hentry])

theorem Document.numbered_of_read {settings : Settings} {disk : Disk} {file : String}
    {doc : Document} (hsized : disk.Sized)
    (h : (Command.opened disk settings file).readDocument.1 = .ok doc) : doc.Numbered := by
  have hload := Command.load_of_readDocument disk settings file h
  obtain ⟨hgrouped, -⟩ := readDocument_iff_grouped (.new settings) disk file hload
  refine ((hgrouped doc).mp h).numbered ?_
  intro entry hentry
  exact numbered_of_load hsized hload entry.1 (mem_deliveries hentry).1

/-! ### What is printed -/

/-- What a run that dumps a document as a record has read and printed when it exits with 0. -/
structure Command.Dumped (disk : Disk) (invocation : Invocation) (file : String)
    (outcome : Outcome) (settings : Settings) (doc : Document) (text : String) : Prop where
  settings_eq : readSettings disk invocation = .ok settings
  loaded : ((Session.new settings).load disk file).1 = .ok ()
  read : ((Session.new settings).load disk file).2.readDocument.1 = .ok doc
  printed : outcome.stdout = text ++ "\n"

theorem Command.exists_dumped {disk : Disk} {arguments : List String} {invocation : Invocation}
    {file : String} (hrequest : Request.ofArguments arguments = .run invocation)
    (htask : invocation.task = .dump file true) (hcode : (runTool disk arguments).code = 0) :
    ∃ settings doc, Dumped disk invocation file (runTool disk arguments) settings doc
      doc.toJson.pretty := by
  rw [runTool, hrequest, respond] at hcode ⊢
  cases hsettings : readSettings disk invocation with
  | error e =>
    rw [hsettings] at hcode
    cases hcode
  | ok settings =>
    simp only [hsettings, htask, perform] at hcode ⊢
    rcases withDocument_cases disk settings file with
      ⟨doc, hread, -, hprint⟩ | ⟨d, -, -, hprint⟩
    · rw [hprint]
      exact ⟨settings, doc, hsettings, load_of_readDocument disk settings file hread, hread, rfl⟩
    · rw [hprint] at hcode
      cases hcode

/-- Documents, devices and lines are read back from the text of their records. If `dump --json`
exits with 0, then what it prints is such a text and a newline, of the document that is made of the
description loaded. -/
theorem records_read_back :
    (∀ doc : Document, doc.Numbered →
      (Json.parse? doc.toJson.pretty).bind Document.ofJson? = some doc) ∧
    (∀ device : Device, device.Numbered →
      (Json.parse? device.toJson.pretty).bind Device.ofJson? = some device) ∧
    (∀ line : Line, line.Numbered →
      (Json.parse? line.toJson.pretty).bind Line.ofJson? = some line) ∧
    ∀ (disk : Disk) (arguments : List String) (invocation : Invocation) (file : String),
      disk.Sized → Request.ofArguments arguments = .run invocation →
      invocation.task = .dump file true → (runTool disk arguments).code = 0 →
      ∃ settings doc text,
        Command.Dumped disk invocation file (runTool disk arguments) settings doc text ∧
          (Json.parse? text).bind Document.ofJson? = some doc := by
  have hdocument : ∀ doc : Document, doc.Numbered →
      (Json.parse? doc.toJson.pretty).bind Document.ofJson? = some doc :=
    fun doc h => parse?_bind_of_legible doc.legible_toJson (Document.ofJson?_toJson h)
  refine ⟨hdocument, ?_, ?_, ?_⟩
  · exact fun device h => parse?_bind_of_legible device.legible_toJson (Device.ofJson?_toJson h)
  · exact fun line h => parse?_bind_of_legible line.legible_toJson (Line.ofJson?_toJson h)
  · intro disk arguments invocation file hsized hrequest htask hcode
    obtain ⟨settings, doc, hdumped⟩ := Command.exists_dumped hrequest htask hcode
    have hnumbered := Document.numbered_of_read hsized hdumped.read
    exact ⟨settings, doc, _, hdumped, hdocument doc hnumbered⟩

/-- A document with an empty line, the greatest number, and a token that has characters to be
escaped and one beyond U+FFFF. -/
def awkward : Document :=
  ⟨[["bus", "a\"\\\n\x01é𝄞"], []], [⟨"", "hip.dd", 2 ^ 64 - 1, []⟩]⟩

theorem records_read_back_hips :
    awkward.Numbered ∧ (Json.parse? awkward.toJson.pretty).bind Document.ofJson? = some awkward ∧
    hips.Sized ∧ (runTool hips ["dump", "--json", "hip.dd"]).code = 0 ∧
    ∃ text, (runTool hips ["dump", "--json", "hip.dd"]).stdout = text ++ "\n" ∧
      (Json.parse? text).bind Document.ofJson? =
        some ⟨[], [⟨"hip", "hip.dd", 1, [["label", "left\thip", ""]]⟩]⟩ := by
  have hnumbered : awkward.Numbered := by simp [awkward, Document.Numbered, Device.Numbered]
  have hsized : hips.Sized := Disk.sized_ofTexts (by decide +kernel)
  have hcode : (runTool hips ["dump", "--json", "hip.dd"]).code = 0 := by decide +kernel
  have hread : ((Session.new {}).load hips "hip.dd").2.readDocument.1 =
      .ok ⟨[], [⟨"hip", "hip.dd", 1, [["label", "left\thip", ""]]⟩]⟩ := by decide +kernel
  obtain ⟨hdocument, -, -, hdump⟩ := records_read_back
  refine ⟨hnumbered, hdocument awkward hnumbered, hsized, hcode, ?_⟩
  obtain ⟨settings, doc, text, hdumped, hback⟩ := hdump hips ["dump", "--json", "hip.dd"]
    ⟨none, false, .dump "hip.dd" true⟩ "hip.dd" hsized (by decide +kernel) rfl hcode
  obtain rfl := Except.ok.inj hdumped.settings_eq
  obtain rfl := Except.ok.inj (hread.symm.trans hdumped.read)
  exact ⟨text, hdumped.printed, hback⟩

end DeviceDescription
