import DeviceDescription.Proofs.WalkOutput

/-!
# Reading a walk back

What a walk prints can be read back: cut at its newlines, it has one line for each signal, and
`Signal.ofLine?` tells which signal a line is. The line of a content signal holds tokens as they are
written in a description, and cutting it into tokens gives them back, since tokens that have been
read hold neither a quote nor a `#`. So the signals up to the diagnostic, if there is one, depend on
nothing but what is printed.
-/

namespace DeviceDescription

def Signal.isError : Signal → Bool
  | .error _ => true
  | .beginDevice _ | .endDevice _ | .content _ | .endOfStream => false

/-- The signals that are printed, which are all but a diagnostic. -/
def printable (signals : List Signal) : List Signal := signals.filter fun signal => !signal.isError

/-- The signals of a walk, with the diagnostic that it may end with. -/
def Session.walked (s : Session) : List Signal := s.walk.1.map Prod.fst

namespace Signal

/-- The signal of a line that has a title before a tab. -/
def ofTitled? (title body : String) : Option Signal :=
  if title = "begin" then some (.beginDevice body)
  else if title = "end" then some (.endDevice body)
  else if title = "content" then (tokenize body).toOption.map .content
  else none

/-- The signal of a line that a walk has printed. -/
def ofLine? (line : String) : Option Signal :=
  match line.toList.dropWhile (· != '\t') with
  | [] => if line = "eos" then some .endOfStream else none
  | _ :: body => ofTitled? (String.ofList (line.toList.takeWhile (· != '\t'))) (String.ofList body)

section Line

variable (body : String)

theorem ofLine?_titled {title : String} (h : '\t' ∉ title.toList) :
    ofLine? (title ++ "\t" ++ body) = ofTitled? title body := by
  have hline : (title ++ "\t" ++ body).toList = title.toList ++ '\t' :: body.toList := by
    rw [String.toList_append, String.toList_append, List.append_assoc]
    rfl
  have hall : ∀ c ∈ title.toList, (c != '\t') = true := by
    rintro c hc
    rw [bne_iff_ne]
    rintro rfl
    exact h hc
  rw [ofLine?, hline, List.dropWhile_append_of_pos hall, List.takeWhile_append_of_pos hall,
    List.dropWhile_cons_of_neg (by simp), List.takeWhile_cons_of_neg (by simp)]
  simp only [List.append_nil, String.ofList_toList]

theorem ofLine?_begin : ofLine? ("begin" ++ "\t" ++ body) = some (.beginDevice body) :=
  ofLine?_titled body (by decide)

theorem ofLine?_end : ofLine? ("end" ++ "\t" ++ body) = some (.endDevice body) :=
  ofLine?_titled body (by decide)

theorem ofLine?_content {tokens : List String} (h : tokenize body = .ok tokens) :
    ofLine? ("content" ++ "\t" ++ body) = some (.content tokens) := by
  rw [ofLine?_titled body (by decide), ofTitled?]
  simp [h, Except.toOption]

theorem ofLine?_eos : ofLine? "eos" = some .endOfStream := by decide +kernel

end Line

end Signal

/-- The rows tell the signals of a walk one by one; for a diagnostic at the end there is no row. -/
inductive ReadsBack : List String → List Signal → Prop
  | finished : ReadsBack ["eos"] [.endOfStream]
  | failed (d : Diagnostic) : ReadsBack [] [.error d]
  | cons {row signal rows signals} : Signal.ofLine? row = some signal → signal.isLast = false →
      ReadsBack rows signals → ReadsBack (row :: rows) (signal :: signals)

/-! ### Rows -/

/-- The text is these rows, each with a newline after it. -/
def HasRows (text : String) (rows : List String) : Prop :=
  text.toList.splitOn '\n' = rows.map String.toList ++ [[]]

instance (text : String) (rows : List String) : Decidable (HasRows text rows) :=
  inferInstanceAs (Decidable (_ = _))

section Rows

variable {text row : String} {rows rows' : List String}

theorem hasRows_nil : HasRows "" [] := by
  rw [HasRows, String.toList_empty, List.splitOn_nil]
  rfl

theorem HasRows.cons (hrow : OneLine row) (h : HasRows text rows) :
    HasRows (row ++ "\n" ++ text) (row :: rows) := by
  have htext : (row ++ "\n" ++ text).toList = row.toList ++ '\n' :: text.toList := by
    rw [String.toList_append, String.toList_append, List.append_assoc]
    rfl
  rw [HasRows, htext, List.splitOn_append_cons_self, List.splitOn_eq_singleton hrow, h]
  rfl

theorem hasRows_eos : HasRows "eos\n" ["eos"] := by decide +kernel

theorem HasRows.unique (h : HasRows text rows) (h' : HasRows text rows') : rows = rows' := by
  rw [HasRows, h] at h'
  exact List.map_injective_iff.mpr (fun _ _ => String.toList_inj.mp) (List.append_cancel_right h')

end Rows

/-! ### Signals -/

section Signals

open Command (signalText stepsText)

variable {block next : Option String} {tokens : List String} {signal : Signal}

/-- A signal that a line gives is printed as one row, from which it can be told. -/
theorem exists_row (h : verdict block tokens = .ok (signal, next))
    (hwritable : ∀ token ∈ tokens, Writable token) (hone : ∀ token ∈ tokens, OneLine token) :
    ∃ row, signalText signal = row ++ "\n" ∧ OneLine row ∧ Signal.ofLine? row = some signal ∧
      signal.isLast = false := by
  have hlast := verdict_isLast h
  have hj := judged block tokens
  rw [h] at hj
  cases hj with
  | content hc =>
    have hread := tokenize_eq_ok_iff.mpr (bears_writtenLine hwritable)
    exact ⟨"content" ++ "\t" ++ writtenLine tokens, rfl,
      OneLine.append (by decide) (oneLine_writtenLine hone), Signal.ofLine?_content _ hread, hlast⟩
  | @opening type extra =>
    exact ⟨"begin" ++ "\t" ++ type, rfl, OneLine.append (by decide) (hone type (by simp)),
      Signal.ofLine?_begin type, hlast⟩
  | @closing type extra =>
    exact ⟨"end" ++ "\t" ++ type, rfl, OneLine.append (by decide) (hone type (by simp)),
      Signal.ofLine?_end type, hlast⟩

theorem trace_readsBack (pending : String) {lines : List Delivery}
    (hlines : ∀ entry ∈ lines, ∀ token ∈ entry.2, Writable token ∧ OneLine token)
    (block : Option String) (before : Option Line) :
    ∃ rows, HasRows (stepsText (trace pending block before lines)) rows ∧
      ReadsBack rows ((trace pending block before lines).map Prod.fst) := by
  induction lines generalizing block before with
  | nil => exact ⟨["eos"], hasRows_eos, .finished⟩
  | cons entry rest ih =>
    obtain ⟨line, tokens⟩ := entry
    obtain ⟨hfirst, hrest⟩ := List.forall_mem_cons.mp hlines
    cases hv : verdict block tokens with
    | error fault =>
      rw [trace, hv]
      exact ⟨[], hasRows_nil, .failed _⟩
    | ok answer =>
      obtain ⟨signal, next⟩ := answer
      obtain ⟨row, htext, hone, hread, hlast⟩ :=
        exists_row hv (fun token ht => (hfirst token ht).1) fun token ht => (hfirst token ht).2
      obtain ⟨rows, hrows, hback⟩ := ih hrest next (some line)
      rw [trace, hv]
      dsimp only
      rw [Command.stepsText_cons, htext]
      exact ⟨row :: rows, hrows.cons hone, .cons hread hlast hback⟩

end Signals

namespace ReadsBack

variable {rows : List String} {signals : List Signal}

theorem printable_cons {signal : Signal} (h : signal.isLast = false) (signals : List Signal) :
    printable (signal :: signals) = signal :: printable signals := by
  apply List.filter_cons_of_pos
  cases signal with
  | endOfStream | error d => cases h
  | beginDevice | endDevice | content => rfl

theorem map_ofLine? (h : ReadsBack rows signals) :
    rows.map Signal.ofLine? = (printable signals).map some := by
  induction h with
  | finished => exact congrArg (fun signal => [signal]) Signal.ofLine?_eos
  | failed d => rfl
  | cons hread hlast _ ih => rw [printable_cons hlast, List.map_cons, List.map_cons, hread, ih]

/-- The last row says whether the walk went to the end. -/
theorem cases_last (h : ReadsBack rows signals) :
    (rows.getLast? = some "eos" ∧ printable signals = signals ∧
        signals.getLast? = some .endOfStream) ∨
      "eos" ∉ rows ∧ ∃ d, signals = printable signals ++ [.error d] := by
  induction h with
  | finished => exact .inl ⟨rfl, rfl, rfl⟩
  | failed d => exact .inr ⟨List.not_mem_nil, d, rfl⟩
  | @cons row signal rows signals hread hlast _ ih =>
    rw [printable_cons hlast]
    rcases ih with ⟨hend, hall, hdone⟩ | ⟨hnot, d, hall⟩
    · refine .inl ⟨?_, by rw [hall], ?_⟩
      · rw [List.getLast?_cons, hend]
        rfl
      · rw [List.getLast?_cons, hdone]
        rfl
    · refine .inr ⟨?_, d, by rw [List.cons_append, ← hall]⟩
      -- The row `eos` tells the end of the stream, and nothing comes after that.
      rw [List.mem_cons]
      rintro (rfl | hmem)
      · rw [Signal.ofLine?_eos] at hread
        obtain rfl := Option.some.inj hread
        cases hlast
      · exact hnot hmem

end ReadsBack

/-! ### Walks -/

/-- The rows of the outcome tell the signals, which are all there or lack the diagnostic at their end
as the exit code says. -/
structure Decodes (outcome : Outcome) (signals : List Signal) (rows : List String) : Prop where
  printed : HasRows outcome.stdout rows
  each : rows.map Signal.ofLine? = (printable signals).map some
  ends : (outcome.code = 0 ∧ rows.getLast? = some "eos" ∧ printable signals = signals) ∨
    outcome.code = 1 ∧ "eos" ∉ rows ∧ ∃ d, signals = printable signals ++ [.error d]

namespace Decodes

variable {outcome outcome' : Outcome} {signals signals' : List Signal} {rows rows' : List String}

theorem eos_iff (h : Decodes outcome signals rows) : "eos" ∈ rows ↔ outcome.code = 0 := by
  rcases h.ends with ⟨hcode, hlast, -⟩ | ⟨hcode, hnot, -⟩
  · exact iff_of_true (List.mem_of_getLast? hlast) hcode
  · exact iff_of_false hnot (by omega)

/-- Nothing but what is printed is needed to tell the signals and the exit code. -/
theorem eq_of_stdout (h : Decodes outcome signals rows) (h' : Decodes outcome' signals' rows')
    (hstdout : outcome.stdout = outcome'.stdout) :
    outcome.code = outcome'.code ∧ printable signals = printable signals' := by
  have hrows := h.printed
  rw [hstdout] at hrows
  obtain rfl := hrows.unique h'.printed
  refine ⟨?_, ?_⟩
  · rcases h.ends with ⟨hcode, hlast, -⟩ | ⟨hcode, hnot, -⟩
    · rw [hcode, h'.eos_iff.mp (List.mem_of_getLast? hlast)]
    · rcases h'.ends with ⟨-, hlast, -⟩ | ⟨hcode', -⟩
      · exact absurd (List.mem_of_getLast? hlast) hnot
      · rw [hcode, hcode']
  · exact List.map_injective_iff.mpr (Option.some_injective _) (h.each.symm.trans h'.each)

end Decodes

namespace Command

theorem ending_cases (settings : Settings) (file : String) (d? : Option Diagnostic)
    (stdout : String) :
    (ending settings file d? stdout).stdout = stdout ∧
      (ending settings file d? stdout).code = if d?.isSome then 1 else 0 := by
  cases d? <;> exact ⟨rfl, rfl⟩

section Walk

variable (disk : Disk) (settings : Settings) (file : String)

/-- The exit code tells which way the signals end. -/
theorem walk_code_cases :
    ((walk disk settings file).code = 0 ∧
        (opened disk settings file).walked.getLast? = some .endOfStream) ∨
      (walk disk settings file).code = 1 ∧
        ∃ d, (opened disk settings file).walked.getLast? = some (.error d) := by
  rw [walk_eq, (ending_cases _ _ _ _).2, Session.walked, List.getLast?_map, rejection?,
    sessionAfter]
  rcases (opened disk settings file).walk_cases with ⟨source, hend, hd⟩ | ⟨d, source, hend, hd⟩
  · rw [hend, hd]
    exact .inl ⟨rfl, rfl⟩
  · rw [hend, hd]
    exact .inr ⟨rfl, d, rfl⟩

variable {disk settings file} (hload : ((Session.new settings).load disk file).1 = .ok ())
include hload

theorem walk_readsBack :
    ∃ rows, HasRows (walk disk settings file).stdout rows ∧
      ReadsBack rows (opened disk settings file).walked := by
  have hone := oneLine_of_load hload settings.showIncludes
  have hstands := Session.stands_of_load hload
  have hlines : ∀ entry ∈ deliveries settings.showIncludes
      ((Session.new settings).load disk file).2.lines,
      ∀ token ∈ entry.2, Writable token ∧ OneLine token := by
    intro entry he token ht
    obtain ⟨-, htokens⟩ := mem_deliveries he
    exact ⟨(tokenize_eq_ok_iff.mp htokens).writable token ht, hone entry he token ht⟩
  rw [walk_eq, (ending_cases _ _ _ _).1, Session.walked, opened, hstands.walk_eq.1]
  exact trace_readsBack _ hlines _ _

theorem walk_decodable :
    ∃ rows, Decodes (walk disk settings file) (opened disk settings file).walked rows := by
  obtain ⟨rows, hrows, hback⟩ := walk_readsBack hload
  refine ⟨rows, hrows, hback.map_ofLine?, ?_⟩
  rcases hback.cases_last with ⟨hlast, hall, hend⟩ | ⟨hnot, d, hall⟩
  · rcases walk_code_cases disk settings file with ⟨hcode, -⟩ | ⟨-, d, hd⟩
    · exact .inl ⟨hcode, hlast, hall⟩
    · cases hend.symm.trans hd
  · have hd : (opened disk settings file).walked.getLast? = some (.error d) := by
      rw [hall, List.getLast?_concat]
    rcases walk_code_cases disk settings file with ⟨-, hend⟩ | ⟨hcode, -⟩
    · cases hend.symm.trans hd
    · exact .inr ⟨hcode, hnot, d, hall⟩

end Walk

end Command

/-- What a walk prints has a row for each signal, which tells it, and `eos` is the last row exactly if
the walk exits with 0; otherwise it exits with 1, and the rows are those of the signals before the
diagnostic. Two walks that print the same give the same signals before a diagnostic, and have or
lack it alike. -/
theorem walk_decodes {disk : Disk} {arguments : List String} {settings : Settings} {file : String}
    (hasks : Command.Asks disk arguments settings (.walk file))
    (hload : ((Session.new settings).load disk file).1 = .ok ()) :
    (∃ rows, Decodes (runTool disk arguments) (Command.opened disk settings file).walked rows) ∧
      ∀ {disk' : Disk} {arguments' : List String} {settings' : Settings} {file' : String},
        Command.Asks disk' arguments' settings' (.walk file') →
        ((Session.new settings').load disk' file').1 = .ok () →
        (runTool disk' arguments').stdout = (runTool disk arguments).stdout →
        (runTool disk' arguments').code = (runTool disk arguments).code ∧
          printable (Command.opened disk' settings' file').walked =
            printable (Command.opened disk settings file).walked := by
  rw [hasks.runTool_eq, Command.perform]
  obtain ⟨rows, hrows⟩ := Command.walk_decodable hload
  refine ⟨⟨rows, hrows⟩, ?_⟩
  intro disk' arguments' settings' file' hasks' hload' hstdout
  rw [hasks'.runTool_eq, Command.perform] at hstdout ⊢
  obtain ⟨rows', hrows'⟩ := Command.walk_decodable hload'
  exact hrows'.eq_of_stdout hrows hstdout

/-- A hip with a tab in its label, the same hip written in another way, and one that ends as a
knee. -/
def hips : Disk :=
  .ofTexts [("hip.dd", "begin hip # left\n  label \"left\thip\" \"\"\nend hip\n"),
    ("again.dd", "begin\thip\r\nlabel \"left\thip\"  \"\"\r\nend hip now"),
    ("knee.dd", "begin hip\nend knee\n")]

theorem walk_decodes_hips :
    (∃ rows, Decodes (runTool hips ["walk", "hip.dd"])
      [.beginDevice "hip", .content ["label", "left\thip", ""], .endDevice "hip", .endOfStream]
      rows) ∧
    printable (Command.opened hips {} "again.dd").walked =
      [.beginDevice "hip", .content ["label", "left\thip", ""], .endDevice "hip", .endOfStream] ∧
    ∃ d rows, Decodes (runTool hips ["walk", "knee.dd"]) [.beginDevice "hip", .error d] rows := by
  have hhip : Command.Asks hips ["walk", "hip.dd"] {} (.walk "hip.dd") :=
    Command.asks_of_defaults hips (by decide +kernel)
  have hagain : Command.Asks hips ["walk", "again.dd"] {} (.walk "again.dd") :=
    Command.asks_of_defaults hips (by decide +kernel)
  have hknee : Command.Asks hips ["walk", "knee.dd"] {} (.walk "knee.dd") :=
    Command.asks_of_defaults hips (by decide +kernel)
  have hwalked : (Command.opened hips {} "hip.dd").walked =
      [.beginDevice "hip", .content ["label", "left\thip", ""], .endDevice "hip",
        .endOfStream] := by decide +kernel
  have hbegin : printable (Command.opened hips {} "knee.dd").walked = [.beginDevice "hip"] := by
    decide +kernel
  have hfails : (runTool hips ["walk", "knee.dd"]).code = 1 := by decide +kernel
  obtain ⟨hrows, hsame⟩ := walk_decodes hhip (by decide +kernel)
  obtain ⟨-, hsignals⟩ := hsame hagain (by decide +kernel) (by decide +kernel)
  obtain ⟨⟨rows, hdecodes⟩, -⟩ := walk_decodes hknee (by decide +kernel)
  rw [hwalked] at hrows hsignals
  refine ⟨hrows, hsignals, ?_⟩
  rcases hdecodes.ends with ⟨hcode, -⟩ | ⟨-, -, d, hall⟩
  · cases hfails.symm.trans hcode
  · rw [hbegin] at hall
    rw [hall] at hdecodes
    exact ⟨d, rows, hdecodes⟩

end DeviceDescription
