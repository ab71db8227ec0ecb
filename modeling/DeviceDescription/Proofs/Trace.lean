import DeviceDescription.Proofs.Reports

/-!
# What is read as a function of the lines delivered

The signals of a walk depend on nothing but the lines that are delivered, the block that is open
before them and the message that is pending; so does the document made of them. `trace` is a walk
and `summary` a document in terms of these alone, so that two sessions are compared by comparing
the lines that they deliver.
-/

namespace DeviceDescription

/-- What a line with the tokens gives in the block: a signal, and the block it leaves open, or a
fault. -/
def verdict (block : Option String) : List String → Except Fault (Signal × Option String)
  | [] => .ok (.content [], block)
  | word :: arguments =>
    if word = beginWord then
      match block, arguments with
      | some opened, _ => .error (.nestedBlock opened (arguments.head?.getD ""))
      | none, [] => .error (.missingArgument beginWord)
      | none, type :: _ => .ok (.beginDevice type, some type)
    else if word = endWord then
      match arguments with
      | [] => .error (.missingArgument endWord)
      | type :: _ =>
        if block = some type then .ok (.endDevice type, none)
        else .error (.unmatchedEnd block type)
    else .ok (.content (word :: arguments), block)

/-- The ways a line can go, each with its verdict. -/
inductive Judged : Option String → List String → Except Fault (Signal × Option String) → Prop
  | content {block tokens} : IsContent tokens → Judged block tokens (.ok (.content tokens, block))
  | opening {type extra} :
      Judged none (beginWord :: type :: extra) (.ok (.beginDevice type, some type))
  | closing {type extra} :
      Judged (some type) (endWord :: type :: extra) (.ok (.endDevice type, none))
  | breach {block tokens fault} : Breach block tokens fault → Judged block tokens (.error fault)

/-- The diagnostic of a fault that is reported when a message is pending. -/
def diagnose (pending : String) (fault : Fault) (site : Option Line) : Diagnostic :=
  ⟨fault, site, pending ++ fault.message⟩

/-- The signals that lines give in a block, each with the line delivered last, until one is the last
signal. Before these lines, `last` has been delivered. -/
def trace (pending : String) :
    Option String → Option Line → List Delivery → List (Signal × Option Line)
  | _, last, [] => [(.endOfStream, last)]
  | block, _, (line, tokens) :: rest =>
    match verdict block tokens with
    | .error fault => [(.error (diagnose pending fault (some line)), some line)]
    | .ok (signal, next) => (signal, some line) :: trace pending next (some line) rest

/-- The last one of the lines, or if there are none the one before them. -/
def lastOr (last : Option Line) (lines : List Delivery) : Option Line :=
  (lines.getLast?.map Prod.fst).or last

/-- The document that lines make, or the fault that they have or end in. -/
def summary (pending : String) (block : Option String) (last : Option Line) (lines : List Delivery) :
    Except Diagnostic Document :=
  match Document.gather .blank (trace pending block last lines) with
  | .error d => .error d
  | .ok draft =>
    match draft.block with
    | none => .ok draft.document
    | some device =>
      .error (diagnose pending (.unterminatedBlock device.type) (lastOr last lines))

/-! ### Verdicts -/

section Verdict

variable {block : Option String} {tokens : List String}

theorem verdict_content (h : IsContent tokens) :
    verdict block tokens = .ok (.content tokens, block) := by
  cases tokens with
  | nil => rfl
  | cons word arguments =>
    have hbegin : word ≠ beginWord := by simpa using h.1
    have hend : word ≠ endWord := by simpa using h.2
    unfold verdict
    exact (if_neg hbegin).trans (if_neg hend)

theorem verdict_begin (type : String) (extra : List String) :
    verdict none (beginWord :: type :: extra) = .ok (.beginDevice type, some type) := by
  rw [verdict, if_pos rfl]

theorem verdict_end (type : String) (extra : List String) :
    verdict (some type) (endWord :: type :: extra) = .ok (.endDevice type, none) := by
  rw [verdict, if_neg endWord_ne_beginWord, if_pos rfl]
  exact if_pos rfl

theorem verdict_breach {fault : Fault} (h : Breach block tokens fault) :
    verdict block tokens = .error fault := by
  unfold verdict
  cases h with
  | nested => exact if_pos rfl
  | untypedBegin => exact if_pos rfl
  | untypedEnd => exact if_neg endWord_ne_beginWord
  | unmatched hne => exact (if_neg endWord_ne_beginWord).trans (if_neg hne)

theorem judged (block : Option String) (tokens : List String) :
    Judged block tokens (verdict block tokens) := by
  rcases follows_or_breach block tokens with ⟨_, hf⟩ | ⟨fault, hb⟩
  · cases hf with
    | content hc =>
      rw [verdict_content hc]
      exact .content hc
    | opening =>
      rw [verdict_begin]
      exact .opening
    | closing =>
      rw [verdict_end]
      exact .closing
  · rw [verdict_breach hb]
    exact .breach hb

theorem verdict_isLast {signal : Signal} {next : Option String}
    (h : verdict block tokens = .ok (signal, next)) : signal.isLast = false := by
  have hj := judged block tokens
  rw [h] at hj
  cases hj <;> rfl

end Verdict

theorem lastOr_cons (last : Option Line) (line : Line) (tokens : List String)
    (rest : List Delivery) : lastOr last ((line, tokens) :: rest) = lastOr (some line) rest := by
  rw [lastOr, lastOr, List.getLast?_cons]
  cases rest.getLast? <;> rfl

namespace Session

theorem deliver_eq_verdict (s : Session) (line : Line) (tokens : List String) :
    s.deliver line tokens =
      match verdict s.blockType tokens with
      | .ok (signal, next) => (signal, { s with blockType := next, status := signal.status })
      | .error fault => s.failSignal fault line := by
  have hj := judged s.blockType tokens
  generalize hverdict : verdict s.blockType tokens = answer at hj
  generalize hblock : s.blockType = block at hj
  cases hj with
  | content hc =>
    rw [s.deliver_content line hc, ← hblock]
    rfl
  | opening => exact s.deliver_begin line _ _ hblock
  | closing => exact s.deliver_end line _ _ hblock
  | breach hb =>
    rw [← hblock] at hb
    exact s.deliver_breach line hb

/-! ### Sessions -/

theorem walk_of_diagnostic {s : Session} {d : Diagnostic} (h : s.diagnostic? = some d) :
    s.walk = ([(.error d, s.lastLine?)], s) := by
  have hnext := next_of_diagnostic h
  have hlast : s.next.1.isLast = true := by
    rw [hnext]
    rfl
  rw [walk_of_isLast hlast, hnext]

section Stands

variable {s : Session} {last : Option Delivery} {ahead rest : List Delivery}
  {block : Option String} {line : Line} {tokens : List String}

theorem Stands.next_of_error {fault : Fault}
    (h : s.Stands last ((line, tokens) :: rest) block) (hv : verdict block tokens = .error fault) :
    s.next.1 = .error (diagnose s.reporter.pending fault (some line)) ∧
      s.next.2.lastLine? = some line := by
  obtain ⟨s', hnext, hs'⟩ := h.next_cons
  rw [s'.deliver_eq_verdict, hs'.block_eq, hv] at hnext
  have hhalted : s.next.2.diagnostic? = some (s'.fail fault (some line)).1 := by
    rw [hnext]
    rfl
  have hmessage := ((s.next_reports).of_halts h.running hhalted).1
  refine ⟨?_, ?_⟩
  · rw [diagnose, ← s'.fail_fault fault (some line), ← hmessage, hnext]
    rfl
  · rw [hnext]
    exact hs'.lastLine_eq

theorem Stands.next_of_ok {signal : Signal} {next : Option String}
    (h : s.Stands last ((line, tokens) :: rest) block)
    (hv : verdict block tokens = .ok (signal, next)) :
    s.next.1 = signal ∧ s.next.2.Stands (some (line, tokens)) rest next ∧
      s.next.2.reporter = s.reporter := by
  obtain ⟨s', hnext, hs'⟩ := h.next_cons
  rw [s'.deliver_eq_verdict, hs'.block_eq, hv] at hnext
  have hrun : s.next.2.diagnostic? = none := by
    rw [hnext]
    exact diagnostic?_of_not_isLast _ (verdict_isLast hv) rfl
  refine ⟨by rw [hnext], ?_, (s.next_reports).reporter_eq hrun⟩
  rw [hnext] at hrun ⊢
  exact ⟨hrun, hs'.valid, hs'.last_eq, hs'.ahead_eq, rfl⟩

/-- A walk gives the trace of the lines ahead. Unless it is halted on the way, it goes over all of
them. -/
theorem Stands.walk_eq (h : s.Stands last ahead block) :
    s.walk.1 = trace s.reporter.pending block (last.map Prod.fst) ahead ∧
      (s.walk.2.diagnostic? = none →
        s.walk.2.lastLine? = lastOr (last.map Prod.fst) ahead ∧ s.walk.2.reporter = s.reporter) := by
  induction ahead generalizing s last block with
  | nil =>
    obtain ⟨s', hnext, hs'⟩ := h.next_nil
    have hlast : s.next.1.isLast = true := by
      rw [hnext]
      rfl
    have hreporter := (s.next_reports).reporter_eq (by rw [hnext]; exact hs'.running)
    rw [walk_of_isLast hlast]
    rw [hnext] at hreporter ⊢
    refine ⟨?_, fun _ => ⟨hs'.lastLine_eq, hreporter⟩⟩
    rw [hs'.lastLine_eq]
    rfl
  | cons entry rest ih =>
    obtain ⟨line, tokens⟩ := entry
    cases hv : verdict block tokens with
    | error fault =>
      obtain ⟨hsignal, hline⟩ := h.next_of_error hv
      have hlast : s.next.1.isLast = true := by
        rw [hsignal]
        rfl
      have hhalted : s.next.2.diagnostic? ≠ none := by
        rw [diagnostic?_eq_some_iff.mpr (next_status.mpr hsignal)]
        exact Option.some_ne_none _
      rw [walk_of_isLast hlast, trace, hv, hsignal, hline]
      exact ⟨rfl, fun hrun => absurd hrun hhalted⟩
    | ok answer =>
      obtain ⟨signal, next⟩ := answer
      obtain ⟨hsignal, hstands, hreporter⟩ := h.next_of_ok hv
      obtain ⟨hmore, hend⟩ := ih hstands
      have hlast : s.next.1.isLast = false := by
        rw [hsignal]
        exact verdict_isLast hv
      have hline : s.next.2.lastLine? = some line := hstands.lastLine_eq
      rw [walk_of_not_isLast hlast, trace, hv, hsignal, hline, hmore, hreporter]
      refine ⟨rfl, ?_⟩
      intro hrun
      obtain ⟨hover, hsame⟩ := hend hrun
      rw [lastOr_cons]
      exact ⟨hover, hsame.trans hreporter⟩

theorem Stands.readDocument_eq (h : s.Stands last ahead block) :
    s.readDocument.1 = summary s.reporter.pending block (last.map Prod.fst) ahead := by
  obtain ⟨hwalk, hend⟩ := h.walk_eq
  rw [readDocument, summary, ← hwalk]
  dsimp only
  rcases s.walk_gather with ⟨hstatus, hok⟩ | ⟨d, -, herror⟩
  · obtain ⟨draft, hdraft⟩ := hok .blank
    have hrun : s.walk.2.diagnostic? = none := by rw [diagnostic?, hstatus]
    obtain ⟨hline, hreporter⟩ := hend hrun
    rw [hdraft]
    dsimp only
    cases draft.block with
    | none => rfl
    | some device =>
      dsimp only
      rw [halt, hrun]
      dsimp only
      rw [hline, ← hreporter]
      rfl
  · rw [herror]

end Stands

end Session

end DeviceDescription
