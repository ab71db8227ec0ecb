import DeviceDescription.Proofs.Delivery
import DeviceDescription.Proofs.History
import DeviceDescription.Proofs.Reach

/-!
# What is left to find after a load

A load cuts every line into tokens and looks at the arguments of every include line. So it finds
only faults of files, quotes and includes, and once it has succeeded only faults of blocks are left:
`next` finds those of the line that is due, and the making of a document finds one more, a block
that is never closed.
-/

namespace DeviceDescription

/-- The faults that a load can find. -/
inductive Fault.OfLoad : Fault → Prop
  | cannotOpen (path reason : String) : OfLoad (.cannotOpen path reason)
  | readFailed (path reason : String) : OfLoad (.readFailed path reason)
  | inclusionCycle (path : String) : OfLoad (.inclusionCycle path)
  | includeTooDeep (path : String) (limit : Nat) : OfLoad (.includeTooDeep path limit)
  | unclosedQuote (column : Nat) : OfLoad (.unclosedQuote column)
  | misplacedQuote (column : Nat) : OfLoad (.misplacedQuote column)
  | noArgument : OfLoad (.missingArgument includeWord)
  | furtherArgument (token : String) : OfLoad (.extraArgument includeWord token)

/-- The faults that a call of `next` can find. -/
inductive Fault.OfLine : Fault → Prop
  | nested (opened found : String) : OfLine (.nestedBlock opened found)
  | untypedBegin : OfLine (.missingArgument beginWord)
  | untypedEnd : OfLine (.missingArgument endWord)
  | unmatched (opened : Option String) (found : String) : OfLine (.unmatchedEnd opened found)

/-- The faults that the making of a document can find. -/
inductive Fault.OfDocument : Fault → Prop
  | line {fault} : fault.OfLine → OfDocument fault
  | unterminated (type : String) : OfDocument (.unterminatedBlock type)

section Load

variable {disk : Disk} {limit : Nat} {root file : String} {above : List String} {number : Nat}
  {bytes : List UInt8} {stop : Stop}

theorem Disk.Refuses.ofLoad {chain : List String} {line : Line} {path : String}
    (h : disk.Refuses limit chain line path stop) : stop.fault.OfLoad := by
  cases h with
  | cycle => exact .inclusionCycle path
  | deep => exact .includeTooDeep path limit
  | closed => exact .cannotOpen path _
  | unreadable => exact .readFailed path _

theorem Fault.ofLoad_of_lineTarget {fault : Fault} (h : lineTarget file bytes = .error fault) :
    fault.OfLoad := by
  rcases lineTarget_eq_error_iff.mp h with
    ⟨flaw, -, rfl⟩ | ⟨text, -, ⟨e, -, rfl⟩ | ⟨tokens, -, htarget⟩⟩
  · exact .readFailed file _
  · cases e with
    | unclosed column => exact .unclosedQuote column
    | misplaced column => exact .misplacedQuote column
  · rcases includeTarget_eq_error_iff.mp htarget with ⟨-, rfl⟩ | ⟨path, extra, more, -, rfl⟩
    · exact .noArgument
    · exact .furtherArgument extra

theorem Faulty.ofLoad (h : Faulty disk limit file above number bytes stop) :
    stop.fault.OfLoad := by
  cases h with
  | malformed htarget => exact Fault.ofLoad_of_lineTarget htarget
  | refused _ hrefuses => exact hrefuses.ofLoad

theorem ofLoad_of_expand (h : (expand disk limit root).stop = some stop) : stop.fault.OfLoad := by
  rcases expand_stop h with ⟨obstacle, rfl⟩ | ⟨obstacle, rfl⟩ | ⟨_, _, _, _, _, _, -, hfaulty⟩
  · exact .cannotOpen root _
  · exact .readFailed root _
  · exact hfaulty.ofLoad

end Load

theorem Breach.ofLine {block : Option String} {tokens : List String} {fault : Fault}
    (h : Breach block tokens fault) : fault.OfLine := by
  cases h with
  | nested => exact .nested _ _
  | untypedBegin => exact .untypedBegin
  | untypedEnd => exact .untypedEnd
  | unmatched => exact .unmatched _ _

namespace Session

/-- The lines of the session have been checked, and a fault that has halted it is one that was left
to find. -/
structure PastLoad (s : Session) : Prop where
  checked : ∀ line ∈ s.lines, line.Checked
  halted : ∀ d, s.diagnostic? = some d → d.fault.OfDocument

namespace PastLoad

variable {s : Session} {d : Diagnostic}

theorem valid (h : s.PastLoad) : s.Valid := by
  intro line hl
  obtain ⟨tokens, ht, -⟩ := h.checked line (List.mem_append_right _ hl)
  exact ⟨tokens, ht⟩

theorem next_fault (h : s.PastLoad) (hrun : s.diagnostic? = none) (hd : s.next.1 = .error d) :
    d.fault.OfLine := by
  obtain ⟨hanswer, -, -⟩ := (h.valid.stands hrun).next_answered
  rw [hd] at hanswer
  generalize s.remaining.head? = due at hanswer
  cases hanswer with
  | error hb _ => exact hb.ofLine

theorem next (h : s.PastLoad) : s.next.2.PastLoad where
  checked := by
    rw [s.next_onward.lines]
    exact h.checked
  halted := by
    intro d hd
    have hsignal : s.next.1 = .error d := next_status.mp (diagnostic?_eq_some_iff.mp hd)
    cases hs : s.diagnostic? with
    | none => exact .line (h.next_fault hs hsignal)
    | some d' =>
      rw [next_of_diagnostic hs] at hd
      exact h.halted d hd

theorem halt_unterminated (h : s.PastLoad) (type : String) :
    (s.halt (.unterminatedBlock type)).2.PastLoad where
  checked := by
    rw [(s.halt_onward _).lines]
    exact h.checked
  halted := by
    intro d hd
    have hanswer := s.halt_status (.unterminatedBlock type)
    rw [diagnostic?_eq_some_iff.mp hd, Status.error.injEq] at hanswer
    cases hs : s.diagnostic? with
    | none =>
      have hfault := (halt_of_running hs (.unterminatedBlock type)).1
      rw [hanswer, hfault]
      exact .unterminated type
    | some d' =>
      have hsame : s.halt (.unterminatedBlock type) = (d', s) := by rw [Session.halt, hs]
      rw [hsame] at hd
      exact h.halted d hd

theorem readDocument (h : s.PastLoad) : s.readDocument.2.PastLoad :=
  readDocument_of_next (fun _ ht => ht.next) (fun _ type ht => ht.halt_unterminated type) h

theorem readDocument_fault (h : s.PastLoad) (hd : s.readDocument.1 = .error d) :
    d.fault.OfDocument := by
  have hstatus : s.readDocument.2.status = .error d := (readFrom_status .blank).mpr hd
  exact h.readDocument.halted d (diagnostic?_eq_some_iff.mpr hstatus)

theorem replies (h : s.PastLoad) {calls : List Call}
    (hcalls : ∀ call ∈ calls, call = .next ∨ call = .readDocument) :
    (s.replies calls).2.PastLoad := by
  apply replies_of_reply _ h
  intro t call hcall ht
  rcases hcalls call hcall with rfl | rfl
  · exact ht.next
  · exact ht.readDocument

end PastLoad

theorem pastLoad_of_load {s : Session} {disk : Disk} {root : String}
    (h : (s.load disk root).1 = .ok ()) : (s.load disk root).2.PastLoad where
  checked := checked_of_load h
  halted := by
    intro d hd
    have hanswer := (load_status disk root).mp (diagnostic?_eq_some_iff.mp hd)
    rw [h] at hanswer
    cases hanswer

end Session

/-- A load finds only faults of files, quotes and include lines. If it succeeds, every line is cut
into tokens and every include line has one argument, and that stays so when the signals are called
for and documents made in any order. Meanwhile `next` finds only faults of blocks at a line, never
one of quotes; the making of a document finds only these and a block that is not closed; and one of
these it was that has halted the session, if it is halted. -/
theorem faults_left_after_load (s : Session) (disk : Disk) (root : String) :
    (∀ d, (s.load disk root).1 = .error d → d.fault.OfLoad) ∧
    ((s.load disk root).1 = .ok () →
      ∀ calls, (∀ call ∈ calls, call = .next ∨ call = .readDocument) →
      ∀ now, now = ((s.load disk root).2.replies calls).2 →
        (∀ line ∈ now.lines, line.Checked) ∧
        (now.diagnostic? = none → ∀ d, now.next.1 = .error d → d.fault.OfLine) ∧
        (∀ d, now.readDocument.1 = .error d → d.fault.OfDocument) ∧
        ∀ d, now.diagnostic? = some d → d.fault.OfDocument) := by
  refine ⟨?_, ?_⟩
  · intro d hload
    exact ofLoad_of_expand (s.exists_stop_of_load disk root hload)
  · rintro hload calls hcalls now rfl
    have hpast := (Session.pastLoad_of_load hload).replies hcalls
    refine ⟨hpast.checked, ?_, ?_, hpast.halted⟩
    · intro hrun d hd
      exact hpast.next_fault hrun hd
    · intro d hd
      exact hpast.readDocument_fault hd

/-- The lines of the broken description are in order each by itself, and what is at fault is left to
the signals. -/
theorem faults_left_motors :
    (∃ d, ((Session.new {}).load motors "elbow.dd").1 = .error d ∧ d.fault.OfLoad) ∧
      (∀ line ∈ (brokenLoaded.replies [.next, .readDocument]).2.lines, line.Checked) ∧
      (brokenLoaded.replies [.next, .readDocument]).2.diagnostic? = some unmatchedArm ∧
      (brokenLoaded.replies [.next, .next]).2.next.1 = .error unmatchedArm ∧
      unmatchedArm.fault.OfLine := by
  have hmissing : ((Session.new {}).load motors "elbow.dd").1 = .error
      ⟨.cannotOpen "elbow.dd" "No such file or directory (os error 2)", none,
        "cannot open file elbow.dd: No such file or directory (os error 2)"⟩ := by
    decide +kernel
  have hbroken : (Session.new {}).load motors "broken.dd" = (.ok (), brokenLoaded) := by
    decide +kernel
  obtain ⟨hload, -⟩ := faults_left_after_load (.new {}) motors "elbow.dd"
  obtain ⟨-, hleft⟩ := faults_left_after_load (.new {}) motors "broken.dd"
  have hok : ((Session.new {}).load motors "broken.dd").1 = .ok () := by rw [hbroken]
  obtain ⟨hchecked, -⟩ := hleft hok [.next, .readDocument] (by decide) _ rfl
  obtain ⟨-, hline, -⟩ := hleft hok [.next, .next] (by decide) _ rfl
  rw [hbroken] at hchecked hline
  have herror : (brokenLoaded.replies [.next, .next]).2.next.1 = .error unmatchedArm := by
    decide +kernel
  exact ⟨⟨_, hmissing, hload _ hmissing⟩, hchecked, by decide +kernel, herror,
    hline (by decide +kernel) _ herror⟩

end DeviceDescription
