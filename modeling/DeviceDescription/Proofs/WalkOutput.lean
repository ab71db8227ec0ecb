import DeviceDescription.Proofs.Flattening
import DeviceDescription.Proofs.Tool
import DeviceDescription.Proofs.WrittenLine

/-!
# What a walk prints

A walk prints a line for each signal, and nothing that a description holds can break that line in
two: no token has a newline, since none is left in the lines that the files are cut into. So the
lines that start with `begin` or with `end` are those of the signals that open and close blocks, and
in a description that makes a document there are as many of each as the document has devices.
-/

namespace DeviceDescription

/-- How many lines of the text start with the word and a tab. -/
def linesStarting (word text : String) : Nat :=
  (text.toList.splitOn '\n').countP ((word ++ "\t").toList.isPrefixOf ·)

def OneLine (text : String) : Prop := '\n' ∉ text.toList

instance (text : String) : Decidable (OneLine text) := inferInstanceAs (Decidable (¬ _))

/-- The word is one of the two that bound blocks. -/
def IsBound (word : String) : Prop := word = beginWord ∨ word = endWord

/-! ### Lines of a text -/

section Text

theorem isPrefixOf_titled {word title : String} (hword : '\t' ∉ word.toList)
    (htitle : '\t' ∉ title.toList) (body : String) :
    (word ++ "\t").toList.isPrefixOf (title ++ "\t" ++ body).toList = (title == word) := by
  have hstart : (word ++ "\t").toList = word.toList ++ ['\t'] := String.toList_append
  have hrow : (title ++ "\t" ++ body).toList = title.toList ++ '\t' :: body.toList := by
    rw [String.toList_append, String.toList_append, List.append_assoc]
    rfl
  rw [Bool.eq_iff_iff, List.isPrefixOf_iff_prefix, hstart, hrow, beq_iff_eq]
  constructor
  · rintro ⟨rest, he⟩
    rw [List.append_assoc, List.singleton_append] at he
    have hcells := congrArg (List.splitOn '\t') he
    rw [List.splitOn_append_cons_self, List.splitOn_append_cons_self,
      List.splitOn_eq_singleton hword, List.splitOn_eq_singleton htitle] at hcells
    exact String.toList_inj.mp (List.cons.inj hcells).1.symm
  · rintro rfl
    exact ⟨body.toList, List.append_assoc ..⟩

/-- A line that has a title is counted under it. -/
theorem linesStarting_titled {word title body : String} (hword : '\t' ∉ word.toList)
    (htitle : '\t' ∉ title.toList) (h : OneLine (title ++ "\t" ++ body)) (rest : String) :
    linesStarting word (title ++ "\t" ++ body ++ "\n" ++ rest) =
      (if title == word then 1 else 0) + linesStarting word rest := by
  have htext : (title ++ "\t" ++ body ++ "\n" ++ rest).toList =
      (title ++ "\t" ++ body).toList ++ '\n' :: rest.toList := by
    rw [String.toList_append, String.toList_append, List.append_assoc]
    rfl
  rw [linesStarting, htext, List.splitOn_append_cons_self, List.splitOn_eq_singleton h,
    List.singleton_append, List.countP_cons, isPrefixOf_titled hword htitle, Nat.add_comm]
  rfl

theorem OneLine.append {s t : String} (hs : OneLine s) (ht : OneLine t) : OneLine (s ++ t) := by
  rw [OneLine, String.toList_append, List.mem_append]
  exact not_or.mpr ⟨hs, ht⟩

theorem oneLine_writtenLine {tokens : List String} (h : ∀ token ∈ tokens, OneLine token) :
    OneLine (writtenLine tokens) := by
  intro hc
  rcases mem_writtenLine hc with hq | hspace | ⟨token, ht, hc⟩
  · exact absurd hq (by decide)
  · exact absurd hspace (by decide)
  · exact h token ht hc

theorem oneLine_of_newline_not_mem {text : String} (h : newline ∉ Utf8.encode text) :
    OneLine text := by
  intro hc
  exact h (Utf8.newline_mem_encode_iff.mpr hc)

end Text

/-! ### Lines of signals -/

section Signals

open Command (signalText stepsText)

variable {word : String} {block next last : Option String} {tokens : List String}

theorem IsBound.tab_not_mem (h : IsBound word) : '\t' ∉ word.toList := by
  rcases h with rfl | rfl <;> decide

theorem IsContent.head?_ne (h : IsContent tokens) (hword : IsBound word) :
    tokens.head? ≠ some word := by
  rcases hword with rfl | rfl
  · exact h.1
  · exact h.2

theorem linesStarting_signalText (hword : IsBound word) {signal : Signal}
    (h : verdict block tokens = .ok (signal, next)) (hone : ∀ token ∈ tokens, OneLine token)
    (rest : String) :
    linesStarting word (signalText signal ++ rest) =
      (if tokens.head? == some word then 1 else 0) + linesStarting word rest := by
  have hj := judged block tokens
  rw [h] at hj
  cases hj with
  | content hc =>
    have hrow : OneLine ("content" ++ "\t" ++ writtenLine tokens) :=
      OneLine.append (by decide) (oneLine_writtenLine hone)
    have hcount := linesStarting_titled hword.tab_not_mem (by decide) hrow rest
    have hother : ("content" == word) = false := by rcases hword with rfl | rfl <;> decide
    rw [hother] at hcount
    have hhead : (tokens.head? == some word) = false := beq_false_of_ne (hc.head?_ne hword)
    rw [hhead]
    exact hcount
  | @opening type extra =>
    have hrow : OneLine (beginWord ++ "\t" ++ type) :=
      OneLine.append (by decide) (hone type (by simp))
    exact linesStarting_titled hword.tab_not_mem (by decide) hrow rest
  | @closing type extra =>
    have hrow : OneLine (endWord ++ "\t" ++ type) :=
      OneLine.append (by decide) (hone type (by simp))
    exact linesStarting_titled hword.tab_not_mem (by decide) hrow rest

theorem Follows.verdict_eq (h : Follows block tokens next) :
    ∃ signal, verdict block tokens = .ok (signal, next) := by
  cases h with
  | content hc => exact ⟨_, verdict_content hc⟩
  | opening => exact ⟨_, verdict_begin ..⟩
  | closing => exact ⟨_, verdict_end ..⟩

/-- As many lines are printed under the word as lines are delivered that begin with it. -/
theorem Leaves.linesStarting_trace (hword : IsBound word) {lines : List Delivery}
    (h : Leaves block lines next) (hone : ∀ entry ∈ lines, ∀ token ∈ entry.2, OneLine token)
    (pending : String) (before : Option Line) :
    linesStarting word (stepsText (trace pending block before lines)) =
      lines.countP fun entry => entry.2.head? == some word := by
  induction h generalizing before with
  | nil =>
    have hend : linesStarting word "eos\n" = 0 := by
      rcases hword with rfl | rfl <;> decide +kernel
    exact hend
  | @cons block line tokens next rest final hf _ ih =>
    obtain ⟨hfirst, hrest⟩ := List.forall_mem_cons.mp hone
    obtain ⟨signal, hverdict⟩ := hf.verdict_eq
    have hcount := linesStarting_signalText hword hverdict hfirst
      (stepsText (trace pending next (some line) rest))
    rw [ih hrest (some line)] at hcount
    rw [trace, hverdict, List.countP_cons, Nat.add_comm]
    dsimp only
    rw [Command.stepsText_cons, hcount]

theorem countP_of_content (hword : IsBound word) {lines : List Delivery}
    (h : ∀ entry ∈ lines, IsContent entry.2) :
    (lines.countP fun entry => entry.2.head? == some word) = 0 := by
  rw [List.countP_eq_zero]
  intro entry he hhead
  exact (h entry he).head?_ne hword (beq_iff_eq.mp hhead)

/-- Each block has one line with each of the two words, and no other line has either. -/
theorem Grouped.countP_eq (hword : IsBound word) {lines : List Delivery} {doc : Document}
    (h : Grouped lines doc) :
    (lines.countP fun entry => entry.2.head? == some word) = doc.devices.length := by
  induction h with
  | nil => rfl
  | @content line tokens rest doc hc _ ih =>
    have hhead : (tokens.head? == some word) = false := beq_false_of_ne (hc.head?_ne hword)
    rw [List.countP_cons, ih, hhead]
    rfl
  | block hinside _ ih =>
    rw [List.countP_cons, List.countP_append, countP_of_content hword hinside, List.countP_cons, ih]
    rcases hword with rfl | rfl
    · simp [endWord_ne_beginWord]
    · simp [endWord_ne_beginWord.symm]

end Signals

/-! ### Descriptions that have been loaded -/

theorem mem_deliveries {showIncludes : Bool} {lines : List Line} {entry : Delivery}
    (h : entry ∈ deliveries showIncludes lines) :
    entry.1 ∈ lines ∧ tokenize entry.1.text = .ok entry.2 := by
  obtain ⟨line, hline, hentry⟩ := List.mem_filterMap.mp h
  obtain ⟨tokens, hdelivered, rfl⟩ := Option.map_eq_some_iff.mp hentry
  refine ⟨hline, ?_⟩
  unfold Line.deliveredTokens? at hdelivered
  dsimp only
  cases ht : tokenize line.text with
  | error e =>
    rw [ht] at hdelivered
    cases hdelivered
  | ok found =>
    rw [ht] at hdelivered
    obtain ⟨-, hsame⟩ := Option.ite_none_right_eq_some.mp hdelivered
    rw [Option.some.inj hsame]

section Loaded

variable {s : Session} {disk : Disk} {root : String} (hload : (s.load disk root).1 = .ok ())
include hload

theorem oneLine_of_load (showIncludes : Bool) :
    ∀ entry ∈ deliveries showIncludes (s.load disk root).2.lines, ∀ token ∈ entry.2,
      OneLine token := by
  intro entry he token ht hc
  obtain ⟨hline, htokens⟩ := mem_deliveries he
  have hnewline := oneLine_of_newline_not_mem (newline_not_mem_of_load hload _ hline)
  exact hnewline ((tokenize_eq_ok_iff.mp htokens).mem ht hc)

/-- Of a description that makes a document, a walk prints a line for the beginning of each device and
one for its end. -/
theorem linesStarting_walk {word : String} (hword : IsBound word) {doc : Document}
    (hread : (s.load disk root).2.readDocument.1 = .ok doc) :
    linesStarting word (Command.stepsText (s.load disk root).2.walk.1) = doc.devices.length := by
  have hone := oneLine_of_load hload s.settings.showIncludes
  have hstands := Session.stands_of_load hload
  rcases grouped_or_rejected (deliveries s.settings.showIncludes (s.load disk root).2.lines) with
    ⟨doc', hg⟩ | ⟨fault, site, hr⟩
  · rw [hstands.readDocument_of_grouped hg] at hread
    obtain rfl := Except.ok.inj hread
    rw [hstands.walk_eq.1, hg.leaves.linesStarting_trace hword hone, hg.countP_eq hword]
  · obtain ⟨d, hd, -⟩ := hstands.readDocument_of_rejected hr
    rw [hread] at hd
    cases hd

end Loaded

end DeviceDescription
