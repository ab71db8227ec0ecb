import DeviceDescription.Proofs.Checked
import DeviceDescription.Proofs.Trace

/-!
# Hiding include lines

Whether include lines are shown makes no difference to a load. The walk that does not show them
gives the signals of the one that does without those of include lines, as these are content
wherever they stand and so neither open, close nor breach a block. The document loses just their
tokens, and a fault is the same one at the same line, but for a block that is not closed: that is
blamed on the line shown last, which can be an include line in the one walk only.
-/

namespace DeviceDescription

def isIncludeRow (tokens : List String) : Bool := tokens.head? == some includeWord

def Signal.isInclude : Signal → Bool
  | .content tokens => isIncludeRow tokens
  | .beginDevice _ | .endDevice _ | .endOfStream | .error _ => false

def withoutIncludeRows (rows : List (List String)) : List (List String) :=
  rows.filter fun tokens => !isIncludeRow tokens

def Device.withoutIncludes (device : Device) : Device :=
  { device with params := withoutIncludeRows device.params }

/-- The document without the rows of include lines. -/
def Document.withoutIncludes (doc : Document) : Document :=
  ⟨withoutIncludeRows doc.globals, doc.devices.map Device.withoutIncludes⟩

/-- The lines that are still delivered when include lines are not. -/
def hide (lines : List Delivery) : List Delivery :=
  lines.filter fun entry => !isIncludeRow entry.2

/-- The same session, with include lines shown or not. -/
def Session.showing (s : Session) (showIncludes : Bool) : Session :=
  { s with settings := { s.settings with showIncludes } }

/-! ### Rows -/

theorem isContent_of_isIncludeRow {tokens : List String} (h : isIncludeRow tokens = true) :
    IsContent tokens := by
  have hword : tokens.head? = some includeWord := by simpa [isIncludeRow] using h
  rw [IsContent, hword]
  exact ⟨by decide, by decide⟩

section Rows

variable {tokens : List String} (rows : List (List String))

theorem withoutIncludeRows_cons_of_include (h : isIncludeRow tokens = true) :
    withoutIncludeRows (tokens :: rows) = withoutIncludeRows rows :=
  List.filter_cons_of_neg (by simp [h])

theorem withoutIncludeRows_cons_of_plain (h : isIncludeRow tokens = false) :
    withoutIncludeRows (tokens :: rows) = tokens :: withoutIncludeRows rows :=
  List.filter_cons_of_pos (by simp [h])

theorem withoutIncludeRows_reverse :
    withoutIncludeRows rows.reverse = (withoutIncludeRows rows).reverse :=
  List.filter_reverse

end Rows

theorem hide_cons_of_include {line : Line} {tokens : List String} (rest : List Delivery)
    (h : isIncludeRow tokens = true) : hide ((line, tokens) :: rest) = hide rest :=
  List.filter_cons_of_neg (by simp [h])

theorem hide_cons_of_plain {line : Line} {tokens : List String} (rest : List Delivery)
    (h : isIncludeRow tokens = false) :
    hide ((line, tokens) :: rest) = (line, tokens) :: hide rest :=
  List.filter_cons_of_pos (by simp [h])

theorem deliveries_false (lines : List Line) :
    deliveries false lines = hide (deliveries true lines) := by
  rw [hide, deliveries, deliveries, List.filter_filterMap]
  congr 1
  funext line
  unfold Line.deliveredTokens?
  cases tokenize line.text with
  | error e => rfl
  | ok tokens =>
    cases tokens with
    | nil => rfl
    | cons word arguments =>
      by_cases h : word = includeWord <;> simp [isDelivered, isIncludeRow, Option.filter, h]

/-! ### Drafts -/

namespace Document.Draft

def withoutIncludes (draft : Draft) : Draft :=
  ⟨withoutIncludeRows draft.globals, draft.devices.map Device.withoutIncludes,
    draft.block.map Device.withoutIncludes⟩

variable (draft : Draft) {tokens : List String}

theorem beginDevice_withoutIncludes (type : String) (source : Option Line) :
    (draft.beginDevice type source).withoutIncludes =
      draft.withoutIncludes.beginDevice type source := rfl

theorem endDevice_withoutIncludes :
    draft.endDevice.withoutIncludes = draft.withoutIncludes.endDevice := by
  obtain ⟨globals, devices, block⟩ := draft
  cases block with
  | none => rfl
  | some device =>
    simp only [endDevice, withoutIncludes, Option.map_some, Option.map_none, List.map_cons,
      Device.withoutIncludes, withoutIncludeRows_reverse]

theorem content_withoutIncludes_of_include (h : isIncludeRow tokens = true) :
    (draft.content tokens).withoutIncludes = draft.withoutIncludes := by
  obtain ⟨globals, devices, block⟩ := draft
  cases block <;>
    simp only [content, withoutIncludes, Device.withoutIncludes, Option.map_some, Option.map_none,
      withoutIncludeRows_cons_of_include _ h]

theorem content_withoutIncludes_of_plain (h : isIncludeRow tokens = false) :
    (draft.content tokens).withoutIncludes = draft.withoutIncludes.content tokens := by
  obtain ⟨globals, devices, block⟩ := draft
  cases block <;>
    simp only [content, withoutIncludes, Device.withoutIncludes, Option.map_some, Option.map_none,
      withoutIncludeRows_cons_of_plain _ h]

theorem document_withoutIncludes :
    draft.withoutIncludes.document = draft.document.withoutIncludes := by
  simp only [document, withoutIncludes, Document.withoutIncludes, withoutIncludeRows_reverse,
    List.map_reverse]

end Document.Draft

/-! ### Traces -/

section Trace

variable (pending : String) (block : Option String) (last last' : Option Line)
  (lines : List Delivery)

theorem trace_include {line : Line} {tokens : List String} (h : isIncludeRow tokens = true) :
    trace pending block last ((line, tokens) :: lines) =
      (.content tokens, some line) :: trace pending block (some line) lines := by
  rw [trace, verdict_content (isContent_of_isIncludeRow h)]

theorem trace_hide :
    (trace pending block last' (hide lines)).map Prod.fst =
      ((trace pending block last lines).map Prod.fst).filter fun signal => !signal.isInclude := by
  -- A hidden line is the last one delivered in the one walk only, so the two last lines are general.
  induction lines generalizing block last last' with
  | nil => rfl
  | cons entry rest ih =>
    obtain ⟨line, tokens⟩ := entry
    cases hrow : isIncludeRow tokens with
    | true =>
      rw [hide_cons_of_include rest hrow, trace_include pending block last rest hrow, List.map_cons,
        List.filter_cons_of_neg (by simp [Signal.isInclude, hrow])]
      exact ih block (some line) last'
    | false =>
      rw [hide_cons_of_plain rest hrow, trace, trace]
      have hj := judged block tokens
      generalize verdict block tokens = answer at hj
      cases hj with
      | breach => rfl
      | content hc =>
        have hkept : Signal.isInclude (.content tokens) = false := hrow
        dsimp only
        rw [List.map_cons, List.map_cons, List.filter_cons_of_pos (by simp [hkept])]
        exact congrArg _ (ih _ _ _)
      | opening | closing => exact congrArg _ (ih _ _ _)

theorem gather_trace_hide (draft : Document.Draft) :
    Document.gather draft.withoutIncludes (trace pending block last' (hide lines)) =
      (Document.gather draft (trace pending block last lines)).map
        Document.Draft.withoutIncludes := by
  induction lines generalizing block last last' draft with
  | nil => rfl
  | cons entry rest ih =>
    obtain ⟨line, tokens⟩ := entry
    cases hrow : isIncludeRow tokens with
    | true =>
      rw [hide_cons_of_include rest hrow, trace_include pending block last rest hrow,
        Document.gather, ← ih block (some line) last',
        draft.content_withoutIncludes_of_include hrow]
    | false =>
      rw [hide_cons_of_plain rest hrow, trace, trace]
      have hj := judged block tokens
      generalize verdict block tokens = answer at hj
      cases hj with
      | breach => rfl
      | content =>
        rw [Document.gather, Document.gather, ← draft.content_withoutIncludes_of_plain hrow]
        exact ih _ _ _ _
      | opening =>
        rw [Document.gather, Document.gather, ← draft.beginDevice_withoutIncludes]
        exact ih _ _ _ _
      | closing =>
        rw [Document.gather, Document.gather, ← draft.endDevice_withoutIncludes]
        exact ih _ _ _ _

theorem gather_trace_fault {draft : Document.Draft} {d : Diagnostic}
    (h : Document.gather draft (trace pending block last lines) = .error d) : d.fault.OfLine := by
  induction lines generalizing block last draft with
  | nil => cases h
  | cons entry rest ih =>
    obtain ⟨line, tokens⟩ := entry
    rw [trace] at h
    have hj := judged block tokens
    generalize verdict block tokens = answer at hj h
    cases hj with
    | breach hb =>
      obtain rfl := Except.error.inj h
      exact hb.ofLine
    | content | opening | closing => exact ih _ _ h

/-- What has become of a document, or of the fault it could not be made for, when include lines are
hidden. Before, `shown` was the line delivered last, and now it is `hidden`. -/
inductive Hidden (shown hidden : Option Line) :
    Except Diagnostic Document → Except Diagnostic Document → Prop
  | made (doc : Document) : Hidden shown hidden (.ok doc) (.ok doc.withoutIncludes)
  | fault {d : Diagnostic} : (∀ type, d.fault ≠ .unterminatedBlock type) →
      Hidden shown hidden (.error d) (.error d)
  | unterminated (type message : String) :
      Hidden shown hidden (.error ⟨.unterminatedBlock type, shown, message⟩)
        (.error ⟨.unterminatedBlock type, hidden, message⟩)

theorem Fault.OfLine.ne_unterminated {fault : Fault} (h : fault.OfLine) (type : String) :
    fault ≠ .unterminatedBlock type := by
  rintro rfl
  cases h

theorem Fault.OfLoad.ne_unterminated {fault : Fault} (h : fault.OfLoad) (type : String) :
    fault ≠ .unterminatedBlock type := by
  rintro rfl
  cases h

theorem summary_hide :
    Hidden (lastOr last lines) (lastOr last' (hide lines)) (summary pending block last lines)
      (summary pending block last' (hide lines)) := by
  have hgather := gather_trace_hide pending block last last' lines .blank
  rw [summary, summary]
  have hblank : Document.Draft.blank.withoutIncludes = .blank := rfl
  rw [hblank] at hgather
  rw [hgather]
  cases h : Document.gather .blank (trace pending block last lines) with
  | error d => exact .fault (gather_trace_fault pending block last lines h).ne_unterminated
  | ok draft =>
    dsimp only [Except.map]
    rw [draft.document_withoutIncludes]
    obtain ⟨globals, devices, block⟩ := draft
    cases block with
    | none => exact .made _
    | some device => exact .unterminated device.type _

end Trace

/-! ### Sessions -/

namespace Session

/-- The second session reads like the first, but for the include lines that only the first shows. -/
structure Hides (shown hidden : Session) : Prop where
  lines : hidden.lines = shown.lines
  filesOpened : hidden.filesOpened = shown.filesOpened
  signals : hidden.walk.1.map Prod.fst =
    (shown.walk.1.map Prod.fst).filter fun signal => !signal.isInclude
  document : Hidden (shown.visible.getLast?.map Prod.fst) (hidden.visible.getLast?.map Prod.fst)
    shown.readDocument.1 hidden.readDocument.1

section Load

variable (s : Session) (disk : Disk) (root : String) (showIncludes : Bool)

theorem load_showing :
    (s.showing showIncludes).load disk root =
      ((s.load disk root).1, (s.load disk root).2.showing showIncludes) := by
  cases h : (expand disk s.settings.depthLimit.toNat root).stop with
  | none =>
    rw [s.load_of_complete disk root h, (s.showing showIncludes).load_of_complete disk root h]
    rfl
  | some stop =>
    rw [s.load_of_stopped disk root h, (s.showing showIncludes).load_of_stopped disk root h]
    rfl

theorem visible_showing_false :
    (s.showing false).visible = hide (s.showing true).visible :=
  deliveries_false s.lines

end Load

variable {s : Session}

theorem hides_of_stands (h : (s.showing true).Stands none (s.showing true).visible none)
    (h' : (s.showing false).Stands none (s.showing false).visible none) :
    (s.showing true).Hides (s.showing false) where
  lines := rfl
  filesOpened := rfl
  signals := by
    rw [h.walk_eq.1, h'.walk_eq.1, visible_showing_false]
    exact trace_hide s.reporter.pending none none none (s.showing true).visible
  document := by
    have hsummary := summary_hide s.reporter.pending none none none (s.showing true).visible
    rw [lastOr, lastOr, Option.or_none, Option.or_none, ← visible_showing_false] at hsummary
    rw [h.readDocument_eq, h'.readDocument_eq]
    exact hsummary

theorem hides_of_diagnostic {d : Diagnostic} (h : s.diagnostic? = some d)
    (hfault : ∀ type, d.fault ≠ .unterminatedBlock type) :
    (s.showing true).Hides (s.showing false) where
  lines := rfl
  filesOpened := rfl
  signals := by
    have hshown : (s.showing true).diagnostic? = some d := h
    have hhidden : (s.showing false).diagnostic? = some d := h
    rw [walk_of_diagnostic hshown, walk_of_diagnostic hhidden]
    rfl
  document := by
    have hshown : (s.showing true).diagnostic? = some d := h
    have hhidden : (s.showing false).diagnostic? = some d := h
    rw [readDocument_of_diagnostic hshown, readDocument_of_diagnostic hhidden]
    exact .fault hfault

end Session

/-- Sessions that differ only in whether include lines are shown load with the same answer, the same
lines and the same number of files. The signals of the one that hides them are those of the other
but for the ones of include lines; the documents differ just by these lines, and the diagnostics,
if there is no document, at most by where they locate a block that is not closed. -/
theorem hiding_filters (s : Session) (disk : Disk) (root : String) :
    ((s.showing false).load disk root).1 = ((s.showing true).load disk root).1 ∧
      ((s.showing true).load disk root).2.Hides ((s.showing false).load disk root).2 := by
  have hstands (b : Bool) (hok : (s.load disk root).1 = .ok ()) :
      ((s.load disk root).2.showing b).Stands none ((s.load disk root).2.showing b).visible none := by
    have hload : (s.showing b).load disk root = (.ok (), (s.load disk root).2.showing b) := by
      rw [s.load_showing, hok]
    exact Session.stands_visible_of_load hload
  rw [s.load_showing, s.load_showing]
  refine ⟨rfl, ?_⟩
  cases hanswer : (s.load disk root).1 with
  | ok => exact Session.hides_of_stands (hstands true hanswer) (hstands false hanswer)
  | error d =>
    have hhalted := Session.diagnostic?_eq_some_iff.mpr ((Session.load_status disk root).mpr hanswer)
    have hfault := ofLoad_of_expand (s.exists_stop_of_load disk root hanswer)
    exact Session.hides_of_diagnostic hhalted hfault.ne_unterminated

/-- A block whose last line is an include line and that is not closed. -/
def openMotor : Disk := .ofTexts [("motor.dd", "begin motor\ninclude gains.dd\n"), ("gains.dd", "")]

example :
    (((Session.new {}).showing true).load openMotor "motor.dd").2.readDocument.1 =
        .error ⟨.unterminatedBlock "motor", some ⟨"motor.dd", 2, "include gains.dd"⟩,
          "device block 'motor' is never closed"⟩ ∧
      (((Session.new {}).showing false).load openMotor "motor.dd").2.readDocument.1 =
        .error ⟨.unterminatedBlock "motor", some ⟨"motor.dd", 1, "begin motor"⟩,
          "device block 'motor' is never closed"⟩ := by
  decide +kernel

end DeviceDescription
