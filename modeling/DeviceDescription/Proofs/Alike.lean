import DeviceDescription.Proofs.Trace
import Mathlib.Data.List.Forall2

/-!
# Sessions that read alike

Sessions that deliver lines with the same tokens give the same signals and make the same document,
whatever the files, numbers and texts of these lines are. `R` relates the lines of the one to those
of the other. Only the places that a signal, a device or a fault is said to come from differ, and
they are places of related lines.
-/

namespace DeviceDescription

section Relations

variable (R : Line → Line → Prop)

structure Diagnostic.Alike (d d' : Diagnostic) : Prop where
  fault : d.fault = d'.fault
  site : Option.Rel R d.site d'.site

inductive Signal.Alike : Signal → Signal → Prop
  | beginDevice (type : String) : Alike (.beginDevice type) (.beginDevice type)
  | endDevice (type : String) : Alike (.endDevice type) (.endDevice type)
  | content (tokens : List String) : Alike (.content tokens) (.content tokens)
  | endOfStream : Alike .endOfStream .endOfStream
  | error {d d' : Diagnostic} : d.Alike R d' → Alike (.error d) (.error d')

/-- Like signals, from related lines. -/
structure StepAlike (step step' : Signal × Option Line) : Prop where
  signal : step.1.Alike R step'.1
  source : Option.Rel R step.2 step'.2

/-- Related lines with the same tokens. -/
structure DeliveryAlike (entry entry' : Delivery) : Prop where
  line : R entry.1 entry'.1
  tokens : entry.2 = entry'.2

/-- The same device, but for the places of the `begin` lines. -/
inductive Device.Alike : Device → Device → Prop
  | mk {line line' : Line} (type : String) (params : List (List String)) : R line line' →
      Alike ⟨type, line.file, line.number, params⟩ ⟨type, line'.file, line'.number, params⟩

structure Document.Alike (doc doc' : Document) : Prop where
  globals : doc.globals = doc'.globals
  devices : List.Forall₂ (Device.Alike R) doc.devices doc'.devices

structure Document.Draft.Alike (draft draft' : Document.Draft) : Prop where
  globals : draft.globals = draft'.globals
  devices : List.Forall₂ (Device.Alike R) draft.devices draft'.devices
  block : Option.Rel (Device.Alike R) draft.block draft'.block

/-- Two results that are the same, or two diagnostics that are alike. -/
inductive AnswerAlike {α : Type} (same : α → α → Prop) :
    Except Diagnostic α → Except Diagnostic α → Prop
  | ok {a a' : α} : same a a' → AnswerAlike same (.ok a) (.ok a')
  | error {d d' : Diagnostic} : d.Alike R d' → AnswerAlike same (.error d) (.error d')

/-- The two sessions give like signals and make like documents. -/
structure Session.Alike (s s' : Session) : Prop where
  walk : List.Forall₂ (StepAlike R) s.walk.1 s'.walk.1
  document : AnswerAlike R (Document.Alike R) s.readDocument.1 s'.readDocument.1

end Relations

variable {R : Line → Line → Prop}

/-! ### Drafts -/

namespace Document.Draft.Alike

variable {draft draft' : Document.Draft}

theorem blank : Document.Draft.Alike R .blank .blank := ⟨rfl, .nil, .none⟩

theorem beginDevice {line line' : Line} (h : draft.Alike R draft') (type : String)
    (hline : R line line') :
    (draft.beginDevice type (some line)).Alike R (draft'.beginDevice type (some line')) :=
  ⟨h.globals, h.devices, .some (.mk type [] hline)⟩

theorem endDevice (h : draft.Alike R draft') : draft.endDevice.Alike R draft'.endDevice := by
  obtain ⟨globals, devices, block⟩ := draft
  obtain ⟨globals', devices', block'⟩ := draft'
  obtain ⟨hglobals, hdevices, hblock⟩ := h
  cases hblock with
  | none => exact ⟨hglobals, hdevices, .none⟩
  | some hdevice =>
    cases hdevice with
    | mk type params hline =>
      exact ⟨hglobals, .cons (.mk type params.reverse hline) hdevices, .none⟩

theorem content (h : draft.Alike R draft') (tokens : List String) :
    (draft.content tokens).Alike R (draft'.content tokens) := by
  obtain ⟨globals, devices, block⟩ := draft
  obtain ⟨globals', devices', block'⟩ := draft'
  obtain ⟨hglobals, hdevices, hblock⟩ := h
  cases hblock with
  | none => exact ⟨congrArg (tokens :: ·) hglobals, hdevices, .none⟩
  | some hdevice =>
    cases hdevice with
    | mk type params hline =>
      exact ⟨hglobals, hdevices, .some (.mk type (tokens :: params) hline)⟩

theorem document (h : draft.Alike R draft') : draft.document.Alike R draft'.document where
  globals := congrArg List.reverse h.globals
  devices := List.rel_reverse h.devices

end Document.Draft.Alike

/-! ### Traces -/

section Trace

variable (pending pending' : String) {block : Option String} {last last' : Option Line}
  {lines lines' : List Delivery}

theorem diagnose_alike (fault : Fault) {site site' : Option Line}
    (h : Option.Rel R site site') :
    (diagnose pending fault site).Alike R (diagnose pending' fault site') := ⟨rfl, h⟩

theorem lastOr_alike (hlines : List.Forall₂ (DeliveryAlike R) lines lines')
    (hlast : Option.Rel R last last') : Option.Rel R (lastOr last lines) (lastOr last' lines') := by
  induction hlines generalizing last last' with
  | nil => exact hlast
  | @cons entry entry' rest rest' hentry _ ih =>
    obtain ⟨line, tokens⟩ := entry
    obtain ⟨line', tokens'⟩ := entry'
    rw [lastOr_cons, lastOr_cons]
    exact ih (.some hentry.line)

theorem trace_alike (hlines : List.Forall₂ (DeliveryAlike R) lines lines')
    (hlast : Option.Rel R last last') :
    List.Forall₂ (StepAlike R) (trace pending block last lines)
      (trace pending' block last' lines') := by
  induction hlines generalizing block last last' with
  | nil => exact .cons ⟨.endOfStream, hlast⟩ .nil
  | @cons entry entry' rest rest' hentry _ ih =>
    obtain ⟨line, tokens⟩ := entry
    obtain ⟨line', tokens'⟩ := entry'
    obtain ⟨hline, rfl⟩ := hentry
    rw [trace, trace]
    have hj := judged block tokens
    generalize verdict block tokens = answer at hj
    cases hj with
    | breach =>
      exact .cons ⟨.error (diagnose_alike pending pending' _ (.some hline)), .some hline⟩ .nil
    | content => exact .cons ⟨.content tokens, .some hline⟩ (ih (.some hline))
    | opening => exact .cons ⟨.beginDevice _, .some hline⟩ (ih (.some hline))
    | closing => exact .cons ⟨.endDevice _, .some hline⟩ (ih (.some hline))

variable (block last last') in
theorem gather_trace_alike {draft draft' : Document.Draft}
    (hlines : List.Forall₂ (DeliveryAlike R) lines lines') (hdraft : draft.Alike R draft') :
    AnswerAlike R (Document.Draft.Alike R)
      (Document.gather draft (trace pending block last lines))
      (Document.gather draft' (trace pending' block last' lines')) := by
  induction hlines generalizing block last last' draft draft' with
  | nil => exact .ok hdraft
  | @cons entry entry' rest rest' hentry _ ih =>
    obtain ⟨line, tokens⟩ := entry
    obtain ⟨line', tokens'⟩ := entry'
    obtain ⟨hline, rfl⟩ := hentry
    rw [trace, trace]
    have hj := judged block tokens
    generalize verdict block tokens = answer at hj
    cases hj with
    | breach => exact .error (diagnose_alike pending pending' _ (.some hline))
    | content => exact ih _ _ _ (hdraft.content tokens)
    | opening => exact ih _ _ _ (hdraft.beginDevice _ hline)
    | closing => exact ih _ _ _ hdraft.endDevice

theorem summary_alike (hlines : List.Forall₂ (DeliveryAlike R) lines lines')
    (hlast : Option.Rel R last last') :
    AnswerAlike R (Document.Alike R) (summary pending block last lines)
      (summary pending' block last' lines') := by
  have hgather := gather_trace_alike pending pending' block last last' hlines .blank
  rw [summary, summary]
  generalize Document.gather .blank (trace pending block last lines) = answer at hgather ⊢
  generalize Document.gather .blank (trace pending' block last' lines') = answer' at hgather ⊢
  cases hgather with
  | error hd => exact .error hd
  | @ok draft draft' hdraft =>
    have hdocument := hdraft.document
    obtain ⟨globals, devices, block⟩ := draft
    obtain ⟨globals', devices', block'⟩ := draft'
    obtain ⟨-, -, hblock⟩ := hdraft
    cases hblock with
    | none => exact .ok hdocument
    | some hdevice =>
      cases hdevice with
      | mk type params _ =>
        exact .error (diagnose_alike pending pending' _ (lastOr_alike hlines hlast))

end Trace

namespace Session

variable {s s' : Session}

theorem Stands.alike {last last' : Option Delivery} {ahead ahead' : List Delivery}
    {block : Option String} (h : s.Stands last ahead block) (h' : s'.Stands last' ahead' block)
    (hlast : Option.Rel R (last.map Prod.fst) (last'.map Prod.fst))
    (hahead : List.Forall₂ (DeliveryAlike R) ahead ahead') : s.Alike R s' where
  walk := by
    rw [h.walk_eq.1, h'.walk_eq.1]
    exact trace_alike _ _ hahead hlast
  document := by
    rw [h.readDocument_eq, h'.readDocument_eq]
    exact summary_alike _ _ hahead hlast

theorem alike_of_diagnostic {d d' : Diagnostic} (h : s.diagnostic? = some d)
    (h' : s'.diagnostic? = some d') (hd : d.Alike R d')
    (hlast : Option.Rel R s.lastLine? s'.lastLine?) : s.Alike R s' where
  walk := by
    rw [walk_of_diagnostic h, walk_of_diagnostic h']
    exact .cons ⟨.error hd, hlast⟩ .nil
  document := by
    rw [readDocument_of_diagnostic h, readDocument_of_diagnostic h']
    exact .error hd

end Session

end DeviceDescription
