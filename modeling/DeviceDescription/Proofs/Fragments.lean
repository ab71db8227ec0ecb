import DeviceDescription.Proofs.Reports

/-!
# What becomes of the fragments of messages

A reporter is told fragments and flushed, in any order and any number of times. However that goes,
the requests fall into messages, each some fragments and the flush that ends them, and fragments for
which no flush has come yet. A message is answered with the diagnostic of its own fragments, the
others are pending, and a sink that keeps texts has been given those of the diagnostics.
-/

namespace DeviceDescription.Reporter

inductive Request where
  | report (fragment : String)
  | flush (fault : Fault) (site : Option Line)

/-- The fragment that is reported. -/
def Request.fragment? : Request → Option String
  | .report fragment => some fragment
  | .flush _ _ => none

/-- The diagnostics with which a reporter answers requests, and the reporter after them. -/
def serve (r : Reporter) : List Request → List Diagnostic × Reporter
  | [] => ([], r)
  | .report fragment :: requests => (r.report fragment).serve requests
  | .flush fault site :: requests =>
    let (d, r) := r.flush fault site
    let (ds, r) := r.serve requests
    (d :: ds, r)

/-- Fragments that are reported, and the flush after them. -/
structure Message where
  fragments : List String
  fault : Fault
  site : Option Line

def Message.requests (m : Message) : List Request :=
  m.fragments.map .report ++ [.flush m.fault m.site]

def Message.diagnostic (m : Message) : Diagnostic := ⟨m.fault, m.site, String.join m.fragments⟩

/-- The requests are the messages and then the fragments that no flush has followed. -/
def Comprise (requests : List Request) (messages : List Message) (unflushed : List String) : Prop :=
  requests = messages.flatMap Message.requests ++ unflushed.map .report

/-! ### Requests as messages -/

theorem exists_comprise (requests : List Request) :
    ∃ messages unflushed, Comprise requests messages unflushed := by
  induction requests with
  | nil => exact ⟨[], [], rfl⟩
  | cons request requests ih =>
    obtain ⟨messages, unflushed, rfl⟩ := ih
    cases request with
    | flush fault site => exact ⟨⟨[], fault, site⟩ :: messages, unflushed, rfl⟩
    | report fragment =>
      cases messages with
      | nil => exact ⟨[], fragment :: unflushed, rfl⟩
      | cons m messages =>
        exact ⟨⟨fragment :: m.fragments, m.fault, m.site⟩ :: messages, unflushed, rfl⟩

theorem filterMap_report (fragments : List String) :
    (fragments.map Request.report).filterMap Request.fragment? = fragments := by
  rw [List.filterMap_map]
  exact List.filterMap_some

theorem Message.filterMap_requests (m : Message) :
    m.requests.filterMap Request.fragment? = m.fragments := by
  rw [requests, List.filterMap_append, filterMap_report]
  exact List.append_nil _

theorem Comprise.fragments {requests : List Request} {messages : List Message}
    {unflushed : List String} (h : Comprise requests messages unflushed) :
    requests.filterMap Request.fragment? = messages.flatMap Message.fragments ++ unflushed := by
  rw [h, List.filterMap_append, filterMap_report, List.filterMap_flatMap]
  simp only [Message.filterMap_requests]

/-! ### What requests do -/

section Serve

variable (r : Reporter)

theorem serve_append (requests more : List Request) :
    r.serve (requests ++ more) =
      ((r.serve requests).1 ++ ((r.serve requests).2.serve more).1,
        ((r.serve requests).2.serve more).2) := by
  induction requests generalizing r with
  | nil => rfl
  | cons request requests ih =>
    cases request with
    | report fragment => exact ih (r.report fragment)
    | flush fault site => simp only [List.cons_append, serve, ih]

theorem serve_reports (fragments : List String) :
    r.serve (fragments.map .report) = ([], ⟨r.sink, r.pending ++ String.join fragments⟩) := by
  induction fragments generalizing r with
  | nil => simp [serve]
  | cons fragment fragments ih =>
    rw [List.map_cons, serve, ih, String.join_cons, ← String.append_assoc]
    rfl

/-- A message takes what is pending with it. -/
theorem serve_message (m : Message) (hpending : r.pending = "") :
    r.serve m.requests = ([m.diagnostic], r.sent m.diagnostic) := by
  rw [Message.requests, serve_append, serve_reports, hpending, String.empty_append]
  rfl

theorem serve_messages (messages : List Message) (hpending : r.pending = "") :
    (r.serve (messages.flatMap Message.requests)).1 = messages.map Message.diagnostic ∧
      (r.serve (messages.flatMap Message.requests)).2.pending = "" := by
  induction messages generalizing r with
  | nil => exact ⟨rfl, hpending⟩
  | cons m messages ih =>
    obtain ⟨hdiagnostics, hafter⟩ := ih (r.sent m.diagnostic) rfl
    rw [List.flatMap_cons, serve_append, serve_message r m hpending, hdiagnostics]
    exact ⟨rfl, hafter⟩

theorem Comprise.serve_eq {requests : List Request} {messages : List Message}
    {unflushed : List String} (h : Comprise requests messages unflushed)
    (hpending : r.pending = "") :
    (r.serve requests).1 = messages.map Message.diagnostic ∧
      (r.serve requests).2.pending = String.join unflushed := by
  obtain ⟨hdiagnostics, hafter⟩ := r.serve_messages messages hpending
  rw [h, serve_append, serve_reports, hdiagnostics, hafter, String.empty_append]
  exact ⟨List.append_nil _, rfl⟩

/-- A sink that keeps texts is given those of the diagnostics answered. -/
theorem serve_keeping {written : String} (hsink : r.sink = .keeping written)
    (requests : List Request) :
    (r.serve requests).2.sink = .keeping (written ++ transcript (r.serve requests).1) := by
  induction requests generalizing r written with
  | nil => simp [serve, hsink, transcript]
  | cons request requests ih =>
    cases request with
    | report fragment => exact ih (r.report fragment) hsink
    | flush fault site =>
      have hflush : (r.flush fault site).2.sink =
          .keeping (written ++ transcript [(r.flush fault site).1]) := by
        rw [transcript_singleton, flush, hsink]
        rfl
      rw [serve, ih _ hflush, String.append_assoc, ← transcript_append]
      rfl

theorem serve_refusing (hsink : r.sink = .refusing) (requests : List Request) :
    (r.serve requests).2.sink = .refusing := by
  induction requests generalizing r with
  | nil => exact hsink
  | cons request requests ih =>
    cases request with
    | report fragment => exact ih (r.report fragment) hsink
    | flush fault site =>
      have hflush : (r.flush fault site).2.sink = .refusing := by
        rw [flush, hsink]
        rfl
      exact ih _ hflush

end Serve

/-- Whatever is asked of a new reporter falls into messages and fragments that no flush has
followed, with each fragment in one place, in order. For any sink the answers are the diagnostics of
the messages, each with its own fragments joined and the fault and line of its flush, and the other
fragments joined are pending. A sink that keeps what is written to it has been given the texts of
these diagnostics in order, each with a newline; one that refuses everything makes no difference to
the rest. -/
theorem fragments_conserved (requests : List Request) :
    ∃ messages unflushed, Comprise requests messages unflushed ∧
      requests.filterMap Request.fragment? = messages.flatMap Message.fragments ++ unflushed ∧
      (∀ sink, ((new sink).serve requests).1 = messages.map Message.diagnostic ∧
        ((new sink).serve requests).2.pending = String.join unflushed) ∧
      (∀ written, ((new (.keeping written)).serve requests).2.sink =
        .keeping (written ++ transcript (messages.map Message.diagnostic))) ∧
      (new .refusing).serve requests =
        (messages.map Message.diagnostic, ⟨.refusing, String.join unflushed⟩) := by
  obtain ⟨messages, unflushed, h⟩ := exists_comprise requests
  refine ⟨messages, unflushed, h, h.fragments, fun sink => h.serve_eq _ rfl, ?_, ?_⟩
  · intro written
    rw [serve_keeping _ rfl, (h.serve_eq _ rfl).1]
  · obtain ⟨hdiagnostics, hpending⟩ := h.serve_eq (new .refusing) rfl
    have hsink := serve_refusing (new .refusing) rfl requests
    calc (new .refusing).serve requests
        = (((new .refusing).serve requests).1, ⟨((new .refusing).serve requests).2.sink,
            ((new .refusing).serve requests).2.pending⟩) := rfl
      _ = _ := by rw [hdiagnostics, hpending, hsink]

end DeviceDescription.Reporter
