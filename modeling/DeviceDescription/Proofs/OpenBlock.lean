import DeviceDescription.Proofs.Collect

/-!
# Blocks that are open when collecting begins

A document may be collected from any place in a description. A block that is opened after that place
and never closed is refused. One that was opened before it is not: if only content follows, its
lines count as lying outside every block, the document is made, and the block is left open.
-/

namespace DeviceDescription

/-- A session that has taken up a description and gone on some way through it. -/
inductive Session.Reading : Session → Prop
  | load {s disk root} : (Session.load s disk root).1 = .ok () →
      Reading (Session.load s disk root).2
  | next {s} : Reading s → Reading s.next.2

namespace Session

def remaining (s : Session) : List Delivery := deliveries s.settings.showIncludes s.ahead

theorem Valid.stands {s : Session} (h : s.Valid) (hrun : s.diagnostic? = none) :
    s.Stands s.lastDelivered? s.remaining s.blockType :=
  ⟨hrun, h, rfl, rfl, rfl⟩

theorem Valid.next {s : Session} (h : s.Valid) : s.next.2.Valid := by
  cases hrun : s.diagnostic? with
  | some d =>
    rw [Session.next, hrun]
    exact h
  | none =>
    have hs := h.stands hrun
    cases hahead : s.remaining with
    | nil =>
      rw [hahead] at hs
      obtain ⟨s', hnext, hs'⟩ := hs.next_nil
      rw [hnext]
      exact hs'.valid
    | cons entry rest =>
      rw [hahead] at hs
      obtain ⟨s', hnext, hs'⟩ := hs.next_cons
      intro line hl
      rw [hnext, deliver_ahead] at hl
      exact hs'.valid line hl

theorem Reading.valid {s : Session} (h : s.Reading) : s.Valid := by
  induction h with
  | load hload => exact (stands_of_load hload).valid
  | next _ ih => exact ih.next

section Stands

variable {s : Session} {last : Option Delivery} {ahead : List Delivery} {block : Option String}

theorem Stands.readDocument_of_content (h : s.Stands last ahead block)
    (hc : ∀ entry ∈ ahead, IsContent entry.2) :
    s.readDocument.1 = .ok ⟨ahead.map Prod.snd, []⟩ ∧ s.readDocument.2.blockType = block := by
  rw [← List.append_nil ahead] at h
  obtain ⟨s', he, hs'⟩ := h.readFrom_leaves (.of_content block hc) .blank
  obtain ⟨s'', hnext, hs''⟩ := hs'.next_nil
  have hdraft := (Grouped.of_content hc).takeAll_eq .blank rfl
  rw [readDocument_eq, he, readFrom_of_endOfStream hnext (by rw [hdraft]), hdraft]
  simp only [Document.Draft.document, Document.Draft.blank, List.append_nil, List.reverse_reverse,
    List.reverse_nil, hs''.block_eq, and_self]

theorem Stands.readDocument_of_closed (h : s.Stands last ahead block)
    (hl : Leaves block ahead none) :
    (∃ doc, s.readDocument.1 = .ok doc) ∧ s.readDocument.2.blockType = none := by
  rcases hl.content_or_gathered .blank with ⟨rfl, hall⟩ | hgathered
  · obtain ⟨hok, hblock⟩ := h.readDocument_of_content hall
    exact ⟨⟨_, hok⟩, hblock⟩
  · rw [← List.append_nil ahead] at h
    obtain ⟨s', he, hs'⟩ := h.readFrom_leaves hl .blank
    obtain ⟨s'', hnext, hs''⟩ := hs'.next_nil
    rw [readDocument_eq, he, readFrom_of_endOfStream hnext (Option.map_eq_none_iff.mp hgathered)]
    exact ⟨⟨_, rfl⟩, hs''.block_eq⟩

theorem Stands.leaves_or_content (h : s.Stands last ahead block) {doc : Document}
    (hok : s.readDocument.1 = .ok doc) :
    Leaves block ahead none ∨ ∀ entry ∈ ahead, IsContent entry.2 := by
  rcases leaves_or_breach block ahead with
    ⟨final, hl⟩ | ⟨before, line, tokens, rest, next, fault, rfl, hl, hb⟩
  · cases final with
    | none => exact .inl hl
    | some type =>
      by_contra hno
      obtain ⟨d, hd, -⟩ := h.readDocument_of_open hl fun hc => hno (.inr hc)
      rw [hd] at hok
      cases hok
  · obtain ⟨d, hd, -⟩ := h.readDocument_of_breach hl hb
    rw [hd] at hok
    cases hok

end Stands

end Session

/-- Collecting leaves a block open just if that block was open before and only content follows,
which then counts as lying outside. A block that is opened on the way and not closed is refused. -/
theorem readDocument_open_iff {s : Session} (h : s.Reading) :
    (∀ doc type, s.readDocument.1 = .ok doc ∧ s.readDocument.2.blockType = some type ↔
      s.diagnostic? = none ∧ s.blockType = some type ∧
        (∀ entry ∈ s.remaining, IsContent entry.2) ∧ doc = ⟨s.remaining.map Prod.snd, []⟩) ∧
    ∀ type, s.diagnostic? = none → Leaves s.blockType s.remaining (some type) →
      ¬ (∀ entry ∈ s.remaining, IsContent entry.2) →
      ∃ d, s.readDocument.1 = .error d ∧ d.fault = .unterminatedBlock type ∧
        d.site = s.remaining.getLast?.map Prod.fst := by
  refine ⟨?_, fun type hrun hl hno => (h.valid.stands hrun).readDocument_of_open hl hno⟩
  intro doc type
  constructor
  · rintro ⟨hok, hopen⟩
    cases hrun : s.diagnostic? with
    | some d =>
      rw [Session.readDocument_of_diagnostic hrun] at hok
      cases hok
    | none =>
      have hs := h.valid.stands hrun
      rcases hs.leaves_or_content hok with hl | hc
      · rw [(hs.readDocument_of_closed hl).2] at hopen
        cases hopen
      · obtain ⟨hdoc, hblock⟩ := hs.readDocument_of_content hc
        rw [hblock] at hopen
        rw [hdoc] at hok
        exact ⟨rfl, hopen, hc, (Except.ok.inj hok).symm⟩
  · rintro ⟨hrun, hopen, hc, rfl⟩
    obtain ⟨hdoc, hblock⟩ := (h.valid.stands hrun).readDocument_of_content hc
    exact ⟨hdoc, hblock.trans hopen⟩

def unclosed : Disk := .ofTexts [("motor.dd", "begin motor\nkp 40.0\n")]

def pastBegin : Session := ((Session.new {}).load unclosed "motor.dd").2.next.2

theorem pastBegin_reading : pastBegin.Reading := .next (.load (by decide +kernel))

theorem readDocument_pastBegin :
    pastBegin.Reading ∧ pastBegin.readDocument.1 = .ok ⟨[["kp", "40.0"]], []⟩ ∧
      pastBegin.readDocument.2.blockType = some "motor" := by
  have hcontent : ∀ entry ∈ pastBegin.remaining, IsContent entry.2 := by
    have hremaining : pastBegin.remaining = [(⟨"motor.dd", 2, "kp 40.0"⟩, ["kp", "40.0"])] := by
      decide +kernel
    rw [hremaining]
    intro entry he
    obtain rfl := List.mem_singleton.mp he
    exact ⟨by decide, by decide⟩
  have hopen := (readDocument_open_iff pastBegin_reading).1 ⟨[["kp", "40.0"]], []⟩ "motor"
  exact ⟨pastBegin_reading,
    hopen.mpr ⟨by decide +kernel, by decide +kernel, hcontent, by decide +kernel⟩⟩

theorem not_closed_after_readDocument :
    ¬ ∀ s : Session, s.Reading → ∀ doc, s.readDocument.1 = .ok doc →
      s.readDocument.2.blockType = none := by
  intro hclosed
  have hnone := hclosed pastBegin pastBegin_reading ⟨[["kp", "40.0"]], []⟩ (by decide +kernel)
  have hsome : pastBegin.readDocument.2.blockType = some "motor" := by decide +kernel
  rw [hsome] at hnone
  cases hnone

end DeviceDescription
