import DeviceDescription.Proofs.Grammar
import DeviceDescription.Proofs.Splice

/-!
# Collecting a document

`Session.Stands` is all that reading depends on: the line delivered last, the lines still to be
delivered and the open block, in a session that has not failed. Each line ahead that can follow
takes the session on and goes into the draft; the first that cannot is blamed. So what a session
collects is read off the grammar of the lines it delivers.
-/

namespace DeviceDescription

namespace Document.Draft

def take (draft : Draft) (entry : Delivery) : Draft :=
  if entry.2.head? = some beginWord then
    draft.beginDevice (entry.2[1]?.getD "") (some entry.1)
  else if entry.2.head? = some endWord then draft.endDevice
  else draft.content entry.2

def takeAll (draft : Draft) (lines : List Delivery) : Draft := lines.foldl take draft

variable (draft : Draft) (line : Line)

theorem take_content {tokens : List String} (h : IsContent tokens) :
    draft.take (line, tokens) = draft.content tokens := by
  rw [take, if_neg h.1, if_neg h.2]

theorem take_begin (type : String) (extra : List String) :
    draft.take (line, beginWord :: type :: extra) = draft.beginDevice type (some line) := rfl

theorem take_end (type : String) (extra : List String) :
    draft.take (line, endWord :: type :: extra) = draft.endDevice := by
  rw [take, if_neg (by simpa using endWord_ne_beginWord)]
  exact if_pos rfl

theorem takeAll_inside {draft : Draft} {device : Device} {lines : List Delivery}
    (hb : draft.block = some device) (h : ∀ entry ∈ lines, IsContent entry.2) :
    draft.takeAll lines = { draft with
      block := some { device with params := (lines.map Prod.snd).reverse ++ device.params } } := by
  induction lines generalizing draft device with
  | nil =>
    obtain ⟨globals, devices, block⟩ := draft
    obtain rfl : block = some device := hb
    rfl
  | cons entry lines ih =>
    obtain ⟨he, hall⟩ := List.forall_mem_cons.mp h
    have hnext : (draft.take entry).block =
        some { device with params := entry.2 :: device.params } := by
      rw [draft.take_content entry.1 he, content, hb]
    have hrest := ih hnext hall
    rw [takeAll] at hrest ⊢
    rw [List.foldl_cons, hrest, draft.take_content entry.1 he, content, hb]
    simp only [List.map_cons, List.reverse_cons, List.append_assoc, List.singleton_append]

end Document.Draft

open Document (Draft)

/-- Lines in the grammar add their document to the draft. -/
theorem Grouped.takeAll_eq {lines : List Delivery} {doc : Document} (h : Grouped lines doc)
    (draft : Draft) (hb : draft.block = none) :
    draft.takeAll lines = ⟨doc.globals.reverse ++ draft.globals,
      doc.devices.reverse ++ draft.devices, none⟩ := by
  induction h generalizing draft with
  | nil =>
    obtain ⟨globals, devices, block⟩ := draft
    obtain rfl : block = none := hb
    rfl
  | @content line tokens rest doc hc _ ih =>
    have hnext : draft.take (line, tokens) = { draft with globals := tokens :: draft.globals } := by
      rw [draft.take_content line hc, Draft.content, hb]
    have hrest := ih (draft.take (line, tokens)) (by rw [hnext]; exact hb)
    rw [Draft.takeAll] at hrest ⊢
    rw [List.foldl_cons, hrest, hnext, List.reverse_cons, List.append_assoc, List.singleton_append]
  | @block line type extra inside last extra' rest doc hinside _ ih =>
    have hopen : (draft.beginDevice type (some line)).block =
        some ⟨type, line.file, line.number, []⟩ := rfl
    have hbody := Draft.takeAll_inside hopen hinside
    have hclosed : Draft.take ((draft.beginDevice type (some line)).takeAll inside)
        (last, endWord :: type :: extra') =
          { draft with
            devices := ⟨type, line.file, line.number, inside.map Prod.snd⟩ :: draft.devices
            block := none } := by
      rw [Draft.take_end, hbody, Draft.endDevice]
      simp only [List.append_nil, List.reverse_reverse]
      rfl
    have hrest := ih (Draft.take ((draft.beginDevice type (some line)).takeAll inside)
      (last, endWord :: type :: extra')) (by rw [hclosed])
    rw [Draft.takeAll] at hrest ⊢
    rw [List.foldl_cons, List.foldl_append, List.foldl_cons, Draft.take_begin]
    rw [Draft.takeAll] at hclosed hrest
    rw [hrest, hclosed, List.reverse_cons, List.append_assoc, List.singleton_append]

/-- The block grammar is unambiguous. -/
theorem Grouped.unique {lines : List Delivery} {doc doc' : Document} (h : Grouped lines doc)
    (h' : Grouped lines doc') : doc = doc' := by
  have he := (h.takeAll_eq .blank rfl).symm.trans (h'.takeAll_eq .blank rfl)
  obtain ⟨hg, hd, -⟩ := Draft.mk.inj he
  obtain ⟨globals, devices⟩ := doc
  obtain ⟨globals', devices'⟩ := doc'
  simp only [Draft.blank, List.append_nil, List.reverse_inj] at hg hd
  rw [hg, hd]

theorem Grouped.of_content {lines : List Delivery} (h : ∀ entry ∈ lines, IsContent entry.2) :
    Grouped lines ⟨lines.map Prod.snd, []⟩ := by
  induction lines with
  | nil => exact .nil
  | cons entry lines ih =>
    obtain ⟨he, hall⟩ := List.forall_mem_cons.mp h
    exact .content he (ih hall)

/-- The draft gathers the block that lines leave open, unless they are all content of a block that
was open before. -/
theorem Leaves.content_or_gathered {block final : Option String} {lines : List Delivery}
    (h : Leaves block lines final) (draft : Draft) :
    (block = final ∧ ∀ entry ∈ lines, IsContent entry.2) ∨
      (draft.takeAll lines).block.map Device.type = final := by
  induction h generalizing draft with
  | nil => exact .inl ⟨rfl, by simp⟩
  | @cons block line tokens next rest final hf hrest ih =>
    have hnext := ih (draft.take (line, tokens))
    cases hf with
    | content hc =>
      rcases hnext with ⟨rfl, hall⟩ | hdraft
      · exact .inl ⟨rfl, List.forall_mem_cons.mpr ⟨hc, hall⟩⟩
      · exact .inr hdraft
    | @opening type extra =>
      -- If only content follows, the block opened here is the one left open, and it is gathered.
      rcases hnext with ⟨rfl, hall⟩ | hdraft
      · have hopen : (draft.take (line, beginWord :: type :: extra)).block =
            some ⟨type, line.file, line.number, []⟩ := rfl
        have hbody := congrArg Draft.block (Draft.takeAll_inside hopen hall)
        exact .inr (congrArg (Option.map Device.type) hbody)
      · exact .inr hdraft
    | @closing type extra =>
      rcases hnext with ⟨rfl, hall⟩ | hdraft
      · have hclosed : (draft.take (line, endWord :: type :: extra)).block = none := by
          rw [draft.take_end, Draft.endDevice]
          split
          · rfl
          · assumption
        have hbody := congrArg Draft.block ((Grouped.of_content hall).takeAll_eq _ hclosed)
        exact .inr (congrArg (Option.map Device.type) hbody)
      · exact .inr hdraft

/-- The signal for the line that is due, `none` at the end of the lines, while the block is open. -/
inductive Answered (block : Option String) : Option Delivery → Signal → Prop
  | endOfStream : Answered block none .endOfStream
  | beginDevice {line type extra} : block = none →
      Answered block (some (line, beginWord :: type :: extra)) (.beginDevice type)
  | endDevice {line type extra} : block = some type →
      Answered block (some (line, endWord :: type :: extra)) (.endDevice type)
  | content {line tokens} : IsContent tokens → Answered block (some (line, tokens)) (.content tokens)
  | error {line tokens d} : Breach block tokens d.fault → d.site = some line →
      Answered block (some (line, tokens)) (.error d)

namespace Session

def Valid (s : Session) : Prop := ∀ line ∈ s.ahead, ∃ tokens, tokenize line.text = .ok tokens

/-- The session has not failed and the lines ahead have tokens; `last` is the line delivered last,
`ahead` are those still to be delivered, and `block` is the type of the open block. -/
structure Stands (s : Session) (last : Option Delivery) (ahead : List Delivery)
    (block : Option String) : Prop where
  running : s.diagnostic? = none
  valid : s.Valid
  last_eq : s.lastDelivered? = last
  ahead_eq : deliveries s.settings.showIncludes s.ahead = ahead
  block_eq : s.blockType = block

def pass (s : Session) (line : Line) (rest : List Line) : Session :=
  { s with passed := line :: s.passed, ahead := rest }

section Next

variable {s : Session} {last : Option Delivery} {ahead : List Delivery} {block : Option String}
  {line : Line} {rest : List Line}

theorem Stands.pass_hidden (h : s.Stands last ahead block) (hs : s.ahead = line :: rest)
    (hline : line.deliveredTokens? s.settings.showIncludes = none) :
    (s.pass line rest).Stands last ahead block where
  running := h.running
  valid := by
    intro l hl
    apply h.valid
    rw [hs]
    exact List.mem_cons_of_mem _ hl
  last_eq := by
    rw [← h.last_eq]
    simp only [lastDelivered?, pass, List.findSome?_cons, hline, Option.map_none]
  ahead_eq := by
    rw [← h.ahead_eq, hs]
    simp only [deliveries, pass, List.filterMap_cons, hline, Option.map_none]
  block_eq := h.block_eq

theorem Stands.pass_delivered {tokens : List String} (h : s.Stands last ahead block)
    (hs : s.ahead = line :: rest)
    (hline : line.deliveredTokens? s.settings.showIncludes = some tokens) :
    ahead = (line, tokens) :: deliveries s.settings.showIncludes rest ∧
      (s.pass line rest).Stands (some (line, tokens)) (deliveries s.settings.showIncludes rest)
        block := by
  refine ⟨?_, h.running, ?_, ?_, rfl, h.block_eq⟩
  · rw [← h.ahead_eq, hs]
    simp only [deliveries, List.filterMap_cons, hline, Option.map_some]
  · intro l hl
    exact h.valid l (by rw [hs]; exact List.mem_cons_of_mem _ hl)
  · simp only [lastDelivered?, pass, List.findSome?_cons, hline, Option.map_some]

theorem advance_cons (s : Session) {tokens : List String} (ht : tokenize line.text = .ok tokens) :
    s.advance (line :: rest) =
      if isDelivered s.settings.showIncludes tokens then (s.pass line rest).deliver line tokens
      else (s.pass line rest).advance rest := by
  rw [advance, ht]
  rfl

/-- The session finds the end of the lines, or the first line ahead and goes on to deliver it. -/
theorem Stands.advance {lines : List Line} (h : s.Stands last ahead block)
    (hs : s.ahead = lines) :
    (ahead = [] ∧ ∃ s', s.advance lines = (.endOfStream, s') ∧ s'.Stands last [] block) ∨
      ∃ line tokens rest, ∃ s' : Session, ahead = (line, tokens) :: rest ∧
        s.advance lines = s'.deliver line tokens ∧
        s'.Stands (some (line, tokens)) rest block := by
  induction lines generalizing s with
  | nil =>
    have hnil : ahead = [] := by
      rw [← h.ahead_eq, hs]
      rfl
    refine .inl ⟨hnil, _, rfl, rfl, ?_, h.last_eq, rfl, h.block_eq⟩
    intro l hl
    cases hl
  | cons line rest ih =>
    obtain ⟨tokens, ht⟩ : ∃ tokens, tokenize line.text = .ok tokens := by
      apply h.valid
      rw [hs]
      exact List.mem_cons_self
    rw [s.advance_cons ht]
    by_cases hd : isDelivered s.settings.showIncludes tokens
    · have hline : line.deliveredTokens? s.settings.showIncludes = some tokens := by
        simp only [Line.deliveredTokens?, ht, if_pos hd]
      obtain ⟨hahead, hpass⟩ := h.pass_delivered hs hline
      rw [if_pos hd]
      exact .inr ⟨line, tokens, _, _, hahead, rfl, hpass⟩
    · have hline : line.deliveredTokens? s.settings.showIncludes = none := by
        simp only [Line.deliveredTokens?, ht, if_neg hd]
      rw [if_neg hd]
      exact ih (h.pass_hidden hs hline) rfl

theorem Stands.next_nil (h : s.Stands last [] block) :
    ∃ s', s.next = (.endOfStream, s') ∧ s'.Stands last [] block := by
  have hnext : s.next = s.advance s.ahead := by rw [next, h.running]
  rw [hnext]
  rcases h.advance rfl with ⟨-, hend⟩ | ⟨line, tokens, rest, s', hahead, -⟩
  · exact hend
  · cases hahead

theorem Stands.next_cons {entry : Delivery} {ahead : List Delivery}
    (h : s.Stands last (entry :: ahead) block) :
    ∃ s' : Session, s.next = s'.deliver entry.1 entry.2 ∧ s'.Stands (some entry) ahead block := by
  have hnext : s.next = s.advance s.ahead := by rw [next, h.running]
  rw [hnext]
  rcases h.advance rfl with ⟨hahead, -⟩ | ⟨line, tokens, rest, s', hahead, he, hs'⟩
  · cases hahead
  · obtain ⟨rfl, rfl⟩ := List.cons.inj hahead
    exact ⟨s', he, hs'⟩

end Next

/-- The document of the lines still ahead, added to what a draft holds. -/
def readFrom (s : Session) (draft : Draft) : Except Diagnostic Document × Session :=
  let (steps, s) := s.walk
  match Document.gather draft steps with
  | .error d => (.error d, s)
  | .ok draft =>
    match draft.block with
    | none => (.ok draft.document, s)
    | some device =>
      let (d, s) := s.halt (.unterminatedBlock device.type)
      (.error d, s)

theorem readDocument_eq (s : Session) : s.readDocument = s.readFrom .blank := rfl

section Read

variable {s s' : Session} (draft : Draft)

theorem readFrom_of_begin {type : String} (h : s.next = (.beginDevice type, s')) :
    s.readFrom draft = s'.readFrom (draft.beginDevice type s'.lastLine?) := by
  rw [readFrom, walk, h]
  rfl

theorem readFrom_of_end {type : String} (h : s.next = (.endDevice type, s')) :
    s.readFrom draft = s'.readFrom draft.endDevice := by
  rw [readFrom, walk, h]
  rfl

theorem readFrom_of_content {tokens : List String} (h : s.next = (.content tokens, s')) :
    s.readFrom draft = s'.readFrom (draft.content tokens) := by
  rw [readFrom, walk, h]
  rfl

theorem readFrom_of_error {d : Diagnostic} (h : s.next = (.error d, s')) :
    s.readFrom draft = (.error d, s') := by
  rw [readFrom, walk, h]
  rfl

theorem readFrom_of_endOfStream {draft : Draft} (h : s.next = (.endOfStream, s'))
    (hb : draft.block = none) : s.readFrom draft = (.ok draft.document, s') := by
  rw [readFrom, walk, h]
  simp only [Signal.isLast, ↓reduceDIte, Document.gather, hb]

theorem readFrom_of_open {draft : Draft} {device : Device} (h : s.next = (.endOfStream, s'))
    (hrun : s'.diagnostic? = none) (hb : draft.block = some device) :
    s.readFrom draft = (.error (s'.fail (.unterminatedBlock device.type) s'.lastLine?).1,
      (s'.fail (.unterminatedBlock device.type) s'.lastLine?).2) := by
  rw [readFrom, walk, h]
  simp only [Signal.isLast, ↓reduceDIte, Document.gather, hb, halt, hrun]

theorem next_of_diagnostic {d : Diagnostic} (h : s.diagnostic? = some d) :
    s.next = (.error d, s) := by
  unfold next
  rw [h]

theorem readDocument_of_diagnostic {d : Diagnostic} (h : s.diagnostic? = some d) :
    s.readDocument = (.error d, s) := by
  rw [readDocument_eq, readFrom_of_error .blank (next_of_diagnostic h)]

end Read

section Deliver

variable (s : Session) (line : Line)

theorem deliver_content {tokens : List String} (h : IsContent tokens) :
    s.deliver line tokens = (.content tokens, { s with status := .ok }) := by
  rw [deliver, if_neg h.1, if_neg h.2]

theorem deliver_begin (type : String) (extra : List String) (h : s.blockType = none) :
    s.deliver line (beginWord :: type :: extra) =
      (.beginDevice type, { s with blockType := some type, status := .beginDevice }) := by
  rw [deliver, if_pos List.head?_cons, h]
  rfl

theorem deliver_end (type : String) (extra : List String) (h : s.blockType = some type) :
    s.deliver line (endWord :: type :: extra) =
      (.endDevice type, { s with blockType := none, status := .endDevice }) := by
  rw [deliver, if_neg (by simpa using endWord_ne_beginWord), if_pos List.head?_cons]
  exact if_pos h

theorem deliver_breach {tokens : List String} {fault : Fault} (h : Breach s.blockType tokens fault) :
    s.deliver line tokens = s.failSignal fault line := by
  generalize hblock : s.blockType = block at h
  cases h with
  | nested =>
    rw [deliver, if_pos List.head?_cons, hblock]
    simp only [List.getElem?_cons_succ, List.head?_eq_getElem?]
  | untypedBegin =>
    rw [deliver, if_pos List.head?_cons, hblock]
    rfl
  | untypedEnd =>
    rw [deliver, if_neg (by simpa using endWord_ne_beginWord), if_pos List.head?_cons]
    rfl
  | unmatched hne =>
    rw [← hblock] at hne ⊢
    rw [deliver, if_neg (by simpa using endWord_ne_beginWord), if_pos List.head?_cons]
    exact if_neg hne

end Deliver

section Run

variable {s : Session} {last : Option Delivery} {ahead rest : List Delivery}
  {block next : Option String} {line : Line} {tokens : List String}

theorem Stands.lastLine_eq (h : s.Stands last ahead block) :
    s.lastLine? = last.map Prod.fst := by
  rw [lastLine?, h.last_eq]

theorem Stands.next_follows (h : s.Stands last ((line, tokens) :: rest) block)
    (hf : Follows block tokens next) :
    ∃ signal, ∃ s' : Session, s.next = (signal, s') ∧ Answered block (some (line, tokens)) signal ∧
      s'.Stands (some (line, tokens)) rest next := by
  obtain ⟨s', hnext, hs'⟩ := h.next_cons
  cases hf with
  | content hc =>
    rw [s'.deliver_content line hc] at hnext
    exact ⟨_, _, hnext, .content hc, rfl, hs'.valid, hs'.last_eq, hs'.ahead_eq, hs'.block_eq⟩
  | @opening type extra =>
    rw [s'.deliver_begin line type extra hs'.block_eq] at hnext
    exact ⟨_, _, hnext, .beginDevice rfl, rfl, hs'.valid, hs'.last_eq, hs'.ahead_eq, rfl⟩
  | @closing type extra =>
    rw [s'.deliver_end line type extra hs'.block_eq] at hnext
    exact ⟨_, _, hnext, .endDevice rfl, rfl, hs'.valid, hs'.last_eq, hs'.ahead_eq, rfl⟩

/-- A line that cannot stand where it does is passed and blamed. -/
theorem Stands.next_breach {fault : Fault} (h : s.Stands last ((line, tokens) :: rest) block)
    (hb : Breach block tokens fault) :
    ∃ d, ∃ s' : Session, s.next = (.error d, s') ∧ d.fault = fault ∧ d.site = some line ∧
      s'.status = .error d ∧ s'.lastDelivered? = some (line, tokens) := by
  obtain ⟨s', hnext, hs'⟩ := h.next_cons
  rw [← hs'.block_eq] at hb
  rw [s'.deliver_breach line hb] at hnext
  exact ⟨_, _, hnext, s'.fail_fault _ _, s'.fail_site _ _, rfl, hs'.last_eq⟩

theorem Stands.readFrom_follows (h : s.Stands last ((line, tokens) :: rest) block)
    (hf : Follows block tokens next) (draft : Draft) :
    ∃ s' : Session, s.readFrom draft = s'.readFrom (draft.take (line, tokens)) ∧
      s'.Stands (some (line, tokens)) rest next := by
  obtain ⟨signal, s', hnext, hanswer, hs'⟩ := h.next_follows hf
  refine ⟨s', ?_, hs'⟩
  cases hanswer with
  | content hc => rw [readFrom_of_content draft hnext, draft.take_content line hc]
  | beginDevice =>
    have hlast : s'.lastLine? = some line := hs'.lastLine_eq
    rw [readFrom_of_begin draft hnext, hlast, draft.take_begin]
  | endDevice => rw [readFrom_of_end draft hnext, draft.take_end]
  | error hb => exact absurd hb hf.not_breach

theorem Stands.readFrom_breach {fault : Fault} (h : s.Stands last ((line, tokens) :: rest) block)
    (hb : Breach block tokens fault) (draft : Draft) :
    ∃ d, (s.readFrom draft).1 = .error d ∧ d.fault = fault ∧ d.site = some line := by
  obtain ⟨d, s', hnext, hfault, hsite, -⟩ := h.next_breach hb
  rw [readFrom_of_error draft hnext]
  exact ⟨d, rfl, hfault, hsite⟩

theorem Stands.readFrom_leaves {lines : List Delivery} (h : s.Stands last (lines ++ rest) block)
    (hl : Leaves block lines next) (draft : Draft) :
    ∃ s' : Session, s.readFrom draft = s'.readFrom (draft.takeAll lines) ∧
      s'.Stands (lines.getLast?.or last) rest next := by
  induction hl generalizing s last draft with
  | nil => exact ⟨s, rfl, h⟩
  | @cons block line tokens next lines final hf _ ih =>
    obtain ⟨s₁, he, h₁⟩ := h.readFrom_follows hf draft
    obtain ⟨s₂, he', h₂⟩ := ih h₁ (draft.take (line, tokens))
    refine ⟨s₂, he.trans he', ?_⟩
    have hlast : ((line, tokens) :: lines).getLast?.or last =
        lines.getLast?.or (some (line, tokens)) := by
      rw [List.getLast?_cons]
      cases lines.getLast? <;> rfl
    rw [hlast]
    exact h₂

theorem Stands.readDocument_of_grouped {doc : Document} (h : s.Stands last ahead none)
    (hg : Grouped ahead doc) : s.readDocument.1 = .ok doc := by
  rw [← List.append_nil ahead] at h
  obtain ⟨s', he, hs'⟩ := h.readFrom_leaves hg.leaves .blank
  obtain ⟨s'', hnext, -⟩ := hs'.next_nil
  have hdraft := hg.takeAll_eq .blank rfl
  rw [readDocument_eq, he, readFrom_of_endOfStream hnext (by rw [hdraft]), hdraft]
  simp only [Draft.document, Draft.blank, List.append_nil, List.reverse_reverse]

/-- A block that was opened among the lines ahead and is still open after them is refused. -/
theorem Stands.readDocument_of_open {type : String} (h : s.Stands last ahead block)
    (hl : Leaves block ahead (some type)) (hno : ¬ ∀ entry ∈ ahead, IsContent entry.2) :
    ∃ d, s.readDocument.1 = .error d ∧ d.fault = .unterminatedBlock type ∧
      d.site = ahead.getLast?.map Prod.fst := by
  rcases hl.content_or_gathered .blank with ⟨-, hall⟩ | hgathered
  · exact absurd hall hno
  · obtain ⟨device, hdevice, rfl⟩ := Option.map_eq_some_iff.mp hgathered
    rw [← List.append_nil ahead] at h
    obtain ⟨s', he, hs'⟩ := h.readFrom_leaves hl .blank
    obtain ⟨s'', hnext, hs''⟩ := hs'.next_nil
    rw [readDocument_eq, he, readFrom_of_open hnext hs''.running hdevice]
    refine ⟨_, rfl, s''.fail_fault _ _, ?_⟩
    rw [s''.fail_site, hs''.lastLine_eq]
    cases hlast : ahead.getLast? with
    | some entry => rfl
    | none =>
      rw [List.getLast?_eq_none_iff] at hlast
      subst hlast
      simp at hno

theorem Stands.readDocument_of_breach {before rest : List Delivery} {line : Line}
    {tokens : List String} {next : Option String} {fault : Fault}
    (h : s.Stands last (before ++ (line, tokens) :: rest) block) (hl : Leaves block before next)
    (hb : Breach next tokens fault) :
    ∃ d, s.readDocument.1 = .error d ∧ d.fault = fault ∧ d.site = some line := by
  obtain ⟨s', he, hs'⟩ := h.readFrom_leaves hl .blank
  rw [readDocument_eq, he]
  exact hs'.readFrom_breach hb _

theorem Stands.readDocument_of_rejected {fault : Fault} {site : Option Line}
    (h : s.Stands last ahead none) (hr : Rejected ahead fault site) :
    ∃ d, s.readDocument.1 = .error d ∧ d.fault = fault ∧ d.site = site := by
  cases hr with
  | breach hsplit _ _ hl hb =>
    rw [hsplit] at h
    exact h.readDocument_of_breach hl hb
  | unterminated hl =>
    refine h.readDocument_of_open hl ?_
    intro hall
    cases hl.unique (.of_content none hall)

end Run

end Session

/-- The line can be cut into tokens, and if it is an include line it has one argument. -/
def Line.Checked (line : Line) : Prop :=
  ∃ tokens, tokenize line.text = .ok tokens ∧
    (tokens.head? = some includeWord → ∃ path, tokens = [includeWord, path])

theorem Spliced.checked {disk : Disk} {limit : Nat} {file : String} {above : List String}
    {number : Nat} {rest : List (List UInt8)} {lines : List Line}
    (h : Spliced disk limit file above number rest lines) : ∀ line ∈ lines, line.Checked := by
  induction h with
  | done =>
    intro line hl
    cases hl
  | plain ht hword _ ih =>
    intro line hl
    rcases List.mem_cons.mp hl with rfl | hl
    · exact ⟨_, ht, fun hinclude => absurd hinclude hword⟩
    · exact ih line hl
  | @included _ _ _ _ path _ _ _ _ ht _ _ _ ihInner ihRest =>
    intro line hl
    rcases List.mem_cons.mp hl with rfl | hl
    · exact ⟨_, ht, fun _ => ⟨path, rfl⟩⟩
    · rcases List.mem_append.mp hl with hl | hl
      · exact ihInner line hl
      · exact ihRest line hl

theorem Session.checked_of_load {s : Session} {disk : Disk} {root : String}
    (h : (s.load disk root).1 = .ok ()) : ∀ line ∈ (s.load disk root).2.lines, line.Checked := by
  have hdone := (s.load_eq_ok_iff disk root).mp h
  obtain ⟨data, -, hspliced⟩ := expands_of_expand hdone
  rw [s.load_lines]
  exact hspliced.checked

theorem Session.stands_of_load {s : Session} {disk : Disk} {root : String}
    (h : (s.load disk root).1 = .ok ()) :
    (s.load disk root).2.Stands none
      (deliveries s.settings.showIncludes (s.load disk root).2.lines) none := by
  have hchecked := checked_of_load h
  rw [s.load_of_complete disk root ((s.load_eq_ok_iff disk root).mp h)] at hchecked ⊢
  refine ⟨rfl, ?_, rfl, rfl, rfl⟩
  intro line hl
  obtain ⟨tokens, ht, -⟩ := hchecked line hl
  exact ⟨tokens, ht⟩

/-- A description that has been loaded is collected just if the lines it delivers are in the
grammar, and makes the document they make. Otherwise the answer is what is wrong with them. -/
theorem readDocument_iff_grouped (s : Session) (disk : Disk) (root : String)
    (h : (s.load disk root).1 = .ok ()) :
    (∀ doc, (s.load disk root).2.readDocument.1 = .ok doc ↔
      Grouped (deliveries s.settings.showIncludes (s.load disk root).2.lines) doc) ∧
    ∀ fault site,
      (∃ d, (s.load disk root).2.readDocument.1 = .error d ∧ d.fault = fault ∧ d.site = site) ↔
        Rejected (deliveries s.settings.showIncludes (s.load disk root).2.lines) fault site := by
  have hstands := Session.stands_of_load h
  generalize (s.load disk root).2 = loaded at hstands ⊢
  generalize deliveries s.settings.showIncludes loaded.lines = visible at hstands ⊢
  refine ⟨?_, ?_⟩
  · intro doc
    refine ⟨?_, fun hg => hstands.readDocument_of_grouped hg⟩
    intro hread
    rcases grouped_or_rejected visible with ⟨doc', hg⟩ | ⟨fault, site, hr⟩
    · rw [hstands.readDocument_of_grouped hg] at hread
      obtain rfl := Except.ok.inj hread
      exact hg
    · obtain ⟨d, hd, -⟩ := hstands.readDocument_of_rejected hr
      rw [hd] at hread
      cases hread
  · intro fault site
    refine ⟨?_, fun hr => hstands.readDocument_of_rejected hr⟩
    rintro ⟨d, hd, rfl, rfl⟩
    rcases grouped_or_rejected visible with ⟨doc, hg⟩ | ⟨fault, site, hr⟩
    · rw [hstands.readDocument_of_grouped hg] at hd
      cases hd
    · obtain ⟨d', hd', rfl, rfl⟩ := hstands.readDocument_of_rejected hr
      rw [hd'] at hd
      obtain rfl := Except.error.inj hd
      exact hr

/-- A motor whose gains stand in a file of their own, and one that is closed as an arm. -/
def motors : Disk :=
  .ofTexts [("knee.dd", "bus can0\n\nbegin motor left\n  include gains.dd\nend motor\n"),
    ("gains.dd", "kp 40.0\nkd 2.5"), ("broken.dd", "bus can0\nbegin motor\nend arm\n")]

def unmatchedArm : Diagnostic :=
  ⟨.unmatchedEnd (some "motor") "arm", some ⟨"broken.dd", 3, "end arm"⟩,
    "'end arm' does not match open block 'motor'"⟩

theorem readDocument_motors :
    Grouped (deliveries false ((Session.new { showIncludes := false }).load motors "knee.dd").2.lines)
        ⟨[["bus", "can0"]], [⟨"motor", "knee.dd", 3, [["kp", "40.0"], ["kd", "2.5"]]⟩]⟩ ∧
      Rejected (deliveries true ((Session.new {}).load motors "broken.dd").2.lines)
        (.unmatchedEnd (some "motor") "arm") (some ⟨"broken.dd", 3, "end arm"⟩) := by
  obtain ⟨hgrouped, -⟩ := readDocument_iff_grouped (.new { showIncludes := false }) motors "knee.dd"
    (by decide +kernel)
  obtain ⟨-, hrejected⟩ := readDocument_iff_grouped (.new {}) motors "broken.dd" (by decide +kernel)
  refine ⟨(hgrouped _).mp (by decide +kernel), (hrejected _ _).mp ?_⟩
  refine ⟨⟨.unmatchedEnd (some "motor") "arm", some ⟨"broken.dd", 3, "end arm"⟩,
    "'end arm' does not match open block 'motor'"⟩, ?_, rfl, rfl⟩
  decide +kernel

end DeviceDescription
