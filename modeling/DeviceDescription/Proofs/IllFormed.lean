import DeviceDescription.Proofs.Utf8

/-!
# Ill-formed parts

Bytes that begin with no character begin with an ill-formed part: as many of them as begin the
encoding of some character, or a single one if none does. So bytes are cut into characters and
ill-formed parts in just one way. Both decoders follow that cut. The lossy one shows every character
and puts U+FFFD for every part, and the strict one names the place of the first part, up to which
the bytes are a text, and no longer beginning of them is one.
-/

namespace DeviceDescription.Utf8

/-- The bytes begin the encoding of a character. -/
def BeginsChar (bytes : List UInt8) : Prop := ∃ c, bytes <+: String.utf8EncodeChar c

/-- No character is encoded at the start of the bytes `part ++ rest`, and `part` is the longest of
their beginnings that begins the encoding of a character, or a single byte. -/
structure IllFormedPart (part rest : List UInt8) : Prop where
  unreadable : ∀ c, ¬ String.utf8EncodeChar c <+: part ++ rest
  ne_nil : part ≠ []
  single_or_begins : part.length = 1 ∨ BeginsChar part
  longest : ∀ longer, longer <+: part ++ rest → BeginsChar longer → longer.length ≤ part.length

/-- The part could have become a character if it had not come to the end of the bytes. -/
def IsCutOff (part rest : List UInt8) : Prop := rest = [] ∧ BeginsChar part

/-- What is shown for bytes: the characters that they encode, and U+FFFD for each ill-formed
part. -/
inductive Shows : List UInt8 → List Char → Prop
  | nil : Shows [] []
  | char (c : Char) {rest shown} : Shows rest shown →
      Shows (String.utf8EncodeChar c ++ rest) (c :: shown)
  | part {part rest shown} : IllFormedPart part rest → Shows rest shown →
      Shows (part ++ rest) ('\ufffd' :: shown)

/-- The bytes are those of a text, an ill-formed part and a rest, and the flaw is the place of the
part, with its length unless it is cut off. -/
structure Breaks (bytes : List UInt8) (text : String) (part rest : List UInt8) (flaw : Flaw) :
    Prop where
  parts : bytes = encode text ++ (part ++ rest)
  illFormed : IllFormedPart part rest
  index_eq : flaw.index = (encode text).length
  width_eq : (flaw.width = none ∧ IsCutOff part rest) ∨
    (flaw.width = some part.length ∧ ¬ IsCutOff part rest)

/-! ### Characters -/

theorem pieces_encodeChar (c : Char) : pieces (String.utf8EncodeChar c) = [.char c] := by
  have happend := pieces_encodeChar_append c []
  rwa [List.append_nil] at happend

theorem not_encodeChar_prefix {bytes : List UInt8} {piece : Piece} {ps : List Piece}
    (h : pieces bytes = piece :: ps) (hpiece : ∀ c, piece ≠ .char c) (c : Char) :
    ¬ String.utf8EncodeChar c <+: bytes := by
  rintro ⟨rest, rfl⟩
  rw [pieces_encodeChar_append] at h
  exact hpiece c (List.cons.inj h).1.symm

theorem beginsChar_of_pieces {bytes more : List UInt8} {c : Char}
    (h : pieces (bytes ++ more) = [.char c]) : BeginsChar bytes := by
  have hall : bytes ++ more = [c].flatMap String.utf8EncodeChar := eq_flatMap_of_pieces h
  rw [List.flatMap_singleton] at hall
  exact ⟨c, hall ▸ List.prefix_append bytes more⟩

/-- Bytes that are never read as the start of a character are longer than any beginning that they
share with one. -/
theorem length_lt_of_ruled_out {seen bytes longer : List UInt8} {piece : Piece}
    (hseen : ∀ more, ∃ ps, pieces (seen ++ more) = piece :: ps) (hpiece : ∀ c, piece ≠ .char c)
    (hbytes : seen <+: bytes) (hlonger : longer <+: bytes) (hbegins : BeginsChar longer) :
    longer.length < seen.length := by
  by_contra hle
  obtain ⟨c, hc⟩ := hbegins
  obtain ⟨more, hmore⟩ :=
    (List.prefix_of_prefix_length_le hbytes hlonger (Nat.le_of_not_lt hle)).trans hc
  obtain ⟨ps, hps⟩ := hseen more
  rw [hmore, pieces_encodeChar] at hps
  exact hpiece c (List.cons.inj hps).1.symm

/-! ### Unfinished characters -/

/-- Reading the bytes of the unfinished character leads to it, and it can be continued. -/
structure Partial.Awaits (p : Partial) : Prop where
  taken_ne_nil : p.taken ≠ []
  low_le_high : p.low ≤ p.high
  resumes : ∀ more, pieces (p.taken ++ more) = piecesFrom (some p) more

/-- What is found at the front of bytes that begin with an ill-formed part. -/
def FindsPart (part rest : List UInt8) : Prop :=
  (pieces (part ++ rest) = .truncated part :: pieces rest ∧ IsCutOff part rest) ∨
    (pieces (part ++ rest) = .illFormed part :: pieces rest ∧ ¬ IsCutOff part rest)

/-- The bytes begin with a character, or with an ill-formed part that is found there. -/
inductive Fronts : List UInt8 → Prop
  | char (c : Char) (rest : List UInt8) : Fronts (String.utf8EncodeChar c ++ rest)
  | part {part rest : List UInt8} : IllFormedPart part rest → FindsPart part rest →
      Fronts (part ++ rest)

theorem start_some {b : UInt8} {p : Partial} (h : start b = ([], some p)) :
    p.taken = [b] ∧ p.low ≤ p.high := by
  unfold start at h
  split_ifs at h
  -- The first and the last branch start nothing; the others have their bounds written out.
  all_goals simp only [Prod.mk.injEq, Option.some.injEq, reduceCtorEq, and_false, true_and] at h
  all_goals
    subst h
    refine ⟨rfl, ?_⟩
    dsimp only
    decide

theorem step_low {p : Partial} (h : p.low ≤ p.high) : step (some p) p.low = p.extend p.low :=
  if_pos ⟨UInt8.le_refl p.low, h⟩

theorem Partial.extend_last {p : Partial} (h : p.owed ≤ 1) (b : UInt8) :
    p.extend b = ([.char (Char.ofNat (p.bits * 0x40 + b.toNat % 0x40))], none) :=
  if_pos h

theorem Partial.extend_more {p : Partial} (h : ¬ p.owed ≤ 1) (b : UInt8) :
    p.extend b = ([], some ⟨p.taken ++ [b], p.owed - 1, 0x80, 0xbf,
      p.bits * 0x40 + b.toNat % 0x40⟩) :=
  if_neg h

theorem exists_completion {p : Partial} (h : p.low ≤ p.high) :
    ∃ more c, piecesFrom (some p) more = [.char c] := by
  induction hn : p.owed - 1 generalizing p with
  | zero =>
    refine ⟨[p.low], Char.ofNat (p.bits * 0x40 + p.low.toNat % 0x40), ?_⟩
    rw [piecesFrom, step_low h, Partial.extend_last (by omega)]
    rfl
  | succ n ih =>
    let q : Partial := ⟨p.taken ++ [p.low], p.owed - 1, 0x80, 0xbf,
      p.bits * 0x40 + p.low.toNat % 0x40⟩
    have hlow : q.low ≤ q.high := by
      dsimp only [q]
      decide
    have hn' : q.owed - 1 = n := by
      dsimp only [q]
      omega
    obtain ⟨more, c, hc⟩ := ih hlow hn'
    refine ⟨p.low :: more, c, ?_⟩
    rw [piecesFrom, step_low h, Partial.extend_more (by omega)]
    exact hc

namespace Partial.Awaits

variable {p q : Partial} {b : UInt8}

theorem of_start (h : start b = ([], some p)) : p.Awaits where
  taken_ne_nil := by
    rw [(start_some h).1]
    exact List.cons_ne_nil b []
  low_le_high := (start_some h).2
  resumes more := by
    rw [(start_some h).1, List.singleton_append, pieces, piecesFrom, step, h]
    rfl

theorem extend (h : p.Awaits) (hb : p.low ≤ b ∧ b ≤ p.high) (he : ¬ p.owed ≤ 1) :
    Awaits ⟨p.taken ++ [b], p.owed - 1, 0x80, 0xbf, p.bits * 0x40 + b.toNat % 0x40⟩ where
  taken_ne_nil := List.append_ne_nil_of_left_ne_nil h.taken_ne_nil [b]
  low_le_high := by
    dsimp only
    decide
  resumes more := by
    dsimp only
    rw [List.append_assoc, h.resumes, List.singleton_append, piecesFrom, step, if_pos hb,
      extend_more he]
    rfl

theorem begins (h : p.Awaits) : BeginsChar p.taken := by
  obtain ⟨more, c, hc⟩ := exists_completion h.low_le_high
  rw [← h.resumes] at hc
  exact beginsChar_of_pieces hc

/-- At the end of the bytes the unfinished character is cut off. -/
theorem fronts_end (h : p.Awaits) : Fronts p.taken := by
  have hpieces : pieces p.taken = [.truncated p.taken] := by
    have hall := h.resumes []
    rwa [List.append_nil] at hall
  have hpart : IllFormedPart p.taken [] := by
    refine ⟨?_, h.taken_ne_nil, .inr h.begins, ?_⟩
    · rw [List.append_nil]
      exact not_encodeChar_prefix hpieces fun c => Piece.noConfusion
    · intro longer hlonger _
      rw [List.append_nil] at hlonger
      exact hlonger.length_le
  have hfronts := Fronts.part hpart (.inl ⟨by rw [List.append_nil, hpieces]; rfl, rfl, h.begins⟩)
  rwa [List.append_nil] at hfronts

/-- A byte that cannot follow ends the part before it. -/
theorem fronts_ruledOut (h : p.Awaits) (hb : ¬ (p.low ≤ b ∧ b ≤ p.high)) (rest : List UInt8) :
    Fronts (p.taken ++ b :: rest) := by
  have hpieces (more : List UInt8) :
      pieces (p.taken ++ b :: more) = .illFormed p.taken :: pieces (b :: more) := by
    rw [h.resumes, piecesFrom, step, if_neg hb]
    rfl
  refine .part ⟨?_, h.taken_ne_nil, .inr h.begins, ?_⟩ (.inr ⟨hpieces rest, ?_⟩)
  · exact not_encodeChar_prefix (hpieces rest) fun c => Piece.noConfusion
  · intro longer hlonger hbegins
    have hseen (more : List UInt8) :
        ∃ ps, pieces (p.taken ++ [b] ++ more) = .illFormed p.taken :: ps := by
      rw [List.append_assoc]
      exact ⟨_, hpieces more⟩
    have hlt := length_lt_of_ruled_out hseen (fun c => Piece.noConfusion)
      ⟨rest, by rw [List.append_assoc]; rfl⟩ hlonger hbegins
    rw [List.length_append, List.length_singleton] at hlt
    omega
  · rintro ⟨hnil, -⟩
    cases hnil

theorem fronts (h : p.Awaits) (bytes : List UInt8) : Fronts (p.taken ++ bytes) := by
  induction bytes generalizing p with
  | nil =>
    rw [List.append_nil]
    exact h.fronts_end
  | cons b bytes ih =>
    by_cases hb : p.low ≤ b ∧ b ≤ p.high
    · by_cases howed : p.owed ≤ 1
      · have hpieces := h.resumes (b :: bytes)
        rw [piecesFrom, step, if_pos hb, extend_last howed] at hpieces
        obtain ⟨c, rest, hc⟩ := exists_eq_encodeChar_append hpieces
        rw [hc]
        exact .char c rest
      · have hnext := ih (h.extend hb howed)
        rwa [List.append_assoc] at hnext
    · exact h.fronts_ruledOut hb bytes

end Partial.Awaits

/-- Every byte begins a character or an ill-formed part. -/
theorem fronts_cons (b : UInt8) (bytes : List UInt8) : Fronts (b :: bytes) := by
  rcases start_cases b with ⟨hb, hs⟩ | ⟨p, hs, -⟩ | hs
  · have hpieces : pieces (b :: bytes) = .char (Char.ofNat b.toNat) :: pieces bytes := by
      rw [pieces, piecesFrom, step, hs]
      rfl
    obtain ⟨c, rest, hc⟩ := exists_eq_encodeChar_append hpieces
    rw [hc]
    exact .char c rest
  · have hfronts := (Partial.Awaits.of_start hs).fronts bytes
    rwa [(start_some hs).1] at hfronts
  · have hpieces (more : List UInt8) : pieces ([b] ++ more) = .illFormed [b] :: pieces more := by
      rw [List.singleton_append, pieces, piecesFrom, step, hs]
      rfl
    have hshort {longer : List UInt8} (hlonger : longer <+: [b] ++ bytes)
        (hbegins : BeginsChar longer) : longer.length < 1 :=
      length_lt_of_ruled_out (fun more => ⟨_, hpieces more⟩) (fun c => Piece.noConfusion)
        (List.prefix_append [b] bytes) hlonger hbegins
    have hpart : IllFormedPart [b] bytes := by
      refine ⟨?_, List.cons_ne_nil b [], .inl rfl, ?_⟩
      · exact not_encodeChar_prefix (hpieces bytes) fun c => Piece.noConfusion
      · intro longer hlonger hbegins
        exact (hshort hlonger hbegins).le
    refine .part hpart (.inr ⟨hpieces bytes, ?_⟩)
    rintro ⟨-, hbegins⟩
    exact absurd (hshort (List.prefix_append [b] bytes) hbegins) (Nat.lt_irrefl 1)

/-! ### The cut -/

section Cut

variable {bytes part rest part' rest' : List UInt8}

theorem IllFormedPart.length_le (h : IllFormedPart part rest) (h' : IllFormedPart part' rest')
    (heq : part ++ rest = part' ++ rest') : part'.length ≤ part.length := by
  rcases h'.single_or_begins with hone | hbegins
  · rw [hone]
    exact List.length_pos_iff.mpr h.ne_nil
  · exact h.longest part' ⟨rest', heq.symm⟩ hbegins

theorem IllFormedPart.unique (h : IllFormedPart part rest) (h' : IllFormedPart part' rest')
    (heq : part ++ rest = part' ++ rest') : part = part' ∧ rest = rest' :=
  List.append_inj heq (Nat.le_antisymm (h'.length_le h heq.symm) (h.length_le h' heq))

theorem IllFormedPart.findsPart (h : IllFormedPart part rest) : FindsPart part rest := by
  obtain ⟨b, more, hcons⟩ : ∃ b more, part ++ rest = b :: more :=
    List.exists_cons_of_ne_nil (List.append_ne_nil_of_left_ne_nil h.ne_nil rest)
  have hfronts := fronts_cons b more
  rw [← hcons] at hfronts
  generalize heq : part ++ rest = bytes at hfronts
  cases hfronts with
  | char c more => exact absurd ⟨more, heq.symm⟩ (h.unreadable c)
  | part h' hfinds =>
    obtain ⟨rfl, rfl⟩ := h.unique h' heq
    exact hfinds

theorem IllFormedPart.exists_piece (h : IllFormedPart part rest) :
    ∃ piece, pieces (part ++ rest) = piece :: pieces rest ∧ (∀ c, piece ≠ .char c) ∧
      piece.shown = '\ufffd' := by
  rcases h.findsPart with ⟨hpieces, -⟩ | ⟨hpieces, -⟩
  · exact ⟨_, hpieces, fun c => Piece.noConfusion, rfl⟩
  · exact ⟨_, hpieces, fun c => Piece.noConfusion, rfl⟩

/-- Induction along the cut: over the characters and the ill-formed parts. -/
theorem cut_induction {motive : List UInt8 → Prop} (nil : motive [])
    (char : ∀ c rest, motive rest → motive (String.utf8EncodeChar c ++ rest))
    (part : ∀ part rest, IllFormedPart part rest → motive rest → motive (part ++ rest))
    (bytes : List UInt8) : motive bytes := by
  induction hn : bytes.length using Nat.strong_induction_on generalizing bytes with
  | _ n ih =>
    cases bytes with
    | nil => exact nil
    | cons b bytes =>
      have hfronts := fronts_cons b bytes
      have hshorter {front rest : List UInt8} (hne : front ≠ [])
          (heq : front ++ rest = b :: bytes) : rest.length < n := by
        have hpos := List.length_pos_iff.mpr hne
        rw [← hn, ← heq, List.length_append]
        omega
      generalize heq : b :: bytes = all at hfronts
      cases hfronts with
      | char c rest =>
        exact char c rest (ih _ (hshorter String.utf8EncodeChar_ne_nil heq.symm) rest rfl)
      | part h _ => exact part _ _ h (ih _ (hshorter h.ne_nil heq.symm) _ rfl)

end Cut

/-! ### Lossy decoding -/

theorem shows_pieces (bytes : List UInt8) : Shows bytes ((pieces bytes).map Piece.shown) := by
  induction bytes using cut_induction with
  | nil => exact .nil
  | char c rest ih =>
    rw [pieces_encodeChar_append, List.map_cons]
    exact .char c ih
  | part part rest h ih =>
    obtain ⟨piece, hpieces, -, hshown⟩ := h.exists_piece
    rw [hpieces, List.map_cons, hshown]
    exact .part h ih

theorem Shows.map_shown {bytes : List UInt8} {shown : List Char} (h : Shows bytes shown) :
    (pieces bytes).map Piece.shown = shown := by
  induction h with
  | nil => rfl
  | char c _ ih => rw [pieces_encodeChar_append, List.map_cons, ih, Piece.shown]
  | part h _ ih =>
    obtain ⟨piece, hpieces, -, hshown⟩ := h.exists_piece
    rw [hpieces, List.map_cons, hshown, ih]

theorem decodeLossy_eq_iff {bytes : List UInt8} {text : String} :
    decodeLossy bytes = text ↔ Shows bytes text.toList := by
  constructor
  · rintro rfl
    rw [decodeLossy, String.toList_ofList]
    exact shows_pieces bytes
  · intro h
    rw [decodeLossy, h.map_shown, String.ofList_toList]

/-! ### Strict decoding -/

theorem charsFrom_of_error {index : Nat} {cs : List Char} {ps : List Piece} {flaw : Flaw}
    (h : charsFrom (index + (cs.flatMap String.utf8EncodeChar).length) ps = .error flaw) :
    charsFrom index (cs.map .char ++ ps) = .error flaw := by
  induction cs generalizing index with
  | nil => exact h
  | cons c cs ih =>
    rw [List.flatMap_cons, List.length_append, String.length_utf8EncodeChar,
      ← Nat.add_assoc] at h
    rw [List.map_cons, List.cons_append, charsFrom, ih h, Except.map]

section Breaks

variable {bytes part rest : List UInt8} {text : String} {flaw : Flaw}

theorem Breaks.exists_pieces (h : Breaks bytes text part rest flaw) :
    ∃ piece, pieces bytes = text.toList.map .char ++ piece :: pieces rest ∧
      (∀ c, piece ≠ .char c) ∧ piece.shown = '\ufffd' := by
  obtain ⟨piece, hpieces, hchar, hshown⟩ := h.illFormed.exists_piece
  exact ⟨piece, by rw [h.parts, pieces_encode_append, hpieces], hchar, hshown⟩

theorem Breaks.decode_eq (h : Breaks bytes text part rest flaw) : decode bytes = .error flaw := by
  have hchars : charsFrom 0 (pieces bytes) = .error flaw := by
    rw [h.parts, pieces_encode_append]
    apply charsFrom_of_error
    have hindex : 0 + (text.toList.flatMap String.utf8EncodeChar).length = flaw.index := by
      rw [Nat.zero_add, h.index_eq, encode]
    obtain ⟨index, width⟩ := flaw
    rw [hindex]
    rcases h.illFormed.findsPart with ⟨hpieces, hcut⟩ | ⟨hpieces, hcut⟩
    · rcases h.width_eq with ⟨hwidth, -⟩ | ⟨-, hnot⟩
      · rw [hpieces, charsFrom, ← hwidth]
      · exact absurd hcut hnot
    · rcases h.width_eq with ⟨-, hcut'⟩ | ⟨hwidth, -⟩
      · exact absurd hcut' hcut
      · rw [hpieces, charsFrom, ← hwidth]
  rw [decode, hchars, Except.map]

theorem exists_breaks (h : bytes = encode text ++ (part ++ rest))
    (hpart : IllFormedPart part rest) : ∃ flaw, Breaks bytes text part rest flaw := by
  by_cases hcut : IsCutOff part rest
  · exact ⟨⟨(encode text).length, none⟩, h, hpart, rfl, .inl ⟨rfl, hcut⟩⟩
  · exact ⟨⟨(encode text).length, some part.length⟩, h, hpart, rfl, .inr ⟨rfl, hcut⟩⟩

theorem encode_ofList_cons (c : Char) (text : String) :
    encode (String.ofList (c :: text.toList)) = String.utf8EncodeChar c ++ encode text := by
  rw [encode, String.toList_ofList, List.flatMap_cons, encode]

/-- Bytes are a text or break off after one. -/
theorem encode_or_breaks (bytes : List UInt8) :
    (∃ text, bytes = encode text) ∨ ∃ text part rest flaw, Breaks bytes text part rest flaw := by
  induction bytes using cut_induction with
  | nil => exact .inl ⟨"", rfl⟩
  | char c rest ih =>
    rcases ih with ⟨text, rfl⟩ | ⟨text, part, rest, flaw, h⟩
    · exact .inl ⟨_, (encode_ofList_cons c text).symm⟩
    · refine .inr ⟨.ofList (c :: text.toList), part, rest, exists_breaks ?_ h.illFormed⟩
      rw [h.parts, encode_ofList_cons, List.append_assoc]
  | part part rest h _ => exact .inr ⟨"", part, rest, exists_breaks rfl h⟩

theorem decode_eq_error_iff :
    decode bytes = .error flaw ↔ ∃ text part rest, Breaks bytes text part rest flaw := by
  constructor
  · intro h
    rcases encode_or_breaks bytes with ⟨text, rfl⟩ | ⟨text, part, rest, flaw', hbreaks⟩
    · rw [decode_encode] at h
      cases h
    · obtain rfl : flaw' = flaw := Except.error.inj (hbreaks.decode_eq.symm.trans h)
      exact ⟨text, part, rest, hbreaks⟩
  · rintro ⟨text, part, rest, h⟩
    exact h.decode_eq

/-- No longer beginning of the bytes is a text. -/
theorem Breaks.length_encode_le (h : Breaks bytes text part rest flaw) {longer : String}
    (hlonger : encode longer <+: bytes) : (encode longer).length ≤ flaw.index := by
  obtain ⟨more, hmore⟩ := hlonger
  obtain ⟨piece, hpieces, hchar, -⟩ := h.exists_pieces
  rw [← hmore, pieces_encode_append] at hpieces
  have hinj : Function.Injective Piece.char := fun _ _ => Piece.char.inj
  have hbegun : longer.toList <+: text.toList := by
    rcases List.append_eq_append_iff.mp hpieces with ⟨past, htext, -⟩ | ⟨past, hlong, hpast⟩
    · exact (List.prefix_map_iff_of_injective hinj).mp ⟨past, htext.symm⟩
    · cases past with
      | nil =>
        rw [List.append_nil] at hlong
        exact (List.prefix_map_iff_of_injective hinj).mp (hlong ▸ List.prefix_rfl)
      | cons first past =>
        -- The first piece after the text is no character, so it is none of the longer text.
        have hmem : piece ∈ longer.toList.map Piece.char := by
          rw [hlong, (List.cons.inj hpast).1]
          simp
        obtain ⟨c, -, hc⟩ := List.mem_map.mp hmem
        exact absurd hc.symm (hchar c)
  rw [h.index_eq, encode, encode]
  obtain ⟨past, hpast⟩ := hbegun
  rw [← hpast, List.flatMap_append, List.length_append]
  exact Nat.le_add_right _ _

theorem Breaks.shown_prefix (h : Breaks bytes text part rest flaw) :
    text.toList ++ ['\ufffd'] <+: (decodeLossy bytes).toList := by
  obtain ⟨piece, hpieces, -, hshown⟩ := h.exists_pieces
  have hchars : (text.toList.map Piece.char).map Piece.shown = text.toList := by
    rw [List.map_map]
    exact List.map_id _
  refine ⟨(pieces rest).map Piece.shown, ?_⟩
  rw [decodeLossy, String.toList_ofList, hpieces, List.map_append, hchars, List.map_cons, hshown,
    List.append_assoc, List.singleton_append]

end Breaks

end DeviceDescription.Utf8
