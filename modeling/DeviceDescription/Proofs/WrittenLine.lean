import DeviceDescription.Proofs.Layout
import DeviceDescription.Token.Written

/-!
# Reading written tokens back

The written line of tokens is laid out as these tokens, if none of them holds a quote, and it has no
comment, if none holds a `#`. A line bears no tokens that hold one or the other. So just the lists
of tokens that a line can bear at all are read back from the line they are written as.
-/

namespace DeviceDescription

/-- The token holds no character that a line keeps for itself. -/
def Writable (token : String) : Prop := '#' ∉ token.toList ∧ '"' ∉ token.toList

/-! ### Tokens that a line bears -/

theorem Denotes.mem {written : List Char} {token : String} (h : Denotes written token) {c : Char}
    (hc : c ∈ token.toList) : c ∈ written ∧ c ≠ '"' := by
  cases h with
  | word _ hall =>
    rw [String.toList_ofList] at hc
    exact ⟨hc, (hall c hc).2⟩
  | quoted hall =>
    rw [String.toList_ofList] at hc
    refine ⟨List.mem_cons_of_mem _ (List.mem_append_left _ hc), ?_⟩
    rintro rfl
    exact hall hc

theorem LaidOut.mem {code : List Char} {tokens : List String} (h : LaidOut code tokens)
    {token : String} (ht : token ∈ tokens) {c : Char} (hc : c ∈ token.toList) :
    c ∈ code ∧ c ≠ '"' := by
  obtain ⟨lead, cells, -, -, rfl, rfl⟩ := h
  obtain ⟨cell, hcell, rfl⟩ := List.mem_map.mp ht
  obtain ⟨hwritten, hquote⟩ := cell.denotes.mem hc
  refine ⟨?_, hquote⟩
  apply List.mem_append_right
  exact List.mem_flatMap.mpr ⟨cell, hcell, List.mem_append_left _ hwritten⟩

theorem Bears.mem {line : String} {tokens : List String} (h : Bears line tokens) {token : String}
    (ht : token ∈ tokens) {c : Char} (hc : c ∈ token.toList) : c ∈ line.toList := by
  obtain ⟨code, comment, hline, -, -, hlaid⟩ := h
  rw [hline]
  exact List.mem_append_left _ (hlaid.mem ht hc).1

theorem Bears.writable {line : String} {tokens : List String} (h : Bears line tokens) :
    ∀ token ∈ tokens, Writable token := by
  obtain ⟨code, comment, -, hcode, -, hlaid⟩ := h
  intro token ht
  exact ⟨fun hc => hcode (hlaid.mem ht hc).1, fun hc => (hlaid.mem ht hc).2 rfl⟩

/-! ### The layout of a written line -/

theorem needsQuotes_eq_false_iff {token : String} :
    needsQuotes token = false ↔
      token.toList ≠ [] ∧ ∀ c ∈ token.toList, isBlank c = false ∧ c ≠ '#' := by
  simp [needsQuotes]

theorem toList_quoted (token : String) :
    ("\"" ++ token ++ "\"").toList = '"' :: (token.toList ++ ['"']) := by
  rw [String.toList_append, String.toList_append]
  rfl

theorem denotes_writtenToken {token : String} (h : Writable token) :
    Denotes (writtenToken token).toList token := by
  rw [writtenToken]
  cases hn : needsQuotes token with
  | true =>
    have hquoted := Denotes.quoted h.2
    rw [String.ofList_toList] at hquoted
    rw [if_pos rfl, toList_quoted]
    exact hquoted
  | false =>
    obtain ⟨hne, hall⟩ := needsQuotes_eq_false_iff.mp hn
    have hplain : AllPlain token.toList := by
      intro c hc
      refine ⟨(hall c hc).1, ?_⟩
      rintro rfl
      exact h.2 hc
    have hword := Denotes.word hne hplain
    rw [String.ofList_toList] at hword
    exact hword

theorem writtenLine_cons_cons (token next : String) (tokens : List String) :
    (writtenLine (token :: next :: tokens)).toList =
      (writtenToken token).toList ++ ([' '] ++ (writtenLine (next :: tokens)).toList) := by
  rw [writtenLine, List.map_cons, List.map_cons, String.intercalate_cons_cons, String.toList_append,
    String.toList_append, List.append_assoc]
  rfl

theorem writtenLine_singleton (token : String) : writtenLine [token] = writtenToken token :=
  String.intercalate_singleton

theorem LaidOut.cons {written gap code : List Char} {token : String} {tokens : List String}
    (h : LaidOut code tokens) (ht : Denotes written token) (hgap : AllBlank gap) (hne : gap ≠ []) :
    LaidOut (written ++ (gap ++ code)) (token :: tokens) := by
  obtain ⟨lead, cells, hlead, hgaps, rfl, rfl⟩ := h
  refine ⟨[], ⟨written, token, gap ++ lead, ht, hgap.append hlead⟩ :: cells, by simp [AllBlank],
    ?_, ?_, rfl⟩
  · intro cell hc
    cases cells with
    | nil => cases hc
    | cons next cells =>
      rcases List.mem_cons.mp hc with rfl | hc
      · exact List.append_ne_nil_of_left_ne_nil hne _
      · exact hgaps cell hc
  · simp [Cell.text, List.append_assoc]

theorem laidOut_writtenLine {tokens : List String} (h : ∀ token ∈ tokens, Writable token) :
    LaidOut (writtenLine tokens).toList tokens := by
  induction tokens with
  | nil => exact Parted.nil.laidOut
  | cons token tokens ih =>
    obtain ⟨htoken, htokens⟩ := List.forall_mem_cons.mp h
    have hwritten := denotes_writtenToken htoken
    cases tokens with
    | nil =>
      rw [writtenLine_singleton]
      exact Parted.nil.last hwritten
    | cons next tokens =>
      rw [writtenLine_cons_cons]
      exact (ih htokens).cons hwritten (allBlank_singleton rfl) (List.cons_ne_nil _ _)

theorem mem_writtenToken {token : String} {c : Char} (h : c ∈ (writtenToken token).toList) :
    c = '"' ∨ c ∈ token.toList := by
  rw [writtenToken] at h
  split at h
  · rw [toList_quoted, List.mem_cons, List.mem_append, List.mem_singleton] at h
    tauto
  · exact .inr h

theorem mem_writtenLine {tokens : List String} {c : Char} (h : c ∈ (writtenLine tokens).toList) :
    c = '"' ∨ c = ' ' ∨ ∃ token ∈ tokens, c ∈ token.toList := by
  have hfirst {token : String} {tokens : List String} (hc : c ∈ (writtenToken token).toList) :
      c = '"' ∨ c = ' ' ∨ ∃ t ∈ token :: tokens, c ∈ t.toList := by
    rcases mem_writtenToken hc with hq | hc
    · exact .inl hq
    · exact .inr (.inr ⟨token, List.mem_cons_self, hc⟩)
  induction tokens with
  | nil => cases h
  | cons token tokens ih =>
    cases tokens with
    | nil =>
      rw [writtenLine_singleton] at h
      exact hfirst h
    | cons next tokens =>
      rw [writtenLine_cons_cons, List.mem_append, List.mem_append, List.mem_singleton] at h
      rcases h with hc | hspace | hc
      · exact hfirst hc
      · exact .inr (.inl hspace)
      · rcases ih hc with hq | hspace | ⟨t, ht, hc⟩
        · exact .inl hq
        · exact .inr (.inl hspace)
        · exact .inr (.inr ⟨t, List.mem_cons_of_mem _ ht, hc⟩)

theorem hash_not_mem_writtenLine {tokens : List String} (h : ∀ token ∈ tokens, Writable token) :
    '#' ∉ (writtenLine tokens).toList := by
  intro hc
  rcases mem_writtenLine hc with hq | hspace | ⟨token, ht, hc⟩
  · exact absurd hq (by decide)
  · exact absurd hspace (by decide)
  · exact (h token ht).1 hc

theorem bears_writtenLine {tokens : List String} (h : ∀ token ∈ tokens, Writable token) :
    Bears (writtenLine tokens) tokens :=
  ⟨(writtenLine tokens).toList, [], (List.append_nil _).symm, hash_not_mem_writtenLine h, .inl rfl,
    laidOut_writtenLine h⟩

/-- Tokens are read back from the line they are written as exactly if none of them holds a `#` or a
quote; and so are all tokens that any line is cut into. -/
theorem tokenize_writtenLine_iff :
    (∀ tokens, tokenize (writtenLine tokens) = .ok tokens ↔
      ∀ token ∈ tokens, '#' ∉ token.toList ∧ '"' ∉ token.toList) ∧
    ∀ line tokens, tokenize line = .ok tokens →
      (∀ token ∈ tokens, '#' ∉ token.toList ∧ '"' ∉ token.toList) ∧
        tokenize (writtenLine tokens) = .ok tokens := by
  have hread (tokens : List String) :
      tokenize (writtenLine tokens) = .ok tokens ↔ ∀ token ∈ tokens, Writable token :=
    ⟨fun h => (tokenize_eq_ok_iff.mp h).writable,
      fun h => tokenize_eq_ok_iff.mpr (bears_writtenLine h)⟩
  refine ⟨hread, ?_⟩
  intro line tokens h
  have hwritable := (tokenize_eq_ok_iff.mp h).writable
  exact ⟨hwritable, (hread tokens).mpr hwritable⟩

theorem tokenize_writtenLine_label :
    tokenize "label\t\"left\u3000hip \"  \"\"# a" = .ok ["label", "left\u3000hip ", ""] ∧
      writtenLine ["label", "left\u3000hip ", ""] = "label \"left\u3000hip \" \"\"" ∧
      tokenize "label \"left\u3000hip \" \"\"" = .ok ["label", "left\u3000hip ", ""] ∧
      tokenize (writtenLine ["a\"b"]) ≠ .ok ["a\"b"] := by
  obtain ⟨hread, hback⟩ := tokenize_writtenLine_iff
  have hline : tokenize "label\t\"left\u3000hip \"  \"\"# a" =
      .ok ["label", "left\u3000hip ", ""] := by decide +kernel
  have hwritten : writtenLine ["label", "left\u3000hip ", ""] =
      "label \"left\u3000hip \" \"\"" := by decide +kernel
  obtain ⟨-, hagain⟩ := hback _ _ hline
  rw [hwritten] at hagain
  refine ⟨hline, hwritten, hagain, ?_⟩
  intro h
  have hwritable := (hread ["a\"b"]).mp h "a\"b" (List.mem_singleton_self _)
  exact absurd hwritable (by decide)

end DeviceDescription
