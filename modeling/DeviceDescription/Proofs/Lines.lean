import DeviceDescription.Line
import DeviceDescription.Proofs.Layout
import DeviceDescription.Proofs.Utf8

/-!
# Lines that are written out and cut again

Lines without a newline, written out with one after each, are cut into the same lines again. Only a
carriage return at the end of a line is lost, and that makes no difference to the tokens of the
line, as it is a blank.
-/

namespace DeviceDescription

/-! ### Cutting at newlines -/

section Bytes

variable {piece rest bytes : List UInt8}

theorem splitLines_of_ne_nil (h : bytes ≠ []) :
    splitLines bytes = bytes.takeWhile (· != newline) ::
      splitLines (bytes.drop ((bytes.takeWhile (· != newline)).length + 1)) := by
  cases bytes with
  | nil => exact absurd rfl h
  | cons b rest => rw [splitLines]

theorem takeWhile_ended (h : newline ∉ piece) (rest : List UInt8) :
    (piece ++ newline :: rest).takeWhile (· != newline) = piece := by
  have hall : ∀ b ∈ piece, (b != newline) = true := by
    rintro b hb
    rw [bne_iff_ne]
    rintro rfl
    exact h hb
  rw [List.takeWhile_append_of_pos hall, List.takeWhile_cons_of_neg (by simp), List.append_nil]

theorem splitLines_ended (h : newline ∉ piece) (rest : List UInt8) :
    splitLines (piece ++ newline :: rest) = piece :: splitLines rest := by
  have hdrop : (piece ++ newline :: rest).drop (piece.length + 1) = rest := by
    rw [List.drop_append, List.drop_of_length_le (Nat.le_succ _)]
    simp
  rw [splitLines_of_ne_nil (by simp), takeWhile_ended h, hdrop]

theorem splitLines_flatMap_ended {pieces : List (List UInt8)}
    (h : ∀ piece ∈ pieces, newline ∉ piece) :
    splitLines (pieces.flatMap fun piece => piece ++ [newline]) = pieces := by
  induction pieces with
  | nil => rw [List.flatMap_nil, splitLines]
  | cons piece pieces ih =>
    obtain ⟨hpiece, hpieces⟩ := List.forall_mem_cons.mp h
    rw [List.flatMap_cons, List.append_assoc, List.singleton_append, splitLines_ended hpiece,
      ih hpieces]

theorem newline_not_mem_of_splitLines (h : piece ∈ splitLines bytes) : newline ∉ piece := by
  induction bytes using splitLines.induct with
  | case1 =>
    rw [splitLines] at h
    cases h
  | case2 b rest line ih =>
    rw [splitLines] at h
    rcases List.mem_cons.mp h with rfl | hrest
    · intro hnewline
      simpa using List.mem_takeWhile_imp hnewline
    · exact ih hrest

theorem newline_not_mem_of_fileLines (h : piece ∈ fileLines bytes) : newline ∉ piece := by
  obtain ⟨line, hline, rfl⟩ := List.mem_map.mp h
  have hnot := newline_not_mem_of_splitLines hline
  unfold dropReturn
  split
  · exact fun hmem => hnot (List.dropLast_subset _ hmem)
  · exact hnot

theorem splitLines_of_not_mem (hne : bytes ≠ []) (h : newline ∉ bytes) :
    splitLines bytes = [bytes] := by
  have hall : bytes.takeWhile (· != newline) = bytes := by
    rw [List.takeWhile_eq_self_iff]
    rintro b hb
    rw [bne_iff_ne]
    rintro rfl
    exact h hb
  rw [splitLines_of_ne_nil hne, hall, List.drop_of_length_le (Nat.le_succ _), splitLines]

/-- A file that is not empty is a line without a newline, or a line, a newline and a further file. -/
theorem splitLines_cases (hne : bytes ≠ []) :
    (newline ∉ bytes ∧ splitLines bytes = [bytes]) ∨
      ∃ piece rest, newline ∉ piece ∧ bytes = piece ++ newline :: rest ∧
        splitLines bytes = piece :: splitLines rest := by
  by_cases h : newline ∈ bytes
  · obtain ⟨piece, rest, rfl, hpiece⟩ := List.eq_append_cons_of_mem h
    exact .inr ⟨piece, rest, hpiece, rfl, splitLines_ended hpiece rest⟩
  · exact .inl ⟨h, splitLines_of_not_mem hne h⟩

theorem dropReturn_concat (line : List UInt8) : dropReturn (line ++ [carriageReturn]) = line := by
  rw [dropReturn, if_pos List.getLast?_concat, List.dropLast_concat]

theorem eq_of_dropReturn {line kept : List UInt8} (h : dropReturn line = kept) :
    (line = kept ∧ kept.getLast? ≠ some carriageReturn) ∨ line = kept ++ [carriageReturn] := by
  unfold dropReturn at h
  split at h
  · next hlast =>
    right
    rw [← h, List.dropLast_append_getLast? _ hlast]
  · next hlast =>
    subst h
    exact .inl ⟨rfl, hlast⟩

end Bytes

/-! ### Texts of lines -/

namespace Utf8

theorem encode_append (s t : String) : encode (s ++ t) = encode s ++ encode t := by
  rw [encode, String.toList_append, List.flatMap_append]
  rfl

theorem le_of_mem_tailBytes {v n : Nat} {b : UInt8} (h : b ∈ tailBytes v n) : 0x80 ≤ b.toNat := by
  induction n with
  | zero => cases h
  | succ n ih =>
    rcases List.mem_cons.mp h with rfl | hb
    · rw [toNat_continuation]
      omega
    · exact ih hb

/-- A character that takes more than one byte has no byte in common with one that does not. -/
theorem le_of_mem_encodeChar {c : Char} (h : 0x80 ≤ c.toNat) {b : UInt8}
    (hb : b ∈ String.utf8EncodeChar c) : 0x80 ≤ b.toNat := by
  have hvalid := toNat_valid c
  by_cases htwo : c.toNat ≤ 0x7ff
  · rw [encodeChar_two h htwo] at hb
    rcases List.mem_cons.mp hb with rfl | hb
    · rw [UInt8.toNat_ofNat']
      omega
    · exact le_of_mem_tailBytes hb
  · by_cases hthree : c.toNat ≤ 0xffff
    · rw [encodeChar_three (by omega) hthree] at hb
      rcases List.mem_cons.mp hb with rfl | hb
      · rw [UInt8.toNat_ofNat']
        omega
      · exact le_of_mem_tailBytes hb
    · rw [encodeChar_four (by omega)] at hb
      rcases List.mem_cons.mp hb with rfl | hb
      · rw [UInt8.toNat_ofNat']
        omega
      · exact le_of_mem_tailBytes hb

theorem eq_return_of_getLast? {c : Char}
    (h : (String.utf8EncodeChar c).getLast? = some carriageReturn) : c = '\r' := by
  by_cases hc : c.toNat < 0x80
  · rw [encodeChar_one hc, List.getLast?_singleton, Option.some.injEq] at h
    have hnat := congrArg UInt8.toNat h
    rw [UInt8.toNat_ofNat', Nat.mod_eq_of_lt (by omega)] at hnat
    exact Char.toNat_inj.mp hnat
  · have hle := le_of_mem_encodeChar (by omega) (List.mem_of_getLast? h)
    cases (by decide : ¬ 0x80 ≤ carriageReturn.toNat) hle

theorem eq_newline_of_mem {c : Char} (h : newline ∈ String.utf8EncodeChar c) : c = '\n' := by
  by_cases hc : c.toNat < 0x80
  · rw [encodeChar_one hc, List.mem_singleton] at h
    have hnat := congrArg UInt8.toNat h
    rw [UInt8.toNat_ofNat', Nat.mod_eq_of_lt (by omega)] at hnat
    exact Char.toNat_inj.mp hnat.symm
  · have hle := le_of_mem_encodeChar (by omega) h
    cases (by decide : ¬ 0x80 ≤ newline.toNat) hle

theorem newline_mem_encode_iff {text : String} : newline ∈ encode text ↔ '\n' ∈ text.toList := by
  rw [encode, List.mem_flatMap]
  constructor
  · rintro ⟨c, hc, hnewline⟩
    obtain rfl := eq_newline_of_mem hnewline
    exact hc
  · intro hc
    exact ⟨'\n', hc, by decide⟩

theorem encode_return (text : String) : encode (text ++ "\r") = encode text ++ [carriageReturn] := by
  rw [encode_append]
  rfl

theorem exists_eq_append_return {text : String}
    (h : (encode text).getLast? = some carriageReturn) : ∃ kept, text = kept ++ "\r" := by
  rcases List.eq_nil_or_concat' text.toList with hnil | ⟨chars, c, hchars⟩
  · rw [encode, hnil] at h
    cases h
  · have hne : String.utf8EncodeChar c ≠ [] := String.utf8EncodeChar_ne_nil
    rw [encode, hchars, List.flatMap_append, List.flatMap_singleton,
      List.getLast?_append_of_ne_nil _ hne] at h
    obtain rfl := eq_return_of_getLast? h
    refine ⟨String.ofList chars, ?_⟩
    rw [← String.toList_inj, hchars, String.toList_append, String.toList_ofList]
    rfl

/-- Of an encoded text at most a carriage return at the end is dropped. -/
theorem dropReturn_encode (text : String) :
    ∃ kept, dropReturn (encode text) = encode kept ∧ (text = kept ∨ text = kept ++ "\r") := by
  by_cases hlast : (encode text).getLast? = some carriageReturn
  · obtain ⟨kept, rfl⟩ := exists_eq_append_return hlast
    refine ⟨kept, ?_, .inr rfl⟩
    rw [encode_return, dropReturn_concat]
  · exact ⟨text, if_neg hlast, .inl rfl⟩

end Utf8

/-! ### Tokens of lines -/

theorem Scan.State.finish_of_blank (s : Scan.State) {c : Char} (h : isBlank c = true) :
    (Scan.advance s [c]).bind Scan.State.finish = s.finish := by
  have hquote : c ≠ '"' := by
    rintro rfl
    exact absurd h (by decide)
  obtain ⟨read, tokens, mode⟩ := s
  cases mode <;> simp [advance, step, h, hquote, State.finish, Except.bind]

theorem uncommented_return (line : List Char) :
    uncommented (line ++ ['\r']) = uncommented line ∨
      uncommented (line ++ ['\r']) = uncommented line ++ ['\r'] := by
  rw [uncommented, List.takeWhile_append]
  split
  · next hlength =>
    right
    rw [uncommented, (List.takeWhile_prefix _).eq_of_length hlength]
    rfl
  · exact .inl rfl

theorem tokenize_return (text : String) : tokenize (text ++ "\r") = tokenize text := by
  have hreturn : ("\r" : String).toList = ['\r'] := rfl
  rw [tokenize, tokenize, String.toList_append, hreturn]
  rcases uncommented_return text.toList with hsame | hlonger
  · rw [hsame]
  · rw [hlonger, Scan.advance_append]
    cases Scan.advance .initial (uncommented text.toList) with
    | error e => rfl
    | ok s => exact s.finish_of_blank (by decide)

end DeviceDescription
