import Monkey.Token.Scanner

/-!
# Decoding before and after the cut

The lines of a file are cut from its bytes, and each line is decoded on its own; the lines of a text
are cut from its characters. The two ways agree, on which files there are tokens of as well as on
the tokens, because a newline or a carriage return is a byte of no other character's encoding.

## Main definitions

* `Lines.encode` — the bytes of a list of characters.
-/

namespace Monkey

namespace Text.Lines

/-- The bytes that encode some characters. -/
def encode (cs : List Char) : List UInt8 := cs.flatMap String.utf8EncodeChar

@[simp] theorem encode_nil : encode [] = [] := rfl

@[simp] theorem encode_cons (c : Char) (cs : List Char) :
    encode (c :: cs) = String.utf8EncodeChar c ++ encode cs := List.flatMap_cons

@[simp] theorem encode_append (cs ds : List Char) : encode (cs ++ ds) = encode cs ++ encode ds :=
  List.flatMap_append

/-- An ASCII character is one byte. -/
theorem utf8EncodeChar_of_toNat_lt {c : Char} (h : c.toNat < 0x80) :
    String.utf8EncodeChar c = [UInt8.ofNat c.toNat] :=
  if_pos (Nat.le_of_lt_succ h)

/-- All the bytes of another character stand outside ASCII. -/
theorem le_toNat_of_mem_utf8EncodeChar {c : Char} (h : 0x80 ≤ c.toNat) {b : UInt8}
    (hb : b ∈ String.utf8EncodeChar c) : 0x80 ≤ b.toNat := by
  have hbyte {n : Nat} (hlow : 0x80 ≤ n) (hhigh : n < 0x100) : 0x80 ≤ (UInt8.ofNat n).toNat :=
    (UInt8.toNat_ofNat_of_lt' hhigh).symm ▸ hlow
  -- Each byte is a few bits of the character below a mark, which alone is `0x80` at least.
  revert hb
  fun_cases String.utf8EncodeChar c with
  | case1 v hv => exact absurd hv (Nat.not_le.mpr h)
  | case2 v | case3 v | case4 v =>
    simp only [List.mem_cons, List.not_mem_nil, or_false]
    rintro (rfl | rfl | rfl | rfl) <;> exact hbyte (by omega) (by omega)

/-- An ASCII character is no part of another character's encoding. -/
theorem notMem_utf8EncodeChar {c d : Char} (hd : d.toNat < 0x80) (hne : c ≠ d) :
    UInt8.ofNat d.toNat ∉ String.utf8EncodeChar c := by
  have htoNat {n : Nat} (hn : n < 0x80) : (UInt8.ofNat n).toNat = n :=
    UInt8.toNat_ofNat_of_lt' (Nat.lt_trans hn (by decide))
  intro hmem
  by_cases hc : c.toNat < 0x80
  · rw [utf8EncodeChar_of_toNat_lt hc, List.mem_singleton] at hmem
    have hsame : d.toNat = c.toNat := by rw [← htoNat hd, ← htoNat hc, hmem]
    exact hne (Char.toNat_inj.mp hsame.symm)
  · have := le_toNat_of_mem_utf8EncodeChar (Nat.le_of_not_lt hc) hmem
    rw [htoNat hd] at this
    omega

/-! ### The cut of an encoded text -/

section Cut

variable {α : Type} [DecidableEq α] {nl cr : α}

/-- What holds no newline is read into the line. -/
theorem cutFrom_append_of_notMem {xs : List α} (h : nl ∉ xs) (line ys : List α) :
    cutFrom nl cr line (xs ++ ys) = cutFrom nl cr (xs.reverse ++ line) ys := by
  induction xs generalizing line with
  | nil => rfl
  | cons x xs ih =>
    obtain ⟨hx, hxs⟩ := List.ne_and_not_mem_of_not_mem_cons h
    rw [List.cons_append, cutFrom, if_neg (Ne.symm hx), ih hxs, List.reverse_cons,
      List.append_assoc]
    rfl

/-- What holds no carriage return is not dropped. -/
theorem dropReturn_append_of_notMem {xs : List α} (hne : xs ≠ []) (h : cr ∉ xs) (ys : List α) :
    dropReturn cr (xs ++ ys) = xs ++ ys := by
  obtain ⟨x, xs, rfl⟩ := List.exists_cons_of_ne_nil hne
  exact if_neg (Ne.symm (List.ne_of_not_mem_cons h))

/-- A line and what is left of it differ by a carriage return at most. -/
theorem eq_dropReturn_or (cr : α) (line : List α) :
    line = dropReturn cr line ∨ line = cr :: dropReturn cr line := by
  cases line with
  | nil => exact .inl rfl
  | cons c cs =>
    by_cases hc : c = cr
    · exact .inr (by rw [dropReturn, if_pos hc, hc])
    · exact .inl (by rw [dropReturn, if_neg hc])

end Cut

/-- A carriage return at the end of a line is one at the end of its encoding. -/
theorem dropReturn_encode (line : List Char) :
    (dropReturn 0x0D (encode line.reverse).reverse).reverse =
      encode (dropReturn '\r' line).reverse := by
  cases line with
  | nil => rfl
  | cons c line =>
    rw [List.reverse_cons, encode_append, List.reverse_append]
    by_cases hc : c = '\r'
    · subst hc
      exact List.reverse_reverse _
    · have hbyte : (0x0D : UInt8) ∉ (encode [c]).reverse := by
        simpa using notMem_utf8EncodeChar (d := '\r') (by decide) hc
      rw [dropReturn_append_of_notMem (by simp) hbyte, dropReturn, if_neg hc,
        List.reverse_cons, encode_append, List.reverse_append, List.reverse_reverse,
        List.reverse_reverse]

/-- The lines that are cut from an encoded text are the encoded lines of the text. -/
theorem cutFrom_encode (line cs : List Char) :
    cutFrom 0x0A 0x0D (encode line.reverse).reverse (encode cs) =
      (cutFrom '\n' '\r' line cs).map encode := by
  induction cs generalizing line with
  | nil => cases line <;> simp [cutFrom]
  | cons c cs ih =>
    by_cases hc : c = '\n'
    · subst hc
      change cutFrom 0x0A 0x0D _ (0x0A :: encode cs) = _
      rw [cutFrom, if_pos rfl, dropReturn_encode, cutFrom, if_pos rfl, List.map_cons]
      exact congrArg _ (ih [])
    · have hbyte : (0x0A : UInt8) ∉ String.utf8EncodeChar c :=
        notMem_utf8EncodeChar (d := '\n') (by decide) hc
      have hline : (String.utf8EncodeChar c).reverse ++ (encode line.reverse).reverse =
          (encode (c :: line).reverse).reverse := by simp
      rw [encode_cons, cutFrom_append_of_notMem hbyte, hline, ih, cutFrom, if_neg hc]

/-- If each line of a file encodes a text, then the whole file does. -/
theorem exists_encode_of_cutFrom {line bytes : List UInt8}
    (h : ∀ piece ∈ cutFrom 0x0A 0x0D line bytes, ∃ cs, piece = encode cs) :
    ∃ cs, line.reverse ++ bytes = encode cs := by
  induction bytes generalizing line with
  | nil =>
    by_cases hline : line = []
    · exact ⟨[], by simp [hline]⟩
    · rw [List.append_nil]
      exact h _ (by simp [cutFrom, hline])
  | cons b bytes ih =>
    by_cases hb : b = 0x0A
    · subst hb
      rw [cutFrom, if_pos rfl, List.forall_mem_cons] at h
      obtain ⟨⟨ds, hds⟩, hrest⟩ := h
      obtain ⟨es, hes : bytes = _⟩ := ih hrest
      -- A carriage return that the cut drops is still part of the text.
      rcases eq_dropReturn_or 0x0D line with hline | hline
      · refine ⟨ds ++ '\n' :: es, ?_⟩
        rw [hline, hds, hes, encode_append, encode_cons]
        rfl
      · refine ⟨ds ++ '\r' :: '\n' :: es, ?_⟩
        rw [hline, List.reverse_cons, hds, hes, List.append_assoc, encode_append, encode_cons]
        rfl
    · rw [cutFrom, if_neg hb] at h
      simpa using ih h

/-! ### Decoding -/

theorem toList_toUTF8 (text : String) : text.toUTF8.data.toList = encode text.toList := by
  rw [String.toUTF8_eq_toByteArray, ← String.utf8Encode_toList]
  exact List.toList_data_toByteArray

/-- Bytes are decoded to the text that they encode. -/
theorem decode?_eq_some_iff {bytes : List UInt8} {text : String} :
    decode? bytes = some text ↔ bytes = encode text.toList := by
  have hbytes : bytes = encode text.toList ↔ (⟨bytes.toArray⟩ : ByteArray) = text.toByteArray := by
    rw [← toList_toUTF8, ByteArray.ext_iff, ← Array.toList_inj]
    rfl
  rw [hbytes, decode?, String.fromUTF8?]
  split
  case isTrue hvalid =>
    rw [Option.some_inj, ← String.toByteArray_inj]
    rfl
  case isFalse hvalid =>
    exact iff_of_false (Option.some_ne_none _).symm fun h => hvalid (h ▸ text.isValidUTF8)

/-- A walk that succeeds does so at each step. -/
theorem exists_of_mapM {α β : Type} {f : α → Option β} {xs : List α} {ys : List β}
    (h : xs.mapM f = some ys) : ∀ x ∈ xs, ∃ y, f x = some y := by
  induction xs generalizing ys with
  | nil => exact List.forall_mem_nil _
  | cons x xs ih =>
    simp only [List.mapM_cons, Option.bind_eq_bind, Option.bind_eq_some_iff] at h
    obtain ⟨y, hy, ys, hys, -⟩ := h
    exact List.forall_mem_cons.mpr ⟨⟨y, hy⟩, ih hys⟩

theorem ofBytes?_encode (text : String) :
    ofBytes? (encode text.toList) = some (ofString text) := by
  have hdecode : decode? ∘ encode = (some ∘ String.ofList) :=
    funext fun cs => decode?_eq_some_iff.mpr (by simp)
  have hcut : cut 0x0A 0x0D (encode text.toList) = (cut '\n' '\r' text.toList).map encode :=
    cutFrom_encode [] text.toList
  rw [ofBytes?, hcut, List.mapM_map, hdecode, ofString]
  exact List.mapM_pure

/-- The lines of a file are the lines of the text that it encodes, if it encodes one. -/
theorem ofBytes?_eq_map_decode? (bytes : List UInt8) :
    ofBytes? bytes = (decode? bytes).map ofString := by
  cases hdecode : decode? bytes with
  | some text =>
    rw [decode?_eq_some_iff.mp hdecode, Option.map_some]
    exact ofBytes?_encode text
  | none =>
    rw [Option.map_none, Option.eq_none_iff_forall_ne_some]
    intro lines hlines
    have hpieces : ∀ piece ∈ cut 0x0A 0x0D bytes, ∃ cs, piece = encode cs := by
      intro piece hpiece
      obtain ⟨text, htext⟩ := exists_of_mapM hlines piece hpiece
      exact ⟨text.toList, decode?_eq_some_iff.mp htext⟩
    obtain ⟨cs, hcs⟩ := exists_encode_of_cutFrom hpieces
    have htext : decode? bytes = some (String.ofList cs) :=
      decode?_eq_some_iff.mpr (by simpa using hcs)
    exact Option.some_ne_none _ (htext.symm.trans hdecode)

end Text.Lines

namespace Token

open Text

/-- The tokens of a file are the tokens of the text that its bytes encode, although each line is
decoded on its own; there are none exactly if the bytes encode no text. -/
theorem ofBytes?_eq_ofString_or_none (bytes : List UInt8) :
    (∀ text : String, text.toUTF8.data.toList = bytes →
        ofBytes? bytes = some (ofString text)) ∧
      ((∀ text : String, text.toUTF8.data.toList ≠ bytes) → ofBytes? bytes = none) := by
  rw [ofBytes?, Lines.ofBytes?_eq_map_decode?, Option.map_map]
  constructor
  · rintro text rfl
    rw [Lines.decode?_eq_some_iff.mpr (Lines.toList_toUTF8 text)]
    rfl
  · intro hnone
    have hdecode : Lines.decode? bytes = none := by
      rw [Option.eq_none_iff_forall_ne_some]
      intro text htext
      exact hnone text ((Lines.toList_toUTF8 text).trans (Lines.decode?_eq_some_iff.mp htext).symm)
    rw [hdecode]
    rfl

end Token

end Monkey
