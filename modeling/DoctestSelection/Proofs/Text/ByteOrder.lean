/-!
# The order of texts and the order of their bytes

Texts are ordered code point by code point.  In UTF-8 this is also the order of their bytes: the
first byte of a character tells how many bytes it has, and grows with that number; characters with
as many bytes carry their code points in them, the higher digits first.  So two different characters
differ before either of them ends, and what follows them does not matter.

## Main definitions

* `Text.bytes` — the bytes of a text.

## Main results

* `Text.utf8EncodeChar_append_lt` — different characters decide the order of what they stand in
  front of.
* `Text.bytes_lt_bytes` — **a text that stands before another one has smaller bytes.**
-/

namespace DoctestSelection

namespace Text

/-- The bytes of a text in UTF-8. -/
def bytes (s : String) : List UInt8 := s.toUTF8.data.toList

theorem bytes_eq_flatMap (s : String) : bytes s = s.toList.flatMap String.utf8EncodeChar := by
  rw [bytes, String.toUTF8_eq_toByteArray, ← String.ofList_toList (s := s),
    String.toByteArray_ofList, String.toList_ofList, List.utf8Encode, List.data_toByteArray]

theorem toNat_char_lt (c : Char) : c.val.toNat < 0x110000 := by
  have hvalid : c.val.toNat < 0xd800 ∨ 0xdfff < c.val.toNat ∧ c.val.toNat < 0x110000 := c.valid
  omega

/-- Different characters decide the order of what they stand in front of. -/
theorem utf8EncodeChar_append_lt {c d : Char} (h : c < d) (xs ys : List UInt8) :
    String.utf8EncodeChar c ++ xs < String.utf8EncodeChar d ++ ys := by
  have hlt : c.val.toNat < d.val.toNat := UInt32.lt_iff_toNat_lt.1 h
  have hd : d.val.toNat < 0x110000 := toNat_char_lt d
  -- a case for each pair of lengths, where no byte is too great to be one
  fun_cases String.utf8EncodeChar c <;> fun_cases String.utf8EncodeChar d <;>
    simp only [List.cons_append, List.nil_append, List.cons_lt_cons_iff, UInt8.lt_iff_toNat_lt,
      ← UInt8.toNat_inj, UInt8.toNat_ofNat'] <;>
    simp (disch := omega) only [Nat.mod_eq_of_lt] <;>
    omega

/-- **A text that stands before another one has smaller bytes.** -/
theorem bytes_lt_bytes {s t : String} (h : s < t) : bytes s < bytes t := by
  rw [bytes_eq_flatMap, bytes_eq_flatMap]
  have hlex : List.Lex (· < ·) s.toList t.toList := h
  generalize s.toList = cs at hlex ⊢
  generalize t.toList = ds at hlex ⊢
  induction hlex with
  | @nil d ds =>
    obtain ⟨b, bs, hbytes⟩ := List.exists_cons_of_ne_nil (String.utf8EncodeChar_ne_nil (c := d))
    rw [List.flatMap_nil, List.flatMap_cons, hbytes]
    exact List.nil_lt_cons _ _
  | rel hcd =>
    rw [List.flatMap_cons, List.flatMap_cons]
    exact utf8EncodeChar_append_lt hcd _ _
  | cons _ ih =>
    rw [List.flatMap_cons, List.flatMap_cons]
    exact List.append_left_lt ih

end Text

end DoctestSelection
