import Mathlib

/-!
# Texts byte by byte

Names in a library are listed in the order of the bytes that they are stored as, while the lists
are sorted by code points. UTF-8 is made so that both orders are the same: of two characters the one
with the greater code point has the greater bytes (`octetsOfChar_append_lt`), since the first byte
of a longer form is greater than that of a shorter one.
-/

namespace Tabletop

/-- The bytes of a text. -/
def octetsOf (s : String) : List ℕ := s.toUTF8.data.toList.map UInt8.toNat

/-- Whether a text comes before another one byte by byte, or is the same. -/
def BytewiseLE (a b : String) : Prop := octetsOf a ≤ octetsOf b

instance : DecidableRel BytewiseLE :=
  fun a b ↦ inferInstanceAs (Decidable (octetsOf a ≤ octetsOf b))

/-! ## Characters -/

/-- The bytes of a character. -/
def octetsOfChar (c : Char) : List ℕ := (String.utf8EncodeChar c).map UInt8.toNat

theorem octetsOf_eq (s : String) : octetsOf s = s.toList.flatMap octetsOfChar := by
  rw [octetsOf, String.toUTF8_eq_toByteArray, ← String.utf8Encode_toList, List.utf8Encode,
    List.data_toByteArray, List.map_flatMap]
  rfl

theorem toNat_val_lt (c : Char) : c.val.toNat < 1114112 := by
  rcases c.valid with h | h
  · exact lt_trans h (by omega)
  · exact h.2

/-- A character has one to four bytes. -/
theorem octetsOfChar_cases (c : Char) :
    c.val.toNat < 128 ∧ octetsOfChar c = [c.val.toNat] ∨
      (128 ≤ c.val.toNat ∧ c.val.toNat < 2048) ∧
        octetsOfChar c = [c.val.toNat / 64 + 192, c.val.toNat % 64 + 128] ∨
      (2048 ≤ c.val.toNat ∧ c.val.toNat < 65536) ∧
        octetsOfChar c =
          [c.val.toNat / 4096 + 224, c.val.toNat / 64 % 64 + 128, c.val.toNat % 64 + 128] ∨
      65536 ≤ c.val.toNat ∧
        octetsOfChar c =
          [c.val.toNat / 262144 + 240, c.val.toNat / 4096 % 64 + 128, c.val.toNat / 64 % 64 + 128,
            c.val.toNat % 64 + 128] := by
  have hlt := toNat_val_lt c
  simp only [octetsOfChar, String.utf8EncodeChar]
  split_ifs with h₁ h₂ h₃ <;>
    simp only [List.map_cons, List.map_nil, UInt8.toNat_ofNat', List.cons.injEq, and_true,
      reduceCtorEq, and_false, false_or, or_false] <;> omega

/-- The greater of two characters has the greater bytes, whatever follows. -/
theorem octetsOfChar_append_lt {a b : Char} (h : a < b) (xs ys : List ℕ) :
    octetsOfChar a ++ xs < octetsOfChar b ++ ys := by
  have hlt : a.val.toNat < b.val.toNat := UInt32.lt_iff_toNat_lt.mp h
  have hb := toNat_val_lt b
  -- forms of one length differ in some digit, others in the first byte
  rcases octetsOfChar_cases a with ⟨ha, hoctets⟩ | ⟨ha, hoctets⟩ | ⟨ha, hoctets⟩ | ⟨ha, hoctets⟩ <;>
    rcases octetsOfChar_cases b with
      ⟨hb', hoctets'⟩ | ⟨hb', hoctets'⟩ | ⟨hb', hoctets'⟩ | ⟨hb', hoctets'⟩ <;>
    rw [hoctets, hoctets'] <;>
    simp only [List.cons_append, List.nil_append, List.cons_lt_cons_iff] <;>
    omega

/-! ## Texts -/

theorem flatMap_octetsOfChar_lt {as bs : List Char} (h : as < bs) :
    as.flatMap octetsOfChar < bs.flatMap octetsOfChar := by
  induction h with
  | nil =>
    rename_i b bs
    rw [List.flatMap_nil, List.flatMap_cons]
    rcases octetsOfChar_cases b with ⟨-, h⟩ | ⟨-, h⟩ | ⟨-, h⟩ | ⟨-, h⟩ <;> rw [h] <;> exact .nil
  | cons _ ih =>
    rw [List.flatMap_cons, List.flatMap_cons]
    exact List.append_left_lt ih
  | rel h => exact octetsOfChar_append_lt h _ _

theorem octetsOf_strictMono : StrictMono octetsOf := fun a b h ↦ by
  rw [octetsOf_eq, octetsOf_eq]
  exact flatMap_octetsOfChar_lt (String.lt_iff_toList_lt.mp h)

/-- **Code points and bytes** order texts alike. -/
theorem bytewiseLE_iff {a b : String} : BytewiseLE a b ↔ a ≤ b := octetsOf_strictMono.le_iff_le

instance : IsTrans String BytewiseLE := ⟨fun a b _ (h : octetsOf a ≤ octetsOf b) h' ↦ le_trans h h'⟩

instance : Std.Total BytewiseLE := ⟨fun a b ↦ le_total (octetsOf a) (octetsOf b)⟩

instance : Std.Antisymm BytewiseLE :=
  ⟨fun _ _ h h' ↦ le_antisymm (bytewiseLE_iff.mp h) (bytewiseLE_iff.mp h')⟩

end Tabletop
