import Tabletop.Json.Printer
import Tabletop.Json.Reader
import Tabletop.Proofs.Number.Scaled

/-!
# Numbers and strings as JSON

The tokens that carry data are taken back from what is printed, and exactly that much of the text is
taken. Numbers need to know that the text behind them does not go on with a numeral; strings end
with their quote.
-/

namespace Tabletop

namespace Json

open Numeral

/-! ## Numbers -/

section Numbers

variable {n : Numeral} {rest : List Char}

theorem head_exponentText (hrest : Ends rest) :
    ∀ c ∈ (n.exponentText ++ rest).head?, c.isDigit = false ∧ c ≠ '.' := by
  rw [exponentText]
  split
  · exact fun c hc ↦ ⟨(hrest c hc).1, (hrest c hc).2.1⟩
  · rintro c hc
    obtain rfl : 'e' = c := Option.some.inj hc
    decide

theorem head_pointText (hrest : Ends rest) :
    ∀ c ∈ (n.pointText ++ (n.exponentText ++ rest)).head?, c.isDigit = false := by
  rw [pointText]
  split
  · exact fun c hc ↦ (head_exponentText hrest c hc).1
  · rintro c hc
    obtain rfl : '.' = c := Option.some.inj hc
    decide

theorem takeFraction?_pointText (hfraction : ∀ c ∈ n.fraction, c.isDigit = true)
    (hrest : ∀ c ∈ rest.head?, c.isDigit = false ∧ c ≠ '.') :
    takeFraction? (n.pointText ++ rest) = some (n.fraction, rest) := by
  rw [pointText]
  by_cases hempty : n.fraction.isEmpty = true
  · rw [if_pos hempty, List.isEmpty_iff.mp hempty, List.nil_append]
    unfold takeFraction?
    split
    · rename_i cs
      exact absurd rfl (hrest '.' rfl).2
    · rfl
  · rw [if_neg hempty, List.cons_append, takeFraction?,
      takeDigits_append hfraction fun c hc ↦ (hrest c hc).1]
    exact if_neg hempty

/-- A numeral that is no integer. -/
theorem takeMagnitude?_real (hn : n.Proper) (hrest : Ends rest) :
    takeMagnitude? n.negative (n.whole ++ (n.pointText ++ (n.exponentText ++ rest))) =
      some (real n, rest) := by
  have hwhole : n.whole.isEmpty = false := List.isEmpty_eq_false_iff.mpr hn.whole_ne_nil
  have hhead : (n.whole.head? == some '0' && n.whole.length != 1) = false := by
    rw [Bool.and_eq_false_iff, beq_eq_false_iff_ne, bne_eq_false_iff_eq]
    exact or_iff_not_imp_left.mpr fun h ↦ hn.head (not_not.mp h)
  -- a fraction, or an exponent that took some of the text, tells it apart from an integer
  have htold : (n.fraction.isEmpty && rest.length == (n.exponentText ++ rest).length) = false := by
    rw [Bool.and_eq_false_iff]
    refine hn.told.imp List.isEmpty_eq_false_iff.mpr fun hexponent ↦ ?_
    rw [exponentText, if_neg hexponent, beq_eq_false_iff_ne, List.length_append, List.length_cons]
    omega
  rw [takeMagnitude?, takeDigits_append hn.whole (head_pointText hrest)]
  simp only [hwhole, hhead, Bool.or_self, Bool.false_eq_true, if_false,
    takeFraction?_pointText hn.fraction (head_exponentText hrest),
    takeExponent?_exponentText hrest, Option.bind_eq_bind, Option.bind_some, htold]

/-- An integer. -/
theorem takeMagnitude?_digitsOf (negative : Bool) (m : Nat) (hrest : Ends rest) :
    takeMagnitude? negative (digitsOf m ++ rest) = some (ofDigits negative (digitsOf m), rest) := by
  have hne : (digitsOf m).isEmpty = false := List.isEmpty_eq_false_iff.mpr (digitsOf_ne_nil m)
  have hhead : ((digitsOf m).head? == some '0' && (digitsOf m).length != 1) = false := by
    rcases eq_or_ne m 0 with rfl | hm
    · rfl
    · rw [Bool.and_eq_false_iff, beq_eq_false_iff_ne]
      exact .inl (head?_digitsOf hm)
  have hfraction : takeFraction? rest = some ([], rest) := by
    unfold takeFraction?
    split
    · exact absurd rfl (hrest '.' rfl).2.1
    · rfl
  have hexponent : takeExponent? rest = some (0, rest) :=
    takeExponent?_exponentText (n := ⟨false, [], [], 0⟩) hrest
  rw [takeMagnitude?, takeDigits_append (fun _ ↦ isDigit_of_mem_digitsOf) fun c hc ↦ (hrest c hc).1]
  simp only [hne, hhead, Bool.or_self, Bool.false_eq_true, if_false, hfraction, hexponent,
    Option.bind_eq_bind, Option.bind_some, List.isEmpty_nil, BEq.rfl, Bool.and_self, if_true]

theorem ofDigits_digitsOf {negative : Bool} {m : Nat} (hm : m < UInt64.size)
    (h : negative = true → m ≠ 0) :
    ofDigits negative (digitsOf m) = integer (if negative then -m else m) := by
  rw [ofDigits, takeFitting_digitsOf hm]
  dsimp only
  rw [if_neg]
  rw [Bool.and_eq_true, decide_eq_true_eq]
  exact fun hzero ↦ h hzero.1 hzero.2

theorem takeNumber?_signed {negative : Bool} {cs : List Char} {taken : Json × List Char}
    (h : takeMagnitude? negative cs = some taken) (hcs : ∃ c ∈ cs.head?, c.isDigit = true) :
    takeNumber? ((if negative then ['-'] else []) ++ cs) = some taken := by
  cases negative with
  | true => exact h
  | false =>
    obtain ⟨c, hc, hdigit⟩ := hcs
    rw [if_neg Bool.false_ne_true, List.nil_append]
    unfold takeNumber?
    split
    · obtain rfl : '-' = c := Option.some.inj hc
      exact absurd hdigit (by decide)
    · exact h

theorem takeNumber?_real (hn : n.Proper) (hrest : Ends rest) :
    takeNumber? (n.text ++ rest) = some (real n, rest) := by
  obtain ⟨c, ds, hwhole⟩ := List.exists_cons_of_ne_nil hn.whole_ne_nil
  rw [text_eq, List.append_assoc, List.append_assoc, List.append_assoc]
  refine takeNumber?_signed (takeMagnitude?_real hn hrest) ⟨c, ?_, ?_⟩
  · rw [hwhole]
    rfl
  · exact hn.whole c (hwhole ▸ List.mem_cons_self)

theorem takeNumber?_integer {i : Int} (hi : i.natAbs < UInt64.size) (hrest : Ends rest) :
    takeNumber? ((ofInt i).text ++ rest) = some (integer i, rest) := by
  obtain ⟨c, ds, hdigits⟩ := List.exists_cons_of_ne_nil (digitsOf_ne_nil i.natAbs)
  have htext : (ofInt i).text = (if decide (i < 0) then ['-'] else []) ++ digitsOf i.natAbs := by
    rw [text_eq]
    simp [ofInt, pointText, exponentText]
  rw [htext, List.append_assoc]
  refine takeNumber?_signed ?_ ⟨c, ?_, isDigit_of_mem_digitsOf (hdigits ▸ List.mem_cons_self)⟩
  · rw [takeMagnitude?_digitsOf _ _ hrest, ofDigits_digitsOf hi]
    · congr 3
      split <;> rename_i h <;> simp only [decide_eq_true_eq] at h <;> omega
    · intro h
      have hneg := of_decide_eq_true h
      omega
  · rw [hdigits]
    rfl

end Numbers

/-! ## Strings -/

section Strings

variable {c : Char}

theorem hexDigit?_digitChar {n : Nat} (h : n < 16) : hexDigit? n.digitChar = some n := by
  revert n
  decide

theorem bind_units (u : Nat) (taken? : Option (List Nat × List Char)) :
    (do let (units, rest) ← taken?; some (u :: units, rest)) =
      taken?.map fun taken ↦ (u :: taken.1, taken.2) := by
  cases taken? <;> rfl

theorem takeUnits?_letter {u : Nat} (hu : c ≠ 'u') (h : escape? c = some u) (rest : List Char) :
    takeUnits? ('\\' :: c :: rest) =
      (takeUnits? rest).map fun taken ↦ (u :: taken.1, taken.2) := by
  rw [takeUnits?.eq_4 _ _ fun _ _ _ _ _ hc _ ↦ hu hc, h]
  exact bind_units u _

theorem takeUnits?_control (h : c.toNat < 0x20) (rest : List Char) :
    takeUnits? ('\\' :: 'u' :: '0' :: '0' :: Nat.digitChar (c.toNat / 16) ::
        Nat.digitChar (c.toNat % 16) :: rest) =
      (takeUnits? rest).map fun taken ↦ (c.toNat :: taken.1, taken.2) := by
  have hzero : hexDigit? '0' = some 0 := by decide
  rw [takeUnits?.eq_3, hzero, hexDigit?_digitChar (by omega), hexDigit?_digitChar (by omega)]
  simp only [Option.bind_eq_bind, Option.bind_some]
  rw [show 4096 * 0 + 256 * 0 + 16 * (c.toNat / 16) + c.toNat % 16 = c.toNat by omega]
  exact bind_units _ _

theorem takeUnits?_plain (hquote : c ≠ '"') (hslash : c ≠ '\\') (h : ¬c.toNat < 0x20)
    (rest : List Char) : takeUnits? (c :: rest) =
      (takeUnits? rest).map fun taken ↦ (c.toNat :: taken.1, taken.2) := by
  rw [takeUnits?.eq_5 _ _ hquote (fun _ _ _ _ _ hc _ ↦ hslash hc) fun _ _ hc _ ↦ hslash hc,
    if_neg h]
  exact bind_units _ _

theorem takeUnits?_escapedChar (c : Char) (rest : List Char) :
    takeUnits? (escapedChar c ++ rest) =
      (takeUnits? rest).map fun taken ↦ (c.toNat :: taken.1, taken.2) := by
  unfold escapedChar
  split
  -- the letters have their own escapes; what is left is a control character or stands for itself
  case h_8 hquote hslash _ _ _ _ _ =>
    split
    · rename_i hcontrol
      exact takeUnits?_control hcontrol rest
    · rename_i hcontrol
      exact takeUnits?_plain hquote hslash hcontrol rest
  all_goals exact takeUnits?_letter (by decide) rfl rest

theorem takeUnits?_flatMap (cs rest : List Char) :
    takeUnits? (cs.flatMap escapedChar ++ '"' :: rest) = some (cs.map Char.toNat, rest) := by
  induction cs with
  | nil => rfl
  | cons c cs ih =>
    rw [List.flatMap_cons, List.append_assoc, takeUnits?_escapedChar, ih]
    rfl

theorem toNat_not_surrogate (c : Char) :
    isHighSurrogate c.toNat = false ∧ isLowSurrogate c.toNat = false := by
  have hvalid : c.toNat < 0xD800 ∨ 0xDFFF < c.toNat ∧ c.toNat < 0x110000 := c.valid
  simp only [isHighSurrogate, isLowSurrogate, Bool.and_eq_false_iff, decide_eq_false_iff_not]
  omega

theorem joinUnits?_map (cs : List Char) : joinUnits? (cs.map Char.toNat) = some cs := by
  induction cs with
  | nil => rfl
  | cons c cs ih =>
    -- no character is one half of a pair, so units are not joined
    obtain ⟨hhigh, hlow⟩ := toNat_not_surrogate c
    cases cs with
    | nil =>
      rw [List.map_cons, List.map_nil, joinUnits?, hhigh, hlow, Char.ofNat_toNat]
      rfl
    | cons d cs =>
      rw [List.map_cons] at ih
      rw [List.map_cons, List.map_cons, joinUnits?, hhigh, hlow, ih, Char.ofNat_toNat]
      rfl

/-- **Strings are read back.** -/
theorem takeString?_escaped (s : String) (rest : List Char) :
    takeString? (s.toList.flatMap escapedChar ++ '"' :: rest) = some (some s, rest) := by
  rw [takeString?, takeUnits?_flatMap]
  simp only [Option.bind_eq_bind, Option.bind_some, joinUnits?_map, Option.map_some,
    String.ofList_toList]

end Strings

end Json

end Tabletop
