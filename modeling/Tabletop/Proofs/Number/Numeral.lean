import Mathlib
import Tabletop.Number.Layout

/-!
# Numerals as they are written

Each part of a numeral is taken back from its text, as long as the text behind it does not go on
with digits, a point or an exponent (`Numeral.Ends`). And what `Number.document` lays out has the
form that a JSON number must have: digits before the point without a needless zero in front, and
something that tells it apart from an integer (`Numeral.Proper`).
-/

namespace Tabletop

/-! ## Digits -/

theorem isDigit_of_mem_digitsOf {n : Nat} {c : Char} (h : c ∈ digitsOf n) : c.isDigit = true :=
  Nat.isDigit_of_mem_toDigits (by decide) (by decide) h

theorem digitsOf_ne_nil (n : Nat) : digitsOf n ≠ [] := Nat.toDigits_ne_nil

theorem digitsValue_digitsOf (n : Nat) : digitsValue (digitsOf n) = n := by
  rw [digitsValue, digitsOf]
  exact Nat.ofDigitChars_ten_toDigits

/-- Only zero is written with a zero in front. -/
theorem head?_digitsOf {n : Nat} (hn : n ≠ 0) : (digitsOf n).head? ≠ some '0' := by
  induction n using Nat.strong_induction_on with
  | _ n ih =>
    rw [digitsOf]
    rcases Nat.lt_or_ge n 10 with hlt | hge
    · rw [Nat.toDigits_of_lt_base hlt]
      interval_cases n <;> first | exact absurd rfl hn | decide
    · have hdiv : n / 10 ≠ 0 := by omega
      -- the first digit is the first one of the tenth part
      rw [Nat.toDigits_of_base_le (by decide) hge,
        List.head?_append_of_ne_nil _ Nat.toDigits_ne_nil]
      exact ih (n / 10) (by omega) hdiv

namespace Numeral

/-! ## Taking the parts of a text -/

/-- Whether a text does not go on with a numeral. -/
def Ends (rest : List Char) : Prop :=
  ∀ c ∈ rest.head?, c.isDigit = false ∧ c ≠ '.' ∧ c ≠ 'e' ∧ c ≠ 'E'

theorem takeDigits_append {ds rest : List Char} (hds : ∀ c ∈ ds, c.isDigit = true)
    (hrest : ∀ c ∈ rest.head?, c.isDigit = false) : takeDigits (ds ++ rest) = (ds, rest) := by
  rw [takeDigits, List.takeWhile_append_of_pos hds, List.dropWhile_append_of_pos hds]
  cases rest with
  | nil => rw [List.takeWhile_nil, List.append_nil, List.dropWhile_nil]
  | cons c rest =>
    have hc : ¬c.isDigit = true := Bool.not_eq_true _ ▸ hrest c rfl
    rw [List.takeWhile_cons_of_neg hc, List.append_nil, List.dropWhile_cons_of_neg hc]

/-- The point of a numeral and the digits behind it. -/
def pointText (n : Numeral) : List Char := if n.fraction.isEmpty then [] else '.' :: n.fraction

/-- The exponent of a numeral with its mark. -/
def exponentText (n : Numeral) : List Char :=
  if n.exponent = 0 then []
  else 'e' :: (if n.exponent < 0 then '-' else '+') :: digitsOf n.exponent.natAbs

theorem text_eq (n : Numeral) :
    n.text = (if n.negative then ['-'] else []) ++
      (n.whole ++ (n.pointText ++ n.exponentText)) := by
  rw [text, List.append_assoc, List.append_assoc]
  rfl

variable {n : Numeral} {rest : List Char}

theorem takeExponent?_exponentText (hrest : Ends rest) :
    takeExponent? (n.exponentText ++ rest) = some (n.exponent, rest) := by
  rw [exponentText]
  by_cases hzero : n.exponent = 0
  · rw [if_pos hzero, hzero, List.nil_append]
    cases rest with
    | nil => rfl
    | cons c rest =>
      obtain ⟨-, -, he, hE⟩ := hrest c rfl
      rw [takeExponent?, if_neg (not_or.mpr ⟨he, hE⟩)]
  · have hdigits : takeDigits (digitsOf n.exponent.natAbs ++ rest) =
        (digitsOf n.exponent.natAbs, rest) :=
      takeDigits_append (fun _ ↦ isDigit_of_mem_digitsOf) fun c hc ↦ (hrest c hc).1
    have hne : (digitsOf n.exponent.natAbs).isEmpty = false :=
      List.isEmpty_eq_false_iff.mpr (digitsOf_ne_nil _)
    rw [if_neg hzero]
    by_cases hneg : n.exponent < 0
    · rw [if_pos hneg, List.cons_append, List.cons_append, takeExponent?, if_pos (.inl rfl)]
      simp only [takeSign, hdigits, hne, digitsValue_digitsOf, Bool.false_eq_true, if_false,
        if_true]
      congr 2
      omega
    · rw [if_neg hneg, List.cons_append, List.cons_append, takeExponent?, if_pos (.inl rfl)]
      simp only [takeSign, hdigits, hne, digitsValue_digitsOf, Bool.false_eq_true, if_false]
      congr 2
      omega

/-! ## The form of numerals that are no integers -/

/-- Whether a numeral is as JSON writes numbers that are no integers. -/
structure Proper (n : Numeral) : Prop where
  /-- There are digits before the point. -/
  whole_ne_nil : n.whole ≠ []
  /-- They are digits. -/
  whole : ∀ c ∈ n.whole, c.isDigit = true
  /-- No zero stands in front of another digit. -/
  head : n.whole.head? = some '0' → n.whole.length = 1
  /-- Behind the point there are digits only. -/
  fraction : ∀ c ∈ n.fraction, c.isDigit = true
  /-- It does not look like an integer. -/
  told : n.fraction ≠ [] ∨ n.exponent ≠ 0

end Numeral

namespace Decimal

variable {d : Decimal} {negative : Bool}

theorem digits_stripZeros_ne_zero (fuel : Nat) {n : Nat} (e : Int) (hn : n ≠ 0) :
    (stripZeros fuel n e).digits ≠ 0 := by
  induction fuel generalizing n e with
  | zero => exact hn
  | succ fuel ih =>
    rw [stripZeros]
    split
    · exact ih _ (by omega)
    · exact hn

/-- A normal form is zero only if it is the one of zero. -/
theorem exponent_normalize (d : Decimal) (h : d.normalize.digits = 0) :
    d.normalize.exponent = 0 := by
  rw [normalize] at h ⊢
  split
  · rfl
  · rename_i hne
    rw [if_neg hne] at h
    exact absurd h (digits_stripZeros_ne_zero _ _ hne)

/-- The digits before the point of a decimal that is written without an exponent. -/
theorem proper_split (hd : d.digits = 0 → d.exponent = 0) :
    d.split.1 ≠ [] ∧ (∀ c ∈ d.split.1, c.isDigit = true) ∧
      (d.split.1.head? = some '0' → d.split.1.length = 1) ∧ ∀ c ∈ d.split.2, c.isDigit = true := by
  have hdigits : ∀ c ∈ digitsOf d.digits, c.isDigit = true := fun _ ↦ isDigit_of_mem_digitsOf
  have hzeros : ∀ k, ∀ c ∈ List.replicate k '0', c.isDigit = true := fun k c hc ↦
    (List.mem_replicate.mp hc).2 ▸ rfl
  rw [split]
  split
  · -- a whole number: zeros follow the digits
    refine ⟨List.append_ne_nil_of_left_ne_nil (digitsOf_ne_nil _) _, ?_, ?_,
      fun c hc ↦ absurd hc List.not_mem_nil⟩
    · exact fun c hc ↦ (List.mem_append.mp hc).elim (hdigits c) (hzeros _ c)
    · rw [List.head?_append_of_ne_nil _ (digitsOf_ne_nil _)]
      intro hhead
      have hzero : d.digits = 0 := by_contra fun hne ↦ head?_digitsOf hne hhead
      rw [hzero, hd hzero]
      rfl
  · rename_i hneg
    have hne : d.digits ≠ 0 := fun hzero ↦ hneg (hd hzero).ge
    split
    · -- the point stands between the digits
      rename_i hplaces
      refine ⟨?_, fun c hc ↦ hdigits c (List.mem_of_mem_take hc), ?_,
        fun c hc ↦ hdigits c (List.mem_of_mem_drop hc)⟩
      · rw [ne_eq, List.take_eq_nil_iff, not_or]
        exact ⟨by omega, digitsOf_ne_nil _⟩
      · rw [List.head?_take, if_neg (by omega)]
        exact fun hhead ↦ absurd hhead (head?_digitsOf hne)
    · -- zeros stand between the point and the digits
      refine ⟨by simp, fun c hc ↦ List.mem_singleton.mp hc ▸ rfl, fun _ ↦ rfl, fun c hc ↦ ?_⟩
      exact (List.mem_append.mp hc).elim (hzeros _ c) (hdigits c)

/-- **What documents write is a proper numeral.** -/
theorem proper_document (hd : d.digits = 0 → d.exponent = 0) : (d.document negative).Proper := by
  rw [document]
  split
  · obtain ⟨hne, hwhole, hhead, hfraction⟩ := proper_split hd
    dsimp only
    split
    · exact ⟨hne, hwhole, hhead, fun c hc ↦ List.mem_singleton.mp hc ▸ rfl, .inl (by simp)⟩
    · rename_i hnonempty
      refine ⟨hne, hwhole, hhead, hfraction, .inl fun hnil ↦ hnonempty ?_⟩
      rw [hnil]
      rfl
  · rename_i hfar
    refine ⟨?_, ?_, fun _ ↦ ?_, ?_, .inr ?_⟩
    · change (digitsOf d.digits).take 1 ≠ []
      rw [ne_eq, List.take_eq_nil_iff, not_or]
      exact ⟨one_ne_zero, digitsOf_ne_nil _⟩
    · exact fun c hc ↦ isDigit_of_mem_digitsOf (List.mem_of_mem_take hc)
    · have hlength := List.length_pos_iff.mpr (digitsOf_ne_nil d.digits)
      change ((digitsOf d.digits).take 1).length = 1
      rw [List.length_take]
      omega
    · exact fun c hc ↦ isDigit_of_mem_digitsOf (List.mem_of_mem_drop hc)
    · change d.leadingExponent ≠ 0
      omega

end Decimal

theorem Number.proper_document (x : Number) : x.document.Proper := by
  refine Decimal.proper_document fun hzero ↦ ?_
  exact Decimal.exponent_normalize _ hzero

end Tabletop
