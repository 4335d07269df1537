import Tabletop.Proofs.Number.Bits
import Tabletop.Proofs.Number.Nearest
import Tabletop.Proofs.Number.Numeral

/-!
# Numbers that are read

Two facts about reading by scaling. What is read is finite: a product that is not is refused, and a
quotient is no larger than what was divided, which has sixty-four bits at most. And integers are
read exactly: as long as its digits fit into sixty-four bits, a whole number is read back from the
numeral of its integer. Only the sign of zero is lost, since integers have none.
-/

namespace Tabletop

/-! ## Digits -/

theorem le_foldl_digits (n : Nat) (cs : List Char) :
    n ≤ cs.foldl (fun n c ↦ 10 * n + digitValue c) n := by
  induction cs generalizing n with
  | nil => exact le_refl n
  | cons c cs ih => exact le_trans (by omega) (ih (10 * n + digitValue c))

/-- Digits whose number fits are all taken. -/
theorem takeFitting_of_lt {n : Nat} {cs : List Char}
    (h : cs.foldl (fun n c ↦ 10 * n + digitValue c) n < UInt64.size) :
    takeFitting n cs = (cs.foldl (fun n c ↦ 10 * n + digitValue c) n, []) := by
  induction cs generalizing n with
  | nil => rfl
  | cons c cs ih =>
    rw [List.foldl_cons] at h ⊢
    rw [takeFitting, if_pos ((le_foldl_digits _ cs).trans_lt h), ih h]

theorem takeFitting_digitsOf {n : Nat} (h : n < UInt64.size) :
    takeFitting 0 (digitsOf n) = (n, []) := by
  have hvalue : (digitsOf n).foldl (fun n c ↦ 10 * n + digitValue c) 0 = n := digitsValue_digitsOf n
  rw [takeFitting_of_lt (by rwa [hvalue]), hvalue]

theorem takeFitting_lt {n : Nat} (hn : n < UInt64.size) (cs : List Char) :
    (takeFitting n cs).1 < UInt64.size := by
  induction cs generalizing n with
  | nil => exact hn
  | cons c cs ih =>
    rw [takeFitting]
    split
    · rename_i h
      exact ih h
    · exact hn

theorem Numeral.digits_fitting_lt (n : Numeral) : n.fitting.digits < UInt64.size :=
  takeFitting_lt (takeFitting_lt (by decide) n.whole) n.fraction

/-! ## What is read is finite -/

section Finite

open Magnitude

theorem scaledUp?_lt {bits k b : Nat} (h : scaledUp? bits k = some b) : b < infinityBits := by
  unfold scaledUp? at h
  split at h
  · rw [← Option.some.inj h]
    decide
  · split at h
    · exact absurd h (by simp)
    · dsimp only at h
      split at h
      · rename_i hlt
        exact Option.some.inj h ▸ hlt
      · exact absurd h (by simp)

theorem one_le_powerBits (k : Nat) : 1023 * leadingBit ≤ powerBits k :=
  le_nearestBits one_pos (Nat.pow_pos (by decide))

/-- Dividing by a power of ten makes nothing larger, up to what rounding may add. -/
theorem quotientBits_le {a k m : Nat} (ha : (ofBits a).value < 2 ^ m) :
    quotientBits a (powerBits k) ≤ (m + 1023) * leadingBit := by
  -- a power of ten is one at least, also when it was rounded
  have hpower := one_le_value (one_le_powerBits k)
  have hnum : 0 < (ofBits (powerBits k)).num := by
    refine Nat.pos_of_ne_zero fun hzero ↦ ?_
    rw [← num_div_den, hzero, Nat.cast_zero, zero_div] at hpower
    exact absurd hpower (by norm_num)
  rw [quotientBits]
  refine nearestBits_le (Nat.mul_pos (den_pos _) hnum) ?_
  have hquotient : (((ofBits a).num * (ofBits (powerBits k)).den : Nat) : ℚ) /
      ((ofBits a).den * (ofBits (powerBits k)).num : Nat) =
        (ofBits a).value / (ofBits (powerBits k)).value := by
    rw [← num_div_den, ← num_div_den, div_div_div_eq]
    push_cast
    rfl
  have hvalue : 0 ≤ (ofBits a).value := by
    rw [value]
    positivity
  rw [hquotient]
  exact (div_le_self hvalue hpower).trans_lt ha

theorem scaledDown_lt {digits : Nat} (h : digits < UInt64.size) (k : Nat) :
    scaledDown (nearestBits digits 1) k < infinityBits := by
  have hdigits : ((digits : ℚ) / (1 : Nat)) < 2 ^ 64 := by
    rw [Nat.cast_one, div_one]
    exact_mod_cast h
  have hstart : (ofBits (nearestBits digits 1)).value < 2 ^ 65 :=
    value_lt_of_le (nearestBits_le one_pos hdigits)
  -- there are two divisions at most, and each may round up to the next power of two
  have hroom : ∀ {b : Nat}, b ≤ (66 + 1023) * leadingBit → b < infinityBits := fun hb ↦
    hb.trans_lt (by decide)
  rw [scaledDown]
  split
  · exact hroom ((quotientBits_le hstart).trans (by decide))
  · split
    · exact hroom (quotientBits_le (value_lt_of_le (quotientBits_le hstart)))
    · decide

/-- **What is read is finite.** -/
theorem Numeral.isFinite_of_scaled? {n : Numeral} {x : Number} (h : n.scaled? = some x) :
    x.isFinite = true := by
  obtain ⟨b, hb, rfl⟩ := Option.map_eq_some_iff.mp h
  refine Number.isFinite_ofMagnitudeBits ?_
  split at hb
  · exact scaledUp?_lt hb
  · rw [← Option.some.inj hb]
    exact scaledDown_lt n.digits_fitting_lt _

end Finite

/-! ## Integers are read exactly -/

section Integers

open Magnitude

theorem fitting_ofInt {i : Int} (h : i.natAbs < UInt64.size) :
    (Numeral.ofInt i).fitting = ⟨i.natAbs, 0⟩ := by
  rw [Numeral.fitting, Numeral.ofInt]
  simp only [takeFitting_digitsOf h]
  rfl

/-- Multiplying by one changes nothing. -/
theorem scaledUp?_zero {b : Nat} (h : b < infinityBits) : scaledUp? b 0 = some b := by
  have hone : ofBits (powerBits 0) = ⟨leadingBit, -52⟩ := by decide
  have hproduct : productBits b (powerBits 0) = b := by
    rw [productBits]
    refine nearestBits_of_value (Nat.mul_pos (den_pos _) (den_pos _)) h ?_
    have hvalue : (ofBits (powerBits 0)).value = 1 := by
      rw [hone, value, leadingBit_eq]
      norm_num
    push_cast
    rw [mul_div_mul_comm, num_div_den, num_div_den, hvalue, mul_one]
  rw [scaledUp?]
  split
  · rename_i hzero
    rw [hzero]
  · rw [if_neg (by decide), hproduct]
    exact if_pos h

/-- An integer of sixty-four bits is read as the number nearest to it. -/
theorem Numeral.scaled?_ofInt {i : Int} (h : i.natAbs < UInt64.size) :
    (Numeral.ofInt i).scaled? = some (.ofInt i) := by
  have hvalue : (i.natAbs : ℚ) / (1 : Nat) < 2 ^ 64 := by
    rw [Nat.cast_one, div_one]
    exact_mod_cast h
  have hbits : nearestBits i.natAbs 1 < infinityBits :=
    (nearestBits_le one_pos hvalue).trans_lt (by decide)
  rw [scaled?, fitting_ofInt h]
  dsimp only
  rw [if_pos le_rfl, Int.toNat_zero, scaledUp?_zero hbits]
  rfl

namespace Number

/-- The number without the sign of a zero. -/
def plain (x : Number) : Number := if x.magnitudeBits = 0 then ofMagnitudeBits false 0 else x

theorem toInt?_eq_some {x : Number} {i : Int} (h : x.toInt? = some i) :
    x.isFinite = true ∧ ∃ n : Nat, (ofBits x.magnitudeBits).num = n * (ofBits x.magnitudeBits).den ∧
      i = if x.isNegative then -(n : Int) else n := by
  rw [toInt?] at h
  split at h
  · rename_i hwhole
    rw [Bool.and_eq_true, decide_eq_true_eq] at hwhole
    obtain ⟨n, hn⟩ := Nat.dvd_of_mod_eq_zero hwhole.2
    refine ⟨hwhole.1, n, hn.trans (mul_comm _ _), ?_⟩
    rw [← Option.some.inj h, hn, Nat.mul_div_cancel_left n (den_pos _)]
  · exact absurd h (by simp)

/-- **A whole number is the number nearest to its integer**, up to the sign of zero. -/
theorem ofInt_of_toInt? {x : Number} {i : Int} (h : x.toInt? = some i) : ofInt i = x.plain := by
  obtain ⟨hfinite, n, hn, hsign⟩ := toInt?_eq_some h
  have hb : x.magnitudeBits < infinityBits := of_decide_eq_true hfinite
  have habs : i.natAbs = n := by
    rw [hsign]
    split <;> simp
  have hvalue : (n : ℚ) / (1 : Nat) = (ofBits x.magnitudeBits).value := by
    have hden : ((ofBits x.magnitudeBits).den : ℚ) ≠ 0 := by exact_mod_cast (den_pos _).ne'
    rw [← num_div_den, hn, Nat.cast_one, div_one]
    push_cast
    rw [mul_div_cancel_right₀ _ hden]
  have hbits : nearestBits n 1 = x.magnitudeBits := nearestBits_of_value one_pos hb hvalue
  rw [Nat.cast_one, div_one] at hvalue
  rw [ofInt, habs, hbits, plain]
  split
  · -- a zero has lost its sign
    rename_i hzero
    have hn₀ : n = 0 := by
      rw [hzero, value_zero] at hvalue
      exact_mod_cast hvalue
    have hi₀ : i = 0 := by
      rw [hsign, hn₀]
      split <;> rfl
    rw [hi₀, hzero]
    rfl
  · -- the sign of any other number is the one of its integer
    rename_i hzero
    have hn₀ : 0 < n := by
      have hpos := value_pos (Nat.pos_of_ne_zero hzero)
      rw [← hvalue] at hpos
      exact_mod_cast hpos
    have hneg : decide (i < 0) = x.isNegative := by
      rw [hsign]
      cases x.isNegative with
      | true => exact decide_eq_true (by simp only [if_true]; omega)
      | false => exact decide_eq_false (by simp only [Bool.false_eq_true, if_false]; omega)
    rw [hneg, ofMagnitudeBits_magnitudeBits hfinite]

end Number

end Integers

end Tabletop
