import LedgerQuery.Numeral.Binary64
import Mathlib.Tactic.Linarith

/-!
# Quotients that are not too large

A quotient of integers lies beyond the floating point numbers only when its
numerator has many more binary digits than its denominator.  Here the exponent
stays so far below the greatest one that the significand needs no exact bound.
-/

namespace LedgerQuery.Numeral.Binary64

theorem toNat_bits_ofParts
    {magnitude : Nat} (small : magnitude < 1 <<< 63) (negative : Bool) :
    (ofParts negative magnitude).bits.toNat =
      (if negative then 9223372036854775808 else 0) + magnitude := by
  rw [ofParts, UInt64.toNat_ofNat']
  apply Nat.mod_eq_of_lt
  have bound : magnitude < 9223372036854775808 := small
  cases negative <;> simp <;> omega

/-- A magnitude below the greatest exponent does not stand for an infinity. -/
theorem reading_ofParts_ne_infinite
    {magnitude : Nat} (small : magnitude < 2047 <<< 52) (negative sign : Bool) :
    (ofParts negative magnitude).reading ≠ .infinite sign := by
  have bound : magnitude < 9218868437227405312 := small
  have fits : magnitude < 1 <<< 63 := Nat.lt_trans bound (by decide)
  have exponent : ¬(ofParts negative magnitude).bits.toNat / (1 <<< 52) % (1 <<< 11) = 2047 := by
    rw [toNat_bits_ofParts fits]
    show ¬_ / 4503599627370496 % 2048 = 2047
    cases negative <;> simp <;> omega
  rw [reading, if_neg exponent]
  split <;> exact Reading.noConfusion

theorem roundHalfEven_le (numerator denominator : Nat) :
    roundHalfEven numerator denominator ≤ numerator / denominator + 1 := by
  rw [roundHalfEven]
  split
  · omega
  · split
    · exact Nat.le_refl _
    · omega

theorem scaled_of_nonneg
    {exponent : Int} (nonneg : 0 ≤ exponent) (numerator denominator : Nat) :
    scaled numerator denominator exponent = (numerator <<< exponent.toNat, denominator) := by
  rcases Int.eq_ofNat_of_zero_le nonneg with ⟨e, rfl⟩
  rfl

/-- Scaling a quotient to some fifty binary digits leaves it below as many digits. -/
theorem scaled_div_lt
    {numerator denominator places : Nat} (positive : denominator ≠ 0)
    (few : numerator.log2 + places ≤ denominator.log2 + 53) :
    (numerator <<< places) / denominator < Nat.pow 2 54 := by
  have upper : numerator < 2 ^ (numerator.log2 + 1) := Nat.lt_log2_self
  have lower : 2 ^ denominator.log2 ≤ denominator := Nat.log2_self_le positive
  rw [Nat.div_lt_iff_lt_mul (Nat.pos_of_ne_zero positive), Nat.shiftLeft_eq]
  calc
    numerator * 2 ^ places < 2 ^ (numerator.log2 + 1) * 2 ^ places :=
      Nat.mul_lt_mul_of_pos_right upper (Nat.two_pow_pos places)
    _ = 2 ^ (numerator.log2 + places + 1) := by
      rw [← Nat.pow_add, Nat.add_right_comm]
    _ ≤ 2 ^ (54 + denominator.log2) := Nat.pow_le_pow_right (by decide) (by omega)
    _ = Nat.pow 2 54 * 2 ^ denominator.log2 := Nat.pow_add 2 54 _
    _ ≤ Nat.pow 2 54 * denominator := Nat.mul_le_mul_left _ lower

theorem reading_ofRatio_ne_infinite
    {numerator denominator : Nat} (fits : numerator.log2 ≤ denominator.log2 + 52)
    (negative sign : Bool) :
    (ofRatio negative numerator denominator).reading ≠ .infinite sign := by
  rw [ofRatio]
  split
  · exact reading_ofParts_ne_infinite (by decide) negative sign
  · next nonzero =>
    dsimp only
    generalize guessed : (numerator.log2 : Int) - denominator.log2 - 52 = guess
    generalize chosen : (if (scaled numerator denominator (-guess)).1 <
      (scaled numerator denominator (-guess)).2 <<< 52 then guess - 1 else guess) = fitted
    have near : guess - 1 ≤ fitted ∧ fitted ≤ guess := by
      split at chosen <;> omega
    generalize greater : max fitted (-1074) = exponent
    have range : exponent ≤ 0 ∧ (numerator.log2 : Int) - denominator.log2 - 53 ≤ exponent := by
      omega
    rw [scaled_of_nonneg (by omega : 0 ≤ -exponent)]
    dsimp only
    have few : numerator.log2 + (-exponent).toNat ≤ denominator.log2 + 53 := by omega
    have small := scaled_div_lt (fun zero => nonzero (Or.inr zero)) few
    have rounded := roundHalfEven_le (numerator <<< (-exponent).toNat) denominator
    generalize roundHalfEven (numerator <<< (-exponent).toNat) denominator = rough at rounded ⊢
    generalize carried : (if rough = 1 <<< 53 then (1 <<< 52, exponent + 1)
      else (rough, exponent)) = parts
    rcases parts with ⟨significand, shifted⟩
    have bounds : significand ≤ 18014398509481984 ∧ shifted ≤ 1 := by
      have limit : Nat.pow 2 54 = 18014398509481984 := rfl
      split at carried
      · cases carried
        exact ⟨by decide, by omega⟩
      · cases carried
        omega
    dsimp only
    rw [if_neg (by omega)]
    split
    · next tiny =>
      exact reading_ofParts_ne_infinite (Nat.lt_trans tiny (by decide)) negative sign
    · apply reading_ofParts_ne_infinite
      have shift : (shifted + 1075).toNat <<< 52 = (shifted + 1075).toNat * 4503599627370496 :=
        Nat.shiftLeft_eq _ 52
      have low : (1 : Nat) <<< 52 = 4503599627370496 := rfl
      have top : 2047 <<< 52 = 9218868437227405312 := rfl
      rw [shift, low, top]
      omega

/-- A quotient whose numerator has at most fifty-two binary digits more than its denominator lies
within the floating point numbers. -/
theorem exists_quotient?
    {numerator denominator : Int} (nonzero : denominator ≠ 0)
    (fits : numerator.natAbs.log2 ≤ denominator.natAbs.log2 + 52) :
    ∃ x, quotient? numerator denominator = some x := by
  rw [quotient?, if_neg nonzero]
  have finite := reading_ofRatio_ne_infinite fits ((numerator < 0) != (denominator < 0))
  dsimp only
  generalize ofRatio _ numerator.natAbs denominator.natAbs = x at finite ⊢
  refine ⟨x, if_neg ?_⟩
  cases read : x.reading with
  | nan => exact Bool.false_ne_true
  | infinite sign => exact absurd read (finite sign)
  | finite negative significand exponent => exact Bool.false_ne_true

end LedgerQuery.Numeral.Binary64
