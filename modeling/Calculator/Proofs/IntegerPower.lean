import Calculator.Proofs.IntegerOperation
import Mathlib.Tactic.ByContra

namespace Calculator

namespace Integer

variable {b e n : Int64}

def power (b e : Int64) : Int := Int.pow b.toInt e.toInt.toNat

/-- What is asked of a power: it is exact wherever the exact power has a 64-bit form, and a real only elsewhere. -/
structure ExactPower (b e : Int64) : Prop where
  exact_of_fits : 0 ≤ e.toInt → Fits (power b e) →
    ∃ n : Int64, n.toInt = power b e ∧ Value.pow (.integer b) (.integer e) = .integer n
  not_fits_of_real : ∀ x, Value.pow (.integer b) (.integer e) = .real x → e.toInt < 0 ∨ ¬ Fits (power b e)

theorem pow_eq_integer_iff_power :
    Value.pow (.integer b) (.integer e) = .integer n ↔
      (0 ≤ e.toInt ∧ e.toInt ≤ 0xffffffff) ∧ power b e = n.toInt := by
  rw [pow_eq_integer_iff]
  constructor
  · rintro ⟨_, _, hb, he, h⟩
    cases hb
    cases he
    exact pow?_eq_some_iff.1 h
  · intro h
    exact ⟨b, e, rfl, rfl, pow?_eq_some_iff.2 h⟩

theorem exists_pow_eq_real (he : 0xffffffff < e.toInt) : ∃ x, Value.pow (.integer b) (.integer e) = .real x := by
  cases h : Value.pow (.integer b) (.integer e) with
  | integer n =>
      have hle := (pow_eq_integer_iff_power.1 h).1.2
      omega
  | real x => exact ⟨x, rfl⟩

theorem exactPower_of_fits
    (h : 0 ≤ e.toInt → Fits (power b e) →
      ∃ n : Int64, n.toInt = power b e ∧ Value.pow (.integer b) (.integer e) = .integer n) : ExactPower b e := by
  refine ⟨h, ?_⟩
  intro x hx
  rcases Int.lt_or_le e.toInt 0 with hneg | h0
  · exact .inl hneg
  · right
    intro hf
    obtain ⟨n, _, hn⟩ := h h0 hf
    rw [hx] at hn
    cases hn

theorem exactPower_of_le (he : e.toInt ≤ 0xffffffff) : ExactPower b e := by
  apply exactPower_of_fits
  intro h0 hf
  obtain ⟨n, hn⟩ := exists_toInt_eq hf
  exact ⟨n, hn, pow_eq_integer_iff_power.2 ⟨⟨h0, he⟩, hn.symm⟩⟩

theorem not_fits_power (hb : 2 ≤ b.toInt.natAbs) (he : 64 ≤ e.toInt) : ¬ Fits (power b e) := by
  intro hf
  obtain ⟨n, hn⟩ := exists_toInt_eq hf
  have hnone : narrow? (power b e) = none := narrow?_pow_eq_none hb (by omega)
  rw [← hn, narrow?_toInt] at hnone
  cases hnone

theorem fits_power (hb : b.toInt.natAbs ≤ 1) : Fits (power b e) := by
  have h : (power b e).natAbs ≤ 1 := by
    change (b.toInt ^ e.toInt.toNat).natAbs ≤ 1
    rw [Int.natAbs_pow, ← Nat.one_pow e.toInt.toNat]
    exact Nat.pow_le_pow_left hb _
  constructor <;> omega

end Integer

open Integer

/-- The exponents that are too large for the exact path matter only to the three bases that have small powers there. -/
theorem exactPower_iff (b e : Int64) :
    ExactPower b e ↔ e.toInt ≤ 0xffffffff ∨ b.toInt ≠ -1 ∧ b.toInt ≠ 0 ∧ b.toInt ≠ 1 := by
  constructor
  · intro h
    by_contra hcon
    have he : 0xffffffff < e.toInt := by omega
    obtain ⟨x, hx⟩ := exists_pow_eq_real (b := b) he
    rcases h.not_fits_of_real x hx with hneg | hf
    · omega
    · exact hf (fits_power (by omega))
  · rintro (he | hb)
    · exact exactPower_of_le he
    · by_cases he : e.toInt ≤ 0xffffffff
      · exact exactPower_of_le he
      · have hf := not_fits_power (b := b) (e := e) (by omega) (by omega)
        exact exactPower_of_fits fun _ h => absurd h hf

theorem not_exactPower_neg_one :
    power (-1) 9007199254740993 = -1 ∧
      (∃ x, Value.pow (.integer (-1)) (.integer 9007199254740993) = .real x) ∧ ¬ ExactPower (-1) 9007199254740993 := by
  have hpow : power (-1) 9007199254740993 = -1 := neg_one_pow_congr (f := 1) (by decide)
  have hreal : ∃ x, Value.pow (.integer (-1)) (.integer 9007199254740993) = .real x := exists_pow_eq_real (by decide)
  refine ⟨hpow, hreal, ?_⟩
  intro h
  obtain ⟨x, hx⟩ := hreal
  rcases h.not_fits_of_real x hx with hneg | hf
  · exact absurd hneg (by decide)
  · exact hf (fits_power (by decide))

end Calculator
