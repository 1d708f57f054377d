namespace Calculator.Integer

def narrow? (n : Int) : Option Int64 :=
  if Int64.minValue.toInt ≤ n ∧ n ≤ Int64.maxValue.toInt then some (Int64.ofInt n) else none

theorem narrow?_eq_some_iff {n : Int} {w : Int64} : narrow? n = some w ↔ w.toInt = n := by
  unfold narrow?
  rw [Int64.toInt_minValue, Int64.toInt_maxValue]
  constructor
  · intro h
    split at h
    case isTrue hn =>
      cases h
      exact Int64.toInt_ofInt_of_le hn.1 (Int.lt_of_le_sub_one hn.2)
    case isFalse => cases h
  · rintro rfl
    rw [if_pos ⟨w.le_toInt, Int.le_sub_one_of_lt w.toInt_lt⟩, Int64.ofInt_toInt]

theorem narrow?_toInt (w : Int64) : narrow? w.toInt = some w := narrow?_eq_some_iff.2 rfl

theorem narrow?_eq_none_iff {n : Int} :
    narrow? n = none ↔ n < Int64.minValue.toInt ∨ Int64.maxValue.toInt < n := by
  unfold narrow?
  split
  case isTrue h =>
    simp only [reduceCtorEq, false_iff, not_or]
    exact ⟨Int.not_lt.2 h.1, Int.not_lt.2 h.2⟩
  case isFalse h =>
    simp only [true_iff]
    by_cases hl : Int64.minValue.toInt ≤ n
    · exact .inr (Int.not_le.1 fun hu => h ⟨hl, hu⟩)
    · exact .inl (Int.not_le.1 hl)

/-- An exponent of the same parity that is never large. From 64 on only the parity
matters: the bases whose powers still fit are 0, 1 and -1. -/
def settle (e : Nat) : Nat := if e < 64 then e else 64 + e % 2

def pow? (b e : Int64) : Option Int64 :=
  if 0 ≤ e.toInt ∧ e.toInt ≤ 0xffffffff then narrow? (Int.pow b.toInt (settle e.toInt.toNat)) else none

theorem settle_mod_two (e : Nat) : settle e % 2 = e % 2 := by
  unfold settle
  split <;> omega

theorem neg_one_pow_congr {e f : Nat} (h : e % 2 = f % 2) : Int.pow (-1) e = Int.pow (-1) f := by
  have hpow : ∀ n : Nat, Int.pow (-1) n = (-1) ^ (n % 2) := by
    intro n
    change (-1) ^ n = _
    conv => lhs; rw [← Nat.div_add_mod n 2, Int.pow_add, Int.pow_mul]
    rw [show ((-1 : Int) ^ 2) = 1 from rfl, Int.one_pow, Int.one_mul]
  rw [hpow, hpow, h]

theorem narrow?_pow_eq_none {b : Int} {e : Nat} (hb : 2 ≤ b.natAbs) (he : 64 ≤ e) :
    narrow? (Int.pow b e) = none := by
  have h : 2 ^ 64 ≤ (b ^ e).natAbs := by
    rw [Int.natAbs_pow]
    exact Nat.le_trans (Nat.pow_le_pow_right (by decide) he) (Nat.pow_le_pow_left hb e)
  rw [narrow?_eq_none_iff, Int64.toInt_minValue, Int64.toInt_maxValue]
  change b ^ e < _ ∨ _ < b ^ e
  omega

theorem narrow?_pow_settle (b : Int) (e : Nat) :
    narrow? (Int.pow b (settle e)) = narrow? (Int.pow b e) := by
  by_cases he : e < 64
  · rw [settle, if_pos he]
  · have hs : 64 ≤ settle e := by
      rw [settle, if_neg he]
      omega
    by_cases hb : 2 ≤ b.natAbs
    · rw [narrow?_pow_eq_none hb hs, narrow?_pow_eq_none hb (by omega)]
    · have hb : b = 0 ∨ b = 1 ∨ b = -1 := by omega
      rcases hb with rfl | rfl | rfl
      · exact congrArg narrow? ((Int.zero_pow (by omega)).trans (Int.zero_pow (by omega)).symm)
      · exact congrArg narrow? (Int.one_pow.trans Int.one_pow.symm)
      · rw [neg_one_pow_congr (settle_mod_two e)]

end Calculator.Integer
