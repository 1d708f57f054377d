import Calculator.Proofs.Operation

namespace Calculator

def Integer.Fits (n : Int) : Prop := -0x8000000000000000 ≤ n ∧ n ≤ 0x7fffffffffffffff

/-- The result over the unbounded integers. There is none for a quotient, and for a power
only with exponents from zero on. -/
def Operator.exactInt? : Operator → Int → Int → Option Int
  | add, a, b => some (a + b)
  | sub, a, b => some (a - b)
  | mul, a, b => some (a * b)
  | pow, a, b => if 0 ≤ b then some (Int.pow a b.toNat) else none
  | div, _, _ => none

theorem fits_toInt (n : Int64) : Integer.Fits n.toInt := ⟨n.le_toInt, Int.le_of_lt_add_one n.toInt_lt⟩

theorem exists_toInt_eq {n : Int} (h : Integer.Fits n) : ∃ w : Int64, w.toInt = n :=
  ⟨Int64.ofInt n, Int64.toInt_ofInt_of_le h.1 (Int.lt_add_one_of_le h.2)⟩

theorem pow?_eq_some_iff {b e n : Int64} :
    Integer.pow? b e = some n ↔ (0 ≤ e.toInt ∧ e.toInt ≤ 0xffffffff) ∧ Int.pow b.toInt e.toInt.toNat = n.toInt := by
  rw [Integer.pow?]
  split
  next he => rw [Integer.narrow?_pow_settle, Integer.narrow?_eq_some_iff, eq_comm, and_iff_right he]
  next he =>
    constructor
    · intro h
      cases h
    · rintro ⟨h, _⟩
      exact absurd h he

theorem onIntegers?_eq_some_iff {op : Operator} {a b n : Int64} :
    op.onIntegers? a b = some n ↔ op ≠ .pow ∧ op.exactInt? a.toInt b.toInt = some n.toInt := by
  cases op with
  | add | sub | mul =>
      rw [Operator.onIntegers?, Integer.narrow?_eq_some_iff, Operator.exactInt?, Option.some.injEq, eq_comm]
      exact (and_iff_right nofun).symm
  | div => exact ⟨nofun, nofun⟩
  | pow => exact ⟨nofun, fun h => absurd rfl h.1⟩

theorem getD_eq_integer_iff {x : Option Int64} {y : Float} {n : Int64} :
    (x.map Value.integer).getD (.real y) = .integer n ↔ x = some n := by
  cases x with
  | none => exact ⟨nofun, nofun⟩
  | some m =>
      constructor
      · intro h
        exact congrArg some (Value.integer.inj h)
      · intro h
        exact congrArg Value.integer (Option.some.inj h)

/-- Work on integers that falls back to reals yields an integer only from two integers. -/
theorem fallback_eq_integer_iff (F : Value → Value → Value) (f : Int64 → Int64 → Option Int64) (op : Operator)
    (hii : ∀ a b, F (.integer a) (.integer b) =
      ((f a b).map Value.integer).getD (Value.onReals op (.integer a) (.integer b)))
    (hir : ∀ a y, F (.integer a) (.real y) = Value.onReals op (.integer a) (.real y))
    (hr : ∀ x right, F (.real x) right = Value.onReals op (.real x) right) {left right : Value} {n : Int64} :
    F left right = .integer n ↔ ∃ a b, left = .integer a ∧ right = .integer b ∧ f a b = some n := by
  constructor
  · intro h
    cases left with
    | integer a =>
        cases right with
        | integer b =>
            rw [hii] at h
            exact ⟨a, b, rfl, rfl, getD_eq_integer_iff.1 h⟩
        | real y =>
            rw [hir] at h
            cases h
    | real x =>
        rw [hr] at h
        cases h
  · rintro ⟨a, b, rfl, rfl, h⟩
    rw [hii]
    exact getD_eq_integer_iff.2 h

theorem scalar_eq_integer_iff {op : Operator} {left right : Value} {n : Int64} :
    Value.scalar op left right = .integer n ↔
      ∃ a b, left = .integer a ∧ right = .integer b ∧ op.onIntegers? a b = some n :=
  fallback_eq_integer_iff (Value.scalar op) op.onIntegers? op (fun _ _ => rfl) (fun _ _ => rfl) fun _ _ => rfl

theorem pow_eq_integer_iff {base exponent : Value} {n : Int64} :
    Value.pow base exponent = .integer n ↔
      ∃ b e, base = .integer b ∧ exponent = .integer e ∧ Integer.pow? b e = some n :=
  fallback_eq_integer_iff Value.pow Integer.pow? .pow (fun _ _ => rfl) (fun _ _ => rfl) fun _ _ => rfl

theorem scalar?_eq_integer_iff {op : Operator} {left right : Value} {offset : Nat} {n : Int64} :
    Value.scalar? op left right offset = .ok (.integer n) ↔ Value.scalar op left right = .integer n := by
  rw [Value.scalar?]
  split
  next hd =>
    constructor
    · intro h
      cases h
    · intro h
      obtain ⟨a, b, _, _, hn⟩ := scalar_eq_integer_iff.1 h
      rw [hd.1] at hn
      cases hn
  next => rw [Except.ok.injEq]

def Operator.Exact (op : Operator) (a b n : Int64) : Prop :=
  op.exactInt? a.toInt b.toInt = some n.toInt ∧ (op = .pow → 0 ≤ b.toInt ∧ b.toInt ≤ 0xffffffff)

theorem Operator.exact_pow_iff {a b n : Int64} : pow.Exact a b n ↔ Integer.pow? a b = some n := by
  rw [Exact, pow?_eq_some_iff, exactInt?]
  constructor
  · rintro ⟨h, hb⟩
    rw [if_pos (hb rfl).1] at h
    exact ⟨hb rfl, Option.some.inj h⟩
  · rintro ⟨hb, h⟩
    rw [if_pos hb.1, h]
    exact ⟨rfl, fun _ => hb⟩

theorem Operator.exact_iff_of_ne_pow {op : Operator} (ho : op ≠ .pow) {a b n : Int64} :
    op.Exact a b n ↔ op.onIntegers? a b = some n := by
  rw [Exact, onIntegers?_eq_some_iff]
  constructor
  · rintro ⟨h, _⟩
    exact ⟨ho, h⟩
  · rintro ⟨_, h⟩
    exact ⟨h, fun hp => absurd hp ho⟩

theorem apply_eq_integer_iff {op : Operator} {left right : Value} {offset : Nat} {n : Int64} :
    Value.apply op left right offset = .ok (.integer n) ↔
      ∃ a b, left = .integer a ∧ right = .integer b ∧ op.Exact a b n := by
  by_cases ho : op = .pow
  · subst ho
    simp only [Operator.exact_pow_iff, ← pow_eq_integer_iff]
    exact ⟨Except.ok.inj, congrArg Except.ok⟩
  · simp only [apply_of_ne_pow ho, scalar?_eq_integer_iff, scalar_eq_integer_iff, Operator.exact_iff_of_ne_pow ho]

theorem operate_eq_integer_iff {op : Operator} {left right : Value} {offset : Nat} {n : Int64} :
    operate op left right offset = .ok (.integer n) ↔
      ∃ a b, left = .integer a ∧ right = .integer b ∧ op.Exact a b n := by
  rw [operate_eq_ok_iff, ← apply_eq_integer_iff]
  exact and_iff_left rfl

end Calculator
