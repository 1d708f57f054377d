import Calculator.Proofs.Grammar
import Calculator.Proofs.IntegerOperation

namespace Calculator

namespace Expression

def exactInt? : Expression → Option Int
  | number n _ => some n.toInt
  | group _ e _ => e.exactInt?
  | binary op _ left right => do op.exactInt? (← left.exactInt?) (← right.exactInt?)

def subtrees : Expression → List Expression
  | number n offset => [number n offset]
  | group start e stop => group start e stop :: e.subtrees
  | binary op offset left right => binary op offset left right :: (left.subtrees ++ right.subtrees)

/-- Exact work on 64-bit numbers gets through to the end, with exponents of 32 bits. -/
structure StaysInteger (e : Expression) : Prop where
  no_quotient : ∀ t ∈ e.lexemes, t.token ≠ .operator .div
  within : ∀ s ∈ e.subtrees, ∃ m, s.exactInt? = some m ∧ Integer.Fits m
  exponent_within : ∀ offset base exponent, binary .pow offset base exponent ∈ e.subtrees →
    ∃ m, exponent.exactInt? = some m ∧ 0 ≤ m ∧ m ≤ 0xffffffff

theorem mem_subtrees_self (e : Expression) : e ∈ e.subtrees := by
  cases e with
  | number => exact List.mem_singleton_self _
  | group | binary => exact List.mem_cons_self ..

theorem staysInteger_number (n : Int64) (offset : Nat) : (number n offset).StaysInteger := by
  constructor
  · intro t ht
    rw [List.mem_singleton.1 ht]
    exact Token.noConfusion
  · intro s hs
    rw [List.mem_singleton.1 hs]
    exact ⟨n.toInt, rfl, fits_toInt n⟩
  · intro offset base exponent hs
    cases List.mem_singleton.1 hs

theorem StaysInteger.of_subset {e s : Expression} (h : e.StaysInteger) (hl : ∀ t ∈ s.lexemes, t ∈ e.lexemes)
    (hs : ∀ r ∈ s.subtrees, r ∈ e.subtrees) : s.StaysInteger := by
  constructor
  · intro t ht
    exact h.no_quotient t (hl t ht)
  · intro r hr
    exact h.within r (hs r hr)
  · intro offset base exponent hr
    exact h.exponent_within offset base exponent (hs _ hr)

theorem staysInteger_group_iff {start stop : Nat} {e : Expression} :
    (group start e stop).StaysInteger ↔ e.StaysInteger := by
  constructor
  · intro h
    apply h.of_subset
    · intro t ht
      exact List.mem_cons_of_mem _ (List.mem_append_left _ ht)
    · intro s hs
      exact List.mem_cons_of_mem _ hs
  · intro h
    constructor
    · intro t ht
      simp only [lexemes, List.cons_append, List.mem_cons, List.mem_append, List.not_mem_nil, or_false] at ht
      rcases ht with rfl | ht | rfl
      · exact Token.noConfusion
      · exact h.no_quotient t ht
      · exact Token.noConfusion
    · intro s hs
      rcases List.mem_cons.1 hs with rfl | hs
      · exact h.within e e.mem_subtrees_self
      · exact h.within s hs
    · intro offset base exponent hs
      rcases List.mem_cons.1 hs with hs | hs
      · cases hs
      · exact h.exponent_within offset base exponent hs

section Binary

variable {op : Operator} {offset : Nat} {left right : Expression}

theorem exactInt?_binary_eq_some_iff {n : Int} :
    (binary op offset left right).exactInt? = some n ↔
      ∃ a, left.exactInt? = some a ∧ ∃ b, right.exactInt? = some b ∧ op.exactInt? a b = some n := by
  rw [exactInt?]
  simp only [Option.bind_eq_bind, Option.bind_eq_some_iff]

theorem mem_subtrees_binary {s : Expression} :
    s ∈ (binary op offset left right).subtrees ↔
      s = binary op offset left right ∨ s ∈ left.subtrees ∨ s ∈ right.subtrees := by
  rw [subtrees, List.mem_cons, List.mem_append]

theorem mem_lexemes_binary {t : Lexeme} :
    t ∈ (binary op offset left right).lexemes ↔
      t ∈ left.lexemes ∨ t = ⟨.operator op, offset⟩ ∨ t ∈ right.lexemes := by
  rw [lexemes, List.mem_append, List.mem_cons]

theorem StaysInteger.binary_left (h : (binary op offset left right).StaysInteger) : left.StaysInteger := by
  apply h.of_subset
  · intro t ht
    exact mem_lexemes_binary.2 (.inl ht)
  · intro s hs
    exact mem_subtrees_binary.2 (.inr (.inl hs))

theorem StaysInteger.binary_right (h : (binary op offset left right).StaysInteger) : right.StaysInteger := by
  apply h.of_subset
  · intro t ht
    exact mem_lexemes_binary.2 (.inr (.inr ht))
  · intro s hs
    exact mem_subtrees_binary.2 (.inr (.inr hs))

theorem StaysInteger.binary {m : Int} (hl : left.StaysInteger) (hr : right.StaysInteger)
    (hm : (binary op offset left right).exactInt? = some m) (hf : Integer.Fits m)
    (hp : op = .pow → ∃ b, right.exactInt? = some b ∧ 0 ≤ b ∧ b ≤ 0xffffffff) :
    (binary op offset left right).StaysInteger := by
  constructor
  · intro t ht
    rcases mem_lexemes_binary.1 ht with ht | rfl | ht
    · exact hl.no_quotient t ht
    · intro ho
      cases ho
      obtain ⟨a, _, b, _, hn⟩ := exactInt?_binary_eq_some_iff.1 hm
      cases hn
    · exact hr.no_quotient t ht
  · intro s hs
    rcases mem_subtrees_binary.1 hs with rfl | hs | hs
    · exact ⟨m, hm, hf⟩
    · exact hl.within s hs
    · exact hr.within s hs
  · intro offset base exponent hs
    rcases mem_subtrees_binary.1 hs with hs | hs | hs
    · cases hs
      exact hp rfl
    · exact hl.exponent_within offset base exponent hs
    · exact hr.exponent_within offset base exponent hs

end Binary

theorem StaysInteger.exists_exactInt?_eq {e : Expression} (h : e.StaysInteger) :
    ∃ n : Int64, e.exactInt? = some n.toInt := by
  obtain ⟨m, hm, hf⟩ := h.within e e.mem_subtrees_self
  obtain ⟨n, rfl⟩ := exists_toInt_eq hf
  exact ⟨n, hm⟩

/-- By induction over the tree: at each node exact work on words is exact work on integers. -/
theorem value_eq_integer_iff {e : Expression} {n : Int64} :
    e.value = .ok (.integer n) ↔ e.StaysInteger ∧ e.exactInt? = some n.toInt := by
  induction e generalizing n with
  | number m offset =>
      rw [and_iff_right (staysInteger_number m offset), value, exactInt?, Except.ok.injEq, Value.integer.injEq,
        Option.some.injEq, Int64.toInt_inj]
  | group start e stop ih =>
      rw [staysInteger_group_iff]
      exact ih
  | binary op offset left right ihl ihr =>
      rw [value]
      simp only [bind_eq_ok_iff, operate_eq_integer_iff]
      constructor
      · rintro ⟨_, hl, _, hr, a, b, rfl, rfl, hn, hp⟩
        obtain ⟨hsl, ha⟩ := ihl.1 hl
        obtain ⟨hsr, hb⟩ := ihr.1 hr
        have he : (binary op offset left right).exactInt? = some n.toInt :=
          exactInt?_binary_eq_some_iff.2 ⟨_, ha, _, hb, hn⟩
        exact ⟨hsl.binary hsr he (fits_toInt n) fun ho => ⟨_, hb, hp ho⟩, he⟩
      · rintro ⟨hs, he⟩
        obtain ⟨a, ha⟩ := hs.binary_left.exists_exactInt?_eq
        obtain ⟨b, hb⟩ := hs.binary_right.exists_exactInt?_eq
        obtain ⟨x, hx, y, hy, hn⟩ := exactInt?_binary_eq_some_iff.1 he
        obtain rfl : x = a.toInt := Option.some.inj (hx.symm.trans ha)
        obtain rfl : y = b.toInt := Option.some.inj (hy.symm.trans hb)
        refine ⟨_, ihl.2 ⟨hs.binary_left, ha⟩, _, ihr.2 ⟨hs.binary_right, hb⟩, a, b, rfl, rfl, hn, ?_⟩
        rintro rfl
        obtain ⟨m, hm, hr⟩ := hs.exponent_within offset left right (mem_subtrees_self _)
        rw [Option.some.inj (hb.symm.trans hm)]
        exact hr

theorem value_subtree_of_value_eq_integer {e s : Expression} {n : Int64} (h : e.value = .ok (.integer n))
    (hs : s ∈ e.subtrees) : ∃ m, s.value = .ok (.integer m) := by
  induction e generalizing n with
  | number k offset =>
      rw [List.mem_singleton.1 hs]
      exact ⟨n, h⟩
  | group start e stop ih =>
      rcases List.mem_cons.1 hs with rfl | hs
      · exact ⟨n, h⟩
      · exact ih h hs
  | binary op offset left right ihl ihr =>
      have hv := h
      rw [value] at hv
      simp only [bind_eq_ok_iff, operate_eq_integer_iff] at hv
      obtain ⟨_, hl, _, hr, a, b, rfl, rfl, _⟩ := hv
      rcases mem_subtrees_binary.1 hs with rfl | hs | hs
      · exact ⟨n, h⟩
      · exact ihl hl hs
      · exact ihr hr hs

end Expression

/-- A value that is an integer is the exact one, and nothing on the way to it was real. -/
theorem value_eq_integer_iff_exact (ts : List Lexeme) (n : Int64) :
    (value ts = .ok (.integer n) ↔
      ∃ e : Expression, e.WellFormed ∧ e.lexemes = ts ∧ e.StaysInteger ∧ e.exactInt? = some n.toInt) ∧
    ∀ e : Expression, e.WellFormed → e.lexemes = ts → ∀ s ∈ e.subtrees, ∀ x, s.value = .ok (.real x) →
      value ts ≠ .ok (.integer n) := by
  constructor
  · constructor
    · intro h
      obtain ⟨e, hw, he, hv⟩ := Expression.exists_reads h
      exact ⟨e, hw, he, Expression.value_eq_integer_iff.1 hv⟩
    · rintro ⟨e, hw, rfl, he⟩
      rw [Expression.value_lexemes hw]
      exact Expression.value_eq_integer_iff.2 he
  · rintro e hw rfl s hs x hx h
    rw [Expression.value_lexemes hw] at h
    obtain ⟨m, hm⟩ := Expression.value_subtree_of_value_eq_integer h hs
    rw [hx] at hm
    cases hm

end Calculator
