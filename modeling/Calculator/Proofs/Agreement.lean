import Calculator.Proofs.BinaryRecursion
import Mathlib.Control.Monad.Basic

namespace Calculator

/-- Results that differ at most in how they call an operator without a left operand. -/
inductive Agrees : Except Fault Value → Except Fault Value → Prop
  | same (x : Except Fault Value) : Agrees x x
  | leading (op : Operator) (offset : Nat) :
      Agrees (.error (.leadingOperator op offset)) (.error (.unexpectedToken (.operator op) offset))

theorem Agrees.bind {x y : Except Fault Value} {f g : Value → Except Fault Value} (h : Agrees x y)
    (hf : ∀ v, Agrees (f v) (g v)) : Agrees (x >>= f) (y >>= g) := by
  cases h with
  | same =>
      cases x with
      | ok v => exact hf v
      | error e => exact .same _
  | leading op offset => exact .leading op offset

theorem eq_singleton_of_first_eq_nil {ts : List Lexeme} {l : Link} {ls : List Link}
    (h : Chain.ofLexemes ts = ⟨[], l :: ls⟩) (hlen : ¬ 2 ≤ ts.length) : ts = [l.head] := by
  have ht := Chain.lexemes_ofLexemes ts
  rw [h, Chain.lexemes, List.nil_append, List.flatMap_cons, Link.lexemes, List.cons_append] at ht
  rw [← ht, List.length_cons] at hlen
  have hrest : l.operand ++ ls.flatMap Link.lexemes = [] := List.length_eq_zero_iff.1 (by omega)
  rw [← ht, hrest]

namespace Cut.LastWeakest

variable {c : Cut}

theorem value_of_left_eq_nil (h : c.LastWeakest) (hi : inner? c.lexemes = none) (hl : c.left = [])
    (hlen : 2 ≤ c.lexemes.length) :
    value c.lexemes = .error (.leadingOperator c.link.op c.link.offset) := by
  have hm : c.rank ∉ ranks 0 c.left := by
    rw [hl]
    exact List.not_mem_nil
  have hc := h.ofLexemes_of_not_mem hm
  rw [hl] at hc
  exact value_of_first_eq_nil hi hc hlen

theorem value_left_of_first_eq_nil (h : c.LastWeakest) (hi : inner? c.lexemes = none) (hl : c.left ≠ [])
    (hf : (Chain.ofLexemes c.lexemes).first = []) :
    ∃ op offset, value c.lexemes = .error (.leadingOperator op offset) ∧
      (value c.left = .error (.leadingOperator op offset) ∨
        value c.left = .error (.unexpectedToken (.operator op) offset)) := by
  have hm : c.rank ∈ ranks 0 c.left := by
    apply Classical.byContradiction
    intro hm
    rw [h.ofLexemes_of_not_mem hm] at hf
    exact hl hf
  have hc := h.ofLexemes_of_mem hm
  rw [hc] at hf
  cases hd : Chain.ofLexemes c.left with
  | mk first links =>
      have hne := Chain.links_ofLexemes_ne_nil (h.leastRank?_left hm)
      rw [hd] at hc hf hne
      obtain rfl : first = [] := hf
      obtain _ | ⟨l, ls⟩ := links
      · exact absurd rfl hne
      · refine ⟨l.op, l.offset, value_of_first_eq_nil hi hc (two_le_length hl), ?_⟩
        by_cases htwo : 2 ≤ c.left.length
        · exact .inl (value_of_first_eq_nil (inner?_left hm) hd htwo)
        · rw [eq_singleton_of_first_eq_nil hd htwo, Calculator.value_eq, strip_eq_self rfl]
          exact .inr rfl

theorem agrees (h : c.LastWeakest) (hi : inner? c.lexemes = none) (hlen : 2 ≤ c.lexemes.length)
    (hleft : Agrees (value c.left) (binaryValue c.left))
    (hright : Agrees (value c.link.operand) (binaryValue c.link.operand)) :
    Agrees (value c.lexemes) (binaryValue c.lexemes) := by
  by_cases hl : c.left = []
  · rw [h.value_of_left_eq_nil hi hl hlen, h.binaryValue_of_left_eq_nil hi hl hlen]
    exact .same _
  · rw [h.binaryValue_of_left_ne_nil hi hl]
    by_cases hf : (Chain.ofLexemes c.lexemes).first = []
    · obtain ⟨op, offset, hv, hu⟩ := h.value_left_of_first_eq_nil hi hl hf
      rw [hv]
      generalize binaryValue c.left = y at hleft
      rcases hu with hu | hu
      · rw [hu] at hleft
        cases hleft with
        | same => exact .same _
        | leading => exact .leading op offset
      · rw [hu] at hleft
        cases hleft
        exact .leading op offset
    · rw [h.value_eq hi hf]
      exact hleft.bind fun left => hright.bind fun right => .same _

end Cut.LastWeakest

theorem agrees_of_inner?_eq_none {ts : List Lexeme} (hi : inner? ts = none)
    (ih : ∀ us : List Lexeme, us.length < ts.length → Agrees (value us) (binaryValue us)) :
    Agrees (value ts) (binaryValue ts) := by
  obtain _ | ⟨t, _ | ⟨u, us⟩⟩ := ts
  · rw [value_eq, binaryValue_eq, strip_eq_self hi]
    exact .same _
  · rw [value_eq, binaryValue_eq, strip_eq_self hi]
    obtain ⟨token, offset⟩ := t
    cases token <;> exact .same _
  · cases hr : leastRank? (t :: u :: us) with
    | none =>
        rw [value_of_leastRank?_eq_none hi hr, binaryValue_eq, strip_eq_self hi]
        simp only [lastWeakest?_eq_none hr]
        exact .same _
    | some least =>
        obtain ⟨c, hc, hw⟩ := Cut.exists_lastWeakest hr
        rw [← hc] at hi ih ⊢
        exact hw.agrees hi (by simp [hc]) (ih _ c.length_left_lt) (ih _ c.length_operand_lt)

theorem agrees_binaryValue (ts : List Lexeme) : Agrees (value ts) (binaryValue ts) := by
  rw [← value_strip, ← binaryValue_strip]
  apply agrees_of_inner?_eq_none (inner?_strip ts)
  intro us hlen
  exact agrees_binaryValue us
termination_by ts.length
decreasing_by exact Nat.lt_of_lt_of_le hlen (length_strip_le ts)

theorem Agrees.mapError_kind {x y : Except Fault Value} (h : Agrees x y) :
    x.mapError (fun f => (Failure.fault f).kind) = y.mapError fun f => (Failure.fault f).kind := by
  cases h with
  | same => rfl
  | leading => rfl

/-- The fold over all the weakest operators at once comes to the same as the recursion on
the last of them alone. -/
theorem value_agrees_binaryValue (ts : List Lexeme) :
    Agrees (value ts) (binaryValue ts) ∧
      (value ts).mapError (fun f => (Failure.fault f).kind) =
        (binaryValue ts).mapError fun f => (Failure.fault f).kind :=
  ⟨agrees_binaryValue ts, (agrees_binaryValue ts).mapError_kind⟩

example :
    value [⟨.operator .sub, 0⟩, ⟨.operator .add, 2⟩, ⟨.integer 1, 4⟩] = .error (.leadingOperator .sub 0) ∧
      binaryValue [⟨.operator .sub, 0⟩, ⟨.operator .add, 2⟩, ⟨.integer 1, 4⟩] =
        .error (.unexpectedToken (.operator .sub) 0) := by
  decide +kernel

end Calculator
