import Calculator.Proofs.Balance
import Calculator.Proofs.Derivation
import Calculator.Proofs.Operation
import Mathlib.Control.Monad.Basic

namespace Calculator

def BeforeOperand (before : List Lexeme) : Prop :=
  ∀ t, before.getLast? = some t → t.token = .openParen ∨ ∃ op, t.token = .operator op

def AfterOperand (after : List Lexeme) : Prop :=
  ∀ t, after.head? = some t → t.token = .closeParen ∨ ∃ op, t.token = .operator op

def LacksOperand (ts : List Lexeme) : Prop :=
  (∃ before start stop after, ts = before ++ ⟨.openParen, start⟩ :: ⟨.closeParen, stop⟩ :: after) ∨
    ∃ before op offset after, ts = before ++ ⟨.operator op, offset⟩ :: after ∧ AfterOperand after

def JoinsValues (ts : List Lexeme) (op : Operator) (offset : Nat) (l r : Value) : Prop :=
  ∃ before left right after, ts = before ++ left ++ ⟨.operator op, offset⟩ :: right ++ after ∧
    value left = .ok l ∧ value right = .ok r

/-- What the lexemes show next to the place that a fault names. -/
def Fault.EvidentIn (ts : List Lexeme) : Fault → Prop
  | endOfInput => ts = [] ∨ LacksOperand ts
  | unexpectedToken t offset => ⟨t, offset⟩ ∈ ts ∧ ∀ n, t ≠ .integer n
  | missingOperator offset => ∃ before t u us after, ts = before ++ t :: u :: us ++ after ∧ t.offset = offset ∧
      OperatorFree (t :: u :: us) ∧ ¬ IsGroup (t :: u :: us) ∧ BeforeOperand before ∧ AfterOperand after
  | leadingOperator op offset => ∃ before after, ts = before ++ ⟨.operator op, offset⟩ :: after ∧ BeforeOperand before
  | divisionByZero offset => ∃ l r, JoinsValues ts .div offset l r ∧ r.isZero = true
  | notANumber op offset => ∃ l r v, JoinsValues ts op offset l r ∧ Value.apply op l r offset = .ok v ∧ v.isNaN = true

variable {before us after ts : List Lexeme} {f : Fault} {rs : List Record} {c : Cut}

theorem beforeOperand_nil : BeforeOperand [] := nofun

theorem afterOperand_nil : AfterOperand [] := nofun

theorem BeforeOperand.append (hb : BeforeOperand before) (hu : BeforeOperand us) : BeforeOperand (before ++ us) := by
  intro t ht
  rw [List.getLast?_append, Option.or_eq_some_iff] at ht
  rcases ht with ht | ⟨_, ht⟩
  · exact hu t ht
  · exact hb t ht

theorem AfterOperand.append (hu : AfterOperand us) (ha : AfterOperand after) : AfterOperand (us ++ after) := by
  intro t ht
  rw [List.head?_append, Option.or_eq_some_iff] at ht
  rcases ht with ht | ⟨_, ht⟩
  · exact hu t ht
  · exact ha t ht

theorem beforeOperand_operator (before : List Lexeme) (op : Operator) (offset : Nat) :
    BeforeOperand (before ++ [⟨.operator op, offset⟩]) := by
  intro t ht
  rw [List.getLast?_concat] at ht
  cases ht
  exact .inr ⟨op, rfl⟩

theorem LacksOperand.within (h : LacksOperand us) (ha : AfterOperand after) : LacksOperand (before ++ us ++ after) := by
  rcases h with ⟨p, start, stop, q, rfl⟩ | ⟨p, op, offset, q, rfl, hq⟩
  · exact .inl ⟨before ++ p, start, stop, q ++ after, by simp⟩
  · exact .inr ⟨before ++ p, op, offset, q ++ after, by simp, hq.append ha⟩

theorem JoinsValues.within {op : Operator} {offset : Nat} {l r : Value} (h : JoinsValues us op offset l r) :
    JoinsValues (before ++ us ++ after) op offset l r := by
  obtain ⟨p, left, right, q, rfl, hl, hr⟩ := h
  exact ⟨before ++ p, left, right, q ++ after, by simp, hl, hr⟩

theorem Fault.EvidentIn.within (h : f.EvidentIn us) (hb : BeforeOperand before) (ha : AfterOperand after)
    (hu : us = [] → LacksOperand (before ++ us ++ after)) : f.EvidentIn (before ++ us ++ after) := by
  cases f with
  | endOfInput =>
      rcases h with h | h
      · exact .inr (hu h)
      · exact .inr (h.within ha)
  | unexpectedToken t offset => exact ⟨by simp [h.1], h.2⟩
  | missingOperator offset =>
      obtain ⟨p, t, u, vs, q, rfl, ho, hop, hg, hp, hq⟩ := h
      exact ⟨before ++ p, t, u, vs, q ++ after, by simp, ho, hop, hg, hb.append hp, hq.append ha⟩
  | leadingOperator op offset =>
      obtain ⟨p, q, rfl, hp⟩ := h
      exact ⟨before ++ p, q ++ after, by simp, hb.append hp⟩
  | divisionByZero offset =>
      obtain ⟨l, r, hj, hz⟩ := h
      exact ⟨l, r, hj.within, hz⟩
  | notANumber op offset =>
      obtain ⟨l, r, v, hj, hv⟩ := h
      exact ⟨l, r, v, hj.within, hv⟩

theorem Fault.EvidentIn.group (h : f.EvidentIn us) (start stop : Nat) :
    f.EvidentIn ([⟨.openParen, start⟩] ++ us ++ [⟨.closeParen, stop⟩]) := by
  refine h.within ?_ ?_ ?_
  · intro t ht
    cases ht
    exact .inl rfl
  · intro t ht
    cases ht
    exact .inl rfl
  · rintro rfl
    exact .inl ⟨[], start, stop, [], rfl⟩

theorem Fault.EvidentIn.of_left (h : f.EvidentIn c.left) (hne : c.left ≠ []) : f.EvidentIn c.lexemes := by
  have ha : AfterOperand c.link.lexemes := by
    intro t ht
    cases ht
    exact .inr ⟨c.link.op, rfl⟩
  exact h.within beforeOperand_nil ha fun hl => absurd hl hne

theorem Fault.EvidentIn.of_operand (h : f.EvidentIn c.link.operand) : f.EvidentIn c.lexemes := by
  have hc : c.lexemes = c.left ++ [c.link.head] ++ c.link.operand ++ [] := by
    simp [Cut.lexemes, Link.lexemes]
  rw [hc]
  apply h.within (beforeOperand_operator c.left c.link.op c.link.offset) afterOperand_nil
  intro hr
  exact .inr ⟨c.left, c.link.op, c.link.offset, [], by simp [hr], afterOperand_nil⟩

theorem Fault.EvidentIn.of_operate {l r : Value} (hl : value c.left = .ok l) (hr : value c.link.operand = .ok r)
    (h : operate c.link.op l r c.link.offset = .error f) : f.EvidentIn c.lexemes := by
  have hj : JoinsValues c.lexemes c.link.op c.link.offset l r :=
    ⟨[], c.left, c.link.operand, [], by simp [Cut.lexemes, Link.lexemes, Link.head], hl, hr⟩
  rcases operate_eq_error h with ⟨hd, hz, rfl⟩ | ⟨v, hv, hn, rfl⟩
  · rw [hd] at hj
    exact ⟨l, r, hj, hz⟩
  · exact ⟨l, r, v, hj, hv, hn⟩

/-- A fault shows where it arises, and from there in everything around that is taken apart on the way to it. -/
theorem Derives.evidentIn (h : Derives ts rs (.error f)) : f.EvidentIn ts := by
  generalize hx : Except.error f = x at h
  induction h with
  | group hi _ ih =>
      obtain ⟨start, stop, rfl⟩ := eq_of_inner? hi
      exact (ih hx).group start stop
  | nothing =>
      cases hx
      exact .inl rfl
  | number | step => cases hx
  | alone t h =>
      cases hx
      exact ⟨List.mem_singleton_self _, h⟩
  | adjoining t u us hi hr =>
      cases hx
      exact ⟨[], t, u, us, [], by simp, rfl, leastRank?_eq_none_iff.1 hr, inner?_eq_none_iff.1 hi, beforeOperand_nil,
        afterOperand_nil⟩
  | @leading us l ls _ _ hc =>
      cases hx
      have hl := Chain.lexemes_ofLexemes us
      rw [hc] at hl
      exact ⟨[], _, hl.symm, beforeOperand_nil⟩
  | left hc _ ih => exact (ih hx).of_left hc.left_ne_nil
  | right _ _ _ _ ih => exact (ih hx).of_operand
  | fails _ hl hr ho =>
      cases hx
      exact .of_operate hl.sound.2 hr.sound.2 ho

/-- No fault is reported without something at its place that is wrong by itself. -/
theorem fault_evidentIn (h : value ts = .error f) : f.EvidentIn ts :=
  (derives_iff.2 ⟨rfl, h⟩).evidentIn

def unclosedQuotient : List Lexeme :=
  [⟨.integer 6, 0⟩, ⟨.operator .sub, 1⟩, ⟨.openParen, 2⟩, ⟨.integer 8, 3⟩, ⟨.operator .div, 4⟩, ⟨.openParen, 5⟩,
    ⟨.integer 4, 6⟩, ⟨.operator .sub, 7⟩, ⟨.integer 4, 8⟩, ⟨.closeParen, 9⟩]

theorem unclosedQuotient_evidentIn :
    value unclosedQuotient = .error (.missingOperator 2) ∧ (Fault.missingOperator 2).EvidentIn unclosedQuotient ∧
      value (unclosedQuotient ++ [⟨.closeParen, 10⟩]) = .error (.divisionByZero 4) ∧
      (Fault.divisionByZero 4).EvidentIn (unclosedQuotient ++ [⟨.closeParen, 10⟩]) := by
  have h : value unclosedQuotient = .error (.missingOperator 2) := by decide +kernel
  have h' : value (unclosedQuotient ++ [⟨.closeParen, 10⟩]) = .error (.divisionByZero 4) := by decide +kernel
  exact ⟨h, fault_evidentIn h, h', fault_evidentIn h'⟩

end Calculator
