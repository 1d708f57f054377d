import Calculator.Proofs.Derivation
import Calculator.Proofs.LogOutline
import Calculator.Proofs.Operation
import Calculator.Proofs.Reading

namespace Calculator

open Logged

/-- An operation carried out from numbers to a number. What it divides by is not zero, be that the integer or one of
the two reals. -/
structure NumericStep (left : Value) (op : Operator) (right result : Value) : Prop where
  applied : ∃ offset, Value.apply op left right offset = .ok result
  left_isNaN : left.isNaN = false
  right_isNaN : right.isNaN = false
  result_isNaN : result.isNaN = false
  divisor : op = .div → right.isZero = false

variable {ts : List Lexeme} {rs : List Record} {x : Except Fault Value} {op : Operator} {l r v : Value} {offset : Nat}

theorem isZero_eq_false_of_apply (h : Value.apply .div l r offset = .ok v) : r.isZero = false := by
  rw [apply_of_ne_pow (by decide), Value.scalar?] at h
  split at h
  next => cases h
  next hz => exact Bool.eq_false_iff.2 fun hr => hz ⟨rfl, hr⟩

theorem NumericStep.of_operate (hl : l.isNaN = false) (hr : r.isNaN = false) (h : operate op l r offset = .ok v) :
    NumericStep l op r v := by
  obtain ⟨ha, hv⟩ := operate_eq_ok_iff.1 h
  refine ⟨⟨offset, ha⟩, hl, hr, hv, ?_⟩
  rintro rfl
  exact isZero_eq_false_of_apply ha

/-- A value is an integer of the source or the result of a step, and either is a number. -/
theorem Derives.isNaN_eq_false (h : Derives ts rs (.ok v)) : v.isNaN = false := by
  generalize hx : Except.ok v = x at h
  induction h with
  | group _ _ ih => exact ih hx
  | number =>
      cases hx
      rfl
  | step _ _ _ ho =>
      cases hx
      exact (operate_eq_ok_iff.1 ho).2
  | nothing | alone | adjoining | leading | left | right | fails => cases hx

theorem Derives.numericStep (h : Derives ts rs x) (hm : .step l op r v ∈ rs) : NumericStep l op r v := by
  induction h with
  | group _ _ ih | left _ _ ih => exact ih hm
  | nothing | number | alone | adjoining | leading => cases hm
  | right _ _ _ ihl ihr | fails _ _ _ _ ihl ihr => exact (List.mem_append.1 hm).elim ihl ihr
  | step _ hl hr ho ihl ihr =>
      rcases List.mem_append.1 hm with hm | hm
      · exact ihl hm
      · rcases List.mem_append.1 hm with hm | hm
        · exact ihr hm
        · cases List.mem_singleton.1 hm
          exact .of_operate hl.isNaN_eq_false hr.isNaN_eq_false ho

theorem isNaN_of_value (h : value ts = .ok v) : v.isNaN = false :=
  (derives_iff.2 ⟨rfl, h⟩ : Derives ts _ _).isNaN_eq_false

theorem numericStep_of_compute (hm : .step l op r v ∈ (compute ts).steps) : NumericStep l op r v :=
  (derives_iff.2 ⟨rfl, rfl⟩ : Derives ts _ _).numericStep hm

theorem exists_step_of_trace {source : String} (hm : .step l op r v ∈ (trace source).log) :
    ∃ ts, lexemes source = .ok ts ∧ .step l op r v ∈ (compute ts).steps := by
  have hw : .step l op r v ∈ (workRecords source).filter Record.isStep := by
    rw [← filter_isStep_log]
    exact List.mem_filter.2 ⟨Array.mem_toList_iff.2 hm, rfl⟩
  cases hs : lexemes source with
  | error e => simp [workRecords, hs] at hw
  | ok ts =>
      rw [workRecords, hs] at hw
      exact ⟨ts, rfl, hw⟩

/-- Whatever is computed, a step takes numbers to a number and divides by nothing that is zero, also in a run that
fails later on. So a value is a number. -/
theorem steps_on_numbers :
    (∀ ts, (∀ l op r v, .step l op r v ∈ (compute ts).steps → NumericStep l op r v) ∧
        ∀ v, value ts = .ok v → v.isNaN = false) ∧
      ∀ source, (∀ l op r v, .step l op r v ∈ (trace source).log → NumericStep l op r v) ∧
        ∀ v, evaluate source = .ok v → v.isNaN = false := by
  constructor
  · intro ts
    exact ⟨fun _ _ _ _ => numericStep_of_compute, fun _ => isNaN_of_value⟩
  · intro source
    constructor
    · intro l op r v hm
      obtain ⟨ts, _, hs⟩ := exists_step_of_trace hm
      exact numericStep_of_compute hs
    · intro v h
      obtain ⟨ts, _, hv⟩ := evaluate_eq_ok_iff.1 h
      exact isNaN_of_value hv

def lessQuotient : List Lexeme :=
  [⟨.integer 5, 0⟩, ⟨.operator .sub, 1⟩, ⟨.integer 7, 2⟩, ⟨.operator .div, 3⟩, ⟨.integer 2, 4⟩]

theorem steps_on_numbers_negativeZero :
    value lessQuotient = .ok (.real 1.5) ∧ (Value.real 1.5).isNaN = false ∧
      NumericStep (.integer 5) .sub (.real 3.5) (.real 1.5) ∧
      evaluate "5-7/2" = .ok (.real 1.5) ∧ (Value.real 1.5).isNaN = false ∧
      evaluate "1/(0/(0-1))" = .error (.fault (.divisionByZero 1)) ∧ (Value.real (-0.0)).isZero = true ∧
      NumericStep (.integer 0) .div (.integer (-1)) (.real (-0.0)) := by
  obtain ⟨hlist, hsource⟩ := steps_on_numbers
  have hv : value lessQuotient = .ok (.real 1.5) := by decide +kernel
  have hs : .step (.integer 5) .sub (.real 3.5) (.real 1.5) ∈ (compute lessQuotient).steps := by decide +kernel
  have he : evaluate "5-7/2" = .ok (.real 1.5) := by decide +kernel
  have hm : .step (.integer 0) .div (.integer (-1)) (.real (-0.0)) ∈ (trace "1/(0/(0-1))").log := by decide +kernel
  exact ⟨hv, (hlist lessQuotient).2 _ hv, (hlist lessQuotient).1 _ _ _ _ hs, he, (hsource "5-7/2").2 _ he,
    by decide +kernel, by decide +kernel, (hsource "1/(0/(0-1))").1 _ _ _ _ hm⟩

end Calculator
