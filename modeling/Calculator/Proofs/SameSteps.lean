import Calculator.Evaluation

namespace Calculator

def Record.isStep : Record → Bool
  | step .. => true
  | _ => false

namespace Logged

variable {α β : Type}

def steps (x : Logged α) : List Record := x.records.toList.filter Record.isStep

theorem steps_bind {x : Logged α} {f : α → Logged β} (hf : ∀ a, Appends (f a)) :
    (x >>= f).steps =
      match x.outcome with
      | .ok a => x.steps ++ (f a).steps
      | .error _ => x.steps := by
  rw [steps, records_bind hf]
  cases x.outcome with
  | ok a => simp [steps]
  | error e => rfl

/-- Work that comes to the same by the same steps. -/
structure SameSteps (x y : Logged α) : Prop where
  appends_left : Appends x
  appends_right : Appends y
  outcome_eq : x.outcome = y.outcome
  steps_eq : x.steps = y.steps

namespace SameSteps

variable {x y z : Logged α}

theorem of_appends (h : Appends x) : SameSteps x x := ⟨h, h, rfl, rfl⟩

theorem symm (h : SameSteps x y) : SameSteps y x :=
  ⟨h.appends_right, h.appends_left, h.outcome_eq.symm, h.steps_eq.symm⟩

theorem trans (h : SameSteps x y) (h' : SameSteps y z) : SameSteps x z :=
  ⟨h.appends_left, h'.appends_right, h.outcome_eq.trans h'.outcome_eq, h.steps_eq.trans h'.steps_eq⟩

theorem bind {f g : α → Logged β} (h : SameSteps x y) (hf : ∀ a, SameSteps (f a) (g a)) :
    SameSteps (x >>= f) (y >>= g) := by
  have hl : ∀ a, Appends (f a) := fun a => (hf a).appends_left
  have hr : ∀ a, Appends (g a) := fun a => (hf a).appends_right
  refine ⟨h.appends_left.bind hl, h.appends_right.bind hr, ?_, ?_⟩
  · rw [outcome_bind hl, outcome_bind hr, h.outcome_eq]
    exact congrArg _ (funext fun a => (hf a).outcome_eq)
  · rw [steps_bind hl, steps_bind hr, h.outcome_eq, h.steps_eq]
    cases y.outcome with
    | ok a => exact congrArg _ (hf a).steps_eq
    | error e => rfl

end SameSteps

end Logged

open Logged

theorem steps_step (op : Operator) (left right : Value) (offset : Nat) :
    (step op left right offset).steps =
      match operate op left right offset with
      | .ok v => [.step left op right v]
      | .error _ => [] := by
  unfold step
  cases operate op left right offset <;> rfl

theorem sameSteps_recordSplit (ts : List Lexeme) {x : Logged Value} (hx : Appends x) :
    SameSteps (do recordSplit ts; x) x := by
  have hs : (recordSplit ts).steps = [] := by
    unfold recordSplit
    split <;> rfl
  refine ⟨(appends_recordSplit ts).bind fun _ => hx, hx, ?_, ?_⟩
  · rw [outcome_bind fun _ => hx, outcome_recordSplit]
    rfl
  · rw [steps_bind fun _ => hx, outcome_recordSplit, hs]
    rfl

end Calculator
