import Calculator.Evaluation

namespace Calculator

variable {α β : Type} {op : Operator} {left right v : Value} {offset : Nat} {f : Fault}

theorem bind_eq_ok_iff {x : Except Fault α} {g : α → Except Fault β} {b : β} :
    x >>= g = .ok b ↔ ∃ a, x = .ok a ∧ g a = .ok b := by
  cases x with
  | ok a =>
      constructor
      · intro h
        exact ⟨a, rfl, h⟩
      · rintro ⟨_, ha, h⟩
        cases ha
        exact h
  | error e =>
      constructor
      · intro h
        cases h
      · rintro ⟨_, ha, _⟩
        cases ha

theorem bind_eq_error_iff {x : Except Fault α} {g : α → Except Fault β} :
    x >>= g = .error f ↔ x = .error f ∨ ∃ a, x = .ok a ∧ g a = .error f := by
  cases x with
  | ok a =>
      constructor
      · intro h
        exact .inr ⟨a, rfl, h⟩
      · rintro (h | ⟨_, ha, h⟩)
        · cases h
        · cases ha
          exact h
  | error e =>
      constructor
      · intro h
        exact .inl (congrArg Except.error (Except.error.inj h))
      · rintro (h | ⟨_, ha, _⟩)
        · exact congrArg Except.error (Except.error.inj h)
        · cases ha

theorem operate_eq (op : Operator) (left right : Value) (offset : Nat) :
    operate op left right offset = (Value.apply op left right offset >>= fun v =>
      if v.isNaN then .error (.notANumber op offset) else .ok v) := rfl

theorem operate_eq_ok_iff :
    operate op left right offset = .ok v ↔ Value.apply op left right offset = .ok v ∧ v.isNaN = false := by
  rw [operate_eq, bind_eq_ok_iff]
  constructor
  · rintro ⟨w, hw, h⟩
    split at h
    · cases h
    next hn =>
      cases h
      exact ⟨hw, Bool.eq_false_iff.2 hn⟩
  · rintro ⟨h, hn⟩
    exact ⟨v, h, by rw [hn]; rfl⟩

theorem apply_of_ne_pow (ho : op ≠ .pow) (left right : Value) (offset : Nat) :
    Value.apply op left right offset = Value.scalar? op left right offset := by
  cases op with
  | pow => exact absurd rfl ho
  | add | sub | mul | div => rfl

theorem div_of_apply_eq_error (h : Value.apply op left right offset = .error f) :
    op = .div ∧ f = .divisionByZero offset := by
  by_cases ho : op = .pow
  · subst ho
    cases h
  · rw [apply_of_ne_pow ho, Value.scalar?] at h
    split at h
    next hd => exact ⟨hd.1, (Except.error.inj h).symm⟩
    next => cases h

theorem isZero_of_apply_eq_error (h : Value.apply op left right offset = .error f) : right.isZero = true := by
  have ho := (div_of_apply_eq_error h).1
  subst ho
  rw [apply_of_ne_pow (by decide), Value.scalar?] at h
  split at h
  next hd => exact hd.2
  next => cases h

theorem fault_of_operate (h : operate op left right offset = .error f) :
    f = .divisionByZero offset ∨ f = .notANumber op offset := by
  rw [operate_eq, bind_eq_error_iff] at h
  rcases h with h | ⟨w, _, h⟩
  · exact .inl (div_of_apply_eq_error h).2
  · split at h
    · exact .inr (Except.error.inj h).symm
    · cases h

theorem operate_eq_error (h : operate op left right offset = .error f) :
    (op = .div ∧ right.isZero = true ∧ f = .divisionByZero offset) ∨
      ∃ v, Value.apply op left right offset = .ok v ∧ v.isNaN = true ∧ f = .notANumber op offset := by
  rw [operate_eq, bind_eq_error_iff] at h
  rcases h with h | ⟨v, hv, h⟩
  · exact .inl ⟨(div_of_apply_eq_error h).1, isZero_of_apply_eq_error h, (div_of_apply_eq_error h).2⟩
  · split at h
    next hn => exact .inr ⟨v, hv, hn, (Except.error.inj h).symm⟩
    next => cases h

theorem eq_div_of_operate {o : Nat} (h : operate op left right offset = .error (.divisionByZero o)) : op = .div := by
  rw [operate_eq, bind_eq_error_iff] at h
  rcases h with h | ⟨w, _, h⟩
  · exact (div_of_apply_eq_error h).1
  · split at h <;> cases h

/-- A chain fails in one of its operands or in one of its steps. -/
theorem links_eq_error {ls : List Link}
    (h : ls.foldlM (fun left (l : Link) => do operate l.op left (← value l.operand) l.offset) left = .error f) :
    ∃ l ∈ ls, value l.operand = .error f ∨ ∃ left right, operate l.op left right l.offset = .error f := by
  induction ls generalizing left with
  | nil => cases h
  | cons l ls ih =>
      rw [List.foldlM_cons, bind_eq_error_iff, bind_eq_error_iff] at h
      rcases h with (h | ⟨right, _, h⟩) | ⟨result, _, h⟩
      · exact ⟨l, List.mem_cons_self .., .inl h⟩
      · exact ⟨l, List.mem_cons_self .., .inr ⟨left, right, h⟩⟩
      · obtain ⟨m, hm, hf⟩ := ih h
        exact ⟨m, List.mem_cons_of_mem _ hm, hf⟩

end Calculator
