import Calculator.Proofs.Balance
import Calculator.Proofs.Grammar

namespace Calculator

namespace Expression

theorem balanced_lexemes (e : Expression) : Balanced e.lexemes := by
  induction e with
  | number n offset => exact .single rfl
  | group start e stop ih => exact ih.group start stop
  | binary op offset left right ihl ihr =>
      have hr : Balanced (⟨.operator op, offset⟩ :: right.lexemes) := (Balanced.single rfl).append ihr
      exact ihl.append hr

def Atomic (e : Expression) : Prop := e.level = 4

theorem not_atomic_binary (op : Operator) (offset : Nat) (left right : Expression) :
    ¬ (binary op offset left right).Atomic := by
  intro h
  have hle := op.precedence_le_three
  have heq : op.precedence = 4 := h
  omega

variable {e x y : Expression} {p q : List Lexeme}

theorem Atomic.depthAfter_pos (h : x.Atomic) (hx : x.lexemes = p ++ q) (hp : p ≠ []) (hq : q ≠ []) :
    0 < depthAfter 0 p := by
  cases x with
  | number n offset =>
      rw [lexemes, eq_comm, List.append_eq_singleton_iff] at hx
      rcases hx with ⟨h, _⟩ | ⟨_, h⟩
      · exact absurd h hp
      · exact absurd h hq
  | group start e stop =>
      rw [lexemes] at hx
      refine e.balanced_lexemes.depthAfter_group_pos hp ⟨q, hx.symm⟩ ?_
      intro hall
      rw [hall] at hx
      exact hq (List.append_right_eq_self.1 hx.symm)
  | binary op offset left right => exact absurd h (not_atomic_binary op offset left right)

structure Interchangeable (x y : Expression) : Prop where
  wellFormed_left : x.WellFormed
  wellFormed_right : y.WellFormed
  atomic_left : x.Atomic
  atomic_right : y.Atomic
  value_eq : x.value = y.value

theorem Interchangeable.symm (h : Interchangeable x y) : Interchangeable y x :=
  ⟨h.wellFormed_right, h.wellFormed_left, h.atomic_right, h.atomic_left, h.value_eq.symm⟩

theorem value_eq_of_lexemes_eq (he : e.WellFormed) (hx : x.WellFormed) (h : e.lexemes = x.lexemes) :
    e.value = x.value := by
  rw [← value_lexemes he, ← value_lexemes hx, h]

theorem Atomic.not_cut (h : x.Atomic) {left : Expression} {op : Operator} {offset : Nat} {us vs : List Lexeme}
    (hl : left.lexemes = p ++ us) (hx : x.lexemes = us ++ ⟨.operator op, offset⟩ :: vs) : False := by
  by_cases hu : us = []
  · rw [hu, List.nil_append] at hx
    exact x.head?_lexemes_ne op offset (congrArg List.head? hx)
  · have hus := h.depthAfter_pos hx hu (List.cons_ne_nil _ _)
    have hp := left.balanced_lexemes.nonneg p ⟨us, hl.symm⟩
    have hd := left.balanced_lexemes.depthAfter_eq
    rw [hl, depthAfter_append, depthAfter_eq_add] at hd
    omega

theorem Atomic.in_part (h : x.Atomic) {op : Operator} {offset : Nat} {left right : Expression}
    (hl : (binary op offset left right).lexemes = p ++ x.lexemes ++ q) :
    (∃ q', left.lexemes = p ++ x.lexemes ++ q' ∧ q = q' ++ ⟨.operator op, offset⟩ :: right.lexemes) ∨
      ∃ p', right.lexemes = p' ++ x.lexemes ++ q ∧ p = left.lexemes ++ ⟨.operator op, offset⟩ :: p' := by
  rcases List.append_eq_append_iff.1 hl with ⟨_ | ⟨t, r⟩, hr, ho⟩ | ⟨r, hr, ho⟩
  · exact .inl ⟨[], by rw [hr, List.append_nil, List.append_nil], ho.symm⟩
  · obtain ⟨rfl, hright⟩ := List.cons.inj ho
    rcases List.append_eq_append_iff.1 hr with ⟨us, hp, hx⟩ | ⟨_ | ⟨t, p'⟩, hp, hx⟩
    · exact (h.not_cut hp hx).elim
    · exact absurd (congrArg List.head? hx.symm) (x.head?_lexemes_ne op offset)
    · obtain ⟨rfl, rfl⟩ := List.cons.inj hx
      exact .inr ⟨p', hright, hp⟩
  · exact .inl ⟨r, hr, ho⟩

theorem in_group {start stop : Nat} (hl : (group start e stop).lexemes = p ++ x.lexemes ++ q) :
    (p = [] ∧ q = []) ∨ ∃ p' q', e.lexemes = p' ++ x.lexemes ++ q' ∧
      p = ⟨.openParen, start⟩ :: p' ∧ q = q' ++ [⟨.closeParen, stop⟩] := by
  have hg : (group start e stop).Atomic := rfl
  have hd := x.balanced_lexemes.depthAfter_eq
  rcases p with _ | ⟨t, p'⟩
  · by_cases hq : q = []
    · exact .inl ⟨rfl, hq⟩
    · have hpos : 0 < depthAfter 0 x.lexemes := hg.depthAfter_pos hl x.lexemes_ne_nil hq
      rw [hd] at hpos
      exact absurd hpos (Int.lt_irrefl 0)
  · rcases List.eq_nil_or_concat q with rfl | ⟨q', u, rfl⟩
    · have hpos := hg.depthAfter_pos (p := t :: p') (q := x.lexemes) (by simpa using hl) (List.cons_ne_nil _ _)
        x.lexemes_ne_nil
      have hz := (group start e stop).balanced_lexemes.depthAfter_eq
      rw [hl, List.append_nil, depthAfter_append, depthAfter_eq_add, hd] at hz
      omega
    · rw [lexemes, List.concat_eq_append, ← List.append_assoc] at hl
      obtain ⟨hfront, hlast⟩ := List.append_inj' hl rfl
      obtain ⟨ht, hinside⟩ := List.cons.inj hfront
      refine .inr ⟨p', q', hinside, by rw [ht], ?_⟩
      rw [List.concat_eq_append, hlast]

/-- Another operand of the same value put in the place of one. -/
theorem exists_replace (h : Interchangeable x y) (he : e.WellFormed) (hl : e.lexemes = p ++ x.lexemes ++ q) :
    ∃ e' : Expression, e'.WellFormed ∧ e'.level = e.level ∧ e'.lexemes = p ++ y.lexemes ++ q ∧ e'.value = e.value := by
  have whole {d : Expression} (hd : d.WellFormed) (ha : d.Atomic) (hx : d.lexemes = x.lexemes) :
      y.level = d.level ∧ y.value = d.value := by
    refine ⟨h.atomic_right.trans ha.symm, ?_⟩
    rw [← h.value_eq, value_eq_of_lexemes_eq hd h.wellFormed_left hx]
  induction e generalizing p q with
  | number n offset =>
      obtain ⟨rfl, rfl⟩ : p = [] ∧ q = [] := by
        have hlen := congrArg List.length hl
        have hpos := List.length_pos_iff.2 x.lexemes_ne_nil
        simp only [lexemes, List.length_append, List.length_singleton] at hlen
        exact ⟨List.length_eq_zero_iff.1 (by omega), List.length_eq_zero_iff.1 (by omega)⟩
      rw [List.nil_append, List.append_nil] at hl
      obtain ⟨hlevel, hvalue⟩ := whole he rfl hl
      exact ⟨y, h.wellFormed_right, hlevel, by simp, hvalue⟩
  | group start e stop ih =>
      rcases in_group hl with ⟨rfl, rfl⟩ | ⟨p', q', hl', rfl, rfl⟩
      · rw [List.nil_append, List.append_nil] at hl
        obtain ⟨hlevel, hvalue⟩ := whole he rfl hl
        exact ⟨y, h.wellFormed_right, hlevel, by simp, hvalue⟩
      · obtain ⟨e', hw, _, hl', hv⟩ := ih he hl'
        exact ⟨group start e' stop, hw, rfl, by simp [lexemes, hl'], hv⟩
  | binary op offset left right ihl ihr =>
      obtain ⟨hwl, hwr, hpl, hpr⟩ := he
      rcases h.atomic_left.in_part hl with ⟨q', hleft, rfl⟩ | ⟨p', hright, rfl⟩
      · obtain ⟨left', hw, hlevel, hl', hv⟩ := ihl hwl hleft
        refine ⟨binary op offset left' right, ⟨hw, hwr, ?_, hpr⟩, rfl, by simp [lexemes, hl'], ?_⟩
        · rwa [hlevel]
        · rw [value, hv, value]
      · obtain ⟨right', hw, hlevel, hl', hv⟩ := ihr hwr hright
        refine ⟨binary op offset left right', ⟨hwl, hw, hpl, ?_⟩, rfl, by simp [lexemes, hl'], ?_⟩
        · rwa [hlevel]
        · rw [value, hv, value]

theorem Interchangeable.value_eq_ok (h : Interchangeable x y) {v : Value}
    (hv : Calculator.value (p ++ x.lexemes ++ q) = .ok v) : Calculator.value (p ++ y.lexemes ++ q) = .ok v := by
  obtain ⟨e, hw, hl, he⟩ := exists_reads hv
  obtain ⟨e', hw', _, hl', he'⟩ := exists_replace h hw hl
  rw [← hl', value_lexemes hw', he', he]

theorem Interchangeable.value_eq_ok_iff (h : Interchangeable x y) (p q : List Lexeme) (v : Value) :
    Calculator.value (p ++ x.lexemes ++ q) = .ok v ↔ Calculator.value (p ++ y.lexemes ++ q) = .ok v :=
  ⟨h.value_eq_ok, h.symm.value_eq_ok⟩

end Expression

variable {s t : List Lexeme} {v : Value}

/-- In whatever stands around it, a group counts for no more than its value. -/
theorem value_group_congr (hs : value s = .ok v) (ht : value t = .ok v) (p q : List Lexeme)
    (start stop start' stop' : Nat) (w : Value) :
    (value (p ++ ⟨.openParen, start⟩ :: s ++ ⟨.closeParen, stop⟩ :: q) = .ok w ↔
        value (p ++ ⟨.openParen, start'⟩ :: t ++ ⟨.closeParen, stop'⟩ :: q) = .ok w) ∧
      ∀ n, v = .integer n → ∀ offset,
        (value (p ++ ⟨.openParen, start⟩ :: s ++ ⟨.closeParen, stop⟩ :: q) = .ok w ↔
          value (p ++ ⟨.integer n, offset⟩ :: q) = .ok w) := by
  obtain ⟨d, hwd, rfl, hd⟩ := Expression.exists_reads hs
  obtain ⟨e, hwe, rfl, he⟩ := Expression.exists_reads ht
  constructor
  · have h : Expression.Interchangeable (.group start d stop) (.group start' e stop') :=
      ⟨hwd, hwe, rfl, rfl, hd.trans he.symm⟩
    simpa [Expression.lexemes] using h.value_eq_ok_iff p q w
  · rintro n rfl offset
    have h : Expression.Interchangeable (.group start d stop) (.number n offset) := ⟨hwd, trivial, rfl, rfl, hd⟩
    simpa [Expression.lexemes] using h.value_eq_ok_iff p q w

theorem value_doubled_two :
    value [⟨.integer 1, 3⟩, ⟨.operator .add, 4⟩, ⟨.integer 1, 5⟩] = .ok (.integer 2) ∧
      value [⟨.integer 6, 3⟩, ⟨.operator .sub, 4⟩, ⟨.integer 4, 5⟩] = .ok (.integer 2) ∧
      value [⟨.integer 2, 0⟩, ⟨.operator .mul, 1⟩, ⟨.openParen, 2⟩, ⟨.integer 6, 3⟩, ⟨.operator .sub, 4⟩,
        ⟨.integer 4, 5⟩, ⟨.closeParen, 6⟩] = .ok (.integer 4) ∧
      value [⟨.integer 2, 0⟩, ⟨.operator .mul, 1⟩, ⟨.integer 2, 2⟩] = .ok (.integer 4) := by
  have hs : value [⟨.integer 1, 3⟩, ⟨.operator .add, 4⟩, ⟨.integer 1, 5⟩] = .ok (.integer 2) := by decide +kernel
  have ht : value [⟨.integer 6, 3⟩, ⟨.operator .sub, 4⟩, ⟨.integer 4, 5⟩] = .ok (.integer 2) := by decide +kernel
  have hw : value [⟨.integer 2, 0⟩, ⟨.operator .mul, 1⟩, ⟨.openParen, 2⟩, ⟨.integer 1, 3⟩, ⟨.operator .add, 4⟩,
      ⟨.integer 1, 5⟩, ⟨.closeParen, 6⟩] = .ok (.integer 4) := by
    decide +kernel
  obtain ⟨hgroup, hnumber⟩ := value_group_congr hs ht [⟨.integer 2, 0⟩, ⟨.operator .mul, 1⟩] [] 2 6 2 6 (.integer 4)
  exact ⟨hs, ht, hgroup.1 hw, (hnumber 2 rfl 2).1 hw⟩

end Calculator
