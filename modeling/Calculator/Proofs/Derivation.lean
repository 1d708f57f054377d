import Calculator.Proofs.BinaryRecursion

namespace Calculator

open Logged

/-- The cut at which lexemes are taken apart when nothing encloses them and none of their weakest operators stands in
front of all. -/
structure Cut.Parts (c : Cut) : Prop where
  inner?_eq : inner? c.lexemes = none
  lastWeakest : c.LastWeakest
  first_ne_nil : (Chain.ofLexemes c.lexemes).first ≠ []

/-- How lexemes come to an outcome from what their parts come to, and the steps on the way there. -/
inductive Derives : List Lexeme → List Record → Except Fault Value → Prop
  | group {ts us : List Lexeme} {rs : List Record} {x : Except Fault Value} (hi : inner? ts = some us)
      (h : Derives us rs x) : Derives ts rs x
  | nothing : Derives [] [] (.error .endOfInput)
  | number (n : Int64) (offset : Nat) : Derives [⟨.integer n, offset⟩] [] (.ok (.integer n))
  | alone (t : Lexeme) (h : ∀ n, t.token ≠ .integer n) : Derives [t] [] (.error (.unexpectedToken t.token t.offset))
  | adjoining (t u : Lexeme) (us : List Lexeme) (hi : inner? (t :: u :: us) = none)
      (hr : leastRank? (t :: u :: us) = none) : Derives (t :: u :: us) [] (.error (.missingOperator t.offset))
  | leading {ts : List Lexeme} {l : Link} {ls : List Link} (hi : inner? ts = none) (hlen : 2 ≤ ts.length)
      (hc : Chain.ofLexemes ts = ⟨[], l :: ls⟩) : Derives ts [] (.error (.leadingOperator l.op l.offset))
  | left {c : Cut} {rs : List Record} {f : Fault} (hc : c.Parts) (hl : Derives c.left rs (.error f)) :
      Derives c.lexemes rs (.error f)
  | right {c : Cut} {ls rs : List Record} {l : Value} {f : Fault} (hc : c.Parts) (hl : Derives c.left ls (.ok l))
      (hr : Derives c.link.operand rs (.error f)) : Derives c.lexemes (ls ++ rs) (.error f)
  | fails {c : Cut} {ls rs : List Record} {l r : Value} {f : Fault} (hc : c.Parts) (hl : Derives c.left ls (.ok l))
      (hr : Derives c.link.operand rs (.ok r)) (ho : operate c.link.op l r c.link.offset = .error f) :
      Derives c.lexemes (ls ++ rs) (.error f)
  | step {c : Cut} {ls rs : List Record} {l r v : Value} (hc : c.Parts) (hl : Derives c.left ls (.ok l))
      (hr : Derives c.link.operand rs (.ok r)) (ho : operate c.link.op l r c.link.offset = .ok v) :
      Derives c.lexemes (ls ++ (rs ++ [.step l c.link.op r v])) (.ok v)

variable {ts : List Lexeme} {c : Cut} {rs : List Record} {x : Except Fault Value} {f : Fault}

theorem sameSteps_of_malformed (hi : inner? ts = none) (h : form ts = .malformed f) :
    SameSteps (compute ts) (throw f) := by
  rw [compute_eq, strip_eq_self hi, h]
  exact sameSteps_recordSplit ts (appends_throw f)

theorem sameSteps_of_number {n : Int64} (hi : inner? ts = none) (h : form ts = .number n) :
    SameSteps (compute ts) (pure (.integer n)) := by
  rw [compute_eq, strip_eq_self hi, h]
  exact sameSteps_recordSplit ts (appends_pure _)

theorem inner?_single (t : Lexeme) : inner? [t] = none := by
  obtain ⟨token, offset⟩ := t
  cases token <;> rfl

theorem form_single {t : Lexeme} (h : ∀ n, t.token ≠ .integer n) :
    form [t] = .malformed (.unexpectedToken t.token t.offset) := by
  obtain ⟨token, offset⟩ := t
  cases token with
  | integer n => exact absurd rfl (h n)
  | operator | openParen | closeParen | blank => rfl

namespace Cut.Parts

variable (h : c.Parts)

include h

theorem left_ne_nil : c.left ≠ [] := by
  intro hl
  have hm : c.rank ∉ ranks 0 c.left := by
    rw [hl]
    exact List.not_mem_nil
  apply h.first_ne_nil
  rw [h.lastWeakest.ofLexemes_of_not_mem hm, hl]

theorem sameSteps : SameSteps (compute c.lexemes) (do
    Calculator.step c.link.op (← compute c.left) (← compute c.link.operand) c.link.offset) :=
  h.lastWeakest.sameSteps h.inner?_eq h.first_ne_nil

theorem value_eq : value c.lexemes = (do
    operate c.link.op (← value c.left) (← value c.link.operand) c.link.offset) :=
  h.lastWeakest.value_eq h.inner?_eq h.first_ne_nil

theorem steps_of_left_error (hl : value c.left = .error f) : (compute c.lexemes).steps = (compute c.left).steps := by
  have hl : (compute c.left).outcome = .error f := hl
  rw [h.sameSteps.steps_eq, steps_bind fun left => appends_link left c.link, hl]

theorem steps_of_left_ok {l : Value} (hl : value c.left = .ok l) :
    (compute c.lexemes).steps = (compute c.left).steps ++ (do
      Calculator.step c.link.op l (← compute c.link.operand) c.link.offset : Logged Value).steps := by
  have hl : (compute c.left).outcome = .ok l := hl
  rw [h.sameSteps.steps_eq, steps_bind fun left => appends_link left c.link, hl]

end Cut.Parts

theorem steps_link_of_error {l : Link} (left : Value) (hr : value l.operand = .error f) :
    (do Calculator.step l.op left (← compute l.operand) l.offset : Logged Value).steps = (compute l.operand).steps := by
  have hr : (compute l.operand).outcome = .error f := hr
  rw [steps_bind fun right => appends_step l.op left right l.offset, hr]

theorem steps_link_of_ok {l : Link} {left right : Value} (hr : value l.operand = .ok right) :
    (do Calculator.step l.op left (← compute l.operand) l.offset : Logged Value).steps =
      (compute l.operand).steps ++ (Calculator.step l.op left right l.offset).steps := by
  have hr : (compute l.operand).outcome = .ok right := hr
  rw [steps_bind fun right => appends_step l.op left right l.offset, hr]

theorem Derives.sound (h : Derives ts rs x) : (compute ts).steps = rs ∧ value ts = x := by
  induction h with
  | group hi _ ih => rwa [compute_of_inner? hi, value_of_inner? hi]
  | nothing =>
      have hs : SameSteps (compute []) (throw .endOfInput) := sameSteps_of_malformed rfl rfl
      exact ⟨hs.steps_eq, hs.outcome_eq⟩
  | number n offset =>
      have hs : SameSteps (compute [⟨.integer n, offset⟩]) (pure (.integer n)) := sameSteps_of_number rfl rfl
      exact ⟨hs.steps_eq, hs.outcome_eq⟩
  | alone t h =>
      have hs := sameSteps_of_malformed (inner?_single t) (form_single h)
      exact ⟨hs.steps_eq, hs.outcome_eq⟩
  | adjoining t u us hi hr =>
      have hs := sameSteps_of_malformed hi (form_of_leastRank?_eq_none hr)
      exact ⟨hs.steps_eq, hs.outcome_eq⟩
  | leading hi hlen hc =>
      have hs := sameSteps_of_malformed hi (form_of_first_eq_nil hlen hc)
      exact ⟨hs.steps_eq, hs.outcome_eq⟩
  | left hc _ ihl =>
      obtain ⟨rfl, hl⟩ := ihl
      refine ⟨hc.steps_of_left_error hl, ?_⟩
      rw [hc.value_eq, hl]
      rfl
  | right hc _ _ ihl ihr =>
      obtain ⟨rfl, hl⟩ := ihl
      obtain ⟨rfl, hr⟩ := ihr
      constructor
      · rw [hc.steps_of_left_ok hl, steps_link_of_error _ hr]
      · rw [hc.value_eq, hl, hr]
        rfl
  | fails hc _ _ ho ihl ihr =>
      obtain ⟨rfl, hl⟩ := ihl
      obtain ⟨rfl, hr⟩ := ihr
      constructor
      · rw [hc.steps_of_left_ok hl, steps_link_of_ok hr, steps_step, ho]
        exact congrArg _ (List.append_nil _)
      · rw [hc.value_eq, hl, hr]
        exact ho
  | step hc _ _ ho ihl ihr =>
      obtain ⟨rfl, hl⟩ := ihl
      obtain ⟨rfl, hr⟩ := ihr
      constructor
      · rw [hc.steps_of_left_ok hl, steps_link_of_ok hr, steps_step, ho]
      · rw [hc.value_eq, hl, hr]
        exact ho

theorem Cut.Parts.exists_derives (hc : c.Parts) (hleft : ∃ rs x, Derives c.left rs x)
    (hright : ∃ rs x, Derives c.link.operand rs x) : ∃ rs x, Derives c.lexemes rs x := by
  obtain ⟨ls, l, hl⟩ := hleft
  obtain ⟨rs, r, hr⟩ := hright
  cases l with
  | error f => exact ⟨_, _, .left hc hl⟩
  | ok l =>
      cases r with
      | error f => exact ⟨_, _, .right hc hl hr⟩
      | ok r =>
          cases ho : operate c.link.op l r c.link.offset with
          | error f => exact ⟨_, _, .fails hc hl hr ho⟩
          | ok v => exact ⟨_, _, .step hc hl hr ho⟩

theorem Cut.LastWeakest.exists_derives (hw : c.LastWeakest) (hi : inner? c.lexemes = none)
    (hlen : 2 ≤ c.lexemes.length) (hleft : ∃ rs x, Derives c.left rs x)
    (hright : ∃ rs x, Derives c.link.operand rs x) : ∃ rs x, Derives c.lexemes rs x := by
  cases hc : Chain.ofLexemes c.lexemes with
  | mk first links =>
      have hne := hw.links_ne_nil
      rw [hc] at hne
      obtain ⟨l, ls, rfl⟩ := List.exists_cons_of_ne_nil hne
      cases first with
      | nil => exact ⟨_, _, .leading hi hlen hc⟩
      | cons t ts =>
          have hf : (Chain.ofLexemes c.lexemes).first ≠ [] := by
            rw [hc]
            exact List.cons_ne_nil _ _
          exact Cut.Parts.exists_derives ⟨hi, hw, hf⟩ hleft hright

theorem exists_derives_single (t : Lexeme) : ∃ rs x, Derives [t] rs x := by
  obtain ⟨token, offset⟩ := t
  cases token with
  | integer n => exact ⟨_, _, .number n offset⟩
  | operator | openParen | closeParen | blank => exact ⟨_, _, .alone _ (by simp)⟩

theorem exists_derives_of_inner?_eq_none (hi : inner? ts = none)
    (ih : ∀ us : List Lexeme, us.length < ts.length → ∃ rs x, Derives us rs x) : ∃ rs x, Derives ts rs x := by
  obtain _ | ⟨t, _ | ⟨u, us⟩⟩ := ts
  · exact ⟨_, _, .nothing⟩
  · exact exists_derives_single t
  · cases hr : leastRank? (t :: u :: us) with
    | none => exact ⟨_, _, .adjoining t u us hi hr⟩
    | some least =>
        obtain ⟨c, hc, hw⟩ := Cut.exists_lastWeakest hr
        rw [← hc] at hi ih ⊢
        exact hw.exists_derives hi (by simp [hc]) (ih _ c.length_left_lt) (ih _ c.length_operand_lt)

theorem exists_derives (ts : List Lexeme) : ∃ rs x, Derives ts rs x := by
  cases hi : inner? ts with
  | some us =>
      obtain ⟨rs, x, h⟩ := exists_derives us
      exact ⟨rs, x, .group hi h⟩
  | none =>
      apply exists_derives_of_inner?_eq_none hi
      intro us hlen
      exact exists_derives us
termination_by ts.length
decreasing_by
  · exact hlen
  · exact length_inner?_lt hi

theorem derives_iff : Derives ts rs x ↔ (compute ts).steps = rs ∧ value ts = x := by
  constructor
  · exact Derives.sound
  · rintro ⟨rfl, rfl⟩
    obtain ⟨rs, x, h⟩ := exists_derives ts
    obtain ⟨rfl, rfl⟩ := h.sound
    exact h

end Calculator
