import Calculator.Proofs.Choices

namespace Calculator

open Logged

variable {ts whole : List Lexeme} {v : Value}

theorem splits_ne_nil {least : Rank} (h : leastRank? ts = some least) : splits ts ≠ [] := by
  obtain ⟨l, ls, hl⟩ := List.exists_cons_of_ne_nil (Chain.links_ofLexemes_ne_nil h)
  rw [Chain.splits_eq_places h, Chain.places, hl, runningTotal_cons]
  exact List.cons_ne_nil _ _

theorem rank_of_mem_splits {least : Rank} (h : leastRank? ts = some least) {s : Site} (hs : s ∈ splits ts) :
    s.rank = least := by
  rw [splits, h] at hs
  exact of_decide_eq_true (List.mem_filter.1 hs).2

/-- A record of a step, and the place of the operator that it applies to the values of what stands next to it. -/
inductive Record.AppliesAt (whole : List Lexeme) : Record → Operator × Nat → Prop
  | intro (before left : List Lexeme) (op : Operator) (offset : Nat) (right after : List Lexeme) (l r v : Value)
      (h : whole = before ++ left ++ ⟨.operator op, offset⟩ :: right ++ after) (hl : value left = .ok l)
      (hr : value right = .ok r) (ho : operate op l r offset = .ok v) :
      AppliesAt whole (.step l op r v) (op, (before ++ left).length)

theorem Expression.exists_applied {e : Expression} (hw : e.WellFormed) (h : e.value = .ok v)
    (before after : List Lexeme) :
    ∃ applied, List.Forall₂ (Record.AppliesAt (before ++ e.lexemes ++ after)) e.compute.steps applied ∧
      applied.Perm (operatorPlaces before.length e.lexemes) := by
  induction e generalizing v before after with
  | number n offset => exact ⟨[], .nil, .nil⟩
  | group start e stop ih =>
      obtain ⟨applied, hf, hp⟩ := ih hw h (before ++ [⟨.openParen, start⟩]) (⟨.closeParen, stop⟩ :: after)
      have hwhole : before ++ (group start e stop).lexemes ++ after =
          before ++ [⟨.openParen, start⟩] ++ e.lexemes ++ ⟨.closeParen, stop⟩ :: after := by
        simp [lexemes]
      rw [List.length_append] at hp
      rw [hwhole, lexemes, operatorPlaces_group]
      exact ⟨applied, hf, hp⟩
  | binary op offset left right ihl ihr =>
      rw [value] at h
      simp only [bind_eq_ok_iff] at h
      obtain ⟨l, hl, r, hr, ho⟩ := h
      obtain ⟨appliedl, hfl, hpl⟩ := ihl hw.1 hl before (⟨.operator op, offset⟩ :: right.lexemes ++ after)
      obtain ⟨appliedr, hfr, hpr⟩ := ihr hw.2.1 hr (before ++ left.lexemes ++ [⟨.operator op, offset⟩]) after
      have hleft : before ++ left.lexemes ++ (⟨.operator op, offset⟩ :: right.lexemes ++ after) =
          before ++ (binary op offset left right).lexemes ++ after := by
        simp [lexemes]
      have hright : before ++ left.lexemes ++ [⟨.operator op, offset⟩] ++ right.lexemes ++ after =
          before ++ (binary op offset left right).lexemes ++ after := by
        simp [lexemes]
      rw [hleft] at hfl
      rw [hright] at hfr
      have hs := fun l r => appends_step op l r offset
      have hsteps : (binary op offset left right).compute.steps =
          left.compute.steps ++ (right.compute.steps ++ [.step l op r v]) := by
        rw [compute, steps_bind fun l => right.appends_compute.bind (hs l), outcome_compute, hl]
        simp only
        rw [steps_bind (hs l), outcome_compute, hr]
        simp only
        rw [steps_step, ho]
      have happlies : Record.AppliesAt (before ++ (binary op offset left right).lexemes ++ after) (.step l op r v)
          (op, (before ++ left.lexemes).length) :=
        .intro before left.lexemes op offset right.lexemes after l r v (by simp [lexemes])
          ((value_lexemes hw.1).trans hl) ((value_lexemes hw.2.1).trans hr) ho
      refine ⟨appliedl ++ (appliedr ++ [(op, (before ++ left.lexemes).length)]), ?_, ?_⟩
      · rw [hsteps]
        exact List.rel_append hfl (List.rel_append hfr (.cons happlies .nil))
      · rw [List.length_append] at hpr
        rw [lexemes, operatorPlaces_append, operatorPlaces_operator, ← List.length_append]
        exact hpl.append ((List.perm_append_singleton _ _).trans (hpr.cons _))

namespace Record

def chosen : Record → List Operator
  | split _ sites => sites.map Site.op
  | _ => []

def applied? : Record → Option Operator
  | step _ op _ _ => some op
  | _ => none

theorem flatMap_chosen_filter (rs : List Record) : (rs.filter isSplit).flatMap chosen = rs.flatMap chosen := by
  induction rs with
  | nil => rfl
  | cons r rs ih =>
      cases r with
      | split _ sites => exact congrArg (sites.map Site.op ++ ·) ih
      | tokenized | step | failed => exact ih

theorem filterMap_applied?_filter (rs : List Record) : (rs.filter isStep).filterMap applied? = rs.filterMap applied? := by
  induction rs with
  | nil => rfl
  | cons r rs ih =>
      cases r with
      | step _ op => exact congrArg (op :: ·) ih
      | tokenized | split | failed => exact ih

theorem flatMap_chosen_of_choosesAt {rs : List Record} {chosen : List (List (Operator × Nat))}
    (h : List.Forall₂ (ChoosesAt whole) rs chosen) : rs.flatMap Record.chosen = chosen.flatten.map Prod.fst := by
  induction h with
  | nil => rfl
  | cons hr _ ih =>
      cases hr
      rw [List.flatMap_cons, List.flatten_cons, List.map_append, List.map_map, ih]
      rfl

theorem filterMap_applied?_of_appliesAt {rs : List Record} {applied : List (Operator × Nat)}
    (h : List.Forall₂ (AppliesAt whole) rs applied) : rs.filterMap applied? = applied.map Prod.fst := by
  induction h with
  | nil => rfl
  | cons hr _ ih =>
      cases hr
      rw [List.filterMap_cons, List.map_cons, ih]
      rfl

end Record

/-- Among the records of a run, each operator of the lexemes is named by one split and applied in one step. -/
structure OperatorsOnce (ts : List Lexeme) (rs : List Record) : Prop where
  chosen_perm : (rs.flatMap Record.chosen).Perm (operators ts)
  applied_perm : (rs.filterMap Record.applied?).Perm (operators ts)
  length_steps : (rs.filter Record.isStep).length = (rs.flatMap Record.chosen).length
  outermost : ∀ count sites, .split count sites ∈ rs → sites ≠ [] ∧ ∃ precedence,
    (∀ s ∈ sites, s.rank = ⟨0, precedence⟩) ∧
      Record.leastText sites = "Some((0, " ++ Numeral.ofNat precedence ++ "))"
  chosen_once : ∃ chosen, List.Forall₂ (Record.ChoosesAt ts) (rs.filter Record.isSplit) chosen ∧
    chosen.flatten.Perm (operatorPlaces 0 ts)
  applied_once : ∃ applied, List.Forall₂ (Record.AppliesAt ts) (rs.filter Record.isStep) applied ∧
    applied.Perm (operatorPlaces 0 ts)

theorem Record.exists_precedence_of_choosesAt {rs : List Record} {chosen : List (List (Operator × Nat))}
    (h : List.Forall₂ (ChoosesAt whole) rs chosen) {count : Nat} {sites : List Site} (hm : .split count sites ∈ rs) :
    sites ≠ [] ∧ ∃ precedence, ∀ s ∈ sites, s.rank = ⟨0, precedence⟩ := by
  induction h with
  | nil => cases hm
  | cons hr _ ih =>
      rcases List.mem_cons.1 hm with heq | hm
      · cases hr with
        | intro before us after precedence hwhole hl =>
            cases heq
            exact ⟨splits_ne_nil hl, precedence, fun s hs => rank_of_mem_splits hl hs⟩
      · exact ih hm

theorem Record.leastText_of_rank {sites : List Site} {precedence : Nat} (hne : sites ≠ [])
    (h : ∀ s ∈ sites, s.rank = ⟨0, precedence⟩) :
    leastText sites = "Some((0, " ++ Numeral.ofNat precedence ++ "))" := by
  obtain ⟨s, rest, rfl⟩ := List.exists_cons_of_ne_nil hne
  have hzero : Numeral.ofInt 0 = "0" := rfl
  rw [leastText, h s (List.mem_cons_self ..), rankText, tuple, hzero]
  apply String.toList_inj.1
  simp

theorem operatorsOnce_of_value (h : value ts = .ok v) : OperatorsOnce ts (compute ts).records.toList := by
  obtain ⟨chosen, hchosen, hchosenPerm⟩ := covered_of_value h [] []
  obtain ⟨e, hw, rfl, hv⟩ := Expression.exists_reads h
  obtain ⟨applied, happlied, happliedPerm⟩ := e.exists_applied hw hv [] []
  rw [List.nil_append, List.append_nil, splitRecords] at hchosen
  rw [List.nil_append, List.append_nil, ← (Expression.sameSteps_lexemes hw).steps_eq, steps] at happlied
  have hc : ((compute e.lexemes).records.toList.flatMap Record.chosen).Perm (operators e.lexemes) := by
    rw [← Record.flatMap_chosen_filter, Record.flatMap_chosen_of_choosesAt hchosen, ← map_fst_operatorPlaces 0]
    exact hchosenPerm.map Prod.fst
  have ha : ((compute e.lexemes).records.toList.filterMap Record.applied?).Perm (operators e.lexemes) := by
    rw [← Record.filterMap_applied?_filter, Record.filterMap_applied?_of_appliesAt happlied, ← map_fst_operatorPlaces 0]
    exact happliedPerm.map Prod.fst
  have hlen : applied.length = (operators e.lexemes).length := by
    rw [happliedPerm.length_eq, ← map_fst_operatorPlaces 0, List.length_map]
    rfl
  refine ⟨hc, ha, ?_, ?_, ⟨chosen, hchosen, hchosenPerm⟩, ⟨applied, happlied, happliedPerm⟩⟩
  · rw [happlied.length_eq, hlen, hc.length_eq]
  · intro count sites hm
    have hsplit := List.mem_filter (p := Record.isSplit).2 ⟨hm, rfl⟩
    obtain ⟨hne, precedence, hr⟩ := Record.exists_precedence_of_choosesAt hchosen hsplit
    exact ⟨hne, precedence, hr, Record.leastText_of_rank hne hr⟩

def nestedDifferences : List Lexeme :=
  [⟨.openParen, 0⟩, ⟨.integer 1, 1⟩, ⟨.operator .sub, 2⟩, ⟨.integer 2, 3⟩, ⟨.closeParen, 4⟩, ⟨.operator .mul, 5⟩,
    ⟨.integer 3, 6⟩, ⟨.operator .sub, 7⟩, ⟨.integer 4, 8⟩, ⟨.operator .mul, 9⟩, ⟨.openParen, 10⟩, ⟨.integer 5, 11⟩,
    ⟨.operator .sub, 12⟩, ⟨.openParen, 13⟩, ⟨.integer 6, 14⟩, ⟨.operator .sub, 15⟩, ⟨.integer 7, 16⟩,
    ⟨.closeParen, 17⟩, ⟨.closeParen, 18⟩]

theorem operatorsOnce_nestedDifferences :
    value nestedDifferences = .ok (.integer (-27)) ∧
      OperatorsOnce nestedDifferences (compute nestedDifferences).records.toList := by
  have h : value nestedDifferences = .ok (.integer (-27)) := by decide +kernel
  exact ⟨h, operatorsOnce_of_value h⟩

end Calculator
