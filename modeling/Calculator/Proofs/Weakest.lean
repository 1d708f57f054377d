import Calculator.Proofs.Balance
import Calculator.Proofs.Places
import Mathlib.Data.List.Sort

namespace Calculator

variable {ts before after : List Lexeme} {i : Nat} {op : Operator} {s : Site} {least : Rank}

def OperatorAt (ts : List Lexeme) (i : Nat) (op : Operator) : Prop := ∃ offset, ts[i]? = some ⟨.operator op, offset⟩

/-- The rank that an operator has at a place, by the parentheses before it. -/
def rankIn (ts : List Lexeme) (i : Nat) (op : Operator) : Rank := op.rankAt (surplus (ts.take i))

/-- No operator binds more weakly than the one at the place. -/
structure WeakestAt (ts : List Lexeme) (i : Nat) (op : Operator) : Prop where
  operatorAt : OperatorAt ts i op
  rank_le : ∀ j other, OperatorAt ts j other → rankIn ts i op ≤ rankIn ts j other

theorem getElem?_depths (ts : List Lexeme) (i : Nat) :
    (depths ts)[i]? = ts[i]?.map fun t => (t, depthAfter 0 (ts.take i)) := by
  rw [depths]
  generalize (0 : Int) = depth
  induction ts generalizing depth i with
  | nil => rfl
  | cons t ts ih =>
      rw [runningTotal_cons]
      cases i with
      | zero => rfl
      | succ i => exact ih i _

theorem site?_eq_some_iff {t : Lexeme} {depth : Int} :
    site? ((t, depth), i) = some s ↔ ∃ op offset, t = ⟨.operator op, offset⟩ ∧ s = ⟨i, op, op.rankAt depth⟩ := by
  obtain ⟨token, offset⟩ := t
  cases token <;> simp [site?, eq_comm]

theorem mem_sites_iff : s ∈ sites ts ↔ ∃ i op, OperatorAt ts i op ∧ s = ⟨i, op, rankIn ts i op⟩ := by
  have hmem {t : Lexeme} {depth : Int} {i : Nat} :
      ((t, depth), i) ∈ (depths ts).zipIdx ↔ ts[i]? = some t ∧ depth = surplus (ts.take i) := by
    simp [List.mem_zipIdx_iff_getElem?, getElem?_depths, depthAfter_eq_surplus, eq_comm]
  rw [sites, List.mem_filterMap]
  constructor
  · rintro ⟨⟨⟨t, depth⟩, i⟩, hm, hs⟩
    obtain ⟨ht, rfl⟩ := hmem.1 hm
    obtain ⟨op, offset, rfl, rfl⟩ := site?_eq_some_iff.1 hs
    exact ⟨i, op, ⟨offset, ht⟩, rfl⟩
  · rintro ⟨i, op, ⟨offset, ht⟩, rfl⟩
    exact ⟨((⟨.operator op, offset⟩, surplus (ts.take i)), i), hmem.2 ⟨ht, rfl⟩,
      site?_eq_some_iff.2 ⟨op, offset, rfl, rfl⟩⟩

theorem leastRank?_eq_some_iff :
    leastRank? ts = some least ↔ (∃ s ∈ sites ts, s.rank = least) ∧ ∀ s ∈ sites ts, least ≤ s.rank := by
  rw [leastRank?, List.min?_eq_some_iff]
  simp

theorem sites_eq_nil_iff : sites ts = [] ↔ leastRank? ts = none := by
  rw [leastRank?, List.min?_eq_none_iff, List.map_eq_nil_iff]

theorem mem_splits_iff : s ∈ splits ts ↔ s ∈ sites ts ∧ ∀ r ∈ sites ts, s.rank ≤ r.rank := by
  cases h : leastRank? ts with
  | none =>
      simp [splits_of_leastRank?_eq_none h, sites_eq_nil_iff.2 h]
  | some least =>
      have hs : splits ts = (sites ts).filter fun s => s.rank = least := by
        rw [splits, h]
      obtain ⟨⟨r, hr, rfl⟩, hle⟩ := leastRank?_eq_some_iff.1 h
      rw [hs, List.mem_filter, decide_eq_true_iff]
      constructor
      · rintro ⟨hm, hrank⟩
        rw [hrank]
        exact ⟨hm, hle⟩
      · rintro ⟨hm, hrank⟩
        exact ⟨hm, Std.le_antisymm (hrank r hr) (hle s hm)⟩

theorem pairwise_splits (ts : List Lexeme) : (splits ts).Pairwise fun r s => r.index < s.index := by
  have hsites : (sites ts).Pairwise fun r s => r.index < s.index := by
    have hzip : (depths ts).zipIdx.Pairwise fun p q => p.2 < q.2 := by
      rw [← List.pairwise_map, List.zipIdx_map_snd]
      exact List.pairwise_lt_range'
    rw [sites, List.pairwise_filterMap]
    refine hzip.imp ?_
    rintro ⟨⟨t, d⟩, i⟩ ⟨⟨u, e⟩, j⟩ hlt r hr s hs
    obtain ⟨_, _, _, rfl⟩ := site?_eq_some_iff.1 hr
    obtain ⟨_, _, _, rfl⟩ := site?_eq_some_iff.1 hs
    exact hlt
  rw [splits]
  split
  · exact hsites.filter _
  · exact .nil

def choices (ts : List Lexeme) : List (Nat × Operator) := (splits ts).map fun s => (s.index, s.op)

theorem mem_choices_iff : (i, op) ∈ choices ts ↔ WeakestAt ts i op := by
  simp only [choices, List.mem_map, mem_splits_iff, mem_sites_iff]
  constructor
  · rintro ⟨_, ⟨⟨i, op, ho, rfl⟩, hle⟩, h⟩
    cases h
    exact ⟨ho, fun j other hj => hle _ ⟨j, other, hj, rfl⟩⟩
  · intro h
    refine ⟨⟨i, op, rankIn ts i op⟩, ⟨⟨i, op, h.operatorAt, rfl⟩, ?_⟩, rfl⟩
    rintro _ ⟨j, other, hj, rfl⟩
    exact h.rank_le j other hj

theorem pairwise_choices (ts : List Lexeme) : (choices ts).Pairwise fun p q => p.1 < q.1 := by
  rw [choices, List.pairwise_map]
  exact pairwise_splits ts

theorem operatorFree_iff : OperatorFree ts ↔ ∀ i op, ¬ OperatorAt ts i op := by
  constructor
  · rintro h i op ⟨offset, ht⟩
    exact h op offset (List.mem_of_getElem? ht)
  · intro h op offset hm
    obtain ⟨i, hi⟩ := List.mem_iff_getElem?.1 hm
    exact h i op ⟨offset, hi⟩

theorem operatorFree_append_iff : OperatorFree (before ++ after) ↔ OperatorFree before ∧ OperatorFree after := by
  simp only [OperatorFree, List.mem_append, not_or, forall_and]

theorem choices_eq_nil_iff : choices ts = [] ↔ OperatorFree ts := by
  rw [choices, List.map_eq_nil_iff, ← leastRank?_eq_none_iff]
  cases h : leastRank? ts with
  | none => simp [splits_of_leastRank?_eq_none h]
  | some least =>
      obtain ⟨⟨s, hs, rfl⟩, hle⟩ := leastRank?_eq_some_iff.1 h
      simp [List.ne_nil_of_mem (mem_splits_iff.2 ⟨hs, hle⟩)]

/-- All places of operators that bind most weakly, in order. -/
structure ListsWeakest (ts : List Lexeme) (found : List (Nat × Operator)) : Prop where
  increasing : found.Pairwise fun p q => p.1 < q.1
  mem_iff : ∀ i op, (i, op) ∈ found ↔ WeakestAt ts i op
  eq_nil_iff : found = [] ↔ OperatorFree ts

theorem listsWeakest_choices (ts : List Lexeme) : ListsWeakest ts (choices ts) :=
  ⟨pairwise_choices ts, fun _ _ => mem_choices_iff, choices_eq_nil_iff⟩

theorem surplus_append (ts us : List Lexeme) : surplus (ts ++ us) = surplus ts + surplus us := by
  rw [← depthAfter_eq_surplus, depthAfter_append, depthAfter_eq_add, depthAfter_eq_surplus, depthAfter_eq_surplus]

/-- Among lexemes without operators around them, operators are where they were, counted from further to the left. -/
theorem operatorAt_flanked_iff (hb : OperatorFree before) (ha : OperatorFree after) :
    OperatorAt (before ++ ts ++ after) i op ↔ ∃ j, i = j + before.length ∧ OperatorAt ts j op := by
  rw [operatorFree_iff] at hb ha
  rw [List.append_assoc]
  constructor
  · rintro ⟨offset, ht⟩
    rw [List.getElem?_append] at ht
    split at ht
    · exact absurd ⟨offset, ht⟩ (hb i op)
    next hi =>
      rw [List.getElem?_append] at ht
      split at ht
      · exact ⟨i - before.length, by omega, offset, ht⟩
      · exact absurd ⟨offset, ht⟩ (ha _ op)
  · rintro ⟨j, rfl, offset, ht⟩
    have hj : j < ts.length := (List.getElem?_eq_some_iff.1 ht).1
    refine ⟨offset, ?_⟩
    rwa [List.getElem?_append_right (Nat.le_add_left _ _), Nat.add_sub_cancel, List.getElem?_append_left hj]

theorem rankIn_flanked {j : Nat} (h : OperatorAt ts j op) :
    rankIn (before ++ ts ++ after) (j + before.length) op =
      ⟨surplus before + (rankIn ts j op).depth, (rankIn ts j op).precedence⟩ := by
  obtain ⟨offset, ht⟩ := h
  have hj : j < ts.length := (List.getElem?_eq_some_iff.1 ht).1
  have htake : (before ++ ts ++ after).take (j + before.length) = before ++ ts.take j := by
    rw [Nat.add_comm, List.append_assoc, List.take_length_add_append, List.take_append_of_le_length (Nat.le_of_lt hj)]
  rw [rankIn, htake, surplus_append]
  rfl

theorem weakestAt_flanked_iff (hb : OperatorFree before) (ha : OperatorFree after) :
    WeakestAt (before ++ ts ++ after) i op ↔ ∃ j, i = j + before.length ∧ WeakestAt ts j op := by
  have hle {j k : Nat} {a b : Operator} (hj : OperatorAt ts j a) (hk : OperatorAt ts k b) :
      rankIn (before ++ ts ++ after) (j + before.length) a ≤ rankIn (before ++ ts ++ after) (k + before.length) b ↔
        rankIn ts j a ≤ rankIn ts k b := by
    rw [rankIn_flanked hj, rankIn_flanked hk, Rank.le_def, Rank.le_def]
    simp only
    omega
  constructor
  · rintro ⟨ho, hr⟩
    obtain ⟨j, rfl, hj⟩ := (operatorAt_flanked_iff hb ha).1 ho
    refine ⟨j, rfl, hj, ?_⟩
    intro k other hk
    exact (hle hj hk).1 (hr _ other ((operatorAt_flanked_iff hb ha).2 ⟨k, rfl, hk⟩))
  · rintro ⟨j, rfl, hj, hr⟩
    refine ⟨(operatorAt_flanked_iff hb ha).2 ⟨j, rfl, hj⟩, ?_⟩
    intro k other hk
    obtain ⟨m, rfl, hm⟩ := (operatorAt_flanked_iff hb ha).1 hk
    exact (hle hj hm).2 (hr m other hm)

theorem ListsWeakest.eq_choices {found : List (Nat × Operator)} (h : ListsWeakest ts found) : found = choices ts := by
  have : Std.Irrefl fun p q : Nat × Operator => p.1 < q.1 := ⟨fun p => Nat.lt_irrefl p.1⟩
  have : Std.Antisymm fun p q : Nat × Operator => p.1 < q.1 := ⟨fun p q h h' => absurd h (Nat.lt_asymm h')⟩
  exact h.increasing.eq_of_mem_iff (pairwise_choices ts) fun p => (h.mem_iff p.1 p.2).trans mem_choices_iff.symm

theorem choices_flanked (hb : OperatorFree before) (ha : OperatorFree after) :
    choices (before ++ ts ++ after) = (choices ts).map fun p => (p.1 + before.length, p.2) := by
  symm
  apply ListsWeakest.eq_choices
  constructor
  · rw [List.pairwise_map]
    exact (pairwise_choices ts).imp fun h => Nat.add_lt_add_right h _
  · intro i op
    rw [weakestAt_flanked_iff hb ha, List.mem_map]
    constructor
    · rintro ⟨⟨j, other⟩, h, hp⟩
      obtain ⟨rfl, rfl⟩ := Prod.mk.inj hp
      exact ⟨j, rfl, mem_choices_iff.1 h⟩
    · rintro ⟨j, rfl, h⟩
      exact ⟨(j, op), mem_choices_iff.2 h, rfl⟩
  · rw [List.map_eq_nil_iff, choices_eq_nil_iff, operatorFree_append_iff, operatorFree_append_iff]
    exact ⟨fun h => ⟨⟨hb, h⟩, ha⟩, fun h => h.1.2⟩

end Calculator
