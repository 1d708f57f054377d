import Calculator.Proofs.Weakest
import Mathlib.Data.List.Induction

namespace Calculator

variable {ts : List Lexeme} {t : Lexeme} {least rank : Rank} {op : Operator} {offset : Nat}

theorem sites_concat (ts : List Lexeme) (t : Lexeme) :
    sites (ts ++ [t]) = sites ts ++ (site? ((t, depthAfter 0 ts), ts.length)).toList := by
  have hlen : (depths ts).length = ts.length := by rw [← List.length_map Prod.fst, depths, map_fst_runningTotal]
  have hd : depths (ts ++ [t]) = depths ts ++ [(t, depthAfter 0 ts)] := runningTotal_append _ 0 ts [t]
  rw [sites, hd, List.zipIdx_append, List.filterMap_append, hlen, Nat.zero_add]
  congr 1

theorem site?_eq_none (h : ∀ op, t.token ≠ .operator op) (depth : Int) (i : Nat) : site? ((t, depth), i) = none := by
  obtain ⟨token, offset⟩ := t
  cases token with
  | operator op => exact absurd rfl (h op)
  | integer | openParen | closeParen | blank => rfl

theorem sites_concat_operator (ts : List Lexeme) (op : Operator) (offset : Nat) :
    sites (ts ++ [⟨.operator op, offset⟩]) = sites ts ++ [⟨ts.length, op, op.rankAt (depthAfter 0 ts)⟩] :=
  sites_concat ..

theorem depthAfter_concat_operator (ts : List Lexeme) (op : Operator) (offset : Nat) :
    depthAfter 0 (ts ++ [⟨.operator op, offset⟩]) = depthAfter 0 ts := by
  rw [depthAfter_append]
  exact Int.add_zero _

theorem choices_of_leastRank? (h : leastRank? ts = some least) :
    choices ts = ((sites ts).filter fun s => s.rank = least).map fun s => (s.index, s.op) := by
  rw [choices, splits, h]

theorem leastRank?_concat_operator_iff :
    leastRank? (ts ++ [⟨.operator op, offset⟩]) = some least ↔
      ((∃ s ∈ sites ts, s.rank = least) ∨ op.rankAt (depthAfter 0 ts) = least) ∧
        (∀ s ∈ sites ts, least ≤ s.rank) ∧ least ≤ op.rankAt (depthAfter 0 ts) := by
  rw [leastRank?_eq_some_iff, sites_concat_operator]
  simp [or_and_right, exists_or, or_imp, forall_and]

structure Scan where
  index : Nat
  depth : Int
  least? : Option Rank
  found : List (Nat × Operator)
  deriving DecidableEq

namespace Scan

/-- An operator that binds more weakly than all before it clears what has been found. -/
def lower (rank : Rank) (s : Scan) : Scan :=
  if s.least?.all fun least => ¬ least ≤ rank then { s with least? := some rank, found := [] } else s

def collect (rank : Rank) (op : Operator) (s : Scan) : Scan :=
  if s.least? = some rank then { s with found := s.found ++ [(s.index, op)] } else s

def advance (s : Scan) : Scan := { s with index := s.index + 1 }

def next (s : Scan) (t : Lexeme) : Scan :=
  match t.token with
  | .operator op => ((s.lower (op.rankAt s.depth)).collect (op.rankAt s.depth) op).advance
  | token => { s with depth := s.depth + token.nesting }.advance

def ofLexemes (ts : List Lexeme) : Scan := ts.foldl next ⟨0, 0, none, []⟩

/-- What there is to know of lexemes at their end. -/
def summary (ts : List Lexeme) : Scan := ⟨ts.length, depthAfter 0 ts, leastRank? ts, choices ts⟩

theorem next_of_not_operator (h : ∀ op, t.token ≠ .operator op) (s : Scan) :
    s.next t = { s with depth := s.depth + t.token.nesting }.advance := by
  obtain ⟨token, offset⟩ := t
  cases token with
  | operator op => exact absurd rfl (h op)
  | integer | openParen | closeParen | blank => rfl

theorem lower_of_lt {s : Scan} (h : ∀ least ∈ s.least?, ¬ least ≤ rank) :
    s.lower rank = { s with least? := some rank, found := [] } := by
  apply if_pos
  simpa [Option.all_eq_true] using h

theorem lower_of_le {s : Scan} (h : s.least? = some least) (hle : least ≤ rank) : s.lower rank = s := by
  apply if_neg
  simpa [h] using hle

theorem summary_concat (h : ∀ op, t.token ≠ .operator op) : summary (ts ++ [t]) = (summary ts).next t := by
  have hs : sites (ts ++ [t]) = sites ts := by
    rw [sites_concat, site?_eq_none h]
    exact List.append_nil _
  have hl : leastRank? (ts ++ [t]) = leastRank? ts := by rw [leastRank?, hs, leastRank?]
  have hc : choices (ts ++ [t]) = choices ts := by rw [choices, splits, hl, hs, choices, splits]
  rw [next_of_not_operator h, summary, hl, hc, depthAfter_append, List.length_append]
  rfl

theorem summary_concat_of_lt (h : ∀ least ∈ leastRank? ts, ¬ least ≤ op.rankAt (depthAfter 0 ts)) :
    summary (ts ++ [⟨.operator op, offset⟩]) =
      ⟨ts.length + 1, depthAfter 0 ts, some (op.rankAt (depthAfter 0 ts)), [(ts.length, op)]⟩ := by
  have hs := sites_concat_operator ts op offset
  have hd := depthAfter_concat_operator ts op offset
  have hlt : ∀ s ∈ sites ts, ¬ s.rank ≤ op.rankAt (depthAfter 0 ts) := by
    intro s hm hle
    cases hl : leastRank? ts with
    | none => exact List.not_mem_nil (sites_eq_nil_iff.2 hl ▸ hm)
    | some least => exact h least hl (Std.le_trans ((leastRank?_eq_some_iff.1 hl).2 s hm) hle)
  have hl : leastRank? (ts ++ [⟨.operator op, offset⟩]) = some (op.rankAt (depthAfter 0 ts)) := by
    rw [leastRank?_concat_operator_iff]
    refine ⟨.inr rfl, ?_, Std.le_refl _⟩
    exact fun s hm => (Std.le_total (b := s.rank)).resolve_right (hlt s hm)
  have hf : (sites ts).filter (fun s => s.rank = op.rankAt (depthAfter 0 ts)) = [] := by
    rw [List.filter_eq_nil_iff]
    intro s hm he
    exact hlt s hm (of_decide_eq_true he ▸ Std.le_refl _)
  rw [summary, hd, hl, choices_of_leastRank? hl, hs, List.filter_append, hf, List.length_append]
  simp

theorem summary_concat_of_le (hl : leastRank? ts = some least) (hle : least ≤ op.rankAt (depthAfter 0 ts)) :
    summary (ts ++ [⟨.operator op, offset⟩]) = ((summary ts).collect (op.rankAt (depthAfter 0 ts)) op).advance := by
  have hs := sites_concat_operator ts op offset
  have hd := depthAfter_concat_operator ts op offset
  have hl' : leastRank? (ts ++ [⟨.operator op, offset⟩]) = some least := by
    obtain ⟨hex, hall⟩ := leastRank?_eq_some_iff.1 hl
    exact leastRank?_concat_operator_iff.2 ⟨.inl hex, hall, hle⟩
  rw [summary, hd, hl', choices_of_leastRank? hl', hs, List.filter_append, List.map_append, ← choices_of_leastRank? hl,
    List.length_append, collect, summary, hl]
  by_cases he : op.rankAt (depthAfter 0 ts) = least
  · simp [he, advance]
  · simp [he, Ne.symm he, advance]

/-- Each lexeme is gone over as if all there is to know of those before it were known. -/
theorem next_summary (ts : List Lexeme) (t : Lexeme) : (summary ts).next t = summary (ts ++ [t]) := by
  by_cases ho : ∃ op, t.token = .operator op
  · obtain ⟨token, offset⟩ := t
    obtain ⟨op, rfl⟩ := ho
    change (((summary ts).lower (op.rankAt (depthAfter 0 ts))).collect (op.rankAt (depthAfter 0 ts)) op).advance = _
    by_cases h : ∀ least ∈ leastRank? ts, ¬ least ≤ op.rankAt (depthAfter 0 ts)
    · rw [summary_concat_of_lt h, lower_of_lt h]
      exact congrArg advance (if_pos rfl)
    · push Not at h
      obtain ⟨least, hl, hle⟩ := h
      rw [summary_concat_of_le hl hle, lower_of_le hl hle]
  · exact (summary_concat (not_exists.1 ho)).symm

theorem ofLexemes_eq_summary (ts : List Lexeme) : ofLexemes ts = summary ts := by
  induction ts using List.reverseRecOn with
  | nil => rfl
  | append_singleton ts t ih =>
      rw [ofLexemes, List.foldl_append, ← ofLexemes, ih]
      exact next_summary ts t

theorem found_ofLexemes (ts : List Lexeme) : (ofLexemes ts).found = choices ts := by
  rw [ofLexemes_eq_summary]
  rfl

end Scan

def Link.choice : Link × Nat → Nat × Operator
  | (l, index) => (index, l.op)

theorem map_choice_places (ts : List Lexeme) : ((Chain.ofLexemes ts).places 0).map Link.choice = choices ts := by
  cases h : leastRank? ts with
  | none =>
      rw [Chain.ofLexemes_of_leastRank?_eq_none h, choices, splits_of_leastRank?_eq_none h]
      rfl
  | some least =>
      rw [choices, Chain.splits_eq_places h, List.map_map]
      rfl

/-- Lexemes are cut at all operators that bind most weakly. Going over the lexemes once is enough to find these, and
lexemes without operators around them only move them. -/
theorem splits_weakest (ts : List Lexeme) :
    ListsWeakest ts ((splits ts).map fun s => (s.index, s.op)) ∧
      ListsWeakest ts (Scan.ofLexemes ts).found ∧
        ListsWeakest ts (((Chain.ofLexemes ts).places 0).map Link.choice) ∧
          ∀ before after, OperatorFree before → OperatorFree after →
            ((splits (before ++ ts ++ after)).map fun s => (s.index, s.op)) =
              (splits ts).map fun s => (s.index + before.length, s.op) := by
  refine ⟨listsWeakest_choices ts, ?_, ?_, ?_⟩
  · rw [Scan.found_ofLexemes]
    exact listsWeakest_choices ts
  · rw [map_choice_places]
    exact listsWeakest_choices ts
  · intro before after hb ha
    have h : choices (before ++ ts ++ after) = (choices ts).map fun p => (p.1 + before.length, p.2) :=
      choices_flanked hb ha
    rwa [choices, choices, List.map_map] at h

theorem splits_flanked_strayClose :
    OperatorFree [⟨.openParen, 0⟩, ⟨.blank, 1⟩] ∧ OperatorFree [⟨.closeParen, 9⟩] ∧
      ((splits ([⟨.openParen, 0⟩, ⟨.blank, 1⟩] ++ [⟨.integer 1, 2⟩, ⟨.operator .add, 3⟩, ⟨.closeParen, 4⟩,
        ⟨.operator .mul, 5⟩, ⟨.blank, 6⟩, ⟨.operator .sub, 7⟩] ++ [⟨.closeParen, 9⟩])).map fun s => (s.index, s.op)) =
          [(7, .sub)] := by
  have hb : OperatorFree [⟨.openParen, 0⟩, ⟨.blank, 1⟩] := by simp [OperatorFree]
  have ha : OperatorFree [⟨.closeParen, 9⟩] := by simp [OperatorFree]
  refine ⟨hb, ha, ?_⟩
  rw [(splits_weakest _).2.2.2 _ _ hb ha]
  decide

end Calculator
