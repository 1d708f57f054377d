import Calculator.Chain
import Calculator.Group

namespace Calculator

/-- The number of groups open after lexemes that begin inside `depth` groups. -/
def depthAfter (depth : Int) (ts : List Lexeme) : Int := ts.foldl (fun depth t => depth + t.token.nesting) depth

def rank? : Lexeme × Int → Option Rank
  | (⟨.operator op, _⟩, depth) => some (op.rankAt depth)
  | _ => none

def ranks (depth : Int) (ts : List Lexeme) : List Rank :=
  (runningTotal (fun t => t.token.nesting) depth ts).filterMap rank?

theorem Token.nesting_eq_zero {t : Token} (ho : t ≠ openParen) (hc : t ≠ closeParen) : t.nesting = 0 := by
  cases t with
  | openParen => exact absurd rfl ho
  | closeParen => exact absurd rfl hc
  | integer | operator | blank => rfl

@[simp] theorem depthAfter_nil (depth : Int) : depthAfter depth [] = depth := rfl

@[simp] theorem depthAfter_cons (depth : Int) (t : Lexeme) (ts : List Lexeme) :
    depthAfter depth (t :: ts) = depthAfter (depth + t.token.nesting) ts := rfl

@[simp] theorem depthAfter_append (depth : Int) (ts us : List Lexeme) :
    depthAfter depth (ts ++ us) = depthAfter (depthAfter depth ts) us :=
  List.foldl_append

theorem rank?_depth {t : Lexeme} {depth : Int} {r : Rank} (h : rank? (t, depth) = some r) : r.depth = depth := by
  obtain ⟨token, offset⟩ := t
  cases token with
  | operator op => cases h; rfl
  | integer | openParen | closeParen | blank => cases h

@[simp] theorem ranks_nil (depth : Int) : ranks depth [] = [] := rfl

theorem ranks_cons (depth : Int) (t : Lexeme) (ts : List Lexeme) :
    ranks depth (t :: ts) = (rank? (t, depth)).toList ++ ranks (depth + t.token.nesting) ts := by
  rw [ranks, runningTotal_cons, List.filterMap_cons]
  cases rank? (t, depth) <;> rfl

theorem mem_ranks_cons {depth : Int} {t : Lexeme} {ts : List Lexeme} {r : Rank} :
    r ∈ ranks depth (t :: ts) ↔ rank? (t, depth) = some r ∨ r ∈ ranks (depth + t.token.nesting) ts := by
  rw [ranks_cons, List.mem_append, Option.mem_toList]

@[simp] theorem ranks_append (depth : Int) (ts us : List Lexeme) :
    ranks depth (ts ++ us) = ranks depth ts ++ ranks (depthAfter depth ts) us := by
  rw [ranks, runningTotal_append, List.filterMap_append]
  rfl

@[simp] theorem ranks_operator (depth : Int) (op : Operator) (offset : Nat) (ts : List Lexeme) :
    ranks depth (⟨.operator op, offset⟩ :: ts) = op.rankAt depth :: ranks depth ts := by
  have h : depth + (Token.operator op).nesting = depth := Int.add_zero depth
  rw [ranks_cons, h]
  rfl

theorem map_rank_site? (t : Lexeme × Int) (index : Nat) : (site? (t, index)).map Site.rank = rank? t := by
  obtain ⟨⟨token, offset⟩, depth⟩ := t
  cases token <;> rfl

theorem map_rank_sites (ts : List Lexeme) : (sites ts).map Site.rank = ranks 0 ts := by
  have h : (fun t => (site? t).map Site.rank) = rank? ∘ Prod.fst := funext fun t => map_rank_site? t.1 t.2
  rw [sites, List.map_filterMap, h, ← List.filterMap_map, List.zipIdx_map_fst, depths, ranks]

theorem leastRank?_eq_min? (ts : List Lexeme) : leastRank? ts = (ranks 0 ts).min? := by
  rw [leastRank?, map_rank_sites]

/-- All groups are closed in the end, and no operator stands outside of them. -/
structure Enclosed (depth : Int) (ts : List Lexeme) : Prop where
  depthAfter_eq : depthAfter depth ts = 0
  rank_pos : ∀ r ∈ ranks depth ts, 0 < r.depth

theorem Enclosed.cons {depth : Int} {t : Lexeme} {ts : List Lexeme} (hd : 0 < depth)
    (h : Enclosed (depth + t.token.nesting) ts) : Enclosed depth (t :: ts) := by
  refine ⟨h.depthAfter_eq, ?_⟩
  intro r hr
  rcases mem_ranks_cons.1 hr with hr | hr
  · rw [rank?_depth hr]
    exact hd
  · exact h.rank_pos r hr

theorem enclosed_of_closesAtEnd {depth : Nat} {ts : List Lexeme} (h : closesAtEnd depth ts = true) :
    Enclosed (depth + 1) ts := by
  have hd (depth : Nat) : (0 : Int) < depth + 1 := by omega
  fun_induction closesAtEnd depth ts with
  | case1 => cases h
  | case2 t ts depth ht ih =>
      apply Enclosed.cons (hd _)
      rw [ht]
      exact ih h
  | case3 t ts ht =>
      apply Enclosed.cons (hd 0)
      rw [ht, List.isEmpty_iff.1 h]
      exact ⟨rfl, by simp⟩
  | case4 t ts depth ht ih =>
      apply Enclosed.cons (hd _)
      have he : ((depth + 1 : Nat) : Int) + 1 + Token.closeParen.nesting = depth + 1 := by
        rw [Token.nesting]; omega
      rw [ht, he]
      exact ih h
  | case5 t ts depth ho hz hc ih =>
      apply Enclosed.cons (hd _)
      have hc' : t.token ≠ .closeParen := by
        intro ht
        cases depth with
        | zero => exact hz ht rfl
        | succ depth => exact hc depth ht rfl
      rw [Token.nesting_eq_zero ho hc', Int.add_zero]
      exact ih h

theorem closesAtEnd_eq_append {depth : Nat} {ts : List Lexeme} (h : closesAtEnd depth ts = true) :
    ∃ stop, ts = ts.dropLast ++ [⟨.closeParen, stop⟩] := by
  fun_induction closesAtEnd depth ts with
  | case1 => cases h
  | case3 t ts ht =>
      rw [List.isEmpty_iff.1 h]
      exact ⟨t.offset, by rw [← ht]; rfl⟩
  | case2 t ts depth ht ih | case4 t ts depth ht ih | case5 t ts depth ho hz hc ih =>
      obtain ⟨stop, hs⟩ := ih h
      have hne : ts ≠ [] := by
        rw [hs]
        simp
      exact ⟨stop, by rw [List.dropLast_cons_of_ne_nil hne, List.cons_append, ← hs]⟩

theorem closesAtEnd_of_inner? {ts us : List Lexeme} (h : inner? ts = some us) :
    ∃ start rest, ts = ⟨.openParen, start⟩ :: rest ∧ us = rest.dropLast ∧ closesAtEnd 0 rest = true := by
  unfold inner? at h
  split at h
  next start rest =>
    split at h
    next hc => exact ⟨start, rest, rfl, (Option.some.inj h).symm, hc⟩
    next => cases h
  next => cases h

theorem eq_of_inner? {ts us : List Lexeme} (h : inner? ts = some us) :
    ∃ start stop, ts = ⟨.openParen, start⟩ :: us ++ [⟨.closeParen, stop⟩] := by
  obtain ⟨start, rest, rfl, rfl, hc⟩ := closesAtEnd_of_inner? h
  obtain ⟨stop, hs⟩ := closesAtEnd_eq_append hc
  exact ⟨start, stop, by rw [List.cons_append, ← hs]⟩

theorem enclosed_of_inner? {ts us : List Lexeme} (h : inner? ts = some us) : Enclosed 0 ts := by
  obtain ⟨start, rest, rfl, rfl, hc⟩ := closesAtEnd_of_inner? h
  obtain ⟨hd, hr⟩ := enclosed_of_closesAtEnd hc
  refine ⟨hd, ?_⟩
  intro r h
  rcases mem_ranks_cons.1 h with h | h
  · cases h
  · exact hr r h

end Calculator
