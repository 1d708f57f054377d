import Calculator.Form
import Calculator.Proofs.Nesting

namespace Calculator

structure Cut where
  left : List Lexeme
  link : Link
  deriving DecidableEq

namespace Cut

def lexemes (c : Cut) : List Lexeme := c.left ++ c.link.lexemes

def rank (c : Cut) : Rank := c.link.op.rankAt (depthAfter 0 c.left)

/-- No operator binds more weakly, and none further right as weakly. -/
structure LastWeakest (c : Cut) : Prop where
  le_of_left : ∀ r ∈ ranks 0 c.left, c.rank ≤ r
  not_le_of_right : ∀ r ∈ ranks (depthAfter 0 c.left) c.link.operand, ¬ r ≤ c.rank

theorem ranks_lexemes (depth : Int) (c : Cut) :
    ranks depth c.lexemes = ranks depth c.left ++
      c.link.op.rankAt (depthAfter depth c.left) :: ranks (depthAfter depth c.left) c.link.operand := by
  rw [lexemes, Link.lexemes, Link.head, ranks_append, ranks_operator]

theorem rankAt_mem (depth : Int) (c : Cut) :
    c.link.op.rankAt (depthAfter depth c.left) ∈ ranks depth c.lexemes := by
  rw [ranks_lexemes]
  exact List.mem_append_right _ (List.mem_cons_self ..)

theorem depths_lexemes (c : Cut) :
    depths c.lexemes = depths c.left ++ (c.link.head, depthAfter 0 c.left) ::
      runningTotal (fun t => t.token.nesting) (depthAfter 0 c.left) c.link.operand := by
  have h : depthAfter 0 c.left + c.link.head.token.nesting = depthAfter 0 c.left := Int.add_zero _
  rw [depths, lexemes, runningTotal_append, Link.lexemes, runningTotal_cons]
  change _ ++ (c.link.head, depthAfter 0 c.left) :: runningTotal _ (depthAfter 0 c.left + _) _ = _
  rw [h]
  rfl

namespace LastWeakest

variable {c : Cut}

theorem leastRank?_lexemes (h : c.LastWeakest) : leastRank? c.lexemes = some c.rank := by
  rw [leastRank?_eq_min?, List.min?_eq_some_iff]
  refine ⟨c.rankAt_mem 0, ?_⟩
  intro r hr
  rw [ranks_lexemes, List.mem_append, List.mem_cons] at hr
  rcases hr with hr | rfl | hr
  · exact h.le_of_left r hr
  · exact Std.le_refl _
  · exact (Std.le_total (a := c.rank) (b := r)).resolve_right (h.not_le_of_right r hr)

theorem leastRank?_left (h : c.LastWeakest) (hm : c.rank ∈ ranks 0 c.left) :
    leastRank? c.left = some c.rank := by
  rw [leastRank?_eq_min?, List.min?_eq_some_iff]
  exact ⟨hm, h.le_of_left⟩

end LastWeakest

theorem exists_of_mem_ranks {depth : Int} {ts : List Lexeme} {least : Rank} (h : least ∈ ranks depth ts) :
    ∃ left link, ts = left ++ Link.lexemes link ∧ link.op.rankAt (depthAfter depth left) = least ∧
      least ∉ ranks (depthAfter depth left) link.operand := by
  induction ts generalizing depth with
  | nil => cases h
  | cons t ts ih =>
      by_cases hl : least ∈ ranks (depth + t.token.nesting) ts
      · obtain ⟨left, link, rfl, hr, hn⟩ := ih hl
        exact ⟨t :: left, link, rfl, hr, hn⟩
      · have ht := (mem_ranks_cons.1 h).resolve_right hl
        obtain ⟨token, offset⟩ := t
        cases token with
        | operator op =>
            have hd : depth + (Token.operator op).nesting = depth := Int.add_zero depth
            rw [hd] at hl
            exact ⟨[], ⟨op, offset, ts⟩, rfl, Option.some.inj ht, hl⟩
        | integer | openParen | closeParen | blank => cases ht

theorem exists_lastWeakest {ts : List Lexeme} {least : Rank} (h : leastRank? ts = some least) :
    ∃ c : Cut, c.lexemes = ts ∧ c.LastWeakest := by
  rw [leastRank?_eq_min?, List.min?_eq_some_iff] at h
  obtain ⟨hm, hle⟩ := h
  obtain ⟨left, link, rfl, hr, hn⟩ := exists_of_mem_ranks hm
  have hc : Cut.rank ⟨left, link⟩ = least := hr
  refine ⟨⟨left, link⟩, rfl, ?_, ?_⟩
  · intro r h
    rw [hc]
    apply hle
    rw [ranks_append]
    exact List.mem_append_left _ h
  · intro r h hr
    rw [hc] at hr
    have hmem : r ∈ ranks 0 (Cut.lexemes ⟨left, link⟩) := by
      rw [ranks_lexemes]
      exact List.mem_append_right _ (List.mem_cons_of_mem _ h)
    rw [Std.le_antisymm hr (hle r hmem)] at h
    exact hn h

end Cut

def OperatorFree (ts : List Lexeme) : Prop := ∀ op offset, ⟨.operator op, offset⟩ ∉ ts

theorem leastRank?_eq_none_iff {ts : List Lexeme} : leastRank? ts = none ↔ OperatorFree ts := by
  constructor
  · intro h op offset hm
    obtain ⟨before, after, rfl⟩ := List.append_of_mem hm
    rw [leastRank?_eq_min?, List.min?_eq_none_iff] at h
    exact List.ne_nil_of_mem (Cut.rankAt_mem 0 ⟨before, op, offset, after⟩) h
  · intro h
    rw [Option.eq_none_iff_forall_ne_some]
    intro least hl
    obtain ⟨c, rfl, _⟩ := Cut.exists_lastWeakest hl
    exact h c.link.op c.link.offset (List.mem_append_right _ (List.mem_cons_self ..))

namespace Chain

def append (c : Chain) (ls : List Link) : Chain := ⟨c.first, c.links ++ ls⟩

theorem cons_append (least : Rank) (t : Lexeme × Int) (c : Chain) (ls : List Link) :
    cons least t (c.append ls) = (cons least t c).append ls := by
  obtain ⟨⟨token, offset⟩, depth⟩ := t
  cases token with
  | operator op =>
      by_cases h : op.rankAt depth = least <;> simp [cons, append, h]
  | integer | openParen | closeParen | blank => rfl

theorem foldr_append (least : Rank) (xs : List (Lexeme × Int)) (c : Chain) (ls : List Link) :
    xs.foldr (cons least) (c.append ls) = (xs.foldr (cons least) c).append ls := by
  induction xs with
  | nil => rfl
  | cons t xs ih => rw [List.foldr_cons, ih, cons_append, List.foldr_cons]

theorem cons_of_rank?_ne {least : Rank} {t : Lexeme × Int} (h : rank? t ≠ some least) (c : Chain) :
    cons least t c = ⟨t.1 :: c.first, c.links⟩ := by
  obtain ⟨⟨token, offset⟩, depth⟩ := t
  cases token with
  | operator op => exact if_neg fun ho => h (congrArg some ho)
  | integer | openParen | closeParen | blank => rfl

theorem foldr_of_not_mem {least : Rank} {depth : Int} {ts : List Lexeme} (h : least ∉ ranks depth ts) (c : Chain) :
    (runningTotal (fun t => t.token.nesting) depth ts).foldr (cons least) c = ⟨ts ++ c.first, c.links⟩ := by
  induction ts generalizing depth with
  | nil => rfl
  | cons t ts ih =>
      rw [mem_ranks_cons, not_or] at h
      rw [runningTotal_cons, List.foldr_cons, ih h.2, cons_of_rank?_ne h.1]
      rfl

theorem ofLexemes_of_leastRank? {ts : List Lexeme} {least : Rank} (h : leastRank? ts = some least) :
    ofLexemes ts = (depths ts).foldr (cons least) ⟨[], []⟩ := by
  simp only [ofLexemes, h]

theorem ofLexemes_of_leastRank?_eq_none {ts : List Lexeme} (h : leastRank? ts = none) : ofLexemes ts = ⟨ts, []⟩ := by
  simp only [ofLexemes, h]

end Chain

namespace Cut.LastWeakest

variable {c : Cut}

theorem ofLexemes_eq (h : c.LastWeakest) :
    Chain.ofLexemes c.lexemes = ((depths c.left).foldr (Chain.cons c.rank) ⟨[], []⟩).append [c.link] := by
  have hn : c.rank ∉ ranks (depthAfter 0 c.left) c.link.operand := fun hm =>
    h.not_le_of_right _ hm (Std.le_refl _)
  have hs : Chain.cons c.rank (c.link.head, depthAfter 0 c.left) ⟨c.link.operand ++ [], []⟩ =
      Chain.append ⟨[], []⟩ [c.link] := by
    rw [List.append_nil]
    exact if_pos rfl
  rw [Chain.ofLexemes_of_leastRank? h.leastRank?_lexemes, depths_lexemes, List.foldr_append, List.foldr_cons,
    Chain.foldr_of_not_mem hn, hs, Chain.foldr_append]

/-- With an operator as weak on the left, that part is cut in the same places. -/
theorem ofLexemes_of_mem (h : c.LastWeakest) (hm : c.rank ∈ ranks 0 c.left) :
    Chain.ofLexemes c.lexemes = (Chain.ofLexemes c.left).append [c.link] := by
  rw [h.ofLexemes_eq, Chain.ofLexemes_of_leastRank? (h.leastRank?_left hm)]

theorem ofLexemes_of_not_mem (h : c.LastWeakest) (hm : c.rank ∉ ranks 0 c.left) :
    Chain.ofLexemes c.lexemes = ⟨c.left, [c.link]⟩ := by
  rw [h.ofLexemes_eq, depths, Chain.foldr_of_not_mem hm, List.append_nil]
  rfl

end Cut.LastWeakest

end Calculator
