import Calculator.Proofs.Cut

namespace Calculator

variable {ts : List Lexeme} {least : Rank}

/-- The links of a chain that begins at an index, each with the index of its operator. -/
def Chain.places (index : Nat) (c : Chain) : List (Link × Nat) :=
  runningTotal (fun l => l.lexemes.length) (index + c.first.length) c.links

def Link.siteAt (least : Rank) : Link × Nat → Site
  | (l, index) => ⟨index, l.op, least⟩

namespace Chain

theorem places_link (index : Nat) (l : Link) (ls : List Link) :
    places index ⟨[], l :: ls⟩ = (l, index) :: places (index + 1) ⟨l.operand, ls⟩ := by
  have hnext : index + l.lexemes.length = index + 1 + l.operand.length := by
    rw [Link.lexemes, List.length_cons]
    omega
  rw [places, runningTotal_cons, List.length_nil, Nat.add_zero, hnext]
  rfl

theorem places_first (index : Nat) (t : Lexeme) (first : List Lexeme) (ls : List Link) :
    places index ⟨t :: first, ls⟩ = places (index + 1) ⟨first, ls⟩ := by
  rw [places, places, List.length_cons, Nat.add_assoc, Nat.add_comm 1]

theorem filter_sites_eq (least : Rank) (depth : Int) (index : Nat) (ts : List Lexeme) :
    (((runningTotal (fun t => t.token.nesting) depth ts).zipIdx index).filterMap site?).filter (fun s => s.rank = least) =
      (places index ((runningTotal (fun t => t.token.nesting) depth ts).foldr (cons least) ⟨[], []⟩)).map
        (Link.siteAt least) := by
  induction ts generalizing depth index with
  | nil => rfl
  | cons t ts ih =>
      rw [runningTotal_cons, List.zipIdx_cons, List.foldr_cons]
      obtain ⟨token, offset⟩ := t
      cases token with
      | operator op =>
          by_cases h : op.rankAt depth = least
          · simp [site?, cons, h, ih, places_link, Link.siteAt]
          · simp [site?, cons, h, ih, places_first]
      | integer | openParen | closeParen | blank =>
          rw [List.filterMap_cons_none rfl, ih]
          exact congrArg _ (places_first ..).symm

theorem splits_eq_places (h : leastRank? ts = some least) :
    splits ts = (places 0 (ofLexemes ts)).map (Link.siteAt least) := by
  rw [ofLexemes_of_leastRank? h, splits, h]
  exact filter_sites_eq least 0 0 ts

end Chain

theorem splits_of_leastRank?_eq_none (h : leastRank? ts = none) : splits ts = [] := by
  rw [splits, h]

theorem exists_of_mem_runningTotal {ls : List Link} {l : Link} {index : Nat} (before : List Lexeme)
    (h : (l, index) ∈ runningTotal (fun l => l.lexemes.length) before.length ls) :
    ∃ us vs, before ++ ls.flatMap Link.lexemes = us ++ l.lexemes ++ vs ∧ us.length = index := by
  induction ls generalizing before with
  | nil => cases h
  | cons m ls ih =>
      rw [runningTotal_cons, List.mem_cons] at h
      rcases h with h | h
      · obtain ⟨rfl, rfl⟩ := Prod.mk.inj h
        exact ⟨before, ls.flatMap Link.lexemes, by simp, rfl⟩
      · rw [← List.length_append] at h
        obtain ⟨us, vs, he, hlen⟩ := ih (before ++ m.lexemes) h
        exact ⟨us, vs, by rw [← he, List.flatMap_cons, List.append_assoc], hlen⟩

theorem exists_of_mem_places {c : Chain} {l : Link} {index : Nat} (h : (l, index) ∈ c.places 0) :
    ∃ us vs, c.lexemes = us ++ l.lexemes ++ vs ∧ us.length = index := by
  rw [Chain.places, Nat.zero_add] at h
  exact exists_of_mem_runningTotal c.first h

end Calculator
