import Calculator.Operator
import Calculator.RunningTotal
import Calculator.Token

namespace Calculator

def depths (ts : List Lexeme) : List (Lexeme × Int) := runningTotal (fun t => t.token.nesting) 0 ts

structure Site where
  index : Nat
  op : Operator
  rank : Rank
  deriving DecidableEq

def site? : (Lexeme × Int) × Nat → Option Site
  | ((⟨.operator op, _⟩, depth), index) => some ⟨index, op, op.rankAt depth⟩
  | _ => none

def sites (ts : List Lexeme) : List Site := (depths ts).zipIdx.filterMap site?

def leastRank? (ts : List Lexeme) : Option Rank := ((sites ts).map Site.rank).min?

def splits (ts : List Lexeme) : List Site :=
  match leastRank? ts with
  | some least => (sites ts).filter fun s => s.rank = least
  | none => []

structure Link where
  op : Operator
  offset : Nat
  operand : List Lexeme
  deriving DecidableEq

structure Chain where
  first : List Lexeme
  links : List Link
  deriving DecidableEq

namespace Link

def head (l : Link) : Lexeme := ⟨.operator l.op, l.offset⟩

def lexemes (l : Link) : List Lexeme := l.head :: l.operand

end Link

namespace Chain

def lexemes (c : Chain) : List Lexeme := c.first ++ c.links.flatMap Link.lexemes

/-- Puts a lexeme in front, as the start of a new link if it is an operator of rank `least`. -/
def cons (least : Rank) (t : Lexeme × Int) (c : Chain) : Chain :=
  match t with
  | (⟨.operator op, offset⟩, depth) =>
      if op.rankAt depth = least then
        ⟨[], ⟨op, offset, c.first⟩ :: c.links⟩
      else
        ⟨⟨.operator op, offset⟩ :: c.first, c.links⟩
  | (t, _) => ⟨t :: c.first, c.links⟩

/-- Cuts at the operators that bind most weakly. Without operators there is no link. -/
def ofLexemes (ts : List Lexeme) : Chain :=
  match leastRank? ts with
  | some least => (depths ts).foldr (cons least) ⟨[], []⟩
  | none => ⟨ts, []⟩

theorem lexemes_cons (least : Rank) (t : Lexeme × Int) (c : Chain) :
    (cons least t c).lexemes = t.1 :: c.lexemes := by
  unfold cons
  split
  case h_1 =>
    split
    case isTrue => simp [lexemes, Link.lexemes, Link.head]
    case isFalse => rfl
  case h_2 => rfl

theorem lexemes_foldr_cons (least : Rank) (ts : List (Lexeme × Int)) :
    (ts.foldr (cons least) ⟨[], []⟩).lexemes = ts.map Prod.fst := by
  induction ts with
  | nil => rfl
  | cons t ts ih => rw [List.foldr_cons, lexemes_cons, ih, List.map_cons]

theorem lexemes_ofLexemes (ts : List Lexeme) : (ofLexemes ts).lexemes = ts := by
  unfold ofLexemes
  split
  case h_1 => rw [lexemes_foldr_cons, depths, map_fst_runningTotal]
  case h_2 => simp [lexemes]

theorem length_first_lt (c : Chain) (h : c.links ≠ []) : c.first.length < c.lexemes.length := by
  cases hl : c.links with
  | nil => exact absurd hl h
  | cons l ls =>
      simp only [lexemes, hl, List.flatMap_cons, Link.lexemes, List.length_append, List.length_cons]
      omega

theorem length_operand_lt (c : Chain) {l : Link} (h : l ∈ c.links) : l.operand.length < c.lexemes.length := by
  obtain ⟨ls, ms, hl⟩ := List.append_of_mem h
  simp only [lexemes, hl, List.flatMap_append, List.flatMap_cons, Link.lexemes, List.length_append,
    List.length_cons]
  omega

end Chain

end Calculator
