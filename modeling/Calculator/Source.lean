import Calculator.Failure
import Calculator.RunningTotal
import Calculator.Text.Blank

namespace Calculator

inductive Piece where
  | blank (c : Char)
  | symbol (t : Token)
  | word (cs : List Char)
  deriving DecidableEq

namespace Piece

def chars : Piece → List Char
  | blank c => [c]
  | symbol t => t.text.toList
  | word cs => cs

def size (p : Piece) : Nat := (String.ofList p.chars).utf8ByteSize

/-- Puts a character in front of pieces. A word grows to the left, so it ends only
at a blank, at a symbol or at the end of the source. -/
def cons (c : Char) (ps : List Piece) : List Piece :=
  if Text.isBlank c then
    blank c :: ps
  else
    match Token.ofSymbol? c with
    | some t => symbol t :: ps
    | none =>
        match ps with
        | word cs :: ps => word (c :: cs) :: ps
        | ps => word [c] :: ps

end Piece

def pieces (source : List Char) : List Piece := source.foldr Piece.cons []

theorem Token.text_of_ofSymbol? {c : Char} {t : Token} (h : ofSymbol? c = some t) :
    t.text.toList = [c] := by
  unfold ofSymbol? at h
  split at h
  case h_1 | h_2 => cases h; rfl
  case h_3 =>
    obtain ⟨op, hop, rfl⟩ := Option.map_eq_some_iff.1 h
    rw [Operator.ofSymbol?_eq_some_iff] at hop
    simp [text, Operator.text, hop]

theorem Piece.chars_cons (c : Char) (ps : List Piece) :
    (cons c ps).flatMap chars = c :: ps.flatMap chars := by
  unfold cons
  split
  case isTrue => rfl
  case isFalse =>
    split
    case h_1 t h => simp [chars, Token.text_of_ofSymbol? h]
    case h_2 =>
      split
      case h_1 => simp [chars]
      case h_2 => simp [chars]

theorem chars_pieces (source : List Char) : (pieces source).flatMap Piece.chars = source := by
  induction source with
  | nil => rfl
  | cons c cs ih => exact (Piece.chars_cons c (pieces cs)).trans (congrArg (c :: ·) ih)

def Piece.lexeme? (offset : Nat) : Piece → Except InvalidLiteral (Option Lexeme)
  | blank _ => .ok none
  | symbol t => .ok (some ⟨t, offset⟩)
  | word cs =>
      match Numeral.read? cs with
      | some n => .ok (some ⟨.integer n, offset⟩)
      | none => .error ⟨String.ofList cs, offset⟩

/-- Reads a source from left to right. The first word that is no number is
reported, whatever follows it. -/
def lexemes (source : String) : Except InvalidLiteral (List Lexeme) :=
  (runningTotal Piece.size 0 (pieces source.toList)).filterMapM fun (p, offset) => p.lexeme? offset

end Calculator
