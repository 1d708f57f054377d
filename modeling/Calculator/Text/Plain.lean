namespace Calculator.Text

inductive Sequence where
  | outside
  | escape
  | intermediate
  | control
  | command
  | device
  | deviceParameter
  | deviceIntermediate
  | string
  deriving DecidableEq

def endsString (c : Char) : Bool := (String.utf8EncodeChar c).contains 0x9c

namespace Sequence

def next (s : Sequence) (c : Char) : Sequence :=
  if c = '\x1b' then
    escape
  else if c = '\x18' ∨ c = '\x1a' then
    outside
  else
    match s with
    | outside => outside
    | escape =>
        if ' ' ≤ c ∧ c ≤ '/' then intermediate
        else if c = '[' then control
        else if c = ']' then command
        else if c = 'P' then device
        else if c = 'X' ∨ c = '^' ∨ c = '_' then string
        else if '0' ≤ c ∧ c ≤ '~' then outside
        else escape
    | intermediate => if '0' ≤ c ∧ c ≤ '~' then outside else intermediate
    | control => if '@' ≤ c ∧ c ≤ '~' then outside else control
    | command => if c = '\x07' then outside else command
    | device =>
        if ' ' ≤ c ∧ c ≤ '/' then deviceIntermediate
        else if '0' ≤ c ∧ c ≤ '?' then deviceParameter
        else if '@' ≤ c ∧ c ≤ '~' then string
        else device
    | deviceParameter =>
        if ' ' ≤ c ∧ c ≤ '/' then deviceIntermediate
        else if '0' ≤ c ∧ c ≤ ';' then deviceParameter
        else if '<' ≤ c ∧ c ≤ '~' then string
        else deviceParameter
    | deviceIntermediate => if '0' ≤ c ∧ c ≤ '~' then string else deviceIntermediate
    | string => if endsString c then outside else string

def shows (s : Sequence) (c : Char) : Bool :=
  let moves := c = '\t' ∨ c = '\n' ∨ c = '\x0c' ∨ c = '\r'
  match s with
  | outside => moves ∨ ' ' ≤ c ∧ c ≠ '\x7f'
  | escape | intermediate | control => moves
  | command | device | deviceParameter | deviceIntermediate | string => false

end Sequence

structure Place where
  sequence : Sequence
  shown : Bool
  deriving DecidableEq

/-- A stretch of shown characters goes on as outside of sequences. Within one it delays the
sequence, which only a character beyond ASCII ends. -/
def Place.next (p : Place) (c : Char) : Place :=
  if p.shown && Sequence.outside.shows c then
    ⟨if c ≤ '\x7f' then p.sequence else .outside, true⟩
  else
    ⟨p.sequence.next c, p.sequence.shows c⟩

def Place.plain (p : Place) : List Char → List Char
  | [] => []
  | c :: cs => if (p.next c).shown then c :: (p.next c).plain cs else (p.next c).plain cs

/-- What is left of a text without its control sequences and control characters. -/
def plain (s : String) : String := String.ofList ((Place.mk .outside false).plain s.toList)

end Calculator.Text
