import Calculator.Text.Utf8
import Calculator.Trace

namespace Calculator

structure Report where
  stdout : String
  stderr : String
  status : UInt32
  deriving DecidableEq

namespace Prompt

def newline : UInt8 := 10

def carriageReturn : UInt8 := 13

def backspace : Char := '\x08'

structure Line where
  bytes : List UInt8
  ended : Bool
  deriving DecidableEq

namespace Line

/-- Puts a byte in front of lines. Input after the last newline is a line only if
there is some. -/
def cons (b : UInt8) (ls : List Line) : List Line :=
  if b = newline then
    ⟨[], true⟩ :: ls
  else
    match ls with
    | l :: ls => ⟨b :: l.bytes, l.ended⟩ :: ls
    | [] => [⟨[b], false⟩]

def content (l : Line) : List UInt8 :=
  if l.ended && l.bytes.getLast? == some carriageReturn then l.bytes.dropLast else l.bytes

end Line

def lines (input : List UInt8) : List Line := input.foldr Line.cons []

def keep (kept : List Char) (c : Char) : List Char := if c = backspace then kept.tail else c :: kept

def erase (s : String) : String := String.ofList (s.toList.foldl keep []).reverse

def Line.source? (l : Line) : Option String := (Text.decode? l.content).map erase

def respond (source : String) : String :=
  match evaluate source with
  | .ok v => v.text
  | .error e => e.text

def answer (source : String) : String := respond source ++ "\n"

/-- Answers line after line up to the first that is no UTF-8. What is written stays. -/
def serve (written : String) : List Line → Report
  | [] => ⟨written, "", 0⟩
  | l :: ls =>
      match l.source? with
      | some source => serve (written ++ answer source) ls
      | none => ⟨written, "Could not read line: stream did not contain valid UTF-8\n", 1⟩

def session (input : List UInt8) : Report := serve "" (lines input)

end Prompt

end Calculator
