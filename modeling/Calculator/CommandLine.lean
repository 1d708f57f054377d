import Calculator.Prompt
import Calculator.Text.Plain

namespace Calculator.Text

def take? (c : Char) : (start width : Nat) → List (Char × Bool) → Option (List (Char × Bool))
  | start + 1, width, e :: es => (take? c start width es).map (e :: ·)
  | 0, width + 1, (d, taken) :: es =>
      if d = c ∧ ¬taken then some ((d, true) :: es) else (take? c 0 width es).map ((d, taken) :: ·)
  | 0, 0, _ | _, _, [] => none

/-- The characters that have a partner at most `reach` places away, and the partners. -/
def partners (reach : Nat) : (index : Nat) → List Char → List (Char × Bool) → List Char × List Char
  | _, [], es => ([], (es.filter (·.2)).map (·.1))
  | i, c :: cs, es =>
      match take? c (i - reach) (i + reach + 1 - (i - reach)) es with
      | some es => (partners reach (i + 1) cs es).map (c :: ·) id
      | none => partners reach (i + 1) cs es

/-- How alike two words are, from 0 to 1: how many characters of one have a partner in the other
nearby, and how many of these come in the same order. -/
def likeness (s t : String) : Float :=
  let (cs, ds) := partners (max s.length t.length / 2 - 1) 0 s.toList (t.toList.map (·, false))
  let moved := (cs.zip ds).countP (fun (c, d) => c ≠ d) / 2
  let matched := Float.ofNat cs.length
  if cs.isEmpty then
    0
  else
    (matched / Float.ofNat s.length + matched / Float.ofNat t.length +
      Float.ofNat (cs.length - moved) / matched) / 3

end Calculator.Text

namespace Calculator.CommandLine

open Text

inductive Flag where
  | help
  | version
  deriving DecidableEq

namespace Flag

def name : Flag → String
  | help => "help"
  | version => "version"

def ofName? (s : String) : Option Flag := [help, version].find? (·.name = s)

def ofLetter? : Char → Option Flag
  | 'h' => some help
  | 'V' => some version
  | _ => none

/-- The flag that a word is most like, if it is like one at all. Of two that it is equally like,
the version. -/
def nearest? (s : String) : Option Flag :=
  let near := [version, help].filter (likeness s ·.name > 0.7)
  near.find? fun f => near.all fun g => likeness s g.name ≤ likeness s f.name

end Flag

inductive Request where
  | inform (flag : Flag)
  | attached (flag : Flag) (value : String)
  | unknown (name : String)
  | undecodable
  | expression (source : String)
  | prompt
  deriving DecidableEq

def hyphen : UInt8 := 45

def equalsSign : UInt8 := 61

def long? (word : List UInt8) : Option Request :=
  let (name, value) := word.span (· ≠ equalsSign)
  match decode? name with
  | none => some (.unknown (decode name))
  | some s =>
      (Flag.ofName? s).map fun flag =>
        match value with
        | [] => .inform flag
        | _ :: value => .attached flag (decode value)

/-- Letters make options only together, and then the first one counts. -/
def short? (letters : List UInt8) : Option Request := do
  let flags ← (← decode? letters).toList.mapM Flag.ofLetter?
  return .inform (← flags.head?)

def option? (word : List UInt8) : Option Request :=
  match [hyphen, hyphen].isPrefixOf? word, [hyphen].isPrefixOf? word with
  | some word, _ => long? word
  | none, some letters => short? letters
  | none, none => none

def separator : List UInt8 := [hyphen, hyphen]

def afterSeparator : List (List UInt8) → List (List UInt8)
  | [] => []
  | word :: words => if word = separator then words else word :: words

/-- A separator that was taken away is a word of the expression all the same. -/
def restore (words : List (List UInt8)) (ws : List String) : List String :=
  if words.head? = some separator then "--" :: ws else ws

def request (words : List (List UInt8)) : Request :=
  match words.head?.bind option? with
  | some r => r
  | none =>
      match (afterSeparator words).mapM decode? with
      | none => .undecodable
      | some ws =>
          match restore words ws with
          | [] => .prompt
          | ws => .expression (" ".intercalate ws)

def expressionWords : String := "[EXPRESSION]..."

def usage (words : String) : String := "Usage: infixcalc " ++ words ++ "\n"

def Flag.usageWords (flag : Flag) : String := "--" ++ flag.name ++ " " ++ expressionWords

def help : String :=
  "An interactive evaluator for integer infix expressions with + - * / ^ and parentheses\n\n" ++
    usage expressionWords ++
    "\nArguments:\n  [EXPRESSION]...  The expression to evaluate. Several words are joined with single " ++
    "spaces. Without an expression, an interactive prompt is started\n\n" ++
    "Options:\n  -h, --help     Print help\n  -V, --version  Print version\n"

def version : String := "infixcalc 0.1.0\n"

def Flag.text : Flag → String
  | help => CommandLine.help
  | version => CommandLine.version

def refuse (reason words : String) : Report :=
  ⟨"", "error: " ++ reason ++ "\n\n" ++ usage words ++ "\nFor more information, try '--help'.\n", 2⟩

def tips (advice : List String) : String := "\n" ++ String.join (advice.map ("\n  tip: " ++ ·))

def refuseUnknown (name : String) : Report :=
  let word := plain ("--" ++ name)
  let near := Flag.nearest? name
  let advice :=
    (near.map fun flag => "a similar argument exists: '--" ++ flag.name ++ "'").toList ++
      ["to pass '" ++ word ++ "' as a value, use '-- " ++ word ++ "'"]
  refuse ("unexpected argument '" ++ word ++ "' found" ++ tips advice)
    (near.elim expressionWords Flag.usageWords)

structure Printed where
  text : String
  succeeded : Bool
  deriving DecidableEq

def printEvaluation (source : String) : Printed :=
  match evaluate source with
  | .ok v => ⟨v.text ++ "\n", true⟩
  | .error e => ⟨e.text ++ "\n", false⟩

def oneShot (source : String) : Report :=
  let printed := printEvaluation source
  ⟨printed.text, "", if printed.succeeded then 0 else 1⟩

def Request.run (input : List UInt8) : Request → Report
  | inform flag => ⟨flag.text, "", 0⟩
  | attached flag value =>
      refuse ("unexpected value '" ++ plain value ++ "' for '--" ++ flag.name ++
        "' found; no more were expected") flag.usageWords
  | unknown name => refuseUnknown name
  | undecodable => refuse "invalid UTF-8 was detected in one or more arguments" expressionWords
  | expression source => oneShot source
  | prompt => Prompt.session input

def run (words : List (List UInt8)) (input : List UInt8) : Report := (request words).run input

end Calculator.CommandLine
