import Calculator.Integer

namespace Calculator

namespace Numeral

def digits (n : Nat) : List Char := Nat.toDigits 10 n

def ofNat (n : Nat) : String := String.ofList (digits n)

def ofInt : Int → String
  | .ofNat n => ofNat n
  | .negSucc n => String.ofList ('-' :: digits (n + 1))

/-- Reads ASCII digits and nothing else. Leading zeros do not count, and a number
that has no 64-bit form is refused. -/
def read? (word : List Char) : Option Int64 :=
  if !word.isEmpty && word.all Char.isDigit then
    Integer.narrow? (Nat.ofDigitChars 10 word 0)
  else
    none

theorem isDigit_of_mem_digits {n : Nat} {c : Char} (h : c ∈ digits n) : c.isDigit = true :=
  Nat.isDigit_of_mem_toDigits (by decide) (by decide) h

theorem read?_digits {n : Nat} {w : Int64} (h : w.toInt = n) : read? (digits n) = some w := by
  have hd : (digits n).all Char.isDigit = true :=
    List.all_eq_true.2 fun _ => isDigit_of_mem_digits
  have hne : (digits n).isEmpty = false := by
    cases hz : digits n with
    | nil => exact absurd hz Nat.toDigits_ne_nil
    | cons => rfl
  have hv : Nat.ofDigitChars 10 (digits n) 0 = n := Nat.ofDigitChars_ten_toDigits
  simp only [read?, hd, hne, Bool.not_false, Bool.and_self, ↓reduceIte, hv]
  exact Integer.narrow?_eq_some_iff.2 h

end Numeral

structure Binary64 where
  negative : Bool
  exponent : Nat
  fraction : Nat
  deriving DecidableEq

def Binary64.ofFloat (x : Float) : Binary64 :=
  let bits := x.toBits.toNat
  ⟨bits >>> 63 == 1, bits >>> 52 % 0x800, bits % 0x10000000000000⟩

/-- The number `mantissa * 2 ^ exponent`. The next smaller double is `2 ^ exponent`
away or, if `narrow`, half as far. -/
structure Dyadic where
  mantissa : Nat
  exponent : Int
  narrow : Bool
  deriving DecidableEq

def Binary64.magnitude (b : Binary64) : Dyadic :=
  if b.exponent = 0 then
    ⟨b.fraction, -1074, false⟩
  else
    ⟨0x10000000000000 + b.fraction, b.exponent - 1075, b.fraction = 0 && b.exponent ≠ 1⟩

namespace Dyadic

/-- Natural numbers in the proportion of `2 ^ (exponent - 2)`, a quarter of the
distance to the next larger double, to `10 ^ place`. -/
def quarter (x : Dyadic) (place : Int) : Nat × Nat :=
  (Nat.pow 2 (x.exponent - 2).toNat * Nat.pow 10 (-place).toNat,
    Nat.pow 2 (2 - x.exponent).toNat * Nat.pow 10 place.toNat)

/-- Whether reading `d * 10 ^ place` gives back the double. The ends of the interval
read back if the mantissa is even. -/
def readsBack (x : Dyadic) (place : Int) (d : Nat) : Bool :=
  let (quarter, unit) := x.quarter place
  let low := (4 * x.mantissa - if x.narrow then 1 else 2) * quarter
  let high := (4 * x.mantissa + 2) * quarter
  if x.mantissa % 2 = 0 then
    low ≤ d * unit && d * unit ≤ high
  else
    low < d * unit && d * unit < high

def floorAt (x : Dyadic) (place : Int) : Nat :=
  let (quarter, unit) := x.quarter place
  4 * x.mantissa * quarter / unit

def nearerAbove (x : Dyadic) (place : Int) (d : Nat) : Bool :=
  let (quarter, unit) := x.quarter place
  (2 * d + 1) * unit ≤ 8 * x.mantissa * quarter

end Dyadic

structure Decimal where
  digits : Nat
  place : Int
  deriving DecidableEq

namespace Dyadic

/-- Of the multiples of `10 ^ place` that read back, the one nearest to the number and
the larger of two equally near. If any reads back, so does a neighbour of the number. -/
def hit? (x : Dyadic) (place : Int) : Option Decimal :=
  let d := x.floorAt place
  match x.readsBack place d, x.readsBack place (d + 1) with
  | false, false => none
  | true, false => some ⟨d, place⟩
  | false, true => some ⟨d + 1, place⟩
  | true, true => some ⟨if x.nearerAbove place d then d + 1 else d, place⟩

def topPlace (x : Dyadic) : Int :=
  let bits := x.mantissa.log2 + 2 + x.exponent
  if 0 ≤ bits then bits * 31 / 100 + 1 else bits * 3 / 10 + 1

def coarsest (x : Dyadic) (place : Int) : Nat → Decimal
  | 0 => ⟨x.floorAt place, place⟩
  | steps + 1 => (x.hit? place).getD (x.coarsest (place - 1) steps)

/-- The decimal with the fewest digits that reads back. All doubles are multiples of
`10 ^ -1074`, so the number itself is hit there at the latest. -/
def shortest (x : Dyadic) : Decimal := x.coarsest x.topPlace (x.topPlace + 1074).toNat

end Dyadic

def zeros (n : Nat) : List Char := List.replicate n '0'

def Decimal.chars (d : Decimal) : List Char :=
  let cs := Numeral.digits d.digits
  let places := (-d.place).toNat
  if places = 0 then
    cs ++ zeros d.place.toNat
  else if places < cs.length then
    cs.take (cs.length - places) ++ '.' :: cs.drop (cs.length - places)
  else
    '0' :: '.' :: zeros (places - cs.length) ++ cs

def Binary64.text (b : Binary64) : String :=
  let sign := if b.negative then "-" else ""
  if b.exponent = 2047 then
    if b.fraction = 0 then sign ++ "Infinity" else "NaN"
  else if b.exponent = 0 && b.fraction = 0 then
    sign ++ "0"
  else
    sign ++ String.ofList b.magnitude.shortest.chars

end Calculator
