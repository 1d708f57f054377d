namespace Calculator.Text

def decode? (bytes : List UInt8) : Option String := String.fromUTF8? ⟨bytes.toArray⟩

def replacement : Char := '\ufffd'

structure Lead where
  payload : Nat
  more : Nat
  least : UInt8
  greatest : UInt8
  deriving DecidableEq

def Lead.ofByte? (b : UInt8) : Option Lead :=
  if b < 0x80 then some ⟨b.toNat, 0, 0x80, 0xbf⟩
  else if b < 0xc2 then none
  else if b < 0xe0 then some ⟨b.toNat % 32, 1, 0x80, 0xbf⟩
  else if b < 0xf0 then
    some ⟨b.toNat % 16, 2, if b = 0xe0 then 0xa0 else 0x80, if b = 0xed then 0x9f else 0xbf⟩
  else if b < 0xf5 then
    some ⟨b.toNat % 8, 3, if b = 0xf0 then 0x90 else 0x80, if b = 0xf4 then 0x8f else 0xbf⟩
  else none

/-- The character that begins so, and the bytes after it. The byte that breaks it off is not a
part of it. -/
def Lead.read : Lead → List UInt8 → Char × List UInt8
  | ⟨payload, 0, _, _⟩, bytes => (Char.ofNat payload, bytes)
  | ⟨_, _ + 1, _, _⟩, [] => (replacement, [])
  | ⟨payload, more + 1, least, greatest⟩, b :: bytes =>
      if least ≤ b ∧ b ≤ greatest then
        Lead.read ⟨payload * 64 + b.toNat % 64, more, 0x80, 0xbf⟩ bytes
      else
        (replacement, b :: bytes)

theorem Lead.length_read_le (l : Lead) (bytes : List UInt8) : (l.read bytes).2.length ≤ bytes.length := by
  induction bytes generalizing l with
  | nil => obtain ⟨_, _ | _, _, _⟩ := l <;> simp [Lead.read]
  | cons b bytes ih =>
      obtain ⟨_, _ | _, _, _⟩ := l
      · simp [Lead.read]
      · rw [Lead.read]
        split
        · exact Nat.le_succ_of_le (ih _)
        · exact Nat.le_refl _

def decodeList : List UInt8 → List Char
  | [] => []
  | b :: bytes =>
      match Lead.ofByte? b with
      | none => replacement :: decodeList bytes
      | some l => (l.read bytes).1 :: decodeList (l.read bytes).2
  termination_by bytes => bytes.length
  decreasing_by
    · exact Nat.lt_succ_self _
    · exact Nat.lt_succ_of_le (l.length_read_le bytes)

/-- Reads all bytes. A stretch that begins a character and does not complete it is one character
that is not known, and so is a byte that begins none. -/
def decode (bytes : List UInt8) : String := String.ofList (decodeList bytes)

end Calculator.Text
