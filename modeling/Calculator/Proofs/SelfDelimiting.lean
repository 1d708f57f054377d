import Calculator.Decimal
import Calculator.Text.Quoted
import Mathlib.Data.List.TakeWhile

namespace Calculator

variable {α : Type}

/-- What is written tells where it ends, so whatever follows it can be read as well. -/
def SelfDelimiting (write : α → List Char) : Prop :=
  ∀ ⦃a b r s⦄, write a ++ r = write b ++ s → a = b ∧ r = s

namespace SelfDelimiting

variable {write : α → List Char}

theorem of_read {read : List Char → Option (α × List Char)} (h : ∀ a r, read (write a ++ r) = some (a, r)) :
    SelfDelimiting write := by
  intro a b r s he
  have hread := congrArg read he
  rw [h, h] at hread
  exact Prod.mk.inj (Option.some.inj hread)

/-- A character that begins nothing written can end a list of any length. -/
theorem flatMap_concat (h : SelfDelimiting write) {stop : Char} (hs : ∀ a, ∃ c cs, write a = c :: cs ∧ c ≠ stop) :
    SelfDelimiting fun as : List α => as.flatMap write ++ [stop] := by
  intro as
  induction as with
  | nil =>
      intro bs r s he
      cases bs with
      | nil => exact ⟨rfl, (List.cons.inj he).2⟩
      | cons b bs =>
          obtain ⟨c, cs, hc, hne⟩ := hs b
          simp only [List.flatMap_cons, hc] at he
          exact absurd (List.cons.inj he).1.symm hne
  | cons a as ih =>
      intro bs r s he
      cases bs with
      | nil =>
          obtain ⟨c, cs, hc, hne⟩ := hs a
          simp only [List.flatMap_cons, hc] at he
          exact absurd (List.cons.inj he).1 hne
      | cons b bs =>
          simp only [List.flatMap_cons, List.append_assoc] at he
          obtain ⟨rfl, he⟩ := h he
          obtain ⟨rfl, rfl⟩ := ih (by simpa using he)
          exact ⟨rfl, rfl⟩

end SelfDelimiting

namespace Numeral

theorem digits_injective {m n : Nat} (h : digits m = digits n) : m = n := by
  have hread := congrArg (Nat.ofDigitChars 10 · 0) h
  simpa only [digits, Nat.ofDigitChars_ten_toDigits] using hread

theorem ofInt_injective {m n : Int} (h : ofInt m = ofInt n) : m = n := by
  have hsign : ∀ {k l : Nat}, digits k ≠ '-' :: digits l := by
    intro k l he
    have hd : ('-').isDigit = true := isDigit_of_mem_digits (he ▸ List.mem_cons_self ..)
    cases hd
  cases m with
  | ofNat k =>
      cases n with
      | ofNat l => exact congrArg Int.ofNat (digits_injective (String.ofList_injective h))
      | negSucc l => exact absurd (String.ofList_injective h) hsign
  | negSucc k =>
      cases n with
      | ofNat l => exact absurd (String.ofList_injective h).symm hsign
      | negSucc l =>
          have hd := (List.cons.inj (String.ofList_injective h)).2
          exact congrArg Int.negSucc (Nat.succ.inj (digits_injective hd))

theorem exists_isDigit_ofInt (n : Int) : ∃ c ∈ (ofInt n).toList, c.isDigit = true := by
  have hd : ∀ k, ∃ c ∈ digits k, c.isDigit = true := by
    intro k
    obtain ⟨c, hc⟩ := List.exists_mem_of_ne_nil _ (Nat.toDigits_ne_nil : digits k ≠ [])
    exact ⟨c, hc, isDigit_of_mem_digits hc⟩
  cases n with
  | ofNat k => simpa [ofInt, ofNat] using hd k
  | negSucc k =>
      obtain ⟨c, hc, hdc⟩ := hd (k + 1)
      exact ⟨c, by simp [ofInt, hc], hdc⟩

theorem selfDelimiting_digits_colon : SelfDelimiting fun n => digits n ++ [':'] := by
  have htake : ∀ n r, (digits n ++ [':'] ++ r).takeWhile Char.isDigit = digits n := by
    intro n r
    rw [List.append_assoc, List.takeWhile_append_of_pos fun c => isDigit_of_mem_digits]
    exact List.append_nil _
  intro m n r s he
  have hd := congrArg (List.takeWhile Char.isDigit) he
  rw [htake, htake] at hd
  obtain rfl := digits_injective hd
  exact ⟨rfl, List.append_cancel_left he⟩

end Numeral

namespace Text

def hexValue (c : Char) : Nat := ['0', '1', '2', '3', '4', '5', '6', '7', '8', '9', 'a', 'b', 'c', 'd', 'e', 'f'].idxOf c

def readHex (cs : List Char) : Nat := cs.foldl (fun n c => 16 * n + hexValue c) 0

theorem hexValue_digitChar : ∀ d < 16, hexValue d.digitChar = d := by decide

theorem readHex_hexDigits (n : Nat) : readHex (hexDigits n) = n := by
  induction n using Nat.strongRecOn with
  | ind n ih =>
      rw [hexDigits, Nat.toDigits_eq_if (by decide)]
      split
      next h => simp [readHex, hexValue_digitChar n h]
      next h =>
        have hq : readHex (Nat.toDigits 16 (n / 16)) = n / 16 := ih (n / 16) (by omega)
        rw [readHex, List.foldl_append, ← readHex, hq]
        simp only [List.foldl_cons, List.foldl_nil, hexValue_digitChar _ (Nat.mod_lt n (by decide : 0 < 16))]
        omega

theorem brace_not_mem_hexDigits (n : Nat) : '\x7d' ∉ hexDigits n := by
  have hdigit : ∀ d < 16, '\x7d' ≠ d.digitChar := by decide
  induction n using Nat.strongRecOn with
  | ind n ih =>
      rw [hexDigits, Nat.toDigits_eq_if (by decide)]
      split
      next h => exact mt List.mem_singleton.1 (hdigit n h)
      next h =>
        rw [List.mem_append, not_or]
        exact ⟨ih (n / 16) (by omega), mt List.mem_singleton.1 (hdigit _ (Nat.mod_lt n (by decide)))⟩

def readEscape : List Char → Option (Char × List Char)
  | 't' :: cs => some ('\t', cs)
  | 'n' :: cs => some ('\n', cs)
  | 'r' :: cs => some ('\r', cs)
  | '0' :: cs => some ('\x00', cs)
  | 'u' :: '\x7b' :: cs =>
      some (Char.ofNat (readHex (cs.takeWhile (· ≠ '\x7d'))), (cs.dropWhile (· ≠ '\x7d')).tail)
  | c :: cs => some (c, cs)
  | [] => none

def readQuoted : List Char → Option (Char × List Char)
  | '\\' :: cs => readEscape cs
  | c :: cs => some (c, cs)
  | [] => none

theorem readEscape_hexDigits (n : Nat) (cs : List Char) :
    readEscape ('u' :: '\x7b' :: (hexDigits n ++ '\x7d' :: cs)) = some (Char.ofNat n, cs) := by
  have hne : ∀ d ∈ hexDigits n, decide (d ≠ '\x7d') = true := by
    intro d hd
    exact decide_eq_true fun he => brace_not_mem_hexDigits n (he ▸ hd)
  rw [readEscape, List.takeWhile_append_of_pos hne, List.dropWhile_append_of_pos hne]
  simp [readHex_hexDigits]

theorem readQuoted_quotedChar (c : Char) (cs : List Char) : readQuoted (quotedChar c ++ cs) = some (c, cs) := by
  unfold quotedChar
  split
  case h_1 | h_2 | h_3 | h_4 | h_5 | h_6 => rfl
  case h_7 =>
    split
    case isTrue =>
      have h := readEscape_hexDigits c.toNat cs
      rw [Char.ofNat_toNat] at h
      simpa [readQuoted] using h
    case isFalse => simp [readQuoted]

theorem selfDelimiting_quotedChar : SelfDelimiting quotedChar := .of_read readQuoted_quotedChar

theorem exists_quotedChar_eq_cons (c : Char) : ∃ d ds, quotedChar c = d :: ds ∧ d ≠ '"' := by
  unfold quotedChar
  split
  case h_1 | h_2 | h_3 | h_4 | h_5 | h_6 => exact ⟨'\\', _, rfl, by decide⟩
  case h_7 hquote _ _ _ _ _ =>
    split
    case isTrue => exact ⟨'\\', _, rfl, by decide⟩
    case isFalse => exact ⟨c, [], rfl, hquote⟩

theorem selfDelimiting_quoted : SelfDelimiting fun s => (quoted s).toList := by
  intro s t r u h
  simp only [quoted, String.toList_ofList, List.cons_append] at h
  obtain ⟨hs, hr⟩ := selfDelimiting_quotedChar.flatMap_concat exists_quotedChar_eq_cons (List.cons.inj h).2
  exact ⟨String.toList_injective hs, hr⟩

end Text

end Calculator
