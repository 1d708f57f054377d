import Calculator.Proofs.Joining

namespace Calculator

/-- Each word is read by itself, where it stands when single spaces join the words and the first of them begins at
`start`. The first that cannot be read ends the reading. -/
def readWords (start : Nat) (ws : List String) : Except InvalidLiteral (List Lexeme) := do
  let read ← (runningTotal (fun w => w.utf8ByteSize + 1) start ws).mapM fun (w, start) =>
    relocateReading (start + ·) (lexemes w)
  return read.flatten

theorem readWords_cons (start : Nat) (w : String) (ws : List String) :
    readWords start (w :: ws) = (do
      return (← relocateReading (start + ·) (lexemes w)) ++ (← readWords (start + (w.utf8ByteSize + 1)) ws)) := by
  simp only [readWords, runningTotal_cons, List.mapM_cons, bind_assoc, pure_bind, List.flatten_cons]

theorem lexemes_append_space (w s : String) :
    lexemes (w ++ " " ++ s) = (do
      return (← lexemes w) ++ (← relocateReading (w.utf8ByteSize + 1 + ·) (lexemes s))) := by
  have hspace : Blank " " := by decide
  have hapart : Apart w.toList (" " ++ s).toList := by
    rw [String.toList_append]
    exact .inr (.inr (.inr ⟨' ', rfl, .inl (by decide)⟩))
  have hshift : (fun offset => w.utf8ByteSize + (" ".utf8ByteSize + offset)) = (w.utf8ByteSize + 1 + ·) := by
    funext offset
    rw [← Nat.add_assoc]
    rfl
  rw [String.append_assoc, lexemes_append hapart, hspace.lexemes_append, relocateReading_comp, hshift]

theorem relocateReading_intercalate (start : Nat) (ws : List String) :
    relocateReading (start + ·) (lexemes (" ".intercalate ws)) = readWords start ws := by
  induction ws generalizing start with
  | nil => rfl
  | cons w ws ih =>
      rw [readWords_cons]
      cases ws with
      | nil =>
          rw [String.intercalate_singleton]
          cases lexemes w with
          | error e => rfl
          | ok ts => exact congrArg Except.ok (List.append_nil _).symm
      | cons v ws =>
          have hshift : (fun offset => start + (w.utf8ByteSize + 1 + offset)) = (start + (w.utf8ByteSize + 1) + ·) :=
            funext fun offset => (Nat.add_assoc start _ offset).symm
          rw [String.intercalate_cons_cons, lexemes_append_space, relocateReading_append, relocateReading_comp, hshift,
            ih]

theorem lexemes_intercalate (ws : List String) : lexemes (" ".intercalate ws) = readWords 0 ws := by
  rw [← relocateReading_intercalate, relocateReading_lexemes fun offset _ => Nat.zero_add offset]

/-- Two texts that no word joins are read as if each stood alone, but for where the second one begins. The fault of the
first is reported before that of the second. -/
theorem lexemes_distribute :
    (∀ a b : String, Apart a.toList b.toList → lexemes (a ++ b) =
      match lexemes a, lexemes b with
      | .error e, _ => .error e
      | .ok _, .error e => .error (e.relocate (a.utf8ByteSize + ·))
      | .ok ts, .ok us => .ok (ts ++ us.map (Lexeme.relocate (a.utf8ByteSize + ·)))) ∧
      ∀ ws, lexemes (" ".intercalate ws) = readWords 0 ws := by
  constructor
  · intro a b h
    rw [lexemes_append h]
    cases lexemes a with
    | error e => rfl
    | ok ts => cases lexemes b <;> rfl
  · exact lexemes_intercalate

theorem lexemes_distribute_emSpace :
    Apart "7\u2003".toList "+2x".toList ∧ lexemes "7\u2003" = .ok [⟨.integer 7, 0⟩] ∧
      lexemes "+2x" = .error ⟨"2x", 1⟩ ∧ lexemes ("7\u2003" ++ "+2x") = .error ⟨"2x", 5⟩ ∧
      lexemes (" ".intercalate ["1", "", "(x", "y"]) = .error ⟨"x", 4⟩ := by
  obtain ⟨happend, hwords⟩ := lexemes_distribute
  have hapart : Apart "7\u2003".toList "+2x".toList := by decide
  have ha : lexemes "7\u2003" = .ok [⟨.integer 7, 0⟩] := by decide +kernel
  have hb : lexemes "+2x" = .error ⟨"2x", 1⟩ := by decide +kernel
  have h := happend "7\u2003" "+2x" hapart
  rw [ha, hb] at h
  refine ⟨hapart, ha, hb, h, ?_⟩
  rw [hwords]
  decide +kernel

end Calculator
