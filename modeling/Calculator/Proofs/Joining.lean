import Calculator.Proofs.Position
import Calculator.Proofs.Relocation

namespace Calculator

/-- What is read when the same text stands elsewhere. -/
def relocateReading (f : Nat → Nat) : Except InvalidLiteral (List Lexeme) → Except InvalidLiteral (List Lexeme)
  | .ok ts => .ok (ts.map (Lexeme.relocate f))
  | .error e => .error (e.relocate f)

theorem relocateReading_append (f : Nat → Nat) (x y : Except InvalidLiteral (List Lexeme)) :
    relocateReading f (do return (← x) ++ (← y)) =
      (do return (← relocateReading f x) ++ (← relocateReading f y)) := by
  cases x with
  | error e => rfl
  | ok ts =>
      cases y with
      | error e => rfl
      | ok us => exact congrArg Except.ok List.map_append

theorem relocateReading_comp (f g : Nat → Nat) (x : Except InvalidLiteral (List Lexeme)) :
    relocateReading f (relocateReading g x) = relocateReading (fun offset => f (g offset)) x := by
  cases x with
  | error e => rfl
  | ok ts => exact congrArg Except.ok List.map_map

theorem relocateReading_lexemes {f : Nat → Nat} {source : String} (h : ∀ offset < source.utf8ByteSize, f offset = offset) :
    relocateReading f (lexemes source) = lexemes source := by
  cases hs : lexemes source with
  | error e =>
      have he := h e.offset (offset_lt_of_lexemes_eq_error hs)
      simp only [relocateReading, InvalidLiteral.relocate, he]
  | ok ts =>
      have ht : ts.map (Lexeme.relocate f) = ts.map id := by
        apply List.map_congr_left
        intro t ht
        rw [Lexeme.relocate, h t.offset (offset_lt_of_lexemes hs ht)]
        rfl
      rw [relocateReading, ht, List.map_id]

theorem Spells.add {offset : Nat} {ps : List Piece} {ts : List Lexeme} (h : Spells offset ps ts) (start : Nat) :
    Spells (start + offset) ps (ts.map (Lexeme.relocate (start + ·))) := by
  induction h with
  | nil => exact .nil _
  | blank c h ih =>
      rw [← Nat.add_assoc] at ih
      exact .blank c ih
  | symbol t h ih =>
      rw [← Nat.add_assoc] at ih
      exact .symbol t ih
  | word w n hw hn h ih =>
      rw [← Nat.add_assoc] at ih
      exact .word w n hw hn ih

theorem FirstInvalid.add {offset : Nat} {ps : List Piece} {e : InvalidLiteral} (h : FirstInvalid offset ps e)
    (start : Nat) : FirstInvalid (start + offset) ps (e.relocate (start + ·)) := by
  obtain ⟨before, w, after, hps, hb, hw, rfl⟩ := h
  refine ⟨before, w, after, hps, hb, hw, ?_⟩
  rw [InvalidLiteral.relocate, Nat.add_assoc]

theorem lexemesFrom_add (start offset : Nat) (ps : List Piece) :
    lexemesFrom (start + offset) ps = relocateReading (start + ·) (lexemesFrom offset ps) := by
  rcases spells_or_firstInvalid offset ps with ⟨ts, h⟩ | ⟨e, h⟩
  · rw [lexemesFrom_eq_ok_of_spells h, lexemesFrom_eq_ok_of_spells (h.add start)]
    rfl
  · rw [lexemesFrom_eq_error_of_firstInvalid h, lexemesFrom_eq_error_of_firstInvalid (h.add start)]
    rfl

theorem lexemes_append {a b : String} (h : Apart a.toList b.toList) :
    lexemes (a ++ b) = (do
      return (← lexemes a) ++ (← relocateReading (a.utf8ByteSize + ·) (lexemes b))) := by
  rw [lexemes_eq, String.toList_append, pieces_append h, lexemesFrom_append, Piece.totalSize_pieces,
    ← lexemes_eq, lexemes_eq b, ← lexemesFrom_add, Nat.add_comm a.utf8ByteSize]

def Blank (w : String) : Prop := ∀ c ∈ w.toList, Text.isBlank c = true

instance : DecidablePred Blank := fun w => decidable_of_iff (w.toList.all Text.isBlank = true) List.all_eq_true

theorem spells_of_isBlank {cs : List Char} (h : ∀ c ∈ cs, Text.isBlank c = true) (offset : Nat) :
    Spells offset (pieces cs) [] := by
  induction cs generalizing offset with
  | nil => exact .nil offset
  | cons c cs ih =>
      rw [List.forall_mem_cons] at h
      change Spells offset (Piece.cons c (pieces cs)) []
      rw [Piece.cons_blank h.1]
      exact .blank c (ih h.2 _)

theorem Blank.lexemes_eq {w : String} (h : Blank w) : lexemes w = .ok [] :=
  lexemes_eq_ok_iff.2 (spells_of_isBlank h 0)

theorem Apart.of_isBlank_left {w b : List Char} (h : ∀ c ∈ w, Text.isBlank c = true) : Apart w b := by
  cases hw : w.getLast? with
  | none => exact .inl (List.getLast?_eq_none_iff.1 hw)
  | some c => exact .inr (.inr (.inl ⟨c, hw, .inl (h c (List.mem_of_getLast? hw))⟩))

theorem Apart.insert_isBlank {a w b : List Char} (h : Apart a b) (hw : ∀ c ∈ w, Text.isBlank c = true) :
    Apart a (w ++ b) := by
  cases w with
  | nil => exact h
  | cons c w => exact .inr (.inr (.inr ⟨c, rfl, .inl (hw c (List.mem_cons_self ..))⟩))

theorem Blank.lexemes_append {w : String} (h : Blank w) (b : String) :
    lexemes (w ++ b) = relocateReading (w.utf8ByteSize + ·) (lexemes b) := by
  rw [Calculator.lexemes_append (Apart.of_isBlank_left h), h.lexemes_eq]
  exact bind_pure (relocateReading (w.utf8ByteSize + ·) (lexemes b))

def afterInsertion (start size offset : Nat) : Nat := if offset < start then offset else offset + size

theorem lexemes_insert {a w b : String} (h : Apart a.toList b.toList) (hw : Blank w) :
    lexemes (a ++ w ++ b) =
      relocateReading (afterInsertion a.utf8ByteSize w.utf8ByteSize) (lexemes (a ++ b)) := by
  have ha : Apart a.toList (w ++ b).toList := by
    rw [String.toList_append]
    exact h.insert_isBlank hw
  have hf : ∀ offset < a.utf8ByteSize, afterInsertion a.utf8ByteSize w.utf8ByteSize offset = offset := fun _ h => if_pos h
  have hshift : (fun offset => afterInsertion a.utf8ByteSize w.utf8ByteSize (a.utf8ByteSize + offset)) =
      fun offset => a.utf8ByteSize + (w.utf8ByteSize + offset) := by
    funext offset
    rw [afterInsertion, if_neg (by omega)]
    omega
  -- What comes from `a` stays, and what comes from `b` has both texts before it.
  rw [String.append_assoc, lexemes_append ha, lexemes_append h, hw.lexemes_append,
    relocateReading_append, relocateReading_lexemes hf, relocateReading_comp, relocateReading_comp, hshift]

theorem evaluate_eq_of_relocateReading {a b : String} {f : Nat → Nat}
    (h : lexemes b = relocateReading f (lexemes a)) : evaluate b = (evaluate a).mapError (Failure.relocate f) := by
  rw [evaluate_eq, evaluate_eq, h]
  cases lexemes a with
  | error e => rfl
  | ok ts =>
      simp only [relocateReading, value_map_relocate]
      cases value ts <;> rfl

/-- Blanks between two texts that no word joins change nothing but where the second one stands. -/
theorem evaluate_insert_blank {a w b : String} (hw : Blank w) (h : Apart a.toList b.toList) :
    evaluate (a ++ w ++ b) =
      (evaluate (a ++ b)).mapError (Failure.relocate (afterInsertion a.utf8ByteSize w.utf8ByteSize)) :=
  evaluate_eq_of_relocateReading (lexemes_insert h hw)

theorem evaluate_insert_emSpace :
    Blank "\u2003" ∧ Apart "6-4".toList "/0".toList ∧
      evaluate "6-4/0" = .error (.fault (.divisionByZero 3)) ∧
        evaluate "6-4\u2003/0" = .error (.fault (.divisionByZero 6)) := by
  have hw : Blank "\u2003" := by decide
  have hapart : Apart "6-4".toList "/0".toList := by decide
  have hjoined : evaluate "6-4/0" = .error (.fault (.divisionByZero 3)) := by decide +kernel
  have h := evaluate_insert_blank hw hapart
  refine ⟨hw, hapart, hjoined, ?_⟩
  rw [show "6-4" ++ "/0" = "6-4/0" by decide, hjoined] at h
  exact h

end Calculator
