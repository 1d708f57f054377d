import Calculator.Proofs.Segmentation
import Calculator.Source
import Calculator.Trace

namespace Calculator

namespace Numeral

structure Valid (word : List Char) : Prop where
  ne_nil : word ≠ []
  isDigit : ∀ c ∈ word, c.isDigit = true
  value_le : (Nat.ofDigitChars 10 word 0 : Int) ≤ Int64.maxValue.toInt

theorem read?_of_isDigit {word : List Char} (hne : word ≠ []) (hd : ∀ c ∈ word, c.isDigit = true) :
    read? word = Integer.narrow? (Nat.ofDigitChars 10 word 0) := by
  simp [read?, hne, List.all_eq_true.2 hd]

theorem read?_eq_some_iff {word : List Char} {n : Int64} :
    read? word = some n ↔ Valid word ∧ n.toInt = Nat.ofDigitChars 10 word 0 := by
  constructor
  · intro h
    have hw : word ≠ [] ∧ ∀ c ∈ word, c.isDigit = true := by
      apply Classical.byContradiction
      intro hw
      simp [read?] at h
      exact hw ⟨h.1.1, h.1.2⟩
    rw [read?_of_isDigit hw.1 hw.2, Integer.narrow?_eq_some_iff] at h
    refine ⟨⟨hw.1, hw.2, ?_⟩, h⟩
    rw [← h, Int64.toInt_maxValue]
    exact Int.le_sub_one_of_lt n.toInt_lt
  · rintro ⟨hw, hn⟩
    rw [read?_of_isDigit hw.ne_nil hw.isDigit, Integer.narrow?_eq_some_iff]
    exact hn

theorem Valid.exists_read? {word : List Char} (h : Valid word) : ∃ n, read? word = some n := by
  cases hn : read? word with
  | some n => exact ⟨n, rfl⟩
  | none =>
      rw [read?_of_isDigit h.ne_nil h.isDigit, Integer.narrow?_eq_none_iff] at hn
      have hle := h.value_le
      rw [Int64.toInt_minValue] at hn
      omega

theorem read?_eq_none_iff {word : List Char} : read? word = none ↔ ¬ Valid word := by
  constructor
  · intro h hw
    obtain ⟨n, hn⟩ := hw.exists_read?
    rw [h] at hn
    cases hn
  · intro h
    cases hn : read? word with
    | none => rfl
    | some n => exact absurd (read?_eq_some_iff.1 hn).1 h

end Numeral

namespace Piece

def totalSize (ps : List Piece) : Nat := (String.ofList (ps.flatMap chars)).utf8ByteSize

theorem totalSize_cons (p : Piece) (ps : List Piece) : totalSize (p :: ps) = p.size + totalSize ps := by
  rw [totalSize, List.flatMap_cons, String.ofList_append, String.utf8ByteSize_append]
  rfl

theorem totalSize_pieces (source : String) : totalSize (pieces source.toList) = source.utf8ByteSize := by
  rw [totalSize, chars_pieces, String.ofList_toList]

theorem lexeme?_word {w : List Char} {n : Int64} (h : Numeral.read? w = some n) (offset : Nat) :
    (word w).lexeme? offset = .ok (some ⟨.integer n, offset⟩) := by
  simp only [lexeme?, h]

theorem lexeme?_word_of_not_valid {w : List Char} (h : ¬ Numeral.Valid w) (offset : Nat) :
    (word w).lexeme? offset = .error ⟨String.ofList w, offset⟩ := by
  simp only [lexeme?, Numeral.read?_eq_none_iff.2 h]

end Piece

def lexemesFrom (offset : Nat) (ps : List Piece) : Except InvalidLiteral (List Lexeme) :=
  (runningTotal Piece.size offset ps).filterMapM fun (p, offset) => p.lexeme? offset

theorem lexemes_eq (source : String) : lexemes source = lexemesFrom 0 (pieces source.toList) := rfl

theorem lexemesFrom_cons (offset : Nat) (p : Piece) (ps : List Piece) :
    lexemesFrom offset (p :: ps) = (do
      let t ← p.lexeme? offset
      let ts ← lexemesFrom (offset + p.size) ps
      return t.toList ++ ts) := by
  simp only [lexemesFrom, runningTotal_cons, List.filterMapM_cons]
  rcases p.lexeme? offset with e | _ | t
  · rfl
  · exact (bind_pure _).symm
  · rfl

theorem lexemesFrom_append (offset : Nat) (ps qs : List Piece) :
    lexemesFrom offset (ps ++ qs) = (do
      let ts ← lexemesFrom offset ps
      let us ← lexemesFrom (offset + Piece.totalSize ps) qs
      return ts ++ us) := by
  induction ps generalizing offset with
  | nil => exact (bind_pure _).symm
  | cons p ps ih =>
      rw [List.cons_append, lexemesFrom_cons, lexemesFrom_cons, ih, Piece.totalSize_cons, Nat.add_assoc]
      simp only [bind_assoc, pure_bind, List.append_assoc]

/-- What pieces say when all their words are numbers, from the byte on at which the first of
them starts. -/
inductive Spells : Nat → List Piece → List Lexeme → Prop
  | nil (offset : Nat) : Spells offset [] []
  | blank {offset : Nat} {ps : List Piece} {ts : List Lexeme} (c : Char)
      (h : Spells (offset + (Piece.blank c).size) ps ts) : Spells offset (.blank c :: ps) ts
  | symbol {offset : Nat} {ps : List Piece} {ts : List Lexeme} (t : Token)
      (h : Spells (offset + (Piece.symbol t).size) ps ts) : Spells offset (.symbol t :: ps) (⟨t, offset⟩ :: ts)
  | word {offset : Nat} {ps : List Piece} {ts : List Lexeme} (w : List Char) (n : Int64)
      (hw : Numeral.Valid w) (hn : n.toInt = Nat.ofDigitChars 10 w 0)
      (h : Spells (offset + (Piece.word w).size) ps ts) : Spells offset (.word w :: ps) (⟨.integer n, offset⟩ :: ts)

/-- The error names the first word that is no number, all of it and where it starts. -/
def FirstInvalid (offset : Nat) (ps : List Piece) (e : InvalidLiteral) : Prop :=
  ∃ before w after, ps = before ++ .word w :: after ∧ (∀ v, .word v ∈ before → Numeral.Valid v) ∧
    ¬ Numeral.Valid w ∧ e = ⟨String.ofList w, offset + Piece.totalSize before⟩

variable {offset : Nat} {p : Piece} {ps : List Piece} {ts : List Lexeme} {e : InvalidLiteral}

theorem lexemesFrom_eq_ok_of_spells (h : Spells offset ps ts) : lexemesFrom offset ps = .ok ts := by
  induction h with
  | nil => rfl
  | blank c h ih | symbol t h ih =>
      rw [lexemesFrom_cons, ih]
      rfl
  | word w n hw hn h ih =>
      rw [lexemesFrom_cons, ih, Piece.lexeme?_word (Numeral.read?_eq_some_iff.2 ⟨hw, hn⟩)]
      rfl

theorem exists_spells (offset : Nat) (h : ∀ w, .word w ∈ ps → Numeral.Valid w) : ∃ ts, Spells offset ps ts := by
  induction ps generalizing offset with
  | nil => exact ⟨[], .nil offset⟩
  | cons p ps ih =>
      obtain ⟨ts, ht⟩ := ih (offset + p.size) fun w hw => h w (List.mem_cons_of_mem _ hw)
      cases p with
      | blank c => exact ⟨ts, .blank c ht⟩
      | symbol t => exact ⟨_, .symbol t ht⟩
      | word w =>
          have hw := h w (List.mem_cons_self ..)
          obtain ⟨n, hn⟩ := hw.exists_read?
          exact ⟨_, .word w n hw (Numeral.read?_eq_some_iff.1 hn).2 ht⟩

theorem exists_firstInvalid (offset : Nat) {w : List Char} (hm : .word w ∈ ps) (hw : ¬ Numeral.Valid w) :
    ∃ e, FirstInvalid offset ps e := by
  induction ps with
  | nil => cases hm
  | cons p ps ih =>
      by_cases hp : ∀ v, p = .word v → Numeral.Valid v
      · have hne : p ≠ .word w := fun h => hw (hp w h)
        obtain ⟨e, before, v, after, rfl, hb, hv, rfl⟩ := ih ((List.mem_cons.1 hm).resolve_left hne.symm)
        refine ⟨_, p :: before, v, after, rfl, ?_, hv, rfl⟩
        intro u hu
        rcases List.mem_cons.1 hu with hu | hu
        · exact hp u hu.symm
        · exact hb u hu
      · -- Nothing stands before `p`, so it comes first whatever `w` is.
        simp only [not_forall] at hp
        obtain ⟨v, rfl, hv⟩ := hp
        exact ⟨_, [], v, ps, rfl, by simp, hv, rfl⟩

theorem lexemesFrom_eq_error_of_firstInvalid (h : FirstInvalid offset ps e) : lexemesFrom offset ps = .error e := by
  obtain ⟨before, w, after, rfl, hb, hw, rfl⟩ := h
  obtain ⟨ts, ht⟩ := exists_spells offset hb
  rw [lexemesFrom_append, lexemesFrom_eq_ok_of_spells ht, lexemesFrom_cons, Piece.lexeme?_word_of_not_valid hw]
  rfl

theorem Spells.valid (h : Spells offset ps ts) {w : List Char} (hw : .word w ∈ ps) : Numeral.Valid w := by
  induction h with
  | nil => cases hw
  | blank c h ih | symbol t h ih => exact ih (by simpa using hw)
  | word v n hv hn h ih =>
      rcases List.mem_cons.1 hw with hwv | hw
      · cases hwv
        exact hv
      · exact ih hw

/-- The lexeme stands where one of the pieces begins, and unless that is a word it is its token. -/
def Lexeme.ComesFrom (t : Lexeme) (offset : Nat) (ps : List Piece) : Prop :=
  ∃ before p after, ps = before ++ p :: after ∧ t.offset = offset + Piece.totalSize before ∧
    (p = .symbol t.token ∨ ∃ n, t.token = .integer n)

theorem Lexeme.ComesFrom.cons {t : Lexeme} (h : t.ComesFrom (offset + p.size) ps) : t.ComesFrom offset (p :: ps) := by
  obtain ⟨before, q, after, rfl, ho, hq⟩ := h
  refine ⟨p :: before, q, after, rfl, ?_, hq⟩
  rw [ho, Piece.totalSize_cons, Nat.add_assoc]

theorem Spells.comesFrom (h : Spells offset ps ts) : ∀ t ∈ ts, t.ComesFrom offset ps := by
  induction h with
  | nil => simp
  | blank c h ih => exact fun t ht => (ih t ht).cons
  | @symbol offset ps ts u h ih =>
      rw [List.forall_mem_cons]
      exact ⟨⟨[], .symbol u, ps, rfl, rfl, .inl rfl⟩, fun t ht => (ih t ht).cons⟩
  | @word offset ps ts w n hw hn h ih =>
      rw [List.forall_mem_cons]
      exact ⟨⟨[], .word w, ps, rfl, rfl, .inr ⟨n, rfl⟩⟩, fun t ht => (ih t ht).cons⟩

theorem spells_or_firstInvalid (offset : Nat) (ps : List Piece) :
    (∃ ts, Spells offset ps ts) ∨ ∃ e, FirstInvalid offset ps e := by
  by_cases h : ∀ w, .word w ∈ ps → Numeral.Valid w
  · exact .inl (exists_spells offset h)
  · simp only [not_forall] at h
    obtain ⟨w, hm, hw⟩ := h
    exact .inr (exists_firstInvalid offset hm hw)

theorem lexemesFrom_eq_ok_iff : lexemesFrom offset ps = .ok ts ↔ Spells offset ps ts := by
  constructor
  · intro h
    rcases spells_or_firstInvalid offset ps with ⟨us, hs⟩ | ⟨e, he⟩
    · rw [lexemesFrom_eq_ok_of_spells hs] at h
      cases h
      exact hs
    · rw [lexemesFrom_eq_error_of_firstInvalid he] at h
      cases h
  · exact lexemesFrom_eq_ok_of_spells

theorem lexemesFrom_eq_error_iff : lexemesFrom offset ps = .error e ↔ FirstInvalid offset ps e := by
  constructor
  · intro h
    rcases spells_or_firstInvalid offset ps with ⟨us, hs⟩ | ⟨d, hd⟩
    · rw [lexemesFrom_eq_ok_of_spells hs] at h
      cases h
    · rw [lexemesFrom_eq_error_of_firstInvalid hd] at h
      cases h
      exact hd
  · exact lexemesFrom_eq_error_of_firstInvalid

def Token.Readable : Token → Prop
  | integer n => 0 ≤ n.toInt
  | blank => False
  | operator _ | openParen | closeParen => True

namespace Token

variable {c : Char} {t : Token}

theorem readable_of_mem_symbolTable (h : (c, t) ∈ symbolTable) : t.Readable := by
  have hall : ∀ s ∈ symbolTable, s.2.Readable := by simp [symbolTable, Readable]
  exact hall (c, t) h

theorem text_of_mem_symbolTable (h : (c, t) ∈ symbolTable) : t.text.toList = [c] :=
  text_of_ofSymbol? (ofSymbol?_eq_some_iff.2 h)

theorem Readable.symbol_or_integer (h : t.Readable) :
    (∃ c, (c, t) ∈ symbolTable) ∨ ∃ n : Int64, t = .integer n ∧ ∃ k : Nat, n.toInt = k := by
  cases t with
  | integer n => exact .inr ⟨n, rfl, n.toInt.toNat, (Int.toNat_of_nonneg h).symm⟩
  | operator op => exact .inl ⟨op.symbol, by cases op <;> decide⟩
  | openParen => exact .inl ⟨'(', by decide⟩
  | closeParen => exact .inl ⟨')', by decide⟩
  | blank => cases h

end Token

theorem Spells.readable (h : Spells offset ps ts) (hp : ∀ t, .symbol t ∈ ps → t.Readable) :
    ∀ t ∈ ts, t.token.Readable := by
  induction h with
  | nil => simp
  | blank c h ih => exact ih fun t ht => hp t (List.mem_cons_of_mem _ ht)
  | symbol t h ih =>
      rw [List.forall_mem_cons]
      exact ⟨hp t (List.mem_cons_self ..), ih fun t ht => hp t (List.mem_cons_of_mem _ ht)⟩
  | word w n hw hn h ih =>
      rw [List.forall_mem_cons]
      have hpos : 0 ≤ n.toInt := by omega
      exact ⟨hpos, ih fun t ht => hp t (List.mem_cons_of_mem _ ht)⟩

theorem Segmented.readable {cs : List Char} (h : Segmented cs ps) {t : Token} (ht : .symbol t ∈ ps) : t.Readable := by
  induction h with
  | nil => cases ht
  | blank c hc h ih | word w hne hw hnext h ih => exact ih (by simpa using ht)
  | symbol c u hu h ih =>
      rcases List.mem_cons.1 ht with hu' | ht
      · cases hu'
        exact Token.readable_of_mem_symbolTable hu
      · exact ih ht

theorem lexemes_eq_ok_iff {source : String} :
    lexemes source = .ok ts ↔ Spells 0 (pieces source.toList) ts :=
  lexemesFrom_eq_ok_iff

theorem lexemes_eq_error_iff {source : String} :
    lexemes source = .error e ↔ FirstInvalid 0 (pieces source.toList) e :=
  lexemesFrom_eq_error_iff

theorem readable_of_lexemes {source : String} (h : lexemes source = .ok ts) : ∀ t ∈ ts, t.token.Readable :=
  (lexemes_eq_ok_iff.1 h).readable fun _ => (segmented_pieces source.toList).readable

theorem evaluate_eq_literal_iff {source : String} :
    evaluate source = .error (.literal e) ↔ lexemes source = .error e := by
  rw [evaluate_eq]
  cases lexemes source with
  | error d => simp
  | ok ts => cases hv : value ts <;> simp [Except.mapError, hv]

theorem evaluate_eq_ok_iff {source : String} {v : Value} :
    evaluate source = .ok v ↔ ∃ ts, lexemes source = .ok ts ∧ value ts = .ok v := by
  rw [evaluate_eq]
  cases lexemes source with
  | error d => simp
  | ok ts => cases hv : value ts <;> simp [Except.mapError, hv]

theorem evaluate_eq_fault_iff {source : String} {f : Fault} :
    evaluate source = .error (.fault f) ↔ ∃ ts, lexemes source = .ok ts ∧ value ts = .error f := by
  rw [evaluate_eq]
  cases lexemes source with
  | error d => simp
  | ok ts => cases hv : value ts <;> simp [Except.mapError, hv]

/-- A source falls into pieces in one way only, and its words decide: if all are numbers they
give lexemes together with the symbols, and else the first that is none is reported, by an
evaluation as well, whatever follows it. -/
theorem lexemes_of_segmentation (source : String) :
    ∃ ps, (∀ qs, Segmented source.toList qs ↔ qs = ps) ∧
      ((∃ ts, lexemes source = .ok ts) ↔ ∀ w, .word w ∈ ps → Numeral.Valid w) ∧
      (∀ ts, lexemes source = .ok ts ↔ Spells 0 ps ts ∧ ∀ t ∈ ts, t.token.Readable) ∧
      ∀ e, (lexemes source = .error e ↔ FirstInvalid 0 ps e) ∧
        (evaluate source = .error (.literal e) ↔ FirstInvalid 0 ps e) := by
  refine ⟨pieces source.toList, ?_, ?_, ?_, ?_⟩
  · intro qs
    rw [segmented_iff, eq_comm]
  · constructor
    · rintro ⟨ts, h⟩ w hm
      exact (lexemes_eq_ok_iff.1 h).valid hm
    · intro h
      obtain ⟨ts, hs⟩ := exists_spells 0 h
      exact ⟨ts, lexemes_eq_ok_iff.2 hs⟩
  · intro ts
    constructor
    · intro h
      exact ⟨lexemes_eq_ok_iff.1 h, readable_of_lexemes h⟩
    · intro h
      exact lexemes_eq_ok_iff.2 h.1
  · intro e
    rw [evaluate_eq_literal_iff]
    exact ⟨lexemes_eq_error_iff, lexemes_eq_error_iff⟩

/-- A digit of another script makes the whole word invalid, and the second invalid word is not reached. -/
example : lexemes "\u200300+7\u0663+x" = .error ⟨"7\u0663", 6⟩ := by decide +kernel

end Calculator
