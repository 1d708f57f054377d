import Calculator.Proofs.Joining
import Calculator.Proofs.Options
import Calculator.Proofs.Session

namespace Calculator

namespace Prompt

open Text

variable {s : String}

/-- An answer tells no offsets, so blanks that part no word do not show in it. -/
theorem respond_insert_blank {a w b : String} (h : Apart a.toList b.toList) (hw : Blank w) :
    respond (a ++ w ++ b) = respond (a ++ b) := by
  rw [respond, respond, evaluate_eq_of_relocateReading (lexemes_insert h hw)]
  cases evaluate (a ++ b) with
  | ok v => rfl
  | error e => exact e.text_relocate _

theorem respond_append_blank {w : String} (s : String) (hw : Blank w) : respond (s ++ w) = respond s := by
  have h := respond_insert_blank (a := s) (b := "") (.inr (.inl rfl)) hw
  rwa [String.append_empty, String.append_empty] at h

theorem respond_trimReturn (s : String) : respond (String.ofList (trimReturn s.toList)) = respond s := by
  by_cases h : s.toList.getLast? = some '\r'
  · obtain ⟨cs, hcs⟩ := List.getLast?_eq_some_iff.1 h
    have hs : s = String.ofList cs ++ "\r" := by
      rw [← String.toList_inj, hcs]
      simp
    have ht : String.ofList (trimReturn s.toList) = String.ofList cs := by
      rw [trimReturn, if_pos h, hcs, List.dropLast_concat]
    rw [ht, hs, respond_append_blank _ (by decide)]
  · rw [trimReturn, if_neg h, String.ofList_toList]

theorem session_line (hn : '\n' ∉ s.toList) (hb : backspace ∉ s.toList) :
    session (encode (s ++ "\n")) = ⟨answer s, "", 0⟩ := by
  have hcut : (s ++ "\n").toList.splitOn '\n' = [s.toList, []] := by
    have hs : (s ++ "\n").toList = s.toList ++ '\n' :: [] := String.toList_append
    rw [hs, List.splitOn_append_cons_self_of_not_mem hn]
    rfl
  have hline : textLines (s ++ "\n") = [String.ofList (trimReturn s.toList)] := by
    rw [textLines, hcut, linesOfPieces, erase_ofList (mt (@trimReturn_subset _ _) hb)]
    rfl
  rw [session_encode, hline, List.map_singleton, answer, respond_trimReturn, String.join_cons, String.join_nil,
    String.append_empty]
  rfl

end Prompt

namespace CommandLine

open Text Prompt

variable {word source : String} {words : List String} {c : Char}

theorem encode_eq_separator_iff : encode word = separator ↔ word = "--" := by
  have h : separator = encode "--" := by decide
  rw [h]
  exact ⟨fun h => encode_injective h, congrArg encode⟩

theorem mapM_decode?_encode (words : List String) : (words.map encode).mapM decode? = some words := by
  rw [mapM_eq_some_iff, List.map_map]
  exact List.map_congr_left fun w _ => decode?_encode w

theorem exists_restore_eq (words : List String) :
    ∃ ws, (afterSeparator (words.map encode)).mapM decode? = some ws ∧ restore (words.map encode) ws = words := by
  cases words with
  | nil => exact ⟨[], rfl, rfl⟩
  | cons word words =>
      by_cases hw : word = "--"
      · have hs : encode word = separator := encode_eq_separator_iff.2 hw
        have hhead : ((word :: words).map encode).head? = some separator := congrArg some hs
        refine ⟨words, ?_, ?_⟩
        · rw [List.map_cons, afterSeparator, if_pos hs, mapM_decode?_encode]
        · rw [restore, if_pos hhead, hw]
      · have hs : encode word ≠ separator := mt encode_eq_separator_iff.1 hw
        have hhead : ((word :: words).map encode).head? ≠ some separator := mt Option.some.inj hs
        refine ⟨word :: words, ?_, ?_⟩
        · rw [List.map_cons, afterSeparator, if_neg hs, ← List.map_cons, mapM_decode?_encode]
        · rw [restore, if_neg hhead]

theorem request_encode (h : ¬ IsOption word) (words : List String) :
    request ((word :: words).map encode) = .expression (" ".intercalate (word :: words)) := by
  have hoption : ((word :: words).map encode).head?.bind option? = none := by
    rw [← isSome_option?_iff, Option.not_isSome_iff_eq_none] at h
    exact h
  obtain ⟨ws, hm, hr⟩ := exists_restore_eq (word :: words)
  simp only [request, hoption, hm, hr]

/-- Taking two hyphens away and putting them back changes no word, and joined the words are the expression. Only with
no words at all there is none. -/
structure KeepsWords (words : List String) : Prop where
  restored : ∃ ws, (afterSeparator (words.map encode)).mapM decode? = some ws ∧ restore (words.map encode) ws = words
  request_eq : request (words.map encode) = if words = [] then .prompt else .expression (" ".intercalate words)

theorem keepsWords_of_not_isOption (h : ∀ w ∈ words.head?, ¬ IsOption w) : KeepsWords words := by
  refine ⟨exists_restore_eq words, ?_⟩
  cases words with
  | nil => rfl
  | cons word words =>
      rw [if_neg (List.cons_ne_nil word words)]
      exact request_encode (h word rfl) words

theorem keepsWords_hyphens :
    (∀ w ∈ ["--", "--", "", "-h", "--"].head?, ¬ IsOption w) ∧
      request (["--", "--", "", "-h", "--"].map encode) = .expression "-- --  -h --" := by
  have hoption : ∀ w ∈ ["--", "--", "", "-h", "--"].head?, ¬ IsOption w := by
    intro w hw
    rw [← Option.some.inj hw]
    decide +kernel
  exact ⟨hoption, (keepsWords_of_not_isOption hoption).request_eq⟩

theorem mem_intercalate_space (h : c ∈ (" ".intercalate words).toList) : c = ' ' ∨ ∃ w ∈ words, c ∈ w.toList := by
  induction words with
  | nil => simp at h
  | cons w ws ih =>
      cases ws with
      | nil =>
          rw [String.intercalate_singleton] at h
          exact .inr ⟨w, List.mem_cons_self .., h⟩
      | cons v ws =>
          rw [String.intercalate_cons_cons, String.toList_append, String.toList_append, List.mem_append,
            List.mem_append] at h
          rcases h with (h | h) | h
          · exact .inr ⟨w, List.mem_cons_self .., h⟩
          · exact .inl (List.mem_singleton.1 h)
          · rcases ih h with h | ⟨u, hu, h⟩
            · exact .inl h
            · exact .inr ⟨u, List.mem_cons_of_mem _ hu, h⟩

theorem not_mem_intercalate_space (hc : c ≠ ' ') (h : ∀ w ∈ words, c ∉ w.toList) :
    c ∉ (" ".intercalate words).toList := by
  intro hmem
  obtain hc' | ⟨w, hw, hcw⟩ := mem_intercalate_space hmem
  · exact hc hc'
  · exact h w hw hcw

/-- The command line prints an evaluation on its own, and what it prints is what the prompt answers. -/
theorem text_printEvaluation (source : String) : (printEvaluation source).text = answer source := by
  rw [printEvaluation, answer, respond]
  cases evaluate source with
  | ok v => rfl
  | error e => rfl

theorem oneShot_of_ok {v : Value} (h : evaluate source = .ok v) : oneShot source = ⟨v.text ++ "\n", "", 0⟩ := by
  have hp : printEvaluation source = ⟨v.text ++ "\n", true⟩ := by rw [printEvaluation, h]
  simp only [oneShot, hp, ↓reduceIte]

theorem oneShot_of_error {e : Failure} (h : evaluate source = .error e) : oneShot source = ⟨e.text ++ "\n", "", 1⟩ := by
  have hp : printEvaluation source = ⟨e.text ++ "\n", false⟩ := by rw [printEvaluation, h]
  simp only [oneShot, hp, Bool.false_eq_true, ↓reduceIte]

theorem status_oneShot_eq_zero_iff : (oneShot source).status = 0 ↔ ∃ v, evaluate source = .ok v := by
  cases h : evaluate source with
  | ok v => simp [oneShot_of_ok h]
  | error e => simp [oneShot_of_error h]

theorem status_oneShot_eq_one_iff : (oneShot source).status = 1 ↔ ∃ e, evaluate source = .error e := by
  cases h : evaluate source with
  | ok v => simp [oneShot_of_ok h]
  | error e => simp [oneShot_of_error h]

/-- Words on the command line and the line they make at the prompt are answered alike, by the value or by what is
wrong. Only the command line tells by the status which of the two it is. -/
structure AnsweredAlike (words : List String) (input : List UInt8) : Prop where
  stdout_eq : (run (words.map encode) input).stdout = (run [] (encode (" ".intercalate words ++ "\n"))).stdout
  stdout_of_ok : ∀ v, evaluate (" ".intercalate words) = .ok v → (run (words.map encode) input).stdout = v.text ++ "\n"
  stdout_of_error : ∀ e, evaluate (" ".intercalate words) = .error e →
    (run (words.map encode) input).stdout = e.text ++ "\n"
  status_eq_zero_iff : (run (words.map encode) input).status = 0 ↔ ∃ v, evaluate (" ".intercalate words) = .ok v
  status_eq_one_iff : (run (words.map encode) input).status = 1 ↔ ∃ e, evaluate (" ".intercalate words) = .error e
  prompt_status_eq : (run [] (encode (" ".intercalate words ++ "\n"))).status = 0

theorem answeredAlike_of_not_isOption (h : ¬ IsOption word) (hn : ∀ w ∈ word :: words, '\n' ∉ w.toList)
    (hb : ∀ w ∈ word :: words, backspace ∉ w.toList) (input : List UInt8) : AnsweredAlike (word :: words) input := by
  have hone : run ((word :: words).map encode) input = oneShot (" ".intercalate (word :: words)) := by
    rw [run, request_encode h]
    rfl
  have hprompt : run [] (encode (" ".intercalate (word :: words) ++ "\n")) =
      ⟨answer (" ".intercalate (word :: words)), "", 0⟩ :=
    session_line (not_mem_intercalate_space (by decide) hn) (not_mem_intercalate_space (by decide) hb)
  constructor
  case stdout_eq =>
    rw [hone, hprompt]
    exact text_printEvaluation _
  case stdout_of_ok =>
    intro v hv
    rw [hone, oneShot_of_ok hv]
  case stdout_of_error =>
    intro e he
    rw [hone, oneShot_of_error he]
  case status_eq_zero_iff =>
    rw [hone]
    exact status_oneShot_eq_zero_iff
  case status_eq_one_iff =>
    rw [hone]
    exact status_oneShot_eq_one_iff
  case prompt_status_eq => rw [hprompt]

theorem answeredAlike_product :
    ¬ IsOption "2" ∧ (∀ w ∈ ["2", "", "*21\r"], '\n' ∉ w.toList) ∧ (∀ w ∈ ["2", "", "*21\r"], backspace ∉ w.toList) ∧
      evaluate "2  *21\r" = .ok (.integer 42) ∧ (run (["2", "", "*21\r"].map encode) []).status = 0 ∧
        (run (["2", "", "*21\r"].map encode) []).stdout = "42\n" ∧ (run [] (encode "2  *21\r\n")).stdout = "42\n" := by
  have hoption : ¬ IsOption "2" := by decide +kernel
  have hn : ∀ w ∈ ["2", "", "*21\r"], '\n' ∉ w.toList := by decide
  have hb : ∀ w ∈ ["2", "", "*21\r"], backspace ∉ w.toList := by decide
  have hvalue : evaluate "2  *21\r" = .ok (.integer 42) := by decide +kernel
  have htext : (Value.integer 42).text ++ "\n" = "42\n" := by decide +kernel
  have h := answeredAlike_of_not_isOption hoption hn hb []
  have hprinted := (h.stdout_of_ok _ hvalue).trans htext
  exact ⟨hoption, hn, hb, hvalue, h.status_eq_zero_iff.2 ⟨_, hvalue⟩, hprinted, h.stdout_eq.symm.trans hprinted⟩

end CommandLine

end Calculator
