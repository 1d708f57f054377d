import Calculator.CommandLine
import Calculator.Proofs.Encoding
import Mathlib.Data.List.Basic
import Mathlib.Data.List.TakeDrop
import Mathlib.Data.List.TakeWhile

namespace Calculator.CommandLine

open Text

variable {s w : String} {flag : Flag}

theorem Flag.ofName?_eq_some_iff : ofName? s = some flag ↔ s = flag.name := by
  constructor
  · intro h
    have hn := List.find?_some (p := fun f : Flag => decide (f.name = s)) h
    exact (of_decide_eq_true hn).symm
  · rintro rfl
    cases flag <;> decide

theorem Flag.isSome_ofLetter?_iff {c : Char} : (ofLetter? c).isSome ↔ c = 'h' ∨ c = 'V' := by
  constructor
  · intro h
    unfold ofLetter? at h
    split at h
    · exact .inl rfl
    · exact .inr rfl
    · cases h
  · rintro (rfl | rfl) <;> rfl

theorem Flag.equalsSign_not_mem_name (flag : Flag) : '=' ∉ flag.name.toList := by
  cases flag <;> decide

theorem all_ne_equalsSign (h : '=' ∉ s.toList) : ∀ b ∈ encode s, decide (b ≠ equalsSign) = true := by
  intro b hb
  rw [decide_eq_true_iff]
  rintro rfl
  rw [encode_eq] at hb
  exact h ((mem_encodeChars_iff (d := '=') (by decide)).1 hb)

theorem long?_name (h : '=' ∉ s.toList) : long? (encode s) = (Flag.ofName? s).map .inform := by
  have hp := all_ne_equalsSign h
  rw [long?, List.span_eq_takeWhile_dropWhile, List.takeWhile_eq_self_iff.2 hp, List.dropWhile_eq_nil_iff.2 hp]
  simp only [decode?_encode]

theorem long?_attached (h : '=' ∉ s.toList) (value : String) :
    long? (encode (s ++ "=" ++ value)) = (Flag.ofName? s).map (.attached · (decode (encode value))) := by
  have hp := all_ne_equalsSign h
  have hcut : encode (s ++ "=" ++ value) = encode s ++ equalsSign :: encode value := by
    rw [encode_append, encode_append, List.append_assoc]
    rfl
  have hfirst : (equalsSign :: encode value).takeWhile (· ≠ equalsSign) = [] := rfl
  have hrest : (equalsSign :: encode value).dropWhile (· ≠ equalsSign) = equalsSign :: encode value := rfl
  rw [long?, hcut, List.span_eq_takeWhile_dropWhile, List.takeWhile_append_of_pos hp, List.dropWhile_append_of_pos hp,
    hfirst, hrest, List.append_nil]
  simp only [decode?_encode]

theorem isSome_long?_iff :
    (long? (encode s)).isSome ↔ ∃ flag : Flag, s = flag.name ∨ ∃ value, s = flag.name ++ "=" ++ value := by
  constructor
  · intro h
    by_cases hmem : '=' ∈ s.toList
    · obtain ⟨name, value, hs, hname⟩ := List.eq_append_cons_of_mem hmem
      have hs : s = String.ofList name ++ "=" ++ String.ofList value := by
        rw [← String.toList_inj, hs]
        simp
      rw [← String.toList_ofList (l := name)] at hname
      rw [hs, long?_attached hname, Option.isSome_map] at h
      obtain ⟨flag, hf⟩ := Option.isSome_iff_exists.1 h
      exact ⟨flag, .inr ⟨String.ofList value, by rw [hs, Flag.ofName?_eq_some_iff.1 hf]⟩⟩
    · rw [long?_name hmem, Option.isSome_map] at h
      obtain ⟨flag, hf⟩ := Option.isSome_iff_exists.1 h
      exact ⟨flag, .inl (Flag.ofName?_eq_some_iff.1 hf)⟩
  · rintro ⟨flag, rfl | ⟨value, rfl⟩⟩
    · rw [long?_name flag.equalsSign_not_mem_name, Flag.ofName?_eq_some_iff.2 rfl]
      rfl
    · rw [long?_attached flag.equalsSign_not_mem_name, Flag.ofName?_eq_some_iff.2 rfl]
      rfl

theorem mapM_eq_some_iff {α β : Type} {f : α → Option β} {xs : List α} {ys : List β} :
    xs.mapM f = some ys ↔ xs.map f = ys.map some := by
  induction xs generalizing ys with
  | nil => cases ys <;> simp
  | cons x xs ih =>
      simp only [List.mapM_cons, Option.bind_eq_bind, Option.bind_eq_some_iff, Option.pure_def, Option.some.injEq, ih]
      constructor
      · rintro ⟨y, hy, zs, hzs, rfl⟩
        rw [List.map_cons, List.map_cons, hy, hzs]
      · intro h
        obtain ⟨y, zs, rfl, hy, hzs⟩ := List.map_eq_cons_iff.1 h.symm
        exact ⟨y, hy.symm, zs, hzs.symm, rfl⟩

theorem isSome_short?_iff : (short? (encode s)).isSome ↔ s ≠ "" ∧ ∀ c ∈ s.toList, c = 'h' ∨ c = 'V' := by
  have h : short? (encode s) =
      (s.toList.mapM Flag.ofLetter?).bind fun flags => flags.head?.bind fun flag => some (.inform flag) := by
    rw [short?, decode?_encode]
    rfl
  rw [h, Option.isSome_iff_exists]
  constructor
  · rintro ⟨r, hr⟩
    obtain ⟨flags, hm, hf⟩ := Option.bind_eq_some_iff.1 hr
    obtain ⟨flag, hhead, -⟩ := Option.bind_eq_some_iff.1 hf
    rw [mapM_eq_some_iff] at hm
    constructor
    · rintro rfl
      rw [String.toList_empty, List.map_nil, eq_comm, List.map_eq_nil_iff] at hm
      rw [hm] at hhead
      cases hhead
    · intro c hc
      have hmem : Flag.ofLetter? c ∈ flags.map some := hm ▸ List.mem_map_of_mem hc
      obtain ⟨f, -, hf⟩ := List.mem_map.1 hmem
      exact Flag.isSome_ofLetter?_iff.1 (hf ▸ rfl)
  · rintro ⟨hne, hl⟩
    have hm : s.toList.map Flag.ofLetter? = (s.toList.map fun c => if c = 'h' then Flag.help else Flag.version).map some := by
      rw [List.map_map]
      apply List.map_congr_left
      intro c hc
      rcases hl c hc with rfl | rfl <;> rfl
    rw [mapM_eq_some_iff.2 hm]
    obtain ⟨c, cs, hs⟩ := List.exists_cons_of_ne_nil (mt String.toList_eq_nil_iff.1 hne)
    rw [hs]
    exact ⟨_, rfl⟩

theorem isPrefixOf?_cons_hyphen (h : s.toList.head? ≠ some '-') (bs : List UInt8) :
    (hyphen :: bs).isPrefixOf? (encode s) = none := by
  rw [Option.eq_none_iff_forall_ne_some]
  intro rest hrest
  have he : hyphen :: bs ++ rest = encode s := List.isPrefixOf?_eq_some_iff_append_eq.1 hrest
  exact h (head?_of_head?_encode (d := '-') (by decide) (by rw [← he]; rfl))

theorem option?_long (s : String) : option? (encode ("--" ++ s)) = long? (encode s) := by
  have he : encode ("--" ++ s) = [hyphen, hyphen] ++ encode s := encode_append "--" s
  have hp : [hyphen, hyphen].isPrefixOf? (encode ("--" ++ s)) = some (encode s) :=
    List.isPrefixOf?_eq_some_iff_append_eq.2 he.symm
  rw [option?, hp]

theorem option?_short (h : s.toList.head? ≠ some '-') : option? (encode ("-" ++ s)) = short? (encode s) := by
  have he : encode ("-" ++ s) = [hyphen] ++ encode s := encode_append "-" s
  have hp : [hyphen].isPrefixOf? (encode ("-" ++ s)) = some (encode s) := List.isPrefixOf?_eq_some_iff_append_eq.2 he.symm
  have hpp : [hyphen, hyphen].isPrefixOf? (encode ("-" ++ s)) = none := by
    rw [he]
    exact isPrefixOf?_cons_hyphen h []
  rw [option?, hp, hpp]

theorem option?_other (h : s.toList.head? ≠ some '-') : option? (encode s) = none := by
  rw [option?, isPrefixOf?_cons_hyphen h [], isPrefixOf?_cons_hyphen h [hyphen]]

theorem exists_hyphens (w : String) :
    (∃ s, w = "--" ++ s) ∨ (∃ s, s.toList.head? ≠ some '-' ∧ w = "-" ++ s) ∨ w.toList.head? ≠ some '-' := by
  by_cases hw : w.toList.head? = some '-'
  · obtain ⟨cs, hcs⟩ := List.head?_eq_some_iff.1 hw
    by_cases hc : cs.head? = some '-'
    · obtain ⟨ds, rfl⟩ := List.head?_eq_some_iff.1 hc
      exact .inl ⟨String.ofList ds, by rw [← String.toList_inj, hcs]; simp⟩
    · exact .inr (.inl ⟨String.ofList cs, by rwa [String.toList_ofList], by rw [← String.toList_inj, hcs]; simp⟩)
  · exact .inr (.inr hw)

/-- The words that are options where they come first: a flag by its name, perhaps with a value behind an equals sign,
and any number of flags by their letters. -/
inductive IsOption : String → Prop
  | long (flag : Flag) : IsOption ("--" ++ flag.name)
  | attached (flag : Flag) (value : String) : IsOption ("--" ++ (flag.name ++ "=" ++ value))
  | letters (s : String) (hne : s ≠ "") (h : ∀ c ∈ s.toList, c = 'h' ∨ c = 'V') : IsOption ("-" ++ s)

theorem isSome_option?_iff : (option? (encode w)).isSome ↔ IsOption w := by
  constructor
  · intro h
    obtain ⟨s, rfl⟩ | ⟨s, hs, rfl⟩ | hw := exists_hyphens w
    · rw [option?_long] at h
      obtain ⟨flag, rfl | ⟨value, rfl⟩⟩ := isSome_long?_iff.1 h
      · exact .long flag
      · exact .attached flag value
    · rw [option?_short hs] at h
      obtain ⟨hne, hl⟩ := isSome_short?_iff.1 h
      exact .letters s hne hl
    · rw [option?_other hw] at h
      cases h
  · intro h
    cases h with
    | long flag =>
        rw [option?_long]
        exact isSome_long?_iff.2 ⟨flag, .inl rfl⟩
    | attached flag value =>
        rw [option?_long]
        exact isSome_long?_iff.2 ⟨flag, .inr ⟨value, rfl⟩⟩
    | letters s hne hl =>
        have hs : s.toList.head? ≠ some '-' := fun hs => absurd (hl '-' (List.mem_of_head? hs)) (by decide)
        rw [option?_short hs]
        exact isSome_short?_iff.2 ⟨hne, hl⟩

instance : DecidablePred IsOption := fun _ => decidable_of_iff _ isSome_option?_iff

end Calculator.CommandLine
