import Calculator.Text.Utf8

namespace Calculator.Text

variable {c : Char} {cs ds : List Char} {b : UInt8} {s : String}

def encode (s : String) : List UInt8 := s.toUTF8.data.toList

def encodeChars (cs : List Char) : List UInt8 := cs.flatMap String.utf8EncodeChar

theorem encode_ofList (cs : List Char) : encode (String.ofList cs) = encodeChars cs := by
  rw [encode, String.toUTF8_eq_toByteArray, String.toByteArray_ofList, List.utf8Encode, List.toList_data_toByteArray]
  rfl

theorem encode_eq (s : String) : encode s = encodeChars s.toList := by
  rw [← encode_ofList, String.ofList_toList]

theorem decode?_encode (s : String) : decode? (encode s) = some s := by
  have h : (⟨(encode s).toArray⟩ : ByteArray) = s.toUTF8 := rfl
  rw [decode?, h, String.fromUTF8?]
  exact dif_pos s.isValidUTF8

theorem encode_injective {s t : String} (h : encode s = encode t) : s = t := by
  have hd := congrArg decode? h
  rw [decode?_encode, decode?_encode] at hd
  exact Option.some.inj hd

theorem decode?_encodeChars (cs : List Char) : decode? (encodeChars cs) = some (String.ofList cs) := by
  rw [← encode_ofList, decode?_encode]

@[simp] theorem encodeChars_nil : encodeChars [] = [] := rfl

@[simp] theorem encodeChars_cons (c : Char) (cs : List Char) :
    encodeChars (c :: cs) = String.utf8EncodeChar c ++ encodeChars cs := rfl

@[simp] theorem encodeChars_append (cs ds : List Char) : encodeChars (cs ++ ds) = encodeChars cs ++ encodeChars ds :=
  List.flatMap_append

theorem encode_append (s t : String) : encode (s ++ t) = encode s ++ encode t := by
  rw [encode_eq, encode_eq, encode_eq, String.toList_append, encodeChars_append]

theorem utf8EncodeChar_of_lt (h : c.toNat < 0x80) : String.utf8EncodeChar c = [UInt8.ofNat c.toNat] := by
  rw [String.utf8EncodeChar]
  exact if_pos (Nat.le_of_lt_succ h)

theorem le_of_mem_utf8EncodeChar (h : 0x80 ≤ c.toNat) (hb : b ∈ String.utf8EncodeChar c) : 0x80 ≤ b := by
  have hle {n : Nat} (hn : 0x80 ≤ n) (hn' : n < 256) : 0x80 ≤ UInt8.ofNat n := by
    rw [UInt8.le_iff_toNat_le, UInt8.toNat_ofNat', Nat.mod_eq_of_lt hn']
    exact hn
  have hc : ¬ c.val.toNat ≤ 0x7f := Nat.not_le.2 h
  simp only [String.utf8EncodeChar, if_neg hc] at hb
  split at hb
  · simp only [List.mem_cons, List.not_mem_nil, or_false] at hb
    rcases hb with rfl | rfl <;> exact hle (by omega) (by omega)
  · split at hb
    · simp only [List.mem_cons, List.not_mem_nil, or_false] at hb
      rcases hb with rfl | rfl | rfl <;> exact hle (by omega) (by omega)
    · simp only [List.mem_cons, List.not_mem_nil, or_false] at hb
      rcases hb with rfl | rfl | rfl | rfl <;> exact hle (by omega) (by omega)

/-- In the bytes of a text, one that is the code of an ASCII character stands for that character. -/
theorem eq_of_mem_utf8EncodeChar {d : Char} (hd : d.toNat < 0x80) (h : UInt8.ofNat d.toNat ∈ String.utf8EncodeChar c) :
    c = d := by
  have hbyte {n : Nat} (hn : n < 0x80) : (UInt8.ofNat n).toNat = n := by
    rw [UInt8.toNat_ofNat', Nat.mod_eq_of_lt (by omega)]
  by_cases hc : c.toNat < 0x80
  · rw [utf8EncodeChar_of_lt hc, List.mem_singleton] at h
    have hn := congrArg UInt8.toNat h
    rw [hbyte hd, hbyte hc] at hn
    exact (Char.toNat_inj.1 hn).symm
  · have hle := UInt8.le_iff_toNat_le.1 (le_of_mem_utf8EncodeChar (Nat.not_lt.1 hc) h)
    rw [hbyte hd] at hle
    exact absurd hd (Nat.not_lt.2 hle)

theorem mem_encodeChars_iff {d : Char} (hd : d.toNat < 0x80) : UInt8.ofNat d.toNat ∈ encodeChars cs ↔ d ∈ cs := by
  rw [encodeChars, List.mem_flatMap]
  constructor
  · rintro ⟨c, hc, h⟩
    rwa [← eq_of_mem_utf8EncodeChar hd h]
  · intro h
    exact ⟨d, h, by rw [utf8EncodeChar_of_lt hd]; exact List.mem_singleton_self _⟩

theorem head?_of_head?_encode {d : Char} (hd : d.toNat < 0x80) (h : (encode s).head? = some (UInt8.ofNat d.toNat)) :
    s.toList.head? = some d := by
  rw [encode_eq] at h
  cases hs : s.toList with
  | nil =>
      rw [hs] at h
      cases h
  | cons c cs =>
      obtain ⟨b, bs, hb⟩ := List.exists_cons_of_ne_nil (String.utf8EncodeChar_ne_nil (c := c))
      rw [hs, encodeChars_cons, hb, List.cons_append, List.head?_cons] at h
      have hmem : UInt8.ofNat d.toNat ∈ String.utf8EncodeChar c := by
        rw [hb, ← Option.some.inj h]
        exact List.mem_cons_self ..
      rw [List.head?_cons, eq_of_mem_utf8EncodeChar hd hmem]

end Calculator.Text
