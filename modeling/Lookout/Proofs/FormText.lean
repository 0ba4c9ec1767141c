import Lookout.Http.Percent
import Lookout.Proofs.Pieces

/-!
# Queries that are read back

- **UTF-8** (`Utf8.readChars_encode`): the characters of the bytes of a text are the text.
- **Percent encoding** (`Percent.decodeBytes_encodeByte`): a byte is read back from its two digits.
- **Form encoding** (`Percent.decodeForm_encodeForm`): any text is read back. A plus sign is turned
  into a space before bytes are looked for; one that was there before is percent-encoded.
- **Queries** (`Percent.formPairs_formQuery`): a name and its value are read back from their query.
-/

namespace Lookout

/-! ## UTF-8 -/

namespace Text.Utf8

variable {n b count low high value : Nat} {s rest : List Nat}

theorem readTail_cons (h : low ≤ b ∧ b ≤ high) :
    readTail (count + 1) low high value (b :: rest) =
      readTail count 0x80 0xBF (64 * value + b % 64) rest :=
  if_pos h

theorem readChar_of_tail {l : Lead} (hl : lead? b = some l)
    (h : readTail l.count l.low l.high l.bits s = (some n, rest)) :
    readChar b s = (some (Char.ofNat n), rest) := by
  unfold readChar
  rw [hl]
  dsimp only
  rw [h]

theorem lead?_one (h : n < 0x80) : lead? n = some ⟨0, 0x80, 0xBF, n⟩ :=
  if_pos h

theorem lead?_two (hlow : 0x80 ≤ n) (hhigh : n < 0x800) :
    lead? (0xC0 + n / 64) = some ⟨1, 0x80, 0xBF, n / 64⟩ := by
  unfold lead?
  rw [if_neg (by omega), if_pos (by omega), Nat.add_sub_cancel_left]

/-- The second of three bytes is in the range that the first one leaves. -/
theorem exists_lead?_three (hlow : 0x800 ≤ n) (hhigh : n < 0x10000)
    (hvalid : n < 0xD800 ∨ 0xDFFF < n) :
    ∃ low high, lead? (0xE0 + n / 4096) = some ⟨2, low, high, n / 4096⟩ ∧
      low ≤ 0x80 + n / 64 % 64 ∧ 0x80 + n / 64 % 64 ≤ high := by
  unfold lead?
  rw [if_neg (by omega), if_neg (by omega)]
  by_cases hfirst : n / 4096 = 0
  · rw [if_pos (by omega), hfirst]
    exact ⟨_, _, rfl, by omega, by omega⟩
  rw [if_neg (by omega)]
  by_cases hsurrogate : n / 4096 = 13
  · rw [if_pos (by omega), hsurrogate]
    exact ⟨_, _, rfl, by omega, by omega⟩
  rw [if_neg (by omega), if_pos (by omega), Nat.add_sub_cancel_left]
  exact ⟨_, _, rfl, by omega, by omega⟩

/-- The second of four bytes is in the range that the first one leaves. -/
theorem exists_lead?_four (hlow : 0x10000 ≤ n) (hhigh : n < 0x110000) :
    ∃ low high, lead? (0xF0 + n / 262144) = some ⟨3, low, high, n / 262144⟩ ∧
      low ≤ 0x80 + n / 4096 % 64 ∧ 0x80 + n / 4096 % 64 ≤ high := by
  unfold lead?
  rw [if_neg (by omega), if_neg (by omega), if_neg (by omega), if_neg (by omega),
    if_neg (by omega)]
  by_cases hfirst : n / 262144 = 0
  · rw [if_pos (by omega), hfirst]
    exact ⟨_, _, rfl, by omega, by omega⟩
  rw [if_neg (by omega)]
  by_cases hlast : n / 262144 = 4
  · rw [if_neg (by omega), if_pos (by omega), hlast]
    exact ⟨_, _, rfl, by omega, by omega⟩
  rw [if_pos (by omega), Nat.add_sub_cancel_left]
  exact ⟨_, _, rfl, by omega, by omega⟩

/-- A character is read back from its bytes. -/
theorem readChars_encodeChar (c : Char) (rest : List Nat) :
    readChars (encodeChar c ++ rest) = some c :: readChars rest := by
  have hvalid : c.toNat < 0xD800 ∨ 0xDFFF < c.toNat ∧ c.toNat < 0x110000 := c.valid
  have hread : ∀ {b : Nat} {s : List Nat}, readChar b s = (some (Char.ofNat c.toNat), rest) →
      readChars (b :: s) = some c :: readChars rest := by
    intro b s h
    rw [readChars, h, Char.ofNat_toNat]
  unfold encodeChar
  dsimp only
  generalize c.toNat = n at hvalid hread
  split
  · rename_i h
    exact hread (readChar_of_tail (lead?_one h) rfl)
  split
  · rename_i hlow hhigh
    rw [List.cons_append, List.cons_append, List.nil_append]
    refine hread (readChar_of_tail (lead?_two (by omega) hhigh) ?_)
    dsimp only
    rw [readTail_cons (by omega)]
    exact congrArg (fun n => (some n, rest)) (by omega)
  split
  · rename_i hlow hhigh
    obtain ⟨low, high, hlead, hsecond⟩ := exists_lead?_three (n := n) (by omega) hhigh (by omega)
    rw [List.cons_append, List.cons_append, List.cons_append, List.nil_append]
    refine hread (readChar_of_tail hlead ?_)
    dsimp only
    rw [readTail_cons hsecond, readTail_cons (by omega)]
    exact congrArg (fun n => (some n, rest)) (by omega)
  · rename_i hlow
    obtain ⟨low, high, hlead, hsecond⟩ := exists_lead?_four (n := n) (by omega) (by omega)
    rw [List.cons_append, List.cons_append, List.cons_append, List.cons_append, List.nil_append]
    refine hread (readChar_of_tail hlead ?_)
    dsimp only
    rw [readTail_cons hsecond, readTail_cons (by omega), readTail_cons (by omega)]
    exact congrArg (fun n => (some n, rest)) (by omega)

/-- **A text is read back from its bytes**, without faults. -/
theorem readChars_encode (s : List Char) : readChars (encode s) = s.map some := by
  induction s with
  | nil =>
    unfold encode
    rw [List.flatMap_nil, readChars]
    rfl
  | cons c s ih =>
    unfold encode at ih ⊢
    rw [List.flatMap_cons, readChars_encodeChar, ih, List.map_cons]

theorem decode?_encode (s : List Char) : decode? (encode s) = some s := by
  unfold decode?
  rw [readChars_encode]
  induction s with
  | nil => rfl
  | cons c s ih =>
    rw [List.map_cons, List.mapM_cons, ih]
    rfl

theorem decodeLossy_encode (s : List Char) : decodeLossy (encode s) = s := by
  unfold decodeLossy
  rw [readChars_encode, List.map_map]
  exact List.map_id s

theorem forall_encodeChar_lt (c : Char) : ∀ b ∈ encodeChar c, b < 256 := by
  have hvalid : c.toNat < 0xD800 ∨ 0xDFFF < c.toNat ∧ c.toNat < 0x110000 := c.valid
  unfold encodeChar
  dsimp only
  generalize c.toNat = n at hvalid
  intro b hb
  split at hb
  · rw [List.mem_singleton] at hb
    omega
  split at hb
  · simp only [List.mem_cons, List.not_mem_nil, or_false] at hb
    omega
  split at hb
  · simp only [List.mem_cons, List.not_mem_nil, or_false] at hb
    omega
  · simp only [List.mem_cons, List.not_mem_nil, or_false] at hb
    omega

end Text.Utf8

namespace Http.Percent

open Text

variable {c : Char} {b : Nat} {s rest name : List Char}

/-! ## Percent encoding -/

theorem decodeBytes_cons (h : c ≠ '%') (rest : List Char) :
    decodeBytes (c :: rest) = Utf8.encodeChar c ++ decodeBytes rest := by
  rw [decodeBytes]
  exact fun _ _ _ hc => absurd hc h

/-- A text without percent signs stands for itself. -/
theorem decode?_plain (h : '%' ∉ s) : decode? s = some (String.ofList s) := by
  have hbytes : decodeBytes s = Utf8.encode s := by
    induction s with
    | nil => rfl
    | cons c s ih =>
      rw [List.mem_cons, not_or] at h
      rw [decodeBytes_cons (Ne.symm h.1), ih h.2]
      rfl
  unfold decode?
  rw [hbytes, Utf8.decode?_encode]
  rfl

/-- A byte is read back from its two digits. -/
theorem decodeBytes_encodeByte (h : b < 256) (rest : List Char) :
    decodeBytes (encodeByte b ++ rest) = b :: decodeBytes rest := by
  have hbyte : byte? (upperHexDigit (b / 16)) (upperHexDigit (b % 16)) = some b := by
    unfold byte?
    rw [hexValue?_upperHexDigit (by omega), hexValue?_upperHexDigit (Nat.mod_lt _ (by omega))]
    exact congrArg some (by omega)
  unfold encodeByte
  rw [List.cons_append, List.cons_append, List.cons_append, List.nil_append, decodeBytes, hbyte]

theorem decodeBytes_encodeBytes {bytes : List Nat} (h : ∀ b ∈ bytes, b < 256)
    (rest : List Char) :
    decodeBytes (bytes.flatMap encodeByte ++ rest) = bytes ++ decodeBytes rest := by
  induction bytes with
  | nil => rfl
  | cons b bytes ih =>
    obtain ⟨hb, hbytes⟩ := List.forall_mem_cons.1 h
    rw [List.flatMap_cons, List.append_assoc, decodeBytes_encodeByte hb, ih hbytes,
      List.cons_append]

/-! ## Form encoding -/

theorem isPlain_upperHexDigit {n : Nat} (h : n < 16) : isPlain (upperHexDigit n) = true := by
  have all : ∀ i : Fin 16, isPlain (upperHexDigit i) = true := by decide
  exact all ⟨n, h⟩

theorem mem_encodeByte (hb : b < 256) (h : c ∈ encodeByte b) : isPlain c = true ∨ c = '%' := by
  unfold encodeByte at h
  simp only [List.mem_cons, List.not_mem_nil, or_false] at h
  rcases h with rfl | rfl | rfl
  · exact .inr rfl
  · exact .inl (isPlain_upperHexDigit (by omega))
  · exact .inl (isPlain_upperHexDigit (Nat.mod_lt _ (by omega)))

/-- The form encoding of a character is made of plain characters, plus signs and percent signs. -/
theorem mem_encodeFormChar {d : Char} (h : c ∈ encodeFormChar d) :
    isPlain c = true ∨ c = '+' ∨ c = '%' := by
  unfold encodeFormChar at h
  split at h
  · rename_i hplain
    cases List.mem_singleton.1 h
    exact .inl hplain
  split at h
  · exact .inr (.inl (List.mem_singleton.1 h))
  · obtain ⟨b, hb, hc⟩ := List.mem_flatMap.1 h
    exact (mem_encodeByte (Utf8.forall_encodeChar_lt d b hb) hc).imp_right .inr

theorem mem_encodeForm {text : String} (h : c ∈ encodeForm text) :
    isPlain c = true ∨ c = '+' ∨ c = '%' := by
  obtain ⟨d, -, hc⟩ := List.mem_flatMap.1 h
  exact mem_encodeFormChar hc

/-- Marks of a query or an address do not occur in what is form-encoded. -/
theorem not_mem_encodeForm {mark : Char} (hplain : isPlain mark = false) (hplus : mark ≠ '+')
    (hpercent : mark ≠ '%') (text : String) : mark ∉ encodeForm text := by
  intro h
  rcases mem_encodeForm h with hmark | hmark | hmark
  · exact Bool.false_ne_true (hplain.symm.trans hmark)
  · exact hplus hmark
  · exact hpercent hmark

/-- Spaces in place of plus signs. -/
private def spaced (s : List Char) : List Char :=
  s.map fun c => if c = '+' then ' ' else c

private theorem spaced_eq_self (h : ∀ c ∈ s, c ≠ '+') : spaced s = s := by
  unfold spaced
  refine (List.map_congr_left fun c hc => ?_).trans (List.map_id s)
  exact if_neg (h c hc)

/-- The bytes of a character are read back from its form encoding. -/
private theorem decodeBytes_encodeFormChar (c : Char) (rest : List Char) :
    decodeBytes (spaced (encodeFormChar c) ++ rest) = Utf8.encodeChar c ++ decodeBytes rest := by
  unfold encodeFormChar
  split
  · rename_i hplain
    have hplus : c ≠ '+' := by
      rintro rfl
      exact absurd hplain (by decide)
    have hpercent : c ≠ '%' := by
      rintro rfl
      exact absurd hplain (by decide)
    rw [spaced_eq_self (List.forall_mem_singleton.2 hplus), List.singleton_append,
      decodeBytes_cons hpercent]
  split
  · rename_i hspace
    subst hspace
    exact decodeBytes_cons (by decide) rest
  · have hlt := Utf8.forall_encodeChar_lt c
    have hsame : spaced ((Utf8.encodeChar c).flatMap encodeByte) =
        (Utf8.encodeChar c).flatMap encodeByte := by
      refine spaced_eq_self fun d hd => ?_
      obtain ⟨b, hb, hd⟩ := List.mem_flatMap.1 hd
      rintro rfl
      exact absurd (mem_encodeByte (hlt b hb) hd) (by decide)
    rw [hsame, decodeBytes_encodeBytes hlt]

/-- **Any text is read back from its form encoding.** -/
theorem decodeForm_encodeForm (text : String) : decodeForm (encodeForm text) = text := by
  have hbytes : ∀ s : List Char,
      decodeBytes (spaced (s.flatMap encodeFormChar)) = Utf8.encode s := by
    intro s
    induction s with
    | nil => rfl
    | cons c s ih =>
      have happend : spaced ((c :: s).flatMap encodeFormChar) =
          spaced (encodeFormChar c) ++ spaced (s.flatMap encodeFormChar) := List.map_append
      rw [happend, decodeBytes_encodeFormChar, ih]
      rfl
  have hdecode : decodeForm (encodeForm text) =
      String.ofList (Utf8.decodeLossy (decodeBytes (spaced (text.toList.flatMap encodeFormChar)))) :=
    rfl
  rw [hdecode, hbytes, Utf8.decodeLossy_encode, String.ofList_toList]

/-! ## Queries -/

/-- **A name and its value are read back from their query.** -/
theorem formPairs_formQuery (name value : String) :
    formPairs (formQuery name value) = [(name, value)] := by
  have hequals : ∀ s, '=' ∉ encodeForm s := not_mem_encodeForm (by decide) (by decide) (by decide)
  have hand : ∀ s, '&' ∉ encodeForm s := not_mem_encodeForm (by decide) (by decide) (by decide)
  have hsingle : '&' ∉ formQuery name value := by
    unfold formQuery
    rw [List.mem_append, List.mem_cons]
    rintro (h | h | h)
    · exact hand name h
    · exact absurd h (by decide)
    · exact hand value h
  have hfilled : (formQuery name value).isEmpty = false := by
    unfold formQuery
    cases encodeForm name <;> rfl
  unfold formPairs
  rw [pieces_of_not_mem hsingle, List.filter_cons_of_pos (by rw [hfilled]; rfl), List.filter_nil,
    List.map_singleton]
  unfold formPair formQuery
  rw [splitFirst?_of_not_mem (hequals name)]
  dsimp only
  rw [decodeForm_encodeForm, decodeForm_encodeForm]

end Http.Percent
end Lookout
