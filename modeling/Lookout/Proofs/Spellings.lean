import Lookout.Proofs.Periods
import Lookout.Uuid
import Mathlib.Data.List.Induction

/-!
# Identifiers that are read

- **Digits** (`Uuid.ofDigits?_eq_some_iff`): 32 digits are read as the identifier of which they are
  the digits, in any case.
- **Groups** (`Uuid.Groups`): the digits between hyphens.
- **Spellings** (`Uuid.ofText?_eq_some_iff`): an identifier is read from its spellings
  (`Uuid.Spells`), and from nothing else. Its hyphenated form is one of them (`Uuid.ofText?_text`).
-/

namespace Lookout

/-! ## Digits -/

namespace Text

variable {c : Char} {v : Nat}

/-- No character but those of ASCII becomes one of ASCII. -/
theorem toNat_lt_of_toLower (h : c.toLower.toNat < 128) : c.toNat < 128 := by
  unfold Char.toLower at h
  split at h
  · rename_i hupper
    have hle : c.val ≤ 'Z'.val := hupper.2
    exact Nat.lt_of_le_of_lt hle (by decide)
  · exact h

theorem hexDigit_ascii (hv : v < 16) :
    (hexDigit v).toNat < 128 ∧ (hexDigit v).toLower = hexDigit v := by
  have hall : ∀ i : Fin 16, (hexDigit i).toNat < 128 ∧ (hexDigit i).toLower = hexDigit i := by
    decide
  exact hall ⟨v, hv⟩

theorem hexValue?_eq_some_iff : hexValue? c = some v ↔ v < 16 ∧ c.toLower = hexDigit v := by
  have hread : ∀ i : Fin 128, ∀ v ∈ hexValue? (Char.ofNat i),
      v < 16 ∧ (Char.ofNat i).toLower = hexDigit v := by decide +kernel
  have hwritten : ∀ (i : Fin 128) (v : Fin 16), (Char.ofNat i).toLower = hexDigit v →
      hexValue? (Char.ofNat i) = some v.val := by decide +kernel
  constructor
  · intro h
    have hlt : c.toNat < 128 := by
      unfold hexValue? at h
      dsimp only at h
      repeat' split at h
      all_goals first | omega | cases h
    have hchar := hread ⟨c.toNat, hlt⟩ v
    rw [Char.ofNat_toNat] at hchar
    exact hchar h
  · rintro ⟨hv, h⟩
    have hlt : c.toNat < 128 := toNat_lt_of_toLower (h ▸ (hexDigit_ascii hv).1)
    have hchar := hwritten ⟨c.toNat, hlt⟩ ⟨v, hv⟩
    rw [Char.ofNat_toNat] at hchar
    exact hchar h

end Text

namespace Uuid

open Text

variable {id : Uuid} {cs cs' ds ds' : List Char} {n : Nat}

theorem length_lastDigits (count n : Nat) : (lastDigits count n).length = count := by
  induction count generalizing n with
  | zero => rfl
  | succ count ih =>
    unfold lastDigits
    rw [List.length_append, ih, List.length_singleton]

private theorem hexNumber?_concat (cs : List Char) (c : Char) :
    hexNumber? (cs ++ [c]) =
      (hexNumber? cs).bind fun n => (hexValue? c).map fun v => 16 * n + v := by
  unfold hexNumber?
  rw [List.foldl_append, List.foldl_cons, List.foldl_nil]
  generalize List.foldl _ _ cs = found
  cases found <;> cases hexValue? c <;> rfl

/-- **A number is read from its digits**, in any case. -/
theorem hexNumber?_eq_some_iff :
    hexNumber? cs = some n ↔
      n < Nat.pow 16 cs.length ∧ cs.map Char.toLower = lastDigits cs.length n := by
  induction cs using List.reverseRecOn generalizing n with
  | nil =>
    constructor
    · intro h
      cases h
      exact ⟨by decide, rfl⟩
    · rintro ⟨h, -⟩
      have hzero : n = 0 := Nat.lt_one_iff.1 h
      exact congrArg some hzero.symm
  | append_singleton cs c ih =>
    have hpow : Nat.pow 16 (cs.length + 1) = 16 * Nat.pow 16 cs.length := Nat.mul_comm _ _
    have hlast : lastDigits (cs.length + 1) n =
        lastDigits cs.length (n / 16) ++ [hexDigit (n % 16)] := rfl
    rw [hexNumber?_concat, List.length_append, List.length_singleton, hpow, hlast, List.map_append,
      List.map_singleton]
    simp only [Option.bind_eq_some_iff, Option.map_eq_some_iff, ih, hexValue?_eq_some_iff]
    constructor
    · rintro ⟨k, ⟨hk, hcs⟩, v, ⟨hv, hc⟩, rfl⟩
      have hdiv : (16 * k + v) / 16 = k := by omega
      have hmod : (16 * k + v) % 16 = v := by omega
      rw [hdiv, hmod, hcs, hc]
      exact ⟨by omega, rfl⟩
    · rintro ⟨hn, h⟩
      obtain ⟨hcs, hc⟩ := List.append_inj h (by rw [List.length_map, length_lastDigits])
      exact ⟨n / 16, ⟨by omega, hcs⟩, n % 16, ⟨by omega, List.singleton_inj.1 hc⟩, by omega⟩

/-- Digits are written in lower case. -/
theorem map_toLower_lastDigits (count n : Nat) :
    (lastDigits count n).map Char.toLower = lastDigits count n := by
  induction count generalizing n with
  | zero => rfl
  | succ count ih =>
    have hdigit := (hexDigit_ascii (Nat.mod_lt n (by decide : 0 < 16))).2
    unfold lastDigits
    rw [List.map_append, ih, List.map_singleton, hdigit]

theorem of?_eq_some_iff : of? n = some id ↔ n = id.value := by
  unfold of?
  split
  · constructor
    · intro h
      cases h
      rfl
    · rintro rfl
      rfl
  · rename_i hn
    constructor
    · intro h
      cases h
    · rintro rfl
      exact absurd id.value_lt hn

theorem ofDigits?_eq_some_iff :
    ofDigits? cs = some id ↔ cs.map Char.toLower = lastDigits 32 id.value := by
  unfold ofDigits?
  split
  · rename_i hlen
    simp only [Option.bind_eq_some_iff, of?_eq_some_iff, hexNumber?_eq_some_iff, hlen,
      exists_eq_right]
    exact and_iff_right id.value_lt
  · rename_i hlen
    constructor
    · intro h
      cases h
    · intro h
      have hlength := congrArg List.length h
      rw [List.length_map, length_lastDigits] at hlength
      exact absurd hlength hlen

/-! ## Groups -/

/-- 32 digits, and the same digits in five groups with hyphens between them. -/
inductive Groups : List Char → List Char → Prop
  | mk {a b c d e : List Char} (ha : a.length = 8) (hb : b.length = 4) (hc : c.length = 4)
      (hd : d.length = 4) (he : e.length = 12) :
      Groups (a ++ b ++ c ++ d ++ e) (a ++ '-' :: b ++ '-' :: c ++ '-' :: d ++ '-' :: e)

/-- There are hyphens in the four places between groups. -/
def HasHyphens (cs : List Char) : Prop :=
  cs.length = 36 ∧ ∀ i ∈ [8, 13, 18, 23], cs[i]? = some '-'

/-- Hyphens between the groups are passed over. -/
theorem Groups.ofHyphenated?_eq (h : Groups ds cs) : ofHyphenated? cs = ofDigits? ds := by
  obtain ⟨ha, hb, hc, hd, he⟩ := h
  unfold ofHyphenated?
  simp (disch := omega) [ha, hb, hc, hd, he, List.drop_append, List.getElem?_append,
    List.getElem?_cons_zero, List.drop_of_length_le]

theorem Groups.hasHyphens (h : Groups ds cs) : HasHyphens cs := by
  obtain ⟨ha, hb, hc, hd, he⟩ := h
  refine ⟨by simp [ha, hb, hc, hd, he], ?_⟩
  simp [ha, hb, hc, hd, List.getElem?_append]

theorem Groups.map {f : Char → Char} (hf : f '-' = '-') (h : Groups ds cs) :
    Groups (ds.map f) (cs.map f) := by
  obtain ⟨ha, hb, hc, hd, he⟩ := h
  simp only [List.map_append, List.map_cons, hf]
  exact .mk (by simpa) (by simpa) (by simpa) (by simpa) (by simpa)

/-- The digits tell the groups, and the groups the digits. -/
theorem Groups.eq_iff (h : Groups ds cs) (h' : Groups ds' cs') : ds = ds' ↔ cs = cs' := by
  have hcut : ∀ {a a' x x' : List Char}, a.length = a'.length →
      (a ++ x = a' ++ x' ↔ a = a' ∧ x = x') := fun hlen =>
    ⟨fun heq => List.append_inj heq hlen, fun ⟨ha, hx⟩ => by rw [ha, hx]⟩
  obtain ⟨ha, hb, hc, hd, he⟩ := h
  obtain ⟨ha', hb', hc', hd', he'⟩ := h'
  simp only [List.append_assoc, List.cons_append, hcut (ha.trans ha'.symm),
    hcut (hb.trans hb'.symm), hcut (hc.trans hc'.symm), hcut (hd.trans hd'.symm), List.cons.injEq,
    true_and]

theorem groups_chars (id : Uuid) : Groups (lastDigits 32 id.value) id.chars := by
  have hlen := length_lastDigits 32 id.value
  unfold chars
  generalize lastDigits 32 id.value = ds at hlen ⊢
  have hgroups : ds.take 8 ++ (ds.drop 8).take 4 ++ (ds.drop 12).take 4 ++ (ds.drop 16).take 4 ++
      ds.drop 20 = ds := by
    rw [← List.take_add, ← List.take_add, ← List.take_add, List.take_append_drop]
  have h : Groups _ (ds.take 8 ++ '-' :: (ds.drop 8).take 4 ++ '-' :: (ds.drop 12).take 4 ++
      '-' :: (ds.drop 16).take 4 ++ '-' :: ds.drop 20) :=
    .mk (by simp [hlen]) (by simp [hlen]) (by simp [hlen]) (by simp [hlen]) (by simp [hlen])
  rwa [hgroups] at h

theorem length_chars (id : Uuid) : id.chars.length = 36 :=
  id.groups_chars.hasHyphens.1

theorem map_toLower_chars (id : Uuid) : id.chars.map Char.toLower = id.chars :=
  ((id.groups_chars.map (by decide)).eq_iff id.groups_chars).1 (map_toLower_lastDigits 32 id.value)

/-- Hyphens are what they are in lower case. -/
theorem HasHyphens.of_map (h : HasHyphens (cs.map Char.toLower)) : HasHyphens cs := by
  obtain ⟨hlen, hhyphen⟩ := h
  have hchar : ∀ i : Fin 128, (Char.ofNat i).toLower = '-' → Char.ofNat i = '-' := by
    decide +kernel
  refine ⟨by rwa [List.length_map] at hlen, fun i hi => ?_⟩
  have hlower := hhyphen i hi
  rw [List.getElem?_map, Option.map_eq_some_iff] at hlower
  obtain ⟨c, hc, hlower⟩ := hlower
  have hlt : c.toNat < 128 := toNat_lt_of_toLower (hlower ▸ by decide)
  have heq := hchar ⟨c.toNat, hlt⟩
  rw [Char.ofNat_toNat] at heq
  rw [hc, heq hlower]

theorem HasHyphens.exists_groups (h : HasHyphens cs) : ∃ ds, Groups ds cs := by
  obtain ⟨hlen, hhyphen⟩ := h
  have hdrop : ∀ i ∈ [8, 13, 18, 23], '-' :: cs.drop (i + 1) = cs.drop i := by
    intro i hi
    obtain ⟨hlt, hchar⟩ := List.getElem?_eq_some_iff.1 (hhyphen i hi)
    rw [List.drop_eq_getElem_cons hlt, hchar]
  have hnext : ∀ i, (cs.drop i).take 4 ++ cs.drop (i + 4) = cs.drop i := by
    intro i
    rw [← List.drop_drop, List.take_append_drop]
  have hgroups : cs.take 8 ++ '-' :: ((cs.drop 9).take 4 ++ '-' :: ((cs.drop 14).take 4 ++
      '-' :: ((cs.drop 19).take 4 ++ '-' :: cs.drop 24))) = cs := by
    rw [hdrop 23 (by decide), hnext 19, hdrop 18 (by decide), hnext 14, hdrop 13 (by decide),
      hnext 9, hdrop 8 (by decide), List.take_append_drop]
  have h : Groups _ (cs.take 8 ++ '-' :: (cs.drop 9).take 4 ++ '-' :: (cs.drop 14).take 4 ++
      '-' :: (cs.drop 19).take 4 ++ '-' :: cs.drop 24) :=
    .mk (by simp [hlen]) (by simp [hlen]) (by simp [hlen]) (by simp [hlen]) (by simp [hlen])
  simp only [List.append_assoc, List.cons_append, hgroups] at h
  exact ⟨_, h⟩

theorem ofHyphenated?_eq_some_iff :
    ofHyphenated? cs = some id ↔ cs.map Char.toLower = id.chars := by
  have hread : ∀ {ds}, Groups ds cs →
      (ofHyphenated? cs = some id ↔ cs.map Char.toLower = id.chars) := fun hgroups => by
    rw [hgroups.ofHyphenated?_eq, ofDigits?_eq_some_iff]
    exact (hgroups.map (by decide)).eq_iff id.groups_chars
  constructor
  · intro h
    have hhyphens : HasHyphens cs := by
      unfold ofHyphenated? at h
      dsimp only at h
      split at h
      · rename_i hcond
        simpa [HasHyphens] using hcond
      · cases h
    obtain ⟨ds, hgroups⟩ := hhyphens.exists_groups
    exact (hread hgroups).1 h
  · intro h
    have hhyphens : HasHyphens cs := .of_map (h ▸ id.groups_chars.hasHyphens)
    obtain ⟨ds, hgroups⟩ := hhyphens.exists_groups
    exact (hread hgroups).2 h

/-! ## Spellings -/

/-- The spellings of an identifier, in any mixture of cases: its digits alone or with hyphens, and
those with hyphens in braces or as a resource name. -/
inductive Spells (id : Uuid) : List Char → Prop
  | plain {s : List Char} (h : s.map Char.toLower = lastDigits 32 id.value) : Spells id s
  | hyphenated {s : List Char} (h : s.map Char.toLower = id.chars) : Spells id s
  | braced {s : List Char} (h : s.map Char.toLower = id.chars) :
      Spells id ('\x7b' :: (s ++ ['\x7d']))
  | resource {front s : List Char} (hfront : front.map Char.toLower = "urn:uuid:".toList)
      (h : s.map Char.toLower = id.chars) : Spells id (front ++ s)

private theorem length_of_map {s t : List Char} (h : s.map Char.toLower = t) :
    s.length = t.length := by
  rw [← h, List.length_map]

theorem Spells.length_mem (h : id.Spells cs) : cs.length ∈ [32, 36, 38, 45] := by
  cases h with
  | plain h => rw [length_of_map h, length_lastDigits]; decide
  | hyphenated h => rw [length_of_map h, length_chars]; decide
  | braced h => simp [length_of_map h, length_chars]
  | resource hfront h =>
    rw [List.length_append, length_of_map hfront, length_of_map h, length_chars]
    decide

/-- What is read as an identifier in braces. -/
private theorem exists_braced (hlen : cs.length = 38) (hhead : cs.head? = some '\x7b')
    (hlast : cs.getLast? = some '\x7d') : cs = '\x7b' :: (cs.tail.dropLast ++ ['\x7d']) := by
  obtain ⟨front, rfl⟩ := List.getLast?_eq_some_iff.1 hlast
  cases front with
  | nil => cases hlen
  | cons c s =>
    cases hhead
    rw [List.cons_append, List.tail_cons, List.dropLast_concat]

theorem ofChars?_eq_some_iff : ofChars? cs = some id ↔ id.Spells cs := by
  constructor
  · intro h
    unfold ofChars? at h
    split at h
    · exact .plain (ofDigits?_eq_some_iff.1 h)
    · exact .hyphenated (ofHyphenated?_eq_some_iff.1 h)
    · rename_i hlen
      split at h
      · rename_i hends
        rw [exists_braced hlen hends.1 hends.2]
        exact .braced (ofHyphenated?_eq_some_iff.1 h)
      · cases h
    · split at h
      · rename_i hfront
        rw [← List.take_append_drop 9 cs]
        exact .resource hfront (ofHyphenated?_eq_some_iff.1 h)
      · cases h
    · cases h
  · intro h
    unfold ofChars?
    cases h with
    | plain h =>
      rw [length_of_map h, length_lastDigits]
      exact ofDigits?_eq_some_iff.2 h
    | hyphenated h =>
      rw [length_of_map h, length_chars]
      exact ofHyphenated?_eq_some_iff.2 h
    | @braced s h =>
      have hlen : ('\x7b' :: (s ++ ['\x7d'])).length = 38 := by
        simp [length_of_map h, length_chars]
      have hlast : ('\x7b' :: (s ++ ['\x7d'])).getLast? = some '\x7d' := by
        rw [← List.cons_append, List.getLast?_concat]
      rw [hlen]
      show (if _ then _ else _) = _
      rw [if_pos ⟨rfl, hlast⟩, List.tail_cons, List.dropLast_concat]
      exact ofHyphenated?_eq_some_iff.2 h
    | @resource front s hfront h =>
      have hnine : front.length = 9 := length_of_map hfront
      have hlen : (front ++ s).length = 45 := by
        rw [List.length_append, hnine, length_of_map h, length_chars]
      have hmark : ((front ++ s).take 9).map Char.toLower = resourceName := by
        rw [List.take_left' hnine]
        exact hfront
      rw [hlen]
      show (if _ then _ else _) = _
      rw [if_pos hmark, List.drop_left' hnine]
      exact ofHyphenated?_eq_some_iff.2 h

/-- **An identifier is read from its spellings**, and from nothing else. -/
theorem ofText?_eq_some_iff {s : String} : ofText? s = some id ↔ id.Spells s.toList :=
  ofChars?_eq_some_iff

theorem ofText?_eq_none_iff {s : String} :
    ofText? s = none ↔ ∀ id : Uuid, ¬ id.Spells s.toList := by
  simp only [Option.eq_none_iff_forall_ne_some, ne_eq, ofText?_eq_some_iff]

/-- **The hyphenated form of an identifier is read as that identifier.** -/
theorem ofText?_text (id : Uuid) : ofText? id.text = some id := by
  rw [ofText?_eq_some_iff, text, String.toList_ofList]
  exact .hyphenated (map_toLower_chars id)

end Uuid

end Lookout
