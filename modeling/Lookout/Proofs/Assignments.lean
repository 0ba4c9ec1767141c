import Lookout.Command.Assignment
import Lookout.Proofs.Pieces
import Lookout.Proofs.VariableJson

/-!
# Variables on the command line

A variable on the command line is read like a persisted one, from the same texts.

- **Integers** (`readInteger?_eq_some_iff`): what stands between blanks, as in a persisted pair.
- **Cuts** (`readAssignment_moving`, `readAssignment_fixed`, `exists_of_readAssignment`): the name
  ends at the first equals sign, the value at the first colon after it.
- **Texts** (`Assigns`, `readAssignment_eq_ok_iff`): the texts of which a variable is read.
- **Persisted variables** (`readAssignment_persisted`): both readers take the same texts, with the
  same meaning.
-/

namespace Lookout.Command

/-- What can be assigned to: a name that is not empty and has no equals sign. -/
structure IsName (name : String) : Prop where
  ne_empty : name ≠ ""
  no_equals : '=' ∉ name.toList

variable {name a b text : String} {v : Variable} {r : String × Variable}

/-! ## Integers -/

/-- An integer is read as in a persisted pair. -/
theorem readInteger?_eq_some_iff {cs : List Char} {n : Int64} :
    readInteger? cs = some n ↔ PairComponent.Spells n (.string (String.ofList cs)) := by
  rw [PairComponent.spells_string_iff, String.toList_ofList]
  unfold readInteger?
  cases Text.readInt64 (Text.trim cs) <;> simp [Except.toOption]

theorem readVariable_eq_ok_iff :
    readVariable name a.toList b.toList = .ok r ↔
      ∃ v : Variable, v.Spells (.array [.string a, .string b]) ∧ r = (name, v) := by
  have hinteger : ∀ {s : String} {n : Int64}, readInteger? s.toList = some n ↔
      PairComponent.Spells n (.string s) := by
    intro s n
    rw [readInteger?_eq_some_iff, String.ofList_toList]
  constructor
  · intro h
    unfold readVariable at h
    split at h
    · cases h
    · rename_i n hn
      split at h
      · cases h
      · rename_i m hm
        cases h
        exact ⟨_, .pair (hinteger.1 hn) (hinteger.1 hm), rfl⟩
  · rintro ⟨v, ⟨hvalue, hincrement⟩, rfl⟩
    unfold readVariable
    rw [hinteger.2 hvalue]
    dsimp only
    rw [hinteger.2 hincrement]

/-! ## Cuts -/

private theorem isEmpty_name (h : IsName name) : name.toList.isEmpty = false := by
  rw [List.isEmpty_eq_false_iff]
  exact fun hnil => h.ne_empty (String.toList_eq_nil_iff.1 hnil)

theorem readAssignment_moving (hname : IsName name) (ha : ':' ∉ a.toList) :
    readAssignment (name ++ "=" ++ a ++ ":" ++ b) = readVariable name a.toList b.toList := by
  have htext : (name ++ "=" ++ a ++ ":" ++ b).toList =
      name.toList ++ '=' :: (a.toList ++ ':' :: b.toList) := by
    simp [String.toList_append]
  unfold readAssignment
  rw [htext, Text.splitFirst?_of_not_mem hname.no_equals]
  dsimp only
  rw [isEmpty_name hname, Text.splitFirst?_of_not_mem ha, String.ofList_toList]
  rfl

theorem readAssignment_fixed (hname : IsName name) (ha : ':' ∉ a.toList) :
    readAssignment (name ++ "=" ++ a) = readVariable name a.toList "0".toList := by
  have htext : (name ++ "=" ++ a).toList = name.toList ++ '=' :: a.toList := by
    simp [String.toList_append]
  unfold readAssignment
  rw [htext, Text.splitFirst?_of_not_mem hname.no_equals]
  dsimp only
  rw [isEmpty_name hname, Text.splitFirst?_eq_none_iff.2 ha, String.ofList_toList]
  rfl

/-- What is read as a variable has an equals sign after its name. -/
theorem exists_of_readAssignment (h : readAssignment text = .ok r) :
    IsName r.1 ∧ ∃ a, ':' ∉ a.toList ∧
      (text = r.1 ++ "=" ++ a ∨ ∃ b, text = r.1 ++ "=" ++ a ++ ":" ++ b) := by
  -- The name is taken over whatever the two integers are.
  have hfirst : ∀ {name value increment}, readVariable name value increment = .ok r →
      r.1 = name := by
    intro name value increment h
    rw [← String.toList_ofList (l := value), ← String.toList_ofList (l := increment)] at h
    obtain ⟨v, -, rfl⟩ := readVariable_eq_ok_iff.1 h
    rfl
  unfold readAssignment at h
  split at h
  · cases h
  · rename_i name rest hname
    obtain ⟨hequals, htext⟩ := Text.splitFirst?_eq_some_iff.1 hname
    split at h
    · cases h
    · rename_i hfilled
      have hisName : IsName (String.ofList name) :=
        ⟨fun hempty => hfilled (by simpa using hempty), by rwa [String.toList_ofList]⟩
      split at h
      · rename_i value increment hvalue
        obtain ⟨hcolon, rfl⟩ := Text.splitFirst?_eq_some_iff.1 hvalue
        rw [hfirst h]
        refine ⟨hisName, String.ofList value, by rwa [String.toList_ofList],
          .inr ⟨String.ofList increment, String.toList_inj.1 ?_⟩⟩
        simp [htext]
      · rename_i hvalue
        rw [hfirst h]
        refine ⟨hisName, String.ofList rest, ?_, .inl (String.toList_inj.1 ?_)⟩
        · rw [String.toList_ofList]
          exact Text.splitFirst?_eq_none_iff.1 hvalue
        · simp [htext]

/-! ## Texts -/

/-- The texts that assign a variable to a name: its value and its increment between a colon, or its
value alone if it does not move. -/
inductive Assigns (name : String) (v : Variable) : String → Prop
  | moving {a b : String} (ha : ':' ∉ a.toList) (h : v.Spells (.array [.string a, .string b])) :
      Assigns name v (name ++ "=" ++ a ++ ":" ++ b)
  | fixed {a : String} (ha : ':' ∉ a.toList) (h : v.Spells (.array [.string a, .string "0"])) :
      Assigns name v (name ++ "=" ++ a)

/-- **A variable is read from the texts that assign it**, and from nothing else. -/
theorem readAssignment_eq_ok_iff :
    readAssignment text = .ok (name, v) ↔ IsName name ∧ Assigns name v text := by
  constructor
  · intro h
    obtain ⟨hname, a, ha, rfl | ⟨b, rfl⟩⟩ := exists_of_readAssignment h
    · rw [readAssignment_fixed hname ha, readVariable_eq_ok_iff] at h
      obtain ⟨v', hspells, heq⟩ := h
      cases heq
      exact ⟨hname, .fixed ha hspells⟩
    · rw [readAssignment_moving hname ha, readVariable_eq_ok_iff] at h
      obtain ⟨v', hspells, heq⟩ := h
      cases heq
      exact ⟨hname, .moving ha hspells⟩
  · rintro ⟨hname, ⟨ha, hspells⟩ | ⟨ha, hspells⟩⟩
    · rw [readAssignment_moving hname ha]
      exact readVariable_eq_ok_iff.2 ⟨v, hspells, rfl⟩
    · rw [readAssignment_fixed hname ha]
      exact readVariable_eq_ok_iff.2 ⟨v, hspells, rfl⟩

/-! ## Persisted variables -/

/-- An integer is spelled as it is written. -/
theorem spells_showInt (n : Int64) : PairComponent.Spells n (.string (Text.showInt n.toInt)) := by
  have hspells := PairComponent.Spells.text [] _ [] (List.forall_mem_nil _)
    (Text.Spells.ofInt n.toInt) (List.forall_mem_nil _)
  rwa [List.nil_append, List.append_nil] at hspells

theorem not_mem_showInt (n : Int) : ':' ∉ (Text.showInt n).toList := by
  have hdigits : ∀ {run : List Char}, Text.AreDigits run → ':' ∉ run := fun hd hmem => by
    cases hd ':' hmem
  unfold Text.showInt
  rw [String.toList_ofList]
  cases n with
  | ofNat n => exact hdigits (Text.areDigits_digits n)
  | negSucc n =>
    exact List.not_mem_cons_of_ne_of_not_mem (by decide) (hdigits (Text.areDigits_digits (n + 1)))

/-- **Variables on the command line and persisted variables are read alike.** A name with two texts
is read as a variable if and only if the pair of these texts is a persisted variable, and then as
that one; without the second text it is as if that was zero. Integers in decimal are read back. All
that is read is of this kind. -/
theorem readAssignment_persisted :
    (∀ name a b, IsName name → ':' ∉ a.toList →
      (∀ r, readAssignment (name ++ "=" ++ a ++ ":" ++ b) = .ok r ↔
        ∃ v, Variable.ofJson (.array [.string a, .string b]) = .ok v ∧ r = (name, v)) ∧
      ∀ r, readAssignment (name ++ "=" ++ a) = .ok r ↔
        ∃ v, Variable.ofJson (.array [.string a, .string "0"]) = .ok v ∧ r = (name, v)) ∧
    (∀ name (v : Variable), IsName name →
      readAssignment (name ++ "=" ++ Text.showInt v.value.toInt ++ ":" ++
        Text.showInt v.increment.toInt) = .ok (name, v)) ∧
    ∀ text r, readAssignment text = .ok r →
      IsName r.1 ∧ ∃ a, ':' ∉ a.toList ∧
        (text = r.1 ++ "=" ++ a ∨ ∃ b, text = r.1 ++ "=" ++ a ++ ":" ++ b) := by
  refine ⟨fun name a b hname ha => ⟨fun r => ?_, fun r => ?_⟩, fun name v hname => ?_,
    fun text r h => exists_of_readAssignment h⟩
  · simp only [readAssignment_moving hname ha, readVariable_eq_ok_iff, Variable.ofJson_eq_ok_iff]
  · simp only [readAssignment_fixed hname ha, readVariable_eq_ok_iff, Variable.ofJson_eq_ok_iff]
  · exact readAssignment_eq_ok_iff.2 ⟨hname, .moving (not_mem_showInt _)
      (.pair (spells_showInt v.value) (spells_showInt v.increment))⟩

/-- A day with a sign, a zero in front and blanks moves backwards. A year alone does not move. A
second colon is not a part of an integer. -/
theorem readAssignment_persisted_day :
    readAssignment "DAY= +013 :-1" = .ok ("DAY", { value := 13, increment := -1 }) ∧
      readAssignment "YEAR=2024" = .ok ("YEAR", .fixed 2024) ∧
      ∀ r, readAssignment "DAY=13:1:1" ≠ .ok r := by
  have hday : IsName "DAY" := ⟨by decide, by decide⟩
  have hyear : IsName "YEAR" := ⟨by decide, by decide⟩
  obtain ⟨hread, -⟩ := readAssignment_persisted
  have hmoving := (hread "DAY" " +013 " "-1" hday (by decide)).1
  have hfixed := (hread "YEAR" "2024" "" hyear (by decide)).2
  have hsurplus := (hread "DAY" "13" "1:1" hday (by decide)).1
  refine ⟨(hmoving _).2 ⟨_, rfl, rfl⟩, (hfixed _).2 ⟨_, rfl, rfl⟩, fun r hr => ?_⟩
  obtain ⟨v, hv, -⟩ := (hsurplus r).1 hr
  cases hv

end Lookout.Command
