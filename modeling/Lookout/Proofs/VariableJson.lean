import Lookout.Proofs.Records
import Lookout.Variable.Json

/-!
# Variables that are read

Variables may be spelled in many ways, and all of them are read as the same variables.

- `Text.Spells`: the texts of an integer, with an optional sign and with zeros in front. An integer
  is read from these only (`Text.readInt64_eq_ok_iff`).
- `PairComponent.Spells`: an integer, or one of its texts between blanks.
- `Variable.Spells`: a pair of such components. A variable is read from these only
  (`Variable.ofJson_eq_ok_iff`).
- `VariableSet.Spells`: an object of such pairs, in any order.
-/

namespace Lookout

/-! ## Integers -/

namespace Text

variable {s : List Char} {n : Int64}

/-- The text of an integer in decimal: digits behind an optional sign. -/
inductive Spells (n : Int) : List Char → Prop
  | plain {run : List Char} (hd : AreDigits run) (hne : run ≠ []) (h : (ofDigits run : Int) = n) :
      Spells n run
  | plus {run : List Char} (hd : AreDigits run) (hne : run ≠ []) (h : (ofDigits run : Int) = n) :
      Spells n ('+' :: run)
  | minus {run : List Char} (hd : AreDigits run) (hne : run ≠ [])
      (h : (ofDigits run : Int) = -n) : Spells n ('-' :: run)

/-- An integer is written as one of its texts. -/
theorem Spells.ofInt (n : Int) : Spells n (ofInt n) := by
  cases n with
  | ofNat n =>
    exact .plain (areDigits_digits n) (digits_ne_nil n) (congrArg Int.ofNat (ofDigits_digits n))
  | negSucc n =>
    refine .minus (areDigits_digits _) (digits_ne_nil _) ?_
    rw [ofDigits_digits]
    rfl

/-- The text of an integer has no blanks. -/
theorem Spells.not_isBlank {n : Int} (h : Spells n s) : ∀ c ∈ s, isBlank c = false := by
  cases h with
  | plain hd _ _ => exact hd.not_isBlank
  | plus hd _ _ => exact List.forall_mem_cons.2 ⟨by decide, hd.not_isBlank⟩
  | minus hd _ _ => exact List.forall_mem_cons.2 ⟨by decide, hd.not_isBlank⟩

/-- A magnitude is read as the integer it stands for with its sign, if that is in range. -/
private theorem readSigned_eq_ok_iff {limit : Nat} {onExcess : IntegerError} {run : List Char}
    {f : Int → Int} (hrange : ∀ m : Nat, m ≤ limit →
      -9223372036854775808 ≤ f m ∧ f m < 9223372036854775808)
    (hlimit : ∀ m : Nat, f m = n.toInt → m ≤ limit) :
    ((readMagnitude limit onExcess run).map fun m => Int64.ofInt (f m)) = .ok n ↔
      AreDigits run ∧ run ≠ [] ∧ f (ofDigits run) = n.toInt := by
  have hread : ((readMagnitude limit onExcess run).map fun m => Int64.ofInt (f m)) = .ok n ↔
      ∃ m, readMagnitude limit onExcess run = .ok m ∧ Int64.ofInt (f m) = n := by
    cases readMagnitude limit onExcess run with
    | error err => simp [Except.map, bind, Except.bind]
    | ok m => simp [Except.map, bind, Except.bind, pure, Except.pure]
  rw [hread]
  simp only [readMagnitude_eq_ok_iff]
  constructor
  · rintro ⟨_, ⟨⟨hd, hne⟩, rfl, hle⟩, rfl⟩
    obtain ⟨hlow, hhigh⟩ := hrange _ hle
    exact ⟨hd, hne, (Int64.toInt_ofInt_of_le hlow hhigh).symm⟩
  · rintro ⟨hd, hne, h⟩
    exact ⟨_, ⟨⟨hd, hne⟩, rfl, hlimit _ h⟩, by rw [h, Int64.ofInt_toInt]⟩

/-- **An integer is read from each of its texts**, and from nothing else. -/
theorem readInt64_eq_ok_iff : readInt64 s = .ok n ↔ Spells n.toInt s := by
  have hlow := n.le_toInt
  have hhigh := n.toInt_lt
  have hpositive : ∀ {run}, ((readMagnitude maxInt64 .tooLarge run).map fun m => Int64.ofInt m) =
      .ok n ↔ AreDigits run ∧ run ≠ [] ∧ (ofDigits run : Int) = n.toInt := by
    refine readSigned_eq_ok_iff (f := fun m => m) ?_ ?_
    all_goals
      unfold maxInt64
      omega
  have hnegative : ∀ {run}, ((readMagnitude (maxInt64 + 1) .tooSmall run).map
      fun m => Int64.ofInt (-m)) =
      .ok n ↔ AreDigits run ∧ run ≠ [] ∧ (-ofDigits run : Int) = n.toInt := by
    refine readSigned_eq_ok_iff (f := fun m => -m) ?_ ?_
    all_goals
      unfold maxInt64
      omega
  unfold readInt64
  split
  · constructor
    · intro h
      cases h
    · rintro (⟨_, hne, _⟩)
      exact absurd rfl hne
  · refine hpositive.trans ⟨?_, ?_⟩
    · rintro ⟨hd, hne, h⟩
      exact .plus hd hne h
    · rintro (⟨hd, _, _⟩ | ⟨hd, hne, h⟩)
      · cases hd '+' List.mem_cons_self
      · exact ⟨hd, hne, h⟩
  · refine hnegative.trans ⟨?_, ?_⟩
    · rintro ⟨hd, hne, h⟩
      exact .minus hd hne (by omega)
    · rintro (⟨hd, _, _⟩ | _ | ⟨hd, hne, h⟩)
      · cases hd '-' List.mem_cons_self
      · exact ⟨hd, hne, by omega⟩
  · rename_i hplus hminus
    refine hpositive.trans ⟨?_, ?_⟩
    · rintro ⟨hd, hne, h⟩
      exact .plain hd hne h
    · rintro (⟨hd, hne, h⟩ | _ | _)
      · exact ⟨hd, hne, h⟩
      · exact absurd rfl (hplus _)
      · exact absurd rfl (hminus _)

end Text

/-! ## Variables -/

/-- A component of a variable: an integer, or its text between blanks. -/
inductive PairComponent.Spells (n : Int64) : Json → Prop
  | integer : Spells n (.integer n.toInt)
  | text (front s back : List Char) (hfront : ∀ c ∈ front, Text.isBlank c = true)
      (h : Text.Spells n.toInt s) (hback : ∀ c ∈ back, Text.isBlank c = true) :
      Spells n (.string (String.ofList (front ++ (s ++ back))))

namespace PairComponent

variable {n : Int64}

/-- A text spells the integer that is read from it without the blanks at its ends. -/
theorem spells_string_iff {t : String} :
    Spells n (.string t) ↔ Text.readInt64 (Text.trim t.toList) = .ok n := by
  rw [Text.readInt64_eq_ok_iff]
  constructor
  · rintro (_ | ⟨front, s, back, hfront, h, hback⟩)
    rwa [String.toList_ofList, Text.trim_blanks hfront h.not_isBlank hback]
  · intro h
    obtain ⟨⟨front, back, ht, hfront, hback⟩, -, -⟩ := Text.trims_iff.2 (Eq.refl (Text.trim t.toList))
    have hspells := Spells.text front _ back hfront h hback
    rwa [← ht, String.ofList_toList] at hspells

/-- **A component** is read as its integer. -/
theorem Spells.ofJson_ok {j : Json} (h : Spells n j) :
    ∃ c, ofJson j = .ok c ∧ c.toInt64 = .ok n := by
  cases h with
  | integer =>
    refine ⟨.integer n, (if_pos (Json.fitsInt64_toInt n)).trans ?_, rfl⟩
    rw [Int64.ofInt_toInt]
  | text front s back hfront h hback =>
    have hread := spells_string_iff.1 (.text front s back hfront h hback)
    refine ⟨.text _, rfl, ?_⟩
    unfold toInt64
    dsimp only
    rw [hread]

/-- What is read as an integer spells it. -/
theorem spells_of_ofJson {j : Json} {c : PairComponent} (h : ofJson j = .ok c)
    (hc : c.toInt64 = .ok n) : Spells n j := by
  unfold ofJson at h
  split at h
  · rename_i t
    cases h
    unfold toInt64 at hc
    dsimp only at hc
    split at hc
    · rename_i hread
      cases hc
      exact spells_string_iff.2 hread
    · cases hc
  · rename_i m
    split at h
    · rename_i hfits
      cases h
      cases hc
      simp only [Json.fitsInt64, Bool.and_eq_true, decide_eq_true_eq] at hfits
      have hspells := Spells.integer (n := Int64.ofInt m)
      rwa [Int64.toInt_ofInt_of_le hfits.1 hfits.2] at hspells
    · cases h
  · cases h

end PairComponent

/-- A variable: the pair of its value and its increment. -/
inductive Variable.Spells (v : Variable) : Json → Prop
  | pair {value increment : Json} (hvalue : PairComponent.Spells v.value value)
      (hincrement : PairComponent.Spells v.increment increment) :
      Spells v (.array [value, increment])

theorem Variable.Spells.ofJson_eq {v : Variable} {j : Json} (h : v.Spells j) :
    ofJson j = .ok v := by
  obtain ⟨hvalue, hincrement⟩ := h
  obtain ⟨c, hc, hvalue⟩ := hvalue.ofJson_ok
  obtain ⟨c', hc', hincrement⟩ := hincrement.ofJson_ok
  unfold ofJson
  simp only [hc, hc', hvalue, hincrement, bind, Except.bind, pure, Except.pure, List.isEmpty_nil,
    if_true]

/-- **A variable is read from its spellings**, and from nothing else. -/
theorem Variable.ofJson_eq_ok_iff {v : Variable} {j : Json} : ofJson j = .ok v ↔ v.Spells j := by
  refine ⟨fun h => ?_, Spells.ofJson_eq⟩
  unfold ofJson at h
  split at h
  · cases h
  · obtain ⟨_, _, h⟩ := Json.exists_of_bind h
    cases h
  · rename_i value increment rest
    obtain ⟨c, hc, h⟩ := Json.exists_of_bind h
    obtain ⟨d, hd, h⟩ := Json.exists_of_bind h
    split at h
    · rename_i hrest
      obtain ⟨n, hn, h⟩ := Json.exists_of_bind h
      obtain ⟨m, hm, h⟩ := Json.exists_of_bind h
      cases h
      cases List.isEmpty_iff.1 hrest
      exact .pair (PairComponent.spells_of_ofJson hc hn) (PairComponent.spells_of_ofJson hd hm)
    · cases h
  · cases h

theorem Variable.Spells.toJson (v : Variable) : v.Spells v.toJson :=
  .pair .integer .integer

namespace VariableSet

variable {name : String} {v : Variable} {l order : List (String × Variable)} {vars : VariableSet}

theorem insertEntry_perm (h : name ∉ l.map Prod.fst) :
    (insertEntry name v l).Perm ((name, v) :: l) := by
  induction l with
  | nil => exact .refl _
  | cons e l ih =>
    obtain ⟨n, w⟩ := e
    rw [List.map_cons, List.mem_cons, not_or] at h
    unfold insertEntry
    split
    · exact .refl _
    · rw [if_neg h.1]
      exact ((ih h.2).cons _).trans (.swap _ _ _)

/-- The variables of a list with distinct names are those of the list. -/
theorem foldl_insert_perm (h : ((vars.entries ++ order).map Prod.fst).Nodup) :
    (order.foldl (fun vars e => vars.insert e.1 e.2) vars).entries.Perm
      (vars.entries ++ order) := by
  induction order generalizing vars with
  | nil => rw [List.append_nil]; exact .refl _
  | cons e order ih =>
    have hinsert : (vars.insert e.1 e.2).entries.Perm (e :: vars.entries) := by
      rw [List.map_append, List.map_cons, List.nodup_append] at h
      exact insertEntry_perm fun hmem => h.2.2 e.1 hmem e.1 List.mem_cons_self rfl
    have hperm : ((vars.insert e.1 e.2).entries ++ order).Perm (vars.entries ++ e :: order) :=
      (hinsert.append_right order).trans List.perm_middle.symm
    rw [List.foldl_cons]
    exact (ih ((hperm.map Prod.fst).nodup_iff.2 h)).trans hperm

/-- Variables are told apart by their entries in any order. -/
theorem eq_of_perm {vars vars' : VariableSet} (h : vars.entries.Perm vars'.entries) :
    vars = vars' := by
  obtain ⟨l, hl⟩ := vars
  obtain ⟨l', hl'⟩ := vars'
  have heq : l = l' := h.eq_of_pairwise
    (fun a b _ _ hab hba => absurd hba (String.lt_asymm hab)) hl hl'
  subst heq
  rfl

theorem nodup_names (vars : VariableSet) : (vars.entries.map Prod.fst).Nodup :=
  List.pairwise_map.2 (vars.ascending.imp fun h => String.ne_of_lt h)

/-- Variables: an object of pairs in any order. -/
inductive Spells (vars : VariableSet) : Json → Prop
  | members {order : List (String × Variable)} {members : List (String × Json)}
      (horder : order.Perm vars.entries)
      (h : List.Forall₂ (fun e m => m.1 = e.1 ∧ e.2.Spells m.2) order members) :
      Spells vars (.object members)

theorem insertMembers_eq {members : List (String × Json)}
    (h : List.Forall₂ (fun e m => m.1 = e.1 ∧ e.2.Spells m.2) order members) :
    insertMembers members vars = .ok (order.foldl (fun vars e => vars.insert e.1 e.2) vars) := by
  induction h generalizing vars with
  | nil => rfl
  | cons he _ ih =>
    obtain ⟨hname, hv⟩ := he
    unfold insertMembers
    rw [hv.ofJson_eq, hname]
    exact ih

theorem Spells.ofJson_eq {j : Json} (h : vars.Spells j) : ofJson j = .ok vars := by
  obtain ⟨horder, hmembers⟩ := h
  have hnodup : ((empty.entries ++ _).map Prod.fst).Nodup :=
    (horder.map Prod.fst).nodup_iff.2 vars.nodup_names
  exact (insertMembers_eq hmembers).trans
    (congrArg Except.ok (eq_of_perm ((foldl_insert_perm hnodup).trans horder)))

theorem Spells.toJson (vars : VariableSet) : vars.Spells vars.toJson :=
  .members (.refl _) (List.forall₂_map_right_iff.2 (List.forall₂_same.2 fun e _ =>
    ⟨rfl, .toJson e.2⟩))

end VariableSet

end Lookout
