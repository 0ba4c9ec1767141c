import Lookout.Json.Document
import Lookout.Proofs.IdMap
import Lookout.Proofs.JsonText
import Mathlib.Data.List.Forall2
import Mathlib.Data.List.Nodup
import Mathlib.Data.List.Pairwise

/-!
# Records that are read back

- `Json.asInt64_toInt`, `Json.asList_map`: integers of 64 bits and lists are decoded as what they
  encode.
- `Json.rowOfObject_eq_ok_iff`: the members of an object make a row if and only if they pass their
  checks and give no field twice, be it under two names.
- `Json.Entry`: a field with a value that it is decoded from.
- `Json.rowOfObject_given`: an object that gives some fields once, under any of their names and
  among others, is the row of these fields.
- `Json.rowOfObject_entries`: an object with an entry for each field, in any order, is a row from
  which each field can be taken.
- `Json.sortedMembers_perm`: members in ascending order are the same members.
- `Json.Record.ofText_render`: a record is read from the text of a value as it is from the value.
-/

namespace Lookout.Json

open Text

/-! ## Plain types -/

theorem asString_string (s : String) : asString (.string s) = .ok s :=
  rfl

theorem fitsInt64_toInt (n : Int64) : fitsInt64 n.toInt = true := by
  have hlow := n.le_toInt
  have hhigh := n.toInt_lt
  unfold fitsInt64
  simp only [Bool.and_eq_true, decide_eq_true_eq]
  omega

theorem asInt64_toInt (n : Int64) : asInt64 (.integer n.toInt) = .ok n := by
  refine (if_pos (fitsInt64_toInt n)).trans ?_
  rw [Int64.ofInt_toInt]

theorem Fits.toInt {depth : Nat} (n : Int64) : Fits depth (.integer n.toInt) := by
  have hlow := n.le_toInt
  have hhigh := n.toInt_lt
  exact .integer (by omega) (by unfold maxCount; omega)

theorem asList_map {α : Type} {encode : α → Json} {decode : Json → Except DecodeError α}
    (h : ∀ a, decode (encode a) = .ok a) (l : List α) :
    asList decode (.array (l.map encode)) = .ok l := by
  have hall : decodeAll decode (l.map encode) = .ok l := by
    induction l with
    | nil => rfl
    | cons a l ih => simp only [List.map_cons, decodeAll, h a, ih]
  exact hall

/-! ## Rows -/

section Rows

variable {slots : List Slot}

/-- The field that goes by a name. -/
def fieldOf (slots : List Slot) (name : String) : Option Slot :=
  slots.find? fun slot => slot.names.contains name

/-- A field is found by each of its names. -/
theorem fieldOf_eq_some (hnodup : (slots.flatMap Slot.names).Nodup) {slot : Slot}
    (h : slot ∈ slots) {name : String} (hname : name ∈ slot.names) :
    fieldOf slots name = some slot := by
  induction slots with
  | nil => cases h
  | cons first slots ih =>
    rw [List.flatMap_cons, List.nodup_append] at hnodup
    obtain ⟨-, hrest, hne⟩ := hnodup
    unfold fieldOf
    rw [List.find?_cons]
    rcases List.mem_cons.1 h with rfl | h
    · rw [List.contains_iff_mem.2 hname]
    · have hfirst : first.names.contains name = false := by
        refine Bool.eq_false_iff.2 fun hmem => ?_
        exact hne _ (List.contains_iff_mem.1 hmem) _ (List.mem_flatMap_of_mem h hname) rfl
      rw [hfirst]
      exact ih hrest h

theorem fieldOf_eq_none {name : String} (h : name ∉ slots.flatMap Slot.names) :
    fieldOf slots name = none := by
  refine List.find?_eq_none.2 fun slot hslot hname => h ?_
  exact List.mem_flatMap_of_mem hslot (List.contains_iff_mem.1 hname)

/-- What a member of an object gives to the row. -/
def given? (slots : List Slot) (m : String × Json) : Option (String × Json) :=
  (fieldOf slots m.1).map fun slot => (slot.name, m.2)

/-- A member that is a field passes its check, any other one can be read. -/
def Passes (slots : List Slot) (m : String × Json) : Prop :=
  match fieldOf slots m.1 with
  | some slot => slot.check m.2 = .ok ()
  | none => m.2.isReadable = true

theorem lookup_eq_none_iff {name : String} {members : List (String × Json)} :
    members.lookup name = none ↔ name ∉ members.map Prod.fst := by
  simp only [List.lookup_eq_none_iff, List.mem_map, not_exists, not_and, bne_iff_ne]
  exact ⟨fun h m hm heq => h m hm heq.symm, fun h m hm heq => h m hm heq.symm⟩

/-- **The members of an object make a row** if and only if they pass and give no field twice. -/
theorem rowEntries_eq_ok_iff {members seen entries : List (String × Json)}
    (hseen : (seen.map Prod.fst).Nodup) :
    rowEntries slots members seen = .ok entries ↔
      (∀ m ∈ members, Passes slots m) ∧
      ((seen ++ members.filterMap (given? slots)).map Prod.fst).Nodup ∧
      entries = seen ++ members.filterMap (given? slots) := by
  induction members generalizing seen with
  | nil =>
    rw [List.filterMap_nil, List.append_nil, rowEntries]
    constructor
    · intro h
      cases h
      exact ⟨List.forall_mem_nil _, hseen, rfl⟩
    · rintro ⟨-, -, rfl⟩
      rfl
  | cons m members ih =>
    obtain ⟨name, j⟩ := m
    rw [rowEntries, List.forall_mem_cons]
    cases hslot : fieldOf slots name with
    | none =>
      have hgiven : given? slots (name, j) = none := by
        unfold given?
        rw [hslot]
        rfl
      have hpasses : Passes slots (name, j) ↔ j.isReadable = true := by
        unfold Passes
        rw [hslot]
      unfold fieldOf at hslot
      rw [hslot, List.filterMap_cons_none hgiven, hpasses]
      cases hreadable : j.isReadable with
      | true => simpa using ih hseen
      | false => simp
    | some slot =>
      have hgiven : given? slots (name, j) = some (slot.name, j) := by
        unfold given?
        rw [hslot]
        rfl
      have hpasses : Passes slots (name, j) ↔ slot.check j = .ok () := by
        unfold Passes
        rw [hslot]
      have hnodup : ((seen ++ (slot.name, j) :: members.filterMap (given? slots)).map
          Prod.fst).Nodup → slot.name ∉ seen.map Prod.fst := by
        rw [List.map_append, List.map_cons, List.nodup_append]
        exact fun h hmem => h.2.2 slot.name hmem slot.name List.mem_cons_self rfl
      unfold fieldOf at hslot
      rw [hslot, List.filterMap_cons_some hgiven, hpasses]
      dsimp only
      by_cases hmem : slot.name ∈ seen.map Prod.fst
      · have hdoubled : (seen.lookup slot.name).isSome = true := by
          rw [Option.isSome_iff_ne_none, Ne, lookup_eq_none_iff]
          exact not_not_intro hmem
        rw [if_pos hdoubled]
        exact iff_of_false (fun h => by cases h) fun h => hnodup h.2.1 hmem
      · have hnext : ((seen ++ [(slot.name, j)]).map Prod.fst).Nodup := by
          rw [List.map_append, List.map_singleton, ← List.concat_eq_append]
          exact List.Nodup.concat hmem hseen
        have happend := ih hnext
        rw [List.append_assoc, List.singleton_append] at happend
        rw [lookup_eq_none_iff.2 hmem]
        cases hcheck : slot.check j with
        | error e => simp
        | ok u => simpa using happend

theorem rowOfObject_eq_ok_iff {members : List (String × Json)} {row : Row} :
    rowOfObject slots members = .ok row ↔
      (∀ m ∈ members, Passes slots m) ∧
      ((members.filterMap (given? slots)).map Prod.fst).Nodup ∧
      row = { entries := members.filterMap (given? slots), form := .asObject } := by
  have hentries : ∀ entries, rowEntries slots members [] = .ok entries ↔
      (∀ m ∈ members, Passes slots m) ∧
      ((members.filterMap (given? slots)).map Prod.fst).Nodup ∧
      entries = members.filterMap (given? slots) := fun _ => rowEntries_eq_ok_iff List.nodup_nil
  unfold rowOfObject
  cases hread : rowEntries slots members [] with
  | error e =>
    rw [hread] at hentries
    exact iff_of_false (fun h => by cases h) fun h => by cases (hentries _).2 ⟨h.1, h.2.1, rfl⟩
  | ok entries =>
    obtain ⟨hpasses, hnodup, rfl⟩ := (hentries entries).1 hread
    constructor
    · intro h
      cases h
      exact ⟨hpasses, hnodup, rfl⟩
    · rintro ⟨-, -, rfl⟩
      rfl

/-- A field with a value that it is decoded from. -/
structure Entry where
  slot : Slot
  value : Json
  ok : slot.check value = .ok ()

/-- The entry of a field that is decoded in that way. -/
def Field.entry {α : Type} (f : Field α) {decode : Json → Except DecodeError α} {j : Json} {a : α}
    (h : decode j = .ok a) (hf : f.decode = decode) : Entry :=
  { slot := f.slot
    value := j
    ok := by
      unfold Field.slot
      dsimp only
      rw [hf, h]
      rfl }

/-- The member that gives an entry. -/
def Entry.member (e : Entry) : String × Json :=
  (e.slot.name, e.value)

/-- A member that gives an entry, under one of the names of its field. -/
def Entry.GivenBy (e : Entry) (m : String × Json) : Prop :=
  m.1 ∈ e.slot.names ∧ m.2 = e.value

theorem Entry.givenBy_member (e : Entry) : e.GivenBy e.member :=
  ⟨List.mem_cons_self, rfl⟩

/-- **An object that gives fields once and rightly**, under any of their names, in any order and
among others, is a row of these fields. -/
theorem rowOfObject_given (hslots : (slots.flatMap Slot.names).Nodup) {entries : List Entry}
    (h : ∀ e ∈ entries, e.slot ∈ slots)
    (hnodup : ((entries.map Entry.member).map Prod.fst).Nodup)
    {named others members : List (String × Json)}
    (hnamed : List.Forall₂ Entry.GivenBy entries named)
    (hothers : ∀ m ∈ others, m.1 ∉ slots.flatMap Slot.names ∧ m.2.isReadable = true)
    (hperm : members.Perm (named ++ others)) :
    ∃ row, rowOfObject slots members = .ok row ∧ row.entries.Perm (entries.map Entry.member) := by
  have hfields : (∀ m ∈ named, Passes slots m) ∧
      named.filterMap (given? slots) = entries.map Entry.member := by
    clear hnodup hperm
    induction hnamed with
    | nil => exact ⟨List.forall_mem_nil _, rfl⟩
    | @cons e m entries named hm _ ih =>
      obtain ⟨hslot, hrest⟩ := List.forall_mem_cons.1 h
      obtain ⟨hpasses, hgiven⟩ := ih hrest
      have hfield : fieldOf slots m.1 = some e.slot := fieldOf_eq_some hslots hslot hm.1
      have hfirst : given? slots m = some e.member := by
        unfold given? Entry.member
        rw [hfield, hm.2]
        rfl
      rw [List.filterMap_cons_some hfirst, hgiven]
      refine ⟨List.forall_mem_cons.2 ⟨?_, hpasses⟩, rfl⟩
      unfold Passes
      rw [hfield, hm.2]
      exact e.ok
  have hskipped : (∀ m ∈ others, Passes slots m) ∧ others.filterMap (given? slots) = [] := by
    refine ⟨fun m hm => ?_, List.filterMap_eq_nil_iff.2 fun m hm => ?_⟩
    · unfold Passes
      rw [fieldOf_eq_none (hothers m hm).1]
      exact (hothers m hm).2
    · unfold given?
      rw [fieldOf_eq_none (hothers m hm).1]
      rfl
  have hall : (members.filterMap (given? slots)).Perm (entries.map Entry.member) := by
    have hgiven := hperm.filterMap (given? slots)
    rwa [List.filterMap_append, hfields.2, hskipped.2, List.append_nil] at hgiven
  have hpasses : ∀ m ∈ members, Passes slots m := fun m hm =>
    (List.mem_append.1 (hperm.mem_iff.1 hm)).elim (hfields.1 m) (hskipped.1 m)
  exact ⟨_, rowOfObject_eq_ok_iff.2 ⟨hpasses, (hall.map Prod.fst).nodup_iff.2 hnodup, rfl⟩, hall⟩

/-- **An object that gives a field under two names is refused.** -/
theorem rowOfObject_ne_ok_of_both (hslots : (slots.flatMap Slot.names).Nodup) {slot : Slot}
    (h : slot ∈ slots) {name other : String} (hname : name ∈ slot.names)
    (hother : other ∈ slot.names) (hne : name ≠ other) {members : List (String × Json)}
    (hm : name ∈ members.map Prod.fst) (hm' : other ∈ members.map Prod.fst) (row : Row) :
    rowOfObject slots members ≠ .ok row := by
  intro hrow
  have hnodup := (rowOfObject_eq_ok_iff.1 hrow).2.1
  obtain ⟨m, hmem, rfl⟩ := List.mem_map.1 hm
  obtain ⟨m', hmem', rfl⟩ := List.mem_map.1 hm'
  have hfields := List.pairwise_filterMap.1 (List.pairwise_map.1 hnodup)
  have hsymm : Std.Symm fun a b : String × Json => ∀ x, given? slots a = some x →
      ∀ y, given? slots b = some y → x.1 ≠ y.1 :=
    ⟨fun a b h x hx y hy hxy => h y hy x hx hxy.symm⟩
  have hgiven : ∀ {m : String × Json}, m.1 ∈ slot.names →
      given? slots m = some (slot.name, m.2) := by
    intro m hname
    unfold given?
    rw [fieldOf_eq_some hslots h hname]
    rfl
  have hdistinct : m ≠ m' := fun heq => hne (congrArg Prod.fst heq)
  exact hfields.forall hmem hmem' hdistinct _ (hgiven hname) _ (hgiven hother) rfl

/-- Fields of a record have distinct names. -/
theorem nodup_members (hslots : (slots.flatMap Slot.names).Nodup) {entries : List Entry}
    (h : entries.map Entry.slot = slots) :
    ((entries.map Entry.member).map Prod.fst).Nodup := by
  have hnames : (entries.map Entry.member).map Prod.fst = slots.map Slot.name := by
    rw [← h, List.map_map, List.map_map]
    rfl
  have hsublist : (slots.map Slot.name).Sublist (slots.flatMap Slot.names) := by
    clear hslots hnames h
    induction slots with
    | nil => exact .slnil
    | cons s slots ih =>
      rw [List.map_cons, List.flatMap_cons]
      exact .cons_cons _ (ih.trans (List.sublist_append_right _ _))
  rw [hnames]
  exact hslots.sublist hsublist

/-- With distinct names in a row, a field is the one of its name. -/
theorem Row.get_of_mem {α : Type} {row : Row} (hnodup : (row.entries.map Prod.fst).Nodup)
    (f : Field α) {j : Json} (h : (f.name, j) ∈ row.entries) : row.get f = f.decode j := by
  unfold Row.get
  rw [IdMap.lookup_eq_some_of_mem hnodup h]

/-- **From an object that gives each field once, in any order, each field can be taken.** -/
theorem rowOfObject_entries (hslots : (slots.flatMap Slot.names).Nodup) {entries : List Entry}
    (h : entries.map Entry.slot = slots) {members : List (String × Json)}
    (hperm : members.Perm (entries.map Entry.member)) :
    ∃ row, rowOfObject slots members = .ok row ∧
      ∀ {α : Type} (f : Field α) {decode : Json → Except DecodeError α} {j : Json} {a : α}
        (h : decode j = .ok a) (hf : f.decode = decode) (n : Nat),
        entries[n]? = some (f.entry h hf) → row.get f = .ok a := by
  have hnamed : List.Forall₂ Entry.GivenBy entries (entries.map Entry.member) :=
    List.forall₂_map_right_iff.2 (List.forall₂_same.2 fun e _ => e.givenBy_member)
  rw [← List.append_nil (entries.map Entry.member)] at hperm
  obtain ⟨row, hrow, hentries⟩ := rowOfObject_given hslots
    (fun e he => h ▸ List.mem_map_of_mem he) (nodup_members hslots h) hnamed
    (List.forall_mem_nil _) hperm
  refine ⟨row, hrow, fun f decode j a ha hf n he => ?_⟩
  have hmem : (f.name, j) ∈ row.entries :=
    hentries.mem_iff.2 (List.mem_map_of_mem (List.mem_of_getElem? he))
  have hnodup : (row.entries.map Prod.fst).Nodup :=
    (hentries.map Prod.fst).nodup_iff.2 (nodup_members hslots h)
  rw [Row.get_of_mem hnodup f hmem, hf, ha]

/-- Decoding in two steps succeeds in both. -/
theorem exists_of_bind {α β : Type} {x : Except DecodeError α} {f : α → Except DecodeError β}
    {b : β} (h : x >>= f = .ok b) : ∃ a, x = .ok a ∧ f a = .ok b := by
  cases x with
  | error e => cases h
  | ok a => exact ⟨a, rfl, h⟩

/-- The value of a needed field is one that the field is decoded as. -/
theorem Row.exists_of_get {α : Type} {row : Row} {f : Field α} {a : α}
    (hneeded : f.absence = .refused) (h : row.get f = .ok a) : ∃ j, f.decode j = .ok a := by
  unfold Row.get at h
  rw [hneeded] at h
  cases hlookup : row.entries.lookup f.name with
  | some j =>
    rw [hlookup] at h
    exact ⟨j, h⟩
  | none =>
    rw [hlookup] at h
    cases hform : row.form with
    | asObject =>
      rw [hform] at h
      cases h
    | asArray names expected =>
      rw [hform] at h
      cases h

theorem asRecord_object {α : Type} {r : Record α} {members : List (String × Json)} {row : Row}
    (h : rowOfObject r.slots members = .ok row) : asRecord r (.object members) = r.ofRow row := by
  unfold asRecord
  dsimp only
  rw [h]

/-- A record is taken out of a row. -/
theorem exists_of_asRecord {α : Type} {r : Record α} {j : Json} {a : α}
    (h : asRecord r j = .ok a) : ∃ row, r.ofRow row = .ok a := by
  unfold asRecord at h
  split at h
  · split at h
    · cases h
    · exact ⟨_, h⟩
  · split at h
    · cases h
    · rename_i hrow
      split at h
      · cases h
      · cases h
        exact ⟨_, hrow⟩
  · cases h

end Rows

/-! ## Order of members -/

theorem insertMember_perm {name : String} {value : Json} {members : List (String × Json)}
    (h : name ∉ members.map Prod.fst) :
    (insertMember name value members).Perm ((name, value) :: members) := by
  induction members with
  | nil => exact .refl _
  | cons m members ih =>
    obtain ⟨n, v⟩ := m
    rw [List.map_cons, List.mem_cons, not_or] at h
    unfold insertMember
    split
    · exact .refl _
    · rw [if_neg h.1]
      exact ((ih h.2).cons _).trans (.swap _ _ _)

/-- **Members in ascending order are the same members.** -/
theorem sortedMembers_perm {members placed : List (String × Json)}
    (h : ((placed ++ members).map Prod.fst).Nodup) :
    (sortedMembers members placed).Perm
      (placed ++ members.map fun m => (m.1, m.2.sorted)) := by
  induction members generalizing placed with
  | nil => rw [sortedMembers, List.map_nil, List.append_nil]
  | cons m members ih =>
    obtain ⟨name, value⟩ := m
    have hinsert :
        (insertMember name value.sorted placed).Perm ((name, value.sorted) :: placed) := by
      rw [List.map_append, List.map_cons, List.nodup_append] at h
      exact insertMember_perm fun hmem => h.2.2 name hmem name List.mem_cons_self rfl
    have hkeys : ((insertMember name value.sorted placed ++ members).map Prod.fst).Perm
        ((placed ++ (name, value) :: members).map Prod.fst) := by
      rw [List.map_append, List.map_append, List.map_cons]
      exact ((hinsert.map Prod.fst).append_right _).trans List.perm_middle.symm
    rw [sortedMembers, List.map_cons]
    exact (ih (hkeys.nodup_iff.2 h)).trans ((hinsert.append_right _).trans List.perm_middle.symm)

theorem insertMember_last {name : String} {value : Json} {members : List (String × Json)}
    (h : ∀ m ∈ members, m.1 < name) :
    insertMember name value members = members ++ [(name, value)] := by
  induction members with
  | nil => rfl
  | cons m members ih =>
    obtain ⟨n, v⟩ := m
    obtain ⟨hn, hmembers⟩ := List.forall_mem_cons.1 h
    have hne : name ≠ n := fun heq => String.lt_irrefl n (heq ▸ hn)
    unfold insertMember
    rw [if_neg (String.lt_asymm hn), if_neg hne, ih hmembers, List.cons_append]

/-- Members that are in ascending order stay where they are. -/
theorem sortedMembers_ascending {members placed : List (String × Json)}
    (h : ((placed ++ members).map Prod.fst).Pairwise (· < ·)) :
    sortedMembers members placed = placed ++ members.map fun m => (m.1, m.2.sorted) := by
  induction members generalizing placed with
  | nil => rw [sortedMembers, List.map_nil, List.append_nil]
  | cons m members ih =>
    obtain ⟨name, value⟩ := m
    have hlast : insertMember name value.sorted placed = placed ++ [(name, value.sorted)] := by
      rw [List.map_append, List.pairwise_append] at h
      exact insertMember_last fun m hm =>
        h.2.2 m.1 (List.mem_map_of_mem hm) name List.mem_cons_self
    have hkeys : (placed ++ [(name, value.sorted)] ++ members).map Prod.fst =
        (placed ++ (name, value) :: members).map Prod.fst := by
      simp only [List.map_append, List.map_cons, List.append_assoc, List.singleton_append]
    have hnext : ((placed ++ [(name, value.sorted)] ++ members).map Prod.fst).Pairwise
        (· < ·) := hkeys ▸ h
    rw [sortedMembers, hlast, ih hnext, List.map_cons, List.append_assoc, List.singleton_append]

/-! ## Texts -/

/-- No field of a record is passed over when a record is read. -/
theorem Record.keeps_entries {α : Type} (r : Record α) {entries : List Entry}
    (h : entries.map Entry.slot = r.slots) :
    r.shape.Keeps (.object (entries.map Entry.member)) := by
  intro m hm
  obtain ⟨e, he, rfl⟩ := List.mem_map.1 hm
  have hslot : e.slot ∈ r.slots := h ▸ List.mem_map_of_mem he
  exact List.mem_flatMap_of_mem hslot List.mem_cons_self

/-- **A record is read from the text of a value as it is from the value.** -/
theorem Record.ofText_render {α : Type} (r : Record α) {j : Json} (h : Fits 127 j)
    (hkeeps : r.shape.Keeps j) : r.ofText j.render = asRecord r j := by
  unfold Record.ofText decodeText render
  rw [String.toList_ofList, read_chars h hkeeps]
  dsimp only
  cases asRecord r j with
  | error e => rfl
  | ok a => rfl

/-- A record in a text is one of a value. -/
theorem Record.exists_of_ofText {α : Type} {r : Record α} {text : String} {a : α}
    (h : r.ofText text = .ok a) : ∃ j, asRecord r j = .ok a := by
  unfold Record.ofText decodeText at h
  dsimp only at h
  split at h
  · cases h
  · rename_i hrecord
    split at h
    · cases h
      exact ⟨_, hrecord⟩
    · cases h

end Lookout.Json
