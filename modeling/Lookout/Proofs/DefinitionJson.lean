import Lookout.Proofs.TriggerJson

/-!
# Spellings of checker definitions

A definition may be spelled in many ways (`Definition.Spells`): with its fields in any order and
under their second names, with unknown fields among them or as an array, and with variables that are
texts. All of them are read as the same definition (`Definition.reads_spellings`).

- `Definition.exists_entries`: an object gives the fields of a definition.
- `Definition.ofRow_fields`: from these fields, a definition is read.
- `Definition.ofJson_both`: a field is not given under both its names.
-/

namespace Lookout

/-! ## Definitions -/

/-- What is given for variables: an object, or nothing if there are none. -/
inductive VariableSet.GivenAs (vars : VariableSet) : List Json → Prop
  | given {j : Json} (h : vars.Spells j) : GivenAs vars [j]
  | leftOut (h : vars = empty) : GivenAs vars []

namespace Definition

open Json (Entry Row)

variable {d : Definition} {vars : List Json}

/-- A definition: an object with its fields in any order, two of which have a second name, and with
other members among them; or an array. -/
inductive Spells (d : Definition) : Json → Prop
  | object (patterns principal : String) (others : List (String × Json)) {vars : List Json}
      {members : List (String × Json)}
      (hpatterns : patterns ∈ ["pathPatterns", "dataPathPatterns"])
      (hprincipal : principal ∈ ["principal", "hdfsUser"]) (hvars : d.vars.GivenAs vars)
      (hothers : ∀ m ∈ others, m.1 ∉ record.names ∧ m.2.isReadable = true)
      (h : members.Perm
        ([("type", .string d.type), ("checkerId", .string d.id),
          (patterns, .array (d.patterns.map fun p => .string p.text)),
          (principal, .string d.principal)] ++ vars.map (fun j => ("variables", j)) ++ others)) :
      Spells d (.object members)
  | array {vars : List Json} (hvars : d.vars.GivenAs vars) :
      Spells d (.array
        ([.string d.type, .string d.id, .array (d.patterns.map fun p => .string p.text),
          .string d.principal] ++ vars))

/-- The fields under their first names. -/
def fields (d : Definition) (vars : List Json) : List (String × Json) :=
  [(typeField.name, .string d.type), (idField.name, .string d.id),
    (patternsField.name, .array (d.patterns.map Pattern.toJson)),
    (principalField.name, .string d.principal)] ++ vars.map fun j => (variablesField.name, j)

theorem nodup_slots : (slots.flatMap Json.Slot.names).Nodup := by
  decide

theorem nodup_fields (h : d.vars.GivenAs vars) : ((d.fields vars).map Prod.fst).Nodup := by
  cases h with
  | @given j h =>
    have hnames : (d.fields [j]).map Prod.fst = slots.map Json.Slot.name := rfl
    rw [hnames]
    decide
  | leftOut h =>
    have hnames : (d.fields []).map Prod.fst = (slots.take 4).map Json.Slot.name := rfl
    rw [hnames]
    decide

/-- **A definition** is taken out of a row of its fields. -/
theorem ofRow_fields {row : Row} (hvars : d.vars.GivenAs vars)
    (h : row.entries.Perm (d.fields vars)) : ofRow row = .ok d := by
  have hnodup : (row.entries.map Prod.fst).Nodup :=
    (h.map Prod.fst).nodup_iff.2 (nodup_fields hvars)
  have hget : ∀ {α : Type} (f : Json.Field α) (n : Nat) {j : Json},
      (d.fields vars)[n]? = some (f.name, j) → row.get f = f.decode j := fun f n j hn =>
    Row.get_of_mem hnodup f (h.mem_iff.2 (List.mem_of_getElem? hn))
  have hpatterns : patternsField.decode (.array (d.patterns.map Pattern.toJson)) =
      .ok d.patterns := Json.asList_map Pattern.ofJson_toJson d.patterns
  have hvariables : row.get variablesField = .ok d.vars := by
    cases hvars with
    | given hspells => exact (hget variablesField 4 rfl).trans hspells.ofJson_eq
    | leftOut hnone =>
      have hmissing : row.entries.lookup variablesField.name = none := by
        refine Json.lookup_eq_none_iff.2 fun hmem => ?_
        have hnames : (d.fields []).map Prod.fst = (slots.take 4).map Json.Slot.name := rfl
        rw [(h.map Prod.fst).mem_iff, hnames] at hmem
        revert hmem
        decide
      unfold Row.get
      rw [hmissing, hnone]
      cases row.form <;> rfl
  unfold ofRow
  rw [hget typeField 0 rfl, hget idField 1 rfl, hget patternsField 2 rfl, hpatterns,
    hget principalField 3 rfl, hvariables]
  rfl

/-- The fields that cannot be left out. -/
def entries (d : Definition) : List Entry :=
  [typeField.entry (Json.asString_string d.type) rfl,
   idField.entry (Json.asString_string d.id) rfl,
   patternsField.entry (Json.asList_map Pattern.ofJson_toJson d.patterns) rfl,
   principalField.entry (Json.asString_string d.principal) rfl]

theorem slot_entries (d : Definition) : ∀ e ∈ d.entries, e.slot ∈ slots := by
  have hslots : d.entries.map Entry.slot = slots.take 4 := rfl
  intro e he
  exact List.mem_of_mem_take (hslots ▸ List.mem_map_of_mem he)

/-- A definition in an object, its fields under any of their names. -/
theorem exists_entries {patterns principal : String}
    (hpatterns : patterns ∈ ["pathPatterns", "dataPathPatterns"])
    (hprincipal : principal ∈ ["principal", "hdfsUser"]) (hvars : d.vars.GivenAs vars) :
    ∃ entries : List Entry, (∀ e ∈ entries, e.slot ∈ slots) ∧
      entries.map Entry.member = d.fields vars ∧
      List.Forall₂ Entry.GivenBy entries
        ([("type", .string d.type), ("checkerId", .string d.id),
          (patterns, .array (d.patterns.map fun p => .string p.text)),
          (principal, .string d.principal)] ++ vars.map fun j => ("variables", j)) := by
  have hneeded : List.Forall₂ Entry.GivenBy d.entries
      [("type", .string d.type), ("checkerId", .string d.id),
        (patterns, .array (d.patterns.map fun p => .string p.text)),
        (principal, .string d.principal)] :=
    .cons ⟨List.mem_cons_self, rfl⟩ (.cons ⟨List.mem_cons_self, rfl⟩
      (.cons ⟨hpatterns, rfl⟩ (.cons ⟨hprincipal, rfl⟩ .nil)))
  cases hvars with
  | given h =>
    let e := variablesField.entry h.ofJson_eq rfl
    refine ⟨d.entries ++ [e], fun e' he' => ?_, rfl,
      List.rel_append hneeded (.cons ⟨List.mem_cons_self, rfl⟩ .nil)⟩
    rcases List.mem_append.1 he' with he' | he'
    · exact d.slot_entries e' he'
    · rw [List.mem_singleton.1 he']
      exact List.mem_of_getElem? (i := 4) rfl
  | leftOut _ => exact ⟨d.entries, d.slot_entries, rfl, List.rel_append hneeded .nil⟩

/-- **Each spelling of a definition is read as that definition.** -/
theorem Spells.ofJson_eq {j : Json} (h : d.Spells j) : ofJson j = .ok d := by
  cases h with
  | object _ _ _ hpatterns hprincipal hvars hothers hperm =>
    obtain ⟨entries, hslots, hmembers, hnamed⟩ := exists_entries hpatterns hprincipal hvars
    obtain ⟨row, hrow, hentries⟩ := Json.rowOfObject_given nodup_slots hslots
      (hmembers ▸ nodup_fields hvars) hnamed hothers hperm
    exact (Json.asRecord_object hrow).trans (ofRow_fields hvars (hmembers ▸ hentries))
  | @array vars hvars =>
    let items : List Json := [.string d.type, .string d.id,
      .array (d.patterns.map fun p => .string p.text), .string d.principal] ++ vars
    have hrow : ofRow (Json.rowOfArray record.description slots items) = .ok d := by
      refine ofRow_fields hvars (.of_eq ?_)
      cases hvars <;> rfl
    have hlength : ¬ slots.length < items.length := by
      cases hvars with
      | given _ => exact Nat.lt_irrefl 5
      | leftOut _ => exact Nat.not_lt.2 (Nat.le_succ 4)
    have hrecord : record.ofRow (Json.rowOfArray record.description record.slots items) = .ok d :=
      hrow
    unfold ofJson Json.asRecord
    dsimp only
    rw [hrecord]
    exact if_neg hlength

theorem Spells.toJson (d : Definition) : d.Spells d.toJson :=
  .object _ _ [] List.mem_cons_self List.mem_cons_self (.given (.toJson d.vars))
    (List.forall_mem_nil _) (.refl _)

/-- What is written of a definition, its members in ascending order. -/
theorem Spells.sorted (d : Definition) : d.Spells d.toJson.sorted := by
  have hperm : (Json.sortedMembers (d.fields [d.vars.toJson]) []).Perm
      ([] ++ (d.fields [d.vars.toJson]).map fun m => (m.1, m.2.sorted)) :=
    Json.sortedMembers_perm (nodup_fields (.given (.toJson d.vars)))
  have hpatterns := Trigger.sorted_patterns d.patterns
  have hvars := d.vars.sorted_toJson
  refine .object _ _ [] List.mem_cons_self List.mem_cons_self (.given (.toJson d.vars))
    (List.forall_mem_nil _) (hperm.trans ?_)
  simp only [fields, List.map_append, List.map_cons, List.map_nil, hpatterns, hvars]
  exact .refl _

/-- A definition that is read is of the expected type. -/
theorem ofJsonAs_of_ok {j : Json} (h : ofJson j = .ok d) (expected : String) :
    ofJsonAs expected j =
      if d.type = expected then .ok d else .error (.wrongType expected d.type) := by
  unfold ofJsonAs
  rw [h]

/-- An object that gives the patterns or the principal under both names is refused. -/
theorem ofJson_both {members : List (String × Json)}
    (h : "pathPatterns" ∈ members.map Prod.fst ∧ "dataPathPatterns" ∈ members.map Prod.fst ∨
      "principal" ∈ members.map Prod.fst ∧ "hdfsUser" ∈ members.map Prod.fst) :
    ∃ e, ofJson (.object members) = .error e := by
  have hrefused : ∀ row, Json.rowOfObject slots members ≠ .ok row := by
    rcases h with ⟨hm, hm'⟩ | ⟨hm, hm'⟩
    · have hslot : patternsField.slot ∈ slots := List.mem_of_getElem? (i := 2) rfl
      exact Json.rowOfObject_ne_ok_of_both nodup_slots hslot List.mem_cons_self
        (List.mem_cons_of_mem _ List.mem_cons_self) (by decide) hm hm'
    · have hslot : principalField.slot ∈ slots := List.mem_of_getElem? (i := 3) rfl
      exact Json.rowOfObject_ne_ok_of_both nodup_slots hslot List.mem_cons_self
        (List.mem_cons_of_mem _ List.mem_cons_self) (by decide) hm hm'
  cases hrow : Json.rowOfObject slots members with
  | ok row => exact absurd hrow (hrefused row)
  | error e =>
    have hrecord : Json.rowOfObject record.slots members = .error e := hrow
    refine ⟨e, ?_⟩
    unfold ofJson Json.asRecord
    dsimp only
    rw [hrecord]

/-- **All spellings of a definition mean the same**, among them what is written of it. A definition
of another type than the expected one is refused, and so is one with two names of a field. -/
theorem reads_spellings (d : Definition) :
    ofJsonAs d.type d.toJson = .ok d ∧
    d.Spells d.toJson ∧ d.Spells d.toJson.sorted ∧
    (∀ j, d.Spells j → ofJsonAs d.type j = .ok d ∧
      ∀ expected, expected ≠ d.type →
        ofJsonAs expected j = .error (.wrongType expected d.type)) ∧
    ∀ expected members,
      ("pathPatterns" ∈ members.map Prod.fst ∧ "dataPathPatterns" ∈ members.map Prod.fst ∨
        "principal" ∈ members.map Prod.fst ∧ "hdfsUser" ∈ members.map Prod.fst) →
      ∃ e, ofJsonAs expected (.object members) = .error (.malformed e) := by
  have hread : ∀ j, d.Spells j → ofJsonAs d.type j = .ok d ∧ ∀ expected, expected ≠ d.type →
      ofJsonAs expected j = .error (.wrongType expected d.type) := by
    intro j hj
    have has := ofJsonAs_of_ok hj.ofJson_eq
    exact ⟨(has d.type).trans (if_pos rfl),
      fun expected hne => (has expected).trans (if_neg hne.symm)⟩
  refine ⟨(hread _ (.toJson d)).1, .toJson d, .sorted d, hread, fun expected members h => ?_⟩
  obtain ⟨e, he⟩ := ofJson_both h
  refine ⟨e, ?_⟩
  unfold ofJsonAs
  rw [he]

end Definition

/-! ## A sample -/

namespace Sample

/-- Waits for the thirteenth, then for the day before it. -/
def backwards : Definition :=
  { type := "DataChecker"
    id := "hdfsDataChecker"
    patterns := [⟨"/in/$\x7bDAY\x7d"⟩]
    principal := "etl"
    vars := { entries := [("DAY", { value := 13, increment := -1 })] } }

/-- The definition with its second names, with texts for integers, and with a remark. -/
def legacyMembers : List (String × Json) :=
  [("remark", .null), ("variables", .object [("DAY", .array [.string " +013\n", .string "-1"])]),
    ("hdfsUser", .string "etl"), ("dataPathPatterns", .array [.string "/in/$\x7bDAY\x7d"]),
    ("checkerId", .string "hdfsDataChecker"), ("type", .string "DataChecker")]

/-- A text with a sign, a zero in front, and blanks. -/
theorem spells_thirteen : PairComponent.Spells 13 (.string " +013\n") :=
  .text [' '] ['+', '0', '1', '3'] ['\n'] (List.forall_mem_singleton.2 (by decide))
    (.plus (List.all_eq_true.1 (by decide)) (by decide) (by decide))
    (List.forall_mem_singleton.2 (by decide))

theorem spells_minusOne : PairComponent.Spells (-1) (.string "-1") := by
  have hdigits : Text.Spells (-1) ('-' :: Text.digits 1) := .ofInt (-1)
  rw [Text.digits_of_lt (by decide)] at hdigits
  exact .text [] ['-', '1'] [] (List.forall_mem_nil _) hdigits (List.forall_mem_nil _)

theorem spells_legacy : backwards.Spells (.object legacyMembers) := by
  have hvars : backwards.vars.Spells
      (.object [("DAY", .array [.string " +013\n", .string "-1"])]) :=
    .members (.refl _) (.cons ⟨rfl, .pair spells_thirteen spells_minusOne⟩ .nil)
  refine .object "dataPathPatterns" "hdfsUser" [("remark", .null)] (by decide) (by decide)
    (.given hvars) (by decide) ?_
  exact (List.reverse_perm legacyMembers).symm

end Sample

namespace Definition

/-- A definition in the old spelling, as the expected type and as another one; and one with two
names of its principal. -/
theorem reads_spellings_legacy :
    ofJsonAs "DataChecker" (.object Sample.legacyMembers) = .ok Sample.backwards ∧
    ofJsonAs "TimeChecker" (.object Sample.legacyMembers) =
      .error (.wrongType "TimeChecker" "DataChecker") ∧
    ∃ e, ofJsonAs "DataChecker" (.object (("principal", .null) :: Sample.legacyMembers)) =
      .error (.malformed e) := by
  obtain ⟨-, -, -, hread, hboth⟩ := reads_spellings Sample.backwards
  obtain ⟨hok, hwrong⟩ := hread _ Sample.spells_legacy
  exact ⟨hok, hwrong "TimeChecker" (by decide), hboth _ _ (by decide)⟩

end Definition
end Lookout
