import Lookout.Proofs.Spellings
import Lookout.Proofs.Timestamps
import Lookout.Proofs.VariableJson
import Lookout.Trigger.Json

/-!
# Triggers that are read back

What is written of a trigger, be it a value, a value with its members in ascending order, or a text,
is read as the same trigger.

- `ofJson_toJson` of instants, periods, identifiers, patterns, variables and actions: the parts.
- `Action.ofJson_members`, `Trigger.ofJson_members`: an action and a trigger are read from their
  fields in any order. Of a time to expire, the whole seconds are read.
- `Trigger.nanos_of_ofJson`: what is read has a whole number of seconds to expire.
- `Trigger.reads_back`: so each trigger that was read, and each that could have been, is read back.
-/

namespace Lookout

open Json (Entry Fits)

/-! ## Parts of a trigger -/

theorem Uuid.ofJson_toJson (id : Uuid) : ofJson id.toJson = .ok id := by
  simp only [toJson, ofJson, ofText?_text]

theorem Instant.ofJson_toJson (t : Instant) : ofJson t.toJson = .ok t := by
  simp only [toJson, ofJson, ofTimestamp?_timestamp]

theorem Duration.ofJson_toJson (d : Duration) : ofJson d.toJson = .ok d.wholeSecs := by
  simp only [toJson, ofJson, Json.asString, ofPeriod_period]

/-- A duration in JSON is a whole number of seconds. -/
theorem Duration.nanos_of_ofJson {j : Json} {d : Duration} (h : ofJson j = .ok d) :
    d.nanos = 0 := by
  unfold ofJson at h
  split at h
  · cases h
  split at h
  · rename_i hperiod
    cases h
    exact nanos_of_ofPeriod hperiod
  · cases h

theorem Pattern.ofJson_toJson (p : Pattern) : ofJson p.toJson = .ok p :=
  rfl

theorem Recurrence.ofJson_toJson (r : Recurrence) : ofJson r.toJson = .ok r := by
  cases r with
  | once => rfl
  | recurring => rfl

/-! ## Variables -/

theorem Variable.fits_toJson {depth : Nat} (v : Variable) : Fits (depth + 1) v.toJson :=
  .array (List.forall_mem_cons.2 ⟨.toInt _, List.forall_mem_singleton.2 (.toInt _)⟩)

namespace VariableSet

theorem ofJson_toJson (vars : VariableSet) : ofJson vars.toJson = .ok vars :=
  (Spells.toJson vars).ofJson_eq

theorem fits_toJson {depth : Nat} (vars : VariableSet) : Fits (depth + 2) vars.toJson := by
  refine .object fun m hm => ?_
  obtain ⟨e, -, rfl⟩ := List.mem_map.1 hm
  exact e.2.fits_toJson

/-- Variables stand in ascending order. -/
theorem sorted_toJson (vars : VariableSet) : vars.toJson.sorted = vars.toJson := by
  have hpair : ∀ v : Variable, v.toJson.sorted = v.toJson := fun _ => rfl
  have hkeys : ((vars.entries.map fun e => (e.1, e.2.toJson)).map Prod.fst).Pairwise (· < ·) := by
    rw [List.map_map, List.pairwise_map]
    exact vars.ascending
  unfold toJson
  rw [Json.sorted, Json.sortedMembers_ascending hkeys, List.nil_append, List.map_map]
  simp only [Function.comp_def, hpair]

end VariableSet

/-! ## Actions -/

namespace Action

/-- The kind of an action. -/
def kind : Action → Kind
  | executeFlow _ _ => .executeFlow
  | webhook _ => .webhook

/-- The fields of an action. -/
def entries : Action → List Entry
  | executeFlow projectId flowName =>
    [projectField.entry (Json.asInt64_toInt projectId) rfl,
     flowField.entry (Json.asString_string flowName) rfl]
  | webhook url => [urlField.entry (Json.asString_string url) rfl]

theorem slot_entries (a : Action) : a.entries.map Entry.slot = a.kind.slots := by
  cases a with
  | executeFlow _ _ => rfl
  | webhook _ => rfl

theorem splitKind_others {l rest others : List (String × Json)} {kind : Option Kind}
    (h : ∀ m ∈ l, m.1 ≠ kindName ∧ m.2.isReadable = true) :
    splitKind (l ++ rest) kind others = splitKind rest kind (others ++ l) := by
  induction l generalizing others with
  | nil => rw [List.nil_append, List.append_nil]
  | cons m l ih =>
    obtain ⟨name, j⟩ := m
    obtain ⟨⟨hname, hreadable⟩, hl⟩ := List.forall_mem_cons.1 h
    rw [List.cons_append, splitKind, if_neg hname, if_pos hreadable, ih hl, List.append_assoc,
      List.singleton_append]

theorem Kind.nodup_slots (k : Kind) : (k.slots.flatMap Json.Slot.names).Nodup := by
  cases k with
  | executeFlow => decide
  | webhook => decide

theorem Kind.ofJson_name (k : Kind) : Kind.ofJson (.string k.name) = .ok k := by
  cases k with
  | executeFlow => rfl
  | webhook => rfl

/-- The fields of an action are readable and have other names than its kind. -/
theorem forall_mem_entries (a : Action) :
    ∀ m ∈ a.entries.map Entry.member, m.1 ≠ kindName ∧ m.2.isReadable = true := by
  have hproject : projectField.name ≠ kindName := by decide
  have hflow : flowField.name ≠ kindName := by decide
  have hurl : urlField.name ≠ kindName := by decide
  cases a with
  | executeFlow _ _ =>
    exact List.forall_mem_cons.2 ⟨⟨hproject, rfl⟩, List.forall_mem_singleton.2 ⟨hflow, rfl⟩⟩
  | webhook _ => exact List.forall_mem_singleton.2 ⟨hurl, rfl⟩

/-- **An action is read from its kind and its fields in any order.** -/
theorem ofJson_members {a : Action} {front back : List (String × Json)}
    (h : (front ++ back).Perm (a.entries.map Entry.member)) :
    ofJson (.object (front ++ (kindName, .string a.kind.name) :: back)) = .ok a := by
  have hsplit : splitKind (front ++ (kindName, .string a.kind.name) :: back) none [] =
      .ok (some a.kind, front ++ back) := by
    obtain ⟨hfront, hback⟩ := List.forall_mem_append.1 fun m hm =>
      a.forall_mem_entries m (h.mem_iff.1 hm)
    have hend : splitKind (back ++ []) (some a.kind) front = .ok (some a.kind, front ++ back) :=
      splitKind_others hback
    rw [List.append_nil] at hend
    rw [splitKind_others hfront, splitKind, if_pos rfl, Kind.ofJson_name]
    exact hend
  obtain ⟨row, hrow, hget⟩ := Json.rowOfObject_entries a.kind.nodup_slots a.slot_entries h
  have hof : a.kind.ofRow row = .ok a := by
    cases a with
    | executeFlow projectId flowName =>
      unfold kind Kind.ofRow
      dsimp only
      rw [hget projectField (Json.asInt64_toInt projectId) rfl 0 rfl,
        hget flowField (Json.asString_string flowName) rfl 1 rfl]
      rfl
    | webhook url =>
      unfold kind Kind.ofRow
      dsimp only
      rw [hget urlField (Json.asString_string url) rfl 0 rfl]
      rfl
  simp only [ofJson, hsplit, Except.bind, bind, hrow, hof]

/-- The action in JSON with its members in the order of the fields. -/
theorem ofJson_toJson (a : Action) : ofJson a.toJson = .ok a := by
  have hmembers : a.toJson = .object ((kindName, .string a.kind.name) ::
      a.entries.map Entry.member) := by
    cases a with
    | executeFlow _ _ => rfl
    | webhook _ => rfl
  have hperm : ([] ++ a.entries.map Entry.member).Perm (a.entries.map Entry.member) := .refl _
  rw [hmembers]
  exact ofJson_members hperm

/-- The action in JSON with its members in ascending order. -/
theorem ofJson_sorted (a : Action) : ofJson a.toJson.sorted = .ok a := by
  cases a with
  | executeFlow projectId flowName =>
    have hperm : ([(flowField.name, Json.string flowName),
        (projectField.name, Json.integer projectId.toInt)] ++ []).Perm
        ((executeFlow projectId flowName).entries.map Entry.member) := .swap _ _ _
    exact ofJson_members hperm
  | webhook url => exact ofJson_toJson (.webhook url)

theorem fits_toJson {depth : Nat} (a : Action) : Fits (depth + 1) a.toJson := by
  cases a with
  | executeFlow projectId flowName =>
    exact .object (List.forall_mem_cons.2 ⟨.string _, List.forall_mem_cons.2
      ⟨.toInt _, List.forall_mem_singleton.2 (.string _)⟩⟩)
  | webhook url =>
    exact .object (List.forall_mem_cons.2 ⟨.string _, List.forall_mem_singleton.2 (.string _)⟩)

end Action

/-! ## Triggers -/

namespace Trigger

theorem nodup_slots : (slots.flatMap Json.Slot.names).Nodup := by
  decide

/-- The fields of a trigger, its action in some form. -/
def entries (t : Trigger) {action : Json} (h : Action.ofJson action = .ok t.action) :
    List Entry :=
  [idField.entry t.id.ofJson_toJson rfl,
   (textField "data_source").entry (Json.asString_string t.dataSource) rfl,
   patternsField.entry (Json.asList_map Pattern.ofJson_toJson t.patterns) rfl,
   variablesField.entry t.vars.ofJson_toJson rfl,
   (textField "principal").entry (Json.asString_string t.principal) rfl,
   timeToExpireField.entry t.timeToExpire.ofJson_toJson rfl,
   actionField.entry h rfl,
   recurrenceField.entry t.recurrence.ofJson_toJson rfl,
   projectField.entry (Json.asInt64_toInt t.projectId) rfl,
   (textField "flow_name").entry (Json.asString_string t.flowName) rfl,
   (timeField "last_modify_time").entry t.lastModifyTime.ofJson_toJson rfl,
   (timeField "submit_time").entry t.submitTime.ofJson_toJson rfl,
   (timeField "armed_at").entry t.armedAt.ofJson_toJson rfl,
   (textField "submit_user").entry (Json.asString_string t.submitUser) rfl]

theorem slot_entries (t : Trigger) {action : Json} (h : Action.ofJson action = .ok t.action) :
    (t.entries h).map Entry.slot = slots :=
  rfl

/-- The trigger as it is read back. -/
def withWholeSecs (t : Trigger) : Trigger :=
  { t with timeToExpire := t.timeToExpire.wholeSecs }

/-- **A trigger is read from its fields in any order.** -/
theorem ofJson_members {t : Trigger} {action : Json} (h : Action.ofJson action = .ok t.action)
    {members : List (String × Json)} (hperm : members.Perm ((t.entries h).map Entry.member)) :
    ofJson (.object members) = .ok t.withWholeSecs := by
  obtain ⟨row, hrow, hget⟩ := Json.rowOfObject_entries nodup_slots (t.slot_entries h) hperm
  have hof : ofRow row = .ok t.withWholeSecs := by
    unfold ofRow
    -- The numbers are the places of the fields among the entries.
    rw [hget idField t.id.ofJson_toJson rfl 0 rfl,
      hget (textField "data_source") (Json.asString_string t.dataSource) rfl 1 rfl,
      hget patternsField (Json.asList_map Pattern.ofJson_toJson t.patterns) rfl 2 rfl,
      hget variablesField t.vars.ofJson_toJson rfl 3 rfl,
      hget (textField "principal") (Json.asString_string t.principal) rfl 4 rfl,
      hget timeToExpireField t.timeToExpire.ofJson_toJson rfl 5 rfl,
      hget actionField h rfl 6 rfl,
      hget recurrenceField t.recurrence.ofJson_toJson rfl 7 rfl,
      hget projectField (Json.asInt64_toInt t.projectId) rfl 8 rfl,
      hget (textField "flow_name") (Json.asString_string t.flowName) rfl 9 rfl,
      hget (timeField "last_modify_time") t.lastModifyTime.ofJson_toJson rfl 10 rfl,
      hget (timeField "submit_time") t.submitTime.ofJson_toJson rfl 11 rfl,
      hget (timeField "armed_at") t.armedAt.ofJson_toJson rfl 12 rfl,
      hget (textField "submit_user") (Json.asString_string t.submitUser) rfl 13 rfl]
    rfl
  exact (Json.asRecord_object hrow).trans hof

/-- The members are written in the order of the fields. -/
theorem toJson_eq_entries (t : Trigger) :
    t.toJson = .object ((t.entries t.action.ofJson_toJson).map Entry.member) :=
  rfl

theorem sorted_patterns (ps : List Pattern) :
    (Json.array (ps.map Pattern.toJson)).sorted = .array (ps.map Pattern.toJson) := by
  have hitems : Json.sortedItems (ps.map Pattern.toJson) = ps.map Pattern.toJson := by
    induction ps with
    | nil => rfl
    | cons p ps ih =>
      rw [List.map_cons, Json.sortedItems, ih]
      rfl
  rw [Json.sorted, hitems]

/-- Of the values of the fields, only the action has members to put into order. -/
theorem sorted_entries (t : Trigger) :
    ((t.entries t.action.ofJson_toJson).map Entry.member).map (fun m => (m.1, m.2.sorted)) =
      (t.entries t.action.ofJson_sorted).map Entry.member := by
  have hpatterns := sorted_patterns t.patterns
  have hvars := t.vars.sorted_toJson
  simp only [entries, List.map_cons, List.map_nil, Entry.member, Json.Field.entry, hpatterns, hvars]
  rfl

theorem fits_toJson (t : Trigger) : Fits 127 t.toJson := by
  have hpatterns : ∀ j ∈ t.patterns.map Pattern.toJson, Fits 125 j := by
    intro j hj
    obtain ⟨p, -, rfl⟩ := List.mem_map.1 hj
    exact .string _
  have htext : ∀ s, Fits 126 (.string s) := fun _ => .string _
  refine .object ?_
  simp only [List.forall_mem_cons]
  exact ⟨htext _, htext _, .array hpatterns, t.vars.fits_toJson, htext _, htext _,
    t.action.fits_toJson, htext _, .toInt _, htext _, htext _, htext _, htext _, htext _,
    List.forall_mem_nil _⟩

/-! ## Reading back -/

/-- What is written of a trigger, as a value or as a text, is read as that trigger. A value may
have its members in ascending order. -/
def ReadsBack (t : Trigger) : Prop :=
  ofJson t.toJson = .ok t ∧ ofJson t.toJson.sorted = .ok t ∧
    record.ofText t.toJson.render = .ok t

theorem withWholeSecs_eq_self {t : Trigger} (h : t.timeToExpire.nanos = 0) :
    t.withWholeSecs = t := by
  unfold withWholeSecs
  rw [Duration.wholeSecs_eq_self h]

theorem ofJson_toJson (t : Trigger) : ofJson t.toJson = .ok t.withWholeSecs := by
  rw [toJson_eq_entries, ofJson_members t.action.ofJson_toJson (.refl _)]

theorem ofText_render (t : Trigger) : record.ofText t.toJson.render = .ok t.withWholeSecs := by
  have hkeeps : record.shape.Keeps t.toJson :=
    record.keeps_entries (t.slot_entries t.action.ofJson_toJson)
  exact (record.ofText_render t.fits_toJson hkeeps).trans t.ofJson_toJson

theorem readsBack_of_nanos {t : Trigger} (h : t.timeToExpire.nanos = 0) : t.ReadsBack := by
  have hslots := t.slot_entries t.action.ofJson_toJson
  have hsorted : ofJson t.toJson.sorted = .ok t := by
    have hperm : (Json.sortedMembers ((t.entries t.action.ofJson_toJson).map Entry.member) []).Perm
        ((t.entries t.action.ofJson_sorted).map Entry.member) := by
      rw [← sorted_entries]
      exact Json.sortedMembers_perm (Json.nodup_members nodup_slots hslots)
    rw [toJson_eq_entries, Json.sorted, ofJson_members t.action.ofJson_sorted hperm,
      withWholeSecs_eq_self h]
  have hsame : (.ok t.withWholeSecs : Except DecodeError Trigger) = .ok t :=
    congrArg _ (withWholeSecs_eq_self h)
  exact ⟨t.ofJson_toJson.trans hsame, hsorted, t.ofText_render.trans hsame⟩

theorem nanos_of_ofRow {row : Json.Row} {t : Trigger} (h : ofRow row = .ok t) :
    t.timeToExpire.nanos = 0 := by
  obtain ⟨id, -, h⟩ := Json.exists_of_bind h
  obtain ⟨dataSource, -, h⟩ := Json.exists_of_bind h
  obtain ⟨patterns, -, h⟩ := Json.exists_of_bind h
  obtain ⟨vars, -, h⟩ := Json.exists_of_bind h
  obtain ⟨principal, -, h⟩ := Json.exists_of_bind h
  obtain ⟨timeToExpire, hget, h⟩ := Json.exists_of_bind h
  obtain ⟨action, -, h⟩ := Json.exists_of_bind h
  obtain ⟨recurrence, -, h⟩ := Json.exists_of_bind h
  obtain ⟨projectId, -, h⟩ := Json.exists_of_bind h
  obtain ⟨flowName, -, h⟩ := Json.exists_of_bind h
  obtain ⟨lastModifyTime, -, h⟩ := Json.exists_of_bind h
  obtain ⟨submitTime, -, h⟩ := Json.exists_of_bind h
  obtain ⟨armedAt, -, h⟩ := Json.exists_of_bind h
  obtain ⟨submitUser, -, h⟩ := Json.exists_of_bind h
  cases h
  obtain ⟨j, hj⟩ := Json.Row.exists_of_get rfl hget
  exact Duration.nanos_of_ofJson hj

/-- A trigger that is read from JSON has a whole number of seconds to expire. -/
theorem nanos_of_ofJson {j : Json} {t : Trigger} (h : ofJson j = .ok t) :
    t.timeToExpire.nanos = 0 := by
  obtain ⟨row, hrow⟩ := Json.exists_of_asRecord h
  exact nanos_of_ofRow hrow

/-- **A trigger is read back from what is written of it.** So is each trigger whose time to expire
is a whole number of seconds, and each that was read itself, from a value or from a text, in
whatever form it was given there. -/
theorem reads_back :
    (∀ t : Trigger, t.timeToExpire.nanos = 0 → t.ReadsBack) ∧
      (∀ (j : Json) (t : Trigger), ofJson j = .ok t → t.ReadsBack) ∧
      (∀ (text : String) (t : Trigger), record.ofText text = .ok t → t.ReadsBack) := by
  refine ⟨fun t => readsBack_of_nanos, fun j t h => readsBack_of_nanos (nanos_of_ofJson h), ?_⟩
  intro text t h
  obtain ⟨j, hj⟩ := Json.Record.exists_of_ofText h
  exact readsBack_of_nanos (nanos_of_ofJson hj)

/-- A trigger that was armed inside a leap second. -/
def daily : Trigger :=
  { id := { value := 7 }
    dataSource := "hdfs"
    patterns := [⟨"/d/$\x7bDAY\x7d"⟩]
    vars := { entries := [("DAY", ⟨2, 1⟩)] }
    principal := "etl"
    timeToExpire := .ofSecs 5400
    action := .webhook "http://h/"
    recurrence := .once
    projectId := -4
    flowName := "f"
    lastModifyTime := { day := 19783, second := 5, nano := 250 }
    submitTime := { day := 19783, second := 5, nano := 250 }
    armedAt := { day := 19782, second := 86399, nano := 1500000000 }
    submitUser := "u" }

/-- The trigger with its members out of order, one of them unknown, and without a recurrence. -/
def dailyMembers : Json :=
  .object
    [("submit_user", .string "u"),
     ("unknown", .null),
     ("id", .string "00000000000000000000000000000007"),
     ("data_source", .string "hdfs"),
     ("path_patterns", .array [.string "/d/$\x7bDAY\x7d"]),
     ("variables", .object [("DAY", .array [.string " +2", .integer 1])]),
     ("principal", .string "etl"),
     ("time_to_expire", .string " 5400s"),
     ("action", .array [.string "webhook", .string "http://h/"]),
     ("project_id", .integer (-4)),
     ("flow_name", .string "f"),
     ("last_modify_time", .string "2024-03-01T01:30:05.00000025+01:30"),
     ("submit_time", .string "2024-03-01 00:00:05.00000025z"),
     ("armed_at", .string "2024-02-29T23:59:60.50Z")]

/-- The trigger as an array of its fields. -/
def dailyText : String :=
  "[\"\x7b00000000-0000-0000-0000-000000000007\x7d\",\"hdfs\",[\"/d/$\x7bDAY\x7d\"]," ++
    "\x7b\"DAY\":[\" +2\",1]\x7d,\"etl\",\"90m\",[\"webhook\",\"http://h/\"],\"once\",-4," ++
    "\"\\u0066\",\"2024-03-01T01:30:05.00000025+01:30\",\"2024-03-01 00:00:05.00000025z\"," ++
    "\"2024-02-29T23:59:60.50Z\",\"u\"]"

theorem reads_back_daily :
    (daily.timeToExpire.nanos = 0 ∧ daily.ReadsBack) ∧
      (ofJson dailyMembers = .ok daily ∧ daily.ReadsBack) ∧
      (record.ofText dailyText = .ok daily ∧ daily.ReadsBack) := by
  have hmembers : ofJson dailyMembers = .ok daily := rfl
  have htext : record.ofText dailyText = .ok daily := by
    have hread : (record.ofText dailyText).toOption = some daily := by decide +kernel
    cases h : record.ofText dailyText with
    | error e =>
      rw [h] at hread
      cases hread
    | ok t =>
      rw [h] at hread
      cases hread
      rfl
  exact ⟨⟨rfl, reads_back.1 daily rfl⟩, ⟨hmembers, reads_back.2.1 dailyMembers daily hmembers⟩,
    ⟨htext, reads_back.2.2 dailyText daily htext⟩⟩

end Trigger

end Lookout
