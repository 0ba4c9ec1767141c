import Lookout.Proofs.TriggerJson
import Lookout.Trigger.Request

/-!
# Requests and summaries that are read back

- `CreateRequest.ofText_render`: what is written of a request for a new trigger is read as that
  request, whatever its contents.
- `Summary.listOfText_render`: what is written of a listing is read as the same summaries in their
  order.
- `Json.parse?_render`: without a record in mind, the text of a value is read as the value.
-/

namespace Lookout

open Json (Entry Fits)
open Trigger (textField timeField idField patternsField projectField)

/-! ## Plain values -/

namespace Json

variable {α : Type} {j : Json}

theorem asOption_ofOption {encode : α → Json} {decode : Json → Except DecodeError α}
    (h : ∀ a, decode (encode a) = .ok a) (hnull : ∀ a, encode a ≠ .null) (o : Option α) :
    asOption decode (ofOption encode o) = .ok o := by
  cases o with
  | none => rfl
  | some a =>
    have hsome : asOption decode (encode a) = (decode (encode a)).map some := by
      unfold asOption
      split
      · rename_i heq
        exact absurd heq (hnull a)
      · rfl
    exact hsome.trans (by rw [h a]; rfl)

theorem Fits.ofOption {depth : Nat} {encode : α → Json} (h : ∀ a, Fits depth (encode a))
    (o : Option α) : Fits depth (ofOption encode o) := by
  cases o with
  | none => exact .null
  | some a => exact h a

/-- The text of a value is read as that value. -/
theorem parse?_render (h : Fits 127 j) : parse? j.render = some j := by
  have hkeeps : Shape.any.Keeps j := by
    unfold Shape.Keeps
    trivial
  unfold parse? render
  rw [String.toList_ofList, read_chars h hkeeps]
  rfl

/-- **A list of records is read from its text as it is from its value.** -/
theorem Record.listOfText_render (r : Record α) {items : List Json}
    (h : Fits 127 (.array items)) (hkeeps : ∀ j ∈ items, r.shape.Keeps j) :
    r.listOfText (Json.array items).render = asList (asRecord r) (.array items) := by
  have hlist : (Shape.list r.shape).Keeps (.array items) := hkeeps
  unfold Record.listOfText decodeText render
  rw [String.toList_ofList, read_chars h hlist]
  dsimp only
  cases asList (asRecord r) (.array items) with
  | error e => rfl
  | ok as => rfl

end Json

theorem Pattern.fits_toJson {depth : Nat} (ps : List Pattern) :
    Fits (depth + 1) (.array (ps.map Pattern.toJson)) := by
  refine .array fun j hj => ?_
  obtain ⟨p, -, rfl⟩ := List.mem_map.1 hj
  exact .string _

/-! ## Fields that requests and summaries share with triggers -/

namespace Trigger

theorem decode_idField : idField.decode = Uuid.ofJson :=
  rfl

theorem decode_textField (name : String) : (textField name).decode = Json.asString :=
  rfl

theorem decode_timeField (name : String) : (timeField name).decode = Instant.ofJson :=
  rfl

theorem decode_patternsField : patternsField.decode = Json.asList Pattern.ofJson :=
  rfl

theorem decode_projectField : projectField.decode = Json.asInt64 :=
  rfl

theorem decode_recurrenceField : recurrenceField.decode = Recurrence.ofJson :=
  rfl

end Trigger

open Trigger (decode_idField decode_textField decode_timeField decode_patternsField
  decode_projectField decode_recurrenceField)

/-! ## Requests -/

namespace CreateRequest

theorem nodup_slots : (slots.flatMap Json.Slot.names).Nodup := by
  decide

/-- A text or null is read back. -/
theorem asOption_text (o : Option String) :
    Json.asOption Json.asString (Json.ofOption .string o) = .ok o :=
  Json.asOption_ofOption Json.asString_string (fun _ h => nomatch h) o

/-- The fields of a request. -/
def entries (r : CreateRequest) : List Entry :=
  [patternsField.entry (Json.asList_map Pattern.ofJson_toJson r.patterns) decode_patternsField,
   (textField "principal").entry (Json.asString_string r.principal) (decode_textField _),
   variablesField.entry r.vars.ofJson_toJson rfl,
   (optionalField "time_to_expire").entry (asOption_text r.timeToExpire) rfl,
   projectField.entry (Json.asInt64_toInt r.projectId) decode_projectField,
   (textField "flow_name").entry (Json.asString_string r.flowName) (decode_textField _),
   (optionalField "webhook_url").entry (asOption_text r.webhookUrl) rfl,
   Trigger.recurrenceField.entry r.recurrence.ofJson_toJson decode_recurrenceField,
   (textField "submit_user").entry (Json.asString_string r.submitUser) (decode_textField _)]

theorem slot_entries (r : CreateRequest) : r.entries.map Entry.slot = slots :=
  rfl

/-- The members are written in the order of the fields. -/
theorem toJson_eq_entries (r : CreateRequest) : r.toJson = .object (r.entries.map Entry.member) :=
  rfl

theorem ofJson_toJson (r : CreateRequest) : ofJson r.toJson = .ok r := by
  obtain ⟨row, hrow, hget⟩ := Json.rowOfObject_entries nodup_slots r.slot_entries (.refl _)
  have hof : ofRow row = .ok r := by
    unfold ofRow
    -- The numbers are the places of the fields among the entries.
    rw [hget patternsField (Json.asList_map Pattern.ofJson_toJson r.patterns) rfl 0 rfl,
      hget (textField "principal") (Json.asString_string r.principal) rfl 1 rfl,
      hget variablesField r.vars.ofJson_toJson rfl 2 rfl,
      hget (optionalField "time_to_expire") (asOption_text r.timeToExpire) rfl 3 rfl,
      hget projectField (Json.asInt64_toInt r.projectId) rfl 4 rfl,
      hget (textField "flow_name") (Json.asString_string r.flowName) rfl 5 rfl,
      hget (optionalField "webhook_url") (asOption_text r.webhookUrl) rfl 6 rfl,
      hget Trigger.recurrenceField r.recurrence.ofJson_toJson rfl 7 rfl,
      hget (textField "submit_user") (Json.asString_string r.submitUser) rfl 8 rfl]
    rfl
  have hrecord : ofJson (.object (r.entries.map Entry.member)) = ofRow row :=
    Json.asRecord_object hrow
  rw [toJson_eq_entries, hrecord, hof]

theorem fits_toJson (r : CreateRequest) : Fits 127 r.toJson := by
  have htext : ∀ s, Fits 126 (.string s) := fun _ => .string _
  refine .object ?_
  simp only [List.forall_mem_cons]
  exact ⟨Pattern.fits_toJson _, htext _, r.vars.fits_toJson, .ofOption htext _, .toInt _, htext _,
    .ofOption htext _, htext _, htext _, List.forall_mem_nil _⟩

/-- **A request is read back from what is written of it.** -/
theorem ofText_render (r : CreateRequest) : record.ofText r.toJson.render = .ok r :=
  (record.ofText_render r.fits_toJson (record.keeps_entries r.slot_entries)).trans r.ofJson_toJson

end CreateRequest

/-! ## Summaries -/

namespace Summary

theorem nodup_slots : (slots.flatMap Json.Slot.names).Nodup := by
  decide

theorem asOption_time (o : Option Instant) :
    Json.asOption Instant.ofJson (Json.ofOption Instant.toJson o) = .ok o :=
  Json.asOption_ofOption Instant.ofJson_toJson (fun _ h => nomatch h) o

/-- The fields of a summary. -/
def entries (s : Summary) : List Entry :=
  [idField.entry s.id.ofJson_toJson decode_idField,
   (textField "description").entry (Json.asString_string s.description) (decode_textField _),
   (textField "data_source").entry (Json.asString_string s.dataSource) (decode_textField _),
   (textField "principal").entry (Json.asString_string s.principal) (decode_textField _),
   patternsField.entry (Json.asList_map Pattern.ofJson_toJson s.patterns) decode_patternsField,
   projectField.entry (Json.asInt64_toInt s.projectId) decode_projectField,
   (textField "flow_name").entry (Json.asString_string s.flowName) (decode_textField _),
   recurrenceField.entry s.recurrence.ofJson_toJson rfl,
   (textField "submit_user").entry (Json.asString_string s.submitUser) (decode_textField _),
   (timeField "submit_time").entry s.submitTime.ofJson_toJson (decode_timeField _),
   (timeField "armed_at").entry s.armedAt.ofJson_toJson (decode_timeField _),
   expiresField.entry (asOption_time s.expiresAt) rfl]

theorem slot_entries (s : Summary) : s.entries.map Entry.slot = slots :=
  rfl

/-- The members are written in the order of the fields. -/
theorem toJson_eq_entries (s : Summary) : s.toJson = .object (s.entries.map Entry.member) :=
  rfl

theorem ofJson_toJson (s : Summary) : ofJson s.toJson = .ok s := by
  obtain ⟨row, hrow, hget⟩ := Json.rowOfObject_entries nodup_slots s.slot_entries (.refl _)
  have hof : ofRow row = .ok s := by
    unfold ofRow
    -- The numbers are the places of the fields among the entries.
    rw [hget idField s.id.ofJson_toJson rfl 0 rfl,
      hget (textField "description") (Json.asString_string s.description) rfl 1 rfl,
      hget (textField "data_source") (Json.asString_string s.dataSource) rfl 2 rfl,
      hget (textField "principal") (Json.asString_string s.principal) rfl 3 rfl,
      hget patternsField (Json.asList_map Pattern.ofJson_toJson s.patterns) rfl 4 rfl,
      hget projectField (Json.asInt64_toInt s.projectId) rfl 5 rfl,
      hget (textField "flow_name") (Json.asString_string s.flowName) rfl 6 rfl,
      hget recurrenceField s.recurrence.ofJson_toJson rfl 7 rfl,
      hget (textField "submit_user") (Json.asString_string s.submitUser) rfl 8 rfl,
      hget (timeField "submit_time") s.submitTime.ofJson_toJson rfl 9 rfl,
      hget (timeField "armed_at") s.armedAt.ofJson_toJson rfl 10 rfl,
      hget expiresField (asOption_time s.expiresAt) rfl 11 rfl]
    rfl
  have hrecord : ofJson (.object (s.entries.map Entry.member)) = ofRow row :=
    Json.asRecord_object hrow
  rw [toJson_eq_entries, hrecord, hof]

theorem fits_toJson (s : Summary) : Fits 126 s.toJson := by
  have htext : ∀ t, Fits 125 (.string t) := fun _ => .string _
  have htime : ∀ t : Instant, Fits 125 t.toJson := fun _ => .string _
  refine .object ?_
  simp only [List.forall_mem_cons]
  exact ⟨htext _, htext _, htext _, htext _, Pattern.fits_toJson _, .toInt _, htext _, htext _,
    htext _, htime _, htime _, .ofOption htime _, List.forall_mem_nil _⟩

/-- **A listing is read back from what is written of it**, in its order. -/
theorem listOfText_render (l : List Summary) :
    record.listOfText (Json.array (l.map toJson)).render = .ok l := by
  have hmem : ∀ j ∈ l.map toJson, ∃ s : Summary, j = s.toJson := by
    intro j hj
    obtain ⟨s, -, rfl⟩ := List.mem_map.1 hj
    exact ⟨s, rfl⟩
  have hfits : Fits 127 (.array (l.map toJson)) := by
    refine .array fun j hj => ?_
    obtain ⟨s, rfl⟩ := hmem j hj
    exact s.fits_toJson
  have hkeeps : ∀ j ∈ l.map toJson, record.shape.Keeps j := by
    intro j hj
    obtain ⟨s, rfl⟩ := hmem j hj
    exact record.keeps_entries s.slot_entries
  exact (record.listOfText_render hfits hkeeps).trans (Json.asList_map ofJson_toJson l)

end Summary
end Lookout
