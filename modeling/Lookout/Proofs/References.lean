import Lookout.Command.Run
import Lookout.Proofs.Spellings
import Lookout.Proofs.Transparency

/-!
# References to triggers

What an argument of the command line that refers to a trigger is taken to mean.

- **Commands** (`Command.outcome`): what a command comes to on a server, and the state of the server
  after it. Each step has one equation, and so has a sequence of steps.
- **Abbreviations** (`Uuid.Abbreviates`): the beginning of an identifier, in any mixture of cases.
- **References** (`Command.findArgument_spelled`, `Command.findArgument_listed`): a spelling of an
  identifier is read at once; for anything else the server is asked once for its triggers.
- **Meaning** (`Command.findArgument_means`): the one listed identifier that begins with the text,
  or a refusal.
-/

namespace Lookout

open Http

/-! ## Lower case -/

namespace Text

theorem toLower_of_ascii {c : Char} (h : c.toNat < 128) : toLower c = [c.toLower] := by
  have hall : ∀ i : Fin 128, toLower (Char.ofNat i) = [(Char.ofNat i).toLower] := by decide +kernel
  have hchar := hall ⟨c.toNat, h⟩
  rwa [Char.ofNat_toNat] at hchar

/-- In ASCII it does not matter what surrounds a character. -/
theorem lowerRest_of_ascii {rest : List Char} (h : ∀ c ∈ rest, c.toNat < 128)
    (before done : List Char) :
    lowerRest before done rest = done.reverse ++ rest.map Char.toLower := by
  induction rest generalizing before done with
  | nil => exact (List.append_nil _).symm
  | cons c rest ih =>
    have hascii := h c List.mem_cons_self
    have hsigma : c ≠ '\u03A3' := by
      rintro rfl
      exact absurd hascii (by decide)
    unfold lowerRest
    dsimp only
    rw [if_neg hsigma, toLower_of_ascii hascii, ih fun d hd => h d (List.mem_cons_of_mem _ hd)]
    simp

theorem toList_lowered_of_ascii {s : String} (h : ∀ c ∈ s.toList, c.toNat < 128) :
    (lowered s).toList = s.toList.map Char.toLower := by
  unfold lowered
  rw [String.toList_ofList, lowerRest_of_ascii h]
  rfl

end Text

/-! ## Abbreviations -/

namespace Uuid

variable {id u : Uuid} {text : String}

/-- The hyphenated form of an identifier begins with a text in lower case. -/
def BeginsWith (id : Uuid) (text : String) : Prop :=
  (Text.lowered text).toList <+: id.text.toList

/-- A text is a beginning of an identifier, in any mixture of cases, and not all of it. -/
def Abbreviates (id : Uuid) (text : String) : Prop :=
  text.toList.map Char.toLower <+: id.text.toList ∧ text.toList.map Char.toLower ≠ id.text.toList

instance : Decidable (Abbreviates id text) :=
  inferInstanceAs (Decidable (_ ∧ _))

theorem toList_text (id : Uuid) : id.text.toList = id.chars :=
  String.toList_ofList

/-- Identifiers are written in ASCII. -/
theorem toNat_lt_of_mem_chars {c : Char} (h : c ∈ id.chars) : c.toNat < 128 := by
  by_cases hhyphen : c = '-'
  · subst hhyphen
    decide
  cases hdigit : Text.hexValue? c with
  | none => exact absurd h (not_mem_chars hdigit hhyphen id)
  | some v =>
    obtain ⟨hv, hlower⟩ := Text.hexValue?_eq_some_iff.1 hdigit
    exact Text.toNat_lt_of_toLower (hlower ▸ (Text.hexDigit_ascii hv).1)

namespace Abbreviates

/-- An abbreviation in lower case. -/
theorem toList_lowered (h : Abbreviates id text) :
    (Text.lowered text).toList = text.toList.map Char.toLower := by
  refine Text.toList_lowered_of_ascii fun c hc => Text.toNat_lt_of_toLower ?_
  have hmem := h.1.subset (List.mem_map_of_mem hc)
  rw [toList_text] at hmem
  exact toNat_lt_of_mem_chars hmem

theorem length_lt (h : Abbreviates id text) : text.toList.length < 36 := by
  have hlength := id.length_chars
  rw [← toList_text] at hlength
  have hle := h.1.length_le
  rw [List.length_map, hlength] at hle
  refine Nat.lt_of_le_of_ne hle fun heq => h.2 (h.1.eq_of_length ?_)
  rw [List.length_map, heq, hlength]

/-- The identifiers that begin with an abbreviation are those that it abbreviates. -/
theorem beginsWith_iff (h : Abbreviates id text) : u.BeginsWith text ↔ Abbreviates u text := by
  unfold BeginsWith
  rw [h.toList_lowered]
  refine ⟨fun hbegins => ⟨hbegins, fun heq => ?_⟩, And.left⟩
  have hlength := congrArg List.length heq
  rw [List.length_map, toList_text, length_chars] at hlength
  exact absurd hlength (Nat.ne_of_lt h.length_lt)

/-- An abbreviation is no spelling. -/
theorem not_spells (h : Abbreviates id text) (u : Uuid) : ¬ u.Spells text.toList := by
  intro hspells
  -- The only spelling short enough is 32 digits, but the ninth character is a hyphen.
  have hlen : text.toList.length = 32 := by
    have hmem := hspells.length_mem
    have hlt := h.length_lt
    simp only [List.mem_cons, List.not_mem_nil, or_false] at hmem
    omega
  have hread := ofChars?_eq_some_iff.2 hspells
  unfold ofChars? at hread
  rw [hlen] at hread
  have hdigits : text.toList.map Char.toLower = lastDigits 32 u.value :=
    ofDigits?_eq_some_iff.1 hread
  have hhyphen : '-' ∈ text.toList.map Char.toLower := by
    have hbegins := h.1
    rw [toList_text, List.prefix_iff_getElem?] at hbegins
    have heighth := hbegins 8 (by rw [List.length_map, hlen]; decide)
    rw [id.groups_chars.hasHyphens.2 8 (by decide), Option.some.injEq] at heighth
    rw [heighth]
    exact List.getElem_mem _
  rw [hdigits] at hhyphen
  obtain ⟨v, hv⟩ := isHexDigit_of_mem hhyphen
  cases hv

end Abbreviates

end Uuid

namespace Command

/-! ## Commands on a server -/

section

variable {σ α β : Type}

/-- What a command comes to if a server answers its requests, and the state of the server after
it. -/
def outcome (command : ExceptT Failure (StateM σ) α) (w : σ) : Except Failure α × σ :=
  command.run.run w

private theorem outcome_bind (command : ExceptT Failure (StateM σ) α)
    (next : α → ExceptT Failure (StateM σ) β) (w : σ) :
    outcome (command >>= next) w =
      match outcome command w with
      | (.ok a, w') => outcome (next a) w'
      | (.error failure, w') => (.error failure, w') := by
  show StateT.run (ExceptT.run command >>= ExceptT.bindCont next) w = _
  unfold outcome
  rw [StateT.run_bind]
  rcases StateT.run (ExceptT.run command) w with ⟨_ | _, _⟩ <;> rfl

variable {w w' : σ} {command : ExceptT Failure (StateM σ) α}
  {next : α → ExceptT Failure (StateM σ) β}

/-- After a step that succeeds the command goes on. -/
theorem outcome_bind_ok {a : α} (h : outcome command w = (.ok a, w')) :
    outcome (command >>= next) w = outcome (next a) w' := by
  rw [outcome_bind, h]

/-- With a step that fails the command fails. -/
theorem outcome_bind_error {failure : Failure} (h : outcome command w = (.error failure, w')) :
    outcome (command >>= next) w = (.error failure, w') := by
  rw [outcome_bind, h]

theorem outcome_answer {ε : Type} (answer : StateM σ (Except ε α)) (reason : ε → Failure) (w : σ) :
    outcome (ExceptT.mk (return (← answer).mapError reason)) w =
      ((answer.run w).1.mapError reason, (answer.run w).2) :=
  rfl

theorem outcome_call (answer : StateM σ (Except ClientError α)) (w : σ) :
    outcome (call answer) w = ((answer.run w).1.mapError .client, (answer.run w).2) :=
  rfl

theorem outcome_result {ε : Type} (result : Except ε α) (reason : ε → Failure) (w : σ) :
    outcome (ExceptT.mk (return result.mapError reason)) w = (result.mapError reason, w) :=
  rfl

end

/-! ## Picking an identifier -/

namespace Reference

variable {ids : List Uuid} {text : String} {id u : Uuid}

theorem pick_eq_ok_iff :
    pick ids text = .ok id ↔ startingWith (Text.lowered text) ids = [id] := by
  unfold pick
  dsimp only
  rcases startingWith (Text.lowered text) ids with _ | ⟨u, _ | _⟩ <;> simp

theorem mem_startingWith_iff :
    u ∈ startingWith (Text.lowered text) ids ↔ u ∈ ids ∧ u.BeginsWith text := by
  unfold startingWith Uuid.BeginsWith
  rw [List.mem_filter, List.isPrefixOf_iff_prefix, Uuid.toList_text]

/-- **The one identifier that begins with a text is picked.** -/
theorem pick_eq_ok_iff_of_nodup (h : ids.Nodup) :
    pick ids text = .ok id ↔ id ∈ ids ∧ ∀ u ∈ ids, u.BeginsWith text ↔ u = id := by
  have hfound : (startingWith (Text.lowered text) ids).Nodup := h.filter _
  -- Without duplicates, what is found is one identifier as soon as it has no other members.
  rw [pick_eq_ok_iff, ← List.perm_singleton,
    List.perm_ext_iff_of_nodup hfound (List.nodup_singleton id)]
  simp only [mem_startingWith_iff, List.mem_singleton]
  constructor
  · intro hone
    have hid := ((hone id).2 rfl).1
    exact ⟨hid, fun u hu => ⟨fun hbegins => (hone u).1 ⟨hu, hbegins⟩, fun heq => ((hone u).2 heq).2⟩⟩
  · rintro ⟨hid, hone⟩ u
    exact ⟨fun ⟨hu, hbegins⟩ => (hone u hu).1 hbegins, fun heq => heq ▸ ⟨hid, (hone id hid).2 rfl⟩⟩

theorem pick_of_none (h : ∀ u ∈ ids, ¬ u.BeginsWith text) :
    pick ids text = .error (.unknown (Text.lowered text)) := by
  have hnone : startingWith (Text.lowered text) ids = [] :=
    List.eq_nil_iff_forall_not_mem.2 fun u hu => by
      obtain ⟨hmem, hbegins⟩ := mem_startingWith_iff.1 hu
      exact h u hmem hbegins
  unfold pick
  dsimp only
  rw [hnone]

/-- If more than one identifier begins with a text, all of them are told. -/
theorem pick_of_several (h : id ∈ ids) (hid : id.BeginsWith text) (hu : u ∈ ids)
    (hubegins : u.BeginsWith text) (hne : id ≠ u) :
    pick ids text = .error (.ambiguous (Text.lowered text)
      (startingWith (Text.lowered text) ids)) := by
  have hfirst := mem_startingWith_iff.2 ⟨h, hid⟩
  have hsecond := mem_startingWith_iff.2 ⟨hu, hubegins⟩
  unfold pick
  dsimp only
  generalize startingWith (Text.lowered text) ids = found at hfirst hsecond ⊢
  match found with
  | [] => cases hfirst
  | [v] => exact absurd ((List.mem_singleton.1 hfirst).trans (List.mem_singleton.1 hsecond).symm) hne
  | _ :: _ :: _ => rfl

end Reference

/-! ## References -/

variable {σ : Type} {c : Client} {send : Exchange (StateM σ)} {w w' : σ} {ids : List Uuid}
  {text : String} {id : Uuid}

/-- A server that is asked for its triggers lists those of these identifiers. -/
def Lists (c : Client) (send : Exchange (StateM σ)) (w : σ) (ids : List Uuid) (w' : σ) : Prop :=
  ∃ summaries, (c.list send none).run w = (.ok summaries, w') ∧ summaries.map (·.id) = ids

/-- A spelling of an identifier is read at once. -/
theorem findArgument_spelled (h : Uuid.ofText? text = some id) (w : σ) :
    outcome (findArgument c send text) w = (.ok id, w) := by
  unfold findArgument Reference.ofText
  rw [h]
  rfl

/-- Anything else is looked for among the triggers that are listed. -/
theorem findArgument_listed (htext : Uuid.ofText? text = none) (h : Lists c send w ids w') :
    outcome (findArgument c send text) w = ((Reference.pick ids text).mapError .reference, w') := by
  obtain ⟨summaries, hlist, rfl⟩ := h
  have hlisted : outcome (ExceptT.mk (return (← c.list send none).mapError Failure.lookup)) w =
      (.ok summaries, w') := by
    rw [outcome_answer, hlist]
    rfl
  unfold findArgument Reference.ofText
  rw [htext]
  exact outcome_bind_ok hlisted

/-- Without a listing nothing is found. -/
theorem findArgument_unlisted (htext : Uuid.ofText? text = none) {err : ClientError}
    (h : (c.list send none).run w = (.error err, w')) :
    outcome (findArgument c send text) w = (.error (.lookup err), w') := by
  have hfailed : outcome (ExceptT.mk (return (← c.list send none).mapError Failure.lookup)) w =
      (.error (.lookup err), w') := by
    rw [outcome_answer, h]
    rfl
  unfold findArgument Reference.ofText
  rw [htext]
  exact outcome_bind_error hfailed

/-- An abbreviation of an identifier that is listed means it, if no other one begins like this.
Otherwise it is refused, and all that begin like this are told in the order of the listing. -/
theorem findArgument_abbreviation (h : Lists c send w ids w') (hids : ids.Nodup) (hid : id ∈ ids)
    (habbr : id.Abbreviates text) :
    ((∀ u ∈ ids, u.Abbreviates text → u = id) →
      outcome (findArgument c send text) w = (.ok id, w')) ∧
    ∀ other ∈ ids, other.Abbreviates text → other ≠ id →
      outcome (findArgument c send text) w = (.error (.reference (.ambiguous
        (String.ofList (text.toList.map Char.toLower)) (ids.filter (·.Abbreviates text)))), w') := by
  have htext : Uuid.ofText? text = none := Uuid.ofText?_eq_none_iff.2 habbr.not_spells
  have hbegins : ∀ {u : Uuid}, u.BeginsWith text ↔ u.Abbreviates text := habbr.beginsWith_iff
  rw [findArgument_listed htext h]
  constructor
  · intro hone
    have hpick : Reference.pick ids text = .ok id := (Reference.pick_eq_ok_iff_of_nodup hids).2
      ⟨hid, fun u hu => ⟨fun hu' => hone u hu (hbegins.1 hu'), fun heq => heq ▸ hbegins.2 habbr⟩⟩
    rw [hpick]
    rfl
  · intro other hother habbr' hne
    have hquoted : Text.lowered text = String.ofList (text.toList.map Char.toLower) := by
      rw [← habbr.toList_lowered, String.ofList_toList]
    have hfound : Reference.startingWith (Text.lowered text) ids =
        ids.filter (·.Abbreviates text) := by
      refine List.filter_congr fun u _ => ?_
      rw [Bool.eq_iff_iff, decide_eq_true_iff, ← hbegins, List.isPrefixOf_iff_prefix,
        ← Uuid.toList_text]
      exact Iff.rfl
    rw [Reference.pick_of_several hother (hbegins.2 habbr') hid (hbegins.2 habbr) hne, hfound,
      hquoted]
    rfl

/-- **A reference means the one trigger that begins with it.** On any server: a spelling of an
identifier means this identifier, and the server is not asked. With any other text the server is
asked once for its triggers, and the text means the one listed identifier that begins with it in
lower case; without one it is refused. The order of the listing does not matter for that. So an
abbreviation of a listed identifier means it if no other one begins like this, and otherwise it is
refused with all that begin like this, in the order of the listing. -/
theorem findArgument_means (c : Client) (send : Exchange (StateM σ)) (text : String) :
    (∀ id : Uuid, id.Spells text.toList →
      ∀ w, outcome (findArgument c send text) w = (.ok id, w)) ∧
    ∀ w w' ids, Lists c send w ids w' → ids.Nodup →
      ((∀ id : Uuid, ¬ id.Spells text.toList) →
        (outcome (findArgument c send text) w).2 = w' ∧
        (∀ id, (outcome (findArgument c send text) w).1 = .ok id ↔
          id ∈ ids ∧ ∀ u ∈ ids, u.BeginsWith text ↔ u = id) ∧
        ((∀ u ∈ ids, ¬ u.BeginsWith text) → ∃ quoted,
          (outcome (findArgument c send text) w).1 = .error (.reference (.unknown quoted))) ∧
        ∀ v v' ids', Lists c send v ids' v' → ids'.Perm ids → ∀ id,
          (outcome (findArgument c send text) v).1 = .ok id ↔
            (outcome (findArgument c send text) w).1 = .ok id) ∧
      ∀ id ∈ ids, id.Abbreviates text →
        ((∀ u ∈ ids, u.Abbreviates text → u = id) →
          outcome (findArgument c send text) w = (.ok id, w')) ∧
        ∀ other ∈ ids, other.Abbreviates text → other ≠ id →
          outcome (findArgument c send text) w = (.error (.reference (.ambiguous
            (String.ofList (text.toList.map Char.toLower))
            (ids.filter (·.Abbreviates text)))), w') := by
  have hok : ∀ {w w' ids}, Uuid.ofText? text = none → Lists c send w ids w' → ids.Nodup → ∀ id,
      (outcome (findArgument c send text) w).1 = .ok id ↔
        id ∈ ids ∧ ∀ u ∈ ids, u.BeginsWith text ↔ u = id := by
    intro w w' ids htext h hids id
    rw [findArgument_listed htext h, ← Reference.pick_eq_ok_iff_of_nodup hids]
    cases Reference.pick ids text <;> simp [Except.mapError]
  refine ⟨fun id h => findArgument_spelled (Uuid.ofText?_eq_some_iff.2 h), fun w w' ids h hids =>
    ⟨fun hnone => ?_, fun id hid habbr => findArgument_abbreviation h hids hid habbr⟩⟩
  have htext : Uuid.ofText? text = none := Uuid.ofText?_eq_none_iff.2 hnone
  refine ⟨?_, hok htext h hids, fun hbegins => ⟨Text.lowered text, ?_⟩, ?_⟩
  · rw [findArgument_listed htext h]
  · rw [findArgument_listed htext h, Reference.pick_of_none hbegins]
    rfl
  · intro v v' ids' h' hperm id
    rw [hok htext h' (hperm.nodup_iff.2 hids), hok htext h hids]
    simp only [hperm.mem_iff]

end Command

namespace Sample

/-- Begins like the identifier after it. -/
def twin : Uuid := { value := 0x3f2a0c1e000040008000000000000001 }

/-- Begins like the identifier before it. -/
def sibling : Uuid := { value := 0x3f2b9d44000040008000000000000002 }

/-- Begins like no other one. -/
def loner : Uuid := { value := 0xa1b2c3d4000040008000000000000003 }

/-- Three triggers that differ in their identifiers only. -/
def roster : List Summary :=
  [twin, sibling, loner].map fun id =>
    { (engine.triggerOf daily engine.defaultTimeToExpire).summary with id }

/-- A server that lists the three triggers whatever it is asked, and counts its requests. -/
def counting : Exchange (StateM Nat) := fun _ =>
  modifyGet fun n => (.ok (Api.respond 200 (.array (roster.map Summary.toJson))), n + 1)

theorem lists_counting (n : Nat) :
    Command.Lists client counting n [twin, sibling, loner] (n + 1) := by
  refine ⟨roster, ?_, rfl⟩
  show (Client.read Summary.record.listOfText
    (.ok (Api.respond 200 (.array (roster.map Summary.toJson)))), n + 1) = _
  rw [Client.read_respond (Summary.listOfText_render roster)]

end Sample

/-- The third trigger is meant by its first characters in upper case, and by its identifier in
braces, for which nothing is asked. The first two have their beginning in common. -/
theorem Command.findArgument_means_counting :
    outcome (findArgument Sample.client Sample.counting "A1B2") 0 = (.ok Sample.loner, 1) ∧
      outcome (findArgument Sample.client Sample.counting "3F2") 1 =
        (.error (.reference (.ambiguous "3f2" [Sample.twin, Sample.sibling])), 2) ∧
      outcome (findArgument Sample.client Sample.counting
        "\x7bA1B2C3D4-0000-4000-8000-000000000003\x7d") 2 = (.ok Sample.loner, 2) := by
  have hids : [Sample.twin, Sample.sibling, Sample.loner].Nodup := by decide
  obtain ⟨-, hunique⟩ := Command.findArgument_means Sample.client Sample.counting "A1B2"
  obtain ⟨-, hshared⟩ := Command.findArgument_means Sample.client Sample.counting "3F2"
  obtain ⟨hspelled, -⟩ := Command.findArgument_means Sample.client Sample.counting
    "\x7bA1B2C3D4-0000-4000-8000-000000000003\x7d"
  refine ⟨?_, ?_, hspelled _ (Uuid.ofText?_eq_some_iff.1 (by decide +kernel)) 2⟩
  · exact ((hunique 0 1 _ (Sample.lists_counting 0) hids).2 Sample.loner (by decide)
      (by decide +kernel)).1 (by decide +kernel)
  · have hrefused := ((hshared 1 2 _ (Sample.lists_counting 1) hids).2 Sample.twin (by decide)
      (by decide +kernel)).2 Sample.sibling (by decide) (by decide +kernel) (by decide)
    rw [hrefused]
    decide +kernel

end Lookout
