import Lookout.Period
import Lookout.Proofs.Digits

/-!
# Periods

The texts that are read as a period, and the one that is written.

* `Duration.Spells`: a count with a unit, possibly with a plus sign and with zeros in front.
* `Duration.Reads`: what is read from a text without blanks at its ends, a duration or an error.
* `Duration.ofPeriod_exact`: each text is read so, after the blanks at its ends are gone.
* `Duration.Canonical`: a count without a sign or zeros in front, with the longest unit that there
  can be.
* `Duration.period_canonical`: a duration is written like this, and is read back. Durations are told
  apart by what is written.
-/

namespace Lookout.Duration

open Text

/-! ## Units -/

theorem unitSecs?_eq_some_iff {unit : Char} {per : Nat} :
    unitSecs? unit = some per ↔ (unit, per) ∈ units := by
  constructor
  · intro h
    obtain ⟨front, back, hunits, -⟩ := List.lookup_eq_some_iff.1 h
    rw [hunits]
    exact List.mem_append_right _ List.mem_cons_self
  · have hall : ∀ u ∈ units, unitSecs? u.1 = some u.2 := by decide
    exact hall (unit, per)

theorem unitSecs?_eq_none_iff {unit : Char} :
    unitSecs? unit = none ↔ unit ∉ units.map Prod.fst := by
  rw [Option.eq_none_iff_forall_ne_some, List.mem_map]
  simp only [Ne, unitSecs?_eq_some_iff]
  constructor
  · rintro h ⟨⟨_, per⟩, hu, rfl⟩
    exact h per hu
  · exact fun h per hu => h ⟨(unit, per), hu, rfl⟩

/-- A unit is no blank and lasts. -/
theorem isBlank_of_mem_units {unit : Char} {per : Nat} (h : (unit, per) ∈ units) :
    isBlank unit = false ∧ 0 < per := by
  have hall : ∀ u ∈ units, isBlank u.1 = false ∧ 0 < u.2 := by decide
  exact hall (unit, per) h

/-- Units of the same length are the same. -/
theorem unit_inj {unit unit' : Char} {per : Nat} (h : (unit, per) ∈ units)
    (h' : (unit', per) ∈ units) : unit = unit' := by
  have hall : ∀ u ∈ units, ∀ v ∈ units, u.2 = v.2 → u.1 = v.1 := by decide
  exact hall (unit, per) h (unit', per) h' rfl

/-- The unit of a number of seconds is the longest that divides it. -/
theorem unitOf_spec (secs : Nat) :
    unitOf secs ∈ units ∧ (unitOf secs).2 ∣ secs ∧
      ∀ u ∈ units, u.2 ∣ secs → u.2 ≤ (unitOf secs).2 := by
  unfold unitOf
  cases h : units.find? fun u => secs % u.2 == 0 with
  | none =>
    have hsecond := List.find?_eq_none.1 h ('s', 1) (by decide)
    exact absurd (beq_iff_eq.2 (Nat.mod_one secs)) hsecond
  | some u =>
    obtain ⟨hdivides, front, back, hunits, hfront⟩ := List.find?_eq_some_iff_append.1 h
    have hsorted : units.Pairwise fun u v => v.2 ≤ u.2 := by decide
    rw [hunits] at hsorted ⊢
    refine ⟨List.mem_append_right _ List.mem_cons_self,
      Nat.dvd_of_mod_eq_zero (beq_iff_eq.1 hdivides), fun v hv hdvd => ?_⟩
    obtain hv | hv := List.mem_append.1 hv
    · -- A longer unit would have been found first.
      have hnot := hfront v hv
      rw [Nat.mod_eq_zero_of_dvd hdvd] at hnot
      cases hnot
    obtain rfl | hv := List.mem_cons.1 hv
    · exact Nat.le_refl _
    · exact List.rel_of_pairwise_cons (List.pairwise_append.1 hsorted).2.1 hv

/-! ## Reading -/

/-- The texts of a number of seconds: a count, then a unit. -/
inductive Spells : Nat → List Char → Prop
  | intro {count per : Nat} {run : List Char} {unit : Char} (hcount : SpellsNat count run)
      (hunit : (unit, per) ∈ units) : Spells (count * per) (run ++ [unit])

/-- What is read from a text that has no blanks at its ends. The text is quoted in the errors. -/
inductive Reads : List Char → Except PeriodError Duration → Prop
  | ok {core : List Char} {d : Duration} (h : Spells d.secs core) (hnanos : d.nanos = 0) :
      Reads core (.ok d)
  | empty : Reads [] (.error .empty)
  | unknownUnit {front : List Char} {unit : Char} (hunit : unit ∉ units.map Prod.fst) :
      Reads (front ++ [unit]) (.error (.unknownUnit (String.ofList (front ++ [unit]))))
  | invalidCount {front : List Char} {unit : Char} (hunit : unit ∈ units.map Prod.fst)
      (h : ∀ secs, Spells secs (front ++ [unit]) → 18446744073709551616 ≤ secs) :
      Reads (front ++ [unit]) (.error (.invalidCount (String.ofList (front ++ [unit]))))

/-- Something is read from each text. -/
theorem exists_reads (core : List Char) : ∃ r, Reads core r := by
  obtain rfl | ⟨front, unit, rfl⟩ := List.eq_nil_or_concat core
  · exact ⟨_, .empty⟩
  rw [List.concat_eq_append]
  by_cases hunit : unit ∈ units.map Prod.fst
  · by_cases h : ∃ secs, Spells secs (front ++ [unit]) ∧ secs < 18446744073709551616
    · obtain ⟨secs, hspells, hlt⟩ := h
      exact ⟨.ok (ofSecs secs hlt), .ok hspells rfl⟩
    · exact ⟨_, .invalidCount hunit fun secs hs => Nat.not_lt.1 fun hlt => h ⟨secs, hs, hlt⟩⟩
  · exact ⟨_, .unknownUnit hunit⟩

variable {text : String} {d : Duration}

theorem ofPeriod_of_reads {r : Except PeriodError Duration} (h : Reads (trim text.toList) r) :
    ofPeriod text = r := by
  unfold ofPeriod
  dsimp only
  generalize trim text.toList = core at h
  cases h with
  | @ok _ d h hnanos =>
    obtain ⟨secs, nanos, hsecs, hlt⟩ := d
    cases hnanos
    dsimp only at h
    cases h with
    | @intro count per run unit hcount hunit =>
      have hle : count ≤ count * per := Nat.le_mul_of_pos_right count (isBlank_of_mem_units hunit).2
      have hread : readNat maxCount run = .ok count :=
        readNat_eq_ok_iff.2 ⟨hcount, Nat.le_of_lt_succ (Nat.lt_of_le_of_lt hle hsecs)⟩
      rw [List.getLast?_concat, List.dropLast_concat]
      dsimp only
      rw [unitSecs?_eq_some_iff.2 hunit]
      dsimp only
      rw [hread]
      exact dif_pos hsecs
  | empty => rfl
  | unknownUnit hunit =>
    rw [List.getLast?_concat]
    dsimp only
    rw [unitSecs?_eq_none_iff.2 hunit]
  | invalidCount hunit h =>
    obtain ⟨⟨unit, per⟩, hmem, rfl⟩ := List.mem_map.1 hunit
    rw [List.getLast?_concat, List.dropLast_concat]
    dsimp only
    rw [unitSecs?_eq_some_iff.2 hmem]
    dsimp only
    split
    · rfl
    · rename_i hread
      exact dif_neg (Nat.not_lt.2 (h _ (.intro (readNat_eq_ok_iff.1 hread).1 hmem)))

theorem ofPeriod_eq_iff {r : Except PeriodError Duration} :
    ofPeriod text = r ↔ Reads (trim text.toList) r := by
  constructor
  · rintro rfl
    obtain ⟨r, hr⟩ := exists_reads (trim text.toList)
    rwa [ofPeriod_of_reads hr]
  · exact ofPeriod_of_reads

theorem ofPeriod_eq_ok_iff :
    ofPeriod text = .ok d ↔ Spells d.secs (trim text.toList) ∧ d.nanos = 0 := by
  rw [ofPeriod_eq_iff]
  generalize trim text.toList = core
  constructor
  · rintro (⟨h, hnanos⟩ | _)
    exact ⟨h, hnanos⟩
  · exact fun ⟨h, hnanos⟩ => .ok h hnanos

/-- **Periods are read by their grammar.** There is one part of a text with blanks around it and
none at its ends. If it spells fewer than `2 ^ 64` seconds, these are what is read. Otherwise the
text is refused for the first of the three reasons that there is, and that part is quoted. -/
theorem ofPeriod_exact (text : String) :
    ∃ core, (∀ s, Trims text.toList s ↔ s = core) ∧
      (∀ r, ofPeriod text = r ↔ Reads core r) ∧
      ((∃ d, ofPeriod text = .ok d) ↔ ∃ secs, Spells secs core ∧ secs < 18446744073709551616) := by
  refine ⟨trim text.toList, fun s => trims_iff, fun r => ofPeriod_eq_iff, ?_⟩
  constructor
  · rintro ⟨d, h⟩
    exact ⟨d.secs, (ofPeriod_eq_ok_iff.1 h).1, d.secs_lt⟩
  · rintro ⟨secs, h, hlt⟩
    exact ⟨ofSecs secs hlt, ofPeriod_eq_ok_iff.2 ⟨h, rfl⟩⟩

/-- A period is a whole number of seconds. -/
theorem nanos_of_ofPeriod (h : ofPeriod text = .ok d) : d.nanos = 0 :=
  (ofPeriod_eq_ok_iff.1 h).2

theorem wholeSecs_eq_self (h : d.nanos = 0) : d.wholeSecs = d := by
  obtain ⟨secs, nanos, hsecs, hnanos⟩ := d
  cases h
  rfl

/-! ## Writing -/

/-- The one text of a number of seconds that is written: no sign, no zero in front, and the longest
unit that divides the number. -/
inductive Canonical : Nat → List Char → Prop
  | zero : Canonical 0 ['0', 's']
  | count {run : List Char} {unit : Char} {per : Nat} (hd : AreDigits run) (hne : run ≠ [])
      (hzero : run.head? ≠ some '0') (hunit : (unit, per) ∈ units)
      (hlongest : ∀ u ∈ units, u.2 ∣ ofDigits run * per → u.2 ≤ per) :
      Canonical (ofDigits run * per) (run ++ [unit])

variable {secs : Nat} {s s' : List Char}

theorem Canonical.spells (h : Canonical secs s) : Spells secs s := by
  cases h with
  | zero =>
    have hcount : SpellsNat (ofDigits ['0']) ['0'] :=
      .plain (List.forall_mem_singleton.2 rfl) (List.cons_ne_nil _ _)
    exact .intro hcount (show ('s', 1) ∈ units by decide)
  | count hd hne _ hunit _ => exact .intro (.plain hd hne) hunit

theorem Spells.not_isBlank (h : Spells secs s) : ∀ c ∈ s, isBlank c = false := by
  cases h with
  | intro hcount hunit =>
    refine List.forall_mem_append.2 ⟨hcount.not_isBlank, List.forall_mem_singleton.2 ?_⟩
    exact (isBlank_of_mem_units hunit).1

theorem Spells.trim_eq (h : Spells secs s) : trim s = s := by
  have htrim := trim_blanks (List.forall_mem_nil _) h.not_isBlank (List.forall_mem_nil _)
  rwa [List.nil_append, List.append_nil] at htrim

/-- What is written is canonical. -/
theorem canonical_period (d : Duration) : Canonical d.secs d.period.toList := by
  unfold period
  split
  · rename_i h
    rw [h]
    exact .zero
  · rename_i h
    obtain ⟨hunit, hdvd, hlongest⟩ := unitOf_spec d.secs
    generalize unitOf d.secs = u at hunit hdvd hlongest
    obtain ⟨unit, per⟩ := u
    obtain ⟨count, hcount⟩ := hdvd
    have hpos := (isBlank_of_mem_units hunit).2
    have hcountPos : 0 < count :=
      Nat.pos_of_ne_zero fun h0 => h (hcount.trans (congrArg (per * ·) h0))
    dsimp only at hcount hlongest hpos ⊢
    have hsecs : d.secs = ofDigits (digits count) * per := by
      rw [ofDigits_digits, hcount, Nat.mul_comm]
    rw [hcount, Nat.mul_div_cancel_left count hpos, String.toList_ofList, ← hcount]
    rw [hsecs] at hlongest ⊢
    exact .count (areDigits_digits count) (digits_ne_nil count) (head?_digits hcountPos) hunit
      hlongest

/-- A number of seconds has one canonical text. -/
theorem Canonical.unique (h : Canonical secs s) (h' : Canonical secs s') : s = s' := by
  have hpos : ∀ {run : List Char} {unit : Char} {per : Nat}, AreDigits run → run ≠ [] →
      run.head? ≠ some '0' → (unit, per) ∈ units → 0 < ofDigits run * per :=
    fun hd hne hzero hunit => Nat.mul_pos (ofDigits_pos hd hne hzero) (isBlank_of_mem_units hunit).2
  cases h with
  | zero =>
    generalize hn : 0 = n at h'
    cases h' with
    | zero => rfl
    | count hd hne hzero hunit => exact absurd hn (Nat.ne_of_lt (hpos hd hne hzero hunit))
  | @count run unit per hd hne hzero hunit hlongest =>
    generalize hn : ofDigits run * per = n at h'
    cases h' with
    | zero => exact absurd hn (Nat.ne_of_gt (hpos hd hne hzero hunit))
    | @count run' unit' per' hd' hne' hzero' hunit' hlongest' =>
      have hper : per = per' := by
        refine Nat.le_antisymm (hlongest' _ hunit ?_) (hlongest _ hunit' ?_)
        · exact ⟨_, hn.symm.trans (Nat.mul_comm _ _)⟩
        · exact ⟨_, hn.trans (Nat.mul_comm _ _)⟩
      subst hper
      have hnumber := Nat.eq_of_mul_eq_mul_right (isBlank_of_mem_units hunit).2 hn
      have hrun := congrArg digits hnumber
      rw [digits_ofDigits hd hne hzero, digits_ofDigits hd' hne' hzero'] at hrun
      rw [hrun, unit_inj hunit hunit']

/-- **The period of a duration is read as its whole seconds.** -/
theorem ofPeriod_period (d : Duration) : ofPeriod d.period = .ok d.wholeSecs := by
  have h := (canonical_period d).spells
  refine ofPeriod_eq_ok_iff.2 ⟨?_, rfl⟩
  rwa [h.trim_eq]

/-- **Periods survive being written.** A duration is written in the canonical way and read back as
its whole seconds. For a text that is read this is the one canonical text of what it spells, and two
of them spell the same duration if their canonical texts are equal. -/
theorem period_canonical :
    (∀ d : Duration, ofPeriod d.period = .ok d.wholeSecs) ∧
    (∀ (text : String) d, ofPeriod text = .ok d →
      ofPeriod d.period = .ok d ∧ ∀ s : String, Canonical d.secs s.toList ↔ s = d.period) ∧
    (∀ (text text' : String) d d', ofPeriod text = .ok d → ofPeriod text' = .ok d' →
      (d = d' ↔ d.period = d'.period)) := by
  have hback : ∀ {text : String} {d}, ofPeriod text = .ok d → ofPeriod d.period = .ok d := by
    intro text d h
    have hperiod := ofPeriod_period d
    rwa [wholeSecs_eq_self (nanos_of_ofPeriod h)] at hperiod
  refine ⟨ofPeriod_period, fun text d h => ⟨hback h, fun s => ⟨fun hs => ?_, ?_⟩⟩,
    fun text text' d d' h h' => ⟨congrArg period, fun heq => ?_⟩⟩
  · exact String.toList_injective (hs.unique (canonical_period d))
  · rintro rfl
    exact canonical_period d
  · have hread := hback h
    rw [heq, hback h'] at hread
    cases hread
    rfl

/-- Two texts of one and a half hours, and the canonical one. -/
theorem period_canonical_minutes :
    ofPeriod " +0090m" = .ok (ofSecs 5400) ∧ ofPeriod "5400s" = .ok (ofSecs 5400) ∧
      (ofSecs 5400).period = "90m" := by
  have hspells : Spells 5400 (trim " +0090m".toList) ∧ Spells 5400 (trim "5400s".toList) := by
    have htrim : trim " +0090m".toList = '+' :: ['0', '0', '9', '0'] ++ ['m'] ∧
        trim "5400s".toList = ['5', '4', '0', '0'] ++ ['s'] := by decide +kernel
    have hminutes : SpellsNat 90 ('+' :: ['0', '0', '9', '0']) :=
      @SpellsNat.plus ['0', '0', '9', '0'] (List.all_eq_true.1 rfl) (List.cons_ne_nil _ _)
    have hseconds : SpellsNat 5400 ['5', '4', '0', '0'] :=
      @SpellsNat.plain ['5', '4', '0', '0'] (List.all_eq_true.1 rfl) (List.cons_ne_nil _ _)
    rw [htrim.1, htrim.2]
    exact ⟨.intro hminutes (show ('m', 60) ∈ units by decide),
      .intro hseconds (show ('s', 1) ∈ units by decide)⟩
  have hcanonical : Canonical 5400 "90m".toList :=
    @Canonical.count ['9', '0'] 'm' 60 (List.all_eq_true.1 rfl) (List.cons_ne_nil _ _)
      (by decide) (by decide) (by decide)
  have hminutes : ofPeriod " +0090m" = .ok (ofSecs 5400) := ofPeriod_eq_ok_iff.2 ⟨hspells.1, rfl⟩
  refine ⟨hminutes, ofPeriod_eq_ok_iff.2 ⟨hspells.2, rfl⟩, ?_⟩
  exact (((period_canonical.2.1 _ _ hminutes).2 "90m").1 hcanonical).symm

end Lookout.Duration
