import Lookout.Calendar.Timestamp
import Lookout.Proofs.Dates
import Lookout.Proofs.Digits

/-!
# Time stamps that are read back

`Instant.ofTimestamp?_timestamp`: the text of an instant is read as that instant. Each field that
is written is read back and leaves the text after it (`Instant.readDigitRun?_padded`). Where a field
may have more digits than it needs, the character after it is no digit.
-/

namespace Lookout

/-! ## Fields -/

namespace Instant

open Text

/-- A padded number is read back if no more digits may be read, or no more are there. -/
theorem readDigitRun?_padded {most width n : Nat} {rest : List Char}
    (hlen : (padded width n).length ≤ most)
    (hr : (padded width n).length = most ∨ EndsDigits rest) :
    readDigitRun? most (padded width n ++ rest) = some (n, rest) := by
  have hd := areDigits_padded width n
  have hrun : ((padded width n ++ rest).takeWhile isDigit).take most = padded width n := by
    rcases hr with hr | hr
    · rw [List.takeWhile_append_of_pos hd, ← hr, List.take_left]
    · rw [takeWhile_isDigit_append hd hr, List.take_of_length_le hlen]
  have hne : ¬ (padded width n).isEmpty = true := by
    rw [List.isEmpty_iff]
    exact padded_ne_nil width n
  have hvalue := ofDigits_padded width n
  unfold ofDigits at hvalue
  unfold readDigitRun?
  dsimp only
  rw [hrun, if_neg hne, List.drop_left, hvalue]

theorem readField?_padded {n : Nat} (h : n < 100) (rest : List Char) :
    readField? (padded 2 n ++ rest) = some (n, rest) := by
  have hlen : (padded 2 n).length = 2 := length_padded (by decide) h
  unfold readField?
  rw [trimStart_append (areDigits_padded 2 n).not_isBlank (padded_ne_nil 2 n),
    readDigitRun?_padded (Nat.le_of_eq hlen) (.inl hlen)]

/-- Without a sign, up to four digits are a year. -/
private theorem readYear?_of_digits {run : List Char} (hd : AreDigits run) (hne : run ≠ [])
    (rest : List Char) :
    readYear? (run ++ rest) =
      (readDigitRun? 4 (run ++ rest)).map fun (n, r) => ((n : Int), r) := by
  unfold readYear?
  rw [trimStart_append hd.not_isBlank hne]
  cases run with
  | nil => exact absurd rfl hne
  | cons c run =>
    have hc : isDigit c = true := hd c List.mem_cons_self
    split
    · rename_i heq
      cases heq
      cases hc
    · rename_i heq
      cases heq
      cases hc
    · rfl

theorem readYear?_yearText (year : Int) {rest : List Char} (hr : EndsDigits rest) :
    readYear? (yearText year ++ rest) = some (year, rest) := by
  unfold yearText
  split
  · have hlt : year.toNat < Nat.pow 10 4 := show _ < 10000 by omega
    have hlen : (padded 4 year.toNat).length = 4 := length_padded (by decide) hlt
    have hyear : (year.toNat : Int) = year := by omega
    rw [readYear?_of_digits (areDigits_padded 4 _) (padded_ne_nil 4 _),
      readDigitRun?_padded (Nat.le_of_eq hlen) (.inr hr)]
    exact congrArg (fun y => some (y, rest)) hyear
  · -- With a sign, as many digits are read as there are.
    have hread : readDigitRun? (padded 4 year.natAbs ++ rest).length
        (padded 4 year.natAbs ++ rest) = some (year.natAbs, rest) :=
      readDigitRun?_padded (by rw [List.length_append]; omega) (.inr hr)
    split
    · have hminus : ∀ r, readYear? ('-' :: r) =
          (readDigitRun? r.length r).map fun (n, r) => (-(n : Int), r) := fun _ => rfl
      have hyear : -(year.natAbs : Int) = year := by omega
      rw [List.cons_append, hminus, hread]
      exact congrArg (fun y => some (y, rest)) hyear
    · have hplus : ∀ r, readYear? ('+' :: r) =
          (readDigitRun? r.length r).map fun (n, r) => ((n : Int), r) := fun _ => rfl
      have hyear : (year.natAbs : Int) = year := by omega
      rw [List.cons_append, hplus, hread]
      exact congrArg (fun y => some (y, rest)) hyear

/-- A fraction of `count` digits. -/
private theorem readFraction?_padded {count n : Nat} (hc : 0 < count ∧ count ≤ 9)
    (hn : n < Nat.pow 10 count) (rest : List Char) :
    readFraction? ('.' :: (padded count n ++ 'Z' :: rest)) =
      some (n * Nat.pow 10 (9 - count), 'Z' :: rest) := by
  have hlen := length_padded hc.1 hn
  have hends : EndsDigits ('Z' :: rest) := rfl
  have htaken : (padded count n ++ 'Z' :: rest).length - ('Z' :: rest).length = count := by
    rw [List.length_append, hlen, Nat.add_sub_cancel]
  have hpoint : ∀ s, readFraction? ('.' :: s) = (readDigitRun? 9 s).map fun (n, r) =>
      (n * Nat.pow 10 (9 - (s.length - r.length)), r.dropWhile isDigit) := fun _ => rfl
  rw [hpoint, readDigitRun?_padded (Nat.le_trans (Nat.le_of_eq hlen) hc.2) (.inr hends),
    Option.map_some]
  dsimp only
  rw [htaken]
  rfl

theorem readFraction?_fractionText {nano : Nat} (h : nano < 1000000000) (rest : List Char) :
    readFraction? (fractionText nano ++ 'Z' :: rest) = some (nano, 'Z' :: rest) := by
  unfold fractionText
  split
  · rename_i h0
    rw [h0]
    rfl
  -- With as many zeros as are left out, the same number of nanoseconds.
  split
  · have hn : nano / 1000000 < Nat.pow 10 3 := show _ < 1000 by omega
    have hsame : nano / 1000000 * Nat.pow 10 (9 - 3) = nano := show _ * 1000000 = _ by omega
    rw [List.cons_append, readFraction?_padded (by decide) hn, hsame]
  split
  · have hn : nano / 1000 < Nat.pow 10 6 := show _ < 1000000 by omega
    have hsame : nano / 1000 * Nat.pow 10 (9 - 6) = nano := show _ * 1000 = _ by omega
    rw [List.cons_append, readFraction?_padded (by decide) hn, hsame]
  · have hn : nano < Nat.pow 10 9 := h
    rw [List.cons_append, readFraction?_padded (by decide) hn]
    exact congrArg (fun n => some (n, 'Z' :: rest)) (Nat.mul_one nano)

/-! ## Time stamps -/

/-- The second of a minute as it is written: a leap second is second 60. -/
private theorem second_of_minute {second nano : Nat} (hnano : nano < 2000000000)
    (hleap : 1000000000 ≤ nano → second % 60 = 59) {written : Nat}
    (hw : written = second % 60 + if 1000000000 ≤ nano then 1 else 0) :
    written ≤ 60 ∧ min written 59 = second % 60 ∧
      nano % 1000000000 + (if written = 60 then 1000000000 else 0) = nano := by
  split at hw <;> split <;> omega

theorem ofFields?_of_date {date : Date} (hrange : date.inRange = true)
    {hour minute written fraction second nano : Nat}
    (hfields : hour < 24 ∧ minute < 60 ∧ written ≤ 60)
    (hsecond : hour * 3600 + minute * 60 + min written 59 = second)
    (hnano : fraction % 1000000000 + (if written = 60 then 1000000000 else 0) = nano)
    (h : nano < 2000000000)
    (hl : 1000000000 ≤ nano → (date.toDays * 86400 + second : Int) % 60 = 59) :
    ofFields? date.year date.month date.day hour minute written fraction 0 =
      ofSeconds? (date.toDays * 86400 + second) nano h hl := by
  subst hsecond hnano
  unfold ofFields?
  rw [Date.of?_fields]
  simp only [bind, Option.bind, Int.sub_zero]
  rw [if_pos ⟨hrange, hfields.1, hfields.2.1, hfields.2.2, by decide⟩, dif_pos ⟨h, hl⟩]

theorem ofSeconds?_seconds (t : Instant) (hl : 1000000000 ≤ t.nano → t.seconds % 60 = 59) :
    ofSeconds? t.seconds t.nano t.nano_lt hl = some t := by
  obtain ⟨day, second, nano, hday, hsecond, hnano, hleap⟩ := t
  have hdiv : (day * 86400 + second : Int) / 86400 = day := by omega
  have hmod : ((day * 86400 + second : Int) % 86400).toNat = second := by omega
  unfold ofSeconds? seconds
  dsimp only
  rw [dif_pos (hdiv.symm ▸ hday)]
  simp only [hdiv, hmod]

/-- The fields of an instant make up that instant. -/
theorem ofFields?_fields (t : Instant) :
    ofFields? t.date.year t.date.month t.date.day (t.second / 3600) (t.second / 60 % 60)
      (t.second % 60 + if t.inLeapSecond then 1 else 0) (t.nano % 1000000000) 0 = some t := by
  have hsecond := t.second_lt
  have hdays : t.date.toDays = t.day := Date.toDays_ofDays t.day
  have hseconds : (t.date.toDays * 86400 + t.second : Int) = t.seconds := by
    rw [hdays]
    rfl
  have hwritten : (t.second % 60 + if t.inLeapSecond = true then 1 else 0) =
      t.second % 60 + if 1000000000 ≤ t.nano then 1 else 0 := by
    unfold inLeapSecond
    simp only [decide_eq_true_eq]
  obtain ⟨hle, hmin, hnano⟩ := second_of_minute t.nano_lt t.leap_mem hwritten
  have hl : 1000000000 ≤ t.nano → (t.date.toDays * 86400 + t.second : Int) % 60 = 59 := by
    intro h
    have := t.leap_mem h
    omega
  have hrange : t.date.inRange = true := Date.inRange_ofDays t.day_mem
  have htime : t.second / 3600 * 3600 + t.second / 60 % 60 * 60 +
      min (t.second % 60 + if t.inLeapSecond = true then 1 else 0) 59 = t.second := by
    rw [hmin]
    omega
  rw [ofFields?_of_date hrange ⟨by omega, by omega, hle⟩ htime ((Nat.mod_mod _ _).symm ▸ hnano)
    t.nano_lt hl]
  simp only [hseconds]
  exact ofSeconds?_seconds t (hseconds ▸ hl)

private theorem readMark?_cons (mark : Char) (h : isBlank mark = false) (rest : List Char) :
    readMark? mark (mark :: rest) = some rest := by
  have htrim : trimStart (mark :: rest) = mark :: rest :=
    List.dropWhile_cons_of_neg (by rw [h]; exact Bool.false_ne_true)
  unfold readMark?
  rw [htrim]
  exact if_pos rfl

private theorem bind_of_eq {α β : Type} {x : Option α} {a : α} (h : x = some a)
    (f : α → Option β) : x >>= f = f a := by
  rw [h]
  rfl

/-- An instant is read field by field, each from where the one in front of it ends. -/
private theorem ofTimestampChars?_of_fields {year : Int} {month day hour minute second nano : Nat}
    {s s₁ s₂ s₃ s₄ s₅ s₆ : List Char} (hyear : readYear? s = some (year, '-' :: s₁))
    (hmonth : readField? s₁ = some (month, '-' :: s₂))
    (hday : readField? s₂ = some (day, 'T' :: s₃)) (hhour : readField? s₃ = some (hour, ':' :: s₄))
    (hminute : readField? s₄ = some (minute, ':' :: s₅))
    (hsecond : readField? s₅ = some (second, s₆)) (hnano : readFraction? s₆ = some (nano, ['Z'])) :
    ofTimestampChars? s = ofFields? year month day hour minute second nano 0 := by
  have htime : (if 'T' = 'T' ∨ 'T' = 't' ∨ 'T' = ' ' then some s₃ else none) = some s₃ :=
    if_pos (.inl rfl)
  have hoffset : readOffset? (trimStart ['Z']) = some (0, []) := rfl
  refine (bind_of_eq hyear _).trans ?_
  refine (bind_of_eq (readMark?_cons '-' rfl s₁) _).trans ?_
  refine (bind_of_eq hmonth _).trans ?_
  refine (bind_of_eq (readMark?_cons '-' rfl s₂) _).trans ?_
  refine (bind_of_eq hday _).trans ?_
  refine (bind_of_eq htime _).trans ?_
  refine (bind_of_eq hhour _).trans ?_
  refine (bind_of_eq (readMark?_cons ':' rfl s₄) _).trans ?_
  refine (bind_of_eq hminute _).trans ?_
  refine (bind_of_eq (readMark?_cons ':' rfl s₅) _).trans ?_
  refine (bind_of_eq hsecond _).trans ?_
  refine (bind_of_eq hnano _).trans ?_
  exact bind_of_eq hoffset _

/-- **The text of an instant is read as that instant.** -/
theorem ofTimestamp?_timestamp (t : Instant) : ofTimestamp? t.timestamp = some t := by
  have hsecond := t.second_lt
  have hmonth := t.date.month_mem
  have hday := t.date.day_mem
  have hdays := Date.daysInMonth_le t.date.year t.date.month
  have hleap : (if t.inLeapSecond = true then 1 else 0) ≤ 1 := by split <;> decide
  have hfraction := readFraction?_fractionText (Nat.mod_lt t.nano (by decide : 0 < 1000000000)) []
  unfold ofTimestamp? timestamp timestampChars
  rw [String.toList_ofList]
  simp only [List.append_assoc, List.cons_append]
  rw [ofTimestampChars?_of_fields (readYear?_yearText t.date.year rfl)
    (readField?_padded (by omega) _) (readField?_padded (by omega) _)
    (readField?_padded (by omega) _) (readField?_padded (by omega) _)
    (readField?_padded (by omega) _) hfraction]
  exact t.ofFields?_fields

end Instant
end Lookout
