import Lookout.Text.Blank
import Lookout.Text.Integer

/-!
# Numbers that are read back

What `Text.digits` and `Text.padded` write is digits only, and stands for the number that was
written (`Text.ofDigits`).

- `readNat_eq_ok_iff`: the texts that are read as a number, whatever their length.
- `digits_ofDigits`: digits without a zero in front are what is written for their number.
- `length_padded`: a number that fits takes just the width it is padded to.
- `trims_iff`: what `trim` leaves is the one part that is between blanks and has none at its ends.
-/

namespace Lookout.Text

/-- The number that digits stand for. -/
def ofDigits (run : List Char) : Nat :=
  run.foldl (fun n c => 10 * n + digitValue c) 0

/-- All of them are digits. -/
def AreDigits (run : List Char) : Prop :=
  ∀ c ∈ run, isDigit c = true

theorem isDigit_digitChar {d : Nat} (h : d < 10) : isDigit (digitChar d) = true := by
  have hall : ∀ i : Fin 10, isDigit (digitChar i) = true := by decide
  exact hall ⟨d, h⟩

theorem digitValue_digitChar {d : Nat} (h : d < 10) : digitValue (digitChar d) = d := by
  have hall : ∀ i : Fin 10, digitValue (digitChar i) = i.val := by decide
  exact hall ⟨d, h⟩

theorem digitValue_lt {c : Char} (h : isDigit c = true) : digitValue c < 10 := by
  simp only [isDigit, Bool.and_eq_true, decide_eq_true_eq] at h
  unfold digitValue
  omega

theorem digitChar_digitValue {c : Char} (h : isDigit c = true) : digitChar (digitValue c) = c := by
  simp only [isDigit, Bool.and_eq_true, decide_eq_true_eq] at h
  have hsum : 48 + (c.toNat - 48) = c.toNat := by omega
  unfold digitChar digitValue
  rw [hsum, Char.ofNat_toNat]

/-! ## What is written -/

theorem digits_of_lt {n : Nat} (h : n < 10) : digits n = [digitChar n] := by
  rw [digits, if_pos h]

theorem digits_of_le {n : Nat} (h : 10 ≤ n) :
    digits n = digits (n / 10) ++ [digitChar (n % 10)] := by
  rw [digits, if_neg (Nat.not_lt.2 h)]

theorem areDigits_digits (n : Nat) : AreDigits (digits n) := by
  induction n using digits.induct with
  | case1 n h =>
    rw [digits_of_lt h]
    exact List.forall_mem_singleton.2 (isDigit_digitChar h)
  | case2 n h ih =>
    rw [digits_of_le (Nat.not_lt.1 h)]
    refine List.forall_mem_append.2 ⟨ih, List.forall_mem_singleton.2 (isDigit_digitChar ?_)⟩
    omega

theorem ofDigits_concat (run : List Char) (c : Char) :
    ofDigits (run ++ [c]) = 10 * ofDigits run + digitValue c := by
  unfold ofDigits
  rw [List.foldl_append, List.foldl_cons, List.foldl_nil]

theorem ofDigits_digits (n : Nat) : ofDigits (digits n) = n := by
  induction n using digits.induct with
  | case1 n h =>
    rw [digits_of_lt h]
    exact (Nat.zero_add _).trans (digitValue_digitChar h)
  | case2 n h ih =>
    rw [digits_of_le (Nat.not_lt.1 h), ofDigits_concat, ih, digitValue_digitChar (by omega)]
    omega

/-- A number has no zero in front, unless it is zero. -/
theorem exists_digits_eq {n : Nat} (h : 0 < n) :
    ∃ d run, digits n = digitChar d :: run ∧ 0 < d ∧ d < 10 := by
  induction n using digits.induct with
  | case1 n hn => exact ⟨n, [], digits_of_lt hn, h, hn⟩
  | case2 n hn ih =>
    obtain ⟨d, run, he, hd⟩ := ih (by omega)
    refine ⟨d, run ++ [digitChar (n % 10)], ?_, hd⟩
    rw [digits_of_le (Nat.not_lt.1 hn), he]
    rfl

theorem digits_ne_nil (n : Nat) : digits n ≠ [] := by
  by_cases h : n < 10
  · rw [digits_of_lt h]
    exact List.cons_ne_nil _ _
  · rw [digits_of_le (Nat.not_lt.1 h)]
    exact List.append_ne_nil_of_right_ne_nil _ (List.cons_ne_nil _ _)

private theorem digits_foldl {run : List Char} (hd : AreDigits run) {n : Nat} (hn : 0 < n) :
    digits (run.foldl (fun n c => 10 * n + digitValue c) n) = digits n ++ run := by
  induction run generalizing n with
  | nil => exact (List.append_nil _).symm
  | cons c run ih =>
    obtain ⟨hc, hrun⟩ := List.forall_mem_cons.1 hd
    have hlt := digitValue_lt hc
    have hdiv : (10 * n + digitValue c) / 10 = n := by omega
    have hmod : (10 * n + digitValue c) % 10 = digitValue c := by omega
    rw [List.foldl_cons, ih hrun (by omega), digits_of_le (by omega), hdiv, hmod,
      digitChar_digitValue hc, List.append_assoc]
    rfl

/-- Digits are what is written for their number if there is no zero in front. -/
theorem digits_ofDigits {run : List Char} (hd : AreDigits run) (hne : run ≠ [])
    (hzero : run.head? ≠ some '0') : digits (ofDigits run) = run := by
  cases run with
  | nil => exact absurd rfl hne
  | cons c run =>
    obtain ⟨hc, hrun⟩ := List.forall_mem_cons.1 hd
    have hpos : 0 < digitValue c := by
      refine Nat.pos_of_ne_zero fun h => hzero ?_
      have hchar := digitChar_digitValue hc
      rw [h] at hchar
      exact congrArg some hchar.symm
    unfold ofDigits
    rw [List.foldl_cons, Nat.mul_zero, Nat.zero_add, digits_foldl hrun hpos,
      digits_of_lt (digitValue_lt hc), digitChar_digitValue hc]
    rfl

theorem ofDigits_pos {run : List Char} (hd : AreDigits run) (hne : run ≠ [])
    (hzero : run.head? ≠ some '0') : 0 < ofDigits run := by
  refine Nat.pos_of_ne_zero fun h => hzero ?_
  rw [← digits_ofDigits hd hne hzero, h, digits_of_lt (by decide)]
  rfl

theorem head?_digits {n : Nat} (h : 0 < n) : (digits n).head? ≠ some '0' := by
  obtain ⟨d, run, hdigits, hpos, hlt⟩ := exists_digits_eq h
  rw [hdigits]
  intro hzero
  have hvalue := congrArg digitValue (Option.some.inj hzero)
  rw [digitValue_digitChar hlt] at hvalue
  exact Nat.ne_of_gt hpos hvalue

theorem length_digits_le {width n : Nat} (hw : 0 < width) (h : n < Nat.pow 10 width) :
    (digits n).length ≤ width := by
  induction width generalizing n with
  | zero => omega
  | succ w ih =>
    by_cases hn : n < 10
    · rw [digits_of_lt hn]
      exact Nat.succ_le_succ (Nat.zero_le w)
    · rw [digits_of_le (Nat.not_lt.1 hn), List.length_append]
      have hw' : 0 < w := by
        rcases Nat.eq_zero_or_pos w with rfl | hw'
        · exact absurd (show n < 10 from h) hn
        · exact hw'
      have hle := ih (n := n / 10) hw' (by rw [Nat.pow_eq, Nat.pow_succ, ← Nat.pow_eq] at h; omega)
      exact Nat.succ_le_succ hle

/-! ## Padding -/

theorem areDigits_padded (width n : Nat) : AreDigits (padded width n) := by
  refine List.forall_mem_append.2 ⟨fun c hc => ?_, areDigits_digits n⟩
  rw [List.eq_of_mem_replicate hc]
  rfl

theorem ofDigits_padded (width n : Nat) : ofDigits (padded width n) = n := by
  have hzeros : ∀ count, ofDigits (List.replicate count '0') = 0 := by
    intro count
    induction count with
    | zero => rfl
    | succ count ih =>
      rw [List.replicate_succ', ofDigits_concat, ih]
      rfl
  have h := ofDigits_digits n
  unfold ofDigits padded at *
  rw [List.foldl_append, hzeros]
  exact h

theorem length_padded {width n : Nat} (hw : 0 < width) (h : n < Nat.pow 10 width) :
    (padded width n).length = width := by
  have hle := length_digits_le hw h
  unfold padded
  rw [List.length_append, List.length_replicate]
  omega

theorem padded_ne_nil (width n : Nat) : padded width n ≠ [] :=
  List.append_ne_nil_of_right_ne_nil _ (digits_ne_nil n)

/-! ## Digits in a text -/

/-- The text does not go on with a digit. -/
def EndsDigits : List Char → Prop
  | [] => True
  | c :: _ => isDigit c = false

theorem takeWhile_isDigit_append {run rest : List Char} (hd : AreDigits run)
    (hr : EndsDigits rest) : (run ++ rest).takeWhile isDigit = run := by
  rw [List.takeWhile_append_of_pos hd]
  cases rest with
  | nil => exact List.append_nil run
  | cons c rest =>
    have hc : ¬ isDigit c = true := Bool.not_eq_true _ ▸ hr
    rw [List.takeWhile_cons_of_neg hc, List.append_nil]

theorem dropWhile_isDigit_append {run rest : List Char} (hd : AreDigits run)
    (hr : EndsDigits rest) : (run ++ rest).dropWhile isDigit = rest := by
  have h := List.takeWhile_append_dropWhile (p := isDigit) (l := run ++ rest)
  rw [takeWhile_isDigit_append hd hr] at h
  exact List.append_cancel_left h

/-- A digit differs from what is no digit. -/
theorem ne_of_isDigit {c d : Char} (hc : isDigit c = true) (hd : isDigit d = false) : c ≠ d := by
  rintro rfl
  rw [hc] at hd
  cases hd

theorem isBlank_of_isDigit {c : Char} (h : isDigit c = true) : isBlank c = false := by
  simp only [isDigit, Bool.and_eq_true, decide_eq_true_eq] at h
  simp only [isBlank, Bool.or_eq_false_iff, Bool.and_eq_false_iff, decide_eq_false_iff_not,
    beq_eq_false_iff_ne]
  omega

theorem AreDigits.not_isBlank {run : List Char} (hd : AreDigits run) :
    ∀ c ∈ run, isBlank c = false :=
  fun c hc => isBlank_of_isDigit (hd c hc)

/-! ## Blanks -/

theorem trimStart_eq_self {s : List Char} (h : ∀ c, s.head? = some c → isBlank c = false) :
    trimStart s = s := by
  cases s with
  | nil => rfl
  | cons c s => exact List.dropWhile_cons_of_neg (by rw [h c rfl]; exact Bool.false_ne_true)

/-- A text that begins with characters other than blanks has no blanks in front. -/
theorem trimStart_append {s : List Char} (hs : ∀ c ∈ s, isBlank c = false) (hne : s ≠ [])
    (rest : List Char) : trimStart (s ++ rest) = s ++ rest := by
  cases s with
  | nil => exact absurd rfl hne
  | cons c s =>
    refine trimStart_eq_self fun d hd => ?_
    cases hd
    exact hs c List.mem_cons_self

theorem trimStart_blanks {front : List Char} (hfront : ∀ c ∈ front, isBlank c = true)
    (rest : List Char) : trimStart (front ++ rest) = trimStart rest :=
  List.dropWhile_append_of_pos hfront

/-- A text is cut in two before its first character that is not blank. -/
private theorem trimStart_parts (s : List Char) :
    (∃ front, (∀ c ∈ front, isBlank c = true) ∧ s = front ++ trimStart s) ∧
      ∀ c, (trimStart s).head? = some c → isBlank c = false := by
  refine ⟨⟨s.takeWhile isBlank, List.all_eq_true.1 List.all_takeWhile,
    List.takeWhile_append_dropWhile.symm⟩, fun c hc => ?_⟩
  have h := List.head?_dropWhile_not isBlank s
  unfold trimStart at hc
  rw [hc] at h
  exact h

/-- A text without the blanks at its two ends. Blanks inside are left. -/
structure Trims (s core : List Char) : Prop where
  parts : ∃ front back, s = front ++ (core ++ back) ∧ (∀ c ∈ front, isBlank c = true) ∧
    ∀ c ∈ back, isBlank c = true
  first : ∀ c, core.head? = some c → isBlank c = false
  last : ∀ c, core.getLast? = some c → isBlank c = false

private theorem Trims.trim_eq {s core : List Char} (h : Trims s core) : trim s = core := by
  obtain ⟨⟨front, back, rfl, hfront, hback⟩, hfirst, hlast⟩ := h
  unfold trim trimEnd
  rw [trimStart_blanks hfront]
  cases core with
  | nil =>
    have hempty := trimStart_blanks hback []
    rw [List.append_nil] at hempty
    rw [List.nil_append, hempty]
    rfl
  | cons c core =>
    have hstart : trimStart (c :: core ++ back) = c :: core ++ back := trimStart_eq_self hfirst
    have hend : trimStart (c :: core).reverse = (c :: core).reverse :=
      trimStart_eq_self fun d hd => hlast d (by rwa [← List.head?_reverse])
    rw [hstart, List.reverse_append]
    refine (congrArg List.reverse (trimStart_blanks ?_ _)).trans ?_
    · exact fun d hd => hback d (List.mem_reverse.1 hd)
    · rw [hend, List.reverse_reverse]

private theorem trims_trim (s : List Char) : Trims s (trim s) := by
  obtain ⟨⟨front, hfront, hs⟩, hfirst⟩ := trimStart_parts s
  obtain ⟨⟨back, hback, hrest⟩, hlast⟩ := trimStart_parts (trimStart s).reverse
  have hstart : trimStart s = trim s ++ back.reverse := by
    have h := congrArg List.reverse hrest
    rwa [List.reverse_reverse, List.reverse_append] at h
  refine ⟨⟨front, back.reverse, ?_, hfront, fun c hc => hback c (List.mem_reverse.1 hc)⟩,
    fun c hc => hfirst c ?_, fun c hc => hlast c ?_⟩
  · rw [← hstart]
    exact hs
  · rw [hstart, List.head?_append, hc]
    rfl
  · rwa [← List.getLast?_reverse]

/-- **What is left of a text** is the one part with blanks around it and none at its ends. -/
theorem trims_iff {s core : List Char} : Trims s core ↔ core = trim s :=
  ⟨fun h => h.trim_eq.symm, fun h => h ▸ trims_trim s⟩

/-- Blanks at the ends of a text without blanks go. -/
theorem trim_blanks {front s back : List Char} (hfront : ∀ c ∈ front, isBlank c = true)
    (hs : ∀ c ∈ s, isBlank c = false) (hback : ∀ c ∈ back, isBlank c = true) :
    trim (front ++ (s ++ back)) = s :=
  Trims.trim_eq ⟨⟨front, back, rfl, hfront, hback⟩,
    fun c hc => hs c (List.mem_of_mem_head? hc), fun c hc => hs c (List.mem_of_mem_getLast? hc)⟩

/-! ## Reading -/

/-- Appending digits never makes a number smaller. -/
theorem le_foldl_digits (run : List Char) (n : Nat) :
    n ≤ run.foldl (fun n c => 10 * n + digitValue c) n := by
  induction run generalizing n with
  | nil => exact Nat.le_refl n
  | cons c run ih => exact Nat.le_trans (by omega) (ih (10 * n + digitValue c))

theorem readDigits_ok {limit : Nat} {onExcess : IntegerError} {run : List Char}
    (hd : AreDigits run) {n : Nat}
    (h : run.foldl (fun n c => 10 * n + digitValue c) n ≤ limit) :
    readDigits limit onExcess n run =
      .ok (run.foldl (fun n c => 10 * n + digitValue c) n) := by
  induction run generalizing n with
  | nil => rfl
  | cons c run ih =>
    obtain ⟨hc, hrun⟩ := List.forall_mem_cons.1 hd
    have hle : 10 * n + digitValue c ≤ limit := Nat.le_trans (le_foldl_digits run _) h
    unfold readDigits
    rw [if_pos hc]
    dsimp only
    rw [if_pos hle]
    exact ih hrun h

theorem readDigits_eq_ok_iff {limit : Nat} {onExcess : IntegerError} {run : List Char} {n m : Nat}
    (hn : n ≤ limit) :
    readDigits limit onExcess n run = .ok m ↔
      AreDigits run ∧ run.foldl (fun n c => 10 * n + digitValue c) n = m ∧ m ≤ limit := by
  constructor
  · intro h
    induction run generalizing n with
    | nil =>
      cases h
      exact ⟨List.forall_mem_nil _, rfl, hn⟩
    | cons c run ih =>
      unfold readDigits at h
      dsimp only at h
      split at h
      · rename_i hc
        split at h
        · rename_i hle
          obtain ⟨hrun, hm⟩ := ih hle h
          exact ⟨List.forall_mem_cons.2 ⟨hc, hrun⟩, hm⟩
        · cases h
      · cases h
  · rintro ⟨hd, rfl, hm⟩
    exact readDigits_ok hd hm

theorem readMagnitude_eq_ok_iff {limit : Nat} {onExcess : IntegerError} {run : List Char}
    {n : Nat} :
    readMagnitude limit onExcess run = .ok n ↔
      (AreDigits run ∧ run ≠ []) ∧ ofDigits run = n ∧ n ≤ limit := by
  cases run with
  | nil =>
    constructor
    · intro h
      cases h
    · rintro ⟨⟨-, h⟩, -⟩
      exact absurd rfl h
  | cons c run =>
    rw [and_iff_left (List.cons_ne_nil c run)]
    exact readDigits_eq_ok_iff (Nat.zero_le limit)

/-- A natural number in digits, with at most a plus sign in front. -/
inductive SpellsNat : Nat → List Char → Prop
  | plain {run : List Char} (hd : AreDigits run) (hne : run ≠ []) : SpellsNat (ofDigits run) run
  | plus {run : List Char} (hd : AreDigits run) (hne : run ≠ []) :
      SpellsNat (ofDigits run) ('+' :: run)

theorem SpellsNat.not_isBlank {n : Nat} {s : List Char} (h : SpellsNat n s) :
    ∀ c ∈ s, isBlank c = false := by
  cases h with
  | plain hd _ => exact hd.not_isBlank
  | plus hd _ => exact List.forall_mem_cons.2 ⟨by decide, hd.not_isBlank⟩

/-- **What is read as a number** is digits, however many, with at most a plus sign, that stand for
a number up to the limit. -/
theorem readNat_eq_ok_iff {limit n : Nat} {s : List Char} :
    readNat limit s = .ok n ↔ SpellsNat n s ∧ n ≤ limit := by
  unfold readNat
  split
  · constructor
    · intro h
      cases h
    · rintro ⟨⟨_, hne⟩, -⟩
      exact absurd rfl hne
  · rename_i run
    rw [readMagnitude_eq_ok_iff]
    constructor
    · rintro ⟨⟨hd, hne⟩, rfl, hle⟩
      exact ⟨.plus hd hne, hle⟩
    · rintro ⟨hd | ⟨hd, hne⟩, hle⟩
      · cases hd '+' List.mem_cons_self
      · exact ⟨⟨hd, hne⟩, rfl, hle⟩
  · rename_i hplus
    rw [readMagnitude_eq_ok_iff]
    constructor
    · rintro ⟨⟨hd, hne⟩, rfl, hle⟩
      exact ⟨.plain hd hne, hle⟩
    · rintro ⟨⟨hd, hne⟩ | _, hle⟩
      · exact ⟨⟨hd, hne⟩, rfl, hle⟩
      · exact absurd rfl (hplus _)

end Lookout.Text
