import Lookout.Json.Reader
import Lookout.Json.Writer
import Lookout.Proofs.Digits

/-!
# JSON texts that are read back

What `Json.render` writes, `Json.read` reads as the same value.

- `Json.Fits`: the values of which this is true: integers of 64 bits, no doubles, nothing
  unreadable, and arrays and objects nested at most so deep.
- `Shape.Keeps`: reading a value of that shape passes over no member of it.
- `Json.readString?_stringChars`, `Json.readScalar_ofInt`: strings and integers are read back.
- `Json.read_chars`: a value is read back to its last character.

Each reader is stated on a written part with a text after it, which it hands on untouched.
-/

namespace Lookout.Json

open Text

/-! ## Values and shapes -/

/-- A value without doubles whose integers have 64 bits and whose brackets nest at most `depth`
deep. -/
inductive Fits : (depth : Nat) → Json → Prop
  | null {depth : Nat} : Fits depth .null
  | bool {depth : Nat} (b : Bool) : Fits depth (.bool b)
  | string {depth : Nat} (s : String) : Fits depth (.string s)
  | integer {depth : Nat} {n : Int} (low : -9223372036854775808 ≤ n) (high : n ≤ maxCount) :
    Fits depth (.integer n)
  | array {depth : Nat} {items : List Json} (h : ∀ j ∈ items, Fits depth j) :
    Fits (depth + 1) (.array items)
  | object {depth : Nat} {members : List (String × Json)} (h : ∀ m ∈ members, Fits depth m.2) :
    Fits (depth + 1) (.object members)

/-- Nothing of the value is passed over when it is read as a value of that shape. -/
def Shape.Keeps : Shape → Json → Prop
  | .record names, .object members => ∀ m ∈ members, m.1 ∈ names
  | .list item, .array items => ∀ j ∈ items, item.Keeps j
  | _, _ => True

theorem Shape.keeps_item {shape : Shape} {items : List Json} (h : shape.Keeps (.array items)) :
    ∀ j ∈ items, shape.item.Keeps j := by
  cases shape with
  | any => exact fun _ _ => trivial
  | record names =>
    intro j _
    unfold Shape.item Shape.Keeps
    trivial
  | list item => exact h

theorem Shape.skips_of_keeps {shape : Shape} {members : List (String × Json)}
    (h : shape.Keeps (.object members)) : ∀ m ∈ members, shape.skips m.1 = false := by
  intro m hm
  cases shape with
  | any => rfl
  | record names =>
    have hkept : names.contains m.1 = true := List.contains_iff_mem.2 (h m hm)
    exact congrArg (!·) hkept
  | list item => rfl

/-! ## Strings -/

theorem readChars?_unit {a b c d : Char} {unit : Nat} (h : hexUnit? a b c d = some unit)
    (hunit : unit < 0x20) (acc r : List Char) :
    readChars? acc ('\\' :: 'u' :: a :: b :: c :: d :: r) =
      readChars? (Char.ofNat unit :: acc) r := by
  have hhigh : isHighSurrogate unit = false := by
    unfold isHighSurrogate
    simp only [Bool.and_eq_false_iff, decide_eq_false_iff_not]
    omega
  have hlow : isLowSurrogate unit = false := by
    unfold isLowSurrogate
    simp only [Bool.and_eq_false_iff, decide_eq_false_iff_not]
    omega
  rw [readChars?, h]
  simp only [hhigh, hlow, Bool.false_eq_true, if_false]

theorem readChars?_plain {c : Char} (hquote : c ≠ '"') (hslash : c ≠ '\\')
    (hcontrol : isControl c = false) (acc r : List Char) :
    readChars? acc (c :: r) = readChars? (c :: acc) r := by
  rw [readChars?.eq_def]
  split
  · rename_i heq
    cases heq
  · rename_i heq
    cases heq
    exact absurd rfl hquote
  · rename_i heq
    cases heq
    exact absurd rfl hslash
  · rename_i heq
    cases heq
    exact absurd rfl hslash
  · rename_i heq
    cases heq
    rw [if_neg (by rw [hcontrol]; exact Bool.false_ne_true)]

/-- **A character is read from its escape.** -/
theorem readChars?_escaped (c : Char) (acc r : List Char) :
    readChars? acc (escaped c ++ r) = readChars? (c :: acc) r := by
  unfold escaped
  -- First the characters whose escape is one letter.
  split
  · rfl
  · rfl
  · rfl
  · rfl
  · rfl
  · rfl
  · rfl
  · rename_i hquote hslash _ _ _ _ _
    split
    · rename_i hcontrol
      have hunit : hexUnit? '0' '0' (hexDigit (c.toNat / 16)) (hexDigit (c.toNat % 16)) =
          some (0 * 16 * 256 + c.toNat / 16 * 16 + c.toNat % 16) := by
        unfold hexUnit?
        rw [hexValue?_hexDigit (by omega), hexValue?_hexDigit (by omega)]
        rfl
      have hvalue : 0 * 16 * 256 + c.toNat / 16 * 16 + c.toNat % 16 = c.toNat := by omega
      rw [hvalue] at hunit
      refine (readChars?_unit hunit hcontrol acc r).trans ?_
      rw [Char.ofNat_toNat]
    · rename_i hcontrol
      exact readChars?_plain hquote hslash (decide_eq_false hcontrol) acc r

theorem readChars?_flatMap (cs acc r : List Char) :
    readChars? acc (cs.flatMap escaped ++ '"' :: r) = some (acc.reverse ++ cs, r) := by
  induction cs generalizing acc with
  | nil => exact congrArg (fun l => some (l, r)) (List.append_nil _).symm
  | cons c cs ih =>
    rw [List.flatMap_cons, List.append_assoc, readChars?_escaped, ih, List.reverse_cons,
      List.append_assoc, List.singleton_append]

/-- **A string is read from its text.** -/
theorem readString?_stringChars (s : String) (r : List Char) :
    ∃ t, stringChars s ++ r = '"' :: t ∧ readString? t = some (s, r) := by
  refine ⟨s.toList.flatMap escaped ++ '"' :: r, ?_, ?_⟩
  · unfold stringChars
    rw [List.append_assoc, List.cons_append, List.singleton_append]
  · unfold readString?
    rw [readChars?_flatMap]
    exact congrArg (fun name => some (name, r)) String.ofList_toList

/-! ## Integers -/

/-- The text ends here, or goes on with what may stand behind a value. -/
def EndsValue : List Char → Prop
  | [] => True
  | c :: _ => c = ',' ∨ c = ']' ∨ c = '\x7d'

theorem EndsValue.endsDigits {rest : List Char} (h : EndsValue rest) : EndsDigits rest := by
  cases rest with
  | nil => trivial
  | cons c rest => rcases h with rfl | rfl | rfl <;> rfl

theorem EndsValue.readFraction? {rest : List Char} (h : EndsValue rest) :
    Numeral.readFraction? rest = some ([], rest) := by
  cases rest with
  | nil => rfl
  | cons c rest => rcases h with rfl | rfl | rfl <;> rfl

theorem EndsValue.readExponent? {rest : List Char} (h : EndsValue rest) :
    Numeral.readExponent? rest = some (none, rest) := by
  cases rest with
  | nil => rfl
  | cons c rest => rcases h with rfl | rfl | rfl <;> rfl

namespace Numeral

theorem takeDigits_all {run : List Char} {n : Nat}
    (h : run.foldl (fun n c => 10 * n + digitValue c) n ≤ maxCount) :
    takeDigits n run = (run.foldl (fun n c => 10 * n + digitValue c) n, []) := by
  induction run generalizing n with
  | nil => rfl
  | cons c run ih =>
    have hle : 10 * n + digitValue c ≤ maxCount := Nat.le_trans (le_foldl_digits run _) h
    unfold takeDigits
    rw [if_pos hle]
    exact ih h

theorem takeDigits_digits {n : Nat} (h : n ≤ maxCount) : takeDigits 0 (digits n) = (n, []) := by
  have hvalue : (digits n).foldl (fun n c => 10 * n + digitValue c) 0 = n := ofDigits_digits n
  have htake := takeDigits_all (Nat.le_trans (Nat.le_of_eq hvalue) h)
  rwa [hvalue] at htake

theorem readWhole?_digits (n : Nat) {rest : List Char} (h : EndsDigits rest) :
    readWhole? (digits n ++ rest) = some (digits n, rest) := by
  rcases Nat.eq_zero_or_pos n with rfl | hpos
  · rw [digits_of_lt (by decide)]
    cases rest with
    | nil => rfl
    | cons c rest =>
      have hc : ¬ isDigit c = true := Bool.not_eq_true _ ▸ h
      exact if_neg hc
  · obtain ⟨d, run, hdigits, hd, hlt⟩ := exists_digits_eq hpos
    have hfirst : digitChar d ≠ '0' := by
      have hall : ∀ d < 10, 0 < d → digitChar d ≠ '0' := by decide
      exact hall d hlt hd
    have htake := takeWhile_isDigit_append (areDigits_digits n) h
    have hdrop := dropWhile_isDigit_append (areDigits_digits n) h
    rw [hdigits] at htake hdrop ⊢
    unfold readWhole?
    split
    · rename_i heq
      exact absurd (List.cons.inj heq).1 hfirst
    · rw [htake, hdrop]
      rfl

theorem read?_unsigned {s whole rest : List Char} (hsign : ∀ r, s ≠ '-' :: r)
    (hwhole : readWhole? s = some (whole, rest)) (h : EndsValue rest) :
    read? s = some ({ negative := false, whole, fraction := [], power? := none }, rest) := by
  unfold read?
  split
  rename_i heq
  split at heq
  · exact absurd rfl (hsign _)
  · cases heq
    simp only [hwhole, Option.bind_eq_bind, Option.bind_some, h.readFraction?, h.readExponent?]
    rfl

theorem read?_minus {s whole rest : List Char} (hwhole : readWhole? s = some (whole, rest))
    (h : EndsValue rest) :
    read? ('-' :: s) =
      some ({ negative := true, whole, fraction := [], power? := none }, rest) := by
  unfold read?
  simp only [hwhole, Option.bind_eq_bind, Option.bind_some, h.readFraction?, h.readExponent?]
  rfl

/-- **A whole number is read from its digits.** -/
theorem read?_ofInt (n : Int) {rest : List Char} (h : EndsValue rest) :
    read? (ofInt n ++ rest) =
      some ({ negative := n < 0, whole := digits n.natAbs, fraction := [], power? := none },
        rest) := by
  cases n with
  | ofNat m =>
    have hsign : ∀ r, digits m ++ rest ≠ '-' :: r := by
      intro r heq
      cases hm : digits m with
      | nil => exact digits_ne_nil m hm
      | cons c run =>
        rw [hm, List.cons_append] at heq
        have hc : isDigit c = true := areDigits_digits m c (hm ▸ List.mem_cons_self)
        exact ne_of_isDigit hc rfl (List.cons.inj heq).1
    have hneg : decide (Int.ofNat m < 0) = false :=
      decide_eq_false (Int.not_lt.2 (Int.natCast_nonneg m))
    rw [hneg]
    exact read?_unsigned hsign (readWhole?_digits m h.endsDigits) h
  | negSucc m =>
    rw [decide_eq_true (Int.negSucc_lt_zero m)]
    exact read?_minus (readWhole?_digits (m + 1) h.endsDigits) h

theorem wholeValue?_of_nonneg {n : Nat} (h : n ≤ maxCount) :
    wholeValue? false (digits n) = some (.integer n) := by
  unfold wholeValue?
  rw [takeDigits_digits h]
  exact if_pos ⟨rfl, Bool.false_ne_true⟩

theorem wholeValue?_of_neg {n : Nat} (hpos : 0 < n) (h : n ≤ 9223372036854775808) :
    wholeValue? true (digits n) = some (.integer (-n)) := by
  have hle : n ≤ maxCount := Nat.le_trans h (by decide)
  unfold wholeValue?
  rw [takeDigits_digits hle]
  exact (if_neg fun hnot => hnot.2 rfl).trans (if_pos ⟨rfl, hpos, h⟩)

/-- **An integer of 64 bits is the value of its digits.** -/
theorem value?_digits {n : Int} (low : -9223372036854775808 ≤ n) (high : n ≤ maxCount) :
    value? { negative := n < 0, whole := digits n.natAbs, fraction := [], power? := none } =
      some (.integer n) := by
  have hwhole (negative : Bool) (run : List Char) :
      value? { negative, whole := run, fraction := [], power? := none } =
        wholeValue? negative run := rfl
  rw [hwhole]
  by_cases hn : n < 0
  · have hneg : (-(n.natAbs : Int)) = n := by omega
    rw [decide_eq_true hn, wholeValue?_of_neg (by omega) (by omega), hneg]
  · have hpos : (n.natAbs : Int) = n := by omega
    have hle : n.natAbs ≤ maxCount := by omega
    rw [decide_eq_false hn, wholeValue?_of_nonneg hle, hpos]

end Numeral

/-! ## Values without brackets -/

/-- An integer begins with a minus sign or a digit. -/
theorem exists_ofInt_eq (n : Int) :
    ∃ c run, ofInt n = c :: run ∧ ∀ d, d ≠ '-' → isDigit d = false → c ≠ d := by
  cases n with
  | ofNat m =>
    cases hm : digits m with
    | nil => exact absurd hm (digits_ne_nil m)
    | cons c run =>
      have hc : isDigit c = true := areDigits_digits m c (hm ▸ List.mem_cons_self)
      exact ⟨c, run, hm, fun _ _ hd => ne_of_isDigit hc hd⟩
  | negSucc m => exact ⟨'-', digits (m + 1), rfl, fun _ hd _ => hd.symm⟩

/-- **An integer is read from its text.** -/
theorem readScalar_ofInt {n : Int} (low : -9223372036854775808 ≤ n) (high : n ≤ maxCount)
    {rest : List Char} (h : EndsValue rest) :
    readScalar (ofInt n ++ rest) = { value := .integer n, rest? := some rest } := by
  have hread : (Numeral.read? (ofInt n ++ rest)).bind (fun p => p.1.value?.map (·, p.2)) =
      some (.integer n, rest) := by
    rw [Numeral.read?_ofInt n h, Option.bind_some, Numeral.value?_digits low high, Option.map_some]
  obtain ⟨c, run, hchars, hne⟩ := exists_ofInt_eq n
  rw [hchars] at hread ⊢
  unfold readScalar
  split
  · rename_i heq
    exact absurd (List.cons.inj heq).1 (hne 'n' (by decide) rfl)
  · rename_i heq
    exact absurd (List.cons.inj heq).1 (hne 't' (by decide) rfl)
  · rename_i heq
    exact absurd (List.cons.inj heq).1 (hne 'f' (by decide) rfl)
  · rename_i heq
    exact absurd (List.cons.inj heq).1 (hne '"' (by decide) rfl)
  · exact congrArg Reading.ofOption hread

/-! ## First characters -/

theorem itemChars_cons (j : Json) {items : List Json} (h : items ≠ []) :
    itemChars (j :: items) = j.chars ++ ',' :: itemChars items := by
  rw [itemChars]
  exact h

theorem memberChars_cons (name : String) (j : Json) {members : List (String × Json)}
    (h : members ≠ []) :
    memberChars ((name, j) :: members) =
      stringChars name ++ ':' :: (j.chars ++ ',' :: memberChars members) := by
  rw [memberChars]
  exact h

theorem exists_itemChars_eq (j : Json) (items : List Json) :
    ∃ tail, itemChars (j :: items) = j.chars ++ tail := by
  cases items with
  | nil => exact ⟨[], by rw [itemChars, List.append_nil]⟩
  | cons k items => exact ⟨_, itemChars_cons j (List.cons_ne_nil k items)⟩

theorem exists_memberChars_eq (m : String × Json) (members : List (String × Json)) :
    ∃ tail, memberChars (m :: members) = '"' :: tail := by
  obtain ⟨name, j⟩ := m
  cases members with
  | nil => exact ⟨_, by rw [memberChars]; rfl⟩
  | cons k members => exact ⟨_, memberChars_cons name j (List.cons_ne_nil k members)⟩

/-- A value begins with a character that is neither a blank nor a closing bracket. -/
theorem Fits.exists_chars_eq {depth : Nat} {j : Json} (h : Fits depth j) :
    ∃ c run, j.chars = c :: run ∧ isSpace c = false ∧ c ≠ ']' := by
  cases h with
  | null => exact ⟨'n', _, rfl, rfl, by decide⟩
  | bool b =>
    cases b
    · exact ⟨'f', _, rfl, rfl, by decide⟩
    · exact ⟨'t', _, rfl, rfl, by decide⟩
  | string s => exact ⟨'"', _, rfl, rfl, by decide⟩
  | array _ => exact ⟨'[', _, rfl, rfl, by decide⟩
  | object _ => exact ⟨'\x7b', _, rfl, rfl, by decide⟩
  | @integer _ n _ _ =>
    obtain ⟨c, run, hchars, hne⟩ := exists_ofInt_eq n
    have hspace : isSpace c = false := by
      unfold isSpace
      simp only [Bool.or_eq_false_iff, beq_eq_false_iff_ne]
      exact ⟨⟨⟨hne ' ' (by decide) rfl, hne '\n' (by decide) rfl⟩, hne '\t' (by decide) rfl⟩,
        hne '\r' (by decide) rfl⟩
    exact ⟨c, run, hchars, hspace, hne ']' (by decide) rfl⟩

/-! ## Steps of reading -/

section Steps

variable {fuel depth : Nat} {shape : Shape} {c : Char} {r s : List Char} {j : Json}

theorem skipSpace_cons (h : isSpace c = false) (r : List Char) : skipSpace (c :: r) = c :: r :=
  List.dropWhile_cons_of_neg (by rw [h]; exact Bool.false_ne_true)

theorem readValue_scalar (hc : isSpace c = false) (hbracket : c ≠ '[') (hbrace : c ≠ '\x7b') :
    readValue (fuel + 1) depth shape (c :: r) = readScalar (c :: r) := by
  rw [readValue, skipSpace_cons hc]
  split
  · rename_i heq
    exact absurd (List.cons.inj heq).1 hbracket
  · rename_i heq
    exact absurd (List.cons.inj heq).1 hbrace
  · rfl

theorem readValue_items (hc : isSpace c = false) (hbracket : c ≠ ']') :
    readValue (fuel + 1) (depth + 2) shape ('[' :: c :: r) =
      readItems fuel (depth + 1) shape.item (c :: r) [] := by
  rw [readValue, skipSpace_cons rfl]
  refine (if_neg (by omega : ¬ depth + 2 ≤ 1)).trans ?_
  rw [skipSpace_cons hc]
  split
  · rename_i heq
    exact absurd (List.cons.inj heq).1 hbracket
  · rfl

theorem readValue_members :
    readValue (fuel + 1) (depth + 2) shape ('\x7b' :: '"' :: r) =
      readMembers fuel (depth + 1) shape ('"' :: r) [] := by
  rw [readValue, skipSpace_cons rfl]
  refine (if_neg (by omega : ¬ depth + 2 ≤ 1)).trans ?_
  rw [skipSpace_cons rfl]
  rfl

variable {acc : List Json}

theorem readItems_comma
    (h : readValue fuel depth shape s = { value := j, rest? := some (',' :: r) }) :
    readItems (fuel + 1) depth shape s acc = readItems fuel depth shape r (j :: acc) := by
  rw [readItems, h]
  rfl

theorem readItems_last
    (h : readValue fuel depth shape s = { value := j, rest? := some (']' :: r) }) :
    readItems (fuel + 1) depth shape s acc =
      { value := .array (acc.reverse ++ [j]), rest? := some r } := by
  rw [readItems, h, ← List.reverse_cons]
  rfl

variable {name : String} {members : List (String × Json)}

/-- What follows a member decides how reading goes on. -/
theorem readMembers_member {out : Reading} (hskip : shape.skips name = false)
    (h : readValue fuel depth .any s = { value := j, rest? := some r })
    (hout : (match skipSpace r with
      | ',' :: r => readMembers fuel depth shape r ((name, j) :: members)
      | '\x7d' :: r => { value := .object ((name, j) :: members).reverse, rest? := some r }
      | _ => .stopped (.object (("", .unreadable none) :: (name, j) :: members).reverse)) = out) :
    readMembers (fuel + 1) depth shape (stringChars name ++ ':' :: s) members = out := by
  obtain ⟨t, hquote, hname⟩ := readString?_stringChars name (':' :: s)
  rw [readMembers, hquote, skipSpace_cons rfl]
  split
  · rename_i heq
    cases heq
    rw [hname]
    dsimp only
    rw [skipSpace_cons rfl, hskip]
    split
    · rename_i heq
      cases heq
      rw [if_neg Bool.false_ne_true, h]
      exact hout
    · rename_i hcolon
      exact absurd rfl (hcolon s)
  · rename_i hopen
    exact absurd rfl (hopen t)

theorem readMembers_comma (hskip : shape.skips name = false)
    (h : readValue fuel depth .any s = { value := j, rest? := some (',' :: r) }) :
    readMembers (fuel + 1) depth shape (stringChars name ++ ':' :: s) members =
      readMembers fuel depth shape r ((name, j) :: members) :=
  readMembers_member hskip h rfl

theorem readMembers_last (hskip : shape.skips name = false)
    (h : readValue fuel depth .any s = { value := j, rest? := some ('\x7d' :: r) }) :
    readMembers (fuel + 1) depth shape (stringChars name ++ ':' :: s) members =
      { value := .object (members.reverse ++ [(name, j)]), rest? := some r } := by
  rw [← List.reverse_cons]
  exact readMembers_member hskip h rfl

end Steps

/-! ## Values -/

/-- The value is read from its text whatever follows the text. Reading an item takes one step for
the item and one for the list that it is in, and the item has a character at least: two steps for
each character are enough. -/
def ReadsBack (depth : Nat) (j : Json) : Prop :=
  ∀ (fuel : Nat) (shape : Shape) (rest : List Char), shape.Keeps j → EndsValue rest →
    2 * j.chars.length ≤ fuel →
      readValue fuel (depth + 1) shape (j.chars ++ rest) = { value := j, rest? := some rest }

variable {depth : Nat}

theorem readItems_itemChars {items : List Json} (hne : items ≠ [])
    (hread : ∀ j ∈ items, ReadsBack depth j) {fuel : Nat} {shape : Shape}
    (hkeeps : ∀ j ∈ items, shape.Keeps j) (hfuel : 2 * (itemChars items).length < fuel)
    (rest : List Char) (acc : List Json) :
    readItems fuel (depth + 1) shape (itemChars items ++ ']' :: rest) acc =
      { value := .array (acc.reverse ++ items), rest? := some rest } := by
  induction items generalizing fuel acc with
  | nil => exact absurd rfl hne
  | cons j items ih =>
    obtain ⟨hj, hitems⟩ := List.forall_mem_cons.1 hread
    obtain ⟨hkeep, hkeeps⟩ := List.forall_mem_cons.1 hkeeps
    obtain ⟨fuel, rfl⟩ : ∃ f, fuel = f + 1 := ⟨fuel - 1, by omega⟩
    cases items with
    | nil =>
      have hchars : itemChars [j] = j.chars := by rw [itemChars]
      rw [hchars] at hfuel ⊢
      exact readItems_last (hj _ _ _ hkeep (.inr (.inl rfl)) (by omega))
    | cons k items =>
      have hchars := itemChars_cons j (List.cons_ne_nil k items)
      rw [hchars, List.length_append, List.length_cons] at hfuel
      rw [hchars, List.append_assoc, List.cons_append,
        readItems_comma (hj _ _ _ hkeep (.inl rfl) (by omega)),
        ih (List.cons_ne_nil k items) hitems hkeeps (by omega), List.reverse_cons,
        List.append_assoc, List.singleton_append]

theorem readMembers_memberChars {members : List (String × Json)} (hne : members ≠ [])
    (hread : ∀ m ∈ members, ReadsBack depth m.2) {fuel : Nat} {shape : Shape}
    (hskips : ∀ m ∈ members, shape.skips m.1 = false)
    (hfuel : 2 * (memberChars members).length < fuel) (rest : List Char)
    (acc : List (String × Json)) :
    readMembers fuel (depth + 1) shape (memberChars members ++ '\x7d' :: rest) acc =
      { value := .object (acc.reverse ++ members), rest? := some rest } := by
  induction members generalizing fuel acc with
  | nil => exact absurd rfl hne
  | cons m members ih =>
    obtain ⟨name, j⟩ := m
    obtain ⟨hj, hmembers⟩ : ReadsBack depth j ∧ ∀ m ∈ members, ReadsBack depth m.2 :=
      List.forall_mem_cons.1 hread
    obtain ⟨hskip, hskips⟩ := List.forall_mem_cons.1 hskips
    obtain ⟨fuel, rfl⟩ : ∃ f, fuel = f + 1 := ⟨fuel - 1, by omega⟩
    cases members with
    | nil =>
      have hchars : memberChars [(name, j)] = stringChars name ++ ':' :: j.chars := by
        rw [memberChars]
      rw [hchars, List.length_append, List.length_cons] at hfuel
      rw [hchars, List.append_assoc, List.cons_append]
      exact readMembers_last hskip (hj _ _ _ trivial (.inr (.inr rfl)) (by omega))
    | cons k members =>
      have hchars := memberChars_cons name j (List.cons_ne_nil k members)
      rw [hchars, List.length_append, List.length_cons, List.length_append,
        List.length_cons] at hfuel
      rw [hchars, List.append_assoc, List.cons_append, List.append_assoc, List.cons_append,
        readMembers_comma hskip (hj _ _ _ trivial (.inl rfl) (by omega)),
        ih (List.cons_ne_nil k members) hmembers hskips (by omega), List.reverse_cons,
        List.append_assoc, List.singleton_append]

theorem ReadsBack.of_scalar {j : Json} {c : Char} {run : List Char} (hchars : j.chars = c :: run)
    (hspace : isSpace c = false) (hbracket : c ≠ '[') (hbrace : c ≠ '\x7b')
    (h : ∀ rest, EndsValue rest →
      readScalar (j.chars ++ rest) = { value := j, rest? := some rest }) :
    ReadsBack depth j := by
  intro fuel shape rest _ hrest hfuel
  have hread := h rest hrest
  rw [hchars] at hread hfuel ⊢
  obtain ⟨fuel, rfl⟩ : ∃ f, fuel = f + 1 := ⟨fuel - 1, by rw [List.length_cons] at hfuel; omega⟩
  exact (readValue_scalar hspace hbracket hbrace).trans hread

theorem ReadsBack.string (s : String) : ReadsBack depth (.string s) := by
  refine .of_scalar rfl rfl (by decide) (by decide) fun rest _ => ?_
  obtain ⟨t, hquote, hname⟩ := readString?_stringChars s rest
  have hread : readScalar ('"' :: t) =
      .ofOption ((readString? t).map fun p => (.string p.1, p.2)) := rfl
  rw [chars, hquote, hread, hname]
  rfl

theorem ReadsBack.integer {n : Int} (low : -9223372036854775808 ≤ n) (high : n ≤ maxCount) :
    ReadsBack depth (.integer n) := by
  obtain ⟨c, run, hchars, hne⟩ := exists_ofInt_eq n
  have hfits : Fits depth (.integer n) := .integer low high
  obtain ⟨_, _, hsame, hspace, -⟩ := hfits.exists_chars_eq
  cases hsame.symm.trans hchars
  exact .of_scalar hchars hspace (hne '[' (by decide) rfl) (hne '\x7b' (by decide) rfl)
    fun rest hrest => readScalar_ofInt low high hrest

theorem ReadsBack.array {items : List Json} (h : ∀ j ∈ items, Fits depth j)
    (hread : ∀ j ∈ items, ReadsBack depth j) : ReadsBack (depth + 1) (.array items) := by
  intro fuel shape rest hkeeps _ hfuel
  have hchars : (Json.array items).chars ++ rest = '[' :: (itemChars items ++ ']' :: rest) := by
    simp only [chars, List.cons_append, List.append_assoc, List.nil_append]
  have hlength : (Json.array items).chars.length = (itemChars items).length + 2 := by
    simp only [chars, List.cons_append, List.length_cons, List.length_append, List.length_nil]
  rw [hchars]
  obtain ⟨fuel, rfl⟩ : ∃ f, fuel = f + 1 := ⟨fuel - 1, by omega⟩
  cases items with
  | nil => rfl
  | cons j items =>
    -- The first item is no closing bracket, so the array is not read as an empty one.
    obtain ⟨c, run, hstart, hspace, hbracket⟩ :
        ∃ c run, itemChars (j :: items) = c :: run ∧ isSpace c = false ∧ c ≠ ']' := by
      obtain ⟨c, run, hj, hc⟩ := (h j List.mem_cons_self).exists_chars_eq
      obtain ⟨tail, htail⟩ := exists_itemChars_eq j items
      exact ⟨c, run ++ tail, by rw [htail, hj, List.cons_append], hc⟩
    have hitems := readItems_itemChars (List.cons_ne_nil j items) hread (Shape.keeps_item hkeeps)
      (by omega : 2 * _ < fuel) rest []
    rw [hstart] at hitems ⊢
    exact (readValue_items hspace hbracket).trans hitems

theorem ReadsBack.object {members : List (String × Json)}
    (hread : ∀ m ∈ members, ReadsBack depth m.2) : ReadsBack (depth + 1) (.object members) := by
  intro fuel shape rest hkeeps _ hfuel
  have hchars : (Json.object members).chars ++ rest =
      '\x7b' :: (memberChars members ++ '\x7d' :: rest) := by
    simp only [chars, List.cons_append, List.append_assoc, List.nil_append]
  have hlength : (Json.object members).chars.length = (memberChars members).length + 2 := by
    simp only [chars, List.cons_append, List.length_cons, List.length_append, List.length_nil]
  rw [hchars]
  obtain ⟨fuel, rfl⟩ : ∃ f, fuel = f + 1 := ⟨fuel - 1, by omega⟩
  cases members with
  | nil => rfl
  | cons m members =>
    obtain ⟨tail, hstart⟩ := exists_memberChars_eq m members
    have hmembers := readMembers_memberChars (List.cons_ne_nil m members) hread
      (Shape.skips_of_keeps hkeeps) (by omega : 2 * _ < fuel) rest []
    rw [hstart] at hmembers ⊢
    exact readValue_members.trans hmembers

/-- **A value that fits is read from its text.** -/
theorem Fits.readsBack {j : Json} (h : Fits depth j) : ReadsBack depth j := by
  induction h with
  | null => exact .of_scalar rfl rfl (by decide) (by decide) fun _ _ => rfl
  | bool b =>
    cases b with
    | false => exact .of_scalar rfl rfl (by decide) (by decide) fun _ _ => rfl
    | true => exact .of_scalar rfl rfl (by decide) (by decide) fun _ _ => rfl
  | string s => exact .string s
  | integer low high => exact .integer low high
  | array h ih => exact .array h ih
  | object _ ih => exact .object ih

/-- **A value is read from its text to the last character.** -/
theorem read_chars {j : Json} (h : Fits 127 j) {shape : Shape} (hkeeps : shape.Keeps j) :
    read shape j.chars = { value := j, rest? := some [] } := by
  have hread := h.readsBack (2 * j.chars.length + 2) shape [] hkeeps trivial (by omega)
  rwa [List.append_nil] at hread

end Lookout.Json
