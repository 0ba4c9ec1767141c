import Lookout.Json.Numeral
import Lookout.Json.Quoted

/-!
# Passing over JSON values

`Json.skipValue?` finds the end of the value at the start of a text without making out what the
value is. So arrays and objects may nest as deep as they like, numbers may have any size, and
escaped surrogates may stand alone in strings; all else must be as in any JSON text.

The brackets that are still to be closed are kept on a stack (`Json.skipFrom?`).
-/

namespace Lookout.Json

/-- The blanks of JSON. -/
def isSpace (c : Char) : Bool :=
  c == ' ' || c == '\n' || c == '\t' || c == '\r'

/-- The text after its leading blanks. -/
def skipSpace (s : List Char) : List Char :=
  s.dropWhile isSpace

/-- The text after a value that is neither array nor object. -/
def skipScalar? : List Char → Option (List Char)
  | 'n' :: 'u' :: 'l' :: 'l' :: r => some r
  | 't' :: 'r' :: 'u' :: 'e' :: r => some r
  | 'f' :: 'a' :: 'l' :: 's' :: 'e' :: r => some r
  | '"' :: r => skipString? r
  | s => (Numeral.read? s).map (·.2)

/-- The text after the name of a member and its colon. -/
def skipName? (s : List Char) : Option (List Char) :=
  match skipSpace s with
  | '"' :: r =>
    match (skipString? r).map skipSpace with
    | some (':' :: r) => some r
    | _ => none
  | _ => none

/-- The text after what stands in front of a value inside brackets: in an object, a name. -/
def skipToValue? (closer : Char) (s : List Char) : Option (List Char) :=
  if closer = '\x7d' then skipName? s else some s

/-- Where in a text a value is passed over. -/
inductive SkipStage
  /-- In front of a value. -/
  | atValue
  /-- Behind an opening bracket. -/
  | afterOpening
  /-- Behind a value. -/
  | afterValue
  deriving DecidableEq, Repr

/-- Goes on to the end of the outermost value; `closers` are the brackets to come, the next one
first. Of two stages in a row at least one passes a character, so `2 * s.length + 2` units of fuel
are enough. -/
def skipFrom? : (fuel : Nat) → SkipStage → (closers : List Char) → List Char → Option (List Char)
  | 0, _, _, _ => none
  | fuel + 1, .atValue, closers, s =>
    match skipSpace s with
    | '[' :: r => skipFrom? fuel .afterOpening (']' :: closers) r
    | '\x7b' :: r => skipFrom? fuel .afterOpening ('\x7d' :: closers) r
    | r =>
      match skipScalar? r with
      | none => none
      | some r => skipFrom? fuel .afterValue closers r
  | _ + 1, .afterValue, [], s => some s
  | _ + 1, .afterOpening, [], _ => none
  | fuel + 1, .afterOpening, closer :: closers, s =>
    match skipSpace s with
    | [] => none
    | c :: r =>
      if c = closer then skipFrom? fuel .afterValue closers r
      else
        match skipToValue? closer (c :: r) with
        | none => none
        | some r => skipFrom? fuel .atValue (closer :: closers) r
  | fuel + 1, .afterValue, closer :: closers, s =>
    match skipSpace s with
    | [] => none
    | c :: r =>
      if c = closer then skipFrom? fuel .afterValue closers r
      else if c = ',' then
        match skipToValue? closer r with
        | none => none
        | some r => skipFrom? fuel .atValue (closer :: closers) r
      else none

/-- The text after the value at its start. -/
def skipValue? (fuel : Nat) (s : List Char) : Option (List Char) :=
  skipFrom? fuel .atValue [] s

end Lookout.Json
