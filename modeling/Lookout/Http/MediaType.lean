/-!
# Media types

`MediaType.isJson` recognises the header of a body in JSON: `application/json`, or an application
type with the suffix `+json`, in any case, with well-formed parameters or none.
-/

namespace Lookout.Http.MediaType

/-- The characters of types and of the names of parameters. -/
def isTokenChar (c : Char) : Bool :=
  c.isAlphanum || "!#$%&'*+-.^_`|~".toList.contains c

/-! ## Parameters -/

/-- The characters inside quoted values; a backslash is one like others. -/
def isQuotedChar (c : Char) : Bool :=
  0x20 ≤ c.toNat && c.toNat < 0x7F

/-- The text behind the next quote. -/
def behindQuote? : List Char → Option (List Char)
  | [] => none
  | '"' :: rest => some rest
  | c :: rest => if isQuotedChar c then behindQuote? rest else none

/-- The text behind a quoted value whose opening quote is passed. The value has at least one
character, so a quote at its start belongs to it. -/
def behindQuoted? : List Char → Option (List Char)
  | [] => none
  | c :: rest => if isQuotedChar c then behindQuote? rest else none

/-- The text behind the value of a parameter. Blanks may follow a quoted one. One that is not quoted
may be empty at the end of the text. -/
def behindValue? : List Char → Option (List Char)
  | '"' :: rest => (behindQuoted? rest).map fun s => s.dropWhile (· == ' ')
  | s =>
    let rest := s.dropWhile isTokenChar
    if (s.takeWhile isTokenChar).isEmpty && !rest.isEmpty then none else some rest

/-- The text behind a parameter. -/
def behindParameter? (s : List Char) : Option (List Char) :=
  match s.dropWhile isTokenChar with
  | '=' :: rest => if (s.takeWhile isTokenChar).isEmpty then none else behindValue? rest
  | _ => none

/-- The text is a list of parameters, each after a semicolon and blanks. A semicolon may stand alone
at the end. -/
def isParameters : (fuel : Nat) → List Char → Bool
  | 0, _ => false
  | _ + 1, [] => true
  | fuel + 1, ';' :: rest =>
    match rest.dropWhile (· == ' ') with
    | [] => true
    | s =>
      match behindParameter? s with
      | some s => isParameters fuel s
      | none => false
  | _ + 1, _ :: _ => false

/-! ## Types -/

/-- The subtype in front of a suffix, and the suffix: what follows the last plus sign that is not at
the start. -/
def splitSuffix (subtype : List Char) : List Char × Option (List Char) :=
  match subtype with
  | [] => ([], none)
  | c :: rest =>
    if rest.contains '+' then
      let suffix := (rest.reverse.takeWhile (· != '+')).reverse
      (c :: rest.take (rest.length - suffix.length - 1), some suffix)
    else (subtype, none)

/-- The type and subtype name a type whose bodies are JSON. -/
def isJsonName (type subtype : List Char) : Bool :=
  let (base, suffix) := splitSuffix subtype
  type == "application".toList && (base == "json".toList || suffix == some "json".toList)

/-- The header announces a body in JSON. -/
def isJson (header : String) : Bool :=
  let s := header.toList.map Char.toLower
  let type := s.takeWhile isTokenChar
  match s.dropWhile isTokenChar with
  | '/' :: rest =>
    let subtype := rest.takeWhile isTokenChar
    isJsonName type subtype && isParameters (rest.length + 1) (rest.dropWhile isTokenChar)
  | _ => false

end Lookout.Http.MediaType
