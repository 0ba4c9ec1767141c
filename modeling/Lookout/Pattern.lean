import Lookout.Variable

/-!
# Path patterns

A path pattern is a text with placeholders `${NAME}`. A name is a run of ASCII letters, digits,
underscores and points. Everything else, unclosed and empty placeholders too, stands for itself.

* `Pattern.segments`: the pattern cut into placeholders and the texts between them.
* `Pattern.placeholders`: the names of the placeholders from left to right.
* `Pattern.resolve`: puts in the decimal values of the variables.
* `Pattern.check`: tells whether `resolve` would find all variables.
-/

namespace Lookout

/-- A path with placeholders. -/
structure Pattern where
  text : String
  deriving DecidableEq, Repr

/-- A placeholder whose variable is not declared. -/
structure PatternError where
  name : String
  pattern : String
  deriving DecidableEq, Repr

/-- The wording of a pattern error. -/
def PatternError.message (e : PatternError) : String :=
  "variable '" ++ e.name ++ "' referenced by pattern '" ++ e.pattern ++ "' is not declared"

/-- A part of a pattern. -/
inductive Segment
  | literal (text : List Char)
  | placeholder (name : List Char)
  deriving DecidableEq, Repr

namespace Segment

/-- The characters of a pattern that make up the segment. -/
def chars : Segment → List Char
  | literal text => text
  | placeholder name => '$' :: '\x7b' :: name ++ ['\x7d']

end Segment

namespace Pattern

/-- The characters of names. -/
def isNameChar (c : Char) : Bool :=
  c.isAlphanum || c == '_' || c == '.'

/-- The name of the placeholder at the start of a text. -/
def placeholderAt? : List Char → Option (List Char)
  | '$' :: '\x7b' :: rest =>
    let name := rest.takeWhile isNameChar
    match rest.dropWhile isNameChar with
    | '\x7d' :: _ => if name.isEmpty then none else some name
    | _ => none
  | _ => none

/-- Puts a character in front of segments, into the literal that they begin with if they do. -/
def consLiteral (c : Char) : List Segment → List Segment
  | .literal text :: rest => .literal (c :: text) :: rest
  | segments => .literal [c] :: segments

/-- The segments of a text after its first `skip` characters. -/
def segmentsAfter : (skip : Nat) → List Char → List Segment
  | _, [] => []
  | skip + 1, _ :: rest => segmentsAfter skip rest
  | 0, c :: rest =>
    match placeholderAt? (c :: rest) with
    | some name => .placeholder name :: segmentsAfter (name.length + 2) rest
    | none => consLiteral c (segmentsAfter 0 rest)

/-- The placeholders of a pattern and the texts between them. -/
def segments (p : Pattern) : List Segment :=
  segmentsAfter 0 p.text.toList

/-- The names of the placeholders from left to right. -/
def placeholders (p : Pattern) : List String :=
  p.segments.filterMap fun
    | .placeholder name => some (String.ofList name)
    | .literal _ => none

/-- The error for a placeholder of this pattern. -/
def undeclared (p : Pattern) (name : String) : PatternError :=
  { name, pattern := p.text }

/-- Fails at the first placeholder that is not declared. -/
def check (p : Pattern) (vars : VariableSet) : Except PatternError Unit :=
  match p.placeholders.find? fun name => !vars.contains name with
  | some name => .error (p.undeclared name)
  | none => .ok ()

/-- The text that a segment stands for. -/
def resolveSegment (p : Pattern) (vars : VariableSet) : Segment → Except PatternError (List Char)
  | .literal text => .ok text
  | .placeholder name =>
    match vars.value? (String.ofList name) with
    | some value => .ok (Text.ofInt value.toInt)
    | none => .error (p.undeclared (String.ofList name))

/-- The texts that segments stand for, one after the other. -/
def resolveSegments (p : Pattern) (vars : VariableSet) :
    List Segment → Except PatternError (List Char)
  | [] => .ok []
  | s :: rest =>
    match p.resolveSegment vars s with
    | .error e => .error e
    | .ok text =>
      match p.resolveSegments vars rest with
      | .error e => .error e
      | .ok texts => .ok (text ++ texts)

/-- The path in which each placeholder is the decimal value of its variable. -/
def resolve (p : Pattern) (vars : VariableSet) : Except PatternError String :=
  (p.resolveSegments vars p.segments).map String.ofList

end Pattern
end Lookout
