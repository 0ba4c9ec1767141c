import Lookout.Text.Pieces

/-!
# Command-line arguments

* `Grammar`: which arguments a program takes. A `menu` takes options and then a command, a `leaf`
  takes options and words in any order.
* `Grammar.read`: reads arguments. Faults are found from left to right, except that the value of an
  option is looked at only when the next argument has been recognised. Whether all that is needed is
  there is looked at last.

An option is given by its long name, `--name value` or `--name=value`, or by its letter, `-n value`,
`-nvalue` or `-n=value`. After `--` all arguments are words.
-/

namespace Lookout.Command

/-- How often an option may be given, and whether it has a value. -/
inductive Arity
  /-- At most once, without a value. -/
  | flag
  /-- At most once, with a value. -/
  | single
  /-- Any number of times, with a value. -/
  | repeated
  deriving DecidableEq, Repr

/-- An option. -/
structure OptionRule where
  name : String
  letter : Option Char := none
  arity : Arity
  needed : Bool := false
  /-- The reason for which a value is refused. -/
  refuses : String → Option String := fun _ => none

/-- The arguments that a program takes. -/
inductive Grammar
  /-- Options and words; the words are called by these names. -/
  | leaf (options : List OptionRule) (words : List String)
  /-- Options and then one of some commands. -/
  | menu (options : List OptionRule) (commands : List (String × Grammar))

/-- The reasons for which arguments are refused. -/
inductive UsageError
  /-- Help was asked for. -/
  | help
  /-- Nothing was given where a command is needed. -/
  | nothingGiven
  | noCommand
  | unknownCommand
  | unknownArgument
  | missingArgument
  /-- An option without its value. -/
  | missingValue
  /-- A value for an option that has none. -/
  | surplusValue
  | repeatedOption
  | badValue (reason : String)
  deriving DecidableEq, Repr

/-- Arguments that were read: the commands that were chosen, the options with their values, and the
words. -/
structure Reading where
  commands : List String := []
  given : List (String × String) := []
  words : List String := []
  deriving DecidableEq, Repr

namespace Reading

/-- The values of an option in their order. -/
def values (r : Reading) (name : String) : List String :=
  (r.given.filter fun g => g.1 == name).map (·.2)

/-- The value of an option that may be given once. -/
def value? (r : Reading) (name : String) : Option String :=
  r.given.lookup name

/-- The option was given. -/
def has (r : Reading) (name : String) : Bool :=
  (r.value? name).isSome

end Reading

/-! ## Options -/

/-- Where the reading of the arguments of one command stands. -/
structure Progress where
  reading : Reading
  /-- The last option, with its value once that has been met. -/
  pending : Option (OptionRule × Option String) := none
  /-- Only words are left. -/
  onlyWords : Bool := false

namespace Progress

/-- Takes an option and its value. -/
def take (p : Progress) (o : OptionRule) (value : String) : Except UsageError Progress :=
  if o.arity ≠ .repeated ∧ p.reading.has o.name then .error .repeatedOption
  else
    match o.refuses value with
    | some reason => .error (.badValue reason)
    | none =>
      .ok { p with reading := { p.reading with given := p.reading.given ++ [(o.name, value)] } }

/-- Takes the last option. -/
def resolve (p : Progress) : Except UsageError Progress :=
  match p.pending with
  | none => .ok p
  | some (_, none) => .error .missingValue
  | some (o, some value) => { p with pending := none }.take o value

/-- The last option still waits for its value. -/
def isWaiting (p : Progress) : Bool :=
  match p.pending with
  | some (_, none) => true
  | _ => false

/-- Takes an option after the last one: a flag at once, another one when its value is known. -/
def takeNext (p : Progress) (o : OptionRule) (attached : Option String) :
    Except UsageError Progress := do
  let p ← p.resolve
  match o.arity, attached with
  | .flag, _ => p.take o ""
  | _, some value => p.take o value
  | _, none => return { p with pending := some (o, none) }

/-- Help is asked for, after the last option. -/
def askHelp (p : Progress) : Except UsageError Progress := do
  let _ ← p.resolve
  .error .help

/-- Reads `name` or `name=value` after two hyphens. -/
def readLong (p : Progress) (options : List OptionRule) (s : List Char) :
    Except UsageError Progress :=
  let (name, attached) := match Text.splitFirst? '=' s with
    | some (name, value) => (String.ofList name, some (String.ofList value))
    | none => (String.ofList s, none)
  match options.find? fun o => o.name == name with
  | some o =>
    if o.arity = .flag ∧ attached.isSome then .error .surplusValue else p.takeNext o attached
  | none =>
    if name = "help" then if attached.isSome then .error .surplusValue else p.askHelp
    else .error .unknownArgument

/-- The value after a letter. -/
def attachedValue : List Char → Option String
  | [] => none
  | '=' :: value => some (String.ofList value)
  | value => some (String.ofList value)

/-- Reads letters after a hyphen; one with a value takes what follows it. -/
def readLetters (options : List OptionRule) : Progress → List Char → Except UsageError Progress
  | p, [] => .ok p
  | p, c :: rest =>
    match options.find? fun o => o.letter == some c with
    | some o =>
      if o.arity = .flag then
        match p.takeNext o none with
        | .error e => .error e
        | .ok p => readLetters options p rest
      else p.takeNext o (attachedValue rest)
    | none => if c = 'h' then p.askHelp else .error .unknownArgument

/-- How an argument looks. -/
inductive Look
  | escape
  | long (s : List Char)
  | letters (s : List Char)
  | word

/-- How an argument looks where options are allowed. -/
def look (arg : String) : Look :=
  match arg.toList with
  | ['-', '-'] => .escape
  | '-' :: '-' :: s => .long s
  | ['-'] => .word
  | '-' :: s => .letters s
  | _ => .word

/-- Reads an argument; one that is a word is left to `onWord`. -/
def step (p : Progress) (options : List OptionRule)
    (onWord : Progress → String → Except UsageError Progress) (arg : String) :
    Except UsageError Progress :=
  if p.onlyWords then onWord p arg
  else
    match look arg with
    | .escape => .ok { p with onlyWords := true }
    | .long s => p.readLong options s
    | .letters s => readLetters options p s
    | .word =>
      match p.pending with
      | some (o, none) => .ok { p with pending := some (o, some arg) }
      | _ => onWord p arg

end Progress

/-! ## Leaves -/

/-- Takes a word if one is left to be given. -/
def takeWord (words : List String) (p : Progress) (arg : String) : Except UsageError Progress :=
  if p.reading.words.length < words.length then do
    let p ← p.resolve
    return { p with reading := { p.reading with words := p.reading.words ++ [arg] } }
  else .error .unknownArgument

/-- All is given that must be. -/
def isComplete (options : List OptionRule) (words : List String) (r : Reading) : Bool :=
  (options.all fun o => !o.needed || r.has o.name) && words.length ≤ r.words.length

/-- Reads the arguments of a leaf. -/
def readLeaf (options : List OptionRule) (words : List String) (commands : List String)
    (args : List String) : Except UsageError Reading := do
  let p ← args.foldlM (fun p arg => p.step options (takeWord words) arg)
    { reading := { commands } : Progress }
  let p ← p.resolve
  if isComplete options words p.reading then return p.reading else .error .missingArgument

/-! ## Menus -/

/-- The names that choose a command, and the one that asks for help. -/
def isCommandName (commands : List (String × Grammar)) (arg : String) : Bool :=
  arg == "help" || (commands.lookup arg).isSome

/-- The error for a word that is no command. After `--` not even a command may follow. -/
def refuseWord (commands : List (String × Grammar)) (p : Progress) (arg : String) :
    Except UsageError Progress :=
  if p.onlyWords ∧ isCommandName commands arg then .error .unknownArgument
  else .error .unknownCommand

/-- What the end of the arguments means where a command is needed. -/
def endOfMenu (p : Progress) : Except UsageError Reading := do
  let p ← p.resolve
  if p.reading.given.isEmpty then .error .nothingGiven else .error .noCommand

namespace Grammar

/-- Help about the command that the words choose. -/
def askHelp : Grammar → List String → UsageError
  | _, [] => .help
  | .leaf _ _, _ :: _ => .unknownCommand
  | .menu _ commands, arg :: rest =>
    match commands.lookup arg with
    | some g => g.askHelp rest
    | none => if arg = "help" ∧ rest.isEmpty then .help else .unknownCommand
termination_by _ args => args.length

/-- Adds what was given in front of a command to what was read after it. -/
def under (p : Progress) (r : Reading) : Except UsageError Reading := do
  let p ← p.resolve
  return { r with given := p.reading.given ++ r.given }

/-- Reads arguments after some have been read. -/
def readFrom (g : Grammar) (p : Progress) (args : List String) : Except UsageError Reading :=
  match g, args with
  | .leaf options words, args => readLeaf options words p.reading.commands args
  | .menu _ _, [] => endOfMenu p
  | .menu options commands, arg :: rest =>
    if !p.onlyWords && !p.isWaiting && isCommandName commands arg then
      match commands.lookup arg with
      | some g =>
        match g.readFrom { reading := { commands := p.reading.commands ++ [arg] } } rest with
        | .error e => .error e
        | .ok r => under p r
      | none => .error ((menu options commands).askHelp rest)
    else
      match p.step options (refuseWord commands) arg with
      | .error e => .error e
      | .ok p => (menu options commands).readFrom p rest
termination_by args.length

/-- Reads arguments. -/
def read (g : Grammar) (args : List String) : Except UsageError Reading :=
  g.readFrom { reading := {} } args

end Grammar
end Lookout.Command
