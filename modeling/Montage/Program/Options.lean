import Montage.Text.Number

/-!
# Command-line options

The arguments name one script and options before, between or after it.  An option that
takes a value finds it after an equals sign or in the next argument, and a long option may
be cut short where only one begins that way.  An argument that is a negative number or
holds a space is never an option, and after two dashes nothing is.  Arguments are worked off
from the left: asking for help ends the program at once, and so does a value that is not
acceptable; what is missing or too much is only found in the end.

Two dashes are no value, also not after an equals sign: such an option is left without any.
-/

namespace Montage

/-- How results are shown. -/
inductive Format where
  | table
  | json
  deriving DecidableEq, Repr

/-- The name of a format. -/
def Format.name : Format → String
  | table => "table"
  | json => "json"

/-- What the arguments ask for.  An option that was given without a value has `none`. -/
structure Options where
  script : String
  watch : Bool := false
  debounceMs : Option Int := some 500
  /-- The time in seconds between two looks at the script. -/
  poll : Option Double := some (Double.quotient 1 4)
  format : Option Format := some .table
  dumpCommands : Bool := false
  deriving DecidableEq

namespace Options

/-- The format in which results are shown, which is that of tables unless another one was
given. -/
def shownFormat (o : Options) : Format :=
  o.format.getD .table

/-- Why arguments do not lead to options. -/
inductive Stop where
  /-- They ask for help. -/
  | help
  /-- They cannot be understood. -/
  | misuse
  deriving DecidableEq, Repr

/-- The code with which the program ends. -/
def Stop.exitCode : Stop → Nat
  | help => 0
  | misuse => 2

/-- The options. -/
inductive Flag where
  | help
  | watch
  | debounceMs
  | poll
  | format
  | dumpCommands
  deriving DecidableEq, Repr

/-- Whether an option takes a value. -/
def Flag.takesValue : Flag → Bool
  | debounceMs | poll | format => true
  | help | watch | dumpCommands => false

/-- The long options. -/
def longFlags : List (String × Flag) :=
  [("--help", .help), ("--watch", .watch), ("--debounce-ms", .debounceMs), ("--poll", .poll),
    ("--format", .format), ("--dump-commands", .dumpCommands)]

/-- An argument by itself. -/
inductive Token where
  /-- A script, or the value of an option before it. -/
  | plain (text : String)
  /-- A long option, with the value after its equals sign. -/
  | flag (flag : Flag) (value : Option String)
  /-- The short form of asking for help, with what is written right after it. -/
  | short (rest : List Char)
  /-- An option that is not known. -/
  | unknown
  /-- The end of the options. -/
  | separator
  deriving DecidableEq

/-- The text before the first equals sign, and what follows it. -/
def splitValue (cs : List Char) : List Char × Option String :=
  match cs.dropWhile (· != '=') with
  | [] => (cs, none)
  | _ :: value => (cs.takeWhile (· != '='), some (String.ofList value))

/-- Whether characters are digits, perhaps with a point before some of them, after a minus
sign; a line feed at the end does not matter. -/
def isNegativeNumber (cs : List Char) : Bool :=
  match cs with
  | '-' :: body =>
    let body := if body.getLast? == some '\n' then body.dropLast else body
    match body.dropWhile Text.isDigit with
    | [] => !body.isEmpty
    | '.' :: places => !places.isEmpty && places.all Text.isDigit
    | _ => false
  | _ => false

/-- An argument that starts with a dash but is no known option. -/
def unrecognised (cs : List Char) : Token :=
  if isNegativeNumber cs || cs.contains ' ' then .plain (String.ofList cs) else .unknown

/-- An argument that may be an option. -/
def classify (arg : String) : Except Stop Token :=
  match arg.toList with
  | '-' :: '-' :: rest =>
    let (name, value) := splitValue ('-' :: '-' :: rest)
    match longFlags.lookup (String.ofList name) with
    | some f => .ok (.flag f value)
    | none =>
      match longFlags.filter fun f => name.isPrefixOf f.1.toList with
      | [] => .ok (unrecognised arg.toList)
      | [f] => .ok (.flag f.2 value)
      | _ => .error .misuse
  | '-' :: 'h' :: rest => .ok (.short rest)
  | '-' :: c :: rest => .ok (unrecognised ('-' :: c :: rest))
  | _ => .ok (.plain arg)

/-- The argument after which nothing is an option. -/
def separator : String := "--"

/-- All arguments by themselves; after the separator all are plain. -/
def tokens : List String → Except Stop (List Token)
  | [] => .ok []
  | arg :: rest =>
    if arg = separator then .ok (.separator :: rest.map .plain)
    else do
      let token ← classify arg
      let more ← tokens rest
      return token :: more

/-- An option left without a value. -/
def setNone (o : Options) (f : Flag) : Except Stop Options :=
  match f with
  | .debounceMs => .ok { o with debounceMs := none }
  | .poll => .ok { o with poll := none }
  | .format => .ok { o with format := none }
  | _ => .error .misuse

/-- The value of an option taken into account. -/
def setValue (o : Options) (f : Flag) (value : String) : Except Stop Options :=
  if value = separator then o.setNone f
  else
    match f with
    | .debounceMs =>
      match Text.readInteger value with
      | .ok n => .ok { o with debounceMs := some n }
      | .error _ => .error .misuse
    | .poll =>
      match Text.readDouble? value with
      | some x => .ok { o with poll := some x }
      | none => .error .misuse
    | .format =>
      match [Format.table, .json].find? (·.name == value) with
      | some format => .ok { o with format := some format }
      | none => .error .misuse
    | _ => .error .misuse

/-- An option without a value taken into account. -/
def setFlag (o : Options) (f : Flag) : Except Stop Options :=
  match f with
  | .help => .error .help
  | .watch => .ok { o with watch := true }
  | .dumpCommands => .ok { o with dumpCommands := true }
  | _ => .error .misuse

/-- The short form of asking for help may be repeated in one argument, also with an equals
sign before the repetitions.  Nothing else may follow it. -/
def shortOutcome (rest : List Char) : Stop :=
  let repeated :=
    match rest with
    | '=' :: more => !more.isEmpty && more.all (· == 'h')
    | more => more.all (· == 'h')
  if repeated then .help else .misuse

/-- What has been found so far. -/
structure Progress where
  options : Options := { script := "" }
  /-- Whether the script has been named. -/
  named : Bool := false
  /-- Whether it was named by the argument just worked off. -/
  justNamed : Bool := false
  /-- Whether there was an argument too much. -/
  excess : Bool := false

namespace Progress

/-- A plain argument names the script, if that has not been named yet. -/
def plain (p : Progress) (text : String) : Progress :=
  if p.named then { p with excess := true, justNamed := false }
  else { p with options := { p.options with script := text }, named := true, justNamed := true }

/-- The separator belongs to the script, before or right after it. -/
def separator (p : Progress) : Progress :=
  { p with excess := p.excess || (p.named && !p.justNamed), justNamed := false }

/-- The arguments worked off from the left. -/
def run (p : Progress) : List Token → Except Stop Progress
  | [] => .ok p
  | .plain text :: rest => run (p.plain text) rest
  | .separator :: rest => run p.separator rest
  | .unknown :: rest => run { p with excess := true, justNamed := false } rest
  | .short tail :: _ => .error (shortOutcome tail)
  | .flag f (some value) :: rest => do
    let options ← if f.takesValue then p.options.setValue f value else .error .misuse
    run { p with options := options, justNamed := false } rest
  | .flag f none :: rest =>
    if f.takesValue then
      match rest with
      | .plain value :: rest => do
        let options ← p.options.setValue f value
        run { p with options := options, justNamed := false } rest
      | _ => .error .misuse
    else do
      let options ← p.options.setFlag f
      run { p with options := options, justNamed := false } rest

end Progress

/-- The options that arguments ask for. -/
def parse (args : List String) : Except Stop Options := do
  let ts ← tokens args
  let p ← Progress.run {} ts
  if p.named && !p.excess then return p.options else throw .misuse

end Options

end Montage
