import Montage.Double.Text
import Montage.Text.Quoted

/-!
# JSON values

`Json` is the type of JSON values, with integers and doubles told apart and the members of
objects in order.  `Json.pretty` writes a value with one member or element on each line,
indented by two spaces for each level.  Only quotes, backslashes and control characters are
escaped.
-/

namespace Montage

/-- A JSON value. -/
inductive Json where
  | null
  | bool (b : Bool)
  | int (n : Int)
  | double (x : Double)
  | string (s : String)
  | array (elements : List Json)
  | object (members : List (String × Json))

namespace Json

/-- One character of a string. -/
def escapeChar (c : Char) : List Char :=
  if c = '"' then ['\\', '"']
  else if c = '\\' then ['\\', '\\']
  else if c = '\n' then ['\\', 'n']
  else if c = '\r' then ['\\', 'r']
  else if c = '\t' then ['\\', 't']
  else if c = '\x08' then ['\\', 'b']
  else if c = '\x0c' then ['\\', 'f']
  else if c.toNat < 0x20 then '\\' :: 'u' :: Text.hex 4 c.toNat
  else [c]

/-- A string between quotes. -/
def quote (s : String) : String :=
  String.ofList ('"' :: s.toList.flatMap escapeChar ++ ['"'])

/-- A double as a number, or the name of what is no number. -/
def ofDouble : Double → String
  | .nan => "NaN"
  | .inf neg => (if neg then "-" else "") ++ "Infinity"
  | x => x.toText

/-- Texts with a separator between them. -/
def separated (sep : String) : List String → String
  | [] => ""
  | [x] => x
  | x :: rest => x ++ sep ++ separated sep rest

/-- A line end followed by the indentation of a level. -/
def newline (level : Nat) : String :=
  String.ofList ('\n' :: List.replicate (2 * level) ' ')

/-- Members or elements between brackets, each on a line of its own. -/
def block (opening closing : String) (level : Nat) (items : List String) : String :=
  if items.isEmpty then opening ++ closing
  else
    opening ++ newline (level + 1) ++ separated ("," ++ newline (level + 1)) items
      ++ newline level ++ closing

mutual

/-- A value written on lines that are indented to a level. -/
def prettyAt (level : Nat) : Json → String
  | .null => "null"
  | .bool b => if b then "true" else "false"
  | .int n => toString n
  | .double x => ofDouble x
  | .string s => quote s
  | .array elements => block "[" "]" level (prettyElements (level + 1) elements)
  | .object members => block "\x7b" "\x7d" level (prettyMembers (level + 1) members)

/-- The elements of an array. -/
def prettyElements (level : Nat) : List Json → List String
  | [] => []
  | x :: rest => prettyAt level x :: prettyElements level rest

/-- The members of an object. -/
def prettyMembers (level : Nat) : List (String × Json) → List String
  | [] => []
  | (name, x) :: rest =>
    (quote name ++ ": " ++ prettyAt level x) :: prettyMembers level rest

end

/-- A value on several lines. -/
def pretty (j : Json) : String :=
  prettyAt 0 j

end Json

end Montage
