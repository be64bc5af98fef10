/-!
# JSON text

JSON values and their text with an indentation of two blanks. Strings keep every character that does
not have to be escaped.
-/

namespace BugReport

/-- A JSON value. The entries of an object are written in their order. -/
inductive JsonValue where
  | null
  | bool (b : Bool)
  | integer (i : Int)
  | text (s : String)
  | array (items : List JsonValue)
  | object (entries : List (String × JsonValue))
  deriving Repr

namespace JsonValue

def texts (ss : List String) : JsonValue :=
  .array (ss.map .text)

/-- An entry that is left out when it has no value. -/
def optional (key : String) (value : Option JsonValue) : List (String × JsonValue) :=
  match value with
  | some v => [(key, v)]
  | none => []

/-- Writes a character of a string. -/
def escape (c : Char) : List Char :=
  if c == '"' then ['\\', '"']
  else if c == '\\' then ['\\', '\\']
  else if c == '\x08' then ['\\', 'b']
  else if c == '\t' then ['\\', 't']
  else if c == '\n' then ['\\', 'n']
  else if c == '\x0c' then ['\\', 'f']
  else if c == '\r' then ['\\', 'r']
  else if c.toNat < 32 then
    let ds := Nat.toDigits 16 c.toNat
    '\\' :: 'u' :: List.replicate (4 - ds.length) '0' ++ ds
  else [c]

def quoted (s : String) : String :=
  String.ofList ('"' :: s.toList.flatMap escape ++ ['"'])

/-- The start of a line at a depth. -/
def indent (depth : Nat) : String :=
  "\n" ++ String.ofList (List.replicate (2 * depth) ' ')

/-- Writes entries between two brackets, one a line. -/
def enclosed (openSign closeSign : String) (depth : Nat) (entries : List String) : String :=
  if entries.isEmpty then openSign ++ closeSign
  else openSign ++ String.intercalate "," (entries.map (indent (depth + 1) ++ ·)) ++ indent depth ++
    closeSign

mutual

/-- Writes a value whose first line starts at a depth. -/
def prettyAt (depth : Nat) : JsonValue → String
  | null => "null"
  | bool b => if b then "true" else "false"
  | integer i => toString i
  | text s => quoted s
  | array items => enclosed "[" "]" depth (prettyItems (depth + 1) items)
  | object entries => enclosed "\x7b" "\x7d" depth (prettyEntries (depth + 1) entries)

/-- Writes the items of an array. -/
def prettyItems (depth : Nat) : List JsonValue → List String
  | [] => []
  | item :: items => prettyAt depth item :: prettyItems depth items

/-- Writes the entries of an object. -/
def prettyEntries (depth : Nat) : List (String × JsonValue) → List String
  | [] => []
  | (key, value) :: entries =>
    (quoted key ++ ": " ++ prettyAt depth value) :: prettyEntries depth entries

end

def pretty (v : JsonValue) : String :=
  v.prettyAt 0

end JsonValue

end BugReport
