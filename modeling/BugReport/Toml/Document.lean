import BugReport.Toml.Scalar
import BugReport.Toml.Value

/-!
# TOML documents

Reading the text of a TOML document as the table that it describes. A document that breaks a rule of
the format is refused as a whole.
-/

namespace BugReport.Toml

/-! ## Keys -/

/-- Whether a character may stand in a key without quotes. -/
def isKeyChar (c : Char) : Bool :=
  c.isAlphanum || c == '_' || c == '-'

/-- Reads a key without dots. -/
def simpleKey? (cs : List Char) : Option (String × List Char) :=
  match cs with
  | '"' :: _ => quotedString? cs
  | '\'' :: _ => quotedString? cs
  | cs =>
    let key := cs.takeWhile isKeyChar
    if key.isEmpty then none else some (String.ofList key, cs.drop key.length)

/-- Reads a key with dots, and the blanks around its parts. The first argument bounds the number of
its parts. -/
def key? : Nat → Reader (List String)
  | 0, _ => none
  | n + 1, cs => do
    let (part, rest) ← simpleKey? (dropSpaces cs)
    match dropSpaces rest with
    | '.' :: rest => do
      let (parts, rest) ← key? n rest
      some (part :: parts, rest)
    | rest => some ([part], rest)

/-- How deep values and keys may nest. -/
def depthLimit : Nat := 80

/-- Reads the key of an entry: the path of its table, and its last part. -/
def entryKey? (cs : List Char) : Option ((List String × String) × List Char) := do
  let (parts, rest) ← key? (depthLimit - 1) cs
  let last ← parts.getLast?
  some ((parts.dropLast, last), rest)

/-! ## Values -/

def dropComment (cs : List Char) : List Char :=
  match cs with
  | '#' :: cs => cs.dropWhile isPrintable
  | cs => cs

/-- Drops blanks, comments and ends of lines. The first argument bounds the length. -/
def dropGaps : Nat → List Char → List Char
  | 0, cs => cs
  | n + 1, cs =>
    let rest := dropComment (dropSpaces cs)
    match newline? rest with
    | some rest => dropGaps n rest
    | none => rest

/-- Drops everything between two values of an array. -/
def dropBetween (cs : List Char) : List Char :=
  dropGaps (cs.length + 1) cs

/-- Reads the items of an array after the opening bracket or a comma. The first argument bounds their
number. -/
def arrayItems? (item? : Reader Toml) : Nat → Reader (List Toml)
  | 0, _ => none
  | n + 1, cs =>
    match dropBetween cs with
    | ']' :: rest => some ([], rest)
    | cs => do
      let (item, rest) ← item? cs
      match dropBetween rest with
      | ',' :: rest => do
        let (items, rest) ← arrayItems? item? n rest
        some (item :: items, rest)
      | ']' :: rest => some ([item], rest)
      | _ => none

/-- Reads the entries of an inline table into a table. The first argument bounds their number. -/
def inlineEntries? (value? : Reader Toml) : Nat → Draft → Reader Draft
  | 0, _, _ => none
  | n + 1, t, cs => do
    let ((path, key), rest) ← entryKey? cs
    let rest ← Text.takeChar? '=' rest
    let (value, rest) ← value? (dropSpaces rest)
    let t ← t.insert .inside path key value
    match dropSpaces rest with
    | ',' :: rest => inlineEntries? value? n t rest
    | '}' :: rest => some (t, rest)
    | _ => none

/-- Reads a value that starts like a number: a moment, or a number with or without a fraction. -/
def number? (cs : List Char) : Option (Toml × List Char) :=
  match moment? cs with
  | some rest => some (.moment, rest)
  | none =>
    match float? cs with
    | some (x, rest) => some (.real x, rest)
    | none => (integer? cs).map fun (i, rest) => (.integer i, rest)

/-- Reads a value that holds no others. -/
def scalar? (cs : List Char) : Option (Toml × List Char) :=
  match cs with
  | '"' :: _ => (string? cs).map fun (s, rest) => (.text s, rest)
  | '\'' :: _ => (string? cs).map fun (s, rest) => (.text s, rest)
  | 't' :: 'r' :: 'u' :: 'e' :: rest => some (.boolean true, rest)
  | 'f' :: 'a' :: 'l' :: 's' :: 'e' :: rest => some (.boolean false, rest)
  | 'i' :: _ => (specialFloat? false cs).map fun (x, rest) => (.real x, rest)
  | 'n' :: _ => (specialFloat? false cs).map fun (x, rest) => (.real x, rest)
  | c :: _ => if c.isDigit || c == '+' || c == '-' then number? cs else none
  | [] => none

/-- Reads a value. The first argument says how deep arrays and inline tables may nest in it. -/
def value? : Nat → Reader Toml
  | 0, cs => scalar? cs
  | depth + 1, cs =>
    match cs with
    | '[' :: rest =>
      (arrayItems? (value? depth) (rest.length + 1) rest).map fun (items, rest) => (.array items, rest)
    | '{' :: rest =>
      match dropSpaces rest with
      | '}' :: rest => some (.table .braces [], rest)
      | rest =>
        (inlineEntries? (value? depth) (rest.length + 1) ⟨.braces, []⟩ rest).map fun (t, rest) =>
          (.table .braces t.entries, rest)
    | cs => scalar? cs

/-! ## Lines -/

/-- A document while it is read: the table of everything, and the path of the last header. -/
structure Progress where
  root : Draft := ⟨.header, []⟩
  header : List String := []

/-- Takes the rest of a line, which may hold blanks and a comment. -/
def lineEnd? (cs : List Char) : Option (List Char) :=
  match dropComment (dropSpaces cs) with
  | [] => some []
  | rest => newline? rest

/-- Reads a header and opens its table. -/
def header? (p : Progress) (cs : List Char) : Option (Progress × List Char) :=
  match cs with
  | '[' :: cs => do
    let ((path, key), rest) ← entryKey? cs
    let rest ← Text.takeChar? ']' rest
    let rest ← Text.takeChar? ']' rest
    let rest ← lineEnd? rest
    let root ← p.root.changeAt .headers (Draft.appendTable key) path
    some (⟨root, path ++ [key]⟩, rest)
  | cs => do
    let ((path, key), rest) ← entryKey? cs
    let rest ← Text.takeChar? ']' rest
    let rest ← lineEnd? rest
    let root ← p.root.changeAt .headers (Draft.openTable key) path
    some (⟨root, path ++ [key]⟩, rest)

/-- Reads an entry into the table of the last header. -/
def pair? (p : Progress) (cs : List Char) : Option (Progress × List Char) := do
  let ((path, key), rest) ← entryKey? cs
  let rest ← Text.takeChar? '=' rest
  let (value, rest) ← value? (depthLimit - 1) (dropSpaces rest)
  let rest ← lineEnd? rest
  let root ← p.root.changeAt .headers (Draft.insert .dots path key value) p.header
  some ({ p with root }, rest)

/-- Reads the lines of a document. The first argument bounds their number. -/
def lines? : Nat → Progress → List Char → Option Progress
  | 0, _, _ => none
  | n + 1, p, cs =>
    match dropSpaces cs with
    | [] => some p
    | '#' :: cs => (lineEnd? ('#' :: cs)).bind (lines? n p)
    | '[' :: cs => (header? p cs).bind fun (p, rest) => lines? n p rest
    | cs =>
      match newline? cs with
      | some rest => lines? n p rest
      | none => (pair? p cs).bind fun (p, rest) => lines? n p rest

/-- The entries of a document. A mark of byte order at its start does not count. -/
def ofDocument? (text : String) : Option (List (String × Toml)) :=
  let cs := match text.toList with
    | '\uFEFF' :: cs => cs
    | cs => cs
  (lines? (cs.length + 1) {} cs).map fun p => p.root.entries

end BugReport.Toml
