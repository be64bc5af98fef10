import BugReport.Column.Catalog
import BugReport.Config.Settings
import BugReport.Diagnostic
import BugReport.Parameter.Store
import BugReport.Report.Age
import BugReport.Report.Cell
import BugReport.Report.PersonTag
import BugReport.Text.Digits

/-!
# Value formats

How the values of a column are written. A format has a name and, for links, an argument behind a
tilde. Columns have formats by the catalog, which a request can override; a value in a format that
does not exist is written as it is, with a diagnostic.
-/

namespace BugReport

open Calendar (Timestamp)

/-- The formats. -/
inductive ValueFormat where
  | date
  | relativeDate
  | radar
  | url
  | bug
  | number
  | person
  | link (namespace_ : Option String)
  deriving DecidableEq, Repr

/-- Reads a format. Only links look at the argument. -/
def ValueFormat.parse? (spec : String) : Option ValueFormat :=
  let (name, argument) := match Text.cut '~' spec with
    | some (name, argument) => (name, some argument)
    | none => (spec, none)
  match name with
  | "date" => some .date
  | "relativedate" => some .relativeDate
  | "radar" => some .radar
  | "url" => some .url
  | "id" => some .bug
  | "number" => some .number
  | "name" => some .person
  | "link" => some (.link argument)
  | _ => none

/-- What writing values depends on. -/
structure Formatter where
  store : Store
  settings : Settings := {}
  /-- The formats that the request gives to columns. -/
  overrides : List (String × String) := []
  now : Int

namespace Formatter

/-- The time that stands for no date at all. -/
def noDate : Timestamp :=
  ⟨(Calendar.Date.mk 2100 1 1).dayNumber, 0, false⟩

/-- Writes a time. Values that are no time stay as they are, and no date is empty. -/
def writeTime (value : String) (write : Timestamp → String) : String :=
  match Timestamp.read? value with
  | some t => if t == noDate then "" else write t
  | none => value

def present (f : Formatter) : Timestamp :=
  .ofInstant f.now

/-- Writes a link to a bug, whose title shows in a hint. A title that differs from the value is
flagged. -/
def writeBug (f : Formatter) (value title : String) : String :=
  if value == "" then "&nbsp;"
  else
    let text :=
      if title == "" then value
      else
        let flag := if title == value then "" else "<span class=\"flag\">+</span>"
        "<span title=\"" ++ title ++ "\">" ++ value ++ flag ++ "</span>"
    let address := f.settings.server ++ "/show_bug.cgi?id=" ++ value
    if f.settings.rawHtml then "<a href=\"" ++ address ++ "\">" ++ text ++ "</a>"
    else match f.settings.interwiki.filter (· != "") with
      | some wiki => "[[" ++ wiki ++ ":" ++ value ++ "|" ++ text ++ "]]"
      | none => "[" ++ address ++ " " ++ text ++ "]"

/-- Writes a number that was read: zero as a blank if the request wants it so, integers without a
fraction, and others with one decimal place, or with two if the first one would be zero. -/
def writeNumber (zeroAsBlank : Bool) (x : Binary64) : String :=
  if x.isZero then if zeroAsBlank then "" else "0"
  else if x.isIntegral then x.fixedText 0
  else
    let tenths := x.timesTen.roundHalfAway.overTen
    if tenths.isIntegral then x.fixedText 2 else tenths.fixedText 1

/-- The number that a value is; a blank value is zero. -/
def numberOf? (value : String) : Option Binary64 :=
  let trimmed := Text.trimmed value
  if trimmed == "" then some .zero else Binary64.read? trimmed

def write (f : Formatter) (format : ValueFormat) (value title : String) : String :=
  match format with
  | .date => writeTime value fun t => t.date.text
  | .relativeDate => writeTime value fun t => (AgeMark.of f.present t).text t.date.text
  | .radar => writeTime value fun t => (Radar.of f.present t).label
  | .url => if value == "" then "&nbsp;" else "[" ++ value ++ "]"
  | .bug => f.writeBug value title
  | .number =>
    match numberOf? value with
    | some x => writeNumber (f.store.get? "zeroasblank" == some "true") x
    | none => value
  | .person =>
    if value == "" then "&nbsp;"
    else if f.store.get? "nameformat" == some "tla" then personTag value
    else Text.substitute ' ' "&nbsp;" value
  | .link namespace_ =>
    let entry (part : String) := match namespace_ with
      | some n => "[[" ++ n ++ " " ++ part ++ "|" ++ part ++ "]]"
      | none => "[[" ++ part ++ "]]"
    String.intercalate ", " (((Text.parts ',' value).filter (· != "")).map entry)

/-- Writes a value in a format given by its spec. -/
def writeSpec (f : Formatter) (value spec title : String) : String × List Diagnostic :=
  match ValueFormat.parse? spec with
  | some format => (f.write format value title, [])
  | none => (value, [.unknownFormat spec])

def specOf? (f : Formatter) (column : String) : Option String :=
  f.overrides.lookup column <|> Catalog.format? column

def writeColumn (f : Formatter) (value column title : String) : String × List Diagnostic :=
  match f.specOf? column with
  | some spec => f.writeSpec value spec title
  | none => (value, [])

/-- Writes the value of a group. The group may have a format of its own. -/
def writeHeading (f : Formatter) (value column : String) : String × List Diagnostic :=
  let (text, problems) := match f.store.present? "groupformat" with
    | some spec => f.writeSpec value spec ""
    | none => f.writeColumn value column ""
  (if text == "" then "not set" else text, problems)

/-- The title of a column's cell: the values that make it, with blanks between them. -/
def cellTitle (row : Row) (column : String) : String :=
  match Catalog.titleKeys? column with
  | some keys => Text.trimmed (String.intercalate " " (keys.map row.textAt))
  | none => ""

end Formatter

end BugReport
