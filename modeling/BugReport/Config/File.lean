import BugReport.Config.Settings
import BugReport.Diagnostic
import BugReport.Text.Blank
import BugReport.Text.Split
import BugReport.Toml.Document

/-!
# Configuration files

The settings of a site: a base layer, layers for instances which a request can select, and alternates
that replace the connection. A request's settings are those of its instance where that has them, and
those of the base layer elsewhere.
-/

namespace BugReport

/-- Settings of which each may be missing. -/
structure ConfigLayer where
  database : Option String := none
  schema : Option String := none
  server : Option String := none
  interwiki : Option String := none
  rawHtml : Option Bool := none
  maxRows : Option Nat := none
  maxRowsBar : Option Nat := none
  /-- Parameters for every request, as `name=value` entries with bars between them. -/
  defaults : Option String := none
  deriving DecidableEq, Repr, Inhabited

/-- The connection to another database. -/
structure AlternateConfig where
  database : Option String := none
  schema : Option String := none
  server : Option String := none
  deriving DecidableEq, Repr, Inhabited

/-- A configuration file. -/
structure ConfigFile where
  base : ConfigLayer := {}
  instances : List (String × ConfigLayer) := []
  alternates : List (String × AlternateConfig) := []
  deriving DecidableEq, Repr, Inhabited

/-! ## Reading -/

namespace Toml

def asText? : Toml → Option String
  | text s => some s
  | _ => none

/-- The value as a truth value. -/
def asBool? : Toml → Option Bool
  | boolean b => some b
  | _ => none

def asCount? : Toml → Option Nat
  | integer i => if 0 ≤ i then some i.toNat else none
  | _ => none

/-- The entries of a group of settings, whose keys are given in order. A group can also be written as
a list of its values in this order; a moment is a group without settings. -/
def asGroup? (keys : List String) : Toml → Option (List (String × Toml))
  | table _ entries => some entries
  | array items => some (keys.zip items)
  | tables all => some (keys.zip (all.map (table .header)))
  | moment => some []
  | _ => none

/-- The setting under a key, which may be missing but has to be of the right type. -/
def setting? {α : Type} (read? : Toml → Option α) (entries : List (String × Toml)) (key : String) :
    Option (Option α) :=
  match entries.lookup key with
  | none => some none
  | some v => (read? v).map some

/-- The named groups under a key. They have to be in a table. -/
def groups? {α : Type} (read? : Toml → Option α) (entries : List (String × Toml)) (key : String) :
    Option (List (String × α)) :=
  match entries.lookup key with
  | none => some []
  | some (table _ groups) => groups.mapM fun (name, v) => (read? v).map fun a => (name, a)
  | some _ => none

end Toml

namespace ConfigLayer

def keys : List String :=
  ["database", "schema", "bzserver", "interwiki", "raw_html", "maxrows", "maxrowsbar", "defaults"]

/-- Reads a layer from entries. Unknown keys are passed over. -/
def ofEntries? (entries : List (String × Toml)) : Option ConfigLayer := do
  let database ← Toml.setting? Toml.asText? entries "database"
  let schema ← Toml.setting? Toml.asText? entries "schema"
  let server ← Toml.setting? Toml.asText? entries "bzserver"
  let interwiki ← Toml.setting? Toml.asText? entries "interwiki"
  let rawHtml ← Toml.setting? Toml.asBool? entries "raw_html"
  let maxRows ← Toml.setting? Toml.asCount? entries "maxrows"
  let maxRowsBar ← Toml.setting? Toml.asCount? entries "maxrowsbar"
  let defaults ← Toml.setting? Toml.asText? entries "defaults"
  some { database, schema, server, interwiki, rawHtml, maxRows, maxRowsBar, defaults }

def ofToml? (v : Toml) : Option ConfigLayer :=
  (v.asGroup? keys).bind ofEntries?

end ConfigLayer

namespace AlternateConfig

def keys : List String :=
  ["database", "schema", "bzserver"]

/-- Reads an alternate from a value. Unknown keys are passed over. -/
def ofToml? (v : Toml) : Option AlternateConfig := do
  let entries ← v.asGroup? keys
  let database ← Toml.setting? Toml.asText? entries "database"
  let schema ← Toml.setting? Toml.asText? entries "schema"
  let server ← Toml.setting? Toml.asText? entries "bzserver"
  some { database, schema, server }

end AlternateConfig

namespace ConfigFile

/-- Reads a configuration from the entries of a document. -/
def ofEntries? (entries : List (String × Toml)) : Option ConfigFile := do
  let base ← ConfigLayer.ofEntries? entries
  let instances ← Toml.groups? ConfigLayer.ofToml? entries "instances"
  let alternates ← Toml.groups? AlternateConfig.ofToml? entries "alternates"
  some { base, instances, alternates }

/-- Reads the text of a configuration file. Malformed text and settings of a wrong type are
refused. -/
def parse? (text : String) : Option ConfigFile :=
  (Toml.ofDocument? text).bind ofEntries?

/-! ## Looking up -/

/-- The layer of an instance, if it is given and configured. -/
def layer? (f : ConfigFile) (selected : Option String) : Option ConfigLayer :=
  selected.bind fun name => f.instances.lookup name

/-- The entries of a list of parameters. Blank ones do not count. -/
def splitDefaults (defaults : String) : List String :=
  (Text.parts '|' defaults).filter fun entry => Text.trimmed entry != ""

/-- The parameters for every request: those of the site, and then those of the instance. -/
def defaultParameters (f : ConfigFile) (selected : Option String) : List String :=
  (f.base :: (f.layer? selected).toList).flatMap fun layer =>
    (layer.defaults.toList).flatMap splitDefaults

/-- The settings of an instance over those of the base layer. -/
def overlaid (f : ConfigFile) (overlay : ConfigLayer) : Settings where
  database := overlay.database <|> f.base.database
  schema := overlay.schema <|> f.base.schema
  server := (overlay.server <|> f.base.server).getD ""
  interwiki := overlay.interwiki <|> f.base.interwiki
  rawHtml := (overlay.rawHtml <|> f.base.rawHtml).getD false
  maxRows := (overlay.maxRows <|> f.base.maxRows).getD 100
  maxRowsBar := (overlay.maxRowsBar <|> f.base.maxRowsBar).getD 500

/-- The settings for an instance and an alternate, either of which may be missing. Names that are not
configured are reported and have no effect. An alternate replaces the whole connection. -/
def resolve (f : ConfigFile) (selected alternate : Option String) : Settings × List Diagnostic :=
  let settings := f.overlaid ((f.layer? selected).getD {})
  let unknown := match selected with
    | some name => if (f.instances.lookup name).isNone then [.unknownInstance name] else []
    | none => []
  match alternate with
  | none => (settings, unknown)
  | some name =>
    match f.alternates.lookup name with
    | some a =>
      ({ settings with database := a.database, schema := a.schema, server := a.server.getD "" },
        unknown)
    | none => (settings, unknown ++ [.unknownAlternate name])

end ConfigFile

end BugReport
