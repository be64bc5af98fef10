import BugReport.Config.File
import BugReport.Query.Compile

/-!
# Requests for reports

A request comes from arguments of the form `name=value`. The configured parameters fill in what the
caller left open, those of the selected instance over those of the site; which instance and which
alternate are selected is for the caller alone to say.
-/

namespace BugReport

/-- A request: its parameters, its settings, and what was wrong with it. -/
structure Request where
  store : Store
  settings : Settings
  diagnostics : List Diagnostic

namespace Request

/-- Applies a configured parameter, unless the caller set it. Entries without an equals sign are
passed over. -/
def applyDefault (caller : Store) (s : Store) (entry : String) : Store × List Diagnostic :=
  match Text.cut '=' entry with
  | none => (s, [])
  | some (name, value) =>
    let name := Text.trimmed name
    if (caller.explicit name).isSome then (s, []) else s.trySet name value

/-- Applies configured parameters in order. -/
def applyDefaults (caller : Store) (s : Store) : List String → Store × List Diagnostic
  | [] => (s, [])
  | entry :: entries =>
    let (s, refused) := applyDefault caller s entry
    let (s, more) := applyDefaults caller s entries
    (s, refused ++ more)

/-- The request of some arguments under a configuration. -/
def ofArgs (file : ConfigFile) (args : List String) : Request :=
  let (caller, refused) := Store.empty.applyLines args
  let selected := caller.present? "instance"
  let (store, refusedDefaults) := applyDefaults caller caller (file.defaultParameters selected)
  let (settings, problems) := file.resolve selected (caller.present? "bzalternateconfig")
  { store, settings, diagnostics := refused ++ refusedDefaults ++ problems }

def compile (r : Request) (now : Int) : Compiled :=
  let c := BugReport.compile r.store now
  { c with diagnostics := r.diagnostics ++ c.diagnostics }

end Request

end BugReport
