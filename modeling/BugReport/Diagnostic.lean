/-!
# Diagnostics

What can be wrong with a request without ending it. A diagnostic says the cause; its kind and its
wording follow from the cause. Diagnostics are collected in the order in which they arise and shown
beside the report.
-/

namespace BugReport

/-- The kinds under which diagnostics are reported. -/
inductive DiagnosticKind where
  /-- A value that its character policy or its limit does not admit. -/
  | validationRejected
  /-- A name that the request cannot use. -/
  | unsupportedParameter
  /-- An expression or a format name that was not understood. -/
  | grammarUnrecognized
  deriving DecidableEq, Repr

def DiagnosticKind.name : DiagnosticKind → String
  | .validationRejected => "validation_rejected"
  | .unsupportedParameter => "unsupported_parameter"
  | .grammarUnrecognized => "grammar_unrecognized"

/-- The cause of a diagnostic. -/
inductive Diagnostic where
  | unknownParameter (name : String)
  | invalidParameter (name value pattern : String)
  | invalidEncoding (raw : String)
  | unsafeLiteral (literal pattern : String)
  | unknownNumberMatch (column value : String)
  | unknownDateMatch (column text : String)
  | offsetOutOfRange (column : String) (seconds : Int)
  | malformedPair (pair : String)
  | notAField (name : String)
  | invalidCustomField (name : String)
  | invalidSortColumn (name : String)
  | unknownDirection (word : String)
  | missingColumn (name : String)
  | unknownFormat (spec : String)
  | limitTooHigh (name : String) (requested configured : Nat)
  | limitNotNumeric (name value : String)
  | unknownInstance (name : String)
  | unknownAlternate (name : String)
  deriving DecidableEq, Repr

namespace Diagnostic

def kind : Diagnostic → DiagnosticKind
  | unknownParameter .. | notAField .. | unknownInstance .. | unknownAlternate .. =>
    .unsupportedParameter
  | invalidParameter .. | invalidEncoding .. | unsafeLiteral .. | invalidCustomField ..
  | invalidSortColumn .. | limitTooHigh .. | limitNotNumeric .. => .validationRejected
  | unknownNumberMatch .. | unknownDateMatch .. | offsetOutOfRange .. | malformedPair ..
  | unknownDirection .. | missingColumn .. | unknownFormat .. => .grammarUnrecognized

/-- The wording of a cause. -/
def message : Diagnostic → String
  | unknownParameter name => "Parameter " ++ name ++ " is not supported"
  | invalidParameter name value pattern =>
    "Parameter " ++ name ++ "=" ++ value ++ " is invalid using regex " ++ pattern
  | invalidEncoding raw => "String " ++ raw ++ " is not valid UTF-8 once decoded"
  | unsafeLiteral literal pattern => "String " ++ literal ++ " is invalid using regex " ++ pattern
  | unknownNumberMatch column value => "Int match not recognised " ++ column ++ "=" ++ value
  | unknownDateMatch column text => "Date match not recognised " ++ column ++ "=" ++ text
  | offsetOutOfRange column seconds =>
    "Date offset out of range " ++ column ++ "=" ++ toString seconds ++ "s"
  | malformedPair pair => "Filter " ++ pair ++ " should be column%3Dvalue, ignoring"
  | notAField name => name ++ " is not of type field so ignoring"
  | invalidCustomField name => "Custom field " ++ name ++ " is not a valid column name"
  | invalidSortColumn name => "Sort column " ++ name ++ " is not a valid column name"
  | unknownDirection word => "Sort argument not recognised: " ++ word
  | missingColumn name => "Can't remove column [" ++ name ++ "] it doesn't exist"
  | unknownFormat spec => "Format " ++ spec ++ " not recognised"
  | limitTooHigh name requested configured =>
    name ++ "=" ++ toString requested ++ " is greater than the configured " ++
      toString configured ++ ", ignoring"
  | limitNotNumeric name value => name ++ "=" ++ value ++ " is not a number, ignoring"
  | unknownInstance name => "Instance " ++ name ++ " is not configured"
  | unknownAlternate name => "Alternate configuration " ++ name ++ " is not configured"

end Diagnostic

/-- A diagnostic as it is shown: its kind and its wording. -/
structure Warning where
  kind : DiagnosticKind
  message : String
  deriving DecidableEq, Repr

/-- How a diagnostic is shown. -/
def Diagnostic.warning (d : Diagnostic) : Warning :=
  ⟨d.kind, d.message⟩

end BugReport
