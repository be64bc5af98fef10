import BugReport.Parameter.Kind
import BugReport.Diagnostic

/-!
# The parameters of a report

Which parameters there are, of which kind, and what they are when nobody sets them. A value is
trimmed and then checked against the policy of its parameter.
-/

namespace BugReport.Parameter

/-- Every parameter with its kind, in the order in which a request is worked through. -/
def schema : List (String × Kind) :=
  [("alias", .fieldId),
   ("assigned", .fieldDate),
   ("attachments", .fieldNumber),
   ("bar", .column),
   ("bzalternateconfig", .free),
   ("bzurl", .value),
   ("blocks", .fieldDepends),
   ("cc", .field),
   ("closed", .fieldDate),
   ("columns", .columns),
   ("created", .fieldDate),
   ("createdformat", .value),
   ("component", .field),
   ("customfields", .value),
   ("customprefix", .value),
   ("deadline", .fieldDate),
   ("debug", .value),
   ("depends", .fieldDepends),
   ("dependsstatus", .fieldJoin),
   ("disablecache", .boolean),
   ("estimated", .fieldNumber),
   ("filters", .filters),
   ("flag", .fieldSpecial),
   ("format", .value),
   ("from", .field),
   ("group", .sort),
   ("groupformat", .value),
   ("grouporder", .value),
   ("hardware", .field),
   ("heading", .free),
   ("headers", .value),
   ("id", .fieldId),
   ("implicitcustom", .boolean),
   ("instance", .value),
   ("keywords", .fieldKeywords),
   ("link", .columns),
   ("lastcomment", .boolean),
   ("maxrows", .value),
   ("maxrowsbar", .value),
   ("milestone", .field),
   ("modified", .fieldDate),
   ("modifiedformat", .value),
   ("nameformat", .value),
   ("order", .value),
   ("os", .field),
   ("priority", .field),
   ("product", .field),
   ("qa", .field),
   ("quickflag", .value),
   ("noresultsmessage", .free),
   ("remaining", .fieldNumber),
   ("reopened", .fieldDate),
   ("resolution", .field),
   ("resolved", .fieldDate),
   ("search", .fieldText),
   ("severity", .field),
   ("sort", .sort),
   ("sortable", .boolean),
   ("status", .field),
   ("status_whiteboard", .field),
   ("to", .field),
   ("total", .columns),
   ("url", .field),
   ("version", .field),
   ("verified", .fieldDate),
   ("votes", .fieldNumber),
   ("work", .fieldNumber),
   ("zeroasblank", .boolean)]

/-- What a parameter is when nobody sets it. -/
def defaults : List (String × String) :=
  [("bzurl", "show"),
   ("columns", "id,priority,status,severity,version,product,summary,url"),
   ("customprefix", "cf_"),
   ("dependsstatus", "!(CLOSED,VERIFIED,RESOLVED)"),
   ("format", "table"),
   ("implicitcustom", "false"),
   ("noresultsmessage", "no bugzilla tickets were found"),
   ("order", "asc"),
   ("status", "!CLOSED"),
   ("sort", "priority,status"),
   ("sortable", "1"),
   ("zeroasblank", "true")]

/-- The kind of a parameter; only the parameters of the schema have one. -/
def kind? (name : String) : Option Kind :=
  schema.lookup name

/-- What a parameter is when nobody sets it, if it is anything. -/
def default? (name : String) : Option String :=
  defaults.lookup name

/-- The policy of a parameter: that of its kind, but for `debug`, which is a level. -/
def policy? (name : String) : Option Policy :=
  if name == "debug" then some .level else (kind? name).map Kind.policy

/-- Trims a value and checks it against the policy of its parameter. -/
def validate (name raw : String) : Except Diagnostic String :=
  let value := Text.trimmed raw
  match policy? name with
  | none => .error (.unknownParameter name)
  | some policy =>
    if policy.admits value.toList then .ok value
    else .error (.invalidParameter name value policy.pattern)

end BugReport.Parameter
