import XmlToJson.Json.Object

/-!
# Log records

What happens during a conversion is told in records.  A record carries the fields of the logger
that wrote it, `component` and `correlation_id`, and those of the call, which win over them.
-/

namespace XmlToJson

/-- How grave a record is. -/
inductive LogLevel where
  | debug
  | info
  | warning
  | error
  | critical
  deriving DecidableEq, Repr

namespace LogLevel

/-- The levels from the least grave on. -/
def all : List LogLevel := [.debug, .info, .warning, .error, .critical]

def name : LogLevel → String
  | .debug => "DEBUG"
  | .info => "INFO"
  | .warning => "WARNING"
  | .error => "ERROR"
  | .critical => "CRITICAL"

/-- The place of a level among the others. -/
def rank : LogLevel → Nat
  | .debug => 0
  | .info => 1
  | .warning => 2
  | .error => 3
  | .critical => 4

/-- The level with the given name. -/
def ofName? (name : String) : Option LogLevel :=
  all.find? fun level => level.name == name

@[simp] theorem ofName?_name (level : LogLevel) : ofName? level.name = some level := by
  cases level <;> decide

end LogLevel

/-- A record of what happened. -/
structure LogRecord where
  level : LogLevel
  /-- The name of the logger that wrote the record. -/
  source : String
  message : String
  fields : Object

namespace LogRecord

/-- Whether the record is shown when everything below `level` is left out. -/
def reaches (level : LogLevel) (record : LogRecord) : Bool :=
  level.rank ≤ record.level.rank

/-- The record on a line of its own, without its fields. -/
def line (record : LogRecord) : String :=
  s!"{record.level.name}:{record.source}:{record.message}"

end LogRecord

/-- Where records come from. -/
structure Logger where
  name : String
  component : String
  correlationId : Option String

namespace Logger

/-- The part of a dotted name after its last dot. -/
def lastPart (name : String) : String :=
  String.ofList (name.toList.reverse.takeWhile (· != '.')).reverse

/-- The logger with the given name.  Without a component, or with an empty one, the last part of
the name is the component. -/
def named (name : String) (correlationId component : Option String) : Logger where
  name := name
  component :=
    match component with
    | some component => if component = "" then lastPart name else component
    | none => lastPart name
  correlationId := correlationId

/-- The names that no field of a call may have, because every record has them already. -/
def reservedFields : List String :=
  ["message", "asctime", "name", "msg", "args", "levelname", "levelno", "pathname", "filename",
    "module", "exc_info", "exc_text", "stack_info", "lineno", "funcName", "created", "msecs",
    "relativeCreated", "thread", "threadName", "processName", "process"]

/-- The fields of the logger itself. -/
def ownFields (logger : Logger) : Object :=
  .ofMembers [("component", .string logger.component),
    ("correlation_id", (logger.correlationId.map Value.string).getD .null)]

/-- A record with the fields of the logger and those of the call. -/
def record (logger : Logger) (level : LogLevel) (message : String)
    (fields : List (String × Value)) : LogRecord where
  level := level
  source := logger.name
  message := message
  fields := fields.foldl (fun object (key, value) => object.set key value) logger.ownFields

/-- A record, unless one of the fields has a name that no field may have. -/
def record? (logger : Logger) (level : LogLevel) (message : String)
    (fields : List (String × Value)) : Option LogRecord :=
  if fields.any fun (key, _) => reservedFields.contains key then none
  else some (logger.record level message fields)

end Logger

end XmlToJson
