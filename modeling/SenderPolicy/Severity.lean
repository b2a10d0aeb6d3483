import SenderPolicy.Value

/-! The levels of log entries, and the severities by which callers ask for one.  A log has members
besides those that write an entry of a level, and a severity that names such a member cannot be
used. -/

namespace SenderPolicy

inductive LogLevel
  | debug
  | info
  | warning
  | error
  | critical
  deriving DecidableEq, Repr

def LogLevel.name : LogLevel → Text
  | .debug => "DEBUG"
  | .info => "INFO"
  | .warning => "WARNING"
  | .error => "ERROR"
  | .critical => "CRITICAL"

namespace Severity

/-- What a log has under the name of a member that writes no entry of a level: an operation that
takes no note of a failure's origin, one that takes no notes at all, or a value of some type.  The
last two cases are operations that fail over the failure itself, or in words of their own. -/
inductive Member
  | operation (name : String)
  | bareOperation (name : String)
  | field (type : String)
  | sizing
  | stated (message : String)
  deriving DecidableEq, Repr

/-- The message of the failure to log a failure of the kind `kindName` by a member. -/
def Member.message (kindName : Text) : Member → Text
  | .operation name => name ++ "() got an unexpected keyword argument 'exc_info'"
  | .bareOperation name => name ++ "() takes no keyword arguments"
  | .field type => "'" ++ type ++ "' object is not callable"
  | .sizing => "object of type '" ++ kindName ++ "' has no len()"
  | .stated message => message

/-- The members that write entries of a level. -/
def levels : List (String × LogLevel) :=
  [("debug", .debug), ("info", .info), ("warning", .warning), ("warn", .warning),
    ("error", .error), ("exception", .error), ("critical", .critical), ("fatal", .critical)]

def members : List (String × Member) :=
  [("addFilter", .operation "Filterer.addFilter"),
    ("filter", .operation "Filterer.filter"),
    ("removeFilter", .operation "Filterer.removeFilter"),
    ("addHandler", .operation "Logger.addHandler"),
    ("callHandlers", .operation "Logger.callHandlers"),
    ("findCaller", .operation "Logger.findCaller"),
    ("getChild", .operation "Logger.getChild"),
    ("getEffectiveLevel", .operation "Logger.getEffectiveLevel"),
    ("handle", .operation "Logger.handle"),
    ("hasHandlers", .operation "Logger.hasHandlers"),
    ("isEnabledFor", .operation "Logger.isEnabledFor"),
    ("removeHandler", .operation "Logger.removeHandler"),
    ("setLevel", .operation "Logger.setLevel"),
    ("__class__", .operation "Logger.__init__"),
    ("__init__", .operation "Logger.__init__"),
    ("__reduce__", .operation "Logger.__reduce__"),
    ("__repr__", .operation "Logger.__repr__"),
    ("__dir__", .bareOperation "Logger.__dir__"),
    ("__format__", .bareOperation "Logger.__format__"),
    ("__getstate__", .bareOperation "Logger.__getstate__"),
    ("__init_subclass__", .bareOperation "Logger.__init_subclass__"),
    ("__reduce_ex__", .bareOperation "Logger.__reduce_ex__"),
    ("__sizeof__", .bareOperation "Logger.__sizeof__"),
    ("__subclasshook__", .bareOperation "__subclasshook__"),
    ("__delattr__", .bareOperation "wrapper __delattr__"),
    ("__eq__", .bareOperation "wrapper __eq__"),
    ("__ge__", .bareOperation "wrapper __ge__"),
    ("__getattribute__", .bareOperation "wrapper __getattribute__"),
    ("__gt__", .bareOperation "wrapper __gt__"),
    ("__hash__", .bareOperation "wrapper __hash__"),
    ("__le__", .bareOperation "wrapper __le__"),
    ("__lt__", .bareOperation "wrapper __lt__"),
    ("__ne__", .bareOperation "wrapper __ne__"),
    ("__setattr__", .bareOperation "wrapper __setattr__"),
    ("__str__", .bareOperation "wrapper __str__"),
    ("__dict__", .field "dict"),
    ("__doc__", .field "str"),
    ("__module__", .field "str"),
    ("__weakref__", .field "NoneType"),
    ("_cache", .field "dict"),
    ("disabled", .field "bool"),
    ("filters", .field "list"),
    ("handlers", .field "list"),
    ("level", .field "int"),
    ("manager", .field "Manager"),
    ("name", .field "str"),
    ("parent", .field "Logger"),
    ("propagate", .field "bool"),
    ("root", .field "RootLogger"),
    ("_log", .sizing),
    ("log", .stated "level must be an integer"),
    ("makeRecord", .stated
      "Logger.makeRecord() missing 3 required positional arguments: 'lno', 'msg', and 'args'"),
    ("__new__", .stated "object.__new__(X): X is not a type object (str)")]

/-- Why a severity cannot be used: its type is not that of a name, or it names a member that writes
no entry of a level. -/
inductive Fault
  | noName (type : Text)
  | noLevel (member : Member) (kindName : Text)
  deriving DecidableEq, Repr

def Fault.message : Fault → Text
  | .noName type => "attribute name must be string, not '" ++ type ++ "'"
  | .noLevel member kindName => member.message kindName

/-- What stands under a name in a table. -/
def named? {α : Type} (name : Text) (table : List (String × α)) : Option α :=
  (table.find? fun (entry, _) => name == entry).map (·.2)

/-- The level at which a failure of the kind `kindName` is logged.  A name that is no member's is an
error. -/
def level (kindName : Text) : Value → Except Fault LogLevel
  | .text name =>
    match named? name levels, named? name members with
    | some level, _ => .ok level
    | none, some member => .error (.noLevel member kindName)
    | none, none => .ok .error
  | v => .error (.noName v.typeName)

end Severity

end SenderPolicy
