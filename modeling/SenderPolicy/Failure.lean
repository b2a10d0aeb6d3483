import SenderPolicy.Cache.Redis
import SenderPolicy.Dns.Zone
import SenderPolicy.MacroString.Scan
import SenderPolicy.Session
import SenderPolicy.Settings.Validation
import SenderPolicy.Severity
import SenderPolicy.Tuning

/-! The failures of the library, by their causes, with the kind and the message of each. -/

namespace SenderPolicy

/-- The kinds of failure.  The first nine are the library's own and form a tree; the others come
from what it rests on. -/
inductive Kind
  | policy
  | resolution
  | expansion
  | grammar
  | invalidEscape
  | unterminated
  | malformed
  | unbound
  | unresolved
  | validation
  | badValue
  | badType
  | overflow
  | missingKey
  | runtime
  | missingAttribute
  | undecodable
  | unencodable
  | timeout
  | noServers
  | badAddressValue
  | badNameText
  | longLabel
  | longName
  | emptyLabel
  | badPattern
  | unreachable
  | lateAnswer
  | refused
  | badArgument
  deriving DecidableEq, Repr

namespace Kind

def name : Kind → Text
  | .policy => "SPFMacroError"
  | .resolution => "DNSResolutionError"
  | .expansion => "MacroError"
  | .grammar => "MacroSyntaxError"
  | .invalidEscape => "InvalidEscapeError"
  | .unterminated => "UnterminatedMacroError"
  | .malformed => "MalformedMacroError"
  | .unbound => "UnboundMacroError"
  | .unresolved => "MacroResolutionError"
  | .validation => "ValidationError"
  | .badValue => "ValueError"
  | .badType => "TypeError"
  | .overflow => "OverflowError"
  | .missingKey => "KeyError"
  | .runtime => "RuntimeError"
  | .missingAttribute => "AttributeError"
  | .undecodable => "UnicodeDecodeError"
  | .unencodable => "UnicodeEncodeError"
  | .timeout => "Timeout"
  | .noServers => "NoNameservers"
  | .badAddressValue => "AddressValueError"
  | .badNameText => "SyntaxError"
  | .longLabel => "LabelTooLong"
  | .longName => "NameTooLong"
  | .emptyLabel => "EmptyLabel"
  | .badPattern => "error"
  | .unreachable => "ConnectionError"
  | .lateAnswer => "TimeoutError"
  | .refused => "ResponseError"
  | .badArgument => "DataError"

/-- The wider kinds that a kind belongs to, the nearest first. -/
def ancestors : Kind → List Kind
  | .resolution | .expansion => [.policy]
  | .grammar | .unbound | .unresolved => [.expansion, .policy]
  | .invalidEscape | .unterminated | .malformed => [.grammar, .expansion, .policy]
  | _ => []

def isExpansion (k : Kind) : Bool := k = .expansion ∨ .expansion ∈ k.ancestors

def all : List Kind :=
  [.policy, .resolution, .expansion, .grammar, .invalidEscape, .unterminated, .malformed, .unbound,
    .unresolved, .validation, .badValue, .badType, .overflow, .missingKey, .runtime,
    .missingAttribute, .undecodable, .unencodable, .timeout, .noServers, .badAddressValue,
    .badNameText, .longLabel, .longName, .emptyLabel, .badPattern, .unreachable, .lateAnswer,
    .refused, .badArgument]

def ofName? (name : Text) : Option Kind := all.find? (·.name == name)

theorem ofName?_name (k : Kind) : ofName? k.name = some k := by cases k <;> decide

end Kind

def NameFault.kind : NameFault → Kind
  | .longLabel => .longLabel
  | .longName => .longName
  | .emptyLabel => .emptyLabel

def RedisFault.kind : RedisFault → Kind
  | .unreachable _ => .unreachable
  | .timeout _ => .lateAnswer
  | .refused _ => .refused
  | .badArgument _ => .badArgument
  | .unencodable _ => .unencodable
  | .longNumber => .badValue

/-- Why a lookup ended that was expected to end otherwise. -/
inductive LookupFault
  | server (fault : ServerFault)
  | noTtl
  | undecodable (fault : Utf8.Fault)
  deriving DecidableEq, Repr

namespace LookupFault

def kind : LookupFault → Kind
  | .server .noServers => .noServers
  | .server (.badName fault) => fault.kind
  | .server (.other _) => .runtime
  | .noTtl => .missingAttribute
  | .undecodable _ => .undecodable

def message : LookupFault → Text
  | .server .noServers => "All nameservers failed to answer the query."
  | .server (.badName fault) => fault.message
  | .server (.other text) => text
  | .noTtl => "'NoneType' object has no attribute 'ttl'"
  | .undecodable f => f.message

end LookupFault

/-- Why the pointers of an address could not be looked up. -/
inductive ResolutionCause
  | timeout
  | failed (fault : ServerFault)
  deriving DecidableEq, Repr

structure ResolutionError where
  name : Text
  cause : ResolutionCause
  deriving DecidableEq, Repr

namespace ResolutionError

def causeKind (e : ResolutionError) : Kind :=
  match e.cause with
  | .timeout => .timeout
  | .failed fault => (LookupFault.server fault).kind

def message (e : ResolutionError) : Text :=
  "PTR lookup for " ++ e.name ++
    (match e.cause with
      | .timeout => (" timed out" : Text)
      | .failed fault => " failed: " ++ (LookupFault.server fault).message)

end ResolutionError

/-- Why a macro string could not be expanded; a domain that is too long comes with the text of the
limit.  The last cause is one that a caller puts in words. -/
inductive ExpansionCause
  | defect (defect : Defect)
  | unbound (letter : Letter)
  | unresolved (error : ResolutionError)
  | tooLong (limit : Text)
  | stated (kind : Kind) (message : Text)
  deriving DecidableEq, Repr

namespace ExpansionCause

def kind : ExpansionCause → Kind
  | .defect (.danglingPercent) | .defect (.invalidEscape _) => .invalidEscape
  | .defect .unterminated => .unterminated
  | .defect _ => .malformed
  | .unbound _ => .unbound
  | .unresolved _ => .unresolved
  | .tooLong _ => .malformed
  | .stated kind _ => kind

def message : ExpansionCause → Text
  | .defect d => d.message
  | .unbound letter => "No value bound for macro letter " ++ Text.quoted [letter.char]
  | .unresolved e => e.message
  | .tooLong limit => "Expanded domain is longer than " ++ limit ++ " characters"
  | .stated _ message => message

end ExpansionCause

/-- A macro string that could not be expanded: the string, which callers that report a failure may
leave out, and the offset at which it stopped being one.  A negative offset stands for none. -/
structure ExpansionError where
  cause : ExpansionCause
  value : Option Text := some []
  position : Int := -1
  deriving DecidableEq, Repr

/-- The message names the offset and the string where there is an offset. -/
def ExpansionError.message (e : ExpansionError) : Text :=
  if e.position < 0 then e.cause.message
  else
    let value : Value := (e.value.map Value.text).getD .nothing
    e.cause.message ++ " at offset " ++ Text.ofInt e.position ++ " in " ++ value.literal

inductive Failure
  | expansion (error : ExpansionError)
  | resolution (error : ResolutionError)
  | settings (faults : List Settings.Fault)
  | request (fault : RequestFault)
  | longCount (digits : Nat)
  | longNumber
  | unknownLevel (level : Text)
  | unknownLetter (letter : Text)
  | addressForm (address : Text) (fault : GroupsFault)
  | noPointerName
  | transformation (fault : Transformation.Fault)
  | tuning (fault : Tuning.Fault)
  | duration (fault : DurationFault)
  | redis (fault : RedisFault)
  | severity (fault : Severity.Fault)
  | stated (kind : Kind) (message : Text)
  deriving DecidableEq, Repr

namespace Failure

def kind : Failure → Kind
  | .expansion e => e.cause.kind
  | .resolution _ => .resolution
  | .settings _ => .validation
  | .request .infiniteTime | .duration .tooLong => .overflow
  | .request _ | .longCount _ | .longNumber | .unknownLevel _ => .badValue
  | .tuning (.unknownSetting _) => .badValue
  | .tuning (.derivedSetting _) | .tuning (.noHost _) => .missingAttribute
  | .tuning _ | .duration (.noNumber _) | .severity _ => .badType
  | .unknownLetter _ => .missingKey
  | .addressForm _ _ => .badAddressValue
  | .noPointerName => .badNameText
  | .transformation .noDelimiters => .badPattern
  | .transformation (.unencodable _) => .unencodable
  | .redis fault => fault.kind
  | .stated kind _ => kind

def message : Failure → Text
  | .expansion e => e.message
  | .resolution e => e.message
  | .settings _ => []
  | .request f => f.message
  | .longCount digits =>
    "Exceeds the limit (" ++ Text.ofNat MacroString.countDigitLimit ++
      " digits) for integer string conversion: value has " ++ Text.ofNat digits ++
      " digits; use sys.set_int_max_str_digits() to increase the limit"
  | .longNumber => Text.longNumberMessage
  | .unknownLevel level => "Unknown level: " ++ level.quoted
  | .unknownLetter letter => letter.quoted
  | .addressForm address fault => fault.message address
  | .noPointerName => "Text input is malformed."
  | .transformation fault => fault.message
  | .tuning f => f.message
  | .duration f => f.message
  | .redis f => f.message
  | .severity f => f.message
  | .stated .missingKey key => key.quoted
  | .stated _ message => message

/-- The kind of the failure from which another one arose. -/
def causeKind? : Failure → Option Kind
  | .expansion { cause := .unresolved _, .. } => some .resolution
  | .resolution e => some e.causeKind
  | _ => none

/-- A failure of a kind, in the words of the caller. -/
def ofKind (kind : Kind) (message : Text) : Failure :=
  if kind.isExpansion then .expansion { cause := .stated kind message } else .stated kind message

/-- A failure of a kind, in the words of the caller, with a string and an offset if `value?` and
`position?` give them; the string that is given may be none.  A kind that has no place for these
shows all that is given as message. -/
def ofParts (kind : Kind) (message : Text) (value? : Option (Option Text))
    (position? : Option Int) : Failure :=
  let value := value?.getD (some [])
  if kind.isExpansion then
    .expansion { cause := .stated kind message, value, position := position?.getD (-1) }
  else
    let shown : Value := (value.map Value.text).getD .nothing
    match value?, position? with
    | none, none => .stated kind message
    | some _, none => .stated kind (Value.sequence [message, shown])
    | _, some position => .stated kind (Value.sequence [message, shown, .integer position])

def ofScan (value : Text) : ScanFault → Failure
  | .defect d position => .expansion { cause := .defect d, value, position }
  | .longCount digits => .longCount digits

end Failure

end SenderPolicy
