import SenderPolicy.Cache.Store
import SenderPolicy.Text.Utf8

/-! Redis databases, as their clients see them: what each command answers, and what the database
holds after it.  Any command may fail, as the client may not reach the database, and the database
may refuse what it is told. -/

namespace SenderPolicy

/-- Why a command to a database fails, in the words of its client. -/
inductive RedisFault
  | unreachable (message : Text)
  | timeout (message : Text)
  | refused (message : Text)
  | badArgument (message : Text)
  | unencodable (fault : EncodeFault)
  | longNumber
  deriving DecidableEq, Repr

def RedisFault.message : RedisFault → Text
  | .unreachable message | .timeout message | .refused message | .badArgument message => message
  | .unencodable fault => fault.message
  | .longNumber => Text.longNumberMessage

/-- The answers of a database to the commands of its client, by what it holds and the time.
Deleting answers the number of keys that are removed. -/
structure Redis where
  get (store : Store) (now : Binary64) (key : Text) : Except RedisFault (Option Text)
  set (store : Store) (now : Binary64) (key value : Text) (ttl : Value) :
    Except RedisFault Unit × Store
  delete (store : Store) (now : Binary64) (key : Text) : Except RedisFault Nat × Store

namespace Redis

/-- Why a command is not sent: the first of its texts that holds surrogates, if there is one. -/
def unsent? (texts : List Text) : Option RedisFault :=
  (texts.findSome? Text.encodeFault?).map .unencodable

/-- The longest time to live that a database takes, in seconds: its milliseconds have 64 bits. -/
def longestTtl : Int := 9223372036854775

/-- Why a value is not set, if it is not.  The client looks at the type of the time to live and
writes the command; the database looks at the number of seconds. -/
def setFault? (key value : Text) : Value → Option RedisFault
  | .integer ttl =>
    (unsent? [key, value]).or <|
      if (Text.ofInt? ttl).isNone then some .longNumber
      else if 1 ≤ ttl ∧ ttl ≤ longestTtl then none
      else some (.refused "invalid expire time in 'set' command")
  | _ => some (.badArgument "ex must be datetime.timedelta or int")

/-- A database that is always reached and does what the documentation says.  It stores by exact key,
and sees to deadlines itself. -/
def documented : Redis where
  get store now key :=
    match unsent? [key] with
    | none => .ok (store.find? now key)
    | some fault => .error fault
  set store _ key value ttl :=
    match setFault? key value ttl with
    | none => (.ok (), store.insert key ⟨value, none⟩)
    | some fault => (.error fault, store)
  delete store now key :=
    match unsent? [key] with
    | none => (.ok (if (store.find? now key).isSome then 1 else 0), store.erase key)
    | some fault => (.error fault, store)

end Redis

end SenderPolicy
