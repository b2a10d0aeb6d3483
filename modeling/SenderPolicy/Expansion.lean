import SenderPolicy.ValidatedName

/-! Expansion of macro strings against a session.  A string is scanned as a whole before any letter
is resolved, so a string that is not well formed has no effects but a log entry. -/

namespace SenderPolicy

open SenderPolicy.Action

/-- A term of a policy record: a qualifier, a mechanism and its value. -/
structure Term where
  qualifier : Text
  mechanism : Text
  value : Text
  deriving DecidableEq, Repr

/-- A term that holds the domain of an explanation. -/
def Term.isExplanation (t : Term) : Bool := t.mechanism.lower == ("exp" : Text)

/-- What macro strings are expanded with: a tuning, and the cache of validated names. -/
structure Expander where
  tuning : Tuning
  cache : Cache

namespace Expander

/-- The value of a letter, before its transformation. -/
def resolve (x : Expander) (session : Session) : Letter → Action Text
  | .sender => pure session.sender
  | .localPart => pure session.localPart
  | .senderDomain => pure session.senderDomain
  | .currentDomain => pure session.currentDomain
  | .clientAddress => match session.client.dotted with
    | .ok text => pure text
    | .error fault => throw (.addressForm session.client.toText fault)
  | .validatedName =>
    tryCatch (ValidatedName.preferred x.tuning x.cache session.client session.currentDomain)
      fun failure => match failure with
        | .resolution error => throw (.expansion { cause := .unresolved error })
        | _ => throw failure
  | .heloDomain => match session.heloDomain with
    | some domain => pure domain
    | none => throw (.expansion { cause := .unbound .heloDomain })
  | .readableAddress => pure session.client.toText
  | .receivingHost => match session.receivingHost with
    | some (c :: host) => pure (c :: host)
    | _ => match x.tuning.receivingHostName with
      | .ok host => pure host
      | .error fault => throw (.tuning fault)
  | .timestamp => match Text.ofInt? session.timestamp with
    | some text => pure text
    | none => throw .longNumber
  | .addressVersion => pure session.client.label

def resolveText (x : Expander) (session : Session) (letter : Text) : Action Text :=
  match letter with
  | [c] => match Letter.ofChar? c with
    | some l => x.resolve session l
    | none => throw (.unknownLetter letter)
  | _ => throw (.unknownLetter letter)

def expandPiece (x : Expander) (session : Session) : Piece → Action Text
  | .literal text => pure text
  | .token token => do
    match token.transform? (← x.resolve session token.letter) with
    | .ok text => pure text
    | .error fault => throw (.transformation fault)

/-- The text of a macro string whose letters are among `letters`. -/
def expand (x : Expander) (session : Session) (value : Text) (letters : List Character) :
    Action Text := do
  match MacroString.scan letters value with
  | .ok pieces => return (← pieces.mapM (x.expandPiece session)).flatten
  | .error fault =>
    let failure := Failure.ofScan value fault
    if failure.kind.isExpansion then
      log .expander .debug ("Rejected macro string: " ++ failure.message)
    throw failure

/-- What follows the first dot of a text, if it has a dot. -/
def afterDot? : Text → Option Text
  | [] => none
  | c :: t => if c = '.' then some t else afterDot? t

theorem length_lt_of_afterDot? {t rest : Text} (h : afterDot? t = some rest) :
    rest.length < t.length := by
  induction t with
  | nil => cases h
  | cons c t ih =>
    rw [afterDot?] at h
    split at h
    · obtain rfl := Option.some.inj h
      simp
    · have := ih h
      simp only [List.length_cons]
      omega

/-- Whether a text has at most `limit?` characters, if that is a bound. -/
def fits (limit? : Option Int) (t : Text) : Bool :=
  match limit? with
  | none => true
  | some limit => (t.length : Int) ≤ limit

/-- A domain without labels on its left, which are dropped one by one until the rest fits or has no
dot. -/
def shorten (limit? : Option Int) (domain : Text) : Text :=
  if fits limit? domain then domain
  else match _ : afterDot? domain with
    | none => domain
    | some rest => shorten limit? rest
termination_by domain.length
decreasing_by exact length_lt_of_afterDot? ‹_›

/-- The domain that a macro string stands for.  It ends in no dot, and it loses labels on the left
until it has at most the length that the tuning allows. -/
def expandDomainSpec (x : Expander) (session : Session) (value : Text) : Action Text := do
  let domain := (← x.expand session value Letter.domainSpecChars).dropFinalDots
  match x.tuning.domainLength? with
  | .error fault => throw (.tuning fault)
  | .ok limit? =>
    let shortened := shorten limit? domain
    if !fits limit? shortened then
      match x.tuning.lengthText? with
      | some limit => throw (.expansion { cause := .tooLong limit, value })
      | none => throw .longNumber
    if shortened ≠ domain then
      log .expander .debug ("Shortened expanded domain " ++ domain ++ " to " ++ shortened)
    return shortened

/-- The text of an explanation, which may use every letter. -/
def expandExplanation (x : Expander) (session : Session) (value : Text) : Action Text :=
  x.expand session value Letter.allChars

def expandTerm (x : Expander) (session : Session) (term : Term) : Action Text :=
  Reporting.guarded <|
    if term.isExplanation then x.expandExplanation session term.value
    else x.expandDomainSpec session term.value

end Expander

end SenderPolicy
