import SenderPolicy.Reporting

/-! Lookups in the domain name system.  A name without records has an empty answer.  For hosts and
texts a timeout counts as that too, and any other fault is announced and counts as an empty answer;
for pointers both are failures. -/

namespace SenderPolicy.Resolution

open SenderPolicy.Action

/-- Announces the fault of a lookup, under the name that `field` gives to the question's name. -/
def announceFault (fault : LookupFault) (field : Text) (question : Question) : Action Unit :=
  Reporting.announce fault.kind fault.message
    [(field, .text question.name), ("record_type", .text question.type.name)] .error

/-- The pointers of a name, as texts without a dot at their ends. -/
def pointers (name : Text) : Action (List Text) := do
  let question : Question := ⟨.pointer, name⟩
  record (.query question)
  match (← read).zone.pointers name with
  | .answer names => return names.map DomainName.toText
  | .absent | .noRecords => return []
  | .timeout =>
    log .resolver .warning ("PTR lookup for " ++ name ++ " timed out")
    throw (.resolution ⟨name, .timeout⟩)
  | .failed fault =>
    announceFault (.server fault) "name" question
    throw (.resolution ⟨name, .failed fault⟩)

/-- The records that an outcome holds, where each may be read by `read`, and their time to live. -/
def readRecords {α β : Type} (read : α → Except LookupFault β) (outcome : Outcome (RecordSet α)) :
    Except LookupFault (List β × Value) :=
  match outcome with
  | .answer set => do
    let records ← set.records.mapM read
    match set.ttl with
    | some ttl => .ok (records, ttl)
    | none => .error .noTtl
  | .absent | .noRecords | .timeout => .ok ([], .integer 0)
  | .failed fault => .error (.server fault)

/-- The records of a lookup; a fault is announced, and stands for no records. -/
def records {α : Type} (field : Text) (question : Question)
    (result : Except LookupFault (List α × Value)) : Action (List α × Value) := do
  record (.query question)
  match result with
  | .ok found => return found
  | .error fault =>
    announceFault fault field question
    return ([], .integer 0)

def ipv4Hosts (name : Text) : Action (List Text × Value) := do
  records "hostname" ⟨.ipv4Host, name⟩ (readRecords .ok ((← read).zone.ipv4Hosts name))

def ipv6Hosts (name : Text) : Action (List Text × Value) := do
  records "hostname" ⟨.ipv6Host, name⟩ (readRecords .ok ((← read).zone.ipv6Hosts name))

/-- The text of a record: its strings in one, read as UTF-8. -/
def recordText (strings : List Bytes) : Except LookupFault Text :=
  (Utf8.decode strings.flatten).mapError .undecodable

def texts (name : Text) : Action (List Text × Value) := do
  records "domain" ⟨.text, name⟩ (readRecords recordText ((← read).zone.texts name))

end SenderPolicy.Resolution
