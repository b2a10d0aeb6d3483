import SenderPolicy.Action

/-! Reporting of failures.  A failure is logged, and it is captured where the process settings name
a target for reports.  Failures to expand a macro string are answers to the caller, and `guarded`
never captures them. -/

namespace SenderPolicy.Reporting

open SenderPolicy.Action

/-- Captures a failure, with its context as extras, where there is a target for reports. -/
def capture (settings : Settings) (kind : Kind) (message : Text)
    (context : List (Text × Value)) : Action Unit := do
  if settings.reportTarget?.isSome then
    context.forM fun (key, value) => record (.report (.extra key value))
    record (.report (.capture kind message))

def announce (kind : Kind) (message : Text) (context : List (Text × Value)) (level : LogLevel) :
    Action Unit := do
  let settings ← processSettings
  log .reporting level (kind.name ++ ": " ++ message)
  capture settings kind message context

/-- Logs a failure at the level of a severity and captures it.  A severity that cannot be used is
found after the settings have been read. -/
def announceAs (kind : Kind) (message : Text) (context : List (Text × Value)) (severity : Value) :
    Action Unit := do
  let _ ← processSettings
  match Severity.level kind.name severity with
  | .ok level => announce kind message context level
  | .error fault => throw (.severity fault)

/-- An action whose failures are captured, unless they are failures to expand a macro string.  The
failure stands, except that invalid process settings take its place. -/
def guarded {α : Type} (action : Action α) : Action α :=
  tryCatch action fun failure => do
    if !failure.kind.isExpansion then
      let settings ← processSettings
      capture settings failure.kind failure.message []
    throw failure

/-- Starts reporting, where the process settings name a target for reports. -/
def start : Action Unit := do
  let settings ← processSettings
  match settings.reportTarget? with
  | some dsn =>
    record (.report (.start dsn settings.reportEnvironment settings.reportSampleRate))
  | none => pure ()

end SenderPolicy.Reporting
