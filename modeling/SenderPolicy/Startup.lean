import SenderPolicy.Services

/-! The start of a process: the log level is set, reporting is started, the default cache is opened
anew, the time limits of lookups are set, and the state of the services is logged. -/

namespace SenderPolicy

def LogLevel.numberOf? (name : Text) : Option Nat :=
  [(("CRITICAL" : Text), 50), ("FATAL", 50), ("ERROR", 40), ("WARN", 30), ("WARNING", 30),
    ("INFO", 20), ("DEBUG", 10), ("NOTSET", 0)].lookup name

def LogLevel.number : LogLevel → Nat
  | .debug => 10
  | .info => 20
  | .warning => 30
  | .error => 40
  | .critical => 50

/-- The lines of the standard output that a log entry makes, after the time. -/
def LogEntry.lines (e : LogEntry) : List Text :=
  Text.lines (e.component.name ++ " - " ++ e.level.name ++ " - " ++ e.message)

/-- What a start has set: the log level, the time limits of lookups, and the place of the default
expander. -/
structure Startup where
  level : Nat
  timeout : Binary64
  lifetime : Binary64
  expanderId : Nat

namespace Startup

/-- What is logged about the settings of a process. -/
def notices (settings : Settings) : List Text :=
  let state (enabled : Bool) : Text := if enabled then "enabled" else "disabled"
  ["SPF macro expander starting...",
    "Receiving host: " ++ settings.receivingHostName,
    "Redis: " ++ state settings.usesRedis,
    "Sentry: " ++ state settings.reportTarget?.isSome]

/-- Starts a process by its settings.  The notices are logged at a level below which entries are
not kept. -/
def run : ServiceAction Startup := do
  let settings ← Services.withoutCache Action.processSettings
  let name := settings.logLevel.upper
  match LogLevel.numberOf? name with
  | none => throw (.unknownLevel name)
  | some level =>
    Services.withoutCache Reporting.start
    let _ ← Services.replaceCache settings
    if level ≤ LogLevel.info.number then
      Services.withoutCache ((notices settings).forM (Action.log .app .info))
    let expanderId ← Services.currentExpander
    return { level, timeout := settings.dnsTimeout, lifetime := settings.dnsLifetime, expanderId }

end Startup

end SenderPolicy
