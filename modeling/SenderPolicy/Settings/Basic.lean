import SenderPolicy.Number.Binary64
import SenderPolicy.Text.Basic
import SenderPolicy.Text.Blank

/-! The settings of the library, their defaults, and what follows from them. -/

namespace SenderPolicy

/-- A setting, as an environment or a caller names it. -/
inductive Setting
  | receivingHost
  | maxDomainLength
  | maxPointerNames
  | dnsTimeout
  | dnsLifetime
  | pointerCacheTtl
  | cacheNamespace
  | redisHost
  | redisPort
  | redisDatabase
  | reportDsn
  | reportEnvironment
  | reportSampleRate
  | logLevel
  deriving DecidableEq, Repr

namespace Setting

def all : List Setting :=
  [.receivingHost, .maxDomainLength, .maxPointerNames, .dnsTimeout, .dnsLifetime, .pointerCacheTtl,
    .cacheNamespace, .redisHost, .redisPort, .redisDatabase, .reportDsn, .reportEnvironment,
    .reportSampleRate, .logLevel]

theorem mem_all (s : Setting) : s ∈ all := by cases s <;> decide

def name : Setting → Text
  | .receivingHost => "receiving_host"
  | .maxDomainLength => "max_domain_length"
  | .maxPointerNames => "max_ptr_names"
  | .dnsTimeout => "dns_timeout"
  | .dnsLifetime => "dns_lifetime"
  | .pointerCacheTtl => "ptr_cache_ttl"
  | .cacheNamespace => "cache_prefix"
  | .redisHost => "redis_ip"
  | .redisPort => "redis_port"
  | .redisDatabase => "redis_db"
  | .reportDsn => "sentry_dsn"
  | .reportEnvironment => "sentry_environment"
  | .reportSampleRate => "sentry_traces_sample_rate"
  | .logLevel => "log_level"

def ofName? (name : Text) : Option Setting := all.find? (·.name == name)

theorem ofName?_name (s : Setting) : ofName? s.name = some s := by cases s <;> decide

end Setting

structure Settings where
  /-- The name of the receiving host, where a session has none of its own. -/
  receivingHost : Option Text := none
  /-- The length at which an expanded domain begins to lose labels. -/
  maxDomainLength : Int := 253
  /-- The number of pointers of an address that are followed; a negative one tells how many at the
  end are not. -/
  maxPointerNames : Int := 10
  dnsTimeout : Binary64 := .ofInt 2
  dnsLifetime : Binary64 := .ofInt 5
  /-- The number of seconds for which a validated name is cached. -/
  pointerCacheTtl : Int := 300
  /-- The text before every key of the cache. -/
  cacheNamespace : Text := "spf-macro:"
  redisHost : Option Text := none
  redisPort : Int := 6379
  redisDatabase : Int := 0
  reportDsn : Option Text := none
  reportEnvironment : Text := "production"
  reportSampleRate : Binary64 := .ofInt 1
  logLevel : Text := "INFO"
  deriving DecidableEq, Repr

namespace Settings

/-- The name of a receiving host that is missing or blank. -/
def unknownHost : Text := "unknown"

/-- A host without the white space around it and the dots after it; `unknown` where it is blank. -/
def hostName (host : Text) : Text :=
  let trimmed := Text.trim Text.isBlank host
  if trimmed = [] then unknownHost else trimmed.dropFinalDots

/-- The name of the receiving host; `unknown` where it is missing. -/
def receivingHostName (s : Settings) : Text := (s.receivingHost.map hostName).getD unknownHost

/-- A Redis server is used if its host is set. -/
def usesRedis (s : Settings) : Bool := s.redisHost.isSome

def redisUrl (s : Settings) : Text :=
  "redis://" ++ s.redisHost.getD ("None" : Text) ++ ":" ++ Text.ofInt s.redisPort ++ "/" ++
    Text.ofInt s.redisDatabase

/-- Where failures are reported to: a DSN that is not empty. -/
def reportTarget? (s : Settings) : Option Text := s.reportDsn.filter (· != [])

end Settings

end SenderPolicy
