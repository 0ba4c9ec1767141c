import Lookout.Period
import Lookout.Text.Blank

/-!
# Configuration

* `Config`: what an operator can set, with its defaults.
* `Config.ofEnvironment`: reads the configuration from environment variables. A variable that is
  blank counts as not set; one that cannot be read is an error. Numbers and periods are read between
  blanks, texts are taken as they are.
* `Config.validate`: the first setting that cannot work.
-/

namespace Lookout

/-- What an operator can set. -/
structure Config where
  dataSource : String := "hdfs"
  checkerType : String := "DataChecker"
  cacheMaxEntries : Nat := 10000
  cacheTtl : Duration := Duration.ofSecs (7 * 24 * 60 * 60)
  queueCapacity : Nat := 1000
  pollInterval : Duration := Duration.ofSecs 10
  defaultTimeToExpire : Duration := Duration.ofSecs (24 * 60 * 60)
  storageBackend : String := "local"
  storageRoot : String := "/"
  actionUrl : Option String := none
  deriving DecidableEq, Repr

/-- Why the value of an environment variable cannot be read. -/
inductive ValueError
  | count (error : Text.IntegerError)
  | period (error : PeriodError)
  deriving DecidableEq, Repr

/-- The wording of a value error. -/
def ValueError.message : ValueError → String
  | .count e => e.message
  | .period e => e.message

/-- An environment variable that cannot be read. -/
structure EnvironmentError where
  name : String
  value : String
  reason : ValueError
  deriving DecidableEq, Repr

/-- The wording of an environment error. -/
def EnvironmentError.message (e : EnvironmentError) : String :=
  "invalid value for " ++ e.name ++ ": '" ++ e.value ++ "': " ++ e.reason.message

/-- The settings that cannot work. -/
inductive ConfigError
  | noDataSource
  | noCheckerType
  | noCacheEntries
  | noCacheTtl
  | noQueueCapacity
  | noPollInterval
  | badActionUrl
  deriving DecidableEq, Repr

/-- The wording of a configuration error. -/
def ConfigError.message : ConfigError → String
  | .noDataSource => "data_source cannot be empty"
  | .noCheckerType => "checker_type cannot be empty"
  | .noCacheEntries => "cache_max_entries must be greater than 0"
  | .noCacheTtl => "cache_ttl must be greater than 0"
  | .noQueueCapacity => "queue_capacity must be greater than 0"
  | .noPollInterval => "poll_interval must be greater than 0"
  | .badActionUrl => "action_url must start with http:// or https://"

namespace Config

/-- An environment: the values of the variables that are set. -/
abbrev Environment := String → Option String

/-- The value of a variable that is not blank. -/
def value? (env : Environment) (name : String) : Option String :=
  (env name).filter fun v => !(Text.trim v.toList).isEmpty

/-- A variable that is read between blanks, or the default. -/
def parsed {α : Type} (env : Environment) (name : String) (default : α)
    (parse : List Char → Except ValueError α) : Except EnvironmentError α :=
  match value? env name with
  | none => .ok default
  | some value =>
    match parse (Text.trim value.toList) with
    | .ok a => .ok a
    | .error reason => .error { name, value, reason }

/-- Reads a count. -/
def parseCount (s : List Char) : Except ValueError Nat :=
  (Text.readNat Text.maxCount s).mapError .count

/-- Reads a period. -/
def parsePeriod (s : List Char) : Except ValueError Duration :=
  (Duration.ofPeriod (String.ofList s)).mapError .period

/-- The configuration in which each setting has its default. -/
def standard : Config := {}

/-- Reads the configuration; the first variable that cannot be read decides. -/
def ofEnvironment (env : Environment) : Except EnvironmentError Config := do
  let base := standard
  let cacheMaxEntries ←
    parsed env "DATAWATCH_CACHE_MAX_ENTRIES" base.cacheMaxEntries parseCount
  let queueCapacity ← parsed env "DATAWATCH_QUEUE_CAPACITY" base.queueCapacity parseCount
  let cacheTtl ← parsed env "DATAWATCH_CACHE_TTL" base.cacheTtl parsePeriod
  let pollInterval ← parsed env "DATAWATCH_POLL_INTERVAL" base.pollInterval parsePeriod
  let defaultTimeToExpire ←
    parsed env "DATAWATCH_DEFAULT_EXPIRE" base.defaultTimeToExpire parsePeriod
  return {
    dataSource := (value? env "DATAWATCH_DATA_SOURCE").getD base.dataSource
    checkerType := (value? env "DATAWATCH_CHECKER_TYPE").getD base.checkerType
    cacheMaxEntries, cacheTtl, queueCapacity, pollInterval, defaultTimeToExpire
    storageBackend := (value? env "DATAWATCH_STORAGE_BACKEND").getD base.storageBackend
    storageRoot := (value? env "DATAWATCH_STORAGE_ROOT").getD base.storageRoot
    actionUrl := value? env "DATAWATCH_ACTION_URL" }

/-- The address is one of the web. -/
def isWebAddress (url : String) : Bool :=
  "http://".toList.isPrefixOf url.toList || "https://".toList.isPrefixOf url.toList

/-- Fails at the first setting that cannot work. -/
def validate (c : Config) : Except ConfigError Unit :=
  if c.dataSource.isEmpty then .error .noDataSource
  else if c.checkerType.isEmpty then .error .noCheckerType
  else if c.cacheMaxEntries = 0 then .error .noCacheEntries
  else if c.cacheTtl.isZero then .error .noCacheTtl
  else if c.queueCapacity = 0 then .error .noQueueCapacity
  else if c.pollInterval.isZero then .error .noPollInterval
  else
    match c.actionUrl with
    | some url => if isWebAddress url then .ok () else .error .badActionUrl
    | none => .ok ()

/-- The defaults work. -/
theorem validate_standard : standard.validate = .ok () := rfl

end Config
end Lookout
