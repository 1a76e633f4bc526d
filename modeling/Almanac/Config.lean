import Almanac.Value.Integer

/-!
# Configuration

An estimator is configured by how many cron expressions it remembers, whether interval jobs must
have a reference instant, and how many days one estimate may cover. Settings are given by name in a
record or as texts of an environment, and are kept as they were given; `capacity`, `needsReference`
and `dayLimit` say what they mean. A configuration exists only for a capacity that is not negative
and a limit of at least one day.
-/

namespace Almanac

/-- How many cron expressions a setting lets a cache remember. An undefined number lets it remember
none. -/
def Config.capacityOf : Value → Int
  | .real .undefined => 0
  | size => (size.floor?).getD 0

structure Config where
  cacheSize : Value
  requireReference : Value
  rangeLimit : Value
  cacheSize_valid : 0 ≤ Config.capacityOf cacheSize
  rangeLimit_valid : 1 ≤ (rangeLimit.floor?).getD 1
deriving DecidableEq

namespace Config

def capacity (config : Config) : Int := capacityOf config.cacheSize

def needsReference (config : Config) : Bool := config.requireReference.isTrue

def dayLimit (config : Config) : Int := (config.rangeLimit.floor?).getD 1

theorem one_le_dayLimit (config : Config) : 1 ≤ config.dayLimit := config.rangeLimit_valid

def standard : Config where
  cacheSize := .int 256
  requireReference := .bool false
  rangeLimit := .int 3660
  cacheSize_valid := by decide
  rangeLimit_valid := by decide

/-- The configuration with these settings; the cache size is checked first. -/
def ofValues (cacheSize requireReference rangeLimit : Value) : Except Error Config :=
  if cacheSize.floor?.isNone then .error .notComparable
  else if hc : 0 ≤ capacityOf cacheSize then
    if rangeLimit.floor?.isNone then .error .notComparable
    else if hr : 1 ≤ (rangeLimit.floor?).getD 1 then
      .ok ⟨cacheSize, requireReference, rangeLimit, hc, hr⟩
    else .error .rangeLimitTooSmall
  else .error .negativeCacheSize

def settingNames : List String := ["cron_cache_size", "require_reference_instant", "max_range_days"]

def ofFields (fields : Fields) : Except Error Config :=
  match List.find? (fun field => !settingNames.contains field.1) fields with
  | some field => .error (.unknownSetting field.1)
  | none =>
      ofValues ((Fields.find? "cron_cache_size" fields).getD standard.cacheSize)
        ((Fields.find? "require_reference_instant" fields).getD standard.requireReference)
        ((Fields.find? "max_range_days" fields).getD standard.rangeLimit)

def isOn (text : String) : Bool := ["true", "1", "yes", "on"].contains text.toLower

def environmentNumber (text : Option String) (default : Value) : Except Error Value :=
  match text with
  | none => .ok default
  | some text => (Value.text text).toInteger.map .int

/-- The configuration that an environment gives, where the variables' names start with `lead`. -/
def ofEnvironment (lead : String) (environment : List (String × String)) : Except Error Config := do
  let cacheSize ← environmentNumber (environment.lookup (lead ++ "CRON_CACHE_SIZE"))
    standard.cacheSize
  let requireReference :=
    match environment.lookup (lead ++ "REQUIRE_REFERENCE_INSTANT") with
    | none => standard.requireReference
    | some text => .bool (isOn text)
  let rangeLimit ← environmentNumber (environment.lookup (lead ++ "MAX_RANGE_DAYS"))
    standard.rangeLimit
  ofValues cacheSize requireReference rangeLimit

end Config

end Almanac
