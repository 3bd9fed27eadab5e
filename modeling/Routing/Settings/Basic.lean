/-
  SETTINGS OF THE COMPILE CACHE.

  There are four: whether the cache is on, how many routes it keeps, how long a route lives, and
  whether uses are counted.  Settings are checked once, when they are put together:

  * the size is a number and not below zero;
  * the time to live is null (no limit), or a number and not zero or below.

  Both checks are REFUSALS: a value passes unless it compares as too small.  A refusal is told in
  words that show the value.  An integer with too many digits for that is not accepted either, but
  then there are no words.
-/
import Routing.Assoc
import Routing.Setting
import Routing.Text.Quoted

namespace Routing

/-! ## Fields -/

/-- A setting of the cache. -/
inductive Field where
  | enabled
  | size
  | ttl
  | stats
  deriving DecidableEq

namespace Field

/-- All fields in the order in which they are shown. -/
def all : List Field := [.enabled, .size, .ttl, .stats]

/-- The name of a field. -/
def name : Field → Text
  | .enabled => "cache_enabled".toList
  | .size => "cache_size".toList
  | .ttl => "cache_ttl".toList
  | .stats => "cache_stats".toList

/-- The field that a name stands for. -/
def ofName? (name : Text) : Option Field := all.find? (·.name = name)

end Field

/-! ## What can be wrong with settings -/

/-- A complaint that is told in words. -/
inductive Complaint where
  | negativeSize (got : Setting)
  | nonPositiveTtl (got : Setting)
  | invalidValue (field : Field) (raw : Text)
  | unknownKeys (keys : List Text)

/-- The wording of a complaint. -/
def Complaint.message : Complaint → Text
  | .negativeSize got => "cache_size must be >= 0, got ".toList ++ got.shown
  | .nonPositiveTtl got => "cache_ttl must be > 0, got ".toList ++ got.shown
  | .invalidValue field raw =>
    "Invalid value for ".toList ++ field.name ++ ": ".toList ++ Text.quoted raw
  | .unknownKeys keys => "Unknown config keys: ".toList ++ List.intercalate ", ".toList keys

/-- Why there are no settings. -/
inductive SettingsFault where
  /-- A value or a key is not acceptable. -/
  | refused (c : Complaint)
  /-- A value is not acceptable, and the complaint cannot be put into words. -/
  | untold
  /-- A value that has to be a number is none. -/
  | incomparable
  /-- A key names no field. -/
  | unknownField (key : Text)
  /-- The settings file is not UTF-8. -/
  | unreadable

/-- The fault of a value that is not acceptable. -/
def SettingsFault.ofValue (complaint : Setting → Complaint) (got : Setting) : SettingsFault :=
  if got.isTellable then .refused (complaint got) else .untold

/-! ## Settings -/

/-- One value for each field. -/
structure Settings where
  enabled : Setting
  size : Setting
  ttl : Setting
  stats : Setting

namespace Settings

/-- The settings of a cache for which nothing is set. -/
def default : Settings := ⟨.bool true, .int 1000, .null, .bool true⟩

/-- The value of a field. -/
def get (s : Settings) : Field → Setting
  | .enabled => s.enabled
  | .size => s.size
  | .ttl => s.ttl
  | .stats => s.stats

/-- The settings with one field changed. -/
def set (s : Settings) (f : Field) (v : Setting) : Settings :=
  match f with
  | .enabled => { s with enabled := v }
  | .size => { s with size := v }
  | .ttl => { s with ttl := v }
  | .stats => { s with stats := v }

/-- The default settings with fields changed one after the other. -/
def ofValues (values : List (Field × Setting)) : Settings :=
  values.foldl (fun s p => s.set p.1 p.2) default

/-- Refuses a size below zero. -/
def checkSize (s : Settings) : Except SettingsFault Unit :=
  match s.size.number? with
  | none => .error .incomparable
  | some x => if x.lt (.ofInt 0) then .error (.ofValue .negativeSize s.size) else .ok ()

/-- Refuses a time to live that is zero or below. -/
def checkTtl (s : Settings) : Except SettingsFault Unit :=
  match s.ttl with
  | .null => .ok ()
  | ttl =>
    match ttl.number? with
    | none => .error .incomparable
    | some x => if x.le (.ofInt 0) then .error (.ofValue .nonPositiveTtl ttl) else .ok ()

/-- The **checked settings**: the size is checked first. -/
def check (s : Settings) : Except SettingsFault Settings :=
  match s.checkSize with
  | .error e => .error e
  | .ok _ => s.checkTtl.map fun _ => s

/-- The checked settings of named values; all names are looked at before any value. -/
def ofNamed (pairs : List (Text × Setting)) : Except SettingsFault Settings :=
  let named := Assoc.ofPairs pairs
  match named.keys.find? fun key => (Field.ofName? key).isNone with
  | some key => .error (.unknownField key)
  | none => (ofValues (named.filterMap fun p => (Field.ofName? p.1).map (·, p.2))).check

end Settings

/-! ## Examples -/

example : (Complaint.unknownKeys ["a".toList, "b".toList]).message
    = "Unknown config keys: a, b".toList := by decide
example : (Complaint.invalidValue .size "x".toList).message
    = "Invalid value for cache_size: 'x'".toList := by decide +kernel

end Routing
