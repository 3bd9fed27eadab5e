/-
  THE COMPILE CACHE — routes by source, least recently used first.

  1. **Entries** stand in order of their latest use: a hit and a store move an entry to the end, so
     the entry to give up is the first one.
  2. **Capacity.**  Storing a NEW key first gives up entries from the front until one more fits.
     Storing a key again replaces its entry and gives up nothing.  With a capacity of zero or below
     nothing is stored.
  3. **Age.**  An entry older than the time to live is removed by the lookup that finds it.
  4. **Counting** is on or off as a whole, and covers hits, misses, evictions, rejections and the
     time spent compiling.

  The capacity, the time to live and the switch for counting are settings that nobody has checked,
  so an operation may find that one of them is no number.  It finds out before it changes anything.
-/
import Routing.Clock
import Routing.Route.Basic
import Routing.Settings.Basic

namespace Routing

/-! ## What can go wrong -/

/-- Why an operation has no result. -/
inductive Failure where
  /-- A pattern has no route. -/
  | pattern (f : PatternFault)
  /-- There are no settings to build a cache from. -/
  | settings (f : SettingsFault)
  /-- A value that has to be a number is none. -/
  | incomparable
  /-- A clock is given what is no time. -/
  | clock (f : ClockFault)

/-! ## Entries and statistics -/

/-- A cached route and its history. -/
structure Entry where
  key : Text
  route : Route
  createdAt : Float
  lastUsed : Float
  uses : Nat
  compileTime : Setting

/-- The entry after a hit. -/
def Entry.touch (e : Entry) (now : Float) : Entry := { e with lastUsed := now, uses := e.uses + 1 }

/-- What has been counted. -/
structure Stats where
  hits : Nat
  misses : Nat
  evictions : Nat
  errors : Nat
  compileTime : Float
  deriving DecidableEq

namespace Stats

/-- Nothing counted yet. -/
def zero : Stats := ⟨0, 0, 0, 0, 0.0⟩

/-- One more hit. -/
def hit (s : Stats) : Stats := { s with hits := s.hits + 1 }

/-- One more miss. -/
def miss (s : Stats) : Stats := { s with misses := s.misses + 1 }

/-- As many more evictions as `n` says. -/
def evict (n : Nat) (s : Stats) : Stats := { s with evictions := s.evictions + n }

/-- One more rejected source. -/
def reject (s : Stats) : Stats := { s with errors := s.errors + 1 }

/-- More time spent compiling. -/
def spend (time : Float) (s : Stats) : Stats := { s with compileTime := s.compileTime + time }

/-- The share of hits among all lookups; zero before the first. -/
def hitRate (s : Stats) : Float :=
  if s.hits + s.misses = 0 then 0.0
  else Float.ofScientific s.hits false 0 / Float.ofScientific (s.hits + s.misses) false 0

end Stats

/-! ## The cache -/

/-- A cache: its three settings, its entries from the least to the most recently used, and what has
    been counted. -/
structure Cache where
  maxSize : Setting
  ttl : Setting
  counting : Setting
  entries : List Entry
  stats : Stats

namespace Cache

/-- A cache without entries. -/
def empty (maxSize ttl counting : Setting) : Cache := ⟨maxSize, ttl, counting, [], .zero⟩

/-- The cache that settings ask for; a cache that is off has no capacity. -/
def ofSettings (s : Settings) : Cache :=
  empty (if s.enabled.isOn then s.size else .int 0) s.ttl s.stats

/-- The entry of a key. -/
def find? (c : Cache) (key : Text) : Option Entry := c.entries.find? (·.key = key)

/-- Whether a key has an entry. -/
def contains (c : Cache) (key : Text) : Bool := (c.find? key).isSome

/-- The entries of all other keys, in order. -/
def others (c : Cache) (key : Text) : List Entry := c.entries.filter (·.key ≠ key)

/-- Counts something, if counting is on. -/
def count (c : Cache) (f : Stats → Stats) : Cache :=
  if c.counting.isOn then { c with stats := f c.stats } else c

/-! ### Counting changes nothing but the statistics -/

@[simp] theorem count_entries (c : Cache) (f : Stats → Stats) :
    (c.count f).entries = c.entries := by
  unfold count
  split <;> rfl

@[simp] theorem count_maxSize (c : Cache) (f : Stats → Stats) :
    (c.count f).maxSize = c.maxSize := by
  unfold count
  split <;> rfl

@[simp] theorem count_ttl (c : Cache) (f : Stats → Stats) : (c.count f).ttl = c.ttl := by
  unfold count
  split <;> rfl

@[simp] theorem count_counting (c : Cache) (f : Stats → Stats) :
    (c.count f).counting = c.counting := by
  unfold count
  split <;> rfl

/-! ## Looking up -/

/-- Whether an entry is older than the time to live. -/
def expired (c : Cache) (now : Float) (e : Entry) : Except Failure Bool :=
  match c.ttl with
  | .null => .ok false
  | ttl =>
    match ttl.number? with
    | none => .error .incomparable
    | some limit => .ok (limit.lt (.ofFloat (now - e.createdAt)))

/-- The **lookup of a key**: its route, unless there is none or it is too old.  What is too old is
    removed; what is found becomes the most recently used. -/
def get (c : Cache) (now : Float) (key : Text) : Except Failure (Option Route × Cache) :=
  match c.find? key with
  | none => .ok (none, c.count .miss)
  | some e =>
    match c.expired now e with
    | .error f => .error f
    | .ok true =>
      .ok (none, { c with entries := c.others key }.count fun s => (s.evict 1).miss)
    | .ok false =>
      .ok (some e.route, { c with entries := c.others key ++ [e.touch now] }.count .hit)

/-! ## Storing -/

/-- What stays of entries when one more has to fit below a limit: the front is given up. -/
def shrink (limit : Exact) : List Entry → List Entry
  | [] => []
  | e :: rest =>
    if limit.le (.ofInt (rest.length + 1)) then shrink limit rest else e :: rest

/-- The cache with room for one more entry. -/
def makeRoom (c : Cache) (limit : Exact) : Cache :=
  let kept := shrink limit c.entries
  { c with entries := kept }.count (.evict (c.entries.length - kept.length))

/-- The **store of a route** under a key, as the most recently used. -/
def put (c : Cache) (now : Float) (key : Text) (route : Route) (compileTime : Setting) :
    Except Failure Cache :=
  match c.maxSize.number? with
  | none => .error .incomparable
  | some limit =>
    if limit.le (.ofInt 0) then .ok c
    else
      let roomy := if c.contains key then c else c.makeRoom limit
      .ok { roomy with entries := roomy.others key ++ [⟨key, route, now, now, 0, compileTime⟩] }

/-! ## Removing and resetting -/

/-- The cache without the entry of a key. -/
def remove (c : Cache) (key : Text) : Cache := { c with entries := c.others key }

/-- The cache without entries. -/
def clear (c : Cache) : Cache := { c with entries := [] }

/-- The cache with nothing counted. -/
def resetStats (c : Cache) : Cache := { c with stats := .zero }

end Cache

end Routing
