/-
  SESSIONS — a cache together with the clock it reads, and what can be done with them.

  1. **Compiling with the cache** looks the source up, and on a miss compiles it, stores the route
     and adds the time it took.  A rejected source is counted and stored nowhere.  The stopwatch is
     read once before compiling and once after a success.
  2. **Uses** are the single operations of a cache.  A use that fails keeps what it had changed
     until then, so its outcome is a result OR a failure, and in both cases a session.
  3. **Steps** are uses, moves of the clock, and blocks of steps during which the capacity is zero.
     Leaving a block gives the capacity back, however the block ended.
-/
import Routing.Cache.Basic

namespace Routing

/-- A cache and its clock. -/
structure Session where
  clock : Clock
  cache : Cache

/-! ## Compiling -/

/-- The **route of a source**, from the cache if it is there and young enough. -/
def Session.compile (s : Session) (source : Text) : Except Failure Route × Session :=
  match s.cache.get s.clock.now source with
  | .error f => (.error f, s)
  | .ok (some r, cache) => (.ok r, { s with cache })
  | .ok (none, cache) =>
    let (start, clock) := s.clock.lap
    match Route.compile source with
    | .error e => (.error (.pattern (.rejected e)), ⟨clock, cache.count .reject⟩)
    | .ok r =>
      let (stop, clock) := clock.lap
      match cache.put clock.now source r (.float (stop - start)) with
      | .error f => (.error f, ⟨clock, cache⟩)
      | .ok cache => (.ok r, ⟨clock, cache.count (.spend (stop - start))⟩)

/-! ## Uses -/

/-- A setting of a cache that can be assigned. -/
inductive Knob where
  | maxSize
  | ttl
  | counting
  deriving DecidableEq

/-- The cache with a setting assigned. -/
def Cache.assign (c : Cache) (k : Knob) (v : Setting) : Cache :=
  match k with
  | .maxSize => { c with maxSize := v }
  | .ttl => { c with ttl := v }
  | .counting => { c with counting := v }

/-- A single operation of a cache. -/
inductive Use where
  | compile (source : Text)
  | get (key : Text)
  | put (key : Text) (pattern : Pattern) (compileTime : Setting)
  | remove (key : Text)
  | clear
  | resetStats
  | size
  | contains (key : Text)
  | assign (knob : Knob) (value : Setting)

/-- What an operation answers. -/
inductive Reply where
  | none
  | raw (t : Text)
  | count (n : Nat)
  | flag (b : Bool)
  | block (reports : List (Except Failure Reply × Option Cache))

/-- A step's outcome and the cache after it, if there is one. -/
abbrev Report := Except Failure Reply × Option Cache

/-- The reply with a route's source. -/
def Reply.ofRoute (r : Route) : Reply := .raw r.raw

/-- Makes **one use of the cache**. -/
def Session.use (s : Session) : Use → Except Failure Reply × Session
  | .compile source =>
    let (outcome, s') := s.compile source
    (outcome.map .ofRoute, s')
  | .get key =>
    match s.cache.get s.clock.now key with
    | .error f => (.error f, s)
    | .ok (found, cache) => (.ok ((found.map .ofRoute).getD .none), { s with cache })
  | .put key pattern time =>
    match pattern.compile with
    | .error f => (.error (.pattern f), s)
    | .ok r =>
      match s.cache.put s.clock.now key r time with
      | .error f => (.error f, s)
      | .ok cache => (.ok .none, { s with cache })
  | .remove key => (.ok .none, { s with cache := s.cache.remove key })
  | .clear => (.ok .none, { s with cache := s.cache.clear })
  | .resetStats => (.ok .none, { s with cache := s.cache.resetStats })
  | .size => (.ok (.count s.cache.entries.length), s)
  | .contains key => (.ok (.flag (s.cache.contains key)), s)
  | .assign knob v => (.ok .none, { s with cache := s.cache.assign knob v })

/-! ## Steps and blocks -/

/-- A step of a session. -/
inductive Step where
  | move (m : ClockMove)
  | use (u : Use)
  /-- Steps during which nothing new is stored; with `propagate`, the first failure ends the block
      and becomes its outcome. -/
  | disabled (propagate : Bool) (body : List Step)

/-- The session with a capacity assigned. -/
def Session.withMaxSize (s : Session) (size : Setting) : Session :=
  { s with cache := s.cache.assign .maxSize size }

/-- The failure that ends a block: the failure of a step, if failures propagate. -/
def stopBy (propagate : Bool) : Except Failure Reply → Option Failure
  | .ok _ => none
  | .error f => if propagate then some f else none

/-- The outcome of a block: the failure that ended it, or the reports of its steps. -/
def blockOutcome (reports : List Report) : Option Failure → Except Failure Reply
  | some f => .error f
  | none => .ok (.block reports)

namespace Session

mutual

/-- Takes **one step**. -/
def step (s : Session) : Step → Except Failure Reply × Session
  | .move m =>
    match s.clock.move m with
    | .error f => (.error (.clock f), s)
    | .ok clock => (.ok .none, { s with clock })
  | .use u => s.use u
  | .disabled propagate body =>
    let (reports, stop, last) := steps propagate (s.withMaxSize (.int 0)) body
    (blockOutcome reports stop, last.withMaxSize s.cache.maxSize)

/-- Steps one after the other: their reports, the failure that ended them if one did, and the
    session after them. -/
def steps (propagate : Bool) (s : Session) : List Step → List Report × Option Failure × Session
  | [] => ([], none, s)
  | x :: rest =>
    let (outcome, s') := step s x
    match stopBy propagate outcome with
    | some f => ([(outcome, some s'.cache)], some f, s')
    | none =>
      let (reports, stop, last) := steps propagate s' rest
      ((outcome, some s'.cache) :: reports, stop, last)

end

/-- The reports of steps and the session after them, each failure kept to its own step. -/
def run (s : Session) (body : List Step) : List Report × Session :=
  let (reports, _, last) := s.steps false body
  (reports, last)

end Session

end Routing
