/-
  THE SHARED CACHE — the one cache of all callers.

  It is built when it is first needed, from the environment of that moment, and then stays, whatever
  becomes of the environment, until another cache takes its place.  If the settings in the
  environment are refused, there is still no cache, and the next use tries again.

  A cache that is no longer the current one may still be HELD by a caller, who can give it again.
  And a block that disables the cache gives its capacity back to the cache that was current when it
  began, whichever is current by then.  So caches have an identity: a host keeps all caches that
  there are, and each is known by its NUMBER among them.
-/
import Routing.Cache.Session
import Routing.Settings.Load

namespace Routing

/-! ## What a cache is built from -/

/-- A description of a new cache: its three settings, or named settings, all of them optional. -/
inductive CacheSpec where
  | direct (maxSize ttl counting : Setting)
  | named (pairs : List (Text × Setting))

/-- The new cache of a description. -/
def CacheSpec.build : CacheSpec → Except Failure Cache
  | .direct maxSize ttl counting => .ok (.empty maxSize ttl counting)
  | .named pairs =>
    match Settings.ofNamed pairs with
    | .ok settings => .ok (.ofSettings settings)
    | .error f => .error (.settings f)

/-- The cache that a caller gives: a new one, or one that there is already. -/
inductive CacheSource where
  | fresh (spec : CacheSpec)
  | held (number : Nat)

/-! ## The host of the cache -/

/-- What all callers share: the clock, the environment, all caches that there are, from the oldest
    to the newest, and the number of the current one, if there is one. -/
structure Host where
  clock : Clock
  environment : List (Text × Text)
  caches : List Cache
  current : Option Nat

namespace Host

/-- A host without a current cache, and with caches that callers hold. -/
def start (clock : Clock) (environment : List (Text × Text)) (held : List Cache) : Host :=
  ⟨clock, environment, held, none⟩

/-- The current cache, with its number. -/
def numbered? (h : Host) : Option (Nat × Cache) :=
  h.current.bind fun number => (h.caches[number]?).map (number, ·)

/-- The current cache. -/
def cache (h : Host) : Option Cache := h.numbered?.map Prod.snd

/-- The host with a new cache as the current one. -/
def add (h : Host) (cache : Cache) : Host :=
  { h with caches := h.caches ++ [cache], current := some h.caches.length }

/-- The host with one of its caches changed. -/
def update (h : Host) (number : Nat) (cache : Cache) : Host :=
  { h with caches := h.caches.set number cache }

/-- The host with its clock and one of its caches as a session has left them. -/
def store (h : Host) (number : Nat) (s : Session) : Host :=
  { h with clock := s.clock, caches := h.caches.set number s.cache }

/-- The **current cache**, built from the environment if there is none: its number, the cache, and
    the host that has it. -/
def fetch (h : Host) : Except Failure (Nat × Cache × Host) :=
  match h.numbered? with
  | some (number, cache) => .ok (number, cache, h)
  | none =>
    match (Layers.ofEnvironment h.environment).load with
    | .ok settings => .ok (h.caches.length, .ofSettings settings, h.add (.ofSettings settings))
    | .error f => .error (.settings f)

/-- A use of the current cache. -/
def use (h : Host) (u : Use) : Except Failure Reply × Host :=
  match h.fetch with
  | .error f => (.error f, h)
  | .ok (number, cache, h) =>
    let (outcome, s) := (Session.mk h.clock cache).use u
    (outcome, h.store number s)

/-- The host with another current cache, or with none; a number that no cache has gives none. -/
def give (h : Host) : Option CacheSource → Except Failure Host
  | none => .ok { h with current := none }
  | some (.held number) => .ok { h with current := (h.caches[number]?).map fun _ => number }
  | some (.fresh spec) => spec.build.map h.add

/-- The host with a capacity given back to one of its caches. -/
def giveBack (h : Host) (number : Nat) (size : Setting) : Host :=
  { h with caches := h.caches.modify number (·.assign .maxSize size) }

end Host

/-! ## Steps -/

/-- A step of a host. -/
inductive HostStep where
  | move (m : ClockMove)
  | use (u : Use)
  | disabled (propagate : Bool) (body : List HostStep)
  | setEnvironment (environment : List (Text × Text))
  | setCache (source : Option CacheSource)
  | compileUncached (source : Text)
  | fetch

namespace Host

mutual

/-- Takes **one step of a host**. -/
def step (h : Host) : HostStep → Except Failure Reply × Host
  | .move m =>
    match h.clock.move m with
    | .error f => (.error (.clock f), h)
    | .ok clock => (.ok .none, { h with clock })
  | .use u => h.use u
  | .disabled propagate body =>
    match h.fetch with
    | .error f => (.error f, h)
    | .ok (number, cache, entered) =>
      let (reports, stop, last) :=
        steps propagate (entered.update number (cache.assign .maxSize (.int 0))) body
      (blockOutcome reports stop, last.giveBack number cache.maxSize)
  | .setEnvironment environment => (.ok .none, { h with environment })
  | .setCache source =>
    match h.give source with
    | .error f => (.error f, h)
    | .ok given => (.ok .none, given)
  | .compileUncached source =>
    match Route.compile source with
    | .error e => (.error (.pattern (.rejected e)), h)
    | .ok r => (.ok (.ofRoute r), h)
  | .fetch =>
    match h.fetch with
    | .error f => (.error f, h)
    | .ok (_, _, fetched) => (.ok .none, fetched)

/-- Steps one after the other: their reports, the failure that ended them if one did, and the host
    after them. -/
def steps (propagate : Bool) (h : Host) : List HostStep → List Report × Option Failure × Host
  | [] => ([], none, h)
  | x :: rest =>
    let (outcome, h') := step h x
    match stopBy propagate outcome with
    | some f => ([(outcome, h'.cache)], some f, h')
    | none =>
      let (reports, stop, last) := steps propagate h' rest
      ((outcome, h'.cache) :: reports, stop, last)

end

/-- The reports of steps and the host after them, each failure kept to its own step. -/
def run (h : Host) (body : List HostStep) : List Report × Host :=
  let (reports, _, last) := h.steps false body
  (reports, last)

end Host

end Routing
