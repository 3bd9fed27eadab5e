/-
  TRACES OF A HOST — a run over the shared cache as one list of acts.

  A host does what a session does, and more: its environment changes, caches are built, given, taken
  away and given again.  The acts of its runs are a flat list again, and what each of them can do is
  said once.

  1. **Acts** change a stage of the host, which saves the capacity of each open block WITH the
     number of the cache that it belongs to.
  2. **`Host.acts`** lists what a run does, and replaying it gives the host that the run gives
     (`replay_acts`).  A block that is refused a cache is entered in vain and not left.
  3. **Fetching** finds the current cache, or builds one, or is refused; the acts that need a cache
     fetch it first and do nothing if it is refused.
  4. **Changes** (`HostStage.Change`): what each act does to a stage.  The environment in force, the
     number of caches, the lasting of a vacancy, and what becomes of the caches that are not current
     are read off it.
-/
import Routing.Cache.Shared
import Routing.Proofs.Trace

namespace Routing

/-! ## Acts of a host -/

/-- One thing that a run of a host does. -/
inductive HostAct where
  | move (m : ClockMove)
  | use (u : Use)
  | enter
  | leave
  | setEnvironment (environment : List (Text × Text))
  | setCache (source : Option CacheSource)
  | compileUncached (source : Text)
  | fetch

namespace HostAct

/-- Whether an act **gives a cache, or takes the current one away**; a description that no cache can
    be built from does neither. -/
def gives : HostAct → Bool
  | .setCache (some (.fresh spec)) => spec.build.toBool
  | .setCache (some (.held _)) | .setCache none => true
  | .move _ | .use _ | .enter | .leave | .setEnvironment _ | .compileUncached _ | .fetch => false

/-- The cache, with its number, that an act **gives** to a host: a new one, or one that the host
    has. -/
def gift? (h : Host) : HostAct → Option (Nat × Cache)
  | .setCache (some (.fresh spec)) => spec.build.toOption.map (h.caches.length, ·)
  | .setCache (some (.held number)) => (h.caches[number]?).map (number, ·)
  | .setCache none => none
  | .move _ | .use _ | .enter | .leave | .setEnvironment _ | .compileUncached _ | .fetch => none

/-- An act that **needs a current cache**. -/
def UsesCache : HostAct → Prop
  | .use _ | .enter | .fetch => True
  | .move _ | .leave | .setEnvironment _ | .setCache _ | .compileUncached _ => False

/-- The environment after an act. -/
def environment (before : List (Text × Text)) : HostAct → List (Text × Text)
  | .setEnvironment environment => environment
  | .move _ | .use _ | .enter | .leave | .setCache _ | .compileUncached _ | .fetch => before

/-- The **environment in force** after acts. -/
def environmentAfter (before : List (Text × Text)) (acts : List HostAct) : List (Text × Text) :=
  acts.foldl environment before

/-- An act that assigns neither the capacity nor the time to live. -/
def Unassigned (a : HostAct) : Prop :=
  ∀ v, a ≠ .use (.assign .maxSize v) ∧ a ≠ .use (.assign .ttl v)

theorem gives_of_usesCache {a : HostAct} (h : a.UsesCache) : a.gives = false := by
  cases a with
  | use | enter | fetch => rfl
  | move | leave | setEnvironment | setCache | compileUncached => exact h.elim

end HostAct

/-- The host in a block that disables one of its caches. -/
def Host.disable (h : Host) (number : Nat) (cache : Cache) : Host :=
  h.update number (cache.assign .maxSize (.int 0))

/-- A host, and for each open block the number and the capacity of its cache, the innermost
    first. -/
structure HostStage where
  host : Host
  saved : List (Nat × Setting)

namespace HostStage

/-- The stage after an act. -/
def act (g : HostStage) : HostAct → HostStage
  | .move m => { g with host := (g.host.step (.move m)).2 }
  | .use u => { g with host := (g.host.use u).2 }
  | .enter =>
    match g.host.fetch with
    | .error _ => g
    | .ok (number, cache, entered) =>
      ⟨entered.disable number cache, (number, cache.maxSize) :: g.saved⟩
  | .leave =>
    match g.saved with
    | [] => g
    | (number, size) :: saved => ⟨g.host.giveBack number size, saved⟩
  | .setEnvironment environment => { g with host := (g.host.step (.setEnvironment environment)).2 }
  | .setCache source => { g with host := (g.host.step (.setCache source)).2 }
  | .compileUncached source => { g with host := (g.host.step (.compileUncached source)).2 }
  | .fetch => { g with host := (g.host.step .fetch).2 }

/-- The stage after acts, one after the other. -/
def replay (g : HostStage) (acts : List HostAct) : HostStage := acts.foldl act g

theorem replay_append (g : HostStage) (acts acts' : List HostAct) :
    g.replay (acts ++ acts') = (g.replay acts).replay acts' :=
  List.foldl_append

theorem replay_concat (g : HostStage) (acts : List HostAct) (a : HostAct) :
    g.replay (acts ++ [a]) = (g.replay acts).act a :=
  g.replay_append acts [a]

/-- What every act keeps, a replay keeps. -/
theorem replay_induct {P : HostStage → Prop} {g : HostStage} (hg : P g) {acts : List HostAct}
    (hact : ∀ a ∈ acts, ∀ g, P g → P (g.act a)) : P (g.replay acts) :=
  List.foldlRecOn acts act hg fun g hg a ha => hact a ha g hg

end HostStage

/-! ## The acts of a run -/

namespace Host

mutual

/-- The acts of one step; a block that is refused a cache is entered in vain. -/
def stepActs (h : Host) : HostStep → List HostAct
  | .move m => [.move m]
  | .use u => [.use u]
  | .disabled propagate body =>
    match h.fetch with
    | .error _ => [.enter]
    | .ok (number, cache, entered) =>
      .enter :: (acts propagate (entered.disable number cache) body ++ [.leave])
  | .setEnvironment environment => [.setEnvironment environment]
  | .setCache source => [.setCache source]
  | .compileUncached source => [.compileUncached source]
  | .fetch => [.fetch]

/-- The **acts of a run of a host**: those of its steps, up to the failure that ends it. -/
def acts (propagate : Bool) (h : Host) : List HostStep → List HostAct
  | [] => []
  | x :: rest =>
    stepActs h x ++
      match stopBy propagate (h.step x).1 with
      | some _ => []
      | none => acts propagate (h.step x).2 rest

end

/-- Steps of a host, by the first of them. -/
theorem steps_cons (propagate : Bool) (h : Host) (x : HostStep) (rest : List HostStep) :
    h.steps propagate (x :: rest) =
      match stopBy propagate (h.step x).1 with
      | some f => ([((h.step x).1, (h.step x).2.cache)], some f, (h.step x).2)
      | none =>
        (((h.step x).1, (h.step x).2.cache) :: ((h.step x).2.steps propagate rest).1,
          ((h.step x).2.steps propagate rest).2) := by
  obtain ⟨outcome, h', hx⟩ : ∃ outcome h', h.step x = (outcome, h') := ⟨_, _, rfl⟩
  cases hstop : stopBy propagate outcome <;> simp only [steps, hx, hstop]

mutual

theorem replay_stepActs (h : Host) (saved : List (Nat × Setting)) :
    ∀ x : HostStep, HostStage.replay ⟨h, saved⟩ (h.stepActs x) = ⟨(h.step x).2, saved⟩
  | .move _ | .use _ | .setEnvironment _ | .setCache _ | .compileUncached _ | .fetch => rfl
  | .disabled propagate body => by
    cases hfetch : h.fetch with
    | error f =>
      rw [stepActs, step, hfetch]
      show HostStage.act ⟨h, saved⟩ .enter = _
      rw [HostStage.act, hfetch]
    | ok fetched =>
      obtain ⟨number, cache, entered⟩ := fetched
      -- While the body is replayed, what this block gives back is saved first.
      have hbody := replay_acts propagate (entered.disable number cache)
        ((number, cache.maxSize) :: saved) body
      have henter : HostStage.act ⟨h, saved⟩ .enter =
          ⟨entered.disable number cache, (number, cache.maxSize) :: saved⟩ := by
        rw [HostStage.act, hfetch]
      rw [stepActs, step, hfetch]
      show HostStage.replay (HostStage.act ⟨h, saved⟩ .enter)
        (acts propagate _ body ++ [.leave]) = _
      rw [henter, HostStage.replay_concat, hbody]
      rfl

/-- **Replaying the acts of a run gives the host that the run gives**, and leaves every block that
    it enters. -/
theorem replay_acts (propagate : Bool) (h : Host) (saved : List (Nat × Setting)) :
    ∀ body : List HostStep, HostStage.replay ⟨h, saved⟩ (h.acts propagate body)
      = ⟨(h.steps propagate body).2.2, saved⟩
  | [] => rfl
  | x :: rest => by
    rw [acts, steps_cons, HostStage.replay_append, replay_stepActs h saved x]
    cases stopBy propagate (h.step x).1 with
    | some f => rfl
    | none => exact replay_acts propagate (h.step x).2 saved rest

end

/-- Where each failure is kept to its own step, all steps are done. -/
theorem acts_false_cons (h : Host) (x : HostStep) (rest : List HostStep) :
    h.acts false (x :: rest) = h.stepActs x ++ (h.step x).2.acts false rest := by
  rw [acts]
  cases (h.step x).1 <;> rfl

/-- The stage of a host after acts, outside of all blocks before them. -/
def after (h : Host) (acts : List HostAct) : HostStage := HostStage.replay ⟨h, []⟩ acts

theorem after_append (h : Host) (acts acts' : List HostAct) :
    h.after (acts ++ acts') = (h.after acts).replay acts' :=
  HostStage.replay_append _ acts acts'

theorem after_concat (h : Host) (acts : List HostAct) (a : HostAct) :
    h.after (acts ++ [a]) = (h.after acts).act a :=
  HostStage.replay_concat _ acts a

/-- The host `t` comes up when a run from `h` has taken the acts `before`, its first. -/
def Reaches (h : Host) (propagate : Bool) (body : List HostStep) (before : List HostAct)
    (t : Host) : Prop :=
  before <+: h.acts propagate body ∧ (h.after before).host = t

section
variable {h t : Host} {propagate : Bool} {body : List HostStep} {before : List HostAct}

theorem reaches_last :
    h.Reaches propagate body (h.acts propagate body) (h.steps propagate body).2.2 :=
  ⟨List.prefix_refl _, by rw [after, replay_acts]⟩

theorem reaches_step (x : HostStep) (rest : List HostStep) :
    h.Reaches propagate (x :: rest) (h.stepActs x) (h.step x).2 :=
  ⟨List.prefix_append _ _, by rw [after, replay_stepActs]⟩

theorem Reaches.cons {x : HostStep} {rest : List HostStep}
    (hstop : stopBy propagate (h.step x).1 = none)
    (ht : (h.step x).2.Reaches propagate rest before t) :
    h.Reaches propagate (x :: rest) (h.stepActs x ++ before) t := by
  obtain ⟨hbefore, ht⟩ := ht
  refine ⟨?_, ?_⟩
  · rw [acts, hstop]
    exact (List.prefix_append_right_inj _).mpr hbefore
  · rwa [after, HostStage.replay_append, replay_stepActs]

/-- **Every cache that a run reports is the current one of a host that it reaches.** -/
theorem reaches_report :
    ∀ report ∈ (h.steps propagate body).1, ∃ before t, h.Reaches propagate body before t ∧
      report.2 = t.cache := by
  induction body generalizing h with
  | nil => exact fun report hreport => absurd hreport List.not_mem_nil
  | cons x rest ih =>
    intro report hreport
    rw [steps_cons] at hreport
    cases hstop : stopBy propagate (h.step x).1 with
    | some f =>
      rw [hstop] at hreport
      exact ⟨_, _, reaches_step x rest, congrArg Prod.snd (List.mem_singleton.mp hreport)⟩
    | none =>
      rw [hstop] at hreport
      rcases List.mem_cons.mp hreport with rfl | hreport
      · exact ⟨_, _, reaches_step x rest, rfl⟩
      · obtain ⟨before, t, ht, hcache⟩ := ih report hreport
        exact ⟨_, t, ht.cons hstop, hcache⟩

end

/-! ## Caches by their numbers -/

section
variable {h : Host} {number : Nat} {cache : Cache}

theorem numbered?_eq_some :
    h.numbered? = some (number, cache) ↔
      h.current = some number ∧ h.caches[number]? = some cache := by
  simp [numbered?, Option.bind_eq_some_iff, Option.map_eq_some_iff]

theorem numbered?_add (h : Host) (cache : Cache) :
    (h.add cache).numbered? = some (h.caches.length, cache) :=
  numbered?_eq_some.mpr ⟨rfl, List.getElem?_concat_length⟩

theorem length_le_add (h : Host) (cache : Cache) :
    h.caches.length ≤ (h.add cache).caches.length := by
  rw [add, List.length_append]
  exact Nat.le_add_right ..

theorem add_keeps (hcache : h.caches[number]? = some cache) (new : Cache) :
    (h.add new).caches[number]? = some cache :=
  (List.getElem?_append_left (List.getElem?_eq_some_iff.mp hcache).1).trans hcache

theorem caches_update (hcache : h.caches[number]? = some cache) (cache' : Cache) :
    (h.update number cache').caches[number]? = some cache' :=
  List.getElem?_set_self (List.getElem?_eq_some_iff.mp hcache).1

theorem numbered?_update (hcurrent : h.numbered? = some (number, cache)) (cache' : Cache) :
    (h.update number cache').numbered? = some (number, cache') := by
  obtain ⟨hcurrent, hcache⟩ := numbered?_eq_some.mp hcurrent
  exact numbered?_eq_some.mpr ⟨hcurrent, caches_update hcache cache'⟩

theorem caches_giveBack (h : Host) (number other : Nat) (size : Setting) :
    (h.giveBack number size).caches[other]? = (h.caches[other]?).map fun c =>
      if number = other then c.assign .maxSize size else c :=
  List.getElem?_modify ..

/-- Giving a capacity back changes the cache that it belongs to. -/
theorem giveBack_eq (hcache : h.caches[number]? = some cache) (size : Setting) :
    h.giveBack number size = h.update number (cache.assign .maxSize size) := by
  have hcaches : h.caches.modify number (·.assign .maxSize size)
      = h.caches.set number (cache.assign .maxSize size) := by
    refine List.ext_getElem? fun other => ?_
    rw [List.getElem?_modify]
    by_cases heq : number = other
    · subst heq
      rw [List.getElem?_set_self (List.getElem?_eq_some_iff.mp hcache).1, hcache]
      exact congrArg some (if_pos rfl)
    · rw [List.getElem?_set_ne heq]
      simp only [if_neg heq, Option.map_eq_map, Option.map_id']
  rw [giveBack, hcaches, update]

end

/-! ## Fetching the current cache -/

section
variable {h entered : Host} {number : Nat} {cache : Cache}

theorem fetch_current (hcache : h.numbered? = some (number, cache)) :
    h.fetch = .ok (number, cache, h) := by
  rw [fetch, hcache]

theorem fetch_built {settings : Settings} (hcache : h.numbered? = none)
    (hload : (Layers.ofEnvironment h.environment).load = .ok settings) :
    h.fetch = .ok (h.caches.length, .ofSettings settings, h.add (.ofSettings settings)) := by
  rw [fetch, hcache]
  dsimp only
  rw [hload]

theorem fetch_refused {f : SettingsFault} (hcache : h.numbered? = none)
    (hload : (Layers.ofEnvironment h.environment).load = .error f) :
    h.fetch = .error (.settings f) := by
  rw [fetch, hcache]
  dsimp only
  rw [hload]

/-- What fetching changes: nothing, or there is a new cache where there was none. -/
theorem fetch_eq_ok (hfetch : h.fetch = .ok (number, cache, entered)) :
    entered.numbered? = some (number, cache) ∧ (entered = h ∨ entered = h.add cache) := by
  cases hcache : h.numbered? with
  | some current =>
    rw [fetch_current hcache] at hfetch
    cases hfetch
    exact ⟨hcache, .inl rfl⟩
  | none =>
    cases hload : (Layers.ofEnvironment h.environment).load with
    | ok settings =>
      rw [fetch_built hcache hload] at hfetch
      cases hfetch
      exact ⟨numbered?_add .., .inr rfl⟩
    | error f =>
      rw [fetch_refused hcache hload] at hfetch
      cases hfetch

/-- Fetching leaves the caches as they are that there were. -/
theorem fetch_keeps (hfetch : h.fetch = .ok (number, cache, entered)) {other : Nat} {kept : Cache}
    (hkept : h.caches[other]? = some kept) : entered.caches[other]? = some kept := by
  rcases (fetch_eq_ok hfetch).2 with rfl | rfl
  · exact hkept
  · exact add_keeps hkept _

theorem current_fetch (hfetch : h.fetch = .ok (number, cache, entered)) :
    entered.current = some number ∧ entered.caches[number]? = some cache :=
  numbered?_eq_some.mp (fetch_eq_ok hfetch).1

theorem use_of_fetch (hfetch : h.fetch = .ok (number, cache, entered)) (u : Use) :
    h.use u = (((Session.mk entered.clock cache).use u).1,
      entered.store number ((Session.mk entered.clock cache).use u).2) := by
  rw [use, hfetch]

theorem use_of_refused {f : Failure} (hfetch : h.fetch = .error f) (u : Use) :
    h.use u = (.error f, h) := by
  rw [use, hfetch]

end

end Host

/-! ## What an act changes -/

namespace HostStage

/-- What an **act of a host** changes. -/
inductive Change (g : HostStage) : HostAct → HostStage → Prop
  | moved {m : ClockMove} {clock : Clock}
    (h : ∀ cache, ((Session.mk g.host.clock cache).step (.move m)).2 = ⟨clock, cache⟩) :
    Change g (.move m) { g with host := { g.host with clock } }
  | refused {a : HostAct} {f : Failure} (ha : a.UsesCache) (hfetch : g.host.fetch = .error f) :
    Change g a g
  | used {u : Use} {number : Nat} {cache : Cache} {entered : Host}
    (hfetch : g.host.fetch = .ok (number, cache, entered)) :
    Change g (.use u)
      { g with host := entered.store number ((Session.mk entered.clock cache).use u).2 }
  | entered {number : Nat} {cache : Cache} {entered : Host}
    (hfetch : g.host.fetch = .ok (number, cache, entered)) :
    Change g .enter ⟨entered.disable number cache, (number, cache.maxSize) :: g.saved⟩
  | left {number : Nat} {size : Setting} {saved : List (Nat × Setting)}
    (h : g.saved = (number, size) :: saved) :
    Change g .leave ⟨g.host.giveBack number size, saved⟩
  | noBlock (h : g.saved = []) : Change g .leave g
  | environment {environment : List (Text × Text)} :
    Change g (.setEnvironment environment) { g with host := { g.host with environment } }
  | tookAway {a : HostAct} (hgives : a.gives = true) (h : a.gift? g.host = none) :
    Change g a { g with host := { g.host with current := none } }
  | gaveNew {spec : CacheSpec} {cache : Cache} (h : spec.build = .ok cache) :
    Change g (.setCache (some (.fresh spec))) { g with host := g.host.add cache }
  | gaveAgain {number : Nat} {cache : Cache} (h : g.host.caches[number]? = some cache) :
    Change g (.setCache (some (.held number)))
      { g with host := { g.host with current := some number } }
  | unbuilt {spec : CacheSpec} {f : Failure} (h : spec.build = .error f) :
    Change g (.setCache (some (.fresh spec))) g
  | uncached {source : Text} : Change g (.compileUncached source) g
  | fetched {number : Nat} {cache : Cache} {entered : Host}
    (hfetch : g.host.fetch = .ok (number, cache, entered)) :
    Change g .fetch { g with host := entered }

theorem change_setCache (g : HostStage) (source : Option CacheSource) :
    g.Change (.setCache source) (g.act (.setCache source)) := by
  rw [act, Host.step]
  cases source with
  | none => exact .tookAway rfl rfl
  | some source =>
    cases source with
    | fresh spec =>
      rw [Host.give]
      cases hbuild : spec.build with
      | error f => exact .unbuilt hbuild
      | ok cache => exact .gaveNew hbuild
    | held number =>
      rw [Host.give]
      cases hcache : g.host.caches[number]? with
      | none => exact .tookAway rfl (by rw [HostAct.gift?, hcache]; rfl)
      | some cache => exact .gaveAgain hcache

/-- **Every act** makes one of these changes. -/
theorem change (g : HostStage) (a : HostAct) : g.Change a (g.act a) := by
  cases a with
  | move m =>
    rw [act, Host.step]
    cases hm : g.host.clock.move m with
    | error f =>
      have hclock : ∀ cache, ((Session.mk g.host.clock cache).step (.move m)).2
          = ⟨g.host.clock, cache⟩ := fun cache => by rw [Session.step, hm]
      exact .moved hclock
    | ok clock => exact .moved fun cache => by rw [Session.step, hm]
  | use u =>
    cases hfetch : g.host.fetch with
    | error f =>
      rw [act, Host.use_of_refused hfetch]
      exact .refused trivial hfetch
    | ok fetched =>
      rw [act, Host.use_of_fetch hfetch]
      exact .used hfetch
  | enter =>
    cases hfetch : g.host.fetch with
    | error f =>
      rw [act, hfetch]
      exact .refused trivial hfetch
    | ok fetched =>
      rw [act, hfetch]
      exact .entered hfetch
  | leave =>
    obtain ⟨host, saved⟩ := g
    cases saved with
    | nil => exact .noBlock rfl
    | cons p saved => exact .left rfl
  | setEnvironment environment => exact .environment
  | setCache source => exact g.change_setCache source
  | compileUncached source =>
    rw [act, Host.step]
    cases Route.compile source <;> exact .uncached
  | fetch =>
    rw [act, Host.step]
    cases hfetch : g.host.fetch with
    | error f => exact .refused trivial hfetch
    | ok fetched => exact .fetched hfetch

section
variable {g g' : HostStage} {a : HostAct} {number : Nat} {cache : Cache}

/-- The cache that an act gives is current after it. -/
theorem Change.numbered_of_gift (h : g.Change a g')
    (hgift : a.gift? g.host = some (number, cache)) : g'.host.numbered? = some (number, cache) := by
  cases h with
  | gaveNew hbuild =>
    rw [HostAct.gift?, hbuild] at hgift
    cases hgift
    exact Host.numbered?_add ..
  | gaveAgain hcache =>
    rw [HostAct.gift?, hcache] at hgift
    cases hgift
    exact Host.numbered?_eq_some.mpr ⟨rfl, hcache⟩
  | unbuilt hbuild =>
    rw [HostAct.gift?, hbuild] at hgift
    cases hgift
  | tookAway _ hnone => cases hnone.symm.trans hgift
  | refused ha =>
    cases a with
    | use | enter | fetch => cases hgift
    | move | leave | setEnvironment | setCache | compileUncached => exact ha.elim
  | moved | used | entered | left | noBlock | environment | uncached | fetched => cases hgift

/-- Where an act takes the current cache away, there is none after it. -/
theorem Change.vacant_of_gives (h : g.Change a g') (hgives : a.gives = true)
    (hgift : a.gift? g.host = none) : g'.host.numbered? = none := by
  cases h with
  | tookAway => rfl
  | gaveNew hbuild =>
    rw [HostAct.gift?, hbuild] at hgift
    cases hgift
  | gaveAgain hcache =>
    rw [HostAct.gift?, hcache] at hgift
    cases hgift
  | unbuilt hbuild =>
    rw [HostAct.gives, hbuild] at hgives
    cases hgives
  | refused ha => cases (HostAct.gives_of_usesCache ha).symm.trans hgives
  | moved | used | entered | left | noBlock | environment | uncached | fetched => cases hgives

/-- An act that needs a cache is an act of the host that has fetched it. -/
theorem act_of_fetch {entered : Host} (ha : a.UsesCache)
    (hfetch : g.host.fetch = .ok (number, cache, entered)) :
    g.act a = act ⟨entered, g.saved⟩ a := by
  have hentered : entered.fetch = .ok (number, cache, entered) :=
    Host.fetch_current (Host.fetch_eq_ok hfetch).1
  cases a with
  | use u => rw [act, act, Host.use_of_fetch hfetch, Host.use_of_fetch hentered]
  | enter => rw [act, hfetch, act, hentered]
  | fetch => rw [act, act, Host.step, Host.step, hfetch, hentered]
  | move | leave | setEnvironment | setCache | compileUncached => exact ha.elim

/-! ### The environment in force -/

theorem Change.environment_eq (h : g.Change a g') :
    g'.host.environment = a.environment g.host.environment := by
  cases h with
  | refused ha =>
    cases a with
    | use | enter | fetch => rfl
    | move | leave | setEnvironment | setCache | compileUncached => exact ha.elim
  | used hfetch | entered hfetch | fetched hfetch =>
    rcases (Host.fetch_eq_ok hfetch).2 with rfl | rfl <;> rfl
  | tookAway hgives =>
    cases a with
    | setCache => rfl
    | move | use | enter | leave | setEnvironment | compileUncached | fetch => cases hgives
  | moved | left | noBlock | environment | gaveNew | gaveAgain | unbuilt | uncached => rfl

/-- Acts bring the environment into force that they name last. -/
theorem environment_replay (g : HostStage) (acts : List HostAct) :
    (g.replay acts).host.environment = HostAct.environmentAfter g.host.environment acts := by
  induction acts generalizing g with
  | nil => rfl
  | cons a rest ih =>
    show ((g.act a).replay rest).host.environment = _
    rw [ih, (g.change a).environment_eq]
    rfl

/-! ### Caches that are not the current one -/

theorem length_le_fetch {entered : Host}
    (hfetch : g.host.fetch = .ok (number, cache, entered)) :
    g.host.caches.length ≤ entered.caches.length := by
  rcases (Host.fetch_eq_ok hfetch).2 with rfl | rfl
  · exact Nat.le_refl _
  · exact Host.length_le_add ..

/-- No cache is ever lost. -/
theorem Change.length_le (h : g.Change a g') :
    g.host.caches.length ≤ g'.host.caches.length := by
  cases h with
  | used hfetch | entered hfetch =>
    exact Nat.le_trans (length_le_fetch hfetch) (Nat.le_of_eq List.length_set.symm)
  | fetched hfetch => exact length_le_fetch hfetch
  | left => exact Nat.le_of_eq (List.length_modify ..).symm
  | gaveNew => exact Host.length_le_add ..
  | moved | refused | noBlock | environment | tookAway | gaveAgain | unbuilt | uncached =>
    exact Nat.le_refl _

/-- **A cache that is not current after an act** is as it was before, but for the capacity that the
    end of a block gives back to it. -/
theorem Change.spares (h : g.Change a g') (hcache : g.host.caches[number]? = some cache)
    (hother : g'.host.current ≠ some number) :
    g'.host.caches[number]? = some cache ∨
      ∃ size saved, a = .leave ∧ g.saved = (number, size) :: saved ∧
        g'.host.caches[number]? = some (cache.assign .maxSize size) := by
  -- What fetching gives is current, and only that is changed.
  have hset {i : Nat} {c : Cache} {entered : Host} (hfetch : g.host.fetch = .ok (i, c, entered))
      (hne : entered.current ≠ some number) (c' : Cache) :
      (entered.caches.set i c')[number]? = some cache := by
    have hi : i ≠ number := fun heq => hne (heq ▸ (Host.current_fetch hfetch).1)
    exact (List.getElem?_set_ne hi).trans (Host.fetch_keeps hfetch hcache)
  cases h with
  | used hfetch | entered hfetch => exact .inl (hset hfetch hother _)
  | fetched hfetch => exact .inl (Host.fetch_keeps hfetch hcache)
  | @left i size saved hsaved =>
    have hgiven := g.host.caches_giveBack i number size
    rw [hcache] at hgiven
    by_cases heq : i = number
    · subst heq
      exact .inr ⟨size, saved, rfl, hsaved, hgiven.trans (congrArg some (if_pos rfl))⟩
    · exact .inl (hgiven.trans (congrArg some (if_neg heq)))
  | gaveNew => exact .inl (Host.add_keeps hcache _)
  | moved | refused | noBlock | environment | tookAway | gaveAgain | unbuilt | uncached =>
    exact .inl hcache

/-! ### Open blocks -/

/-- Every open block belongs to a cache that there is. -/
def Nested (g : HostStage) : Prop := ∀ p ∈ g.saved, p.1 < g.host.caches.length

theorem Change.nested (h : g.Change a g') (hg : g.Nested) : g'.Nested := by
  have hkept : ∀ p ∈ g.saved, p.1 < g'.host.caches.length :=
    fun p hp => Nat.lt_of_lt_of_le (hg p hp) h.length_le
  cases h with
  | @entered number cache entered hfetch =>
    have hcache := (Host.current_fetch hfetch).2
    have hdisabled := Host.caches_update hcache (cache.assign .maxSize (.int 0))
    have hlt : number < (entered.disable number cache).caches.length :=
      (List.getElem?_eq_some_iff.mp hdisabled).1
    exact List.forall_mem_cons.mpr ⟨hlt, hkept⟩
  | left hsaved =>
    rw [hsaved] at hkept
    exact (List.forall_mem_cons.mp hkept).2
  | moved | refused | used | noBlock | environment | tookAway | gaveNew | gaveAgain | unbuilt
  | uncached | fetched => exact hkept

theorem nested_after (h : Host) (acts : List HostAct) : (h.after acts).Nested :=
  replay_induct (P := Nested) (fun _ hp => absurd hp List.not_mem_nil)
    fun a _ g hg => (g.change a).nested hg

/-! ### A vacancy lasts -/

/-- Where there is no cache, an act that gives none and is not served by the environment leaves
    none. -/
theorem Change.vacant (h : g.Change a g') (hvacant : g.host.numbered? = none)
    (hgives : a.gives = false)
    (hrefused : a.UsesCache → ∃ f, (Layers.ofEnvironment g.host.environment).load = .error f) :
    g'.host.numbered? = none := by
  have hno (ha : a.UsesCache) {i : Nat} {c : Cache} {entered : Host}
      (hfetch : g.host.fetch = .ok (i, c, entered)) : False := by
    obtain ⟨f, hload⟩ := hrefused ha
    rw [Host.fetch_refused hvacant hload] at hfetch
    cases hfetch
  cases h with
  | used hfetch | entered hfetch | fetched hfetch => exact (hno trivial hfetch).elim
  | left =>
    rw [Host.numbered?, Option.bind_eq_none_iff] at hvacant ⊢
    intro i hi
    have hnone := Option.map_eq_none_iff.mp (hvacant i hi)
    rw [Option.map_eq_none_iff, Host.caches_giveBack, hnone]
    rfl
  | tookAway htook => cases htook.symm.trans hgives
  | gaveNew hbuild =>
    rw [HostAct.gives, hbuild] at hgives
    cases hgives
  | gaveAgain => cases hgives
  | moved | refused | noBlock | environment | unbuilt | uncached => exact hvacant

end

end HostStage

end Routing
