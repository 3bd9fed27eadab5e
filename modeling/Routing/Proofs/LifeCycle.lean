/-
  LIFE CYCLE — what callers can rely on in every moment of a run over the shared cache.

  1. **Settings from texts** are numbers where numbers are needed (`Layers.load_ofEnvironment`): an
     environment is accepted or refused, and never misses a number.  So a cache that was built from
     one never does, as long as nobody assigns its settings.
  2. **Refusals.**  A step that needs a cache where there is none, and is refused by the
     environment, changes nothing.
  3. **Blocks** give a capacity back to the cache on which they were entered, whichever is current
     by then, and change nothing else when they end.
  4. **The life cycle** puts these together with the tenure of the moment.
-/
import Routing.Proofs.Ranges
import Routing.Proofs.Tenure

namespace Routing

/-! ## Settings from texts -/

namespace Layers

theorem known_ofEnvironment (environment : List (Text × Text)) (key : Text) :
    ¬ (ofEnvironment environment).Unknown key :=
  fun h => absurd h.1 List.not_mem_nil

/-- **An environment gives settings whose numbers are numbers, or is refused.** -/
theorem load_ofEnvironment (environment : List (Text × Text)) :
    (∃ s, (ofEnvironment environment).load = .ok s ∧ (Cache.ofSettings s).Ready) ∨
      ∃ c, (ofEnvironment environment).load = .error (.refused c) := by
  have hplain : (ofEnvironment environment).Plain := fun _ hp => absurd hp List.not_mem_nil
  rcases load_ok_or_refused rfl hplain with ⟨s, hs⟩ | hrefused | ⟨-, p, hp, -⟩
  · obtain ⟨hholds, -⟩ := holds_of_load rfl hs
    refine .inl ⟨s, hs, fun k => ?_⟩
    cases k with
    | maxSize =>
      show Knob.maxSize.Admits (if s.enabled.isOn then s.size else .int 0)
      split
      · exact hholds.admits_size hplain
      · rfl
    | ttl => exact hholds.admits_ttl hplain
    | counting => trivial
  · exact .inr hrefused
  · exact absurd hp List.not_mem_nil

end Layers

/-- A cache that is built from the environment in force is ready. -/
theorem HostAct.ready_of_settingsAfter {environment : List (Text × Text)} {acts : List HostAct}
    {s : Settings} (h : settingsAfter environment acts = .ok s) : (Cache.ofSettings s).Ready := by
  rcases Layers.load_ofEnvironment (environmentAfter environment acts) with
    ⟨s', hs', hready⟩ | ⟨c, hc⟩
  · cases h.symm.trans hs'
    exact hready
  · cases h.symm.trans hc

/-! ## What callers see -/

/-- A step that **needs a current cache**. -/
def HostStep.UsesCache : HostStep → Prop
  | .use _ | .disabled .. | .fetch => True
  | .move _ | .setEnvironment _ | .setCache _ | .compileUncached _ => False

namespace Host

/-- Steps that need a cache **are refused**: they fail because the environment is not acceptable,
    and change nothing. -/
def Refuses (h : Host) (f : SettingsFault) : Prop :=
  (∃ c, f = .refused c) ∧
    ∀ x : HostStep, x.UsesCache → h.step x = (.error (.settings f), h)

/-- Compiling, with the current cache or without one, fails only for a source that is rejected. -/
def CompilesUnlessRejected (h : Host) : Prop :=
  ∀ source x, x = .use (.compile source) ∨ x = .compileUncached source →
    ∀ f, (h.step x).1 = .error f → ∃ e, Route.compile source = .error e ∧ f = .pattern (.rejected e)

/-- **A cache that is not the current one is left alone** by every act, but for the capacity that
    the end of a block gives back to it. -/
def SparesOthers (h : Host) : Prop :=
  ∀ saved a number cache, h.caches[number]? = some cache →
    (HostStage.act ⟨h, saved⟩ a).host.current ≠ some number →
    (HostStage.act ⟨h, saved⟩ a).host.caches[number]? = some cache ∨
      ∃ size outer, a = .leave ∧ saved = (number, size) :: outer ∧
        (HostStage.act ⟨h, saved⟩ a).host.caches[number]? = some (cache.assign .maxSize size)

/-- **A block that disables the cache gives its capacity back** to that cache, however it ends and
    whichever is current by then, and its end changes nothing else.  If no step in it gives a cache
    or takes one away, that cache is still the current one. -/
def GivesBack (h : Host) : Prop :=
  ∀ number cache entered, h.fetch = .ok (number, cache, entered) → ∀ propagate body last,
    last = ((entered.disable number cache).steps propagate body).2.2 →
    ∃ c, last.caches[number]? = some c ∧
      (h.step (.disabled propagate body)).2
        = last.update number (c.assign .maxSize cache.maxSize) ∧
      ((∀ a ∈ (entered.disable number cache).acts propagate body, a.gives = false) →
        last.current = some number)

theorem refuses {h : Host} (hvacant : h.numbered? = none) {f : SettingsFault}
    (hload : (Layers.ofEnvironment h.environment).load = .error f) : h.Refuses f := by
  have hfetch := fetch_refused hvacant hload
  constructor
  · rcases Layers.load_ofEnvironment h.environment with ⟨s, hok, -⟩ | ⟨c, hc⟩
    · cases hok.symm.trans hload
    · cases hc.symm.trans hload
      exact ⟨c, rfl⟩
  · intro x hx
    cases x with
    | use u => exact use_of_refused hfetch u
    | disabled => rw [step, hfetch]
    | fetch => rw [step, hfetch]
    | move | setEnvironment | setCache | compileUncached => exact hx.elim

theorem step_compileUncached (h : Host) (source : Text) :
    h.step (.compileUncached source)
      = (((Route.compile source).map Reply.ofRoute).mapError fun e => .pattern (.rejected e),
        h) := by
  rw [step]
  cases Route.compile source <;> rfl

theorem compilesUnlessRejected {h entered : Host} {number : Nat} {cache : Cache}
    (hfetch : h.fetch = .ok (number, cache, entered)) (hready : cache.Ready) :
    h.CompilesUnlessRejected := by
  rintro source _ (rfl | rfl) f hf
  · rw [step, use_of_fetch hfetch] at hf
    obtain ⟨outcome, s', hcompile⟩ :
        ∃ outcome s', (Session.mk entered.clock cache).compile source = (outcome, s') :=
      ⟨_, _, rfl⟩
    have hcompiling := Session.compiling (s := ⟨entered.clock, cache⟩) hready source
    rw [Session.use, hcompile] at hf
    rw [hcompile] at hcompiling
    cases hcompiling with
    | hit => cases hf
    | rejected _ he =>
      cases hf
      exact ⟨_, he, rfl⟩
    | stored => cases hf
  · rw [step_compileUncached] at hf
    cases hroute : Route.compile source with
    | error e =>
      rw [hroute] at hf
      cases hf
      exact ⟨e, rfl, rfl⟩
    | ok r =>
      rw [hroute] at hf
      cases hf

theorem sparesOthers (h : Host) : h.SparesOthers :=
  fun _ _ _ _ hcache hother => (HostStage.change _ _).spares hcache hother

theorem givesBack (h : Host) : h.GivesBack := by
  rintro number cache entered hfetch propagate body last rfl
  have hreplay := replay_acts propagate (entered.disable number cache) [] body
  have hnumbered := numbered?_update (fetch_eq_ok hfetch).1 (cache.assign .maxSize (.int 0))
  obtain ⟨c, hc⟩ : ∃ c, ((entered.disable number cache).steps propagate body).2.2.caches[number]?
      = some c := by
    -- The cache is there when the body begins, and no cache is ever lost.
    have hbegin := (List.getElem?_eq_some_iff.mp (numbered?_eq_some.mp hnumbered).2).1
    have hend : number < (HostStage.replay ⟨entered.disable number cache, []⟩
        ((entered.disable number cache).acts propagate body)).host.caches.length :=
      HostStage.replay_induct (P := fun g => number < g.host.caches.length) hbegin
        fun a _ g hg => Nat.lt_of_lt_of_le hg (g.change a).length_le
    rw [hreplay] at hend
    exact ⟨_, List.getElem?_eq_getElem hend⟩
  refine ⟨c, hc, ?_, fun hnone => ?_⟩
  · rw [step, hfetch]
    exact giveBack_eq hc _
  · have hfollows := (HostStage.follows_numbered
      (g := ⟨entered.disable number cache, []⟩) hnumbered).replay hnone
    rw [hreplay] at hfollows
    exact (numbered?_eq_some.mp hfollows.numbered).1

end Host

/-! ## The life cycle as a whole -/

namespace Host

open HostAct

/-- **The life cycle of the shared cache.**  Take any run of a host that begins without a current
    cache, whatever caches callers hold, and any moment of it, inside a block or outside; the host
    is `t` then.

    The cache was given, or it was built, or there is none, as the acts so far say.  A cache that
    was given or built is what a session has made of it with the acts since then.  Where there is
    none and the environment in force is refused, every step that needs a cache is refused with
    the same complaint and changes nothing; so the next one tries again.  Compiling without a cache
    answers what it answers for any host, and changes nothing.  With a cache that was built, or that
    compiling builds, and whose capacity and time to live nobody has assigned, compiling fails only
    for a source that is rejected; this is so too if other caches were current in between.  Caches
    that are not current are left alone.  And a block that disables the cache gives its capacity
    back. -/
theorem reaches_lifeCycle (h : Host) (hstart : h.current = none) (propagate : Bool)
    (body : List HostStep) (before : List HostAct) (t : Host)
    (ht : h.Reaches propagate body before t) :
    ((∃ tenure, Tenure.Given h before tenure) ∨ (∃ tenure, Tenure.Built h before tenure) ∨
      Vacant h before) ∧
    (∀ tenure, Tenure.Given h before tenure ∨ Tenure.Built h before tenure →
      t.numbered? = some (tenure.number, (tenure.stage h).session.cache)) ∧
    (Vacant h before → t.numbered? = none ∧
      ∀ f, settingsAfter h.environment before = .error f → t.Refuses f) ∧
    (∀ source, (t.step (.compileUncached source)).2 = t ∧
      ∀ h' : Host, (h'.step (.compileUncached source)).1
        = (t.step (.compileUncached source)).1) ∧
    (∀ tenure earlier later, before = earlier ++ later → Tenure.Built h earlier tenure →
      (h.after tenure.earlier).Untouched tenure.number (tenure.since ++ later) →
      t.current = some tenure.number → t.CompilesUnlessRejected) ∧
    (Vacant h before → ∀ s, settingsAfter h.environment before = .ok s →
      t.CompilesUnlessRejected) ∧
    t.SparesOthers ∧ t.GivesBack := by
  have hnone : h.numbered? = none := by rw [numbered?, hstart]; rfl
  obtain ⟨-, rfl⟩ := ht
  have hload := load_after h before
  refine ⟨given_or_built_or_vacant h before, fun tenure => Tenure.numbered_eq hnone,
    fun hvacant => ?_, fun source => ?_, ?_, fun hvacant s hs => ?_, sparesOthers _, givesBack _⟩
  · exact ⟨hvacant.numbered_none hnone, fun f hf =>
      refuses (hvacant.numbered_none hnone) (hload.trans hf)⟩
  · rw [step_compileUncached]
    exact ⟨rfl, fun h' => by rw [step_compileUncached]⟩
  · rintro tenure earlier later rfl hbuilt huntouched hcurrent
    obtain ⟨s, hs, hcache⟩ := hbuilt.settings
    have hready : tenure.cache.Ready := hcache ▸ ready_of_settingsAfter hs
    obtain ⟨c, hc, hcready⟩ := (hbuilt.sound hnone hready huntouched).cache
    exact compilesUnlessRejected (fetch_current (numbered?_eq_some.mpr ⟨hcurrent, hc⟩)) hcready
  · exact compilesUnlessRejected (fetch_built (hvacant.numbered_none hnone) (hload.trans hs))
      (ready_of_settingsAfter hs)

/-- The first step that needs a cache is refused, a later one builds it; it is taken away, and given
    again after the environment has become one that is refused. -/
theorem reaches_lifeCycle_rebuilt :
    let refused := [("URIPATTERN_CACHE_SIZE".toList, "x".toList)]
    let accepted := [("URIPATTERN_CACHE_SIZE".toList, "2".toList)]
    let body : List HostStep :=
      [.fetch, .setEnvironment accepted, .use (.compile "/a".toList), .setCache none,
        .setEnvironment refused, .setCache (some (.held 0))]
    let h := start (.startAt 0.0 1.0) refused []
    let t := (h.steps false body).2.2
    h.current = none ∧ h.Reaches false body (h.acts false body) t ∧ t.current = some 0 ∧
      t.CompilesUnlessRejected ∧ t.SparesOthers ∧ t.GivesBack := by
  intro refused accepted body h t
  have hacts : h.acts false body = [.fetch, .setEnvironment accepted, .use (.compile "/a".toList)]
      ++ [.setCache none, .setEnvironment refused, .setCache (some (.held 0))] := by
    rw [acts_false_cons, acts_false_cons, acts_false_cons, acts_false_cons, acts_false_cons,
      acts_false_cons]
    rfl
  have hknown := Layers.known_ofEnvironment
  have hrefused : settingsAfter refused [] = .error (.refused (.invalidValue .size "x".toList)) :=
    (Layers.load_of_known rfl (hknown _)).2 _ rfl
  have haccepted : settingsAfter refused [.fetch, .setEnvironment accepted]
      = .ok ⟨.bool true, .int 2, .null, .bool true⟩ :=
    ((Layers.load_of_known rfl (hknown _)).1 _ rfl).trans rfl
  have hvacant : Vacant h [.fetch, .setEnvironment accepted] :=
    ⟨[], _, rfl, .inl rfl, (Waiting.nil.concat rfl fun _ => ⟨_, hrefused⟩).concat rfl False.elim⟩
  have hnumber : 0 = (h.after [.fetch, .setEnvironment accepted]).host.caches.length := by
    decide +kernel
  have hbuilt : Tenure.Built h [.fetch, .setEnvironment accepted, .use (.compile "/a".toList)]
      ⟨[.fetch, .setEnvironment accepted], 0, .ofSettings ⟨.bool true, .int 2, .null, .bool true⟩,
        [.use (.compile "/a".toList)]⟩ :=
    ⟨rfl, hvacant, ⟨_, _, rfl, trivial⟩, hnumber, ⟨_, haccepted, rfl⟩,
      List.forall_mem_singleton.mpr rfl⟩
  have hcurrent : t.current = some 0 := by decide +kernel
  have ht : h.Reaches false body (h.acts false body) t := reaches_last
  clear_value t
  obtain ⟨-, -, -, -, hcompiles, -, hspares, hgives⟩ := reaches_lifeCycle h rfl _ _ _ t ht
  have huntouched : (h.after [.fetch, .setEnvironment accepted]).Untouched 0
      ([.use (.compile "/a".toList)] ++
        [.setCache none, .setEnvironment refused, .setCache (some (.held 0))]) :=
    HostStage.untouched_of_unassigned (by simp [Unassigned])
  exact ⟨rfl, ht, hcurrent, hcompiles _ _ _ hacts hbuilt huntouched hcurrent, hspares, hgives⟩

end Host

end Routing
