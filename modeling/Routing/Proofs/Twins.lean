/-
  TWINS — caches that differ in what a refused source leaves behind, and in nothing else.

  Two runs are compared by a relation between their states that every operation keeps.

  1. **Twins** (`Cache.Twin`) have the same settings, and the same entries in the same order but for
     the time that compiling took; and one is ahead of the other by as many misses and errors.  The
     time may differ because the two have not read the stopwatch equally often.
  2. **Lookups and stores** read nothing in which twins differ: what is found depends on keys, on
     the time of the store and on the time to live, and what is given up on the number of entries
     (`Cache.map_shrink`).
  3. **The crux** (`Session.Effect.twin`): whatever a use does to a session, the same use does to
     its twin, with the same outcome, and the two stay twins.  This takes one case for each thing
     that a use can do.
-/
import Routing.Proofs.Trace

namespace Routing

/-! ## Twins -/

/-- The entry without the time that compiling took. -/
def Entry.untimed (e : Entry) : Entry := { e with compileTime := .null }

/-- Statistics that are **ahead** of others by as many misses and errors, and by nothing else that
    is counted. -/
structure Stats.Ahead (n : Nat) (s t : Stats) : Prop where
  hits : s.hits = t.hits
  evictions : s.evictions = t.evictions
  misses : s.misses = t.misses + n
  errors : s.errors = t.errors + n

namespace Stats.Ahead

variable {n : Nat} {s t : Stats}

theorem hit (h : s.Ahead n t) : s.hit.Ahead n t.hit :=
  ⟨congrArg (· + 1) h.hits, h.evictions, h.misses, h.errors⟩

theorem miss (h : s.Ahead n t) : s.miss.Ahead n t.miss := by
  refine ⟨h.hits, h.evictions, ?_, h.errors⟩
  rw [Stats.miss, h.misses]
  exact Nat.add_right_comm _ _ _

theorem evict (h : s.Ahead n t) (m : Nat) : (s.evict m).Ahead n (t.evict m) :=
  ⟨h.hits, congrArg (· + m) h.evictions, h.misses, h.errors⟩

theorem reject (h : s.Ahead n t) : s.reject.Ahead n t.reject := by
  refine ⟨h.hits, h.evictions, h.misses, ?_⟩
  rw [Stats.reject, h.errors]
  exact Nat.add_right_comm _ _ _

theorem spend (h : s.Ahead n t) (time time' : Float) : (s.spend time).Ahead n (t.spend time') :=
  ⟨h.hits, h.evictions, h.misses, h.errors⟩

end Stats.Ahead

namespace Cache

/-- **Twins**: caches that differ in the time that compiling took, and of which the first is ahead
    by `n` misses and errors. -/
structure Twin (n : Nat) (c d : Cache) : Prop where
  settings : ∀ k, c.setting k = d.setting k
  entries : c.entries.map Entry.untimed = d.entries.map Entry.untimed
  stats : c.stats.Ahead n d.stats

theorem map_find? (c : Cache) (key : Text) :
    (c.find? key).map Entry.untimed = (c.entries.map Entry.untimed).find? (·.key = key) := by
  rw [List.find?_map]
  rfl

theorem map_others (c : Cache) (key : Text) :
    (c.others key).map Entry.untimed
      = (c.entries.map Entry.untimed).filter (·.key ≠ key) := by
  rw [List.filter_map]
  rfl

theorem map_shrink (limit : Exact) (entries : List Entry) :
    (shrink limit entries).map Entry.untimed = shrink limit (entries.map Entry.untimed) := by
  induction entries with
  | nil => rfl
  | cons e rest ih =>
    rw [List.map_cons, shrink, shrink, List.length_map]
    split
    · exact ih
    · rfl

namespace Twin

variable {n : Nat} {c d : Cache} {now : Float} {key : Text}

theorem maxSize (h : c.Twin n d) : c.maxSize = d.maxSize := h.settings .maxSize

theorem ttl (h : c.Twin n d) : c.ttl = d.ttl := h.settings .ttl

theorem counting (h : c.Twin n d) : c.counting = d.counting := h.settings .counting

theorem length (h : c.Twin n d) : c.entries.length = d.entries.length := by
  have hlength := congrArg List.length h.entries
  rwa [List.length_map, List.length_map] at hlength

theorem find? (h : c.Twin n d) (key : Text) :
    (c.find? key).map Entry.untimed = (d.find? key).map Entry.untimed := by
  rw [map_find?, map_find?, h.entries]

theorem contains (h : c.Twin n d) (key : Text) : c.contains key = d.contains key := by
  have hsome := congrArg Option.isSome (h.find? key)
  rwa [Option.isSome_map, Option.isSome_map] at hsome

theorem others (h : c.Twin n d) (key : Text) :
    (c.others key).map Entry.untimed = (d.others key).map Entry.untimed := by
  rw [map_others, map_others, h.entries]

theorem expired (h : c.Twin n d) {e e' : Entry} (he : e.untimed = e'.untimed) (now : Float) :
    c.expired now e = d.expired now e' := by
  have hcreated : e.createdAt = e'.createdAt := (congrArg Entry.createdAt he :)
  rw [Cache.expired, Cache.expired, h.ttl, hcreated]

theorem withEntries (h : c.Twin n d) {new new' : List Entry}
    (hentries : new.map Entry.untimed = new'.map Entry.untimed) :
    { c with entries := new }.Twin n { d with entries := new' } :=
  ⟨fun k => (setting_withEntries c new k).trans
    ((h.settings k).trans (setting_withEntries d new' k).symm), hentries, h.stats⟩

/-- Twins count together. -/
theorem count (h : c.Twin n d) {f f' : Stats → Stats}
    (hf : ∀ {s t : Stats}, s.Ahead n t → (f s).Ahead n (f' t)) :
    (c.count f).Twin n (d.count f') := by
  refine ⟨fun k => by rw [setting_count, setting_count, h.settings k], ?_, ?_⟩
  · rw [count_entries, count_entries]
    exact h.entries
  · unfold Cache.count
    rw [h.counting]
    split
    · exact hf h.stats
    · exact h.stats

theorem makeRoom (h : c.Twin n d) (limit : Exact) :
    (c.makeRoom limit).Twin n (d.makeRoom limit) := by
  have hkept : (shrink limit c.entries).map Entry.untimed
      = (shrink limit d.entries).map Entry.untimed := by
    rw [map_shrink, map_shrink, h.entries]
  have hroomy := h.withEntries hkept
  have hlength : (shrink limit c.entries).length = (shrink limit d.entries).length :=
    hroomy.length
  rw [Cache.makeRoom, Cache.makeRoom, h.length, hlength]
  exact hroomy.count fun hstats => hstats.evict _

/-- **What a lookup finds in a cache, it finds in its twin.** -/
theorem lookup (h : c.Twin n d) {found : Option Route} {c' : Cache}
    (hlookup : c.Lookup now key found c') : ∃ d', d.Lookup now key found d' ∧ c'.Twin n d' := by
  have hfind := h.find? key
  cases hlookup with
  | absent hnone =>
    rw [hnone, Option.map_none] at hfind
    exact ⟨_, .absent (Option.map_eq_none_iff.mp hfind.symm), h.count Stats.Ahead.miss⟩
  | expired hsome hold =>
    rw [hsome, Option.map_some] at hfind
    obtain ⟨e', hsome', he⟩ := Option.map_eq_some_iff.mp hfind.symm
    rw [h.expired he.symm] at hold
    exact ⟨_, .expired hsome' hold,
      (h.withEntries (h.others key)).count fun hstats => (hstats.evict 1).miss⟩
  | hit hsome hnew =>
    rw [hsome, Option.map_some] at hfind
    obtain ⟨e', hsome', he⟩ := Option.map_eq_some_iff.mp hfind.symm
    have hroute : e'.route = _ := (congrArg Entry.route he :)
    have htouched : (e'.touch now).untimed = _ := (congrArg (Entry.touch · now) he :)
    rw [h.expired he.symm] at hnew
    have hhit := Lookup.hit hsome' hnew
    rw [hroute] at hhit
    refine ⟨_, hhit, (h.withEntries ?_).count Stats.Ahead.hit⟩
    rw [List.map_append, List.map_append, h.others key, List.map_singleton, List.map_singleton,
      htouched]
    rfl

/-- **What a store does to a cache, it does to its twin**, whatever time it is told. -/
theorem store (h : c.Twin n d) {route : Route} {time : Setting} {c' : Cache} (time' : Setting)
    (hstore : c.Store now key route time c') :
    ∃ d', d.Store now key route time' d' ∧ c'.Twin n d' := by
  have hkeys := h.contains key
  cases hstore with
  | off hlimit hoff =>
    rw [h.maxSize] at hlimit
    exact ⟨d, .off hlimit hoff, h⟩
  | again hlimit hon hkey =>
    rw [h.maxSize] at hlimit
    rw [hkeys] at hkey
    refine ⟨_, .again hlimit hon hkey, h.withEntries ?_⟩
    rw [List.map_append, List.map_append, h.others key]
    rfl
  | new hlimit hon hkey =>
    rw [h.maxSize] at hlimit
    rw [hkeys] at hkey
    refine ⟨_, .new hlimit hon hkey, (h.makeRoom _).withEntries ?_⟩
    rw [List.map_append, List.map_append, (h.makeRoom _).others key]
    rfl

end Twin

end Cache

namespace Session

/-- Sessions **at the same time, with twin caches**. -/
structure Twin (n : Nat) (s t : Session) : Prop where
  now : s.clock.now = t.clock.now
  cache : s.cache.Twin n t.cache

variable {n : Nat} {s s' t : Session}

/-! ### What happens to a session is what its operation gives -/

theorem Compiling.eq {source : Text} {outcome : Except Failure Route}
    (h : s.Compiling source outcome s') : s.compile source = (outcome, s') := by
  cases h with
  | hit hlookup => simp only [compile, Cache.get_eq_ok_iff.mpr hlookup]
  | rejected hlookup he => simp only [compile, Cache.get_eq_ok_iff.mpr hlookup, he]
  | stored hlookup hr htime hstore =>
    have hput := Cache.put_eq_ok_iff.mpr hstore
    subst htime
    simp only [Clock.lap] at hput
    simp only [compile, Cache.get_eq_ok_iff.mpr hlookup, hr, Clock.lap, hput]

theorem Effect.eq {u : Use} {outcome : Except Failure Reply} (h : s.Effect u outcome s') :
    s.use u = (outcome, s') := by
  cases h with
  | compile h => rw [use, h.eq]
  | get hlookup => rw [use, Cache.get_eq_ok_iff.mpr hlookup]
  | refused hpattern => rw [use, hpattern]
  | put hpattern hstore => simp only [use, hpattern, Cache.put_eq_ok_iff.mpr hstore]
  | remove | clear | resetStats | size | contains | assign => rfl

/-! ### What a session does, its twin does -/

theorem Compiling.twin {source : Text} {outcome : Except Failure Route} (htwin : s.Twin n t)
    (h : s.Compiling source outcome s') : ∃ t', t.Compiling source outcome t' ∧ s'.Twin n t' := by
  obtain ⟨hnow, hcache⟩ := htwin
  cases h with
  | hit hlookup =>
    rw [hnow] at hlookup
    obtain ⟨d, hlookup', hd⟩ := hcache.lookup hlookup
    exact ⟨_, .hit hlookup', hnow, hd⟩
  | rejected hlookup he =>
    rw [hnow] at hlookup
    obtain ⟨d, hlookup', hd⟩ := hcache.lookup hlookup
    exact ⟨_, .rejected hlookup' he, hnow, hd.count Stats.Ahead.reject⟩
  | stored hlookup hr _ hstore =>
    rw [hnow] at hlookup hstore
    obtain ⟨d, hlookup', hd⟩ := hcache.lookup hlookup
    obtain ⟨d', hstore', hd'⟩ := hd.store _ hstore
    exact ⟨_, .stored hlookup' hr rfl hstore', hnow, hd'.count fun hstats => hstats.spend _ _⟩

end Session

/-- How far one statistic is ahead after a use that both make. -/
def Use.ahead (n : Nat) : Use → Nat
  | .resetStats => 0
  | _ => n

namespace Session

variable {n : Nat} {s s' t : Session}

/-- **What a use does to a session, it does to its twin.** -/
theorem Effect.twin {u : Use} {outcome : Except Failure Reply} (htwin : s.Twin n t)
    (h : s.Effect u outcome s') :
    ∃ t', t.Effect u outcome t' ∧ s'.Twin (u.ahead n) t' := by
  obtain ⟨hnow, hcache⟩ := htwin
  cases h with
  | compile h =>
    obtain ⟨t', h', htwin'⟩ := h.twin ⟨hnow, hcache⟩
    exact ⟨t', .compile h', htwin'⟩
  | get hlookup =>
    rw [hnow] at hlookup
    obtain ⟨d, hlookup', hd⟩ := hcache.lookup hlookup
    exact ⟨_, .get hlookup', hnow, hd⟩
  | refused hpattern => exact ⟨t, .refused hpattern, hnow, hcache⟩
  | put hpattern hstore =>
    rw [hnow] at hstore
    obtain ⟨d, hstore', hd⟩ := hcache.store _ hstore
    exact ⟨_, .put hpattern hstore', hnow, hd⟩
  | remove => exact ⟨_, .remove, hnow, hcache.withEntries (hcache.others _)⟩
  | clear => exact ⟨_, .clear, hnow, hcache.withEntries rfl⟩
  | resetStats =>
    refine ⟨_, .resetStats, hnow, fun k => ?_, hcache.entries, rfl, rfl, rfl, rfl⟩
    cases k with
    | maxSize => exact hcache.maxSize
    | ttl => exact hcache.ttl
    | counting => exact hcache.counting
  | size =>
    rw [hcache.length]
    exact ⟨_, .size, hnow, hcache⟩
  | contains =>
    rw [hcache.contains]
    exact ⟨_, .contains, hnow, hcache⟩
  | assign =>
    rename_i knob v
    refine ⟨_, .assign, hnow, fun k => ?_, ?_, ?_⟩
    · rw [Cache.setting_assign, Cache.setting_assign, hcache.settings k]
    · cases knob <;> exact hcache.entries
    · cases knob <;> exact hcache.stats

theorem Twin.withMaxSize (h : s.Twin n t) (size : Setting) :
    (s.withMaxSize size).Twin n (t.withMaxSize size) := by
  obtain ⟨hnow, hcache⟩ := h
  refine ⟨hnow, fun k => ?_, hcache.entries, hcache.stats⟩
  rw [Session.withMaxSize, Session.withMaxSize, Cache.setting_assign, Cache.setting_assign,
    hcache.settings k]

/-- **What a use does to a session, it does to its twin**, with the same outcome. -/
theorem Twin.use (h : s.Twin n t) (hready : s.cache.Ready) (u : Use) :
    (t.use u).1 = (s.use u).1 ∧ (s.use u).2.Twin (u.ahead n) (t.use u).2 := by
  obtain ⟨t', heffect, htwin⟩ := (effect hready u).twin h
  rw [heffect.eq]
  exact ⟨rfl, htwin⟩

theorem Twin.move (h : s.Twin n t) (m : ClockMove) :
    (t.step (.move m)).1 = (s.step (.move m)).1 ∧
      (s.step (.move m)).2.Twin n (t.step (.move m)).2 := by
  obtain ⟨hnow, hcache⟩ := h
  cases m with
  | advance time =>
    rw [step, step, Clock.move, Clock.move]
    cases time.toAmount with
    | error f => exact ⟨rfl, hnow, hcache⟩
    | ok amount => exact ⟨rfl, congrArg (· + amount) hnow, hcache⟩
  | setTick tick =>
    rw [step, step, Clock.move, Clock.move]
    cases tick.toTime with
    | error f => exact ⟨rfl, hnow, hcache⟩
    | ok tick => exact ⟨rfl, hnow, hcache⟩

end Session

end Routing
