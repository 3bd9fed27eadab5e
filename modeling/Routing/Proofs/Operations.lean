/-
  OPERATIONS — what each operation of a cache can do, said once.

  1. **Ready** caches have a capacity that is a number and a time to live that is a number or none.
     An operation on a ready cache has a result; only a setting that was never checked can make it
     fail.
  2. **Lookups** (`Cache.Lookup`) miss, find an entry that is too old, or hit.  **Stores**
     (`Cache.Store`) do nothing, replace the entry of the key, or make room and add one.
  3. **Compilings** (`Session.Compiling`) are a lookup that hits, or a lookup that does not and then
     a source that is refused, or one that is compiled and stored.
  4. **Effects** (`Session.Effect`) put these together: what any use of a ready cache can do.
  5. **Failing** uses (`Session.Failing`) are all that other caches add: a use that misses a number
     stores nothing.

  Each of these relations holds of the operation's result and says all that the operation changes,
  so no later proof opens an operation again.
-/
import Routing.Cache.Session

namespace Routing

/-! ## Settings that can be compared -/

/-- Whether a setting can be assigned without an operation failing later. -/
def Knob.Admits : Knob → Setting → Prop
  | .maxSize, v => v.number?.isSome
  | .ttl, v => v = .null ∨ v.number?.isSome
  | .counting, _ => True

instance (v : Setting) : Decidable (v = .null) :=
  match v with
  | .null => isTrue rfl
  | .bool _ | .int _ | .float _ | .text _ | .list _ => isFalse nofun

instance (v : Setting) (m : Int) : Decidable (v = .int m) :=
  match v with
  | .int n => decidable_of_iff (n = m) ⟨congrArg Setting.int, Setting.int.inj⟩
  | .null | .bool _ | .float _ | .text _ | .list _ => isFalse nofun

instance (k : Knob) (v : Setting) : Decidable (k.Admits v) :=
  match k with
  | .maxSize => inferInstanceAs (Decidable (v.number?.isSome = true))
  | .ttl => inferInstanceAs (Decidable (v = .null ∨ v.number?.isSome = true))
  | .counting => isTrue trivial

namespace Cache

/-- The setting behind a knob. -/
def setting (c : Cache) : Knob → Setting
  | .maxSize => c.maxSize
  | .ttl => c.ttl
  | .counting => c.counting

theorem setting_count (c : Cache) (f : Stats → Stats) (k : Knob) :
    (c.count f).setting k = c.setting k := by
  cases k with
  | maxSize => exact c.count_maxSize f
  | ttl => exact c.count_ttl f
  | counting => exact c.count_counting f

theorem setting_withEntries (c : Cache) (entries : List Entry) (k : Knob) :
    { c with entries := entries }.setting k = c.setting k := by
  cases k <;> rfl

theorem setting_assign (c : Cache) (knob : Knob) (v : Setting) (k : Knob) :
    (c.assign knob v).setting k = if k = knob then v else c.setting k := by
  cases knob <;> cases k <;> rfl

/-- A cache whose settings can be compared. -/
def Ready (c : Cache) : Prop := ∀ k : Knob, k.Admits (c.setting k)

theorem Ready.maxSize {c : Cache} (h : c.Ready) : ∃ limit, c.maxSize.number? = some limit :=
  Option.isSome_iff_exists.mp (h .maxSize)

theorem Ready.ttl {c : Cache} (h : c.Ready) :
    c.ttl = .null ∨ ∃ limit, c.ttl.number? = some limit :=
  (h .ttl).imp_right Option.isSome_iff_exists.mp

theorem Ready.assign {c : Cache} (h : c.Ready) {knob : Knob} {v : Setting} (hv : knob.Admits v) :
    (c.assign knob v).Ready := by
  intro k
  rw [setting_assign]
  split
  · next heq => rwa [heq]
  · exact h k

/-! ## Entries -/

theorem find?_eq_some {c : Cache} {key : Text} {e : Entry} (h : c.find? key = some e) :
    e ∈ c.entries ∧ e.key = key :=
  ⟨List.mem_of_find?_eq_some h, by simpa using List.find?_some h⟩

theorem mem_others {c : Cache} {key : Text} {e : Entry} :
    e ∈ c.others key ↔ e ∈ c.entries ∧ e.key ≠ key := by
  rw [others, List.mem_filter, decide_eq_true_iff]

theorem shrink_suffix (limit : Exact) (entries : List Entry) :
    shrink limit entries <:+ entries := by
  induction entries with
  | nil => exact List.suffix_refl []
  | cons e rest ih =>
    rw [shrink]
    split
    · exact ih.trans (List.suffix_cons e rest)
    · exact List.suffix_refl _

/-! ## Looking up -/

theorem expired_eq_ok {c : Cache} (h : c.Ready) (now : Float) (e : Entry) :
    ∃ old, c.expired now e = .ok old := by
  unfold expired
  split
  · exact ⟨false, rfl⟩
  · next ttl hne =>
    obtain ⟨limit, hlimit⟩ := h.ttl.resolve_left hne
    rw [hlimit]
    exact ⟨_, rfl⟩

theorem expired_eq_error {c : Cache} {now : Float} {e : Entry} {f : Failure}
    (h : c.expired now e = .error f) : f = .incomparable := by
  unfold expired at h
  split at h
  · nomatch h
  · split at h
    · cases h
      rfl
    · nomatch h

/-- What a **lookup** finds, and the cache after it. -/
inductive Lookup (c : Cache) (now : Float) (key : Text) : Option Route → Cache → Prop
  | absent (h : c.find? key = none) : Lookup c now key none (c.count .miss)
  | expired {e : Entry} (h : c.find? key = some e) (hold : c.expired now e = .ok true) :
    Lookup c now key none ({ c with entries := c.others key }.count fun s => (s.evict 1).miss)
  | hit {e : Entry} (h : c.find? key = some e) (hnew : c.expired now e = .ok false) :
    Lookup c now key (some e.route)
      ({ c with entries := c.others key ++ [e.touch now] }.count .hit)

theorem get_eq_ok_iff {c : Cache} {now : Float} {key : Text} {found : Option Route} {c' : Cache} :
    c.get now key = .ok (found, c') ↔ c.Lookup now key found c' := by
  unfold get
  constructor
  · intro h
    split at h
    · next hfind =>
      cases h
      exact .absent hfind
    · next e hfind =>
      split at h
      · nomatch h
      · next hold =>
        cases h
        exact .expired hfind hold
      · next hnew =>
        cases h
        exact .hit hfind hnew
  · intro h
    cases h with
    | absent hfind => rw [hfind]
    | expired hfind hold => simp only [hfind, hold]
    | hit hfind hnew => simp only [hfind, hnew]

/-- **A lookup in a ready cache has a result.** -/
theorem get_eq_ok {c : Cache} (h : c.Ready) (now : Float) (key : Text) :
    ∃ found c', c.get now key = .ok (found, c') := by
  cases hfind : c.find? key with
  | none => exact ⟨_, _, get_eq_ok_iff.mpr (.absent hfind)⟩
  | some e =>
    obtain ⟨old, hold⟩ := expired_eq_ok h now e
    cases old with
    | true => exact ⟨_, _, get_eq_ok_iff.mpr (.expired hfind hold)⟩
    | false => exact ⟨_, _, get_eq_ok_iff.mpr (.hit hfind hold)⟩

theorem get_eq_error {c : Cache} {now : Float} {key : Text} {f : Failure}
    (h : c.get now key = .error f) : ¬ c.Ready ∧ f = .incomparable := by
  constructor
  · intro hready
    obtain ⟨found, c', hok⟩ := get_eq_ok hready now key
    nomatch hok.symm.trans h
  · unfold get at h
    split at h
    · nomatch h
    · split at h
      · next hold =>
        cases h
        exact expired_eq_error hold
      · nomatch h
      · nomatch h

section
variable {c c' : Cache} {now : Float} {key : Text} {found : Option Route}

/-- A lookup changes no setting. -/
theorem Lookup.setting (hlookup : c.Lookup now key found c') (k : Knob) :
    c'.setting k = c.setting k := by
  cases hlookup with
  | absent => rw [setting_count]
  | expired => rw [setting_count, setting_withEntries]
  | hit => rw [setting_count, setting_withEntries]

theorem Lookup.ready (h : c.Ready) (hlookup : c.Lookup now key found c') : c'.Ready :=
  fun k => (hlookup.setting k).symm ▸ h k

/-- A lookup leaves entries as they were, but for the history of the one that it hits. -/
theorem Lookup.mem_entries (hlookup : c.Lookup now key found c') :
    ∀ e' ∈ c'.entries, ∃ e ∈ c.entries, e' = e ∨ e' = e.touch now := by
  intro e' he'
  cases hlookup with
  | absent =>
    rw [count_entries] at he'
    exact ⟨e', he', .inl rfl⟩
  | expired =>
    rw [count_entries] at he'
    exact ⟨e', (mem_others.mp he').1, .inl rfl⟩
  | hit hfind =>
    rw [count_entries] at he'
    rcases List.mem_append.mp he' with he' | he'
    · exact ⟨e', (mem_others.mp he').1, .inl rfl⟩
    · exact ⟨_, (find?_eq_some hfind).1, .inr (List.mem_singleton.mp he')⟩

/-- What is true of all keys and their routes stays true after a lookup. -/
theorem Lookup.forall_entry {P : Text → Route → Prop} (hlookup : c.Lookup now key found c')
    (h : ∀ e ∈ c.entries, P e.key e.route) : ∀ e ∈ c'.entries, P e.key e.route := by
  intro e' he'
  obtain ⟨e, he, rfl | rfl⟩ := hlookup.mem_entries e' he'
  · exact h e' he
  · exact h e he

end

/-! ## Storing -/

/-- The cache after a **store**. -/
inductive Store (c : Cache) (now : Float) (key : Text) (route : Route) (time : Setting) :
    Cache → Prop
  | off {limit : Exact} (hlimit : c.maxSize.number? = some limit) (hoff : limit.le (.ofInt 0)) :
    Store c now key route time c
  | again {limit : Exact} (hlimit : c.maxSize.number? = some limit) (hon : ¬ limit.le (.ofInt 0))
    (hkey : c.contains key) :
    Store c now key route time
      { c with entries := c.others key ++ [⟨key, route, now, now, 0, time⟩] }
  | new {limit : Exact} (hlimit : c.maxSize.number? = some limit) (hon : ¬ limit.le (.ofInt 0))
    (hkey : ¬ c.contains key) :
    Store c now key route time
      { c.makeRoom limit with
        entries := (c.makeRoom limit).others key ++ [⟨key, route, now, now, 0, time⟩] }

theorem put_eq_ok_iff {c : Cache} {now : Float} {key : Text} {route : Route} {time : Setting}
    {c' : Cache} : c.put now key route time = .ok c' ↔ c.Store now key route time c' := by
  unfold put
  constructor
  · intro h
    split at h
    · nomatch h
    · next limit hlimit =>
      split at h
      · next hoff =>
        cases h
        exact .off hlimit hoff
      · next hon =>
        cases h
        by_cases hkey : c.contains key
        · rw [if_pos hkey]
          exact .again hlimit hon hkey
        · rw [if_neg hkey]
          exact .new hlimit hon hkey
  · intro h
    cases h with
    | off hlimit hoff => simp only [hlimit, if_pos hoff]
    | again hlimit hon hkey => simp only [hlimit, if_neg hon, if_pos hkey]
    | new hlimit hon hkey => simp only [hlimit, if_neg hon, if_neg hkey]

/-- A store has a result if the capacity is a number. -/
theorem put_eq_ok_of_admits {c : Cache} (hsize : Knob.maxSize.Admits c.maxSize) (now : Float)
    (key : Text) (route : Route) (time : Setting) : ∃ c', c.put now key route time = .ok c' := by
  obtain ⟨limit, hlimit⟩ := Option.isSome_iff_exists.mp hsize
  rw [put, hlimit]
  by_cases hoff : limit.le (.ofInt 0)
  · exact ⟨c, if_pos hoff⟩
  · exact ⟨_, if_neg hoff⟩

/-- **A store into a ready cache has a result.** -/
theorem put_eq_ok {c : Cache} (h : c.Ready) (now : Float) (key : Text) (route : Route)
    (time : Setting) : ∃ c', c.put now key route time = .ok c' :=
  put_eq_ok_of_admits (h .maxSize) now key route time

theorem put_eq_error {c : Cache} {now : Float} {key : Text} {route : Route} {time : Setting}
    {f : Failure} (h : c.put now key route time = .error f) : ¬ c.Ready ∧ f = .incomparable := by
  constructor
  · intro hready
    obtain ⟨c', hok⟩ := put_eq_ok hready now key route time
    nomatch hok.symm.trans h
  · unfold put at h
    split at h
    · cases h
      rfl
    · split at h <;> nomatch h

section
variable {c c' : Cache} {now : Float} {key : Text} {route : Route} {time : Setting}

/-- A store changes no setting. -/
theorem Store.setting (hstore : c.Store now key route time c') (k : Knob) :
    c'.setting k = c.setting k := by
  cases hstore with
  | off => rfl
  | again => rw [setting_withEntries]
  | new => rw [setting_withEntries, makeRoom, setting_count, setting_withEntries]

/-- After a store there are entries from before, and the one that was stored. -/
theorem Store.mem_entries (hstore : c.Store now key route time c') :
    ∀ e' ∈ c'.entries, e' ∈ c.entries ∨ e' = ⟨key, route, now, now, 0, time⟩ := by
  intro e' he'
  cases hstore with
  | off => exact .inl he'
  | again =>
    rcases List.mem_append.mp he' with he' | he'
    · exact .inl (mem_others.mp he').1
    · exact .inr (List.mem_singleton.mp he')
  | new =>
    rcases List.mem_append.mp he' with he' | he'
    · have hkept := (mem_others.mp he').1
      rw [makeRoom, count_entries] at hkept
      exact .inl ((shrink_suffix _ _).mem hkept)
    · exact .inr (List.mem_singleton.mp he')

/-- What is true of all keys and their routes stays true after a store of which it is true. -/
theorem Store.forall_entry {P : Text → Route → Prop} (hstore : c.Store now key route time c')
    (hkey : P key route) (h : ∀ e ∈ c.entries, P e.key e.route) :
    ∀ e ∈ c'.entries, P e.key e.route := by
  intro e he
  rcases hstore.mem_entries e he with hold | rfl
  · exact h e hold
  · exact hkey

end

end Cache

/-! ## Compiling with the cache -/

namespace Session

/-- What **compiling with the cache** answers, and the session after it. -/
inductive Compiling (s : Session) (source : Text) : Except Failure Route → Session → Prop
  | hit {r : Route} {cache : Cache} (h : s.cache.Lookup s.clock.now source (some r) cache) :
    Compiling s source (.ok r) { s with cache }
  | rejected {cache : Cache} {e : Rejection}
    (h : s.cache.Lookup s.clock.now source none cache) (he : Route.compile source = .error e) :
    Compiling s source (.error (.pattern (.rejected e))) ⟨s.clock.lap.2, cache.count .reject⟩
  | stored {cache stored : Cache} {r : Route} {time : Float}
    (h : s.cache.Lookup s.clock.now source none cache) (hr : Route.compile source = .ok r)
    (htime : time = s.clock.lap.2.lap.1 - s.clock.lap.1)
    (hstore : cache.Store s.clock.now source r (.float time) stored) :
    Compiling s source (.ok r) ⟨s.clock.lap.2.lap.2, stored.count (.spend time)⟩

/-- The session after a use that has **missed a number**: nothing has changed, or a source has been
    looked up in vain, and compiled. -/
inductive Failing (s : Session) : Session → Prop
  | untouched : Failing s s
  | lookedUp {source : Text} {cache : Cache}
    (h : s.cache.Lookup s.clock.now source none cache) : Failing s ⟨s.clock.lap.2.lap.2, cache⟩

/-- **Compiling with a cache** is one of the three, or misses a number if the cache is not ready. -/
theorem compiling_or_failing (s : Session) (source : Text) :
    s.Compiling source (s.compile source).1 (s.compile source).2 ∨
      ¬ s.cache.Ready ∧ (s.compile source).1 = .error .incomparable ∧
        s.Failing (s.compile source).2 := by
  unfold compile
  cases hget : s.cache.get s.clock.now source with
  | error f =>
    obtain ⟨hready, rfl⟩ := Cache.get_eq_error hget
    exact .inr ⟨hready, rfl, .untouched⟩
  | ok result =>
    obtain ⟨found, cache⟩ := result
    have hlookup := Cache.get_eq_ok_iff.mp hget
    cases found with
    | some r => exact .inl (.hit hlookup)
    | none =>
      cases hroute : Route.compile source with
      | error e => exact .inl (.rejected hlookup hroute)
      | ok r =>
        -- Readings of the stopwatch do not move the time, so the store has the time of the lookup.
        cases hput : cache.put s.clock.now source r
            (.float (s.clock.lap.2.lap.1 - s.clock.lap.1)) with
        | error f =>
          obtain ⟨hready, rfl⟩ := Cache.put_eq_error hput
          have hfailing := Failing.lookedUp hlookup
          simp only [Clock.lap] at hput hfailing ⊢
          rw [hput]
          exact .inr ⟨fun h => hready (hlookup.ready h), rfl, hfailing⟩
        | ok stored =>
          have hstored := Compiling.stored hlookup hroute rfl (Cache.put_eq_ok_iff.mp hput)
          simp only [Clock.lap] at hput hstored ⊢
          rw [hput]
          exact .inl hstored

/-- **Compiling with a ready cache** is one of the three. -/
theorem compiling {s : Session} (h : s.cache.Ready) (source : Text) :
    s.Compiling source (s.compile source).1 (s.compile source).2 :=
  (s.compiling_or_failing source).resolve_right fun hfail => hfail.1 h

/-! ## Any use -/

/-- What a **use of the cache** answers, and the session after it. -/
inductive Effect (s : Session) : Use → Except Failure Reply → Session → Prop
  | compile {source : Text} {outcome : Except Failure Route} {s' : Session}
    (h : s.Compiling source outcome s') : Effect s (.compile source) (outcome.map .ofRoute) s'
  | get {key : Text} {found : Option Route} {cache : Cache}
    (h : s.cache.Lookup s.clock.now key found cache) :
    Effect s (.get key) (.ok ((found.map .ofRoute).getD .none)) { s with cache }
  | refused {key : Text} {pattern : Pattern} {time : Setting} {f : PatternFault}
    (h : pattern.compile = .error f) : Effect s (.put key pattern time) (.error (.pattern f)) s
  | put {key : Text} {pattern : Pattern} {time : Setting} {r : Route} {cache : Cache}
    (h : pattern.compile = .ok r) (hstore : s.cache.Store s.clock.now key r time cache) :
    Effect s (.put key pattern time) (.ok .none) { s with cache }
  | remove {key : Text} : Effect s (.remove key) (.ok .none) { s with cache := s.cache.remove key }
  | clear : Effect s .clear (.ok .none) { s with cache := s.cache.clear }
  | resetStats : Effect s .resetStats (.ok .none) { s with cache := s.cache.resetStats }
  | size : Effect s .size (.ok (.count s.cache.entries.length)) s
  | contains {key : Text} : Effect s (.contains key) (.ok (.flag (s.cache.contains key))) s
  | assign {knob : Knob} {v : Setting} :
    Effect s (.assign knob v) (.ok .none) { s with cache := s.cache.assign knob v }

/-- **Any use of a cache** has one of these effects, or misses a number if the cache is not
    ready. -/
theorem effect_or_failing (s : Session) (u : Use) :
    s.Effect u (s.use u).1 (s.use u).2 ∨
      ¬ s.cache.Ready ∧ (s.use u).1 = .error .incomparable ∧ s.Failing (s.use u).2 := by
  cases u with
  | compile source =>
    rcases s.compiling_or_failing source with h | ⟨hready, hfail, h⟩
    · exact .inl (.compile h)
    · exact .inr ⟨hready, congrArg (Except.map Reply.ofRoute) hfail, h⟩
  | get key =>
    rw [use]
    cases hget : s.cache.get s.clock.now key with
    | error f =>
      obtain ⟨hready, rfl⟩ := Cache.get_eq_error hget
      exact .inr ⟨hready, rfl, .untouched⟩
    | ok result => exact .inl (.get (Cache.get_eq_ok_iff.mp hget))
  | put key pattern time =>
    rw [use]
    cases hpattern : pattern.compile with
    | error f => exact .inl (.refused hpattern)
    | ok r =>
      dsimp only
      cases hput : s.cache.put s.clock.now key r time with
      | error f =>
        obtain ⟨hready, rfl⟩ := Cache.put_eq_error hput
        exact .inr ⟨hready, rfl, .untouched⟩
      | ok cache => exact .inl (.put hpattern (Cache.put_eq_ok_iff.mp hput))
  | remove key => exact .inl .remove
  | clear => exact .inl .clear
  | resetStats => exact .inl .resetStats
  | size => exact .inl .size
  | contains key => exact .inl .contains
  | assign knob v => exact .inl .assign

/-- **Any use of a ready cache** has one of these effects. -/
theorem effect {s : Session} (h : s.cache.Ready) (u : Use) :
    s.Effect u (s.use u).1 (s.use u).2 :=
  (s.effect_or_failing u).resolve_right fun hfail => hfail.1 h

section
variable {s s' : Session} {P : Text → Route → Prop}

theorem Compiling.forall_entry {source : Text} {outcome : Except Failure Route}
    (h : s.Compiling source outcome s') (hsource : ∀ r, Route.compile source = .ok r → P source r)
    (hs : ∀ e ∈ s.cache.entries, P e.key e.route) : ∀ e ∈ s'.cache.entries, P e.key e.route := by
  cases h with
  | hit hlookup => exact hlookup.forall_entry hs
  | rejected hlookup =>
    rw [Cache.count_entries]
    exact hlookup.forall_entry hs
  | stored hlookup hr _ hstore =>
    rw [Cache.count_entries]
    exact hstore.forall_entry (hsource _ hr) (hlookup.forall_entry hs)

/-- **What is true of all keys and their routes**, of a source and the route that it compiles to,
    and of what is stored by hand, stays true after any use. -/
theorem Effect.forall_entry {u : Use} {outcome : Except Failure Reply} (h : s.Effect u outcome s')
    (hsource : ∀ source r, Route.compile source = .ok r → P source r)
    (hput : ∀ key pattern time r, u = .put key pattern time → pattern.compile = .ok r → P key r)
    (hs : ∀ e ∈ s.cache.entries, P e.key e.route) : ∀ e ∈ s'.cache.entries, P e.key e.route := by
  cases h with
  | compile h => exact h.forall_entry (hsource _) hs
  | get hlookup => exact hlookup.forall_entry hs
  | put hpattern hstore => exact hstore.forall_entry (hput _ _ _ _ rfl hpattern) hs
  | remove => exact fun e he => hs e (Cache.mem_others.mp he).1
  | clear => exact fun e he => absurd he List.not_mem_nil
  | resetStats | refused | size | contains => exact hs
  | assign =>
    rename_i knob v
    cases knob <;> exact hs

end

end Session

end Routing
