/-
  TRANSPARENCY — the cache never changes what a source compiles to.

  1. **Faithful** caches hold, under each key, the route of that key; so no refused source is a key.
  2. Lookups only take entries away or touch them, and compiling stores what it has compiled, so
     both keep a cache faithful.  A store by hand keeps it so if it stores the route of its key.
  3. **The crux** (`Compiling.faithful`): on a faithful cache a hit answers what compiling anew
     would answer, and a miss does compile anew.  This also covers a source that is refused, after
     its lookup may already have removed an entry that was too old.
  4. Every act keeps a stage transparent, hence every session that a run reaches is.
-/
import Routing.Proofs.Trace
import Routing.Proofs.Compiled

namespace Routing

/-! ## Faithful caches -/

namespace Cache

/-- Every entry holds the route of its key. -/
def Faithful (c : Cache) : Prop := ∀ e ∈ c.entries, Route.compile e.key = .ok e.route

section
variable {c c' : Cache} {now : Float} {key : Text}

/-- On a faithful cache, what is found is the route of the key. -/
theorem Lookup.route (h : c.Faithful) {r : Route} (hlookup : c.Lookup now key (some r) c') :
    Route.compile key = .ok r := by
  cases hlookup with
  | hit hfind =>
    obtain ⟨hmem, hkey⟩ := find?_eq_some hfind
    rw [← hkey]
    exact h _ hmem

theorem Lookup.faithful {found : Option Route} (h : c.Faithful)
    (hlookup : c.Lookup now key found c') : c'.Faithful :=
  hlookup.forall_entry (P := fun key r => Route.compile key = .ok r) h

theorem Store.faithful {route : Route} {time : Setting} (h : c.Faithful)
    (hroute : Route.compile key = .ok route) (hstore : c.Store now key route time c') :
    c'.Faithful :=
  hstore.forall_entry (P := fun key r => Route.compile key = .ok r) hroute h

theorem Faithful.count (h : c.Faithful) (f : Stats → Stats) : (c.count f).Faithful := by
  intro e he
  rw [count_entries] at he
  exact h e he

end

end Cache

/-! ## Uses -/

namespace Session

variable {s s' : Session}

/-- **Compiling with a faithful cache answers as compiling without one does.** -/
theorem Compiling.faithful {source : Text} {outcome : Except Failure Route}
    (hs : s.cache.Faithful) (h : s.Compiling source outcome s') :
    outcome = (Route.compile source).mapError (fun e => .pattern (.rejected e)) ∧
      s'.cache.Faithful := by
  cases h with
  | hit hlookup =>
    rw [hlookup.route hs]
    exact ⟨rfl, hlookup.faithful hs⟩
  | rejected hlookup he =>
    rw [he]
    exact ⟨rfl, (hlookup.faithful hs).count _⟩
  | stored hlookup hr _ hstore =>
    rw [hr]
    exact ⟨rfl, (hstore.faithful (hlookup.faithful hs) hr).count _⟩

end Session

/-- An act that stores under a key nothing but the route of that key. -/
def Act.StoresOwn : Act → Prop
  | .use (.put key pattern _) => ∀ r, pattern.compile = .ok r → Route.compile key = .ok r
  | _ => True

instance (key : Text) (pattern : Pattern) :
    Decidable (∀ r, pattern.compile = .ok r → Route.compile key = .ok r) :=
  match pattern.compile, Route.compile key with
  | .error _, _ => isTrue nofun
  | .ok _, .error _ => isFalse fun h => nomatch h _ rfl
  | .ok r, .ok r' =>
    decidable_of_iff (r' = r)
      ⟨fun h _ hr => congrArg _ (h.trans (Except.ok.inj hr)), fun h => Except.ok.inj (h r rfl)⟩

instance (a : Act) : Decidable a.StoresOwn :=
  match a with
  | .use (.put key pattern _) =>
    inferInstanceAs (Decidable (∀ r, pattern.compile = .ok r → Route.compile key = .ok r))
  | .use (.compile _) | .use (.get _) | .use (.remove _) | .use .clear | .use .resetStats
  | .use .size | .use (.contains _) | .use (.assign ..) | .move _ | .enter | .leave =>
    isTrue trivial

namespace Session

variable {s s' : Session}

theorem Effect.faithful {u : Use} {outcome : Except Failure Reply} (hs : s.cache.Faithful)
    (hu : (Act.use u).StoresOwn) (h : s.Effect u outcome s') : s'.cache.Faithful := by
  refine h.forall_entry (P := fun key r => Route.compile key = .ok r) (fun _ _ hr => hr) ?_ hs
  rintro key pattern time r rfl hr
  exact hu r hr

end Session

/-! ## Runs -/

/-- A stage in which every operation has a result, and the cache is faithful. -/
structure Stage.Transparent (g : Stage) : Prop where
  ready : g.Ready
  faithful : g.session.cache.Faithful

theorem Stage.Transparent.act {g : Stage} (h : g.Transparent) {a : Act} (ha : a.Admissible)
    (hown : a.StoresOwn) : (g.act a).Transparent := by
  refine ⟨h.ready.act ha, ?_⟩
  cases a with
  | move m =>
    rw [Stage.act, Session.cache_move]
    exact h.faithful
  | use u => exact (Session.effect h.ready.cache u).faithful h.faithful hown
  | enter => exact h.faithful
  | leave =>
    obtain ⟨session, saved⟩ := g
    cases saved with
    | nil => exact h.faithful
    | cons size saved => exact h.faithful

namespace Session

/-- **The cache is transparent.**  Take any run from a new cache on, in which the capacity is always
    a number, the time to live a number or none, and every store by hand stores the route of its
    key.  Then in every session that is reached each entry holds the route of its key, a lookup
    finds nothing or that route, and compiling with the cache answers, or refuses, as compiling
    without it does, at once or by an attempt that is unwrapped. -/
theorem reaches_transparent (clock : Clock) (maxSize ttl counting : Setting) (propagate : Bool)
    (body : List Step) (hsize : Knob.maxSize.Admits maxSize) (httl : Knob.ttl.Admits ttl)
    (hassign : ∀ a ∈ acts propagate ⟨clock, .empty maxSize ttl counting⟩ body, a.Admissible)
    (hput : ∀ a ∈ acts propagate ⟨clock, .empty maxSize ttl counting⟩ body, a.StoresOwn)
    (t : Session) (ht : Reaches ⟨clock, .empty maxSize ttl counting⟩ propagate body t) :
    (∀ e ∈ t.cache.entries, Route.compile e.key = .ok e.route) ∧
    (∀ key, ∃ found cache, t.cache.get t.clock.now key = .ok (found, cache) ∧
      ∀ r, found = some r → Route.compile key = .ok r) ∧
    ∀ source, (t.compile source).1
        = (Route.compile source).mapError (fun e => .pattern (.rejected e)) ∧
      (Route.attempt source).unwrap = Route.compile source := by
  have hstart : Stage.Transparent ⟨⟨clock, .empty maxSize ttl counting⟩, []⟩ := by
    refine ⟨⟨fun k => ?_, fun size hmem => absurd hmem List.not_mem_nil⟩,
      fun e he => absurd he List.not_mem_nil⟩
    cases k with
    | maxSize => exact hsize
    | ttl => exact httl
    | counting => trivial
  obtain ⟨saved, hready, hfaithful⟩ := ht.induct hstart fun a ha g hg =>
    hg.act (hassign a ha) (hput a ha)
  refine ⟨hfaithful, fun key => ?_, fun source => ?_⟩
  · obtain ⟨found, cache, hget⟩ := Cache.get_eq_ok hready.cache t.clock.now key
    refine ⟨found, cache, hget, ?_⟩
    rintro r rfl
    exact (Cache.get_eq_ok_iff.mp hget).route hfaithful
  · exact ⟨((compiling hready.cache source).faithful hfaithful).1, Route.unwrap_attempt source⟩

theorem reaches_transparent_shrunk :
    let s : Session := ⟨.startAt 0.0 1.0, .empty (.int 2) .null (.bool true)⟩
    let body : List Step :=
      [.use (.put "/a".toList (.source "/a".toList) .null), .use (.compile "/b".toList),
        .disabled true [.use (.assign .ttl (.int 1)), .use (.compile "b".toList)],
        .move (.advance (.int 2)), .use (.assign .maxSize (.int 1))]
    ((s.steps false body).2.2.compile "/a".toList).1
      = (Route.compile "/a".toList).mapError (fun e => .pattern (.rejected e)) :=
  ((reaches_transparent _ _ _ _ _ _ (by decide) (by decide) (by decide +kernel) (by decide +kernel)
    _ reaches_last).2.2 _).1

end Session

end Routing
