/-
  EXPIRY — no entry outlives its time, and a hit does not make it younger.

  1. **Dated** entries (`Dated`) say what the history says: they were created at the time of the
     latest store of their key, used last at the time of its latest use, and hit as often as the key
     has been since that store.  Every change keeps that, so it holds however far back the store is.
  2. **Fresh** entries (`Cache.Fresh`) are those that the time to live in force leaves alone: there
     is none, or the age is not above it.  Only the time of the store counts.
  3. **Answers** (`Session.Answers`): a key is answered from the cache exactly if it has a fresh
     entry.  If it has none, the lookup leaves it no entry at all, so compiling starts afresh and
     leaves an entry that is new.
-/
import Routing.Proofs.History

namespace Routing

/-! ## What the history says of an entry -/

namespace KeyUse

/-- Whether a use of a key is a store of this key. -/
def storesKey (key : Text) (u : KeyUse) : Bool := u.key = key && u.manner = .store

/-- Whether a use of a key is a hit of this key. -/
def hitsKey (key : Text) (u : KeyUse) : Bool := u.key = key && u.manner = .hit

end KeyUse

/-- An entry that says of its key what the history says. -/
structure Dated (h : List KeyUse) (e : Entry) : Prop where
  /-- It was created at the time of the latest store. -/
  created : (h.find? (·.storesKey e.key)).map KeyUse.time = some e.createdAt
  /-- It was used last at the time of the latest use. -/
  used : (h.find? (·.key = e.key)).map KeyUse.time = some e.lastUsed
  /-- It was used as often as the key has been hit since the latest store. -/
  uses : (h.takeWhile fun u : KeyUse => !u.storesKey e.key).countP (·.hitsKey e.key) = e.uses

namespace Dated

variable {h : List KeyUse} {e : Entry}

/-- Uses of other keys do not matter. -/
theorem other (he : Dated h e) {u : KeyUse} (hkey : e.key ≠ u.key) : Dated (u :: h) e := by
  have hne : decide (u.key = e.key) = false := decide_eq_false fun heq => hkey heq.symm
  have hstores : u.storesKey e.key = false := by rw [KeyUse.storesKey, hne, Bool.false_and]
  have hhits : u.hitsKey e.key = false := by rw [KeyUse.hitsKey, hne, Bool.false_and]
  constructor
  · rw [List.find?_cons, hstores]
    exact he.created
  · rw [List.find?_cons, hne]
    exact he.used
  · rw [List.takeWhile_cons, hstores]
    show List.countP _ (u :: h.takeWhile _) = _
    rw [List.countP_cons, hhits]
    exact he.uses

/-- A hit is one more use, at its time, and no store. -/
theorem touch (he : Dated h e) (now : Float) : Dated (⟨e.key, now, .hit⟩ :: h) (e.touch now) := by
  have hstores : (KeyUse.mk e.key now .hit).storesKey e.key = false := by
    simp [KeyUse.storesKey]
  have hhits : (KeyUse.mk e.key now .hit).hitsKey e.key = true := by simp [KeyUse.hitsKey]
  constructor
  · show (List.find? (·.storesKey e.key) _).map KeyUse.time = some e.createdAt
    rw [List.find?_cons, hstores]
    exact he.created
  · show (List.find? (·.key = e.key) _).map KeyUse.time = some now
    rw [List.find?_cons, decide_eq_true rfl]
    rfl
  · show (List.takeWhile (fun u : KeyUse => !u.storesKey e.key) _).countP (·.hitsKey e.key)
      = e.uses + 1
    rw [List.takeWhile_cons, hstores]
    show List.countP _ (_ :: h.takeWhile _) = _
    rw [List.countP_cons, hhits, he.uses]
    rfl

/-- A store begins anew. -/
theorem new (h : List KeyUse) (key : Text) (route : Route) (now : Float) (time : Setting) :
    Dated (⟨key, now, .store⟩ :: h) ⟨key, route, now, now, 0, time⟩ := by
  have hstores : (KeyUse.mk key now .store).storesKey key = true := by simp [KeyUse.storesKey]
  constructor
  · rw [List.find?_cons, hstores]
    rfl
  · rw [List.find?_cons, decide_eq_true rfl]
    rfl
  · rw [List.takeWhile_cons, hstores]
    rfl

/-- **Every change keeps entries dated.** -/
theorem change {old new : List Entry} {now : Float} {use : Option KeyUse}
    (hold : ∀ e ∈ old, Dated h e) (hchange : Change now old use new) :
    ∀ e ∈ new, Dated (use.toList ++ h) e := by
  intro e he
  cases hchange with
  | fewer hsub => exact hold e (hsub.subset he)
  | hit hsub hmem hkey =>
    rcases List.mem_append.mp he with he | he
    · exact (hold e (hsub.subset he)).other (hkey e he)
    · rw [List.mem_singleton.mp he]
      exact (hold _ hmem).touch now
  | store hsub hkey =>
    rcases List.mem_append.mp he with he | he
    · exact (hold e (hsub.subset he)).other (hkey e he)
    · rw [List.mem_singleton.mp he]
      exact .new h _ _ now _

end Dated

/-! ## Fresh entries -/

namespace Cache

variable {c c' : Cache} {now : Float} {key : Text}

/-- Whether the time to live **leaves an entry alone**: there is none, or it is a number and the age
    of the entry is not above it. -/
def Fresh (c : Cache) (now : Float) (e : Entry) : Prop :=
  c.ttl = .null ∨
    ∃ limit, c.ttl.number? = some limit ∧ ¬ limit.lt (.ofFloat (now - e.createdAt)) = true

theorem expired_eq_false_iff (e : Entry) : c.expired now e = .ok false ↔ c.Fresh now e := by
  unfold expired Fresh
  split
  · next hnull => exact ⟨fun _ => .inl hnull, fun _ => rfl⟩
  · next ttl hne =>
    cases hnumber : c.ttl.number? with
    | none =>
      constructor
      · intro h
        nomatch h
      · rintro (hnull | ⟨limit, hlimit, -⟩)
        · exact absurd hnull hne
        · nomatch hlimit
    | some limit =>
      constructor
      · intro h
        have hlt : limit.lt (.ofFloat (now - e.createdAt)) = false := Except.ok.inj h
        refine .inr ⟨limit, rfl, ?_⟩
        rw [hlt]
        exact Bool.false_ne_true
      · rintro (hnull | ⟨limit', hlimit, hlt⟩)
        · exact absurd hnull hne
        · rw [← Option.some.inj hlimit, Bool.not_eq_true] at hlt
          show Except.ok (limit.lt _) = _
          rw [hlt]

instance (c : Cache) (now : Float) (e : Entry) : Decidable (c.Fresh now e) :=
  match h : c.expired now e with
  | .ok false => isTrue ((expired_eq_false_iff e).mp h)
  | .ok true => isFalse fun hfresh => nomatch h.symm.trans ((expired_eq_false_iff e).mpr hfresh)
  | .error _ => isFalse fun hfresh => nomatch h.symm.trans ((expired_eq_false_iff e).mpr hfresh)

/-- **A lookup finds what a fresh entry of its key holds**, and nothing else. -/
theorem Lookup.eq_some_iff {found : Option Route} (hdistinct : c.Distinct)
    (h : c.Lookup now key found c') (r : Route) :
    found = some r ↔ ∃ e ∈ c.entries, e.key = key ∧ e.route = r ∧ c.Fresh now e := by
  cases h with
  | absent hfind =>
    refine ⟨fun h => (nomatch h), ?_⟩
    rintro ⟨e, he, rfl, -⟩
    rw [hdistinct.find?_eq he] at hfind
    nomatch hfind
  | expired hfind hold =>
    refine ⟨fun h => (nomatch h), ?_⟩
    rintro ⟨e, he, rfl, -, hfresh⟩
    rw [hdistinct.find?_eq he] at hfind
    rw [← Option.some.inj hfind, (expired_eq_false_iff e).mpr hfresh] at hold
    nomatch hold
  | hit hfind hnew =>
    rename_i e
    constructor
    · intro heq
      obtain ⟨hmem, hkey⟩ := find?_eq_some hfind
      exact ⟨e, hmem, hkey, Option.some.inj heq, (expired_eq_false_iff e).mp hnew⟩
    · rintro ⟨e', he', rfl, rfl, -⟩
      rw [hdistinct.find?_eq he'] at hfind
      rw [Option.some.inj hfind]

/-- Whether a key has a fresh entry. -/
def HasFresh (c : Cache) (now : Float) (key : Text) : Prop :=
  ∃ e ∈ c.entries, e.key = key ∧ c.Fresh now e

instance (c : Cache) (now : Float) (key : Text) : Decidable (c.HasFresh now key) :=
  inferInstanceAs (Decidable (∃ e ∈ c.entries, e.key = key ∧ c.Fresh now e))

theorem Lookup.eq_none {found : Option Route} (hdistinct : c.Distinct)
    (h : c.Lookup now key found c') (hold : ¬ c.HasFresh now key) : found = none := by
  cases found with
  | none => rfl
  | some r =>
    obtain ⟨e, he, hkey, -, hfresh⟩ := (h.eq_some_iff hdistinct r).mp rfl
    exact absurd ⟨e, he, hkey, hfresh⟩ hold

end Cache

/-! ## Answers -/

/-- How a session answers for a key, by the age of the key's entry. -/
structure Session.Answers (t : Session) (key : Text) : Prop where
  /-- A lookup is answered from the cache with what a fresh entry holds, and else not. -/
  get : ∀ r, (∃ cache, t.cache.get t.clock.now key = .ok (some r, cache)) ↔
    ∃ e ∈ t.cache.entries, e.key = key ∧ e.route = r ∧ t.cache.Fresh t.clock.now e
  /-- So is compiling: its lookup is all that it does. -/
  compile : ∀ r, (∃ cache, t.cache.get t.clock.now key = .ok (some r, cache) ∧
      t.compile key = (.ok r, { t with cache })) ↔
    ∃ e ∈ t.cache.entries, e.key = key ∧ e.route = r ∧ t.cache.Fresh t.clock.now e
  /-- Without a fresh entry, the lookup leaves the key no entry. -/
  removes : ¬ t.cache.HasFresh t.clock.now key →
    ∃ cache, t.cache.get t.clock.now key = .ok (none, cache) ∧ ¬ cache.contains key
  /-- Without one, a source that is refused has no entry afterwards. -/
  refuses : ¬ t.cache.HasFresh t.clock.now key → ∀ e, Route.compile key = .error e →
    ∃ t', t.compile key = (.error (.pattern (.rejected e)), t') ∧ ¬ t'.cache.contains key
  /-- Without one, a source is compiled between two readings of the stopwatch.  Above a capacity of
      zero it then has a new entry, and else none. -/
  compiles : ¬ t.cache.HasFresh t.clock.now key → ∀ r, Route.compile key = .ok r →
    ∃ t', t.compile key = (.ok r, t') ∧ t'.clock = t.clock.lap.2.lap.2 ∧
      ∀ m : Int, t.cache.maxSize = .int m →
        (0 < m → ∃ e ∈ t'.cache.entries, e.key = key ∧ e.route = r ∧
          e.createdAt = t.clock.now ∧ e.uses = 0) ∧
        (m ≤ 0 → ¬ t'.cache.contains key)

namespace Session

/-- What compiling answers without a fresh entry. -/
theorem Compiling.afresh {t t' : Session} {key : Text} {outcome : Except Failure Route}
    (hdistinct : t.cache.Distinct) (hold : ¬ t.cache.HasFresh t.clock.now key)
    (h : t.Compiling key outcome t') :
    (∀ e, Route.compile key = .error e →
      outcome = .error (.pattern (.rejected e)) ∧ ¬ t'.cache.contains key) ∧
    ∀ r, Route.compile key = .ok r →
      outcome = .ok r ∧ t'.clock = t.clock.lap.2.lap.2 ∧
        ∀ m : Int, t.cache.maxSize = .int m →
          (0 < m → ∃ e ∈ t'.cache.entries, e.key = key ∧ e.route = r ∧
            e.createdAt = t.clock.now ∧ e.uses = 0) ∧
          (m ≤ 0 → ¬ t'.cache.contains key) := by
  cases h with
  | hit hlookup => nomatch hlookup.eq_none hdistinct hold
  | rejected hlookup he =>
    constructor
    · intro e' he'
      have hsame : e' = _ := Except.error.inj (he'.symm.trans he)
      rw [hsame]
      refine ⟨rfl, Cache.not_contains_of_others (c := t.cache) ?_⟩
      rw [Cache.count_entries, hlookup.entries_eq]
    · intro r hr
      nomatch hr.symm.trans he
  | stored hlookup hr _ hstore =>
    rename_i cache stored r time _
    constructor
    · intro e he
      nomatch he.symm.trans hr
    · intro r' hr'
      have hsame : r' = r := Except.ok.inj (hr'.symm.trans hr)
      rw [hsame]
      refine ⟨rfl, rfl, ?_⟩
      intro m hsize
      have hsize' : cache.maxSize = .int m := (hlookup.setting .maxSize).trans hsize
      have hstores := Cache.stores_iff_of_ofInt hsize'
      rw [Cache.contains_iff, Cache.count_entries]
      constructor
      · intro hm
        exact ⟨_, hstore.mem (hstores.mpr hm), rfl, rfl, rfl, rfl⟩
      · intro hm
        have hoff : cache.stores = false := by
          rw [← Bool.not_eq_true, hstores]
          omega
        rw [hstore.eq_self hoff, ← Cache.contains_iff]
        exact Cache.not_contains_of_others hlookup.entries_eq

/-- **A key is answered from the cache exactly if it has a fresh entry**, if settings can be
    compared and keys are distinct. -/
theorem answers {t : Session} (hready : t.cache.Ready) (hdistinct : t.cache.Distinct)
    (key : Text) : t.Answers key := by
  obtain ⟨found, cache, hget⟩ := Cache.get_eq_ok hready t.clock.now key
  have hlookup := Cache.get_eq_ok_iff.mp hget
  have hafresh := fun hold => (compiling hready key).afresh hdistinct hold
  have hfound (r : Route) :
      (∃ cache, t.cache.get t.clock.now key = .ok (some r, cache)) ↔ found = some r := by
    rw [hget]
    constructor
    · rintro ⟨cache', heq⟩
      cases heq
      rfl
    · rintro rfl
      exact ⟨cache, rfl⟩
  constructor
  · intro r
    rw [hfound, hlookup.eq_some_iff hdistinct]
  · intro r
    rw [← hlookup.eq_some_iff hdistinct, ← hfound]
    constructor
    · rintro ⟨cache', hr, -⟩
      exact ⟨cache', hr⟩
    · rintro ⟨cache', hr⟩
      refine ⟨cache', hr, ?_⟩
      rw [Session.compile, hr]
  · intro hold
    have hnone := hlookup.eq_none hdistinct hold
    subst hnone
    exact ⟨cache, hget, Cache.not_contains_of_others hlookup.entries_eq⟩
  · intro hold e he
    obtain ⟨houtcome, hgone⟩ := (hafresh hold).1 e he
    exact ⟨_, Prod.ext houtcome rfl, hgone⟩
  · intro hold r hr
    obtain ⟨houtcome, hclock, hentry⟩ := (hafresh hold).2 r hr
    exact ⟨_, Prod.ext houtcome rfl, hclock, hentry⟩

/-- **No entry is served beyond its time, and a hit does not extend it.**  Take any run from a new
    cache on, in which the capacity is always a number and the time to live a number or none.  In
    every stage that is reached, entries are dated as the history says, and the answer for a key
    depends on whether it has an entry whose age, counted from its latest store, the time to live
    of this moment leaves alone. -/
theorem reachesStage_dated (clock : Clock) (maxSize ttl counting : Setting) (propagate : Bool)
    (body : List Step) (hsize : Knob.maxSize.Admits maxSize) (httl : Knob.ttl.Admits ttl)
    (hassign : ∀ a ∈ acts propagate ⟨clock, .empty maxSize ttl counting⟩ body, a.Admissible)
    (g : Stage) (h : List KeyUse)
    (hg : ReachesStage ⟨clock, .empty maxSize ttl counting⟩ propagate body g h) :
    (∀ e ∈ g.entries, Dated h e) ∧ ∀ key, g.session.Answers key := by
  have hstart := Stage.ready_start clock counting hsize httl
  obtain ⟨hready, hdated⟩ := hg.induct (P := fun g h => ∀ e ∈ g.entries, Dated h e) hstart hassign
    (fun e he => absurd he List.not_mem_nil)
    fun p _ hp past hpast => Dated.change hpast (Stage.change hp p.2)
  exact ⟨hdated, fun key => answers hready.cache hg.reaches.distinct key⟩

/-- A source is stored, and hit when half of its time is over; then the other half goes by. -/
def overdue : List Step :=
  [.use (.compile "/a".toList), .move (.advance (.int 5)), .use (.get "/a".toList),
    .move (.advance (.int 6))]

theorem reachesStage_dated_overdue :
    let s : Session := ⟨.startAt 100.0 1.0, .empty (.int 2) (.int 10) (.bool true)⟩
    let t := (s.steps false overdue).2.2
    t.cache.contains "/a".toList ∧
      (∀ e ∈ t.cache.entries, Dated (Stage.history ⟨s, []⟩ (s.acts false overdue)) e) ∧
      ∃ r t', t.compile "/a".toList = (.ok r, t') ∧
        ∃ e ∈ t'.cache.entries, e.key = "/a".toList ∧ e.createdAt = 111.0 ∧ e.uses = 0 := by
  intro s t
  obtain ⟨hdated, hanswers⟩ := reachesStage_dated _ _ _ _ _ _ (by decide) (by decide)
    (by decide +kernel) ⟨t, []⟩ _ (reachesStage_last s false overdue)
  have hold : ¬ t.cache.HasFresh t.clock.now "/a".toList := by decide +kernel
  have hr := @eq_ok_get _ _ (Route.compile "/a".toList) (by decide)
  obtain ⟨t', hcompile, -, hentry⟩ := (hanswers "/a".toList).compiles hold _ hr
  obtain ⟨e, he, hkey, -, hcreated, huses⟩ := (hentry 2 (by decide +kernel)).1 (by decide)
  have hnow : t.clock.now = 111.0 := by decide +kernel
  exact ⟨by decide +kernel, hdated, _, t', hcompile, e, he, hkey, hcreated.trans hnow, huses⟩

end Session

end Routing
