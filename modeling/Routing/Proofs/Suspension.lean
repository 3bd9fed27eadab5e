/-
  SUSPENSION — a block that disables the cache stores nothing and undoes itself.

  Inside such a block the capacity is zero, and everything else goes on: lookups hit and move
  entries, entries grow too old and are removed, blocks are nested, failures end blocks early.

  1. **What a store has put into an entry** (`Entry.stored`) is all of it but the history of hits.
     While nothing is stored, every entry has what one of the entries before it had.
  2. **Entries are taken away** (`Stage.TakesAway`) if their key is invalidated, or if they are
     looked up and found too old.  An operation that stores nothing loses no others: it makes no
     room, since making room belongs to a store.
  3. **The crux** (`Stage.Suspended.act`): inside a block the capacity is zero and every block that
     is open in it gives back a zero, so no act but an assignment brings a store back.  That keeps
     what the entries hold, hence a faithful cache stays faithful whatever is put.
-/
import Routing.Proofs.Occupancy
import Routing.Proofs.Accounting
import Routing.Proofs.Transparency

namespace Routing

/-! ## Entries without their history -/

/-- What a store **has put into an entry**: its key, its route, when that was, and how long
    compiling took.  No hit changes it. -/
def Entry.stored (e : Entry) : Text × Route × Float × Setting :=
  (e.key, e.route, e.createdAt, e.compileTime)

theorem Entry.stored_touch (e : Entry) (now : Float) : (e.touch now).stored = e.stored := rfl

/-- Every entry of the first list has what an entry of the second one has. -/
def Retained (new old : List Entry) : Prop := ∀ e ∈ new, ∃ e' ∈ old, e.stored = e'.stored

namespace Retained

variable {a b c : List Entry}

theorem of_subset (h : a ⊆ b) : Retained a b := fun e he => ⟨e, h he, rfl⟩

theorem trans (h : Retained a b) (h' : Retained b c) : Retained a c := by
  intro e he
  obtain ⟨e', he', heq⟩ := h e he
  obtain ⟨e'', he'', heq'⟩ := h' e' he'
  exact ⟨e'', he'', heq.trans heq'⟩

end Retained

/-- A cache whose entries are retained from a faithful one is faithful. -/
theorem Cache.Faithful.of_retained {c c' : Cache} (h : c.Faithful)
    (hretained : Retained c'.entries c.entries) : c'.Faithful := by
  intro e he
  obtain ⟨e', he', heq⟩ := hretained e he
  have hkey : e.key = e'.key := congrArg Prod.fst heq
  have hroute : e.route = e'.route := congrArg (fun d => d.2.1) heq
  rw [hkey, hroute]
  exact h e' he'

theorem Cache.Lookup.retained {c c' : Cache} {now : Float} {key : Text} {found : Option Route}
    (h : c.Lookup now key found c') : Retained c'.entries c.entries := by
  intro e he
  obtain ⟨e', he', rfl | rfl⟩ := h.mem_entries e he
  · exact ⟨e, he', rfl⟩
  · exact ⟨e', he', e'.stored_touch now⟩

/-! ## Operations that store nothing -/

/-- An act **takes an entry away**: it invalidates its key, or looks it up and finds it too old. -/
inductive Stage.TakesAway (g : Stage) (e : Entry) : Act → Prop
  | removed : TakesAway g e (.use (.remove e.key))
  | cleared : TakesAway g e (.use .clear)
  | expired {u : Use} (hu : u = .get e.key ∨ u = .compile e.key)
    (hold : g.session.cache.expired g.now e = .ok true) : TakesAway g e (.use u)

namespace Session

variable {s s' : Session} {u : Use} {outcome : Except Failure Reply}

/-- Where the capacity is a number, compiling that misses a number changes nothing: it is the time
    to live that it misses, in its lookup. -/
theorem compile_eq_self {source : Text} (hsize : Knob.maxSize.Admits s.cache.maxSize)
    (hfail : (s.compile source).1 = .error .incomparable) : (s.compile source).2 = s := by
  unfold compile at hfail ⊢
  cases hget : s.cache.get s.clock.now source with
  | error f => rfl
  | ok result =>
    rw [hget] at hfail
    obtain ⟨_ | r, cache⟩ := result
    · cases hroute : Route.compile source with
      | error e =>
        rw [hroute] at hfail
        cases hfail
      | ok r =>
        -- The store finds the capacity that the lookup has left alone.
        have hsame : cache.maxSize = s.cache.maxSize :=
          (Cache.get_eq_ok_iff.mp hget).setting .maxSize
        obtain ⟨stored, hput⟩ := Cache.put_eq_ok_of_admits (hsame ▸ hsize)
          s.clock.lap.2.lap.2.now source r (.float (s.clock.lap.2.lap.1 - s.clock.lap.1))
        simp only [hroute, Clock.lap] at hfail hput
        rw [hput] at hfail
        cases hfail
    · cases hfail

/-- Where the capacity is a number, **a use that misses a number changes nothing**. -/
theorem effect_or_eq_self (hsize : Knob.maxSize.Admits s.cache.maxSize) (u : Use) :
    s.Effect u (s.use u).1 (s.use u).2 ∨ (s.use u).2 = s := by
  rcases s.effect_or_failing u with heffect | ⟨-, hfail, -⟩
  · exact .inl heffect
  · refine .inr ?_
    cases u with
    | compile source =>
      refine compile_eq_self hsize ?_
      have hmap : (s.compile source).1.map Reply.ofRoute = .error .incomparable := hfail
      cases houtcome : (s.compile source).1 with
      | error f =>
        rw [houtcome] at hmap
        exact congrArg _ (Except.error.inj hmap)
      | ok r =>
        rw [houtcome] at hmap
        cases hmap
    | get key =>
      rw [use] at hfail ⊢
      cases hget : s.cache.get s.clock.now key with
      | error f => rfl
      | ok result =>
        rw [hget] at hfail
        cases hfail
    | put key pattern time =>
      rw [use] at hfail ⊢
      cases hpattern : pattern.compile with
      | error f => rfl
      | ok r =>
        dsimp only
        cases hput : s.cache.put s.clock.now key r time with
        | error f => rfl
        | ok cache =>
          rw [hpattern] at hfail
          dsimp only at hfail
          rw [hput] at hfail
          cases hfail
    | remove | clear | resetStats | size | contains | assign => cases hfail

/-- An operation that stores nothing retains what it leaves. -/
theorem Effect.retained (hoff : s.cache.stores = false) (h : s.Effect u outcome s') :
    Retained s'.cache.entries s.cache.entries := by
  cases h with
  | compile h =>
    cases h with
    | hit hlookup => exact hlookup.retained
    | rejected hlookup =>
      rw [Cache.count_entries]
      exact hlookup.retained
    | stored hlookup _ _ hstore =>
      rw [Cache.count_entries, hstore.eq_self (hlookup.stores_eq.trans hoff)]
      exact hlookup.retained
  | get hlookup => exact hlookup.retained
  | put _ hstore =>
    rw [hstore.eq_self hoff]
    exact .of_subset (List.Subset.refl _)
  | remove => exact .of_subset (s.cache.others_sublist _).subset
  | clear => exact .of_subset (List.nil_subset _)
  | resetStats | refused | size | contains => exact .of_subset (List.Subset.refl _)
  | assign =>
    rename_i knob v
    cases knob <;> exact .of_subset (List.Subset.refl _)

/-- An operation that stores nothing stores no new key. -/
theorem Effect.storesNew_eq (hoff : s.cache.stores = false) (h : s.Effect u outcome s') :
    s.storesNew u = false := by
  cases h with
  | compile h =>
    cases h with
    | hit hlookup => exact storesNew_compile_hit hlookup
    | rejected hlookup he => exact storesNew_compile_rejected hlookup he
    | stored hlookup hr => rw [storesNew_compile hlookup hr, hoff]
  | refused hpattern => exact storesNew_put_refused hpattern _
  | put hpattern => rw [storesNew_put hpattern, hoff, Bool.false_and]
  | get | remove | clear | resetStats | size | contains | assign => rfl

/-- **An operation that stores nothing** retains an entry or takes it away as an act may. -/
theorem Effect.stored_or_takesAway (hoff : s.cache.stores = false) (hdistinct : s.cache.Distinct)
    (saved : List Setting) {e : Entry} (he : e ∈ s.cache.entries) (h : s.Effect u outcome s') :
    (∃ e' ∈ s'.cache.entries, e'.stored = e.stored) ∨
      Stage.TakesAway ⟨s, saved⟩ e (.use u) := by
  cases haddressed : (Act.use u).addresses e.key with
  | false =>
    -- An operation that is not about the entry leaves it where it is.
    have hapart : e ∈ (Act.use u).apart s.cache.entries :=
      List.mem_filter.mpr ⟨he, by rw [haddressed]; rfl⟩
    rw [← h.apart_eq (h.storesNew_eq hoff)] at hapart
    exact .inl ⟨e, (List.mem_filter.mp hapart).1, rfl⟩
  | true =>
    have hlooked (hu : u = .get e.key ∨ u = .compile e.key) :
        (∃ e' ∈ s'.cache.entries, e'.stored = e.stored) ∨
          Stage.TakesAway ⟨s, saved⟩ e (.use u) := by
      rcases h.touches hdistinct he hu with hold | htouched
      · exact .inr (.expired hu hold)
      · exact .inl ⟨_, htouched, e.stored_touch _⟩
    cases u with
    | compile source =>
      have hkey : source = e.key := of_decide_eq_true haddressed
      exact hlooked (.inr (congrArg _ hkey))
    | get key =>
      have hkey : key = e.key := of_decide_eq_true haddressed
      exact hlooked (.inl (congrArg _ hkey))
    | put key pattern time =>
      cases h with
      | refused => exact .inl ⟨e, he, rfl⟩
      | put _ hstore =>
        rw [hstore.eq_self hoff]
        exact .inl ⟨e, he, rfl⟩
    | remove key =>
      have hkey : key = e.key := of_decide_eq_true haddressed
      rw [hkey]
      exact .inr .removed
    | clear => exact .inr .cleared
    | resetStats | size | contains | assign => nomatch haddressed

end Session

/-! ## Inside a block -/

/-- A stage **inside a block that disables the cache**, which held the entries `old` when the block
    was entered. -/
structure Stage.Suspended (old : List Entry) (g : Stage) : Prop where
  off : g.session.cache.maxSize = .int 0
  /-- Blocks that are open inside give back a zero. -/
  saved : ∀ size ∈ g.saved, size = .int 0
  retained : Retained g.entries old

namespace Stage.Suspended

variable {old : List Entry} {g : Stage}

theorem stores_eq (h : g.Suspended old) : g.session.cache.stores = false := by
  rw [Cache.stores, h.off]
  rfl

theorem admits (h : g.Suspended old) : Knob.maxSize.Admits g.session.cache.maxSize := by
  rw [h.off]
  rfl

theorem use (h : g.Suspended old) {u : Use} (hu : (Act.use u).LeavesCapacity) :
    (g.act (.use u)).Suspended old := by
  rcases Session.effect_or_eq_self h.admits u with heffect | hsame
  · refine ⟨?_, h.saved, (heffect.retained h.stores_eq).trans h.retained⟩
    have hsetting := heffect.setting .maxSize
    cases u with
    | assign knob v =>
      cases knob with
      | maxSize => exact hu.elim
      | ttl | counting => exact hsetting.trans h.off
    | _ => exact hsetting.trans h.off
  · have hact : g.act (.use u) = g := by
      rw [act, hsame]
    rw [hact]
    exact h

/-- **No act but an assignment brings a store back.** -/
theorem act (h : g.Suspended old) {a : Act} (ha : a.LeavesCapacity) : (g.act a).Suspended old := by
  cases a with
  | move m =>
    have hcache : (g.act (.move m)).session.cache = g.session.cache := Session.cache_move m
    refine ⟨?_, h.saved, ?_⟩
    · rw [hcache]
      exact h.off
    · rw [entries_move]
      exact h.retained
  | use u => exact h.use ha
  | enter => exact ⟨rfl, List.forall_mem_cons.mpr ⟨h.off, h.saved⟩, h.retained⟩
  | leave =>
    obtain ⟨session, saved⟩ := g
    cases saved with
    | nil => exact h
    | cons size saved =>
      obtain ⟨hsize, hsaved⟩ := List.forall_mem_cons.mp h.saved
      exact ⟨hsize, hsaved, h.retained⟩

/-- Every act retains an entry, or takes it away. -/
theorem stored_or_takesAway (h : g.Suspended old) (hdistinct : g.session.cache.Distinct) (a : Act)
    {e : Entry} (he : e ∈ g.entries) :
    (∃ e' ∈ (g.act a).entries, e'.stored = e.stored) ∨ g.TakesAway e a := by
  cases a with
  | move m =>
    rw [entries_move]
    exact .inl ⟨e, he, rfl⟩
  | use u =>
    rcases Session.effect_or_eq_self h.admits u with heffect | hsame
    · exact heffect.stored_or_takesAway h.stores_eq hdistinct g.saved he
    · refine .inl ⟨e, ?_, rfl⟩
      show e ∈ (g.session.use u).2.cache.entries
      rw [hsame]
      exact he
  | enter => exact .inl ⟨e, he, rfl⟩
  | leave =>
    rw [entries_leave]
    exact .inl ⟨e, he, rfl⟩

end Stage.Suspended

/-! ## Blocks -/

namespace Session

variable {s : Session} {propagate : Bool} {body : List Step}

theorem suspended_start (s : Session) :
    Stage.Suspended s.cache.entries ⟨s.withMaxSize (.int 0), []⟩ :=
  ⟨rfl, fun _ hsize => absurd hsize List.not_mem_nil, .of_subset (List.Subset.refl _)⟩

/-- **A disabled block stores nothing and undoes itself.**  Take any block that is entered in a
    session that a run from a new cache reaches, and let it end as it may.

    Then the capacity is what it was, whatever was assigned in the block.  If no capacity is
    assigned there, every entry that is left has what a store had put into an entry before the
    block; every act of the block leaves such an entry where it finds one, unless it invalidates the
    key or looks it up and finds the entry too old; and if entries held the routes of their keys,
    and times to live are numbers or none, compiling in the block answers, or refuses, as compiling
    without a cache does. -/
theorem disabled_suspends (clock : Clock) (maxSize ttl counting : Setting) (outer : Bool)
    (before : List Step) (s : Session)
    (hs : Reaches ⟨clock, .empty maxSize ttl counting⟩ outer before s) (propagate : Bool)
    (body : List Step) :
    let inside := s.withMaxSize (.int 0)
    let trail := Stage.trail ⟨inside, []⟩ (inside.acts propagate body)
    let after := (s.step (.disabled propagate body)).2
    after.cache.maxSize = s.cache.maxSize ∧
    ((∀ a ∈ inside.acts propagate body, a.LeavesCapacity) →
      (∀ e ∈ after.cache.entries, ∃ e' ∈ s.cache.entries, e.stored = e'.stored) ∧
      (∀ p ∈ trail, ∀ e ∈ p.1.entries,
        (∃ e' ∈ (p.1.act p.2).entries, e'.stored = e.stored) ∨ p.1.TakesAway e p.2) ∧
      (s.cache.Faithful → Knob.ttl.Admits s.cache.ttl →
        (∀ a ∈ inside.acts propagate body, a.Admissible) →
        ∀ p ∈ trail, ∀ source, p.2 = .use (.compile source) →
          (p.1.session.compile source).1
            = (Route.compile source).mapError (fun e => .pattern (.rejected e)))) := by
  intro inside trail after
  refine ⟨rfl, fun hbody => ?_⟩
  have hstart := suspended_start s
  have hsuspended := Stage.forall_mem_trail hstart fun a ha g hg => hg.act (hbody a ha)
  have hdistinct : ∀ p ∈ trail, p.1.session.cache.Distinct :=
    Stage.forall_mem_trail (P := fun g => g.session.cache.Distinct) hs.distinct
      fun a _ g hg => Stage.distinct_act hg a
  refine ⟨?_, ?_, ?_⟩
  · have hlast := Stage.replay_induct hstart fun a ha g hg => hg.act (hbody a ha)
    rw [replay_acts] at hlast
    exact hlast.retained
  · intro p hp e he
    exact (hsuspended p hp).stored_or_takesAway (hdistinct p hp) p.2 he
  · rintro hfaithful httl hassign p hp source -
    have hready := Stage.forall_mem_trail (P := Stage.Ready) (g := ⟨inside, []⟩)
      ⟨fun k => ?_, fun _ hsize => absurd hsize List.not_mem_nil⟩
      (fun a ha g hg => hg.act (hassign a ha)) p hp
    · exact ((compiling hready.cache source).faithful
        (hfaithful.of_retained (hsuspended p hp).retained)).1
    · cases k with
      | maxSize => rfl
      | ttl => exact httl
      | counting => trivial

/-- Two sources are stored, the second one later. -/
def prepared : List Step :=
  [.use (.compile "/a".toList), .move (.advance (.int 5)), .use (.compile "/b".toList)]

/-- A source is stored in vain, alone and in a block of its own; one entry grows too old and is
    removed, the other is hit and stored again in vain; then a refused source ends the block. -/
def suspended : List Step :=
  [.use (.compile "/c".toList), .use (.assign .ttl (.int 10)), .move (.advance (.int 6)),
    .disabled false [.use (.compile "/d".toList), .use (.get "/a".toList)],
    .use (.put "/b".toList (.source "/b".toList) .null), .use (.get "/b".toList),
    .use (.compile "/\x7b".toList), .use .clear]

theorem disabled_suspends_nested :
    let start : Session := ⟨.startAt 0.0 1.0, .empty (.int 2) .null (.bool true)⟩
    let s := (start.steps false prepared).2.2
    let inside := s.withMaxSize (.int 0)
    let after := (s.step (.disabled true suspended)).2
    after.cache.entries.map Entry.key = ["/b".toList] ∧ after.cache.maxSize = .int 2 ∧
      (∀ e ∈ after.cache.entries, ∃ e' ∈ s.cache.entries, e.stored = e'.stored) ∧
      ∀ p ∈ Stage.trail ⟨inside, []⟩ (inside.acts true suspended), ∀ source,
        p.2 = .use (.compile source) → (p.1.session.compile source).1
          = (Route.compile source).mapError (fun e => .pattern (.rejected e)) := by
  intro start s inside after
  have hkeys : after.cache.entries.map Entry.key = ["/b".toList] := by decide +kernel
  have hcapacity : s.cache.maxSize = .int 2 := by decide +kernel
  have hleaves : ∀ a ∈ inside.acts true suspended, a.LeavesCapacity := by decide +kernel
  have hadmissible : ∀ a ∈ inside.acts true suspended, a.Admissible := by decide +kernel
  have httl : Knob.ttl.Admits s.cache.ttl := by decide +kernel
  have hfaithful : s.cache.Faithful := by
    have hboth : ∀ a ∈ start.acts false prepared, a.Admissible ∧ a.StoresOwn := by
      decide +kernel
    have hbegin : Stage.Transparent ⟨start, []⟩ :=
      ⟨Stage.ready_start _ _ rfl (.inl rfl), fun _ he => absurd he List.not_mem_nil⟩
    have h := Stage.replay_induct hbegin fun a ha g hg => hg.act (hboth a ha).1 (hboth a ha).2
    rw [replay_acts] at h
    exact h.faithful
  have hs : start.Reaches false prepared s := reaches_last
  obtain ⟨hsize, hblock⟩ := disabled_suspends _ _ _ _ _ _ s hs true suspended
  obtain ⟨hretained, -, hcompile⟩ := hblock hleaves
  clear_value s
  exact ⟨hkeys, hsize.trans hcapacity, hretained, hcompile hfaithful httl hadmissible⟩

end Session

end Routing
