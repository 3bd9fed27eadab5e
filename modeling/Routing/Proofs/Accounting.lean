/-
  ACCOUNTING — no entry comes or goes without being counted.

  Statistics are numbers that operations add to in many places: a lookup that finds an entry too old
  adds to two of them, making room adds to one as often as it gives up an entry, and a source is
  counted as refused only after its lookup has been counted as a miss.  That they add up is stated
  against a count that is kept outside the cache.

  1. **A tally** has the events of a run that anybody can see: lookups, refused sources, stores of
     keys that had no entry, and entries that were invalidated.  `Session.tally` reads those of one
     operation off the session in which it begins and off its outcome.
  2. **Accounts** (`Cache.Accounts`) relate two caches and the tally of what happened between them:
     each event shows in the statistics or in the number of entries, and nothing else does.
     Accounts follow one another, and their tallies add up (`Accounts.trans`).
  3. **The crux** (`Session.Effect.accounts`): while counting is on and keys are distinct, every
     operation but a reset accounts for its tally.  So does every run, and a new cache begins with
     nothing.
-/
import Routing.Proofs.Recency

namespace Routing

/-! ## Tallies -/

/-- How often the events have happened that statistics account for. -/
structure Tally where
  /-- Lookups, with or without compiling. -/
  lookups : Nat := 0
  /-- Sources that were to be compiled and have been refused. -/
  refusals : Nat := 0
  /-- Stores of a key that had no entry. -/
  additions : Nat := 0
  /-- Entries that have been invalidated. -/
  removals : Nat := 0
  deriving DecidableEq

/-- Two tallies together. -/
instance : Add Tally where
  add t t' := ⟨t.lookups + t'.lookups, t.refusals + t'.refusals, t.additions + t'.additions,
    t.removals + t'.removals⟩

namespace Tally

variable (t t' : Tally)

theorem lookups_add : (t + t').lookups = t.lookups + t'.lookups := rfl

theorem refusals_add : (t + t').refusals = t.refusals + t'.refusals := rfl

theorem additions_add : (t + t').additions = t.additions + t'.additions := rfl

theorem removals_add : (t + t').removals = t.removals + t'.removals := rfl

end Tally

/-- Whether an outcome is the refusal of a source. -/
def refused {α : Type} : Except Failure α → Bool
  | .error (.pattern (.rejected _)) => true
  | _ => false

/-- The **tally of one operation** with its outcome. -/
def Session.tally (s : Session) (u : Use) (outcome : Except Failure Reply) : Tally :=
  match u with
  | .compile _ =>
    { lookups := 1, refusals := (refused outcome).toNat, additions := (s.storesNew u).toNat }
  | .get _ => { lookups := 1 }
  | .put .. => { additions := (s.storesNew u).toNat }
  | .remove key => { removals := (s.cache.contains key).toNat }
  | .clear => { removals := s.cache.entries.length }
  | .resetStats | .size | .contains _ | .assign .. => {}

namespace Stage

/-- The tally of an act. -/
def tally (g : Stage) : Act → Tally
  | .use u => g.session.tally u (g.session.use u).1
  | .move _ | .enter | .leave => {}

/-- The **tally of acts**, one after the other. -/
def total (g : Stage) : List Act → Tally
  | [] => {}
  | a :: rest => g.tally a + (g.act a).total rest

end Stage

/-! ## Accounts -/

namespace Cache

/-- What has happened between two caches **shows in their statistics and in their entries**. -/
structure Accounts (c c' : Cache) (t : Tally) : Prop where
  /-- Every lookup is counted, as a hit or as a miss. -/
  lookups : c'.stats.hits + c'.stats.misses = c.stats.hits + c.stats.misses + t.lookups
  /-- Every refused source is counted, and nothing else is counted as an error. -/
  refusals : c'.stats.errors = c.stats.errors + t.refusals
  /-- Before a source is refused, its lookup is counted as a miss. -/
  misses : c.stats.misses + t.refusals ≤ c'.stats.misses
  /-- An entry that has been added is there, or it was evicted, or invalidated. -/
  entries : c'.entries.length + c'.stats.evictions + t.removals
    = c.entries.length + c.stats.evictions + t.additions

variable {c c' c'' : Cache} {t t' : Tally}

/-- Without an event, caches may differ in what is not accounted for. -/
theorem Accounts.of_eq (hentries : c'.entries = c.entries) (hstats : c'.stats = c.stats) :
    c.Accounts c' {} := by
  refine ⟨congrArg (fun stats => stats.hits + stats.misses) hstats,
    congrArg Stats.errors hstats, Nat.le_of_eq (congrArg Stats.misses hstats).symm, ?_⟩
  show c'.entries.length + c'.stats.evictions = c.entries.length + c.stats.evictions
  rw [hentries, hstats]

/-- **Accounts that follow one another add up.** -/
theorem Accounts.trans (h : c.Accounts c' t) (h' : c'.Accounts c'' t') :
    c.Accounts c'' (t + t') := by
  obtain ⟨hlookups, hrefusals, hmisses, hentries⟩ := h
  obtain ⟨hlookups', hrefusals', hmisses', hentries'⟩ := h'
  constructor
  · rw [Tally.lookups_add]
    omega
  · rw [Tally.refusals_add]
    omega
  · rw [Tally.refusals_add]
    omega
  · rw [Tally.removals_add, Tally.additions_add]
    omega

theorem count_of_on (hon : c.counting.isOn = true) (f : Stats → Stats) :
    c.count f = { c with stats := f c.stats } :=
  if_pos hon

/-! ### Lookups and stores -/

variable {now : Float} {key : Text}

theorem Lookup.accounts {found : Option Route} (hon : c.counting.isOn = true)
    (hdistinct : c.Distinct) (h : c.Lookup now key found c') : c.Accounts c' { lookups := 1 } := by
  cases h with
  | absent =>
    rw [count_of_on hon]
    exact ⟨rfl, rfl, Nat.le_succ _, rfl⟩
  | expired hfind =>
    have hothers := hdistinct.length_others (contains_of_find? hfind)
    rw [count_of_on (c := { c with entries := c.others key }) hon]
    refine ⟨rfl, rfl, Nat.le_succ _, ?_⟩
    show (c.others key).length + (c.stats.evictions + 1) = c.entries.length + c.stats.evictions
    omega
  | @hit e hfind =>
    have hothers := hdistinct.length_others (contains_of_find? hfind)
    rw [count_of_on (c := { c with entries := c.others key ++ [e.touch now] }) hon]
    refine ⟨Nat.add_right_comm _ _ _, rfl, Nat.le_refl _, ?_⟩
    show (c.others key ++ [e.touch now]).length + c.stats.evictions
      = c.entries.length + c.stats.evictions
    rw [List.length_append, List.length_singleton, hothers]

theorem Lookup.on {found : Option Route} (hon : c.counting.isOn = true)
    (h : c.Lookup now key found c') : c'.counting.isOn = true := by
  have hsame : c'.counting = c.counting := h.setting .counting
  rw [hsame]
  exact hon

/-- A lookup that finds nothing is a miss. -/
theorem Lookup.misses_none (hon : c.counting.isOn = true) (h : c.Lookup now key none c') :
    c'.stats.misses = c.stats.misses + 1 := by
  cases h with
  | absent => rw [count_of_on hon]; rfl
  | expired => rw [count_of_on (c := { c with entries := c.others key }) hon]; rfl

/-- Making room **counts what it gives up**. -/
theorem makeRoom_accounts (hon : c.counting.isOn = true) (limit : Exact) :
    c.Accounts (c.makeRoom limit) {} := by
  have hle := (shrink_suffix limit c.entries).length_le
  rw [makeRoom, count_of_on (c := { c with entries := shrink limit c.entries }) hon]
  refine ⟨rfl, rfl, Nat.le_refl _, ?_⟩
  show (shrink limit c.entries).length
      + (c.stats.evictions + (c.entries.length - (shrink limit c.entries).length))
    = c.entries.length + c.stats.evictions
  omega

/-- An entry at the end, behind those of the other keys, is an addition if its key had none. -/
theorem accounts_concat (hdistinct : c.Distinct) (key : Text) (e : Entry) :
    c.Accounts { c with entries := c.others key ++ [e] }
      { additions := (!c.contains key).toNat } := by
  refine ⟨rfl, rfl, Nat.le_refl _, ?_⟩
  show (c.others key ++ [e]).length + c.stats.evictions
    = c.entries.length + c.stats.evictions + (!c.contains key).toNat
  rw [List.length_append, List.length_singleton]
  cases hkey : c.contains key with
  | true => rw [hdistinct.length_others hkey]; rfl
  | false =>
    have hno : key ∉ c.entries.map Entry.key := fun hmem => by
      rw [contains_iff.mpr hmem] at hkey
      nomatch hkey
    rw [others_of_not_mem hno]
    exact Nat.add_right_comm _ _ _

theorem Store.on {route : Route} {time : Setting} (hon : c.counting.isOn = true)
    (h : c.Store now key route time c') : c'.counting.isOn = true := by
  have hsame : c'.counting = c.counting := h.setting .counting
  rw [hsame]
  exact hon

/-- A store is an addition if it is kept and its key had no entry. -/
theorem Store.accounts {route : Route} {time : Setting} (hon : c.counting.isOn = true)
    (hdistinct : c.Distinct) (h : c.Store now key route time c') :
    c.Accounts c' { additions := (c.stores && !c.contains key).toNat } := by
  cases h with
  | off hlimit hoff =>
    rw [stores_of_off hlimit hoff]
    exact .of_eq rfl rfl
  | again hlimit hlimited =>
    rw [stores_of_on hlimit hlimited]
    exact accounts_concat hdistinct key _
  | new hlimit hlimited hkey =>
    rename_i limit
    have habsent : ¬ (c.makeRoom limit).contains key := fun hroom =>
      hkey (contains_iff.mpr (((c.makeRoom_sublist limit).map Entry.key).mem
        (contains_iff.mp hroom)))
    have hadded := accounts_concat (hdistinct.makeRoom limit) key ⟨key, route, now, now, 0, time⟩
    rw [Bool.not_eq_true] at hkey habsent
    rw [habsent] at hadded
    rw [stores_of_on hlimit hlimited, hkey]
    exact (makeRoom_accounts hon limit).trans hadded

end Cache

/-! ## Operations -/

namespace Session

variable {s s' : Session} {key : Text} {cache : Cache}

theorem storesNew_compile_hit {r : Route} (h : s.cache.Lookup s.clock.now key (some r) cache) :
    s.storesNew (.compile key) = false := by
  simp only [storesNew, keyUse?_compile_hit h]

theorem storesNew_compile_rejected {e : Rejection}
    (h : s.cache.Lookup s.clock.now key none cache) (he : Route.compile key = .error e) :
    s.storesNew (.compile key) = false := by
  simp only [storesNew, keyUse?_compile_rejected h he]

theorem storesNew_put_refused {pattern : Pattern} {f : PatternFault}
    (h : pattern.compile = .error f) (time : Setting) :
    s.storesNew (.put key pattern time) = false := by
  simp only [storesNew, keyUse?_refused h]

theorem Compiling.accounts {outcome : Except Failure Route} (hon : s.cache.counting.isOn = true)
    (hdistinct : s.cache.Distinct) (h : s.Compiling key outcome s') :
    s.cache.Accounts s'.cache (s.tally (.compile key) (outcome.map .ofRoute)) := by
  cases h with
  | hit hlookup =>
    rw [tally, storesNew_compile_hit hlookup]
    exact hlookup.accounts hon hdistinct
  | rejected hlookup he =>
    have hmisses := hlookup.misses_none hon
    obtain ⟨hlookups, hrefusals, -, hentries⟩ := hlookup.accounts hon hdistinct
    rw [tally, storesNew_compile_rejected hlookup he, Cache.count_of_on (hlookup.on hon)]
    refine ⟨hlookups, congrArg (· + 1) hrefusals, ?_, hentries⟩
    exact Nat.le_of_eq hmisses.symm
  | stored hlookup hr _ hstore =>
    rename_i cache stored r time _
    have hon' := hlookup.on hon
    have hon'' := hstore.on hon'
    have habsent := Cache.not_contains_of_others hlookup.entries_eq
    have hstored := hstore.accounts hon' (hlookup.distinct hdistinct)
    rw [Bool.not_eq_true] at habsent
    rw [habsent, hlookup.stores_eq, Bool.not_false, Bool.and_true] at hstored
    obtain ⟨hlookups, hrefusals, hmisses, hentries⟩ :=
      (hlookup.accounts hon hdistinct).trans hstored
    rw [tally, storesNew_compile hlookup hr, Cache.count_of_on hon'']
    rw [Tally.removals_add, Tally.additions_add] at hentries
    refine ⟨hlookups, hrefusals, hmisses, ?_⟩
    show stored.entries.length + stored.stats.evictions + 0
      = s.cache.entries.length + s.cache.stats.evictions + s.cache.stores.toNat
    simpa using hentries

/-- **Every operation but a reset accounts for its tally**, while counting is on. -/
theorem Effect.accounts {u : Use} {outcome : Except Failure Reply}
    (hon : s.cache.counting.isOn = true) (hdistinct : s.cache.Distinct) (hu : u ≠ .resetStats)
    (h : s.Effect u outcome s') : s.cache.Accounts s'.cache (s.tally u outcome) := by
  cases h with
  | compile h => exact h.accounts hon hdistinct
  | get hlookup => exact hlookup.accounts hon hdistinct
  | refused hpattern =>
    rw [tally, storesNew_put_refused hpattern]
    exact .of_eq rfl rfl
  | put hpattern hstore =>
    rw [tally, storesNew_put hpattern]
    exact hstore.accounts hon hdistinct
  | remove =>
    rename_i key
    refine ⟨rfl, rfl, Nat.le_refl _, ?_⟩
    show (s.cache.others key).length + s.cache.stats.evictions + (s.cache.contains key).toNat
      = s.cache.entries.length + s.cache.stats.evictions
    cases hkey : s.cache.contains key with
    | true =>
      rw [← hdistinct.length_others hkey]
      exact Nat.add_right_comm _ _ _
    | false =>
      have hno : key ∉ s.cache.entries.map Entry.key := fun hmem => by
        rw [Cache.contains_iff.mpr hmem] at hkey
        nomatch hkey
      rw [Cache.others_of_not_mem hno]
      rfl
  | clear =>
    refine ⟨rfl, rfl, Nat.le_refl _, ?_⟩
    show 0 + s.cache.stats.evictions + s.cache.entries.length
      = s.cache.entries.length + s.cache.stats.evictions
    omega
  | resetStats => exact absurd rfl hu
  | size | contains => exact .of_eq rfl rfl
  | assign =>
    rename_i knob v
    cases knob <;> exact .of_eq rfl rfl

end Session

/-! ## Runs -/

/-- An act that leaves counting on. -/
def Act.LeavesOn : Act → Prop
  | .use (.assign .counting v) => v.isOn = true
  | _ => True

instance (a : Act) : Decidable a.LeavesOn :=
  match a with
  | .use (.assign .counting v) => inferInstanceAs (Decidable (v.isOn = true))
  | .use (.assign .maxSize _) | .use (.assign .ttl _) | .use (.compile _) | .use (.get _)
  | .use (.put ..) | .use (.remove _) | .use .clear | .use .resetStats | .use .size
  | .use (.contains _) | .move _ | .enter | .leave => isTrue trivial

/-- An act that leaves counting on and what has been counted. -/
def Act.KeepsCount : Act → Prop
  | .use .resetStats => False
  | .use (.assign .counting v) => v.isOn = true
  | _ => True

instance (a : Act) : Decidable a.KeepsCount :=
  match a with
  | .use .resetStats => isFalse id
  | .use (.assign .counting v) => inferInstanceAs (Decidable (v.isOn = true))
  | .use (.assign .maxSize _) | .use (.assign .ttl _) | .use (.compile _) | .use (.get _)
  | .use (.put ..) | .use (.remove _) | .use .clear | .use .size | .use (.contains _) | .move _
  | .enter | .leave => isTrue trivial

theorem Act.KeepsCount.leavesOn {a : Act} (h : a.KeepsCount) : a.LeavesOn := by
  cases a with
  | use u =>
    cases u with
    | assign knob v =>
      cases knob with
      | counting => exact h
      | maxSize | ttl => trivial
    | _ => trivial
  | move | enter | leave => trivial

/-- **Counting stays on** unless it is assigned off. -/
theorem Stage.on_act {g : Stage} (h : g.Ready) {a : Act} (ha : a.LeavesOn)
    (hon : g.session.cache.counting.isOn = true) :
    (g.act a).session.cache.counting.isOn = true := by
  cases a with
  | move m =>
    rw [Stage.act, Session.cache_move]
    exact hon
  | use u =>
    have hsetting : (g.act (.use u)).session.cache.counting = _ :=
      (Session.effect h.cache u).setting .counting
    rw [hsetting]
    cases u with
    | assign knob v =>
      cases knob with
      | counting => exact ha
      | maxSize | ttl => exact hon
    | _ => exact hon
  | enter => exact hon
  | leave =>
    obtain ⟨session, saved⟩ := g
    cases saved <;> exact hon

/-- A stage in which every operation has a result and is counted. -/
structure Stage.Counting (g : Stage) : Prop where
  ready : g.Ready
  distinct : g.session.cache.Distinct
  on : g.session.cache.counting.isOn = true

namespace Stage.Counting

variable {g : Stage}

theorem act (h : g.Counting) {a : Act} (ha : a.Admissible) (hcount : a.KeepsCount) :
    (g.act a).Counting :=
  ⟨h.ready.act ha, distinct_act h.distinct a, on_act h.ready hcount.leavesOn h.on⟩

/-- **Every act accounts for its tally.** -/
theorem accounts (h : g.Counting) {a : Act} (hcount : a.KeepsCount) :
    g.session.cache.Accounts (g.act a).session.cache (g.tally a) := by
  cases a with
  | move m =>
    rw [Stage.act, Session.cache_move]
    exact .of_eq rfl rfl
  | use u =>
    refine (Session.effect h.ready.cache u).accounts h.on h.distinct ?_
    rintro rfl
    exact hcount
  | enter => exact .of_eq rfl rfl
  | leave =>
    obtain ⟨session, saved⟩ := g
    cases saved <;> exact .of_eq rfl rfl

/-- **Acts account for their tally**, one after the other. -/
theorem accounts_replay (h : g.Counting) (acts : List Act)
    (hadmissible : ∀ a ∈ acts, a.Admissible) (hcount : ∀ a ∈ acts, a.KeepsCount) :
    g.session.cache.Accounts (g.replay acts).session.cache (g.total acts) := by
  induction acts generalizing g with
  | nil => exact .of_eq rfl rfl
  | cons a rest ih =>
    rw [List.forall_mem_cons] at hadmissible hcount
    exact (h.accounts hcount.1).trans (ih (h.act hadmissible.1 hcount.1) hadmissible.2 hcount.2)

end Stage.Counting

namespace Session

/-- **The statistics balance.**  Take any run from a new cache on, in which the capacity is always a
    number and the time to live a number or none, counting stays on and is never reset.  After any
    number of acts, hits and misses are as many as the lookups; errors are as many as the refused
    sources, and no more than the misses; and the entries that are there, those that were evicted
    and those that were invalidated are as many as the stores of keys that had no entry. -/
theorem acts_balanced (clock : Clock) (maxSize ttl counting : Setting) (propagate : Bool)
    (body : List Step) (hsize : Knob.maxSize.Admits maxSize) (httl : Knob.ttl.Admits ttl)
    (hon : counting.isOn = true)
    (hassign : ∀ a ∈ acts propagate ⟨clock, .empty maxSize ttl counting⟩ body, a.Admissible)
    (hcount : ∀ a ∈ acts propagate ⟨clock, .empty maxSize ttl counting⟩ body, a.KeepsCount)
    (before : List Act)
    (hbefore : before <+: acts propagate ⟨clock, .empty maxSize ttl counting⟩ body) :
    let start : Stage := ⟨⟨clock, .empty maxSize ttl counting⟩, []⟩
    let stats := (start.replay before).session.cache.stats
    let events := start.total before
    stats.hits + stats.misses = events.lookups ∧
      stats.errors = events.refusals ∧ stats.errors ≤ stats.misses ∧
      (start.replay before).entries.length + stats.evictions + events.removals
        = events.additions := by
  intro start stats events
  have hstart : start.Counting :=
    ⟨Stage.ready_start clock counting hsize httl, List.nodup_nil, hon⟩
  obtain ⟨hlookups, hrefusals, hmisses, hentries⟩ := hstart.accounts_replay before
    (fun a ha => hassign a (hbefore.subset ha)) (fun a ha => hcount a (hbefore.subset ha))
  -- A new cache has no entries, and nothing has been counted.
  have hempty : start.session.cache.entries.length = 0 := rfl
  have hzero : start.session.cache.stats = .zero := rfl
  rw [hzero] at hlookups hrefusals hmisses hentries
  rw [hempty] at hentries
  simp only [Stats.zero, Nat.zero_add] at hlookups hrefusals hmisses hentries
  exact ⟨hlookups, hrefusals, hrefusals.trans_le hmisses, hentries⟩

/-- Two sources are compiled and one is refused; the first expires, and is compiled again.  A block
    asks for another source, the capacity is lowered, a third source takes the place of the others,
    and is invalidated. -/
def audited : List Step :=
  [.use (.compile "/a".toList), .move (.advance (.int 6)), .use (.compile "/b".toList),
    .use (.compile "/\x7b".toList), .move (.advance (.int 6)), .use (.compile "/a".toList),
    .use (.get "/b".toList), .disabled true [.use (.compile "/d".toList)],
    .use (.assign .maxSize (.int 1)), .use (.put "/c".toList (.source "/c".toList) .null),
    .use .clear]

theorem acts_balanced_audited :
    let start : Stage := ⟨⟨.startAt 0.0 1.0, .empty (.int 2) (.int 10) (.bool true)⟩, []⟩
    let run := start.session.acts false audited
    let stats := (start.replay run).session.cache.stats
    start.total run = ⟨6, 1, 4, 1⟩ ∧
      stats.hits + stats.misses = 6 ∧ stats.errors = 1 ∧ stats.evictions + 1 = 4 := by
  dsimp only
  obtain ⟨hlookups, hrefusals, -, hentries⟩ := acts_balanced (.startAt 0.0 1.0) (.int 2) (.int 10)
    (.bool true) false audited (by decide) (by decide) (by decide) (by decide +kernel)
    (by decide +kernel) _ (List.prefix_refl _)
  have htotal : Stage.total ⟨⟨.startAt 0.0 1.0, .empty (.int 2) (.int 10) (.bool true)⟩, []⟩
      (acts false ⟨.startAt 0.0 1.0, .empty (.int 2) (.int 10) (.bool true)⟩ audited)
      = ⟨6, 1, 4, 1⟩ := by decide +kernel
  have hnone : (Stage.replay ⟨⟨.startAt 0.0 1.0, .empty (.int 2) (.int 10) (.bool true)⟩, []⟩
      (acts false ⟨.startAt 0.0 1.0, .empty (.int 2) (.int 10) (.bool true)⟩
        audited)).entries.length = 0 := by decide +kernel
  rw [htotal] at hlookups hrefusals hentries
  rw [hnone, Nat.zero_add] at hentries
  exact ⟨htotal, hlookups, hrefusals, hentries⟩

end Session

end Routing
