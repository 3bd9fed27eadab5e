/-
  RECENCY — the order of entries is the order of use, and eviction follows it.

  1. **In order** (`InOrder`): every entry's key has been used, and each key was used later than the
     keys before it.  The number of the latest use (`latestUse`) is a matter of the history alone.
  2. **Apart** from the keys that an act addresses, entries are kept as they are and where they are.
     There is one exception, an act that stores a key which has no entry (`Stage.storesNew`): it
     gives up entries from the front, as many as are too many for the capacity.
  3. **Addressed** keys lose their entry if it is invalidated, or looked up and found too old.
  4. **Times** follow the order of use too, as long as the clock never goes back (`Timed`).

  The first and the last are kept along histories, and need no more of an act than its change; the
  other two are about one act, and split its effect once.
-/
import Routing.Proofs.History
import Routing.Proofs.TimeOrder

namespace Routing

/-! ## The order of use -/

/-- The **number of the latest use** of a key; zero if there is none. -/
def latestUse (key : Text) : List KeyUse → Nat
  | [] => 0
  | u :: past => if u.key = key then past.length + 1 else latestUse key past

theorem latestUse_le (key : Text) (h : List KeyUse) : latestUse key h ≤ h.length := by
  induction h with
  | nil => exact Nat.le_refl 0
  | cons u past ih =>
    rw [latestUse, List.length_cons]
    split
    · exact Nat.le_refl _
    · omega

theorem latestUse_same {u : KeyUse} {key : Text} (hkey : u.key = key) (past : List KeyUse) :
    latestUse key (u :: past) = past.length + 1 :=
  if_pos hkey

theorem latestUse_other {u : KeyUse} {key : Text} (hkey : key ≠ u.key) (past : List KeyUse) :
    latestUse key (u :: past) = latestUse key past :=
  if_neg fun h => hkey h.symm

/-- Entries whose keys have been used, each one later than those before it. -/
structure InOrder (h : List KeyUse) (entries : List Entry) : Prop where
  used : ∀ e ∈ entries, 0 < latestUse e.key h
  ascending : entries.Pairwise fun e e' => latestUse e.key h < latestUse e'.key h

namespace InOrder

variable {h : List KeyUse} {old new : List Entry}

theorem sublist (hold : InOrder h old) (hsub : new.Sublist old) : InOrder h new :=
  ⟨fun e he => hold.used e (hsub.subset he), hold.ascending.sublist hsub⟩

theorem distinct (hold : InOrder h old) : (old.map Entry.key).Nodup := by
  rw [List.Nodup, List.pairwise_map]
  refine hold.ascending.imp ?_
  intro e e' hlt heq
  rw [heq] at hlt
  exact Nat.lt_irrefl _ hlt

/-- The entry of the key that is used can follow those of other keys. -/
theorem concat (hold : InOrder h old) {u : KeyUse} {last : Entry} (hlast : u.key = last.key)
    (hkey : ∀ e ∈ old, e.key ≠ u.key) : InOrder (u :: h) (old ++ [last]) := by
  have hlatest : latestUse last.key (u :: h) = h.length + 1 := latestUse_same hlast h
  constructor
  · intro e he
    rcases List.mem_append.mp he with he | he
    · rw [latestUse_other (hkey e he)]
      exact hold.used e he
    · rw [List.mem_singleton.mp he, hlatest]
      omega
  · rw [List.pairwise_append]
    refine ⟨?_, List.pairwise_singleton _ _, ?_⟩
    · refine hold.ascending.imp_of_mem ?_
      intro e e' he he' hlt
      rwa [latestUse_other (hkey e he), latestUse_other (hkey e' he')]
    · intro e he e' he'
      have hle := latestUse_le e.key h
      rw [List.mem_singleton.mp he', hlatest, latestUse_other (hkey e he)]
      omega

/-- **A use of a key keeps the order of use.** -/
theorem change {now : Float} {use : Option KeyUse} (hold : InOrder h old)
    (hchange : Change now old use new) : InOrder (use.toList ++ h) new := by
  cases hchange with
  | fewer hsub => exact hold.sublist hsub
  | hit hsub _ hkey => exact (hold.sublist hsub).concat rfl hkey
  | store hsub hkey => exact (hold.sublist hsub).concat rfl hkey

end InOrder

/-! ## What an act is about -/

namespace Act

/-- Whether an act is about a key: it looks the key up, stores it or invalidates it. -/
def addresses (key : Text) : Act → Bool
  | .use (.compile k) | .use (.get k) | .use (.put k ..) | .use (.remove k) => k = key
  | .use .clear => true
  | _ => false

/-- The entries of the keys that an act is not about. -/
def apart (a : Act) (entries : List Entry) : List Entry :=
  entries.filter fun e => !a.addresses e.key

theorem apart_of_key {a : Act} {key : Text} (h : ∀ k, a.addresses k = decide (key = k))
    (entries : List Entry) : a.apart entries = entries.filter (·.key ≠ key) := by
  refine List.filter_congr ?_
  intro e _
  rw [h e.key, ← decide_not]
  simp only [ne_comm]

theorem apart_compile (source : Text) (entries : List Entry) :
    (Act.use (.compile source)).apart entries = entries.filter (·.key ≠ source) :=
  apart_of_key (fun _ => rfl) entries

theorem apart_get (key : Text) (entries : List Entry) :
    (Act.use (.get key)).apart entries = entries.filter (·.key ≠ key) :=
  apart_of_key (fun _ => rfl) entries

theorem apart_put (key : Text) (pattern : Pattern) (time : Setting) (entries : List Entry) :
    (Act.use (.put key pattern time)).apart entries = entries.filter (·.key ≠ key) :=
  apart_of_key (fun _ => rfl) entries

theorem apart_remove (key : Text) (entries : List Entry) :
    (Act.use (.remove key)).apart entries = entries.filter (·.key ≠ key) :=
  apart_of_key (fun _ => rfl) entries

theorem apart_clear (entries : List Entry) : (Act.use .clear).apart entries = [] := by
  refine List.filter_eq_nil_iff.mpr ?_
  intro e _
  exact Bool.false_ne_true

end Act

/-- Whether an operation **stores a key that has no entry** at the time of the store.  Compiling
    stores only after a lookup in vain, which leaves the key without one. -/
def Session.storesNew (s : Session) (u : Use) : Bool :=
  match u, s.keyUse? u with
  | .put key .., some ⟨_, _, .store⟩ => !s.cache.contains key
  | .compile _, some ⟨_, _, .store⟩ => true
  | _, _ => false

/-- Whether an act stores a key that has no entry at the time of the store. -/
def Stage.storesNew (g : Stage) : Act → Bool
  | .use u => g.session.storesNew u
  | .move _ | .enter | .leave => false

namespace Session

variable {s : Session} {key : Text} {cache : Cache} {r : Route}

theorem storesNew_put {pattern : Pattern} (h : pattern.compile = .ok r) (time : Setting) :
    s.storesNew (.put key pattern time) = (s.cache.stores && !s.cache.contains key) := by
  unfold storesNew
  rw [keyUse?_put h]
  cases s.cache.stores <;> rfl

theorem storesNew_compile (h : s.cache.Lookup s.clock.now key none cache)
    (hr : Route.compile key = .ok r) : s.storesNew (.compile key) = s.cache.stores := by
  unfold storesNew
  rw [keyUse?_compile_stored h hr]
  cases s.cache.stores <;> rfl

end Session

/-! ## Lookups and stores, seen from the other keys -/

namespace Cache

variable {c c' : Cache} {now : Float} {key : Text} {route : Route} {time : Setting}

theorem others_others (c : Cache) (key : Text) :
    (c.others key).filter (·.key ≠ key) = c.others key := by
  rw [others, List.filter_filter]
  simp only [Bool.and_self]

theorem others_concat (c : Cache) {e : Entry} (hkey : e.key = key) :
    (c.others key ++ [e]).filter (·.key ≠ key) = c.others key := by
  rw [List.filter_append, others_others]
  simp [hkey]

theorem Lookup.others_eq {found : Option Route} (h : c.Lookup now key found c') :
    c'.others key = c.others key := by
  cases h with
  | absent => rw [others, count_entries, ← others]
  | expired => rw [others, count_entries, others_others]
  | hit hfind =>
    rw [others, count_entries]
    exact c.others_concat (find?_eq_some hfind).2

/-- A lookup finds an entry too old, or touches it. -/
theorem Lookup.old_or_touched {found : Option Route} (hdistinct : c.Distinct) {e : Entry}
    (he : e ∈ c.entries) (h : c.Lookup now e.key found c') :
    c.expired now e = .ok true ∨ found.isSome ∧ e.touch now ∈ c'.entries := by
  have hfind := hdistinct.find?_eq he
  cases h with
  | absent hnone =>
    rw [hfind] at hnone
    nomatch hnone
  | expired hsome hold =>
    have hsame := Option.some.inj (hfind.symm.trans hsome)
    rw [hsame]
    exact .inl hold
  | hit hsome =>
    have hsame := Option.some.inj (hfind.symm.trans hsome)
    rw [count_entries, hsame]
    exact .inr ⟨rfl, List.mem_concat_self⟩

/-- A store that is not of a new key leaves the entries of the other keys. -/
theorem Store.others_eq (hold : c.stores = true → c.contains key)
    (h : c.Store now key route time c') : c'.others key = c.others key := by
  cases h with
  | off => rfl
  | again => exact c.others_concat rfl
  | new hlimit hon hkey => exact absurd (hold (stores_of_on hlimit hon)) hkey

/-- A store leaves its key an entry, if it had one. -/
theorem Store.contains (hkey : c.contains key) (h : c.Store now key route time c') :
    ∃ e ∈ c'.entries, e.key = key := by
  cases h with
  | off =>
    obtain ⟨e, he, hek⟩ := List.mem_map.mp (contains_iff.mp hkey)
    exact ⟨e, he, hek⟩
  | again | new => exact ⟨_, List.mem_concat_self, rfl⟩

end Cache

/-! ## One act -/

namespace Session

variable {s s' : Session} {u : Use} {outcome : Except Failure Reply}

/-- An operation that stores no new key leaves the entries of the keys that it is not about. -/
theorem Effect.apart_eq (h : s.Effect u outcome s') (hold : s.storesNew u = false) :
    (Act.use u).apart s'.cache.entries = (Act.use u).apart s.cache.entries := by
  cases h with
  | compile h =>
    rename_i source _
    rw [Act.apart_compile, Act.apart_compile]
    cases h with
    | hit hlookup => exact hlookup.others_eq
    | rejected hlookup =>
      rw [Cache.count_entries]
      exact hlookup.others_eq
    | stored hlookup hr _ hstore =>
      rw [storesNew_compile hlookup hr, ← hlookup.stores_eq] at hold
      rw [Cache.count_entries]
      refine Eq.trans (hstore.others_eq ?_) hlookup.others_eq
      intro hstores
      rw [hold] at hstores
      nomatch hstores
  | get hlookup =>
    rename_i key _ _
    rw [Act.apart_get, Act.apart_get]
    exact hlookup.others_eq
  | refused => rfl
  | put hpattern hstore =>
    rename_i key pattern time r cache
    rw [storesNew_put hpattern] at hold
    rw [Act.apart_put, Act.apart_put]
    refine hstore.others_eq ?_
    intro hstores
    simpa [hstores] using hold
  | remove =>
    rename_i key
    rw [Act.apart_remove, Act.apart_remove]
    exact s.cache.others_others key
  | clear => rw [Act.apart_clear, Act.apart_clear]
  | resetStats | size | contains => rfl
  | assign =>
    rename_i knob v
    cases knob <;> rfl

/-- An operation that stores a new key gives up what is too many at the front. -/
theorem Effect.entries_new {m : Int} (h : s.Effect u outcome s') (hnew : s.storesNew u = true)
    (hsize : s.cache.maxSize = .int m) :
    ∃ key route time, (Act.use u).addresses key ∧
      s'.cache.entries = ((Act.use u).apart s.cache.entries).drop
          (((Act.use u).apart s.cache.entries).length - m + 1 : Int).toNat ++
        [⟨key, route, s.clock.now, s.clock.now, 0, time⟩] := by
  cases h with
  | compile h =>
    rename_i source _
    cases h with
    | hit hlookup =>
      simp only [storesNew, keyUse?_compile_hit hlookup] at hnew
      nomatch hnew
    | rejected hlookup he =>
      simp only [storesNew, keyUse?_compile_rejected hlookup he] at hnew
      nomatch hnew
    | stored hlookup hr _ hstore =>
      rename_i cache stored r time _
      rw [storesNew_compile hlookup hr, ← hlookup.stores_eq] at hnew
      have hsize' : cache.maxSize = .int m := (hlookup.setting .maxSize).trans hsize
      have habsent := Cache.not_contains_of_others hlookup.entries_eq
      have hentries := hstore.entries_new hsize' hnew habsent
      rw [hlookup.entries_eq] at hentries
      refine ⟨source, r, .float time, decide_eq_true rfl, ?_⟩
      rw [Cache.count_entries, hentries, Act.apart_compile]
      rfl
  | refused hpattern =>
    simp only [storesNew, keyUse?_refused hpattern] at hnew
    nomatch hnew
  | put hpattern hstore =>
    rename_i key pattern time r cache
    rw [storesNew_put hpattern, Bool.and_eq_true, Bool.not_eq_true'] at hnew
    have habsent : ¬ s.cache.contains key := by
      rw [hnew.2]
      exact Bool.false_ne_true
    have hall : s.cache.others key = s.cache.entries :=
      Cache.others_of_not_mem fun hmem => habsent (Cache.contains_iff.mpr hmem)
    refine ⟨key, r, time, decide_eq_true rfl, ?_⟩
    rw [Act.apart_put]
    show cache.entries = (s.cache.others key).drop
      ((s.cache.others key).length - m + 1 : Int).toNat ++ _
    rw [hall]
    exact hstore.entries_new hsize hnew.1 habsent
  | get | remove | clear | resetStats | size | contains | assign => nomatch hnew

/-- Looking an entry up touches it, unless it is too old. -/
theorem Effect.touches (h : s.Effect u outcome s') (hdistinct : s.cache.Distinct) {e : Entry}
    (he : e ∈ s.cache.entries) (hu : u = .get e.key ∨ u = .compile e.key) :
    s.cache.expired s.clock.now e = .ok true ∨ e.touch s.clock.now ∈ s'.cache.entries := by
  rcases hu with rfl | rfl
  · cases h with
    | get hlookup => exact (hlookup.old_or_touched hdistinct he).imp_right And.right
  · cases h with
    | compile h =>
      cases h with
      | hit hlookup => exact (hlookup.old_or_touched hdistinct he).imp_right And.right
      | rejected hlookup =>
        rcases hlookup.old_or_touched hdistinct he with hold | ⟨hfound, -⟩
        · exact .inl hold
        · nomatch hfound
      | stored hlookup =>
        rcases hlookup.old_or_touched hdistinct he with hold | ⟨hfound, -⟩
        · exact .inl hold
        · nomatch hfound

/-- Storing under the key of an entry leaves an entry of this key. -/
theorem Effect.replaces {e : Entry} {pattern : Pattern} {time : Setting}
    (h : s.Effect (.put e.key pattern time) outcome s') (he : e ∈ s.cache.entries) :
    ∃ e' ∈ s'.cache.entries, e'.key = e.key := by
  cases h with
  | refused => exact ⟨e, he, rfl⟩
  | put _ hstore => exact hstore.contains (Cache.contains_iff.mpr (List.mem_map_of_mem he))

end Session

/-- How an act treats the entries of a stage. -/
structure Stage.Lru (g : Stage) (a : Act) : Prop where
  /-- A store of a new key removes what is too many of the other entries, from the front. -/
  evicts : g.storesNew a = true → ∀ m : Int, g.session.cache.maxSize = .int m →
    ∃ key route time, a.addresses key ∧
      (g.act a).entries = (a.apart g.entries).drop ((a.apart g.entries).length - m + 1 : Int).toNat
        ++ [⟨key, route, g.now, g.now, 0, time⟩]
  /-- Any other act leaves the entries that it is not about. -/
  keeps : g.storesNew a = false → a.apart (g.act a).entries = a.apart g.entries
  /-- A lookup of an entry touches it, unless it is too old. -/
  touches : ∀ e ∈ g.entries, a = .use (.get e.key) ∨ a = .use (.compile e.key) →
    g.session.cache.expired g.now e = .ok true ∨ e.touch g.now ∈ (g.act a).entries
  /-- A store leaves its key an entry, if it had one. -/
  replaces : ∀ e ∈ g.entries, ∀ pattern time, a = .use (.put e.key pattern time) →
    ∃ e' ∈ (g.act a).entries, e'.key = e.key

/-- **This is how every act treats entries**, if settings can be compared and keys are distinct. -/
theorem Stage.lru {g : Stage} (hready : g.Ready) (hdistinct : g.session.cache.Distinct) (a : Act) :
    g.Lru a := by
  constructor
  · intro hnew m hsize
    cases a with
    | use u => exact (Session.effect hready.cache u).entries_new hnew hsize
    | move | enter | leave => nomatch hnew
  · intro hold
    cases a with
    | move m => rw [entries_move]
    | use u => exact (Session.effect hready.cache u).apart_eq hold
    | enter => rfl
    | leave => rw [entries_leave]
  · rintro e he (rfl | rfl)
    · exact (Session.effect hready.cache (.get e.key)).touches hdistinct he (.inl rfl)
    · exact (Session.effect hready.cache (.compile e.key)).touches hdistinct he (.inr rfl)
  · rintro e he pattern time rfl
    exact (Session.effect hready.cache (.put e.key pattern time)).replaces he

/-! ## Times -/

/-- Entries that were used no earlier than they were stored, in the order of their times. -/
structure Timed (now : Float) (entries : List Entry) : Prop where
  used : ∀ e ∈ entries, e.createdAt ≤ e.lastUsed ∧ e.lastUsed ≤ now
  ascending : entries.Pairwise fun e e' => e.lastUsed ≤ e'.lastUsed

namespace Timed

variable {now now' : Float} {old new : List Entry}

theorem sublist (hold : Timed now old) (hsub : new.Sublist old) : Timed now new :=
  ⟨fun e he => hold.used e (hsub.subset he), hold.ascending.sublist hsub⟩

theorem later (hold : Timed now old) (hnow : now ≤ now') : Timed now' old := by
  refine ⟨?_, hold.ascending⟩
  intro e he
  obtain ⟨hcreated, hused⟩ := hold.used e he
  exact ⟨hcreated, time_le_trans hused hnow⟩

/-- An entry that is used now can follow the others. -/
theorem concat (hold : Timed now old) (hnow : now ≤ now) {last : Entry}
    (hcreated : last.createdAt ≤ now) (hlast : last.lastUsed = now) :
    Timed now (old ++ [last]) := by
  constructor
  · intro e he
    rcases List.mem_append.mp he with he | he
    · exact hold.used e he
    · rw [List.mem_singleton.mp he, hlast]
      exact ⟨hcreated, hnow⟩
  · rw [List.pairwise_append]
    refine ⟨hold.ascending, List.pairwise_singleton _ _, ?_⟩
    intro e he e' he'
    rw [List.mem_singleton.mp he', hlast]
    exact (hold.used e he).2

/-- **A use of a key keeps times in order**, if the clock shows a number. -/
theorem change {use : Option KeyUse} (hold : Timed now old) (hnow : now ≤ now)
    (hchange : Change now old use new) : Timed now new := by
  cases hchange with
  | fewer hsub => exact hold.sublist hsub
  | hit hsub he =>
    obtain ⟨hcreated, hused⟩ := hold.used _ he
    exact (hold.sublist hsub).concat hnow (time_le_trans hcreated hused) rfl
  | store hsub => exact (hold.sublist hsub).concat hnow hnow rfl

end Timed

/-! ## Runs -/

namespace Session

/-- **The order of entries is the order of use, and eviction is least recently used first.**  Take
    any run from a new cache on, in which the capacity is always a number and the time to live a
    number or none.  In every stage that is reached, keys are distinct and each was used later than
    those before it, and every act treats entries as `Stage.Lru` says.  If the clock never goes
    back, entries were used no earlier than they were stored, and no earlier than those before
    them. -/
theorem reachesStage_lru (clock : Clock) (maxSize ttl counting : Setting) (propagate : Bool)
    (body : List Step) (hsize : Knob.maxSize.Admits maxSize) (httl : Knob.ttl.Admits ttl)
    (hassign : ∀ a ∈ acts propagate ⟨clock, .empty maxSize ttl counting⟩ body, a.Admissible)
    (g : Stage) (h : List KeyUse)
    (hg : ReachesStage ⟨clock, .empty maxSize ttl counting⟩ propagate body g h) :
    (g.entries.map Entry.key).Nodup ∧ InOrder h g.entries ∧ (∀ a, g.Lru a) ∧
      ((∀ p ∈ Stage.trail ⟨⟨clock, .empty maxSize ttl counting⟩, []⟩
          (acts propagate ⟨clock, .empty maxSize ttl counting⟩ body),
          p.1.now ≤ (p.1.act p.2).now) →
        Timed g.now g.entries) := by
  have hstart := Stage.ready_start clock counting hsize httl
  obtain ⟨hready, horder⟩ := hg.induct (P := fun g h => InOrder h g.entries) hstart hassign
    ⟨fun e he => absurd he List.not_mem_nil, List.Pairwise.nil⟩
    fun p _ hp past hpast => hpast.change (Stage.change hp p.2)
  refine ⟨horder.distinct, horder, Stage.lru hready horder.distinct, ?_⟩
  intro hclock
  refine (hg.induct (P := fun g _ => Timed g.now g.entries) hstart hassign
    ⟨fun e he => absurd he List.not_mem_nil, List.Pairwise.nil⟩ ?_).2
  intro p hmem hp past hpast
  have hnow := hclock p hmem
  exact (hpast.change (time_le_self hnow) (Stage.change hp p.2)).later hnow

/-- Two sources are stored, the first is hit at a later time, and a third one takes the place of the
    second.  In between, a block stores nothing. -/
def outlived : List Step :=
  [.use (.put "/a".toList (.source "/a".toList) .null), .use (.compile "/b".toList),
    .move (.advance (.int 1)), .use (.get "/a".toList),
    .disabled true [.use (.compile "/{x}".toList), .use (.assign .ttl (.int 5))],
    .use (.compile "/c".toList)]

theorem reachesStage_lru_outlived :
    let s : Session := ⟨.startAt 0.0 1.0, .empty (.int 2) .null (.bool true)⟩
    let g : Stage := ⟨(s.steps false outlived).2.2, []⟩
    g.entries.map Entry.key = ["/a".toList, "/c".toList] ∧
      InOrder (Stage.history ⟨s, []⟩ (s.acts false outlived)) g.entries ∧
        Timed g.now g.entries := by
  intro s g
  obtain ⟨-, horder, -, htimed⟩ := reachesStage_lru _ _ _ _ _ _ (by decide) (by decide)
    (by decide +kernel) g _ (reachesStage_last s false outlived)
  exact ⟨by decide +kernel, horder, htimed (by decide +kernel)⟩

end Session

end Routing
