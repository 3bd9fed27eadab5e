/-
  HISTORIES — the uses of keys that a run makes.

  What a cache owes to its past does not show in the cache: in which order its keys were used, and
  when.  So a HISTORY is kept beside the stage while acts are replayed.

  1. **A use of a key** is a lookup that hits it, or a store that keeps it; compiling can be either.
     `Session.keyUse?` reads it off the session in which an operation begins.
  2. **The history** (`Stage.history`) lists the uses of keys that acts make, the latest first.
  3. **The crux** (`Stage.change`): whatever an act does, what it leaves is some of the entries
     before it, in their order, and behind them, if the act uses a key, the entry of that key.  So
     nothing that is to hold along a history has to look at the operations again.
  4. **Induction** (`Stage.history_induct`): what every act keeps, with its use of a key put on top
     of the history, holds of every stage and the history that leads to it.
-/
import Routing.Proofs.Capacity

namespace Routing

/-! ## Uses of keys -/

/-- How a key is used. -/
inductive Manner where
  | hit
  | store
  deriving DecidableEq

/-- A use of a key, and what the clock showed. -/
structure KeyUse where
  key : Text
  time : Float
  manner : Manner
  deriving DecidableEq

/-- Whether a store keeps what it is given: the capacity is a number, and not zero or below. -/
def Cache.stores (c : Cache) : Bool :=
  match c.maxSize.number? with
  | some limit => !limit.le (.ofInt 0)
  | none => false

/-- The **use of a key** that an operation is, if it is one. -/
def Session.keyUse? (s : Session) : Use → Option KeyUse
  | .get key =>
    match s.cache.get s.clock.now key with
    | .ok (some _, _) => some ⟨key, s.clock.now, .hit⟩
    | _ => none
  | .put key pattern _ =>
    match pattern.compile with
    | .ok _ => if s.cache.stores then some ⟨key, s.clock.now, .store⟩ else none
    | .error _ => none
  | .compile source =>
    match s.cache.get s.clock.now source with
    | .ok (some _, _) => some ⟨source, s.clock.now, .hit⟩
    | .ok (none, _) =>
      match Route.compile source with
      | .ok _ => if s.cache.stores then some ⟨source, s.clock.now, .store⟩ else none
      | .error _ => none
    | .error _ => none
  | .remove _ | .clear | .resetStats | .size | .contains _ | .assign .. => none

namespace Stage

/-- The use of a key that an act is, if it is one. -/
def keyUse? (g : Stage) : Act → Option KeyUse
  | .use u => g.session.keyUse? u
  | .move _ | .enter | .leave => none

/-- What the clock of a stage shows. -/
def now (g : Stage) : Float := g.session.clock.now

/-- The entries of a stage's cache. -/
def entries (g : Stage) : List Entry := g.session.cache.entries

/-! ## Histories -/

/-- Acts, each with the stage in which it is taken. -/
def trail (g : Stage) : List Act → List (Stage × Act)
  | [] => []
  | a :: rest => (g, a) :: (g.act a).trail rest

/-- The **history that acts make**: their uses of keys, the latest first. -/
def history (g : Stage) (acts : List Act) : List KeyUse :=
  ((g.trail acts).filterMap fun p => p.1.keyUse? p.2).reverse

theorem trail_append (g : Stage) (acts acts' : List Act) :
    g.trail (acts ++ acts') = g.trail acts ++ (g.replay acts).trail acts' := by
  induction acts generalizing g with
  | nil => rfl
  | cons a rest ih =>
    show (g, a) :: (g.act a).trail (rest ++ acts') = _
    rw [ih]
    rfl

theorem mem_trail {g : Stage} {acts : List Act} {p : Stage × Act} (h : p ∈ g.trail acts) :
    p.2 ∈ acts := by
  induction acts generalizing g with
  | nil => nomatch h
  | cons a rest ih =>
    rcases List.mem_cons.mp h with rfl | h
    · exact List.mem_cons_self
    · exact List.mem_cons_of_mem a (ih h)

/-- **What every act keeps** holds of every stage in which an act is taken. -/
theorem forall_mem_trail {P : Stage → Prop} {g : Stage} (hg : P g) {acts : List Act}
    (hact : ∀ a ∈ acts, ∀ g, P g → P (g.act a)) : ∀ p ∈ g.trail acts, P p.1 := by
  induction acts generalizing g with
  | nil => exact fun p hp => absurd hp List.not_mem_nil
  | cons a rest ih =>
    rw [List.forall_mem_cons] at hact
    exact List.forall_mem_cons.mpr ⟨hg, ih (hact.1 g hg) hact.2⟩

theorem history_cons (g : Stage) (a : Act) (rest : List Act) :
    g.history (a :: rest) = (g.act a).history rest ++ (g.keyUse? a).toList := by
  show (((g, a) :: (g.act a).trail rest).filterMap _).reverse = _
  rw [List.filterMap_cons]
  cases g.keyUse? a with
  | none => exact (List.append_nil _).symm
  | some u => exact List.reverse_cons

/-- **What every act keeps along the history** holds of the stage after acts and their history. -/
theorem history_induct {P : Stage → List KeyUse → Prop} {g : Stage} {past : List KeyUse}
    (hg : P g past) (acts : List Act)
    (hact : ∀ p ∈ g.trail acts, ∀ past, P p.1 past →
      P (p.1.act p.2) ((p.1.keyUse? p.2).toList ++ past)) :
    P (g.replay acts) (g.history acts ++ past) := by
  induction acts generalizing g past with
  | nil => exact hg
  | cons a rest ih =>
    have hfirst : P (g.act a) ((g.keyUse? a).toList ++ past) :=
      hact (g, a) List.mem_cons_self past hg
    rw [history_cons, List.append_assoc]
    exact ih hfirst fun p hp => hact p (List.mem_cons_of_mem _ hp)

end Stage

/-! ## What an act leaves -/

/-- How an act changes the entries, by the use of a key that it is. -/
inductive Change (now : Float) (old : List Entry) : Option KeyUse → List Entry → Prop
  | fewer {new : List Entry} (h : new.Sublist old) : Change now old none new
  | hit {kept : List Entry} {e : Entry} (h : kept.Sublist old) (he : e ∈ old)
    (hkey : ∀ e' ∈ kept, e'.key ≠ e.key) :
    Change now old (some ⟨e.key, now, .hit⟩) (kept ++ [e.touch now])
  | store {kept : List Entry} {key : Text} {route : Route} {time : Setting}
    (h : kept.Sublist old) (hkey : ∀ e' ∈ kept, e'.key ≠ key) :
    Change now old (some ⟨key, now, .store⟩) (kept ++ [⟨key, route, now, now, 0, time⟩])

namespace Cache

variable {c c' : Cache} {now : Float} {key : Text}

theorem others_sublist (c : Cache) (key : Text) : (c.others key).Sublist c.entries :=
  List.filter_sublist

theorem makeRoom_sublist (c : Cache) (limit : Exact) :
    (c.makeRoom limit).entries.Sublist c.entries := by
  rw [makeRoom, count_entries]
  exact (shrink_suffix _ _).sublist

/-- A lookup that finds nothing leaves the entries of the other keys. -/
theorem Lookup.entries_eq (h : c.Lookup now key none c') : c'.entries = c.others key := by
  cases h with
  | absent hfind =>
    have hno : key ∉ c.entries.map Entry.key := fun hmem =>
      not_contains_of_find? hfind (contains_iff.mpr hmem)
    rw [count_entries, others_of_not_mem hno]
  | expired => rw [count_entries]

theorem not_contains_of_others (hentries : c'.entries = c.others key) : ¬ c'.contains key := by
  rw [contains_iff, hentries]
  intro hmem
  obtain ⟨e, he, hkey⟩ := List.mem_map.mp hmem
  exact (mem_others.mp he).2 hkey

theorem Lookup.contains_of_some {r : Route} (h : c.Lookup now key (some r) c') :
    c.contains key := by
  cases h with
  | hit hfind => exact contains_of_find? hfind

theorem length_others_le (c : Cache) (key : Text) :
    (c.others key).length ≤ c.entries.length :=
  (others_sublist c key).length_le

/-- A lookup leaves no more entries than it finds. -/
theorem Lookup.length_le {found : Option Route} (hdistinct : c.Distinct)
    (h : c.Lookup now key found c') : c'.entries.length ≤ c.entries.length := by
  cases found with
  | none =>
    rw [h.entries_eq]
    exact c.length_others_le key
  | some r =>
    have hlength := hdistinct.length_others h.contains_of_some
    cases h with
    | hit =>
      rw [count_entries, List.length_append, List.length_singleton]
      omega

theorem Lookup.change {r : Route} (h : c.Lookup now key (some r) c') :
    Change now c.entries (some ⟨key, now, .hit⟩) c'.entries := by
  cases h with
  | hit hfind =>
    obtain ⟨hmem, rfl⟩ := find?_eq_some hfind
    rw [count_entries]
    exact .hit (others_sublist c _) hmem fun _ he' => (mem_others.mp he').2

/-! ### Stores that are kept, and others -/

theorem stores_of_on {limit : Exact} (hlimit : c.maxSize.number? = some limit)
    (hon : ¬ limit.le (.ofInt 0)) : c.stores = true := by
  simp only [stores, hlimit, hon, Bool.not_false]

theorem stores_of_off {limit : Exact} (hlimit : c.maxSize.number? = some limit)
    (hoff : limit.le (.ofInt 0)) : c.stores = false := by
  simp only [stores, hlimit, hoff, Bool.not_true]

theorem stores_iff_of_ofInt {m : Int} (hsize : c.maxSize = .int m) : c.stores = true ↔ 0 < m := by
  have hle := Exact.le_ofInt m 0
  rw [stores, hsize]
  show (!(Exact.ofInt m).le (.ofInt 0)) = true ↔ 0 < m
  rw [Bool.not_eq_true', ← Bool.not_eq_true, hle]
  omega

/-- A lookup does not decide whether stores are kept. -/
theorem Lookup.stores_eq {found : Option Route} (h : c.Lookup now key found c') :
    c'.stores = c.stores := by
  have hsize : c'.maxSize = c.maxSize := h.setting .maxSize
  rw [stores, hsize, stores]

section
variable {route : Route} {time : Setting}

/-- A store changes entries as a use of its key, if it is kept. -/
theorem Store.change {old : List Entry} (hold : c.entries.Sublist old)
    (h : c.Store now key route time c') :
    Change now old (if c.stores then some ⟨key, now, .store⟩ else none) c'.entries := by
  cases h with
  | off hlimit hoff =>
    rw [stores_of_off hlimit hoff]
    exact .fewer hold
  | again hlimit hon =>
    rw [stores_of_on hlimit hon]
    exact .store ((others_sublist c key).trans hold) fun _ he' => (mem_others.mp he').2
  | new hlimit hon =>
    rename_i limit _
    have hroom := (others_sublist (c.makeRoom limit) key).trans (c.makeRoom_sublist limit)
    rw [stores_of_on hlimit hon]
    exact .store (hroom.trans hold) fun _ he' => (mem_others.mp he').2

/-- A store that is kept leaves its entry. -/
theorem Store.mem (hstores : c.stores = true) (h : c.Store now key route time c') :
    (⟨key, route, now, now, 0, time⟩ : Entry) ∈ c'.entries := by
  cases h with
  | off hlimit hoff => nomatch (stores_of_off hlimit hoff).symm.trans hstores
  | again | new => exact List.mem_concat_self

/-- A store that is not kept changes nothing. -/
theorem Store.eq_self (hstores : c.stores = false) (h : c.Store now key route time c') :
    c' = c := by
  cases h with
  | off => rfl
  | again hlimit hon | new hlimit hon => nomatch (stores_of_on hlimit hon).symm.trans hstores

/-- A store of a new key gives up what is too many at the front. -/
theorem Store.entries_new {m : Int} (hsize : c.maxSize = .int m) (hstores : c.stores = true)
    (hkey : ¬ c.contains key) (h : c.Store now key route time c') :
    c'.entries = c.entries.drop (c.entries.length - m + 1 : Int).toNat ++
      [⟨key, route, now, now, 0, time⟩] := by
  have hm := (stores_iff_of_ofInt hsize).mp hstores
  obtain ⟨c'', hput, hentries⟩ := exists_put_ofInt hm hsize now key route time
  have hsame : c' = c'' := Except.ok.inj ((put_eq_ok_iff.mpr h).symm.trans hput)
  have hcount : (c.entries.length - m + 1 : Int).toNat = c.entries.length + 1 - m.toNat := by
    omega
  rw [hsame, hentries, if_neg hkey, hcount]

end

end Cache

namespace Session

variable {s s' : Session} {key : Text} {cache : Cache} {r : Route}

/-! ### Which use of a key an operation is -/

theorem keyUse?_get_hit (h : s.cache.Lookup s.clock.now key (some r) cache) :
    s.keyUse? (.get key) = some ⟨key, s.clock.now, .hit⟩ := by
  simp only [keyUse?, Cache.get_eq_ok_iff.mpr h]

theorem keyUse?_get_miss (h : s.cache.Lookup s.clock.now key none cache) :
    s.keyUse? (.get key) = none := by
  simp only [keyUse?, Cache.get_eq_ok_iff.mpr h]

theorem keyUse?_put {pattern : Pattern} (h : pattern.compile = .ok r) (time : Setting) :
    s.keyUse? (.put key pattern time)
      = if s.cache.stores then some ⟨key, s.clock.now, .store⟩ else none := by
  simp only [keyUse?, h]

theorem keyUse?_refused {pattern : Pattern} {f : PatternFault} (h : pattern.compile = .error f)
    (time : Setting) : s.keyUse? (.put key pattern time) = none := by
  simp only [keyUse?, h]

theorem keyUse?_compile_hit (h : s.cache.Lookup s.clock.now key (some r) cache) :
    s.keyUse? (.compile key) = some ⟨key, s.clock.now, .hit⟩ := by
  simp only [keyUse?, Cache.get_eq_ok_iff.mpr h]

theorem keyUse?_compile_rejected {e : Rejection} (h : s.cache.Lookup s.clock.now key none cache)
    (he : Route.compile key = .error e) : s.keyUse? (.compile key) = none := by
  simp only [keyUse?, Cache.get_eq_ok_iff.mpr h, he]

theorem keyUse?_compile_stored (h : s.cache.Lookup s.clock.now key none cache)
    (hr : Route.compile key = .ok r) :
    s.keyUse? (.compile key)
      = if s.cache.stores then some ⟨key, s.clock.now, .store⟩ else none := by
  simp only [keyUse?, Cache.get_eq_ok_iff.mpr h, hr]

/-! ### Changes -/

theorem Compiling.change {outcome : Except Failure Route} (h : s.Compiling key outcome s') :
    Change s.clock.now s.cache.entries (s.keyUse? (.compile key)) s'.cache.entries := by
  cases h with
  | hit hlookup =>
    rw [keyUse?_compile_hit hlookup]
    exact hlookup.change
  | rejected hlookup he =>
    rw [keyUse?_compile_rejected hlookup he, Cache.count_entries, hlookup.entries_eq]
    exact .fewer (s.cache.others_sublist key)
  | stored hlookup hr _ hstore =>
    rw [keyUse?_compile_stored hlookup hr, Cache.count_entries, ← hlookup.stores_eq]
    refine hstore.change ?_
    rw [hlookup.entries_eq]
    exact s.cache.others_sublist key

theorem Effect.change {u : Use} {outcome : Except Failure Reply} (h : s.Effect u outcome s') :
    Change s.clock.now s.cache.entries (s.keyUse? u) s'.cache.entries := by
  cases h with
  | compile h => exact h.change
  | get hlookup =>
    rename_i found _
    cases found with
    | none =>
      rw [keyUse?_get_miss hlookup, hlookup.entries_eq]
      exact .fewer (s.cache.others_sublist _)
    | some r =>
      rw [keyUse?_get_hit hlookup]
      exact hlookup.change
  | refused hpattern =>
    rw [keyUse?_refused hpattern]
    exact .fewer (List.Sublist.refl _)
  | put hpattern hstore =>
    rw [keyUse?_put hpattern]
    exact hstore.change (List.Sublist.refl _)
  | remove => exact .fewer (s.cache.others_sublist _)
  | clear => exact .fewer (List.nil_sublist _)
  | resetStats | size | contains => exact .fewer (List.Sublist.refl _)
  | assign =>
    rename_i knob v
    cases knob <;> exact .fewer (List.Sublist.refl _)

end Session

namespace Stage

theorem entries_move (g : Stage) (m : ClockMove) : (g.act (.move m)).entries = g.entries :=
  congrArg Cache.entries (Session.cache_move m)

theorem entries_leave (g : Stage) : (g.act .leave).entries = g.entries := by
  obtain ⟨session, saved⟩ := g
  cases saved <;> rfl

/-- **Whatever an act does**, it changes entries as the use of a key that it is. -/
theorem change {g : Stage} (h : g.Ready) (a : Act) :
    Change g.now g.entries (g.keyUse? a) (g.act a).entries := by
  cases a with
  | move m =>
    rw [entries_move]
    exact .fewer (List.Sublist.refl _)
  | use u => exact (Session.effect h.cache u).change
  | enter => exact .fewer (List.Sublist.refl _)
  | leave =>
    rw [entries_leave]
    exact .fewer (List.Sublist.refl _)

/-- A new cache with settings that can be compared. -/
theorem ready_start (clock : Clock) {maxSize ttl : Setting} (counting : Setting)
    (hsize : Knob.maxSize.Admits maxSize) (httl : Knob.ttl.Admits ttl) :
    Ready ⟨⟨clock, .empty maxSize ttl counting⟩, []⟩ := by
  refine ⟨?_, fun size hmem => absurd hmem List.not_mem_nil⟩
  intro k
  cases k with
  | maxSize => exact hsize
  | ttl => exact httl
  | counting => trivial

end Stage

/-! ## Reached stages -/

/-- The stage `g` comes up, with the history `h` behind it, while steps are taken from `s` on. -/
def Session.ReachesStage (s : Session) (propagate : Bool) (body : List Step) (g : Stage)
    (h : List KeyUse) : Prop :=
  ∃ before, before <+: s.acts propagate body ∧
    Stage.replay ⟨s, []⟩ before = g ∧ Stage.history ⟨s, []⟩ before = h

namespace Session

variable {s : Session} {propagate : Bool} {body : List Step} {g : Stage} {h : List KeyUse}

theorem ReachesStage.reaches (hg : s.ReachesStage propagate body g h) :
    s.Reaches propagate body g.session := by
  obtain ⟨before, hbefore, rfl, -⟩ := hg
  exact ⟨before, hbefore, rfl⟩

theorem reachesStage_last (s : Session) (propagate : Bool) (body : List Step) :
    s.ReachesStage propagate body ⟨(s.steps propagate body).2.2, []⟩
      (Stage.history ⟨s, []⟩ (s.acts propagate body)) :=
  ⟨_, List.prefix_refl _, replay_acts propagate s [] body, rfl⟩

/-- **What every act keeps along the history** holds of every stage that is reached, if all
    settings can be compared. -/
theorem ReachesStage.induct {P : Stage → List KeyUse → Prop} (hready : Stage.Ready ⟨s, []⟩)
    (hassign : ∀ a ∈ s.acts propagate body, a.Admissible) (hs : P ⟨s, []⟩ [])
    (hact : ∀ p ∈ Stage.trail ⟨s, []⟩ (s.acts propagate body), p.1.Ready → ∀ past, P p.1 past →
      P (p.1.act p.2) ((p.1.keyUse? p.2).toList ++ past))
    (hg : s.ReachesStage propagate body g h) : g.Ready ∧ P g h := by
  obtain ⟨before, ⟨after, hacts⟩, rfl, rfl⟩ := hg
  have hreplayed := Stage.history_induct (P := fun g past => g.Ready ∧ P g past)
    ⟨hready, hs⟩ before fun p hp past hpast => by
      have hmem : p ∈ Stage.trail ⟨s, []⟩ (s.acts propagate body) := by
        rw [← hacts, Stage.trail_append]
        exact List.mem_append_left _ hp
      exact ⟨hpast.1.act (hassign p.2 (Stage.mem_trail hmem)), hact p hmem hpast.1 past hpast.2⟩
  rwa [List.append_nil] at hreplayed

end Session

end Routing
