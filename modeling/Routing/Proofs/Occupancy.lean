/-
  OCCUPANCY — a cache never holds more than it was built for.

  While a block disables the cache, its capacity is zero and its entries stay, so their number
  cannot be compared with the capacity of the moment.  It is compared with the capacity `M` that
  the cache was built with, as long as nobody assigns another one.

  1. **The stack of capacities** is the one in force, and behind it those that the open blocks give
     back, the innermost first.  It is always as many zeros as there are open blocks, and then `M`
     (`Stage.Within`).  So the capacity in force is `M` outside every block, and zero inside.
  2. **One operation** leaves no more entries than there were, or no more than the capacity in force
     (`Session.Effect.length_le`), and neither is above `M`.
-/
import Routing.Proofs.History

namespace Routing

/-! ## New caches -/

/-- A new cache with the integer `M` as its capacity: built from its three settings, or from named
    settings, where a cache that is off gets zero. -/
inductive Cache.BuiltWith (M : Int) : Cache → Prop
  | direct (ttl counting : Setting) : BuiltWith M (.empty (.int M) ttl counting)
  | on {s : Settings} (hon : s.enabled.isOn = true) (hsize : s.size = .int M) :
    BuiltWith M (.ofSettings s)
  | off {s : Settings} (hoff : s.enabled.isOn = false) (hM : M = 0) : BuiltWith M (.ofSettings s)

theorem Cache.BuiltWith.eq_empty {M : Int} {c : Cache} (h : c.BuiltWith M) :
    ∃ ttl counting, c = .empty (.int M) ttl counting := by
  cases h with
  | direct ttl counting => exact ⟨ttl, counting, rfl⟩
  | on hon hsize =>
    rename_i s
    refine ⟨s.ttl, s.stats, ?_⟩
    rw [Cache.ofSettings, if_pos hon, hsize]
  | off hoff hM =>
    rename_i s
    refine ⟨s.ttl, s.stats, ?_⟩
    have hno : ¬ s.enabled.isOn = true := by
      rw [hoff]
      exact Bool.false_ne_true
    rw [Cache.ofSettings, if_neg hno, hM]

/-! ## One operation -/

namespace Cache

variable {c c' : Cache} {now : Float} {key : Text}

/-- A store keeps to every bound that the entries and the capacity keep to. -/
theorem Store.length_le {route : Route} {time : Setting} {m bound : Int}
    (hdistinct : c.Distinct) (hsize : c.maxSize = .int m) (hm : m ≤ bound)
    (hlength : (c.entries.length : Int) ≤ bound) (h : c.Store now key route time c') :
    (c'.entries.length : Int) ≤ bound := by
  cases hstores : c.stores with
  | false => rwa [h.eq_self hstores]
  | true =>
    by_cases hkey : c.contains key
    · cases h with
      | off => exact hlength
      | again =>
        have hothers := hdistinct.length_others hkey
        rw [List.length_append, List.length_singleton]
        omega
      | new _ _ hnew => exact absurd hkey hnew
    · have hpos := (stores_iff_of_ofInt hsize).mp hstores
      rw [h.entries_new hsize hstores hkey, List.length_append, List.length_drop,
        List.length_singleton]
      omega

end Cache

namespace Session

variable {s s' : Session} {m bound : Int}

theorem Compiling.length_le {source : Text} {outcome : Except Failure Route}
    (hdistinct : s.cache.Distinct) (hsize : s.cache.maxSize = .int m) (hm : m ≤ bound)
    (hlength : (s.cache.entries.length : Int) ≤ bound) (h : s.Compiling source outcome s') :
    (s'.cache.entries.length : Int) ≤ bound := by
  cases h with
  | hit hlookup =>
    rename_i r cache
    have hle := hlookup.length_le hdistinct
    show (cache.entries.length : Int) ≤ bound
    omega
  | rejected hlookup =>
    have hle := hlookup.length_le hdistinct
    rw [Cache.count_entries]
    omega
  | stored hlookup _ _ hstore =>
    have hle := hlookup.length_le hdistinct
    rw [Cache.count_entries]
    exact hstore.length_le (hlookup.distinct hdistinct) ((hlookup.setting .maxSize).trans hsize) hm
      (by omega)

/-- **An operation keeps to every bound** that the entries and the capacity keep to. -/
theorem Effect.length_le {u : Use} {outcome : Except Failure Reply}
    (hdistinct : s.cache.Distinct) (hsize : s.cache.maxSize = .int m) (hm : m ≤ bound)
    (hlength : (s.cache.entries.length : Int) ≤ bound) (h : s.Effect u outcome s') :
    (s'.cache.entries.length : Int) ≤ bound := by
  cases h with
  | compile h => exact h.length_le hdistinct hsize hm hlength
  | get hlookup =>
    rename_i key found cache
    have hle := hlookup.length_le hdistinct
    show (cache.entries.length : Int) ≤ bound
    omega
  | put _ hstore => exact hstore.length_le hdistinct hsize hm hlength
  | remove =>
    rename_i key
    have hle := s.cache.length_others_le key
    show ((s.cache.others key).length : Int) ≤ bound
    omega
  | clear =>
    show (0 : Int) ≤ bound
    omega
  | resetStats | refused | size | contains => exact hlength
  | assign =>
    rename_i knob v
    cases knob <;> exact hlength

theorem Failing.length_le (hdistinct : s.cache.Distinct) (h : s.Failing s') :
    s'.cache.entries.length ≤ s.cache.entries.length := by
  cases h with
  | untouched => exact Nat.le_refl _
  | lookedUp hlookup => exact hlookup.length_le hdistinct

theorem Failing.setting (h : s.Failing s') (k : Knob) : s'.cache.setting k = s.cache.setting k := by
  cases h with
  | untouched => rfl
  | lookedUp hlookup => exact hlookup.setting k

end Session

/-! ## Runs -/

/-- An act that assigns no capacity. -/
def Act.LeavesCapacity : Act → Prop
  | .use (.assign .maxSize _) => False
  | _ => True

instance (a : Act) : Decidable a.LeavesCapacity :=
  match a with
  | .use (.assign .maxSize _) => isFalse id
  | .use (.assign .ttl _) | .use (.assign .counting _) | .use (.compile _) | .use (.get _)
  | .use (.put ..) | .use (.remove _) | .use .clear | .use .resetStats | .use .size
  | .use (.contains _) | .move _ | .enter | .leave => isTrue trivial

namespace Stage

/-- A stage of a cache that was built with the capacity `M`. -/
structure Within (M : Int) (g : Stage) : Prop where
  /-- The capacity in force, and behind it those that are given back. -/
  capacities : g.session.cache.maxSize :: g.saved
    = List.replicate g.saved.length (.int 0) ++ [.int M]
  distinct : g.session.cache.Distinct
  length : (g.entries.length : Int) ≤ max M 0

namespace Within

variable {M : Int} {g : Stage}

theorem outside (h : g.Within M) (hsaved : g.saved = []) :
    g.session.cache.maxSize = .int M := by
  have hcapacities := h.capacities
  rw [hsaved] at hcapacities
  exact List.head_eq_of_cons_eq hcapacities

theorem inside (h : g.Within M) (hsaved : g.saved ≠ []) :
    g.session.cache.maxSize = .int 0 := by
  obtain ⟨size, rest, hcons⟩ := List.exists_cons_of_ne_nil hsaved
  have hcapacities := h.capacities
  rw [hcons, List.length_cons, List.replicate_succ] at hcapacities
  exact List.head_eq_of_cons_eq hcapacities

/-- The capacity in force is not above `M`, or it is zero. -/
theorem exists_capacity (h : g.Within M) :
    ∃ m : Int, g.session.cache.maxSize = .int m ∧ m ≤ max M 0 := by
  by_cases hsaved : g.saved = []
  · exact ⟨M, h.outside hsaved, by omega⟩
  · exact ⟨0, h.inside hsaved, by omega⟩

theorem use (h : g.Within M) {u : Use} (hu : (Act.use u).LeavesCapacity) :
    (g.act (.use u)).Within M := by
  obtain ⟨m, hsize, hm⟩ := h.exists_capacity
  have hcapacity : (g.session.use u).2.cache.maxSize = g.session.cache.maxSize := by
    rcases g.session.effect_or_failing u with heffect | ⟨-, -, hfailing⟩
    · have hsetting := heffect.setting .maxSize
      cases u with
      | assign knob v =>
        cases knob with
        | maxSize => exact hu.elim
        | ttl | counting => exact hsetting
      | _ => exact hsetting
    · exact hfailing.setting .maxSize
  constructor
  · show (g.session.use u).2.cache.maxSize :: g.saved = _
    rw [hcapacity]
    exact h.capacities
  · exact distinct_act h.distinct (.use u)
  · show ((g.session.use u).2.cache.entries.length : Int) ≤ max M 0
    have hlength : (g.session.cache.entries.length : Int) ≤ max M 0 := h.length
    rcases g.session.effect_or_failing u with heffect | ⟨-, -, hfailing⟩
    · exact heffect.length_le h.distinct hsize hm hlength
    · have hle := hfailing.length_le h.distinct
      omega

/-- **Every act that assigns no capacity** keeps the stack of capacities and the bound. -/
theorem act (h : g.Within M) {a : Act} (ha : a.LeavesCapacity) : (g.act a).Within M := by
  cases a with
  | move m =>
    have hcache : (g.act (.move m)).session.cache = g.session.cache := Session.cache_move m
    refine ⟨?_, distinct_act h.distinct (.move m), ?_⟩
    · rw [hcache]
      exact h.capacities
    · rw [entries_move]
      exact h.length
  | use u => exact h.use ha
  | enter =>
    refine ⟨?_, distinct_act h.distinct .enter, h.length⟩
    show .int 0 :: (g.session.cache.maxSize :: g.saved) = _
    rw [h.capacities]
    rfl
  | leave =>
    obtain ⟨session, saved⟩ := g
    cases saved with
    | nil => exact h
    | cons size saved =>
      refine ⟨?_, distinct_act h.distinct .leave, h.length⟩
      have hcapacities := h.capacities
      rw [List.length_cons, List.replicate_succ] at hcapacities
      exact List.tail_eq_of_cons_eq hcapacities

end Within

end Stage

namespace Session

/-- **A cache never holds more than it was built for**, inside blocks and outside, also after
    operations and blocks that fail, as long as no capacity is assigned; and outside every block its
    capacity is the one that it was built with. -/
theorem reachesStage_within (clock : Clock) (M : Int) (cache : Cache) (hcache : cache.BuiltWith M)
    (propagate : Bool) (body : List Step)
    (hassign : ∀ a ∈ acts propagate ⟨clock, cache⟩ body, a.LeavesCapacity)
    (g : Stage) (h : List KeyUse) (hg : ReachesStage ⟨clock, cache⟩ propagate body g h) :
    (g.entries.length : Int) ≤ max M 0 ∧
      (g.saved = [] → g.session.cache.maxSize = .int M) ∧
      (g.saved ≠ [] → g.session.cache.maxSize = .int 0) := by
  obtain ⟨ttl, counting, rfl⟩ := hcache.eq_empty
  have hstart : Stage.Within M ⟨⟨clock, .empty (.int M) ttl counting⟩, []⟩ := by
    refine ⟨rfl, List.nodup_nil, ?_⟩
    show (0 : Int) ≤ max M 0
    omega
  obtain ⟨before, hbefore, rfl, -⟩ := hg
  have hwithin := Stage.replay_induct hstart fun a ha g hg => hg.act (hassign a (hbefore.subset ha))
  exact ⟨hwithin.length, hwithin.outside, hwithin.inside⟩

/-- Two sources are stored; a block that ends with a failure holds another block. -/
def interrupted : List Step :=
  [.use (.compile "/a".toList), .use (.compile "/b".toList),
    .disabled true [.use (.compile "/c".toList), .disabled false [.use (.compile "/d".toList)],
      .use (.assign .ttl (.text [])), .use (.get "/a".toList), .use .clear],
    .use (.compile "/c".toList)]

theorem reachesStage_within_interrupted :
    let s : Session := ⟨.startAt 0.0 1.0, .ofSettings ⟨.bool true, .int 2, .null, .bool true⟩⟩
    let t := (s.steps false interrupted).2.2
    (t.cache.entries.length : Int) ≤ 2 ∧ t.cache.maxSize = .int 2 := by
  intro s t
  obtain ⟨hlength, houtside, -⟩ := reachesStage_within _ 2 _ (.on rfl rfl) false interrupted
    (by decide +kernel) ⟨t, []⟩ _ (reachesStage_last s false interrupted)
  -- The bounds are read off the theorem, not off the run.
  clear_value t
  exact ⟨hlength, houtside rfl⟩

end Session

end Routing
