/-
  THE STACK PROPERTY — a larger cache never loses a hit.

  The capacity of a cache decides how much of an order it holds, not what that order is.  So caches
  of different capacities that are asked for the same sources agree at the end of their orders.

  1. **The order of requests** (`recent`) has the sources that compile, each of them once, by their
     last request.  No capacity occurs in it.
  2. **One request** of such a source moves it to the end of the keys, or puts it there, and cuts
     them to the capacity, whether the cache has it or not (`Session.Compiling.keys`).
  3. **The crux** (`rtake_requeue`): it makes no difference whether what is moved to the end of an
     order is moved before the order is cut or after.  Where it stood in front of the cut, there
     are enough elements behind.
  4. **Runs.**  By 2 and 3 the keys are the end of the order of requests (`Stacked`), and a source
     is hit if it is one of them.
-/
import Mathlib.Data.List.Dedup
import Mathlib.Data.List.DropRight
import Routing.Proofs.History
import Routing.Proofs.Transparency

namespace Routing

/-! ## Orders -/

section
variable {α : Type}

theorem rtake_append_of_le {n : Nat} (front : List α) {back : List α} (h : n ≤ back.length) :
    (front ++ back).rtake n = back.rtake n := by
  have hdrop : (front ++ back).length - n = front.length + (back.length - n) := by
    rw [List.length_append]
    omega
  rw [List.rtake, hdrop, List.drop_length_add_append, List.rtake]

theorem rtake_of_length_le {n : Nat} {l : List α} (h : l.length ≤ n) : l.rtake n = l := by
  have hnone : l.length - n = 0 := by omega
  rw [List.rtake, hnone, List.drop_zero]

theorem length_rtake (n : Nat) (l : List α) : (l.rtake n).length = min n l.length := by
  rw [List.rtake, List.length_drop]
  omega

/-- What the cut takes away is nothing, or the cut leaves as much as it may. -/
theorem exists_append_rtake (n : Nat) (l : List α) :
    ∃ front, front ++ l.rtake n = l ∧ (front = [] ∨ (l.rtake n).length = n) := by
  refine ⟨l.take (l.length - n), List.take_append_drop _ _, ?_⟩
  rw [length_rtake, List.take_eq_nil_iff]
  by_cases hle : l.length ≤ n
  · exact .inl (.inl (by omega))
  · exact .inr (by omega)

theorem rtake_min (n : Nat) (l : List α) : l.rtake (min n l.length) = l.rtake n := by
  have hsame : l.length - min n l.length = l.length - n := by omega
  rw [List.rtake, hsame, List.rtake]

theorem rtake_suffix_rtake {m n : Nat} (h : m ≤ n) (l : List α) : l.rtake m <:+ l.rtake n := by
  have hmore : l.length - m = l.length - n + (l.length - m - (l.length - n)) := by omega
  rw [List.rtake, List.rtake, hmore, ← List.drop_drop]
  exact List.drop_suffix _ _

end

/-- An order of keys in which a key comes last, after it has been moved there if it was in it. -/
def requeue (keys : List Text) (key : Text) : List Text := keys.erase key ++ [key]

/-- **Cutting an order before a key is requeued** changes nothing but what is cut off. -/
theorem rtake_requeue {keys : List Text} (hnodup : keys.Nodup) (n : Nat) (key : Text) :
    (requeue (keys.rtake n) key).rtake n = (requeue keys key).rtake n := by
  cases n with
  | zero => rw [List.rtake_zero, List.rtake_zero]
  | succ n =>
    rw [requeue, requeue, List.rtake_concat_succ, List.rtake_concat_succ]
    congr 1
    obtain ⟨front, hsplit, hfull⟩ := exists_append_rtake (n + 1) keys
    generalize keys.rtake (n + 1) = back at hsplit hfull
    subst hsplit
    by_cases hkey : key ∈ front
    · have hno : key ∉ back := fun hmem => List.disjoint_of_nodup_append hnodup hkey hmem
      have hlength : back.length = n + 1 := hfull.resolve_left (List.ne_nil_of_mem hkey)
      have hle : n ≤ back.length := by omega
      rw [List.erase_of_not_mem hno, List.erase_append_left _ hkey, rtake_append_of_le _ hle]
    · rw [List.erase_append_right _ hkey]
      rcases hfull with rfl | hlength
      · rfl
      · have hle : n ≤ (back.erase key).length := by
          rw [List.length_erase]
          split <;> omega
        rw [rtake_append_of_le _ hle]

/-! ## The order of requests -/

/-- Whether a source compiles. -/
def accepted (source : Text) : Bool := (Route.compile source).toOption.isSome

theorem accepted_of_ok {source : Text} {r : Route} (h : Route.compile source = .ok r) :
    accepted source = true := by
  rw [accepted, h]
  rfl

theorem accepted_of_error {source : Text} {e : Rejection} (h : Route.compile source = .error e) :
    accepted source = false := by
  rw [accepted, h]
  rfl

/-- The **sources that compile, by their last request**: of equal ones the last one stays. -/
def recent (sources : List Text) : List Text := (sources.filter accepted).dedup

theorem nodup_recent (sources : List Text) : (recent sources).Nodup := List.nodup_dedup _

theorem dedup_concat (keys : List Text) (key : Text) :
    (keys ++ [key]).dedup = requeue keys.dedup key := by
  induction keys with
  | nil => rfl
  | cons first rest ih =>
    rw [List.cons_append]
    by_cases hrest : first ∈ rest
    · rw [List.dedup_cons_of_mem (List.mem_append_left _ hrest), List.dedup_cons_of_mem hrest, ih]
    · have hno : first ∉ rest.dedup := fun hmem => hrest (List.mem_dedup.mp hmem)
      rw [List.dedup_cons_of_notMem hrest, requeue]
      by_cases heq : first = key
      · rw [heq, List.dedup_cons_of_mem List.mem_concat_self, ih, requeue, ← heq,
          List.erase_of_not_mem hno, List.erase_cons_head]
      · have hnew : first ∉ rest ++ [key] := by
          rw [List.mem_append, List.mem_singleton]
          exact not_or.mpr ⟨hrest, heq⟩
        have hne : ¬ (first == key) = true := by rwa [beq_iff_eq]
        rw [List.dedup_cons_of_notMem hnew, ih, requeue, List.erase_cons_tail hne,
          List.cons_append]

theorem recent_concat_ok {source : Text} {r : Route} (h : Route.compile source = .ok r)
    (sources : List Text) : recent (sources ++ [source]) = requeue (recent sources) source := by
  rw [recent, List.filter_append, List.filter_singleton, accepted_of_ok h]
  exact dedup_concat _ _

theorem recent_concat_error {source : Text} {e : Rejection} (h : Route.compile source = .error e)
    (sources : List Text) : recent (sources ++ [source]) = recent sources := by
  rw [recent, List.filter_append, List.filter_singleton, accepted_of_error h, cond_false,
    List.append_nil, recent]

/-! ## One request -/

namespace Cache

variable {c c' : Cache} {now : Float} {key : Text}

theorem contains_of_entries (h : c'.entries = c.entries) (key : Text) :
    c'.contains key = c.contains key := by
  rw [contains, find?, h]
  rfl

/-- Without a time to live, a lookup that finds nothing changes no entry. -/
theorem Lookup.absent_of_null (httl : c.ttl = .null) (h : c.Lookup now key none c') :
    ¬ c.contains key ∧ c'.entries = c.entries := by
  cases h with
  | absent hfind => exact ⟨not_contains_of_find? hfind, count_entries c .miss⟩
  | expired hfind hold =>
    rw [Cache.expired, httl] at hold
    cases hold

theorem Lookup.keys_hit {r : Route} (hdistinct : c.Distinct) (h : c.Lookup now key (some r) c') :
    c'.entries.map Entry.key = requeue (c.entries.map Entry.key) key := by
  cases h with
  | @hit e hfind =>
    have hkey : (e.touch now).key = key := (find?_eq_some hfind).2
    rw [count_entries, List.map_append, List.map_singleton, hkey, hdistinct.keys_others, requeue]

/-- A store of a new key puts it at the end, and cuts the keys to the capacity. -/
theorem Store.keys {n : Nat} {route : Route} {time : Setting} (hsize : c.maxSize = .int n)
    (hlength : c.entries.length ≤ n) (habsent : ¬ c.contains key)
    (h : c.Store now key route time c') :
    c'.entries.map Entry.key = (requeue (c.entries.map Entry.key) key).rtake n := by
  have hno : key ∉ c.entries.map Entry.key := fun hmem => habsent (contains_iff.mpr hmem)
  have hiff := stores_iff_of_ofInt hsize
  rw [requeue, List.erase_of_not_mem hno]
  cases hstores : c.stores with
  | false =>
    -- With a capacity of zero there are no keys before and none after.
    rw [hstores] at hiff
    have hzero : n = 0 := by
      have hoff := hiff.not.mp Bool.false_ne_true
      omega
    have hnone : c.entries = [] := List.eq_nil_of_length_eq_zero (by omega)
    rw [h.eq_self hstores, hnone, hzero, List.rtake_zero]
    rfl
  | true =>
    have hpos := hiff.mp hstores
    have hdrop : (c.entries.length - n + 1 : Int).toNat = c.entries.length + 1 - n := by omega
    have hle : c.entries.length + 1 - n ≤ (c.entries.map Entry.key).length := by
      rw [List.length_map]
      omega
    rw [h.entries_new hsize hstores habsent, hdrop, List.map_append, List.map_singleton,
      List.map_drop, List.rtake, List.length_append, List.length_singleton, List.length_map,
      List.drop_append_of_le_length hle]

/-! ### Hits are counted once -/

/-- What counting something does not count. -/
theorem count_keeps {α : Type} (read : Stats → α) (f : Stats → Stats)
    (hf : ∀ stats, read (f stats) = read stats) (c : Cache) :
    read (c.count f).stats = read c.stats := by
  unfold count
  split
  · exact hf c.stats
  · rfl

theorem Lookup.hits_none (h : c.Lookup now key none c') : c'.stats.hits = c.stats.hits := by
  cases h with
  | absent => exact count_keeps Stats.hits .miss (fun _ => rfl) c
  | expired => exact count_keeps Stats.hits (fun stats => (stats.evict 1).miss) (fun _ => rfl) _

theorem Lookup.hits_some {r : Route} (h : c.Lookup now key (some r) c') :
    c'.stats.hits = c.stats.hits + if c.counting.isOn then 1 else 0 := by
  cases h with
  | hit =>
    unfold count
    split <;> rfl

theorem Store.hits {route : Route} {time : Setting} (h : c.Store now key route time c') :
    c'.stats.hits = c.stats.hits := by
  cases h with
  | off | again => rfl
  | new => exact count_keeps Stats.hits (.evict _) (fun _ => rfl) _

end Cache

namespace Session

variable {s s' : Session} {source : Text} {outcome : Except Failure Route}

/-- A source is answered from the cache. -/
def Hits (s : Session) (source : Text) : Prop :=
  ∃ r cache, s.cache.get s.clock.now source = .ok (some r, cache)

/-- **Without a time to live, a source is hit if the cache has it**, and hits are all that is
    counted as hits. -/
theorem Compiling.hits (httl : s.cache.ttl = .null) (h : s.Compiling source outcome s') :
    (s.Hits source ↔ s.cache.contains source) ∧
      s'.cache.stats.hits = s.cache.stats.hits +
        if s.cache.counting.isOn ∧ s.cache.contains source then 1 else 0 := by
  -- A lookup that finds nothing is no hit.
  have hmiss : ∀ {cache : Cache}, s.cache.Lookup s.clock.now source none cache →
      (s.Hits source ↔ s.cache.contains source) ∧ ¬ s.cache.contains source := by
    intro cache hlookup
    have habsent := (hlookup.absent_of_null httl).1
    refine ⟨⟨?_, fun hkey => absurd hkey habsent⟩, habsent⟩
    rintro ⟨r, cache', hget⟩
    nomatch hget.symm.trans (Cache.get_eq_ok_iff.mpr hlookup)
  cases h with
  | hit hlookup =>
    have hkey := hlookup.contains_of_some
    refine ⟨⟨fun _ => hkey, fun _ => ⟨_, _, Cache.get_eq_ok_iff.mpr hlookup⟩⟩, ?_⟩
    rw [hlookup.hits_some]
    simp only [hkey, and_true]
  | rejected hlookup =>
    obtain ⟨hiff, habsent⟩ := hmiss hlookup
    refine ⟨hiff, ?_⟩
    rw [Cache.count_keeps Stats.hits .reject fun _ => rfl, hlookup.hits_none,
      if_neg fun hboth => habsent hboth.2, Nat.add_zero]
  | stored hlookup _ _ hstore =>
    obtain ⟨hiff, habsent⟩ := hmiss hlookup
    refine ⟨hiff, ?_⟩
    rw [Cache.count_keeps Stats.hits (.spend _) fun _ => rfl, hstore.hits, hlookup.hits_none,
      if_neg fun hboth => habsent hboth.2, Nat.add_zero]

/-- A source that is refused leaves the entries as they are. -/
theorem Compiling.entries_error {f : Failure} (httl : s.cache.ttl = .null)
    (h : s.Compiling source (.error f) s') : s'.cache.entries = s.cache.entries := by
  cases h with
  | rejected hlookup => rw [Cache.count_entries, (hlookup.absent_of_null httl).2]

/-- **A source that compiles is requeued**, and the keys are cut to the capacity. -/
theorem Compiling.keys {n : Nat} {r : Route} (hsize : s.cache.maxSize = .int n)
    (httl : s.cache.ttl = .null) (hdistinct : s.cache.Distinct)
    (hlength : s.cache.entries.length ≤ n) (h : s.Compiling source (.ok r) s') :
    s'.cache.entries.map Entry.key
      = (requeue (s.cache.entries.map Entry.key) source).rtake n := by
  cases h with
  | hit hlookup =>
    have hkeys := hlookup.keys_hit hdistinct
    have hle : (requeue (s.cache.entries.map Entry.key) source).length ≤ n := by
      rw [← hkeys, List.length_map]
      exact Nat.le_trans (hlookup.length_le hdistinct) hlength
    rw [rtake_of_length_le hle]
    exact hkeys
  | stored hlookup _ _ hstore =>
    obtain ⟨habsent, hentries⟩ := hlookup.absent_of_null httl
    have hsize' := (hlookup.setting .maxSize).trans hsize
    rw [← hentries] at hlength ⊢
    rw [← Cache.contains_of_entries hentries] at habsent
    rw [Cache.count_entries]
    exact hstore.keys hsize' hlength habsent

end Session

/-! ## Stacked caches -/

/-- A cache with the capacity `n` and no time to live, whose keys are the end of the order in which
    sources have been requested. -/
structure Cache.Stacked (n : Nat) (counting : Setting) (sources : List Text) (c : Cache) :
    Prop where
  maxSize : c.maxSize = .int n
  ttl : c.ttl = .null
  counting : c.counting = counting
  faithful : c.Faithful
  keys : c.entries.map Entry.key = (recent sources).rtake n

namespace Cache.Stacked

variable {m n : Nat} {counting : Setting} {sources : List Text} {c c' : Cache}

theorem ready (h : c.Stacked n counting sources) : c.Ready := by
  intro k
  cases k with
  | maxSize =>
    show c.maxSize.number?.isSome
    rw [h.maxSize]
    rfl
  | ttl => exact .inl h.ttl
  | counting => trivial

theorem distinct (h : c.Stacked n counting sources) : c.Distinct := by
  rw [Distinct, h.keys]
  exact (nodup_recent sources).sublist (List.drop_sublist _ _)

theorem length_le (h : c.Stacked n counting sources) : c.entries.length ≤ n := by
  have hlength := congrArg List.length h.keys
  rw [List.length_map, length_rtake] at hlength
  omega

/-- **A request**, of a source that compiles or of another one, carries the order on. -/
theorem compile {s : Session} (h : s.cache.Stacked n counting sources) (source : Text) :
    (s.compile source).2.cache.Stacked n counting (sources ++ [source]) := by
  have hcompiling := Session.compiling h.ready source
  obtain ⟨hanswer, hfaithful⟩ := hcompiling.faithful h.faithful
  refine ⟨(hcompiling.setting .maxSize).trans h.maxSize, (hcompiling.setting .ttl).trans h.ttl,
    (hcompiling.setting .counting).trans h.counting, hfaithful, ?_⟩
  cases hroute : Route.compile source with
  | error e =>
    rw [hanswer, hroute] at hcompiling
    rw [hcompiling.entries_error h.ttl, h.keys, recent_concat_error hroute]
  | ok r =>
    rw [hanswer, hroute] at hcompiling
    rw [hcompiling.keys h.maxSize h.ttl h.distinct h.length_le, h.keys,
      rtake_requeue (nodup_recent sources), recent_concat_ok hroute]

/-- The keys below a capacity are the last ones below a larger one. -/
theorem keys_suffix (h : c.Stacked m counting sources) (h' : c'.Stacked n counting sources)
    (hle : m ≤ n) : c.entries.map Entry.key <:+ c'.entries.map Entry.key := by
  have hsuffix := rtake_suffix_rtake hle (recent sources)
  rwa [← h.keys, ← h'.keys] at hsuffix

/-- **What a cache has, a larger one has.** -/
theorem contains_of_le (h : c.Stacked m counting sources) (h' : c'.Stacked n counting sources)
    (hle : m ≤ n) {key : Text} (hkey : c.contains key) : c'.contains key :=
  contains_iff.mpr ((h.keys_suffix h' hle).mem (contains_iff.mp hkey))

/-- A request counts no more hits than it counts with a larger cache. -/
theorem hits_compile_le {s t : Session} (h : s.cache.Stacked m counting sources)
    (h' : t.cache.Stacked n counting sources) (hle : m ≤ n)
    (hhits : s.cache.stats.hits ≤ t.cache.stats.hits) (source : Text) :
    (s.compile source).2.cache.stats.hits ≤ (t.compile source).2.cache.stats.hits := by
  have hs := ((Session.compiling h.ready source).hits h.ttl).2
  have ht := ((Session.compiling h'.ready source).hits h'.ttl).2
  have hmono : s.cache.contains source → t.cache.contains source := h.contains_of_le h' hle
  rw [hs, ht, h.counting, h'.counting]
  by_cases hboth : counting.isOn ∧ s.cache.contains source
  · rw [if_pos hboth, if_pos ⟨hboth.1, hmono hboth.2⟩]
    omega
  · rw [if_neg hboth]
    omega

end Cache.Stacked

/-! ## Runs of requests -/

/-- The source that a step requests, if it is a request. -/
def Step.source? : Step → Option Text
  | .use (.compile source) => some source
  | _ => none

/-- A step that requests a source, or moves the clock between requests. -/
def Step.Requests : Step → Prop
  | .use (.compile _) | .move _ => True
  | _ => False

instance (x : Step) : Decidable x.Requests :=
  match x with
  | .use (.compile _) | .move _ => isTrue trivial
  | .use (.get _) | .use (.put ..) | .use (.remove _) | .use .clear | .use .resetStats
  | .use .size | .use (.contains _) | .use (.assign ..) | .disabled .. => isFalse id

namespace Session

theorem run_cons (s : Session) (x : Step) (rest : List Step) :
    (s.run (x :: rest)).2 = ((s.step x).2.run rest).2 := by
  have hstop : stopBy false (s.step x).1 = none := by cases (s.step x).1 <;> rfl
  show (s.steps false (x :: rest)).2.2 = _
  rw [steps_cons, hstop]
  rfl

/-- The last step of a run is taken from where the others lead. -/
theorem run_concat (s : Session) (body : List Step) (x : Step) :
    (s.run (body ++ [x])).2 = ((s.run body).2.step x).2 := by
  induction body generalizing s with
  | nil => exact run_cons s x []
  | cons first rest ih => rw [List.cons_append, run_cons, ih, run_cons]

/-- A session with a new cache that has the capacity `n` and no time to live. -/
def ofCapacity (clock : Clock) (counting : Setting) (n : Nat) : Session :=
  ⟨clock, .empty (.int n) .null counting⟩

section
variable (clock : Clock) (counting : Setting) {m n : Nat} {body : List Step}

/-- **Requests stack.** -/
theorem stacked_run (hbody : ∀ x ∈ body, x.Requests) :
    ((ofCapacity clock counting n).run body).2.cache.Stacked n counting
      (body.filterMap Step.source?) := by
  induction body using List.reverseRecOn with
  | nil => exact ⟨rfl, rfl, rfl, fun e he => absurd he List.not_mem_nil, (List.rtake_nil n).symm⟩
  | append_singleton body x ih =>
    have hstacked := ih fun x hx => hbody x (List.mem_append_left _ hx)
    have hx : x.Requests := hbody x List.mem_concat_self
    rw [run_concat, List.filterMap_append]
    cases x with
    | move m =>
      have hsame : (body.filterMap Step.source? ++ [Step.move m].filterMap Step.source?)
          = body.filterMap Step.source? := List.append_nil _
      rw [cache_move, hsame]
      exact hstacked
    | use u =>
      cases u with
      | compile source => exact hstacked.compile source
      | _ => exact hx.elim
    | disabled propagate body => exact hx.elim

theorem hits_run_le (hle : m ≤ n) (hbody : ∀ x ∈ body, x.Requests) :
    ((ofCapacity clock counting m).run body).2.cache.stats.hits
      ≤ ((ofCapacity clock counting n).run body).2.cache.stats.hits := by
  induction body using List.reverseRecOn with
  | nil => exact Nat.le_refl 0
  | append_singleton body x ih =>
    have hbefore : ∀ x ∈ body, x.Requests := fun x hx => hbody x (List.mem_append_left _ hx)
    have hx : x.Requests := hbody x List.mem_concat_self
    have hhits := ih hbefore
    rw [run_concat, run_concat]
    cases x with
    | move m => rwa [cache_move, cache_move]
    | use u =>
      cases u with
      | compile source =>
        exact (stacked_run clock counting hbefore).hits_compile_le
          (stacked_run clock counting hbefore) hle hhits source
      | _ => exact hx.elim
    | disabled propagate body => exact hx.elim

/-- **A larger cache never loses a hit.**  However sources are requested from a new cache, its keys
    are, from the least to the most recently used one, the last `n` sources that compile in the
    order of their last request, or all of them if they are fewer.  So a smaller cache has the end
    of these keys; a request that it answers is answered by the larger one; and it counts no more
    hits. -/
theorem run_stack (body : List Step) (hbody : ∀ x ∈ body, x.Requests) (m n : Nat) (hle : m ≤ n) :
    let order := recent (body.filterMap Step.source?)
    let small := ofCapacity clock counting m
    let large := ofCapacity clock counting n
    (large.run body).2.cache.entries.map Entry.key = order.rtake (min n order.length) ∧
      (large.run body).2.cache.Faithful ∧
      (small.run body).2.cache.entries.map Entry.key
        <:+ (large.run body).2.cache.entries.map Entry.key ∧
      (∀ before source after, body = before ++ .use (.compile source) :: after →
        (small.run before).2.Hits source → (large.run before).2.Hits source) ∧
      (small.run body).2.cache.stats.hits ≤ (large.run body).2.cache.stats.hits := by
  intro order small large
  have hsmall : (small.run body).2.cache.Stacked m counting _ := stacked_run clock counting hbody
  have hlarge : (large.run body).2.cache.Stacked n counting _ := stacked_run clock counting hbody
  refine ⟨?_, hlarge.faithful, hsmall.keys_suffix hlarge hle, ?_,
    hits_run_le clock counting hle hbody⟩
  · rw [rtake_min]
    exact hlarge.keys
  · rintro before source after rfl hhit
    have hbefore : ∀ x ∈ before, x.Requests := fun x hx => hbody x (List.mem_append_left _ hx)
    have hs : (small.run before).2.cache.Stacked m counting _ :=
      stacked_run clock counting hbefore
    have hl : (large.run before).2.cache.Stacked n counting _ :=
      stacked_run clock counting hbefore
    have hkey := ((compiling hs.ready source).hits hs.ttl).1.mp hhit
    exact ((compiling hl.ready source).hits hl.ttl).1.mpr (hs.contains_of_le hl hle hkey)

end

/-- Three sources and a refused one are requested, and the first two again after some time. -/
def asked : List Step :=
  [.use (.compile "/a".toList), .use (.compile "/b".toList), .use (.compile "/\x7b".toList),
    .use (.compile "/c".toList), .move (.advance (.int 60)), .use (.compile "/a".toList),
    .use (.compile "/b".toList)]

theorem run_stack_asked :
    ((ofCapacity (.startAt 0.0 1.0) (.bool true) 3).run asked).2.cache.entries.map Entry.key
        = ["/c".toList, "/a".toList, "/b".toList] ∧
      ((ofCapacity (.startAt 0.0 1.0) (.bool true) 2).run asked).2.cache.stats.hits
        ≤ ((ofCapacity (.startAt 0.0 1.0) (.bool true) 3).run asked).2.cache.stats.hits := by
  obtain ⟨hkeys, -, -, -, hhits⟩ :=
    run_stack (.startAt 0.0 1.0) (.bool true) asked (by decide) 2 3 (by decide)
  exact ⟨hkeys.trans (by decide +kernel), hhits⟩

end Session

end Routing
