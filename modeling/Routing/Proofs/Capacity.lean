/-
  CAPACITY — how many entries a store leaves.

  1. **Keys are distinct** (`Cache.Distinct`) in every session that a run reaches, whatever its
     settings are and also after uses that fail.  So the entry that a store replaces is one entry.
  2. **Making room** below a capacity `m` keeps the last `m - 1` entries (`Cache.shrink_ofInt`).
  3. **The crux** (`Cache.exists_put_ofInt`): a store makes room only if its key is new.  Then it
     leaves at most `m` entries, however many there were.  If the key is there, it leaves as many
     entries as it finds, and that can be more than `m`, once the capacity has been lowered.
-/
import Mathlib.Data.List.Nodup
import Routing.Proofs.Compiled
import Routing.Proofs.Trace

namespace Routing

/-! ## Distinct keys -/

namespace Cache

/-- No two entries have the same key. -/
def Distinct (c : Cache) : Prop := (c.entries.map Entry.key).Nodup

section
variable {c c' : Cache} {now : Float} {key : Text}

theorem Distinct.of_sublist (h : c.Distinct) (hsub : c'.entries.Sublist c.entries) :
    c'.Distinct :=
  List.Nodup.sublist (hsub.map Entry.key) h

theorem Distinct.count (h : c.Distinct) (f : Stats → Stats) : (c.count f).Distinct :=
  h.of_sublist (by rw [count_entries])

theorem Distinct.remove (h : c.Distinct) (key : Text) : (c.remove key).Distinct :=
  h.of_sublist List.filter_sublist

theorem Distinct.makeRoom (h : c.Distinct) (limit : Exact) : (c.makeRoom limit).Distinct :=
  h.of_sublist (by rw [Cache.makeRoom, count_entries]; exact (shrink_suffix _ _).sublist)

/-- An entry can follow those of the other keys. -/
theorem Distinct.concat (h : c.Distinct) {e : Entry}
    (heq : c'.entries = c.others key ++ [e]) (hkey : e.key = key) : c'.Distinct := by
  rw [Distinct, heq, List.map_append, List.map_singleton, hkey, List.nodup_append]
  refine ⟨h.remove key, List.nodup_singleton _, ?_⟩
  intro k hk k' hk'
  obtain ⟨e', he', rfl⟩ := List.mem_map.mp hk
  rw [List.mem_singleton.mp hk']
  exact (mem_others.mp he').2

theorem Lookup.distinct {found : Option Route} (h : c.Distinct)
    (hlookup : c.Lookup now key found c') : c'.Distinct := by
  cases hlookup with
  | absent => exact h.count _
  | expired => exact (h.remove key).count _
  | hit hfind => exact h.concat (count_entries _ _) (find?_eq_some hfind).2

theorem Store.distinct {route : Route} {time : Setting} (h : c.Distinct)
    (hstore : c.Store now key route time c') : c'.Distinct := by
  cases hstore with
  | off => exact h
  | again => exact h.concat rfl rfl
  | new => exact (h.makeRoom _).concat rfl rfl

end

end Cache

namespace Session

variable {s s' : Session}

theorem Effect.distinct {u : Use} {outcome : Except Failure Reply} (hs : s.cache.Distinct)
    (h : s.Effect u outcome s') : s'.cache.Distinct := by
  cases h with
  | compile h =>
    cases h with
    | hit hlookup => exact hlookup.distinct hs
    | rejected hlookup => exact (hlookup.distinct hs).count _
    | stored hlookup _ _ hstore => exact (hstore.distinct (hlookup.distinct hs)).count _
  | get hlookup => exact hlookup.distinct hs
  | put _ hstore => exact hstore.distinct hs
  | remove => exact hs.remove _
  | clear => exact List.nodup_nil
  | resetStats | refused | size | contains => exact hs
  | assign =>
    rename_i knob v
    cases knob <;> exact hs

theorem Failing.distinct (hs : s.cache.Distinct) (h : s.Failing s') : s'.cache.Distinct := by
  cases h with
  | untouched => exact hs
  | lookedUp hlookup => exact hlookup.distinct hs

end Session

theorem Stage.distinct_act {g : Stage} (h : g.session.cache.Distinct) (a : Act) :
    (g.act a).session.cache.Distinct := by
  cases a with
  | move m =>
    rw [Stage.act, Session.cache_move]
    exact h
  | use u =>
    rcases g.session.effect_or_failing u with heffect | ⟨-, -, hfailing⟩
    · exact heffect.distinct h
    · exact hfailing.distinct h
  | enter => exact h
  | leave =>
    obtain ⟨session, saved⟩ := g
    cases saved <;> exact h

/-- **Keys are distinct in every session that is reached** from a new cache on. -/
theorem Session.Reaches.distinct {clock : Clock} {maxSize ttl counting : Setting}
    {propagate : Bool} {body : List Step} {t : Session}
    (ht : Reaches ⟨clock, .empty maxSize ttl counting⟩ propagate body t) : t.cache.Distinct := by
  have hstart : (Cache.empty maxSize ttl counting).Distinct := List.nodup_nil
  obtain ⟨_, h⟩ := ht.induct (P := fun g => g.session.cache.Distinct) hstart
    fun a _ g hg => Stage.distinct_act hg a
  exact h

/-! ## What a store leaves -/

theorem Exact.le_ofInt (m n : Int) : (Exact.ofInt m).le (.ofInt n) = true ↔ m ≤ n := by
  simp only [Exact.le, Exact.lt, Exact.ofInt, Bool.not_eq_true', decide_eq_false_iff_not,
    Rat.not_lt, Rat.intCast_le_intCast]

namespace Cache

/-- **Making room** for one more entry below a capacity of `m` keeps the last `m - 1` ones. -/
theorem shrink_ofInt {m : Int} (hm : 0 < m) (entries : List Entry) :
    shrink (.ofInt m) entries = entries.drop (entries.length + 1 - m.toNat) := by
  induction entries with
  | nil => rw [shrink, List.drop_nil]
  | cons e rest ih =>
    rw [shrink, ih]
    simp only [Exact.le_ofInt, List.length_cons]
    by_cases hfull : m ≤ rest.length + 1
    · have hmore : rest.length + 1 + 1 - m.toNat = rest.length + 1 - m.toNat + 1 := by omega
      rw [if_pos hfull, hmore, List.drop_succ_cons]
    · have hnone : rest.length + 1 + 1 - m.toNat = 0 := by omega
      rw [if_neg hfull, hnone, List.drop_zero]

theorem contains_iff {c : Cache} {key : Text} :
    c.contains key ↔ key ∈ c.entries.map Entry.key := by
  rw [contains, find?, List.find?_isSome, List.mem_map]
  simp only [decide_eq_true_iff]

theorem contains_of_find? {c : Cache} {key : Text} {e : Entry} (h : c.find? key = some e) :
    c.contains key := by
  rw [contains, h]
  rfl

theorem not_contains_of_find? {c : Cache} {key : Text} (h : c.find? key = none) :
    ¬ c.contains key := by
  rw [contains, h]
  exact Bool.false_ne_true

theorem others_of_not_mem {c : Cache} {key : Text} (h : key ∉ c.entries.map Entry.key) :
    c.others key = c.entries :=
  List.filter_eq_self.mpr fun _ he =>
    decide_eq_true fun hkey => h (hkey ▸ List.mem_map_of_mem he)

/-- Under distinct keys, an entry is the one that is found under its key. -/
theorem Distinct.find?_eq {c : Cache} (h : c.Distinct) {e : Entry} (he : e ∈ c.entries) :
    c.find? e.key = some e := by
  obtain ⟨e', hfind⟩ : ∃ e', c.find? e.key = some e' :=
    Option.isSome_iff_exists.mp (contains_iff.mpr (List.mem_map_of_mem he))
  obtain ⟨hmem, hkey⟩ := find?_eq_some hfind
  rw [hfind, List.inj_on_of_nodup_map h hmem he hkey]

/-- Leaving a key out of distinct ones is erasing it. -/
theorem Distinct.keys_others {c : Cache} (h : c.Distinct) (key : Text) :
    (c.others key).map Entry.key = (c.entries.map Entry.key).erase key := by
  rw [List.Nodup.erase_eq_filter h, List.filter_map, others]
  congr 1
  refine List.filter_congr fun e _ => ?_
  by_cases he : e.key = key <;> simp [he]

theorem Distinct.length_others {c : Cache} (h : c.Distinct) {key : Text} (hkey : c.contains key) :
    (c.others key).length + 1 = c.entries.length := by
  have hlen := congrArg List.length (h.keys_others key)
  rw [List.length_erase_of_mem (contains_iff.mp hkey), List.length_map, List.length_map] at hlen
  have hpos := List.length_pos_of_mem (contains_iff.mp hkey)
  rw [List.length_map] at hpos
  omega

/-- **A store below a capacity of `m`** has a result.  The entries that it leaves are the new one,
    at the end, and before it those of the other keys, or the last `m - 1` ones if the key is
    new. -/
theorem exists_put_ofInt {c : Cache} {m : Int} (hm : 0 < m) (hsize : c.maxSize = .int m)
    (now : Float) (key : Text) (route : Route) (time : Setting) :
    ∃ c', c.put now key route time = .ok c' ∧
      c'.entries = (if c.contains key then c.others key
        else c.entries.drop (c.entries.length + 1 - m.toNat)) ++
          [⟨key, route, now, now, 0, time⟩] := by
  have hlimit : c.maxSize.number? = some (.ofInt m) := by rw [hsize]; rfl
  have hon : ¬ (Exact.ofInt m).le (.ofInt 0) := by rw [Exact.le_ofInt]; omega
  by_cases hkey : c.contains key
  · refine ⟨_, put_eq_ok_iff.mpr (.again hlimit hon hkey), ?_⟩
    rw [if_pos hkey]
  · refine ⟨_, put_eq_ok_iff.mpr (.new hlimit hon hkey), ?_⟩
    have hroom : (c.makeRoom (.ofInt m)).entries
        = c.entries.drop (c.entries.length + 1 - m.toNat) := by
      rw [makeRoom, count_entries, shrink_ofInt hm]
    have hkept : (c.makeRoom (.ofInt m)).others key = (c.makeRoom (.ofInt m)).entries := by
      refine others_of_not_mem fun hmem => hkey (contains_iff.mpr ?_)
      rw [hroom] at hmem
      exact ((List.drop_sublist _ _).map Entry.key).mem hmem
    rw [if_neg hkey, ← hroom, ← hkept]

end Cache

namespace Session

/-- **A store keeps to the capacity, unless it refreshes a key in a cache that is over it.**  Take
    any session that a run from a new cache reaches, whatever was assigned on the way, and let its
    capacity be a number `m` above zero.  Then a store has a result, in which the key is the most
    recently used one.  A new key leaves at most `m` entries; a key that is there leaves as many as
    there were. -/
theorem reaches_put (clock : Clock) (maxSize ttl counting : Setting) (propagate : Bool)
    (body : List Step) (t : Session)
    (ht : Reaches ⟨clock, .empty maxSize ttl counting⟩ propagate body t) (m : Int) (hm : 0 < m)
    (hsize : t.cache.maxSize = .int m) (key : Text) (route : Route) (time : Setting) :
    ∃ cache, t.cache.put t.clock.now key route time = .ok cache ∧
      cache.entries.getLast? = some ⟨key, route, t.clock.now, t.clock.now, 0, time⟩ ∧
      (¬ t.cache.contains key →
        (cache.entries.length : Int) = min ((t.cache.entries.length : Int) + 1) m) ∧
      (t.cache.contains key → cache.entries.length = t.cache.entries.length) ∧
      ((cache.entries.length : Int) ≤ m ↔
        (t.cache.contains key → (t.cache.entries.length : Int) ≤ m)) := by
  obtain ⟨cache, hput, hentries⟩ :=
    Cache.exists_put_ofInt hm hsize t.clock.now key route time
  refine ⟨cache, hput, by rw [hentries, List.getLast?_concat], ?_⟩
  have hlen := congrArg List.length hentries
  rw [List.length_append, List.length_singleton] at hlen
  by_cases hkey : t.cache.contains key
  · rw [if_pos hkey, ht.distinct.length_others hkey] at hlen
    refine ⟨fun hno => absurd hkey hno, fun _ => hlen, ?_⟩
    rw [hlen]
    exact ⟨fun h _ => h, fun h => h hkey⟩
  · rw [if_neg hkey, List.length_drop] at hlen
    have hmin : (cache.entries.length : Int) = min ((t.cache.entries.length : Int) + 1) m := by
      omega
    exact ⟨fun _ => hmin, fun h => absurd h hkey, fun _ h => absurd h hkey, fun _ => by omega⟩

/-- Two sources are stored, and the capacity is lowered to one. -/
def lowered : List Step :=
  [.use (.put "/a".toList (.source "/a".toList) (.float 0.0)),
    .use (.put "/b".toList (.source "/b".toList) (.float 0.0)), .use (.assign .maxSize (.int 1))]

/-- Then a store of a third source leaves one entry. -/
theorem reaches_put_new :
    let s : Session := ⟨.startAt 0.0 1.0, .empty (.int 2) .null (.bool true)⟩
    let t := (s.steps false lowered).2.2
    ∃ r cache, Route.compile "/c".toList = .ok r ∧
      t.cache.put t.clock.now "/c".toList r (.float 0.0) = .ok cache ∧
        (cache.entries.length : Int) = 1 := by
  intro s t
  have hr := @eq_ok_get _ _ (Route.compile "/c".toList) (by decide)
  obtain ⟨cache, hput, -, hnew, -⟩ := reaches_put _ _ _ _ _ _ t reaches_last 1 (by decide) rfl
    "/c".toList _ (.float 0.0)
  exact ⟨_, cache, hr, hput, hnew (by decide +kernel)⟩

/-- But a store of the second source again leaves both entries. -/
theorem reaches_put_again :
    let s : Session := ⟨.startAt 0.0 1.0, .empty (.int 2) .null (.bool true)⟩
    let t := (s.steps false lowered).2.2
    s.Reaches false lowered t ∧ t.cache.maxSize = .int 1 ∧
      ∃ r cache, Route.compile "/b".toList = .ok r ∧
        t.cache.put t.clock.now "/b".toList r (.float 0.0) = .ok cache ∧
          ¬ (cache.entries.length : Int) ≤ 1 := by
  intro s t
  have hr := @eq_ok_get _ _ (Route.compile "/b".toList) (by decide)
  exact ⟨reaches_last, rfl, _, _, hr, rfl, by decide +kernel⟩

end Session

end Routing
