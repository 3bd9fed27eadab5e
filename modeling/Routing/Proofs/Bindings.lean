/-
  BINDINGS — what a map keeps of the many bindings that made it.

  A map keeps the last value of a key at the key's first place.

  1. **Order.**  The keys stand in order of first appearance (`keys_ofPairs`), so the first one that
     has a property is the first that was bound at all (`find?_keys_putAll`), and the keys do not
     depend on the values.
  2. **Values.**  Every key stands once, so a key is found from either end, and a map is known by
     its keys in their order and the value of each (`eq_of_lookup`).
  3. **Replaced bindings** therefore leave a place and no value (`ofPairs_replaced`).
-/
import Mathlib.Data.List.Nodup
import Routing.Assoc

namespace Routing

namespace Assoc

variable {κ α : Type} [BEq κ] [LawfulBEq κ]

/-- **The first key with a property** is the first one that was bound. -/
theorem find?_keys_putAll (p : κ → Bool) (pairs : List (κ × α)) (m : Assoc κ α) :
    (putAll pairs m).keys.find? p = (m.keys ++ pairs.map Prod.fst).find? p := by
  induction pairs generalizing m with
  | nil => rw [List.map_nil, List.append_nil]; rfl
  | cons pair rest ih =>
    obtain ⟨k, a⟩ := pair
    have hstep : putAll ((k, a) :: rest) m = putAll rest (m.put k a) := rfl
    rw [hstep, ih, keys_put, List.map_cons]
    by_cases hk : k ∈ m.keys
    · -- A key that is there is passed over: the property has been decided at its first place.
      rw [if_pos hk, List.find?_append, List.find?_append]
      cases hfirst : m.keys.find? p with
      | some j => rfl
      | none =>
        have hno : ¬ p k = true := List.find?_eq_none.mp hfirst k hk
        rw [List.find?_cons_of_neg hno]
    · rw [if_neg hk, List.append_assoc, List.singleton_append]

/-- The keys that are bound are added in order of first appearance. -/
theorem keys_putAll (pairs : List (κ × α)) (m : Assoc κ α) :
    (putAll pairs m).keys
      = m.keys ++ ((pairs.map Prod.fst).filter (!m.keys.contains ·)).eraseDups := by
  induction pairs generalizing m with
  | nil => exact (List.append_nil _).symm
  | cons pair rest ih =>
    obtain ⟨k, a⟩ := pair
    have hstep : putAll ((k, a) :: rest) m = putAll rest (m.put k a) := rfl
    rw [hstep, ih, keys_put, List.map_cons, List.filter_cons]
    by_cases hk : k ∈ m.keys
    · rw [if_pos hk, List.contains_iff_mem.mpr hk]
      rfl
    · have hnew : (!m.keys.contains k) = true := by
        simpa using hk
      have hrest (j : κ) : (!(m.keys ++ [k]).contains j) = (!j == k && !m.keys.contains j) := by
        rw [List.contains_append, List.contains_cons, List.contains_nil, Bool.or_false,
          Bool.not_or, Bool.and_comm]
      rw [if_neg hk, if_pos hnew, List.eraseDups_cons, List.filter_filter, List.append_assoc,
        List.singleton_append]
      simp only [hrest]

/-- **Every key stands once, at its first place.** -/
theorem keys_ofPairs (pairs : List (κ × α)) :
    (ofPairs pairs).keys = (pairs.map Prod.fst).eraseDups := by
  have hall : (pairs.map Prod.fst).filter (!(keys ([] : Assoc κ α)).contains ·)
      = pairs.map Prod.fst := List.filter_eq_self.mpr fun _ _ => rfl
  rw [ofPairs, keys_putAll, hall]
  rfl

/-- The keys depend on the keys that are bound alone. -/
theorem keys_putAll_congr {pairs pairs' : List (κ × α)} {m m' : Assoc κ α}
    (hpairs : pairs.map Prod.fst = pairs'.map Prod.fst) (hm : m.keys = m'.keys) :
    (putAll pairs m).keys = (putAll pairs' m').keys := by
  induction pairs generalizing pairs' m m' with
  | nil =>
    have hnil : pairs' = [] := List.map_eq_nil_iff.mp hpairs.symm
    rw [hnil]
    exact hm
  | cons pair rest ih =>
    obtain ⟨pair', rest', rfl, hkey, hrest⟩ := List.map_eq_cons_iff.mp hpairs.symm
    have hput : (m.put pair.1 pair.2).keys = (m'.put pair'.1 pair'.2).keys := by
      rw [keys_put, keys_put, hkey, hm]
    show (putAll rest (m.put pair.1 pair.2)).keys = (putAll rest' (m'.put pair'.1 pair'.2)).keys
    exact ih hrest.symm hput

theorem lookup_eq_find? [DecidableEq κ] (m : Assoc κ α) (k : κ) :
    m.lookup k = (m.find? fun p => p.1 = k).map Prod.snd := by
  induction m with
  | nil => rfl
  | cons p rest ih =>
    rw [List.lookup_cons, List.find?_cons]
    by_cases hk : p.1 = k
    · rw [beq_iff_eq.mpr hk.symm, decide_eq_true hk]
      rfl
    · rw [beq_eq_false_iff_ne.mpr fun heq => hk heq.symm, decide_eq_false hk]
      exact ih

theorem lookup_of_mem {m : Assoc κ α} (hm : m.keys.Nodup) {k : κ} {a : α} (h : (k, a) ∈ m) :
    m.lookup k = some a := by
  obtain ⟨front, back, rfl⟩ := List.append_of_mem h
  refine List.lookup_eq_some_iff.mpr ⟨front, back, rfl, ?_⟩
  intro p hp
  rw [keys, List.map_append, List.nodup_append] at hm
  have hne := hm.2.2 p.1 (List.mem_map_of_mem hp) k List.mem_cons_self
  exact bne_iff_ne.mpr fun heq => hne heq.symm

theorem mem_of_lookup {m : Assoc κ α} {k : κ} {a : α} (h : m.lookup k = some a) : (k, a) ∈ m := by
  obtain ⟨front, back, rfl, -⟩ := List.lookup_eq_some_iff.mp h
  exact List.mem_append_right _ List.mem_cons_self

/-- Where every key stands once, it does not matter from which end a key is looked for. -/
theorem lookup_reverse {m : Assoc κ α} (hm : m.keys.Nodup) (k : κ) :
    m.reverse.lookup k = m.lookup k := by
  have hreverse : (Assoc.keys m.reverse).Nodup := by
    rw [keys, List.map_reverse]
    exact List.nodup_reverse.mpr hm
  refine Option.ext fun a => ⟨fun h => ?_, fun h => ?_⟩
  · exact lookup_of_mem hm (List.mem_reverse.mp (mem_of_lookup h))
  · exact lookup_of_mem hreverse (List.mem_reverse.mpr (mem_of_lookup h))

/-- Maps with the same keys in the same order and with the same values are equal. -/
theorem eq_of_lookup {m m' : Assoc κ α} (hm : m.keys.Nodup) (hkeys : m.keys = m'.keys)
    (hlookup : ∀ k, m.lookup k = m'.lookup k) : m = m' := by
  have hm' : m'.keys.Nodup := hkeys ▸ hm
  have hlength : m.length = m'.length := by
    have h := congrArg List.length hkeys
    rwa [keys, keys, List.length_map, List.length_map] at h
  refine List.ext_getElem hlength fun i hi hi' => ?_
  have hfst : m[i].1 = m'[i].1 := by
    have h := List.getElem_of_eq hkeys (by rwa [keys, List.length_map])
    simpa only [keys, List.getElem_map] using h
  have hvalue : m.lookup m[i].1 = some m[i].2 := lookup_of_mem hm (List.getElem_mem hi)
  have hvalue' : m'.lookup m'[i].1 = some m'[i].2 := lookup_of_mem hm' (List.getElem_mem hi')
  rw [hlookup, hfst, hvalue'] at hvalue
  exact Prod.ext hfst (Option.some.inj hvalue).symm

/-- A binding that a later one replaces does not show among the last bindings. -/
theorem lookup_reverse_replaced {k : κ} (a a' : α) {front back : List (κ × α)}
    (hback : k ∈ back.map Prod.fst) (j : κ) :
    (front ++ (k, a) :: back).reverse.lookup j = (front ++ (k, a') :: back).reverse.lookup j := by
  simp only [List.reverse_append, List.reverse_cons, List.lookup_append, List.lookup_cons,
    List.lookup_nil]
  by_cases hj : j = k
  · obtain ⟨p, hp, rfl⟩ := List.mem_map.mp hback
    have hsome : (back.reverse.lookup j).isSome := by
      rw [Option.isSome_iff_ne_none, Ne, List.lookup_eq_none_iff]
      intro hnone
      have hne := hnone p (List.mem_reverse.mpr hp)
      rw [hj] at hne
      simp at hne
    obtain ⟨v, hv⟩ := Option.isSome_iff_exists.mp hsome
    rw [hv]
    rfl
  · rw [beq_eq_false_iff_ne.mpr hj]

/-- **A binding that a later one replaces leaves its place and not its value.** -/
theorem ofPairs_replaced {k : κ} (a a' : α) {front back : List (κ × α)}
    (hback : k ∈ back.map Prod.fst) :
    ofPairs (front ++ (k, a) :: back) = ofPairs (front ++ (k, a') :: back) := by
  have hkeys : (front ++ (k, a) :: back).map Prod.fst
      = (front ++ (k, a') :: back).map Prod.fst := by
    rw [List.map_append, List.map_append]
    rfl
  refine eq_of_lookup (nodup_keys_putAll _ List.nodup_nil) (keys_putAll_congr hkeys rfl) ?_
  intro j
  rw [ofPairs, ofPairs, lookup_putAll, lookup_putAll, lookup_reverse_replaced a a' hback]

end Assoc

end Routing
