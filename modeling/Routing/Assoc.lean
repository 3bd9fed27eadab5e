/-
  ASSOCIATION LISTS IN ORDER OF FIRST INSERTION.

  The values that a path binds, the lines of an environment file and the raw settings of all layers
  are maps whose order can be seen: a later value for a key REPLACES the value and KEEPS the place.
  `Assoc.put` is that rule.  Reading is `List.lookup`, which finds the one pair of a key.
-/

namespace Routing

/-- Pairs of a key and a value, in the order in which the keys were first inserted. -/
abbrev Assoc (κ α : Type) := List (κ × α)

namespace Assoc

variable {κ α : Type} [BEq κ]

/-- Binds `k` to `a`: in the place of `k` if there is one, else at the end. -/
def put (k : κ) (a : α) : Assoc κ α → Assoc κ α
  | [] => [(k, a)]
  | (k', a') :: rest => if k' == k then (k', a) :: rest else (k', a') :: put k a rest

/-- Binds all pairs of a list one after the other. -/
def putAll (pairs : List (κ × α)) (m : Assoc κ α) : Assoc κ α :=
  pairs.foldl (fun acc p => acc.put p.1 p.2) m

/-- The map of a list of pairs: each key once, at its first place, with its last value. -/
def ofPairs (pairs : List (κ × α)) : Assoc κ α := putAll pairs []

/-- The keys in order. -/
def keys (m : Assoc κ α) : List κ := m.map Prod.fst

/-! ## What a binding changes: the value of its key, and the keys only by a new one at the end -/

theorem lookup_put [LawfulBEq κ] (k k' : κ) (a : α) (m : Assoc κ α) :
    (m.put k a).lookup k' = if k' == k then some a else m.lookup k' := by
  induction m with
  | nil =>
    rw [put, List.lookup_cons, List.lookup_nil]
    cases k' == k <;> rfl
  | cons p rest ih =>
    obtain ⟨j, b⟩ := p
    rw [put, List.lookup_cons]
    cases hj : j == k with
    | true =>
      rw [if_pos rfl, List.lookup_cons, eq_of_beq hj]
      cases k' == k <;> rfl
    | false =>
      rw [if_neg Bool.false_ne_true, List.lookup_cons, ih]
      cases hk : k' == j with
      | true =>
        have hne : (k' == k) = false := by rw [eq_of_beq hk]; exact hj
        rw [hne]
        rfl
      | false => rfl

theorem keys_put [LawfulBEq κ] (k : κ) (a : α) (m : Assoc κ α) :
    (m.put k a).keys = if k ∈ m.keys then m.keys else m.keys ++ [k] := by
  induction m with
  | nil => simp [put, keys]
  | cons p rest ih =>
    obtain ⟨j, b⟩ := p
    by_cases hj : j = k
    · subst hj
      simp [put, keys]
    · have hjk : (j == k) = false := by simpa using hj
      have hkj : k ≠ j := fun h => hj h.symm
      simp only [keys] at ih
      rw [put, hjk]
      by_cases hm : k ∈ rest.map Prod.fst
      · simp [keys, ih, hm]
      · simp [keys, ih, hm, hkj]

/-! ## Many bindings: the last value of a key wins, and every key stands once -/

theorem putAll_append (xs ys : List (κ × α)) (m : Assoc κ α) :
    putAll (xs ++ ys) m = putAll ys (putAll xs m) :=
  List.foldl_append

theorem lookup_putAll [LawfulBEq κ] (pairs : List (κ × α)) (m : Assoc κ α) (k : κ) :
    (putAll pairs m).lookup k = (pairs.reverse.lookup k).or (m.lookup k) := by
  induction pairs generalizing m with
  | nil => rfl
  | cons p rest ih =>
    have hstep : putAll (p :: rest) m = putAll rest (m.put p.1 p.2) := rfl
    rw [hstep, ih, lookup_put, List.reverse_cons, List.lookup_append, Option.or_assoc,
      List.lookup_cons, List.lookup_nil]
    cases k == p.1 <;> rfl

theorem mem_keys_putAll [LawfulBEq κ] (pairs : List (κ × α)) (m : Assoc κ α) (k : κ) :
    k ∈ (putAll pairs m).keys ↔ k ∈ m.keys ∨ k ∈ pairs.map Prod.fst := by
  induction pairs generalizing m with
  | nil => simp [putAll]
  | cons p rest ih =>
    have hstep : putAll (p :: rest) m = putAll rest (m.put p.1 p.2) := rfl
    have hput : k ∈ (m.put p.1 p.2).keys ↔ k ∈ m.keys ∨ k = p.1 := by
      rw [keys_put]
      by_cases hp : p.1 ∈ m.keys
      · rw [if_pos hp]
        exact ⟨.inl, fun h => h.elim id fun h => h ▸ hp⟩
      · rw [if_neg hp, List.mem_append, List.mem_singleton]
    rw [hstep, ih, hput, List.map_cons, List.mem_cons, or_assoc]

theorem nodup_keys_putAll [LawfulBEq κ] (pairs : List (κ × α)) {m : Assoc κ α}
    (hm : m.keys.Nodup) : (putAll pairs m).keys.Nodup := by
  induction pairs generalizing m with
  | nil => exact hm
  | cons p rest ih =>
    refine ih (m := m.put p.1 p.2) ?_
    rw [keys_put]
    by_cases hp : p.1 ∈ m.keys
    · rwa [if_pos hp]
    · rw [if_neg hp, List.nodup_append]
      refine ⟨hm, by simp, ?_⟩
      intro a ha b hb
      rw [List.mem_singleton.mp hb]
      exact fun h => hp (h ▸ ha)

end Assoc

/-! ## Examples -/

example : Assoc.ofPairs [("a", 1), ("b", 2), ("a", 3)] = [("a", 3), ("b", 2)] := by decide

end Routing
