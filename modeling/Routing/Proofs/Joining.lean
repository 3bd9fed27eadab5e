/-
  JOINING — fields joined by a separator, and cut again.

  `List.intercalate` and `List.splitOn` are inverse to each other on fields without the separator.
  What is added here is how both behave at the two ends of a list: the last field of a join may hold
  the separator, a cut is decided by the first separator of the text, and the last one decides what
  the text ends with.  Fields that hold separators are cut where they stand in the join.
-/

namespace Routing

variable {α : Type}

/-! ## Joining -/

theorem intercalate_concat (x : α) (fields : List (List α)) (last : List α) :
    [x].intercalate (fields ++ [last]) = fields.flatMap (· ++ [x]) ++ last := by
  induction fields with
  | nil => simp
  | cons f fields ih =>
    rw [List.cons_append, List.intercalate_cons_of_ne_nil (by simp), ih]
    simp

/-- The join of some fields begins with the join of the first ones of them. -/
theorem intercalate_isPrefix (x : α) (fields more : List (List α)) :
    [x].intercalate fields <+: [x].intercalate (fields ++ more) := by
  induction fields with
  | nil => exact List.nil_prefix
  | cons f fields ih =>
    cases fields with
    | nil =>
      cases more with
      | nil => exact List.prefix_refl _
      | cons m more =>
        rw [List.intercalate_singleton, List.singleton_append, List.intercalate_cons_cons,
          List.append_assoc]
        exact List.prefix_append _ _
    | cons g fields =>
      rw [List.cons_append, List.cons_append, List.intercalate_cons_cons,
        List.intercalate_cons_cons]
      exact (List.prefix_append_right_inj _).mpr ih

/-! ## The last occurrence of an element -/

/-- A text ends in just one way with an element that does not come again, whichever element of the
    two is looked for. -/
theorem eq_of_cons_suffix {x y : α} {last last' text : List α} (h : x :: last <:+ text)
    (h' : y :: last' <:+ text) (hx : x ∉ last') (hy : y ∉ last) : x :: last = y :: last' := by
  rcases List.suffix_or_suffix_of_suffix h h' with hsuffix | hsuffix
  · rcases List.suffix_cons_iff.mp hsuffix with heq | hmore
    · exact heq
    · exact absurd (hmore.subset List.mem_cons_self) hx
  · rcases List.suffix_cons_iff.mp hsuffix with heq | hmore
    · exact heq.symm
    · exact absurd (hmore.subset List.mem_cons_self) hy

/-! ## Cutting -/

variable [BEq α] [LawfulBEq α]

/-- A text has no separator and is one field, or its first separator ends its first field. -/
theorem splitOn_cases (x : α) (text : List α) :
    (x ∉ text ∧ text.splitOn x = [text]) ∨
      ∃ first rest, x ∉ first ∧ text = first ++ x :: rest ∧
        text.splitOn x = first :: rest.splitOn x := by
  by_cases h : x ∈ text
  · obtain ⟨first, rest, htext, hfirst⟩ := List.eq_append_cons_of_mem h
    refine .inr ⟨first, rest, hfirst, htext, ?_⟩
    rw [htext, List.splitOn_append_cons_self_of_not_mem hfirst]
  · exact .inl ⟨h, List.splitOn_eq_singleton h⟩

/-- Where the first separator of a text stands is determined by the text. -/
theorem append_separator_inj {x : α} {first first' rest rest' : List α} (h : x ∉ first)
    (h' : x ∉ first') (heq : first ++ x :: rest = first' ++ x :: rest') :
    first = first' ∧ rest = rest' := by
  have hcut := congrArg (List.splitOn x) heq
  rw [List.splitOn_append_cons_self_of_not_mem h,
    List.splitOn_append_cons_self_of_not_mem h'] at hcut
  obtain ⟨rfl, -⟩ := List.cons.inj hcut
  exact ⟨rfl, (List.cons.inj (List.append_cancel_left heq)).2⟩

/-- No field of a cut has the separator. -/
theorem not_mem_of_mem_splitOn {x : α} {text field : List α} (h : field ∈ text.splitOn x) :
    x ∉ field := by
  induction text generalizing field with
  | nil =>
    rw [List.splitOn_nil, List.mem_singleton] at h
    rw [h]
    exact List.not_mem_nil
  | cons a text ih =>
    rw [List.splitOn_cons_eq_if_modifyHead] at h
    split at h
    · rcases List.mem_cons.mp h with rfl | h
      · exact List.not_mem_nil
      · exact ih h
    · next ha =>
      obtain ⟨first, rest, hcut⟩ := List.exists_cons_of_ne_nil (List.splitOn_ne_nil x text)
      rw [hcut, List.modifyHead_cons] at h
      rcases List.mem_cons.mp h with rfl | h
      · refine fun hmem => ?_
        rcases List.mem_cons.mp hmem with rfl | hmem
        · exact ha (beq_self_eq_true x)
        · exact ih (hcut ▸ List.mem_cons_self) hmem
      · exact ih (hcut ▸ List.mem_cons_of_mem _ h)

/-- A join is cut into the cuts of its fields, one after the other. -/
theorem splitOn_intercalate_eq (x : α) {fields : List (List α)} (h : fields ≠ []) :
    ([x].intercalate fields).splitOn x = fields.flatMap (List.splitOn x) := by
  induction fields with
  | nil => exact absurd rfl h
  | cons f fields ih =>
    by_cases hne : fields = []
    · rw [hne, List.intercalate_singleton, List.flatMap_singleton]
    · rw [List.intercalate_cons_of_ne_nil hne, List.append_assoc, List.singleton_append,
        List.splitOn_append_cons_self, ih hne, List.flatMap_cons]

end Routing
