/-
  EXPANSION — the paths that segments stand for.

  A path fits segments if it is what they become when each variable is replaced by a value.  This
  file says so without looking at how a path is matched, and proves that matching decides it.

  1. **Values** (`Assigns`): one text for each variable, not empty, and without `/` unless the
     variable is reserved.
  2. **Expansion** (`expand`): the segments with the values written in, a `/` before each.
  3. **The crux** (`captures?_eq_some_iff`): the values that the matcher takes from the fields of a
     text are the values whose expansion the text is.  Because taking is a function, such values are
     unique.  The induction is along the segments; at each of them the text either has no separator
     or is cut at the first one, and a segment that is not a catch-all never reaches beyond it.
-/
import Mathlib.Data.List.Forall2
import Routing.Proofs.Compiled

namespace Routing

/-! ## Values and expansions -/

/-- `value` is a text that the variable `v` can stand for. -/
def Variable.Admits (v : Variable) (value : Text) : Prop :=
  value ≠ [] ∧ (v.reserved = false → separator ∉ value)

/-- `values` are texts that the variables `vs` can stand for, one for each. -/
def Assigns (vs : List Variable) (values : List Text) : Prop :=
  List.Forall₂ Variable.Admits vs values

/-- The text of tokens with values in place of the variables, from left to right. -/
def fillTokens : List Token → List Text → Text
  | [], _ => []
  | .literal t _ :: ts, values => t ++ fillTokens ts values
  | .var _ :: ts, [] => fillTokens ts []
  | .var _ :: ts, value :: values => value ++ fillTokens ts values

/-- The texts of segments with values in place of the variables, from left to right. -/
def fillSegments : List Segment → List Text → List Text
  | [], _ => []
  | s :: rest, values =>
    let n := (occurrences [s]).length
    fillTokens s.tokens (values.take n) :: fillSegments rest (values.drop n)

/-- The **expansion of segments** by values for their variables. -/
def expand (segments : List Segment) (values : List Text) : Text :=
  separator :: List.intercalate [separator] (fillSegments segments values)

theorem assigns_append {vs ws : List Variable} {values : List Text} :
    Assigns (vs ++ ws) values ↔
      Assigns vs (values.take vs.length) ∧ Assigns ws (values.drop vs.length) := by
  induction vs generalizing values with
  | nil => simp [Assigns]
  | cons v vs ih =>
    cases values with
    | nil => simp [Assigns]
    | cons value values =>
      have := @ih values
      simp only [Assigns] at this
      simp [Assigns, this, and_assoc]

theorem Assigns.length {vs : List Variable} {values : List Text} (h : Assigns vs values) :
    values.length = vs.length :=
  h.length_eq.symm

/-! ## One segment -/

theorem fillTokens_fixed (t : Text) (span : Option Span) (ts : List Token) (values : List Text) :
    fillTokens (fixed t span ++ ts) values = t ++ fillTokens ts values := by
  cases t <;> rfl

/-- A segment without a variable is its fixed text, whatever the values are. -/
theorem Segment.WellFormed.fill_literal {s : Segment} (h : s.WellFormed) (hv : s.var? = none)
    (values : List Text) : fillTokens s.tokens values = s.literal := by
  cases h.form with
  | text t span ht =>
    have hfill := fillTokens_fixed t span [] values
    rw [List.append_nil, fillTokens, List.append_nil] at hfill
    rwa [Segment.literal_text]
  | around a sa v b sb ha hw hb =>
    rw [Segment.var?_around] at hv
    nomatch hv

/-- A segment with a variable is its value between the two fixed ends. -/
theorem Segment.WellFormed.fill_value {s : Segment} (h : s.WellFormed) {v : Variable}
    (hv : s.var? = some v) (value : Text) :
    fillTokens s.tokens [value] = s.head ++ value ++ s.tail := by
  cases h.form with
  | text t span ht =>
    rw [Segment.var?_text] at hv
    nomatch hv
  | around a sa v b sb ha hw hb =>
    have hfill := fillTokens_fixed b sb [] []
    rw [List.append_nil, fillTokens, List.append_nil] at hfill
    rw [Segment.head_around, Segment.tail_around, fillTokens_fixed, fillTokens, hfill,
      List.append_assoc]

/-- **One segment takes a value exactly if the value fills it**, in a field without separator. -/
theorem Segment.captures?_eq_some_iff {s : Segment} (h : s.WellFormed) (hr : NoReserved s.tokens)
    {field : Text} (hf : separator ∉ field) (values : List Text) :
    s.captures? field = some values ↔
      Assigns (occurrences [s]) values ∧ fillTokens s.tokens values = field := by
  rw [h.occurrences_eq]
  unfold Segment.captures?
  cases hv : s.var? with
  | none =>
    simp only [Assigns, Option.toList_none, List.forall₂_nil_left_iff, h.fill_literal hv]
    constructor
    · intro hcap
      split at hcap
      · next heq => exact ⟨(Option.some.inj hcap).symm, heq.symm⟩
      · nomatch hcap
    · rintro ⟨rfl, rfl⟩
      exact if_pos rfl
  | some v =>
    have hres : v.reserved = false := hr _ (Segment.mem_of_var? hv)
    simp only [Assigns, Option.toList_some, List.forall₂_cons_left_iff, List.forall₂_nil_left_iff,
      Option.map_eq_some_iff, Segment.capture?_eq_some_iff]
    constructor
    · rintro ⟨value, ⟨hne, rfl⟩, rfl⟩
      have hsep : separator ∉ value := fun hmem => hf (by simp [hmem])
      exact ⟨⟨value, [], ⟨hne, fun _ => hsep⟩, rfl, rfl⟩, h.fill_value hv value⟩
    · rintro ⟨⟨value, rest, ⟨hne, -⟩, rfl, rfl⟩, rfl⟩
      exact ⟨value, ⟨hne, h.fill_value hv value⟩, rfl⟩

/-- A segment that is no catch-all becomes a text without separator. -/
theorem Segment.not_mem_fillTokens {s : Segment} (h : s.WellFormed) (hr : NoReserved s.tokens)
    {values : List Text} (hvalues : Assigns (occurrences [s]) values) :
    separator ∉ fillTokens s.tokens values := by
  rw [h.occurrences_eq] at hvalues
  cases hv : s.var? with
  | none =>
    rw [h.fill_literal hv values]
    exact h.separator_not_mem_literal
  | some v =>
    have hres : v.reserved = false := hr _ (Segment.mem_of_var? hv)
    rw [hv] at hvalues
    obtain ⟨value, rest, ⟨-, hsep⟩, hrest, rfl⟩ := List.forall₂_cons_left_iff.mp hvalues
    obtain rfl := List.forall₂_nil_left_iff.mp hrest
    rw [h.fill_value hv value, List.mem_append, List.mem_append]
    rintro ((hmem | hmem) | hmem)
    · exact h.separator_not_mem_head hmem
    · exact hsep hres hmem
    · exact h.separator_not_mem_tail hmem

/-- **A catch-all takes a value exactly if the value fills it**, whatever the text is. -/
theorem Segment.captureRest?_eq_some_iff_fill {s : Segment} (h : s.WellFormed)
    (hr : NoReserved s.tokens.dropLast) (hk : s.kind = .catchAll) (text : Text)
    (values : List Text) :
    (s.captureRest? text).map ([·]) = some values ↔
      Assigns (occurrences [s]) values ∧ fillTokens s.tokens values = text := by
  obtain ⟨v, hv, hres⟩ := s.kind_eq_catchAll_iff.mp hk
  have htail : s.tail = [] := h.tail_eq_nil hr hv hres
  have hfill : ∀ value, fillTokens s.tokens [value] = s.head ++ value := by
    intro value
    rw [h.fill_value hv value, htail, List.append_nil]
  rw [h.occurrences_eq, hv]
  simp only [Assigns, Option.toList_some, List.forall₂_cons_left_iff, List.forall₂_nil_left_iff,
    Option.map_eq_some_iff, Segment.captureRest?_eq_some_iff]
  constructor
  · rintro ⟨value, ⟨hne, rfl⟩, rfl⟩
    refine ⟨⟨value, [], ⟨hne, fun hfalse => ?_⟩, rfl, rfl⟩, hfill value⟩
    exact absurd (hfalse.symm.trans hres) Bool.false_ne_true
  · rintro ⟨⟨value, rest, ⟨hne, -⟩, rfl, rfl⟩, rfl⟩
    exact ⟨value, ⟨hne, hfill value⟩, rfl⟩

/-! ## All segments -/

theorem fillSegments_ne_nil {segments : List Segment} (h : segments ≠ []) (values : List Text) :
    fillSegments segments values ≠ [] := by
  cases segments with
  | nil => exact absurd rfl h
  | cons s rest => exact List.cons_ne_nil _ _

/-- One segment is filled by the values that fill its tokens. -/
theorem assigns_fill_singleton (s : Segment) (values : List Text) (body : Text) :
    Assigns (occurrences [s]) values ∧
        List.intercalate [separator] (fillSegments [s] values) = body ↔
      Assigns (occurrences [s]) values ∧ fillTokens s.tokens values = body := by
  refine and_congr_right fun h => ?_
  have hfill : fillSegments [s] values = [fillTokens s.tokens values] := by
    rw [fillSegments, ← h.length, List.take_length, fillSegments]
  rw [hfill, List.intercalate_singleton]

theorem intercalate_fillSegments_cons (s : Segment) {rest : List Segment} (hne : rest ≠ [])
    (values : List Text) :
    List.intercalate [separator] (fillSegments (s :: rest) values)
      = fillTokens s.tokens (values.take (occurrences [s]).length) ++ separator ::
        List.intercalate [separator]
          (fillSegments rest (values.drop (occurrences [s]).length)) := by
  rw [fillSegments, List.intercalate_cons_of_ne_nil (fillSegments_ne_nil hne _),
    List.append_assoc, List.singleton_append]

/-- The final segment takes values from a text exactly if they fill it. -/
theorem captures?_singleton_eq_some_iff {s : Segment} (hs : s.WellFormed)
    (hr : NoReserved s.tokens.dropLast) (body : Text) (values : List Text) :
    captures? [s] (body.splitOn separator) = some values ↔
      Assigns (occurrences [s]) values ∧ fillTokens s.tokens values = body := by
  obtain ⟨f, fields, hfields⟩ := List.exists_cons_of_ne_nil (List.splitOn_ne_nil separator body)
  rw [hfields, captures?_singleton, ← hfields]
  by_cases hk : s.kind = .catchAll
  · rw [if_pos hk, List.intercalate_splitOn]
    exact Segment.captureRest?_eq_some_iff_fill hs hr hk body values
  · have hno := hs.noReserved_iff.mpr hk
    rw [if_neg hk]
    rcases splitOn_cases separator body with ⟨hsep, hone⟩ | ⟨first, rest, -, hbody, hmany⟩
    · rw [hone] at hfields
      obtain ⟨rfl, rfl⟩ := List.cons.inj hfields
      rw [if_pos rfl]
      exact Segment.captures?_eq_some_iff hs hno hsep values
    · -- A text with a separator is more than one field, and more than this segment can be.
      rw [hmany] at hfields
      obtain ⟨rfl, rfl⟩ := List.cons.inj hfields
      rw [if_neg (List.splitOn_ne_nil separator rest)]
      constructor
      · exact fun hnone => absurd hnone (by simp)
      · rintro ⟨hvalues, rfl⟩
        refine absurd ?_ (Segment.not_mem_fillTokens hs hno hvalues)
        rw [hbody]
        simp

/-- **The matcher takes values from a text exactly if the text is their expansion.** -/
theorem captures?_eq_some_iff {segments : List Segment} (h : WellFormed segments) :
    ∀ (body : Text) (values : List Text),
      captures? segments (body.splitOn separator) = some values ↔
        Assigns (occurrences segments) values ∧
          List.intercalate [separator] (fillSegments segments values) = body := by
  refine WellFormed.induct ?last ?cons segments h
  case last =>
    intro s hs hr body values
    rw [assigns_fill_singleton]
    exact captures?_singleton_eq_some_iff hs hr body values
  case cons =>
    intro s rest hs hr hrest ih body values
    have hk := hs.noReserved_iff.mp hr
    have hfill := intercalate_fillSegments_cons s hrest.nonempty values
    obtain ⟨t, more, rfl⟩ := List.exists_cons_of_ne_nil hrest.nonempty
    rcases splitOn_cases separator body with ⟨hsep, hone⟩ | ⟨first, text, hsep, rfl, hmany⟩
    · -- A text without a separator is one field, and these segments need two.
      rw [hone, captures?, if_neg hk]
      constructor
      · intro hsome
        obtain ⟨_, -, hnone⟩ := Option.bind_eq_some_iff.mp hsome
        cases hnone
      · rintro ⟨-, rfl⟩
        refine absurd ?_ hsep
        rw [hfill]
        simp
    · -- Both texts are cut at their first separator.
      rw [hmany, captures?, if_neg hk, occurrences_cons, assigns_append, hfill]
      constructor
      · intro hsome
        obtain ⟨vs, hvs, hmap⟩ := Option.bind_eq_some_iff.mp hsome
        obtain ⟨ws, hws, rfl⟩ := Option.map_eq_some_iff.mp hmap
        obtain ⟨hassign, hhead⟩ := (Segment.captures?_eq_some_iff hs hr hsep vs).mp hvs
        obtain ⟨hassign', htext⟩ := (ih text ws).mp hws
        rw [← hassign.length, List.take_left, List.drop_left, hhead, htext]
        exact ⟨⟨hassign, hassign'⟩, rfl⟩
      · rintro ⟨⟨hassign, hassign'⟩, heq⟩
        obtain ⟨hhead, htext⟩ :=
          append_separator_inj (Segment.not_mem_fillTokens hs hr hassign) hsep heq
        have hvs := (Segment.captures?_eq_some_iff hs hr hsep _).mpr ⟨hassign, hhead⟩
        have hws := (ih text _).mpr ⟨hassign', htext⟩
        rw [hvs, Option.bind_some, hws, Option.map_some, List.take_append_drop]

/-! ## Routes -/

/-- Only the last variable of well-formed segments can be reserved. -/
theorem WellFormed.reserved_last {segments : List Segment} (h : WellFormed segments) :
    ∀ v ∈ (occurrences segments).dropLast, v.reserved = false := by
  refine WellFormed.induct ?last ?cons segments h
  case last =>
    intro s hs hr v hv
    have hnil : (occurrences [s]).dropLast = [] := by
      rw [hs.occurrences_eq]
      cases s.var? <;> rfl
    rw [hnil] at hv
    exact absurd hv List.not_mem_nil
  case cons =>
    intro s rest hs hr hrest ih v hv
    have hfirst : ∀ w ∈ occurrences [s], w.reserved = false := by
      intro w hw
      rw [hs.occurrences_eq, Option.mem_toList] at hw
      exact hr _ (Segment.mem_of_var? hw)
    rw [occurrences_cons, List.dropLast_append] at hv
    split at hv
    · exact hfirst v (List.dropLast_subset _ hv)
    · rcases List.mem_append.mp hv with hv | hv
      · exact hfirst v hv
      · exact ih v hv

/-- The matcher answers a path with the values whose expansion it is. -/
theorem Route.match?_eq_some_iff {source : Text} {r : Route} (h : Route.compile source = .ok r)
    (path : Text) (b : Bindings) :
    r.match? path = some b ↔
      ∃ values, Assigns (occurrences r.matchSegments) values ∧
        expand r.matchSegments values = path ∧
        b = Assoc.ofPairs ((occurrenceNames r.matchSegments).zip values) := by
  obtain ⟨t, hparse, rfl⟩ := Route.compile_eq_ok h
  have hwell := Template.wellFormed_matchSegments (Template.parse_eq_ok hparse).2.1
  cases path with
  | nil =>
    constructor
    · exact fun hnone => nomatch hnone
    · rintro ⟨values, -, hpath, -⟩
      nomatch hpath
  | cons c body =>
    rw [Route.match?_cons t.compile_staticHead, matchFrom_eq hwell]
    by_cases hc : c = separator
    · subst hc
      rw [if_pos rfl, Option.map_eq_some_iff]
      refine exists_congr fun values => ?_
      rw [captures?_eq_some_iff hwell body values, and_assoc]
      refine and_congr_right fun _ => and_congr ?_ eq_comm
      exact ⟨fun h => congrArg (separator :: ·) h, fun h => (List.cons.inj h).2⟩
    · rw [if_neg hc]
      constructor
      · exact fun hnone => nomatch hnone
      · rintro ⟨values, -, hpath, -⟩
        exact absurd (List.cons.inj hpath).1.symm hc

/-- The values whose expansion a path is are unique. -/
theorem expand_injective {segments : List Segment} (h : WellFormed segments)
    {values values' : List Text} (hvalues : Assigns (occurrences segments) values)
    (hvalues' : Assigns (occurrences segments) values')
    (heq : expand segments values = expand segments values') : values = values' := by
  have hbody := (List.cons.inj heq).2
  have h₁ := (captures?_eq_some_iff h _ values).mpr ⟨hvalues, hbody⟩
  have h₂ := (captures?_eq_some_iff h _ values').mpr ⟨hvalues', rfl⟩
  exact Option.some.inj (h₁.symm.trans h₂)

/-- **Matching decides expansion.**  A route of a source answers exactly the paths that are
    expansions of its segments, by values that are unique; the names that it binds are its
    variables' names, each once, and a name has the value of its rightmost occurrence.  A variable
    that may stand for a text with `/` is the last one. -/
theorem Route.matching_iff_expand (source : Text) (r : Route) (h : Route.compile source = .ok r)
    (path : Text) :
    (∀ v ∈ (occurrences r.matchSegments).dropLast, v.reserved = false) ∧
    ((r.match? path).isSome ↔
      ∃ values, Assigns (occurrences r.matchSegments) values ∧
        expand r.matchSegments values = path) ∧
    (∀ values values', Assigns (occurrences r.matchSegments) values →
      expand r.matchSegments values = path → Assigns (occurrences r.matchSegments) values' →
      expand r.matchSegments values' = path → values = values') ∧
    ∀ b values, r.match? path = some b → Assigns (occurrences r.matchSegments) values →
      expand r.matchSegments values = path →
      b.keys.Nodup ∧ (∀ name, name ∈ b.keys ↔ name ∈ r.names) ∧
        ∀ name, b.lookup name
          = ((occurrenceNames r.matchSegments).zip values).reverse.lookup name := by
  obtain ⟨t, hparse, rfl⟩ := Route.compile_eq_ok h
  have hsource := (Template.parse_eq_ok hparse).2.1
  have hwell := Template.wellFormed_matchSegments hsource
  refine ⟨hwell.reserved_last, ?_, ?_, ?_⟩
  · rw [Option.isSome_iff_exists]
    constructor
    · rintro ⟨b, hb⟩
      obtain ⟨values, hvalues, hpath, -⟩ := (Route.match?_eq_some_iff h path b).mp hb
      exact ⟨values, hvalues, hpath⟩
    · rintro ⟨values, hvalues, hpath⟩
      exact ⟨_, (Route.match?_eq_some_iff h path _).mpr ⟨values, hvalues, hpath, rfl⟩⟩
  · intro values values' hvalues hpath hvalues' hpath'
    exact expand_injective hwell hvalues hvalues' (hpath.trans hpath'.symm)
  · intro b values hb hvalues hpath
    obtain ⟨values', hvalues', hpath', rfl⟩ := (Route.match?_eq_some_iff h path b).mp hb
    obtain rfl := expand_injective hwell hvalues hvalues' (hpath.trans hpath'.symm)
    have hfst : ((occurrenceNames t.compile.matchSegments).zip values).map Prod.fst
        = occurrenceNames t.compile.matchSegments := by
      have hlen : (occurrenceNames t.compile.matchSegments).length = values.length := by
        rw [occurrenceNames, List.length_map, hvalues.length]
      exact List.map_fst_zip (Nat.le_of_eq hlen)
    refine ⟨Assoc.nodup_keys_putAll _ List.nodup_nil, fun name => ?_, fun name => ?_⟩
    · rw [Template.names_compile hsource, Assoc.ofPairs, Assoc.mem_keys_putAll, hfst]
      exact ⟨fun h => h.resolve_left List.not_mem_nil, .inr⟩
    · rw [Assoc.ofPairs, Assoc.lookup_putAll, List.lookup_nil, Option.or_none]

theorem Route.matching_iff_expand_repeated :
    ∃ r, Route.compile "/\x7bx\x7d/\x7bx\x7d.b/c\x7b+x\x7d".toList = .ok r ∧
      ∃ b, r.match? "/1/2.b/c3/4".toList = some b ∧ b.lookup ['x'] = some "3/4".toList := by
  have hr :=
    @eq_ok_get _ _ (Route.compile "/\x7bx\x7d/\x7bx\x7d.b/c\x7b+x\x7d".toList) (by decide)
  obtain ⟨-, -, -, hbound⟩ := Route.matching_iff_expand _ _ hr "/1/2.b/c3/4".toList
  obtain ⟨-, -, hlookup⟩ := hbound [(['x'], "3/4".toList)]
    ["1".toList, "2".toList, "3/4".toList] (by decide +kernel)
    (.cons ⟨by decide, by decide⟩
      (.cons ⟨by decide, by decide⟩ (.cons ⟨by decide, by decide⟩ .nil)))
    (by decide +kernel)
  exact ⟨_, hr, _, by decide +kernel, hlookup ['x']⟩

end Routing
