/-
  INCLUSION — a more specific route never hides a less specific one.

  If every path of one route is a path of another one, the first is not the less specific of the
  two.  So, of two routes in order, the later one keeps some path to itself.

  1. **Sample fields** (`Segment.sample`): every segment fits some field, and one with a variable
     fits fields as long as one likes.
  2. **One segment** (`rank_le_of_fits`): a literal fits one field only, and a mixed segment fits no
     field of one character; this is all that is needed to compare ranks.
  3. **The crux** (`ranks_eq_or_below`): along two lists of segments, the fields of the first ones
     and those of the rest can be chosen apart, since every segment has a sample.  A catch-all is
     told from the others by the fields that it can go on with.
  4. **Index routes** are the exception: their ranks have one literal more than what they match, so
     an index route comes after its parent, though both answer the same paths.
-/
import Routing.Proofs.Ranks
import Routing.Proofs.Compiled

namespace Routing

/-! ## Fitting -/

/-- The field fits the segment, as one that is no catch-all. -/
def Segment.Fits (s : Segment) (field : Text) : Prop := (s.captures? field).isSome

/-- The fields fit the segments. -/
def Fits (segments : List Segment) (fields : List Text) : Prop := (captures? segments fields).isSome

theorem Segment.fits_literal {s : Segment} (hv : s.var? = none) (field : Text) :
    s.Fits field ↔ field = s.literal := by
  unfold Segment.Fits Segment.captures?
  rw [hv]
  by_cases h : field = s.literal <;> simp [h]

theorem Segment.fits_var {s : Segment} {v : Variable} (hv : s.var? = some v) (field : Text) :
    s.Fits field ↔ ∃ value, value ≠ [] ∧ field = s.head ++ value ++ s.tail := by
  unfold Segment.Fits Segment.captures?
  rw [hv, Option.isSome_map, Option.isSome_iff_exists]
  exact exists_congr fun value => s.capture?_eq_some_iff field value

theorem not_fits_nil {segments : List Segment} (h : segments ≠ []) : ¬ Fits segments [] := by
  obtain ⟨s, rest, rfl⟩ := List.exists_cons_of_ne_nil h
  exact Bool.false_ne_true

theorem fits_nil {fields : List Text} : Fits [] fields ↔ fields = [] := by
  cases fields with
  | nil => exact ⟨fun _ => rfl, fun _ => rfl⟩
  | cons f fields => exact ⟨fun h => (nomatch h), fun h => (nomatch h)⟩

theorem fits_cons {s : Segment} (hk : s.kind ≠ .catchAll) (rest : List Segment) (f : Text)
    (fields : List Text) : Fits (s :: rest) (f :: fields) ↔ s.Fits f ∧ Fits rest fields := by
  unfold Fits Segment.Fits
  rw [captures?, if_neg hk]
  cases s.captures? f <;> simp

theorem fits_singleton {s : Segment} (hk : s.kind ≠ .catchAll) (f : Text) (fields : List Text) :
    Fits [s] (f :: fields) ↔ s.Fits f ∧ fields = [] := by
  rw [fits_cons hk, fits_nil]

theorem fits_catchAll {s : Segment} (hk : s.kind = .catchAll) (rest : List Segment) (f : Text)
    (fields : List Text) : Fits (s :: rest) (f :: fields) ↔
      ∃ value, value ≠ [] ∧ List.intercalate [separator] (f :: fields) = s.head ++ value := by
  unfold Fits
  rw [captures?, if_pos hk, Option.isSome_map, Option.isSome_iff_exists]
  exact exists_congr fun value => s.captureRest?_eq_some_iff _ value

/-- **A path fits a route exactly if its fields fit the segments.** -/
theorem Template.accepts_join {t : Template} (h : WellFormed t.segments) {fields : List Text}
    (hne : fields ≠ []) (hsep : ∀ f ∈ fields, separator ∉ f) :
    t.compile.accepts (separator :: List.intercalate [separator] fields)
      ↔ Fits t.compile.matchSegments fields := by
  rw [Route.accepts, Route.match?_cons t.compile_staticHead, if_pos rfl,
    List.splitOn_intercalate separator hsep hne, matchFrom_eq (t.wellFormed_matchSegments h),
    Option.isSome_map, Fits]

/-! ## Sample fields -/

/-- A text of `n` characters without a separator. -/
def filler (n : Nat) : Text := List.replicate n 'a'

theorem separator_not_mem_filler (n : Nat) : separator ∉ filler n :=
  fun h => absurd (List.eq_of_mem_replicate h) (by decide)

/-- A field that fits a segment: its text, or the ends around a value of `n + 1` characters. -/
def Segment.sample (s : Segment) (n : Nat) : Text :=
  match s.var? with
  | none => s.literal
  | some _ => s.head ++ filler (n + 1) ++ s.tail

theorem Segment.fits_sample (s : Segment) (n : Nat) : s.Fits (s.sample n) := by
  unfold Segment.sample
  cases hv : s.var? with
  | none => exact (s.fits_literal hv _).mpr rfl
  | some v => exact (s.fits_var hv _).mpr ⟨filler (n + 1), List.cons_ne_nil _ _, rfl⟩

theorem Segment.WellFormed.separator_not_mem_sample {s : Segment} (h : s.WellFormed) (n : Nat) :
    separator ∉ s.sample n := by
  unfold Segment.sample
  cases hv : s.var? with
  | none => exact h.separator_not_mem_literal
  | some v =>
    rw [List.mem_append, List.mem_append]
    rintro ((hmem | hmem) | hmem)
    · exact h.separator_not_mem_head hmem
    · exact separator_not_mem_filler _ hmem
    · exact h.separator_not_mem_tail hmem

theorem Segment.length_sample {s : Segment} {v : Variable} (hv : s.var? = some v) (n : Nat) :
    n < (s.sample n).length := by
  unfold Segment.sample
  rw [hv, List.length_append, List.length_append, filler, List.length_replicate]
  omega

/-- Fields that fit segments, one for each. -/
def samples (segments : List Segment) : List Text := segments.map (·.sample 0)

theorem separator_not_mem_samples {segments : List Segment} (h : WellFormed segments) :
    ∀ f ∈ samples segments, separator ∉ f := by
  intro f hf
  obtain ⟨s, hs, rfl⟩ := List.mem_map.mp hf
  exact (h.segment s hs).separator_not_mem_sample 0

/-- A catch-all fits a field that goes beyond its head, and goes on with any fields. -/
theorem fits_sample_catchAll {s : Segment} (hk : s.kind = .catchAll) (fields : List Text) :
    Fits [s] (s.sample 0 :: fields) := by
  obtain ⟨v, hv, -⟩ := s.kind_eq_catchAll_iff.mp hk
  have hsample : s.sample 0 = s.head ++ (filler 1 ++ s.tail) := by
    rw [Segment.sample, hv, List.append_assoc]
  rw [fits_catchAll hk, hsample]
  cases fields with
  | nil => exact ⟨filler 1 ++ s.tail, List.cons_ne_nil _ _, List.intercalate_singleton⟩
  | cons g fields =>
    rw [List.intercalate_cons_of_ne_nil (List.cons_ne_nil g fields), List.append_assoc,
      List.append_assoc]
    exact ⟨_, List.cons_ne_nil _ _, rfl⟩

theorem fits_samples {segments : List Segment} (h : WellFormed segments) :
    Fits segments (samples segments) := by
  refine WellFormed.induct ?last ?cons segments h
  case last =>
    intro s hs hr
    by_cases hk : s.kind = .catchAll
    · exact fits_sample_catchAll hk []
    · exact (fits_singleton hk _ []).mpr ⟨s.fits_sample 0, rfl⟩
  case cons =>
    intro s rest hs hr hrest ih
    exact (fits_cons (hs.noReserved_iff.mp hr) rest _ _).mpr ⟨s.fits_sample 0, ih⟩

/-! ## The ranks of two segments -/

/-- A variable alone has no fixed ends, and one in a mixed segment has at least one. -/
theorem Segment.WellFormed.ends {s : Segment} (h : s.WellFormed) :
    (s.kind = .free → s.head = [] ∧ s.tail = []) ∧
      (s.kind = .mixed → s.head ++ s.tail ≠ []) := by
  cases h.form with
  | text t span ht =>
    rw [(Segment.kind_eq_literal_iff _).mpr (Segment.var?_text t span)]
    exact ⟨fun h => (nomatch h), fun h => (nomatch h)⟩
  | around a sa v b sb ha hw hb =>
    rw [Segment.kind_around, Segment.head_around, Segment.tail_around]
    cases v.reserved <;> cases a <;> cases b <;> simp

theorem Segment.exists_var {s : Segment} (hk : s.kind ≠ .literal) : ∃ v, s.var? = some v := by
  rwa [← Option.ne_none_iff_exists', ne_eq, ← s.kind_eq_literal_iff]

/-- A mixed segment fits no field of one character. -/
theorem Segment.WellFormed.length_of_mixed {s : Segment} (h : s.WellFormed) (hk : s.kind = .mixed)
    {field : Text} (hf : s.Fits field) : 1 < field.length := by
  obtain ⟨v, hv⟩ := s.exists_var (by rw [hk]; decide)
  obtain ⟨value, hne, rfl⟩ := (s.fits_var hv field).mp hf
  have hends := List.length_pos_iff.mpr (h.ends.2 hk)
  have hvalue := List.length_pos_iff.mpr hne
  rw [List.length_append] at hends
  rw [List.length_append, List.length_append]
  omega

/-- A variable alone fits a field of one character. -/
theorem Segment.WellFormed.length_sample_of_free {s : Segment} (h : s.WellFormed)
    (hk : s.kind = .free) : (s.sample 0).length = 1 := by
  obtain ⟨v, hv⟩ := s.exists_var (by rw [hk]; decide)
  obtain ⟨hhead, htail⟩ := h.ends.1 hk
  rw [Segment.sample, hv, hhead, htail]
  rfl

theorem Kind.rank_le {k l : Kind} (hk : k ≠ .catchAll) (hliteral : l = .literal → k = .literal)
    (hmixed : l = .mixed → k ≠ .free) : k.rank ≤ l.rank := by
  revert hk hliteral hmixed
  cases k <;> cases l <;> decide

/-- **A segment that fits all fields of another one does not rank lower.** -/
theorem Segment.rank_le_of_fits {s t : Segment} (hs : s.WellFormed) (ht : t.WellFormed)
    (hk : s.kind ≠ .catchAll) (h : ∀ field, separator ∉ field → s.Fits field → t.Fits field) :
    s.rank ≤ t.rank := by
  have hsample : ∀ n, t.Fits (s.sample n) :=
    fun n => h _ (hs.separator_not_mem_sample n) (s.fits_sample n)
  refine Kind.rank_le hk (fun hkt => ?_) (fun hkt hfree => ?_)
  · rw [s.kind_eq_literal_iff, Option.eq_none_iff_forall_ne_some]
    intro v hv
    -- A sample longer than the only field that fits `t`.
    have heq := (t.fits_literal (t.kind_eq_literal_iff.mp hkt) _).mp (hsample t.literal.length)
    have hlen := s.length_sample hv t.literal.length
    rw [heq] at hlen
    exact Nat.lt_irrefl _ hlen
  · -- A sample of one character.
    have hlen := ht.length_of_mixed hkt (hsample 0)
    rw [hs.length_sample_of_free hfree] at hlen
    exact Nat.lt_irrefl _ hlen

/-! ## The ranks of two lists of segments -/

theorem Kind.rank_lt_catchAll {k : Kind} (hk : k ≠ .catchAll) : k.rank < Kind.catchAll.rank := by
  revert hk
  cases k <;> decide

theorem WellFormed.eq_nil_of_catchAll {s : Segment} {rest : List Segment}
    (h : WellFormed (s :: rest)) (hk : s.kind = .catchAll) : rest = [] := by
  by_cases hrest : rest = []
  · exact hrest
  · obtain ⟨hs, hr, -⟩ := (wellFormed_cons hrest).mp h
    exact absurd hk (hs.noReserved_iff.mp hr)

/-- All fields that fit `segments` fit `segments'`. -/
def Within (segments segments' : List Segment) : Prop :=
  ∀ fields, fields ≠ [] → (∀ f ∈ fields, separator ∉ f) → Fits segments fields →
    Fits segments' fields

theorem below_of_catchAll {s t : Segment} (hs : s.kind ≠ .catchAll) (ht : t.kind = .catchAll)
    (segments segments' : List Segment) :
    Below ((s :: segments).map Segment.rank) ((t :: segments').map Segment.rank) := by
  refine .head ?_
  rw [Segment.rank, Segment.rank, ht]
  exact Kind.rank_lt_catchAll hs

section
variable {s t : Segment} {rest rest' : List Segment}

/-- A catch-all fits one field and also two, which nothing else does at the end. -/
theorem not_within_of_catchAll (hs : s.WellFormed) (hks : s.kind = .catchAll)
    (hkt : t.kind ≠ .catchAll) : ¬ Within [s] (t :: rest') := by
  intro h
  have hsep := hs.separator_not_mem_sample 0
  have hone := h [s.sample 0] (List.cons_ne_nil _ _)
    (fun f hf => List.mem_singleton.mp hf ▸ hsep) (fits_sample_catchAll hks [])
  have htwo := h [s.sample 0, []] (List.cons_ne_nil _ _)
    (List.forall_mem_cons.mpr ⟨hsep, fun f hf => List.mem_singleton.mp hf ▸ List.not_mem_nil⟩)
    (fits_sample_catchAll hks [[]])
  have hnil := ((fits_cons hkt rest' _ _).mp hone).2
  have hmore := ((fits_cons hkt rest' _ _).mp htwo).2
  by_cases hrest : rest' = []
  · subst hrest
    exact absurd (fits_nil.mp hmore) (List.cons_ne_nil _ _)
  · exact absurd hnil (not_fits_nil hrest)

theorem Within.singleton (h : Within [s] (t :: rest')) (hs : s.WellFormed)
    (hks : s.kind ≠ .catchAll) (hkt : t.kind ≠ .catchAll) :
    rest' = [] ∧ ∀ f, separator ∉ f → s.Fits f → t.Fits f := by
  have hfield : ∀ f, separator ∉ f → s.Fits f → t.Fits f ∧ Fits rest' [] := by
    intro f hf hfits
    exact (fits_cons hkt rest' f []).mp (h [f] (List.cons_ne_nil f [])
      (fun g hg => List.mem_singleton.mp hg ▸ hf) ((fits_singleton hks f []).mpr ⟨hfits, rfl⟩))
  refine ⟨?_, fun f hf hfits => (hfield f hf hfits).1⟩
  by_cases hrest : rest' = []
  · exact hrest
  · have hnil := (hfield _ (hs.separator_not_mem_sample 0) (s.fits_sample 0)).2
    exact absurd hnil (not_fits_nil hrest)

/-- Fields for the first segment and fields for the rest can be chosen apart. -/
theorem Within.cons (h : Within (s :: rest) (t :: rest')) (hs : s.WellFormed)
    (hks : s.kind ≠ .catchAll) (hrest : WellFormed rest) (hkt : t.kind ≠ .catchAll) :
    rest' ≠ [] ∧ (∀ f, separator ∉ f → s.Fits f → t.Fits f) ∧ Within rest rest' := by
  have hfields : ∀ f fields, separator ∉ f → (∀ g ∈ fields, separator ∉ g) → s.Fits f →
      Fits rest fields → t.Fits f ∧ Fits rest' fields := by
    intro f fields hf hsep hfits hmore
    exact (fits_cons hkt rest' f fields).mp (h (f :: fields) (List.cons_ne_nil f fields)
      (List.forall_mem_cons.mpr ⟨hf, hsep⟩) ((fits_cons hks rest f fields).mpr ⟨hfits, hmore⟩))
  have hwithin : Within rest rest' := by
    intro fields _ hsep hfits
    exact (hfields _ fields (hs.separator_not_mem_sample 0) hsep (s.fits_sample 0) hfits).2
  have hsep := separator_not_mem_samples hrest
  have hne : samples rest ≠ [] := fun hnil => hrest.nonempty (List.map_eq_nil_iff.mp hnil)
  refine ⟨?_, ?_, hwithin⟩
  · rintro rfl
    exact hne (fits_nil.mp (hwithin _ hne hsep (fits_samples hrest)))
  · intro f hf hfits
    exact (hfields f _ hf hsep hfits (fits_samples hrest)).1

end

/-- **Segments that fit fewer fields rank alike, or before** at the first difference. -/
theorem ranks_eq_or_below {segments : List Segment} (h : WellFormed segments) :
    ∀ segments', WellFormed segments' → Within segments segments' →
      segments.map Segment.rank = segments'.map Segment.rank ∨
        Below (segments.map Segment.rank) (segments'.map Segment.rank) := by
  refine WellFormed.induct ?last ?cons segments h
  case last =>
    intro s hs hr segments' h' hwithin
    obtain ⟨t, rest', rfl⟩ := List.exists_cons_of_ne_nil h'.nonempty
    have ht := h'.segment t List.mem_cons_self
    by_cases hks : s.kind = .catchAll <;> by_cases hkt : t.kind = .catchAll
    · obtain rfl := h'.eq_nil_of_catchAll hkt
      left
      rw [List.map_singleton, List.map_singleton, Segment.rank, Segment.rank, hks, hkt]
    · exact absurd hwithin (not_within_of_catchAll hs hks hkt)
    · exact .inr (below_of_catchAll hks hkt [] rest')
    · obtain ⟨rfl, hfits⟩ := hwithin.singleton hs hks hkt
      rcases Nat.lt_or_eq_of_le (Segment.rank_le_of_fits hs ht hks hfits) with hlt | heq
      · exact .inr (.head hlt)
      · exact .inl (congrArg ([·]) heq)
  case cons =>
    intro s rest hs hr hrest ih segments' h' hwithin
    obtain ⟨t, rest', rfl⟩ := List.exists_cons_of_ne_nil h'.nonempty
    have ht := h'.segment t List.mem_cons_self
    have hks := hs.noReserved_iff.mp hr
    by_cases hkt : t.kind = .catchAll
    · exact .inr (below_of_catchAll hks hkt rest rest')
    · obtain ⟨hne, hfits, hmore⟩ := hwithin.cons hs hks hrest hkt
      rcases Nat.lt_or_eq_of_le (Segment.rank_le_of_fits hs ht hks hfits) with hlt | heq
      · exact .inr (.head hlt)
      · -- The first ranks tie, so the rest decides.
        rw [List.map_cons, List.map_cons, heq]
        rcases ih rest' ((wellFormed_cons hne).mp h').2.2 hmore with heq' | hbelow
        · exact .inl (congrArg _ heq')
        · exact .inr (.tail hbelow)

/-! ## The ranks of two routes -/

/-- The ranks of a route are those of the segments left for matching, and one more for an index that
    was dropped. -/
theorem Template.ranks_compile (t : Template) :
    ∃ more, t.compile.ranks = t.compile.matchSegments.map Segment.rank ++ more ∧
      (more = [] ∨ t.compile.isIndex = true ∧ more = [Kind.literal.rank]) := by
  show ∃ more, t.segments.map Segment.rank
      = (if t.last.isIndexName then withoutIndex t.segments else t.segments).map Segment.rank
        ++ more ∧ (more = [] ∨ t.last.isIndexName = true ∧ more = [Kind.literal.rank])
  by_cases hindex : t.last.isIndexName = true
  · have hlast : t.last.rank = Kind.literal.rank :=
      congrArg Kind.rank (of_decide_eq_true (Bool.and_eq_true_iff.mp hindex).1)
    have hranks := congrArg (List.map Segment.rank) t.segments_eq_concat
    rw [List.map_append, List.map_singleton, hlast] at hranks
    rw [if_pos hindex, hranks, withoutIndex]
    cases t.segments.dropLast with
    | nil => exact ⟨[], rfl, .inl rfl⟩
    | cons s front => exact ⟨[Kind.literal.rank], rfl, .inr ⟨hindex, rfl⟩⟩
  · rw [if_neg hindex]
    exact ⟨[], (List.append_nil _).symm, .inl rfl⟩

theorem Template.ranks_ne_nil (t : Template) : t.compile.ranks ≠ [] :=
  fun h => t.segments_ne_nil (List.map_eq_nil_iff.mp h)

/-- A template with just one rank more comes later. -/
theorem Template.compare_eq_gt {t : Template} {r : Route}
    (h : r.ranks = t.compile.ranks.dropLast) : t.compile.compare r = .gt := by
  have hconcat := compareRanks_append_cons r.ranks (t.compile.ranks.getLast t.ranks_ne_nil) []
  rw [h, List.dropLast_concat_getLast, ← h] at hconcat
  rw [Route.compare, ← compareRanks_swap, hconcat]
  rfl

/-- **More paths, not an earlier place**, for templates. -/
theorem Template.compare_of_accepts {t t' : Template} (h : WellFormed t.segments)
    (h' : WellFormed t'.segments)
    (hpaths : ∀ path, t.compile.accepts path → t'.compile.accepts path) :
    t.compile.compare t'.compile = .gt ↔
      t.compile.isIndex = true ∧ t'.compile.ranks = t.compile.ranks.dropLast := by
  have hwithin : Within t.compile.matchSegments t'.compile.matchSegments :=
    fun fields hne hsep hfits => (t'.accepts_join h' hne hsep).mp
      (hpaths _ ((t.accepts_join h hne hsep).mpr hfits))
  refine ⟨fun hgt => ?_, fun hexcept => t.compare_eq_gt hexcept.2⟩
  obtain ⟨more, hranks, hmore⟩ := t.ranks_compile
  obtain ⟨more', hranks', hmore'⟩ := t'.ranks_compile
  rw [Route.compare, hranks, hranks'] at hgt
  rcases ranks_eq_or_below (t.wellFormed_matchSegments h) _ (t'.wellFormed_matchSegments h') hwithin
    with heq | hbelow
  · -- What is left for matching ranks alike; the cases are which of the two has dropped an index.
    rw [heq, compareRanks_append_left] at hgt
    rcases hmore with rfl | ⟨hindex, rfl⟩ <;> rcases hmore' with rfl | ⟨-, rfl⟩
    · nomatch hgt
    · nomatch hgt
    · rw [hranks, hranks', heq, List.append_nil, List.dropLast_concat]
      exact ⟨hindex, rfl⟩
    · nomatch hgt
  · rw [hbelow.compareRanks_append] at hgt
    nomatch hgt

/-- **The order is sound for matching.**  If a route of a source answers every path of another one,
    it does not come before it, unless the other is an index route with just one rank more.  So the
    later of two routes, that exception apart, answers a path that the earlier one does not. -/
theorem Route.compare_sound {source source' : Text} {a b : Route}
    (ha : Route.compile source = .ok a) (hb : Route.compile source' = .ok b) :
    ((∀ path, a.accepts path → b.accepts path) →
      (a.compare b = .gt ↔ a.isIndex = true ∧ b.ranks = a.ranks.dropLast)) ∧
    (a.compare b = .lt → ¬ (b.isIndex = true ∧ a.ranks = b.ranks.dropLast) →
      ∃ path, b.accepts path ∧ ¬ a.accepts path) := by
  obtain ⟨t, hparse, rfl⟩ := Route.compile_eq_ok ha
  obtain ⟨t', hparse', rfl⟩ := Route.compile_eq_ok hb
  have h := (Template.parse_eq_ok hparse).2.1
  have h' := (Template.parse_eq_ok hparse').2.1
  refine ⟨Template.compare_of_accepts h h', fun hlt hexcept => ?_⟩
  by_cases hpaths : ∀ path, t'.compile.accepts path → t.compile.accepts path
  · have hgt : t'.compile.compare t.compile = .gt := by
      rw [Route.compare, ← compareRanks_swap, ← Route.compare, hlt]
      rfl
    exact absurd ((Template.compare_of_accepts h' h hpaths).mp hgt) hexcept
  · obtain ⟨path, hpath⟩ := Classical.not_forall.mp hpaths
    exact ⟨path, Classical.not_imp.mp hpath⟩

theorem Route.compare_sound_docs :
    (∃ a b, Route.compile "/docs/index".toList = .ok a ∧ Route.compile "/docs".toList = .ok b ∧
      (∀ path, a.accepts path → b.accepts path) ∧ a.compare b = .gt) ∧
    ∃ a b, Route.compile "/v\x7bx\x7d".toList = .ok a ∧ Route.compile "/\x7bx\x7d".toList = .ok b ∧
      ∃ path, b.accepts path ∧ ¬ a.accepts path := by
  constructor
  · have ha := @eq_ok_get _ _ (Route.compile "/docs/index".toList) (by decide)
    have hb := @eq_ok_get _ _ (Route.compile "/docs".toList) (by decide)
    refine ⟨_, _, ha, hb, ?hpaths, ((Route.compare_sound ha hb).1 ?hpaths).mpr (by decide)⟩
    intro path hpath
    exact Eq.mp (congrArg (fun m => (m path).isSome = true)
      (Route.match?_congr (by decide) (by decide))) hpath
  · have ha := @eq_ok_get _ _ (Route.compile "/v\x7bx\x7d".toList) (by decide)
    have hb := @eq_ok_get _ _ (Route.compile "/\x7bx\x7d".toList) (by decide)
    exact ⟨_, _, ha, hb, (Route.compare_sound ha hb).2 (by decide) (by decide)⟩

end Routing
