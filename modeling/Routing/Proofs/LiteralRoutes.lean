/-
  LITERAL ROUTES — a route without variables wins the path that it spells.

  1. **One path** (`Route.match?_of_literal`): literal segments fit the path that they spell and no
     other, and bind nothing.
  2. **The lowest ranks** (`eq_replicate_of_le`): ranks that are not above those of literal segments
     are zeros too, and no more of them.  So a route that comes before a literal one is literal, and
     not longer.
  3. **The crux** (`Template.spells_alike`): such a route spells the path that it matches, and so it
     is the same source, unless it is an index route.  An index route is one segment longer than its
     path, and so comes after it; only `/index` is not, since `/` has a segment, too.
-/
import Routing.Proofs.Compiled
import Routing.Proofs.Dispatch
import Routing.Proofs.Expansion

namespace Routing

/-! ## Literal segments and their text -/

/-- No segment has a variable. -/
def Literal (segments : List Segment) : Prop := ∀ s ∈ segments, s.var? = none

/-- A spelling without braces has no variable. -/
theorem literal_of_braceFree {segments : List Segment}
    (h : ∀ c ∈ spell segments, c ≠ openBrace ∧ c ≠ closeBrace) : Literal segments := by
  intro s hs
  rw [Option.eq_none_iff_forall_ne_some]
  intro v hv
  have hopen : openBrace ∈ s.spell :=
    List.mem_flatMap.mpr ⟨.var v, Segment.mem_of_var? hv, List.mem_cons_self⟩
  exact (h openBrace (mem_spell hs hopen)).1 rfl

/-- Literal segments are the fields of their spelling. -/
theorem splitOn_spell {segments : List Segment} (h : WellFormed segments)
    (hlit : Literal segments) :
    (spell segments).tail.splitOn separator = segments.map Segment.spell := by
  refine List.splitOn_intercalate separator (fun field hfield => ?_) (by simpa using h.nonempty)
  obtain ⟨s, hs, rfl⟩ := List.mem_map.mp hfield
  rw [(h.segment s hs).spell_eq_literal (hlit s hs)]
  exact (h.segment s hs).separator_not_mem_literal

/-- Literal segments that are spelled alike are equally many. -/
theorem length_eq_of_spell_eq {segments segments' : List Segment} (h : WellFormed segments)
    (h' : WellFormed segments') (hlit : Literal segments) (hlit' : Literal segments')
    (heq : spell segments = spell segments') : segments.length = segments'.length := by
  have hfields : segments.map Segment.spell = segments'.map Segment.spell := by
    rw [← splitOn_spell h hlit, ← splitOn_spell h' hlit', heq]
  simpa using congrArg List.length hfields

/-! ## Literal routes match what they spell -/

theorem Literal.occurrences_eq {segments : List Segment} (h : Literal segments) :
    occurrences segments = [] := by
  rw [occurrences, List.flatMap_eq_nil_iff]
  intro s hs
  exact List.filterMap_eq_nil_iff.mpr (List.findSome?_eq_none_iff.mp (h s hs))

/-- Without variables there is nothing to fill in. -/
theorem Literal.expand_eq {segments : List Segment} (h : Literal segments)
    (hwell : ∀ s ∈ segments, s.WellFormed) : expand segments [] = spell segments := by
  have hfill : fillSegments segments [] = segments.map Segment.spell := by
    induction segments with
    | nil => rfl
    | cons s rest ih =>
      rw [Literal, List.forall_mem_cons] at h
      rw [List.forall_mem_cons] at hwell
      rw [fillSegments, List.take_nil, List.drop_nil, ih h.2 hwell.2, List.map_cons,
        hwell.1.fill_literal h.1, hwell.1.spell_eq_literal h.1]
  rw [expand, hfill, spell]

/-- **Literal segments fit one path**, and bind nothing. -/
theorem Route.match?_of_literal {source : Text} {r : Route} (h : Route.compile source = .ok r)
    (hlit : Literal r.matchSegments) (path : Text) (b : Bindings) :
    r.match? path = some b ↔ path = spell r.matchSegments ∧ b = [] := by
  obtain ⟨t, hparse, rfl⟩ := Route.compile_eq_ok h
  have hwell := Template.wellFormed_matchSegments (Template.parse_eq_ok hparse).2.1
  have hexpand := hlit.expand_eq hwell.segment
  have hnames : occurrenceNames t.compile.matchSegments = [] :=
    congrArg (List.map Variable.name) hlit.occurrences_eq
  rw [Route.match?_eq_some_iff h, hlit.occurrences_eq, hnames]
  constructor
  · rintro ⟨values, hassign, hpath, rfl⟩
    obtain rfl : values = [] := List.forall₂_nil_left_iff.mp hassign
    exact ⟨hpath.symm.trans hexpand, rfl⟩
  · rintro ⟨rfl, rfl⟩
    exact ⟨[], .nil, hexpand, rfl⟩

theorem Template.literal_matchSegments {t : Template} (h : Literal t.segments) :
    Literal t.compile.matchSegments := by
  show Literal (if t.last.isIndexName then withoutIndex t.segments else t.segments)
  split
  · unfold withoutIndex
    split
    · exact fun s hs => List.mem_singleton.mp hs ▸ rfl
    · exact fun s hs => h s (List.dropLast_subset _ hs)
  · exact h

/-! ## Ranks that are all zero -/

theorem Segment.rank_eq_zero_iff (s : Segment) : s.rank = 0 ↔ s.var? = none := by
  rw [← s.kind_eq_literal_iff, rank]
  cases s.kind <;> decide

theorem literal_iff_ranks (segments : List Segment) :
    Literal segments ↔ segments.map Segment.rank = List.replicate segments.length 0 := by
  rw [List.eq_replicate_iff, List.length_map, List.forall_mem_map]
  simp only [Segment.rank_eq_zero_iff, true_and, Literal]

/-- Nothing is below zeros but fewer zeros. -/
theorem eq_replicate_of_le {n : Nat} {xs : List Nat} (h : xs ≤ List.replicate n 0) :
    xs.length ≤ n ∧ xs = List.replicate xs.length 0 := by
  rw [← not_lt] at h
  induction n generalizing xs with
  | zero =>
    cases xs with
    | nil => exact ⟨le_refl _, rfl⟩
    | cons x xs => exact absurd (List.nil_lt_cons x xs) h
  | succ n ih =>
    cases xs with
    | nil => exact ⟨Nat.zero_le _, rfl⟩
    | cons x xs =>
      rw [List.replicate_succ, List.cons_lt_cons_iff, not_or] at h
      obtain rfl : x = 0 := Nat.eq_zero_of_not_pos h.1
      obtain ⟨hlen, hzero⟩ := ih fun hlt => h.2 ⟨rfl, hlt⟩
      exact ⟨Nat.succ_le_succ hlen, congrArg (0 :: ·) hzero⟩

/-- **What comes before literal segments is literal**, and not longer. -/
theorem Literal.of_ranks_le {segments segments' : List Segment} (h : Literal segments)
    (hle : segments'.map Segment.rank ≤ segments.map Segment.rank) :
    Literal segments' ∧ segments'.length ≤ segments.length := by
  rw [(literal_iff_ranks segments).mp h] at hle
  obtain ⟨hlen, hzero⟩ := eq_replicate_of_le hle
  rw [List.length_map] at hlen hzero
  exact ⟨(literal_iff_ranks segments').mpr hzero, hlen⟩

/-! ## Index routes -/

namespace Template

theorem spell_last_of_isIndexName {t : Template} (h : WellFormed t.segments)
    (hindex : t.last.isIndexName = true) : t.last.spell = indexName := by
  obtain ⟨hkind, hname⟩ := Bool.and_eq_true_iff.mp hindex
  have hvar := t.last.kind_eq_literal_iff.mp (of_decide_eq_true hkind)
  have hlast := h.segment t.last (List.getLast_mem t.segments_ne_nil)
  rw [hlast.spell_eq_literal hvar, of_decide_eq_true hname]

/-- An index template ends with `/index`. -/
theorem suffix_of_isIndexName {t : Template} (h : WellFormed t.segments)
    (hindex : t.last.isIndexName = true) : separator :: indexName <:+ spell t.segments := by
  rw [t.segments_eq_concat, ← spell_last_of_isIndexName h hindex]
  exact spell_concat t.segments.dropLast t.last

/-- A template that does not end with `/index` is matched as it stands. -/
theorem matchSegments_of_not_suffix {t : Template} (h : WellFormed t.segments)
    (hindex : ¬ separator :: indexName <:+ spell t.segments) :
    t.compile.matchSegments = t.segments :=
  if_neg fun hlast => hindex (suffix_of_isIndexName h hlast)

/-- **A literal template that answers the path of another one, and is not longer, spells it**,
    unless it is `/index`. -/
theorem spells_alike {t t' : Template} (h : WellFormed t.segments) (h' : WellFormed t'.segments)
    (hlit : Literal t.segments) (hlit' : Literal t'.segments)
    (hlen : t'.segments.length ≤ t.segments.length)
    (heq : spell t.segments = spell t'.compile.matchSegments) :
    spell t'.segments = spell t.segments ∨
      spell t.segments = [separator] ∧ spell t'.segments = separator :: indexName := by
  have hmatch : t'.compile.matchSegments
      = if t'.last.isIndexName then withoutIndex t'.segments else t'.segments := rfl
  by_cases hindex : t'.last.isIndexName = true
  · rw [hmatch, if_pos hindex, withoutIndex] at heq
    split at heq
    · next hnil =>
      right
      refine ⟨heq, ?_⟩
      rw [t'.segments_eq_concat, hnil, List.nil_append, spell_singleton,
        spell_last_of_isIndexName h' hindex]
    · next hne =>
      -- The other template would have a segment less than itself.
      have hdrop := length_eq_of_spell_eq h (h'.dropLast hne) hlit
        (fun s hs => hlit' s (List.dropLast_subset _ hs)) heq
      have hpos := List.length_pos_iff.mpr t'.segments_ne_nil
      rw [List.length_dropLast] at hdrop
      omega
  · rw [hmatch, if_neg hindex] at heq
    exact .inl heq.symm

end Template

/-! ## Dispatch -/

/-- What is paired with a thing of the first list is in the second one. -/
theorem exists_of_mem_forall₂ {α β : Type} {R : α → β → Prop} {xs : List α} {ys : List β}
    (h : List.Forall₂ R xs ys) {x : α} (hx : x ∈ xs) : ∃ y ∈ ys, R x y := by
  induction h with
  | nil => exact absurd hx List.not_mem_nil
  | cons hr _ ih =>
    rcases List.mem_cons.mp hx with rfl | hx
    · exact ⟨_, List.mem_cons_self, hr⟩
    · obtain ⟨y, hy, hxy⟩ := ih hx
      exact ⟨y, List.mem_cons_of_mem _ hy, hxy⟩

namespace Route

/-- Sources that are all accepted have their routes. -/
theorem exists_routes (sources : List Text)
    (h : ∀ source ∈ sources, (compile source).toOption.isSome = true) :
    ∃ routes, List.Forall₂ (fun source r => compile source = .ok r) sources routes := by
  induction sources with
  | nil => exact ⟨[], .nil⟩
  | cons source rest ih =>
    rw [List.forall_mem_cons] at h
    obtain ⟨routes, hroutes⟩ := ih h.2
    exact ⟨_, .cons (eq_ok_get h.1) hroutes⟩

/-- **An exact literal route always wins.**  If a path without braces, which does not end with
    `/index`, is one of the sources, then a dispatch finds a route with this source, and nothing is
    bound; for `/` it may be the route `/index` as well. -/
theorem exact_dispatch (sources : List Text) (routes : List Route)
    (hroutes : List.Forall₂ (fun source r => compile source = .ok r) sources routes)
    (path : Text) (hbrace : ∀ c ∈ path, c ≠ openBrace ∧ c ≠ closeBrace)
    (hindex : ¬ separator :: indexName <:+ path) (hmem : path ∈ sources) :
    ∃ r, dispatch? routes path = some (r, []) ∧
      (r.raw = path ∨ path = [separator] ∧ r.raw = "/index".toList) := by
  obtain ⟨own, hown, hcompile⟩ := exists_of_mem_forall₂ hroutes hmem
  obtain ⟨t, hparse, rfl⟩ := compile_eq_ok hcompile
  obtain ⟨-, hwell, rfl⟩ := Template.parse_eq_ok hparse
  have hlit := literal_of_braceFree hbrace
  have hself : t.compile.match? (spell t.segments) = some [] := by
    rw [match?_of_literal hcompile (Template.literal_matchSegments hlit),
      Template.matchSegments_of_not_suffix hwell hindex]
    exact ⟨rfl, rfl⟩
  cases hd : dispatch? routes (spell t.segments) with
  | none => nomatch ((dispatch?_eq_none_iff _ _).mp hd _ hown).symm.trans hself
  | some found =>
    obtain ⟨r, b⟩ := found
    obtain ⟨hr, hb, hleast⟩ := ranks_le_of_dispatch? hd
    obtain ⟨source, -, hsource⟩ := exists_of_mem_forall₂ hroutes.flip hr
    obtain ⟨t', hparse', rfl⟩ := compile_eq_ok hsource
    obtain ⟨hraw, hwell', hspell⟩ := Template.parse_eq_ok hparse'
    -- The route that is found does not rank above the one that spells the path.
    have haccepts : t.compile.accepts (spell t.segments) := (match?_isSome_iff _ _).mpr ⟨_, hself⟩
    obtain ⟨hlit', hlen⟩ := hlit.of_ranks_le (hleast t.compile hown haccepts)
    obtain ⟨hpath, rfl⟩ :=
      (match?_of_literal hsource (Template.literal_matchSegments hlit') _ b).mp hb
    have hraw' : t'.compile.raw = spell t'.segments := hraw.trans hspell.symm
    exact ⟨_, rfl, hraw' ▸ Template.spells_alike hwell hwell' hlit hlit' hlen hpath⟩

/-- The route `/a/b` wins its path from a variable, a catch-all and an index route. -/
theorem exact_dispatch_index :
    ∃ routes, List.Forall₂ (fun source r => compile source = .ok r)
        ["/a/\x7bx\x7d".toList, "/a/b/index".toList, "/\x7b+y\x7d".toList, "/a/b".toList] routes ∧
      ∃ r, dispatch? routes "/a/b".toList = some (r, []) ∧ r.raw = "/a/b".toList := by
  obtain ⟨routes, hroutes⟩ := exists_routes
    ["/a/\x7bx\x7d".toList, "/a/b/index".toList, "/\x7b+y\x7d".toList, "/a/b".toList] (by decide)
  have hbrace : "/a/b".toList.all fun c => c ≠ openBrace ∧ c ≠ closeBrace := by decide
  obtain ⟨r, hd, hr⟩ := exact_dispatch _ routes hroutes "/a/b".toList
    (fun c hc => of_decide_eq_true (List.all_eq_true.mp hbrace c hc)) (by decide) (by decide)
  exact ⟨routes, hroutes, r, hd, hr.resolve_right fun h => absurd h.1 (by decide)⟩

end Route

end Routing
