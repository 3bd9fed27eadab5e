/-
  INDEX ROUTES — a template that ends with `/index` answers for its parent path.

  1. **By the text** (`Template.isIndexName_iff`): the last segment is the text `index` exactly if
     the source ends with `/index`.  A `/index` cannot end inside a variable, for a variable ends
     with a brace; both endings are compared from the right.
  2. **Appending `/index`** (`Template.parse_append_index`): an accepted source that does not end in
     a catch-all goes on as if it were alone, with one literal segment more.
  3. **One reduction only**: that segment is dropped for matching and nothing else is.  So the index
     route of a source is matched by all segments of the source, an `index` among them included.
-/
import Routing.Proofs.Concatenation
import Routing.Proofs.LiteralRoutes

namespace Routing

/-! ## Index segments -/

theorem Segment.var?_of_isIndexName {g : Segment} (h : g.isIndexName = true) : g.var? = none := by
  obtain ⟨hkind, -⟩ := Bool.and_eq_true_iff.mp h
  exact g.kind_eq_literal_iff.mp (of_decide_eq_true hkind)

theorem Segment.rank_of_isIndexName {g : Segment} (h : g.isIndexName = true) :
    g.rank = Kind.literal.rank :=
  g.rank_eq_zero_iff.mpr (var?_of_isIndexName h)

/-- The text `index`, as one literal, is an index segment. -/
theorem isIndexName_fixed (span : Option Span) :
    (Segment.mk (fixed indexName span)).isIndexName = true := rfl

theorem withoutIndex_concat {front : List Segment} (hne : front ≠ []) (g : Segment) :
    withoutIndex (front ++ [g]) = front := by
  unfold withoutIndex
  rw [List.dropLast_concat]
  split
  · exact absurd rfl hne
  · rfl

namespace Template

/-- **An index template is one whose source ends with `/index`.** -/
theorem isIndexName_iff {t : Template} (h : WellFormed t.segments) :
    t.last.isIndexName = true ↔ separator :: indexName <:+ spell t.segments := by
  refine ⟨suffix_of_isIndexName h, ?_⟩
  intro hsuffix
  have hspelled : separator :: t.last.spell <:+ spell t.segments := by
    rw [t.segments_eq_concat]
    exact spell_concat t.segments.dropLast t.last
  have hlast := h.segment t.last (List.getLast_mem t.segments_ne_nil)
  have hname : separator ∉ indexName := by decide
  generalize t.last = g at hspelled hlast
  cases hlast.form with
  | text a span ha =>
    have htext : (Segment.mk (fixed a span)).spell = a := spellTokens_fixed a span
    rw [htext] at hspelled
    have hplain : separator ∉ a := fun hmem => (ha _ hmem).1 rfl
    have heq := eq_of_cons_suffix hsuffix hspelled hplain hname
    obtain rfl : indexName = a := (List.cons.inj heq).2
    exact isIndexName_fixed span
  | around a sa v b sb ha hv hb =>
    -- The text behind the last brace is plain, and would end with `/index`.
    have hclose : closeBrace :: b <:+ (Segment.mk (fixed a sa ++ .var v :: fixed b sb)).spell := by
      refine ⟨a ++ openBrace :: ((if v.reserved then [reservedMarker] else []) ++ v.name), ?_⟩
      simp [Segment.spell, Token.spell, Variable.spell]
    have hbrace := hclose.trans ((List.suffix_cons separator _).trans hspelled)
    have hplain : separator ∉ b := fun hmem => (hb _ hmem).1 rfl
    have heq := eq_of_cons_suffix hsuffix hbrace hplain (by decide)
    exact absurd (List.cons.inj heq).1 (by decide)

/-! ## Appending `/index` -/

theorem exists_index : ∃ t, parse (separator :: indexName) = .ok t ∧
    t.segments = [⟨[.literal indexName (some ⟨1, 6⟩)]⟩] :=
  ⟨_, @eq_ok_get _ _ (parse (separator :: indexName)) (by decide), by decide⟩

/-- **A source without a final catch-all can be followed by `/index`.** -/
theorem parse_append_index {source : Text} {t : Template} (h : parse source = .ok t)
    (hlast : t.last.kind ≠ .catchAll) :
    ∃ u g, parse (source ++ separator :: indexName) = .ok u ∧ u.segments = t.segments ++ [g] ∧
      g.isIndexName = true := by
  obtain ⟨t', hindex, hsegments⟩ := exists_index
  have hwhole := parse_append h hlast indexName
  rw [hindex] at hwhole
  refine ⟨_, _, hwhole, ?_, isIndexName_fixed (some ⟨t.raw.length + 1, t.raw.length + 6⟩)⟩
  rw [segments_append, hsegments]
  rfl

section
variable {t u : Template} {g : Segment} (hu : u.segments = t.segments ++ [g])
  (hg : g.isIndexName = true)
include hu hg

/-- **One reduction only**: what is matched is all that stands before the last `/index`. -/
theorem matchSegments_append_index : u.compile.matchSegments = t.segments := by
  have hindex : u.last.isIndexName = true := by rwa [last_eq_of_concat hu]
  show (if u.last.isIndexName then withoutIndex u.segments else u.segments) = t.segments
  rw [if_pos hindex, hu, withoutIndex_concat t.segments_ne_nil]

theorem ranks_append_index : u.compile.ranks = t.compile.ranks ++ [Kind.literal.rank] := by
  show u.segments.map Segment.rank = t.segments.map Segment.rank ++ [Kind.literal.rank]
  rw [hu, List.map_append, List.map_singleton, Segment.rank_of_isIndexName hg]

theorem names_append_index : u.compile.names = t.compile.names := by
  show variableNames u.segments = variableNames t.segments
  rw [hu, variableNames, List.filterMap_append, List.filterMap_cons,
    Segment.var?_of_isIndexName hg]
  exact List.append_nil _

end

theorem hasCatchAll_compile (t : Template) :
    t.compile.hasCatchAll = false ↔ t.last.kind ≠ .catchAll := by
  show t.segments.getLast?.any (·.kind = .catchAll) = false ↔ _
  rw [t.segments_eq_concat, List.getLast?_concat]
  simp

end Template

/-! ## Index routes -/

namespace Route

theorem compile_of_parse {source : Text} {t : Template} (h : Template.parse source = .ok t) :
    compile source = .ok t.compile := by
  rw [compile, h]
  rfl

/-- The route `/index` answers for the root, and for nothing else. -/
theorem match?_index : ∃ r, compile (separator :: indexName) = .ok r ∧
    ∀ path b, r.match? path = some b ↔ path = [separator] ∧ b = [] := by
  obtain ⟨r, h, hsegments⟩ :
      ∃ r, compile (separator :: indexName) = .ok r ∧ r.matchSegments = [⟨[]⟩] :=
    ⟨_, @eq_ok_get _ _ (compile (separator :: indexName)) (by decide), by decide⟩
  refine ⟨r, h, ?_⟩
  intro path b
  have hlit : Literal r.matchSegments := by
    intro s hs
    rw [hsegments] at hs
    rw [List.mem_singleton.mp hs]
    rfl
  rw [match?_of_literal h hlit, hsegments]
  rfl

/-- **The index convention.**  A route is an index route exactly if its source ends with `/index`.
    A source without a catch-all can be followed by `/index`, which ranks as one literal more.  If
    the source did not end with `/index` before, the route answers as before, with the same values,
    head and names.  If it did, the new route answers the paths that all segments of the source
    stand for, its `index` taken as a literal.  The route `/index` answers the path `/` alone. -/
theorem index_convention :
    (∀ source r, compile source = .ok r →
      (r.isIndex = true ↔ separator :: indexName <:+ source)) ∧
    (∀ source r, compile source = .ok r → r.hasCatchAll = false →
      ∃ r', compile (source ++ separator :: indexName) = .ok r' ∧
        r'.ranks = r.ranks ++ [Kind.literal.rank] ∧
        (¬ separator :: indexName <:+ source →
          (∀ path, r'.match? path = r.match? path) ∧ r'.staticHead = r.staticHead ∧
            r'.names = r.names) ∧
        (separator :: indexName <:+ source → ∀ path b, r'.match? path = some b ↔
          ∃ values, Assigns (occurrences r.segments) values ∧ expand r.segments values = path ∧
            b = Assoc.ofPairs ((occurrenceNames r.segments).zip values))) ∧
    ∃ r, compile (separator :: indexName) = .ok r ∧
      ∀ path b, r.match? path = some b ↔ path = [separator] ∧ b = [] := by
  refine ⟨?_, ?_, match?_index⟩
  · intro source r h
    obtain ⟨t, hparse, rfl⟩ := compile_eq_ok h
    obtain ⟨-, hwell, rfl⟩ := Template.parse_eq_ok hparse
    exact Template.isIndexName_iff hwell
  · intro source r h hcatchAll
    obtain ⟨t, hparse, rfl⟩ := compile_eq_ok h
    obtain ⟨-, hwell, hspell⟩ := Template.parse_eq_ok hparse
    obtain ⟨u, g, hu, hsegments, hg⟩ :=
      Template.parse_append_index hparse (t.hasCatchAll_compile.mp hcatchAll)
    have hmatch := Template.matchSegments_append_index hsegments hg
    refine ⟨u.compile, compile_of_parse hu, Template.ranks_append_index hsegments hg, ?_, ?_⟩
    · intro hindex
      rw [← hspell] at hindex
      have hsame : u.compile.matchSegments = t.compile.matchSegments :=
        hmatch.trans (Template.matchSegments_of_not_suffix hwell hindex).symm
      have hhead : u.compile.staticHead = t.compile.staticHead := congrArg Routing.staticHead hsame
      refine ⟨?_, hhead, Template.names_append_index hsegments hg⟩
      intro path
      rw [match?_congr hhead hsame]
    · intro _ path b
      rw [match?_eq_some_iff (compile_of_parse hu), hmatch]
      rfl

/-- The sources `/a/{index}`, which does not end with `/index`, and `/docs/index`, which does. -/
theorem index_convention_twice :
    (∃ r r', compile "/a/\x7bindex\x7d".toList = .ok r ∧ r.isIndex = false ∧
      compile ("/a/\x7bindex\x7d".toList ++ separator :: indexName) = .ok r' ∧
      r'.ranks = [0, 2, 0] ∧ ∀ path, r'.match? path = r.match? path) ∧
    ∃ r r', compile "/docs/index".toList = .ok r ∧ r.isIndex = true ∧
      compile ("/docs/index".toList ++ separator :: indexName) = .ok r' ∧
      r'.match? "/docs/index".toList = some [] := by
  obtain ⟨hindex, happend, -⟩ := index_convention
  constructor
  · have h := @eq_ok_get _ _ (compile "/a/\x7bindex\x7d".toList) (by decide)
    obtain ⟨r', h', hranks, hsame, -⟩ := happend _ _ h (by decide)
    obtain ⟨hmatch, -, -⟩ := hsame (by decide)
    refine ⟨_, r', h, by decide, h', ?_, hmatch⟩
    rw [hranks]
    decide
  · have h := @eq_ok_get _ _ (compile "/docs/index".toList) (by decide)
    obtain ⟨r', h', -, -, hliteral⟩ := happend _ _ h (by decide)
    refine ⟨_, r', h, (hindex _ _ h).mpr (by decide), h', ?_⟩
    rw [hliteral (by decide)]
    exact ⟨[], .nil, by decide, by decide⟩

end Route

end Routing
