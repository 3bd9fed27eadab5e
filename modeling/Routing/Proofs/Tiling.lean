/-
  TILING — the spans of the tokens lie side by side in the source.

  1. **Pieces.**  A source is a row of pieces: a `/` before each segment, and the tokens of the
     segment.  Written one after the other they are the source (`spell_eq_pieces`).
  2. **Tiles.**  The pieces TILE the source if each token has the span at which its piece stands,
     counted from the lengths of the pieces before it.  The scanner places spans so
     (`Template.tiles_pieces`), and nothing else about spans is used.
  3. What a row that tiles tells: a span cuts its token's spelling out of the source, the spans
     come one after the other, and a position that no span covers is one of a `/` piece.  Each is an
     induction along the row, with the text before it held fixed.
-/
import Mathlib.Data.List.Chain
import Routing.Proofs.Parsing

namespace Routing

/-! ## Spans -/

/-- The span of a token, if it has one. -/
def Token.span? : Token → Option Span
  | .literal _ span => span
  | .var v => v.span

namespace Span

/-- The text at a span of a source. -/
def cut (s : Span) (source : Text) : Text := (source.drop s.start).take (s.stop - s.start)

/-- The span covers the position `i`. -/
def Covers (s : Span) (i : Nat) : Prop := s.start ≤ i ∧ i < s.stop

instance (s : Span) (i : Nat) : Decidable (s.Covers i) :=
  inferInstanceAs (Decidable (s.start ≤ i ∧ i < s.stop))

end Span

/-- None of the spans covers the position `i`. -/
def Uncovered (spans : List Span) (i : Nat) : Prop := ∀ s ∈ spans, ¬ s.Covers i

instance (spans : List Span) (i : Nat) : Decidable (Uncovered spans i) :=
  inferInstanceAs (Decidable (∀ s ∈ spans, ¬ s.Covers i))

namespace Template

/-- The tokens of all segments, in order. -/
def tokens (t : Template) : List Token := t.segments.flatMap Segment.tokens

/-- The spans of all tokens, in order. -/
def spans (t : Template) : List Span := t.tokens.filterMap Token.span?

end Template

/-- The positions of a source that none of the spans covers. -/
def gaps (source : Text) (spans : List Span) : List Nat :=
  (List.range source.length).filter (Uncovered spans ·)

/-! ## Pieces -/

/-- A piece of a source: the `/` before a segment, or a token of one. -/
inductive Piece where
  | slash
  | token (t : Token)

/-- A piece as a source spells it. -/
def Piece.spell : Piece → Text
  | .slash => [separator]
  | .token t => t.spell

/-- The span of a piece; a `/` has none. -/
def Piece.span? : Piece → Option Span
  | .slash => none
  | .token t => t.span?

/-- The text of a row of pieces. -/
def spellPieces (ps : List Piece) : Text := ps.flatMap Piece.spell

/-- The spans of a row of pieces, in order. -/
def spansOf (ps : List Piece) : List Span := ps.filterMap Piece.span?

/-- The pieces of a segment, its `/` first. -/
def Segment.pieces (g : Segment) : List Piece := .slash :: g.tokens.map .token

/-- The pieces of segments. -/
def pieces (segments : List Segment) : List Piece := segments.flatMap Segment.pieces

theorem spellPieces_tokens (ts : List Token) : spellPieces (ts.map .token) = spellTokens ts := by
  rw [spellPieces, List.flatMap_map]
  rfl

theorem spellPieces_cons (q : Piece) (ps : List Piece) :
    spellPieces (q :: ps) = q.spell ++ spellPieces ps := rfl

theorem spellPieces_append (ps qs : List Piece) :
    spellPieces (ps ++ qs) = spellPieces ps ++ spellPieces qs := List.flatMap_append

theorem Segment.spell_pieces (g : Segment) : spellPieces g.pieces = separator :: g.spell := by
  rw [Segment.pieces, spellPieces_cons, spellPieces_tokens]
  rfl

theorem exists_slash_cons {segments : List Segment} (h : segments ≠ []) :
    ∃ ps, pieces segments = .slash :: ps := by
  obtain ⟨g, rest, rfl⟩ := List.exists_cons_of_ne_nil h
  exact ⟨_, rfl⟩

/-- **A source is its pieces**, one after the other. -/
theorem spell_eq_pieces {segments : List Segment} (h : segments ≠ []) :
    spell segments = spellPieces (pieces segments) := by
  induction segments with
  | nil => exact absurd rfl h
  | cons g rest ih =>
    rw [pieces, List.flatMap_cons, spellPieces_append, g.spell_pieces]
    by_cases hrest : rest = []
    · subst hrest
      rw [spell_singleton]
      exact (List.append_nil _).symm
    · rw [spell_cons g hrest, ih hrest]
      rfl

theorem spansOf_pieces (segments : List Segment) :
    (segments.flatMap Segment.tokens).filterMap Token.span? = spansOf (pieces segments) := by
  induction segments with
  | nil => rfl
  | cons g rest ih =>
    have hg : g.tokens.filterMap Token.span? = spansOf g.pieces := by
      rw [Segment.pieces, spansOf, List.filterMap_cons_none rfl, List.filterMap_map]
      rfl
    rw [pieces, List.flatMap_cons, spansOf, List.filterMap_append, List.flatMap_cons,
      List.filterMap_append, ih, hg]
    rfl

/-! ## Tiles -/

/-- If the first piece stands at `p`, each token has the span at which its piece stands. -/
def Tiles : Nat → List Piece → Prop
  | _, [] => True
  | p, .slash :: ps => Tiles (p + 1) ps
  | p, .token t :: ps => t.span? = some ⟨p, p + t.spell.length⟩ ∧ Tiles (p + t.spell.length) ps

theorem tiles_append {p : Nat} {ps qs : List Piece} :
    Tiles p (ps ++ qs) ↔ Tiles p ps ∧ Tiles (p + (spellPieces ps).length) qs := by
  induction ps generalizing p with
  | nil => exact ⟨fun h => ⟨trivial, h⟩, fun h => h.2⟩
  | cons q ps ih =>
    rw [spellPieces_cons, List.length_append, ← Nat.add_assoc]
    cases q with
    | slash => exact ih
    | token t =>
      show _ ∧ Tiles _ (ps ++ qs) ↔ _
      rw [ih, ← and_assoc]
      rfl

theorem Token.spell_place (p : Nat) (t : Token) : (t.place p).spell = t.spell := by
  cases t <;> rfl

theorem Token.span?_place (p : Nat) (t : Token) :
    (t.place p).span? = some ⟨p, p + t.spell.length⟩ := by
  cases t <;> rfl

theorem spellTokens_placeTokens (p : Nat) (ts : List Token) :
    spellTokens (placeTokens p ts) = spellTokens ts := by
  induction ts generalizing p with
  | nil => rfl
  | cons t ts ih => rw [placeTokens, spellTokens_cons, spellTokens_cons, ih, Token.spell_place]

theorem tiles_placeTokens (p : Nat) (ts : List Token) :
    Tiles p ((placeTokens p ts).map .token) := by
  induction ts generalizing p with
  | nil => trivial
  | cons t ts ih =>
    show (t.place p).span? = some ⟨p, p + (t.place p).spell.length⟩ ∧ Tiles _ _
    rw [Token.spell_place]
    exact ⟨t.span?_place p, ih _⟩

theorem tiles_placeSegments (p : Nat) (segments : List Segment) :
    Tiles p (pieces (placeSegments (p + 1) segments)) := by
  induction segments generalizing p with
  | nil => trivial
  | cons g rest ih =>
    have hspell : (spellPieces (g.place (p + 1)).pieces).length = g.spell.length + 1 := by
      rw [Segment.spell_pieces, List.length_cons]
      exact congrArg (·.length + 1) (spellTokens_placeTokens (p + 1) g.tokens)
    rw [placeSegments, pieces, List.flatMap_cons, tiles_append, hspell]
    refine ⟨tiles_placeTokens (p + 1) g.tokens, ?_⟩
    have hnext : p + 1 + g.spell.length = p + (g.spell.length + 1) := by omega
    rw [hnext]
    exact ih _

/-- The scanner gives spans by position alone, so placing them again changes nothing. -/
theorem Template.segments_eq_place {source : Text} {t : Template} (h : parse source = .ok t) :
    t.segments = placeSegments 1 t.segments := by
  obtain ⟨-, hwell, hspell⟩ := parse_eq_ok h
  obtain ⟨t', hparse, -, hplace⟩ := parse_spell hwell
  rw [hspell, h] at hparse
  rw [← hplace, Except.ok.inj hparse]

/-- **The pieces of an accepted source tile it.** -/
theorem Template.tiles_pieces {source : Text} {t : Template} (h : parse source = .ok t) :
    Tiles 0 (pieces t.segments) := by
  rw [segments_eq_place h]
  exact tiles_placeSegments 0 t.segments

/-! ## What a row that tiles tells -/

theorem spansOf_token {t : Token} {s : Span} (h : t.span? = some s) (ps : List Piece) :
    spansOf (.token t :: ps) = s :: spansOf ps :=
  List.filterMap_cons_some h

/-- **A span cuts its token out of the source.** -/
theorem Tiles.cut {front : Text} {ps : List Piece} (h : Tiles front.length ps) {t : Token}
    (ht : .token t ∈ ps) :
    ∃ s, t.span? = some s ∧ front.length ≤ s.start ∧ s.stop = s.start + t.spell.length ∧
      s.stop ≤ (front ++ spellPieces ps).length ∧ s.cut (front ++ spellPieces ps) = t.spell := by
  induction ps generalizing front with
  | nil => nomatch ht
  | cons q ps ih =>
    -- The rest stands after the first piece, which joins the text before.
    have hrest : Tiles (front ++ q.spell).length ps → .token t ∈ ps →
        ∃ s, t.span? = some s ∧ front.length ≤ s.start ∧ s.stop = s.start + t.spell.length ∧
          s.stop ≤ (front ++ spellPieces (q :: ps)).length ∧
          s.cut (front ++ spellPieces (q :: ps)) = t.spell := by
      intro hps hmem
      obtain ⟨s, hs, hstart, hstop, hle, hcut⟩ := ih hps hmem
      rw [List.append_assoc, ← spellPieces_cons] at hle hcut
      rw [List.length_append] at hstart
      exact ⟨s, hs, by omega, hstop, hle, hcut⟩
    cases q with
    | slash =>
      rcases List.mem_cons.mp ht with hq | hmem
      · nomatch hq
      · apply hrest _ hmem
        rw [List.length_append]
        exact h
    | token u =>
      obtain ⟨hu, hps⟩ := h
      rcases List.mem_cons.mp ht with hq | hmem
      · obtain rfl : t = u := Piece.token.inj hq
        refine ⟨_, hu, Nat.le_refl _, rfl, ?_, ?_⟩
        · rw [spellPieces_cons, List.length_append, List.length_append]
          show front.length + t.spell.length ≤ front.length + (t.spell.length + _)
          omega
        · rw [Span.cut, List.drop_left, spellPieces_cons]
          show (t.spell ++ _).take (front.length + t.spell.length - front.length) = _
          rw [Nat.add_sub_cancel_left, List.take_left]
      · apply hrest _ hmem
        rw [List.length_append]
        exact hps

theorem Tiles.le_start {p : Nat} {ps : List Piece} (h : Tiles p ps) :
    ∀ s ∈ spansOf ps, p ≤ s.start := by
  induction ps generalizing p with
  | nil =>
    intro s hs
    nomatch hs
  | cons q ps ih =>
    cases q with
    | slash =>
      intro s hs
      have hle := ih h s hs
      omega
    | token t =>
      obtain ⟨ht, hps⟩ := h
      rw [spansOf_token ht, List.forall_mem_cons]
      refine ⟨Nat.le_refl p, ?_⟩
      intro s hs
      have hle := ih hps s hs
      omega

/-- **The spans come one after the other.** -/
theorem Tiles.ordered {p : Nat} {ps : List Piece} (h : Tiles p ps) :
    (spansOf ps).Pairwise fun a b => a.stop ≤ b.start := by
  induction ps generalizing p with
  | nil => exact .nil
  | cons q ps ih =>
    cases q with
    | slash => exact ih h
    | token t =>
      obtain ⟨ht, hps⟩ := h
      rw [spansOf_token ht]
      exact .cons hps.le_start (ih hps)

/-- Tokens with no `/` between them have spans that touch. -/
theorem Tiles.adjoin {p : Nat} {ts : List Token} (h : Tiles p (ts.map .token)) :
    ts.IsChain fun a b => ∃ s s', a.span? = some s ∧ b.span? = some s' ∧ s.stop = s'.start := by
  induction ts generalizing p with
  | nil => exact .nil
  | cons t ts ih =>
    obtain ⟨ht, hts⟩ := h
    cases ts with
    | nil => exact .singleton t
    | cons u us => exact .cons_cons ⟨_, _, ht, hts.1, rfl⟩ (ih hts)

theorem Tiles.exists_segment {p : Nat} {segments : List Segment} (h : Tiles p (pieces segments))
    {g : Segment} (hg : g ∈ segments) : ∃ q, Tiles q (g.tokens.map .token) := by
  obtain ⟨front, back, rfl⟩ := List.append_of_mem hg
  have hrow : pieces (front ++ g :: back)
      = pieces front ++ (.slash :: g.tokens.map .token) ++ pieces back := by
    rw [pieces, List.flatMap_append, List.flatMap_cons, List.append_assoc]
    rfl
  rw [hrow, tiles_append, tiles_append] at h
  obtain ⟨⟨-, hsegment⟩, -⟩ := h
  exact ⟨_, hsegment⟩

/-! ## Positions without a span -/

/-- **A position without a span holds a `/`.** -/
theorem Tiles.separator_of_uncovered {front : Text} {ps : List Piece} (h : Tiles front.length ps)
    {i : Nat} (hi : front.length ≤ i) (hlt : i < (front ++ spellPieces ps).length)
    (hno : Uncovered (spansOf ps) i) : (front ++ spellPieces ps)[i]? = some separator := by
  induction ps generalizing front with
  | nil =>
    rw [spellPieces, List.flatMap_nil, List.append_nil] at hlt
    omega
  | cons q ps ih =>
    rw [spellPieces_cons, ← List.append_assoc] at hlt ⊢
    cases q with
    | slash =>
      rcases Nat.lt_or_eq_of_le hi with hafter | rfl
      · refine ih ?_ ?_ hlt hno
        · rw [List.length_append]
          exact h
        · rw [List.length_append]
          exact hafter
      · rw [List.append_assoc, List.getElem?_append_right (Nat.le_refl _), Nat.sub_self]
        rfl
    | token t =>
      obtain ⟨ht, hps⟩ := h
      rw [spansOf_token ht] at hno
      obtain ⟨hfirst, hrest⟩ := List.forall_mem_cons.mp hno
      refine ih ?_ ?_ hlt hrest
      · rw [List.length_append]
        exact hps
      · rw [List.length_append]
        by_contra hbefore
        exact hfirst ⟨hi, Nat.lt_of_not_le hbefore⟩

/-- Whether a piece is the `/` before a segment. -/
def Piece.isSlash : Piece → Bool
  | .slash => true
  | .token _ => false

theorem countP_isSlash_pieces (segments : List Segment) :
    (pieces segments).countP Piece.isSlash = segments.length := by
  induction segments with
  | nil => rfl
  | cons g rest ih =>
    have hg : g.pieces.countP Piece.isSlash = 1 := by
      rw [Segment.pieces, List.countP_cons_of_pos rfl, List.countP_map]
      simp [Function.comp_def, Piece.isSlash]
    rw [pieces, List.flatMap_cons, List.countP_append, hg, ← pieces, ih, List.length_cons,
      Nat.add_comm]

theorem not_uncovered_cons {s : Span} {i : Nat} (h : s.Covers i) (spans : List Span) :
    ¬ Uncovered (s :: spans) i :=
  fun hno => hno s List.mem_cons_self h

theorem uncovered_cons_of_le {s : Span} {i : Nat} (h : s.stop ≤ i) (spans : List Span) :
    Uncovered (s :: spans) i ↔ Uncovered spans i := by
  rw [Uncovered, List.forall_mem_cons]
  refine and_iff_right ?_
  intro hcovers
  exact Nat.not_lt_of_le h hcovers.2

/-- No span reaches back to the position before the row. -/
theorem Tiles.uncovered {p : Nat} {ps : List Piece} (h : Tiles (p + 1) ps) :
    Uncovered (spansOf ps) p := by
  intro s hs hcovers
  have hafter := h.le_start s hs
  have hbefore := hcovers.1
  omega

/-- **There are as many positions without a span as there are `/` pieces.** -/
theorem Tiles.length_uncovered {p : Nat} {ps : List Piece} (h : Tiles p ps) :
    ((List.range' p (spellPieces ps).length).filter (Uncovered (spansOf ps) ·)).length
      = ps.countP Piece.isSlash := by
  induction ps generalizing p with
  | nil => rfl
  | cons q ps ih =>
    rw [spellPieces_cons, List.length_append, ← List.range'_append_1, List.filter_append,
      List.length_append]
    cases q with
    | slash =>
      have hps : Tiles (p + 1) ps := h
      have hfirst : (List.range' p 1).filter (Uncovered (spansOf ps) ·) = [p] :=
        List.filter_cons_of_pos (decide_eq_true hps.uncovered)
      have hrest := ih hps
      show ((List.range' p 1).filter (Uncovered (spansOf ps) ·)).length
        + ((List.range' (p + 1) _).filter (Uncovered (spansOf ps) ·)).length = _
      rw [hfirst, hrest, List.countP_cons_of_pos rfl]
      exact Nat.add_comm 1 _
    | token t =>
      obtain ⟨ht, hps⟩ := h
      have hrest := ih hps
      -- The positions of the token are covered by its span, and those after it are not.
      have hfirst : (List.range' p t.spell.length).filter
          (Uncovered (⟨p, p + t.spell.length⟩ :: spansOf ps) ·) = [] := by
        rw [List.filter_eq_nil_iff]
        intro i hi hno
        have hcovered : (Span.mk p (p + t.spell.length)).Covers i := List.mem_range'_1.mp hi
        exact not_uncovered_cons hcovered (spansOf ps) (of_decide_eq_true hno)
      have hafter : (List.range' (p + t.spell.length) (spellPieces ps).length).filter
            (Uncovered (⟨p, p + t.spell.length⟩ :: spansOf ps) ·)
          = (List.range' (p + t.spell.length) (spellPieces ps).length).filter
            (Uncovered (spansOf ps) ·) := by
        apply List.filter_congr
        intro i hi
        rw [decide_eq_decide]
        exact uncovered_cons_of_le (List.mem_range'_1.mp hi).1 (spansOf ps)
      rw [spansOf_token ht, List.countP_cons_of_neg (by simp [Piece.isSlash])]
      show ((List.range' p t.spell.length).filter _).length
        + ((List.range' (p + t.spell.length) _).filter _).length = _
      rw [hfirst, hafter, hrest]
      exact Nat.zero_add _

/-! ## Accepted sources -/

theorem Variable.spell_ne_nil (v : Variable) : v.spell ≠ [] := List.cons_ne_nil _ _

theorem Token.WellFormed.spell_ne_nil {t : Token} (h : t.WellFormed) : t.spell ≠ [] := by
  cases t with
  | literal t span => exact h.1
  | var v => exact v.spell_ne_nil

namespace Template

variable {source : Text} {t : Template}

theorem mem_pieces {token : Token} (h : token ∈ t.tokens) : .token token ∈ pieces t.segments := by
  obtain ⟨g, hg, ht⟩ := List.mem_flatMap.mp h
  refine List.mem_flatMap.mpr ⟨g, hg, ?_⟩
  exact List.mem_cons_of_mem _ (List.mem_map_of_mem ht)

/-- **A token of an accepted source** has a span, which cuts out what it spells. -/
theorem exists_span (h : parse source = .ok t) {token : Token} (htoken : token ∈ t.tokens) :
    ∃ s, token.span? = some s ∧ 1 ≤ s.start ∧ s.start < s.stop ∧ s.stop ≤ source.length ∧
      s.cut source = token.spell := by
  obtain ⟨-, hwell, rfl⟩ := parse_eq_ok h
  have htiles := tiles_pieces h
  obtain ⟨g, hg, hmem⟩ := List.mem_flatMap.mp htoken
  have hpos := List.length_pos_iff.mpr ((hwell.segment g hg).tokens token hmem).spell_ne_nil
  -- Every token stands behind the first `/`.
  obtain ⟨ps, hps⟩ := exists_slash_cons hwell.nonempty
  have hin : .token token ∈ ps := by
    have hall := mem_pieces htoken
    rw [hps] at hall
    rcases List.mem_cons.mp hall with hslash | hin
    · nomatch hslash
    · exact hin
  rw [hps] at htiles
  have htail : Tiles [separator].length ps := htiles
  obtain ⟨s, hs, hstart, hstop, hle, hcut⟩ := htail.cut hin
  rw [spell_eq_pieces hwell.nonempty, hps]
  exact ⟨s, hs, hstart, by omega, hle, hcut⟩

/-- **The spans of the tokens tile the source.**  Each token has a span, which is not empty, lies
    behind the first `/` and within the source, and cuts out what the token spells.  The spans come
    one after the other, and within a segment they touch.  Each position that no span covers holds a
    `/`, and there are as many of them as segments. -/
theorem spans_tile (h : parse source = .ok t) :
    (∀ token ∈ t.tokens, ∃ s, token.span? = some s ∧ 1 ≤ s.start ∧ s.start < s.stop ∧
      s.stop ≤ source.length ∧ s.cut source = token.spell) ∧
    t.spans.Pairwise (fun a b => a.stop ≤ b.start) ∧
    (∀ g ∈ t.segments, g.tokens.IsChain fun a b =>
      ∃ s s', a.span? = some s ∧ b.span? = some s' ∧ s.stop = s'.start) ∧
    (∀ i ∈ gaps source t.spans, source[i]? = some separator) ∧
    (gaps source t.spans).length = t.segments.length := by
  obtain ⟨-, hwell, hspell⟩ := parse_eq_ok h
  have htiles := tiles_pieces h
  have hsource : source = spellPieces (pieces t.segments) := by
    rw [← hspell]
    exact spell_eq_pieces hwell.nonempty
  have hspans : t.spans = spansOf (pieces t.segments) := spansOf_pieces t.segments
  refine ⟨?_, ?_, ?_, ?_, ?_⟩
  · intro token htoken
    exact exists_span h htoken
  · rw [hspans]
    exact htiles.ordered
  · intro g hg
    obtain ⟨p, hp⟩ := htiles.exists_segment hg
    exact hp.adjoin
  · intro i hi
    obtain ⟨hlt, hno⟩ := List.mem_filter.mp hi
    rw [List.mem_range, hsource] at hlt
    rw [hspans] at hno
    have hwhole : Tiles ([] : Text).length (pieces t.segments) := htiles
    rw [hsource]
    exact hwhole.separator_of_uncovered (Nat.zero_le i) hlt (of_decide_eq_true hno)
  · rw [gaps, hspans, List.range_eq_range', hsource, htiles.length_uncovered, countP_isSlash_pieces]

/-- In `/v{a/b}//{+c}` the positions 0, 7 and 8 have no span. -/
theorem spans_tile_slashes :
    let source := "/v\x7ba/b\x7d//\x7b+c\x7d".toList
    ∃ t, parse source = .ok t ∧ t.spans = [⟨1, 2⟩, ⟨2, 7⟩, ⟨9, 13⟩] ∧
      t.spans.Pairwise (fun a b => a.stop ≤ b.start) ∧ gaps source t.spans = [0, 7, 8] ∧
      (∀ i ∈ gaps source t.spans, source[i]? = some separator) ∧
      (gaps source t.spans).length = t.segments.length := by
  intro source
  have h := @eq_ok_get _ _ (parse source) (by decide)
  obtain ⟨-, hordered, -, hslash, hlen⟩ := spans_tile h
  exact ⟨_, h, by decide, hordered, by decide, hslash, hlen⟩

end Template

end Routing
