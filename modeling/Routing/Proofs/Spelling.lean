/-
  SPELLING — the text that segments stand for, and which segments a source can spell.

  A scan goes from a source to segments; this file goes back.

  1. **Spelling** writes fixed text as it is, a variable between its braces, and a `/` before each
     segment.  It does not look at spans.
  2. **Placing** puts the spans back: a token's span is known from the lengths of the spellings
     before it, so spans say nothing that the tokens do not say.
  3. **Well-formed segments** are those that a source can spell: a segment has at most one variable,
     with at most one literal on each side; literals and names hold no character that would be read
     otherwise; and a reserved variable is the very last token.
  4. **The form of a segment** (`Segment.Form`) folds the six token lists into two: a fixed text, or
     a variable between two fixed texts, any of which may be empty.  Proofs about well-formed
     segments go by these two cases, and by `WellFormed.induct` along a list.
-/
import Routing.Pattern.Template

namespace Routing

/-! ## Spelling -/

/-- A variable as a source spells it. -/
def Variable.spell (v : Variable) : Text :=
  openBrace :: ((if v.reserved then [reservedMarker] else []) ++ v.name ++ [closeBrace])

/-- A token as a source spells it. -/
def Token.spell : Token → Text
  | .literal t _ => t
  | .var v => v.spell

/-- The spelling of a run of tokens. -/
def spellTokens (tokens : List Token) : Text := tokens.flatMap Token.spell

/-- A segment as a source spells it, without the `/` before it. -/
def Segment.spell (s : Segment) : Text := spellTokens s.tokens

/-- The **spelling of segments**: a `/`, and the spellings of the segments joined by `/`. -/
def spell (segments : List Segment) : Text :=
  separator :: List.intercalate [separator] (segments.map Segment.spell)

@[simp] theorem spellTokens_nil : spellTokens [] = [] := rfl

@[simp] theorem spellTokens_cons (t : Token) (ts : List Token) :
    spellTokens (t :: ts) = t.spell ++ spellTokens ts := by
  simp [spellTokens]

@[simp] theorem spellTokens_append (ts us : List Token) :
    spellTokens (ts ++ us) = spellTokens ts ++ spellTokens us := by
  simp [spellTokens]

theorem spell_singleton (s : Segment) : spell [s] = separator :: s.spell := by
  rw [spell, List.map_singleton, List.intercalate_singleton]

theorem spell_cons (s : Segment) {rest : List Segment} (hne : rest ≠ []) :
    spell (s :: rest) = separator :: s.spell ++ spell rest := by
  rw [spell, List.map_cons, List.intercalate_cons_of_ne_nil (by simpa using hne), spell]
  simp

theorem mem_spell {segments : List Segment} {s : Segment} (hs : s ∈ segments) {c : Char}
    (hc : c ∈ s.spell) : c ∈ spell segments := by
  induction segments with
  | nil => exact absurd hs List.not_mem_nil
  | cons g rest ih =>
    by_cases hne : rest = []
    · subst hne
      obtain rfl := List.mem_singleton.mp hs
      rw [spell_singleton]
      exact List.mem_cons_of_mem _ hc
    · rw [spell_cons g hne]
      rcases List.mem_cons.mp hs with rfl | hs
      · exact List.mem_append_left _ (List.mem_cons_of_mem _ hc)
      · exact List.mem_append_right _ (ih hs)

/-- The last segment is spelled at the end, after its `/`. -/
theorem spell_concat (front : List Segment) (s : Segment) :
    separator :: s.spell <:+ spell (front ++ [s]) := by
  induction front with
  | nil => simp only [List.nil_append, spell_singleton, List.suffix_rfl]
  | cons g rest ih =>
    rw [List.cons_append, spell_cons g (by simp)]
    exact ih.trans (List.suffix_append _ _)

/-! ## Spans: dropping them and placing them -/

/-- A token without its span. -/
def Token.bare : Token → Token
  | .literal t _ => .literal t none
  | .var v => .var { v with span := none }

/-- A segment without spans. -/
def Segment.bare (s : Segment) : Segment := ⟨s.tokens.map Token.bare⟩

/-- A token with the span that it has if its spelling begins at `p`. -/
def Token.place (p : Nat) : Token → Token
  | .literal t _ => .literal t (some ⟨p, p + t.length⟩)
  | .var v => .var { v with span := some ⟨p, p + v.spell.length⟩ }

/-- Tokens with the spans that they have if the first one begins at `p`. -/
def placeTokens : Nat → List Token → List Token
  | _, [] => []
  | p, t :: ts => t.place p :: placeTokens (p + t.spell.length) ts

/-- A segment with the spans that it has if it begins at `p`. -/
def Segment.place (p : Nat) (s : Segment) : Segment := ⟨placeTokens p s.tokens⟩

/-- Segments with the spans that they have if the first one begins at `p`. -/
def placeSegments : Nat → List Segment → List Segment
  | _, [] => []
  | p, s :: rest => s.place p :: placeSegments (p + s.spell.length + 1) rest

theorem Token.bare_place (p : Nat) (t : Token) : (t.place p).bare = t.bare := by
  cases t <;> rfl

theorem map_bare_placeTokens (p : Nat) (ts : List Token) :
    (placeTokens p ts).map Token.bare = ts.map Token.bare := by
  induction ts generalizing p with
  | nil => rfl
  | cons t ts ih => rw [placeTokens, List.map_cons, List.map_cons, Token.bare_place, ih]

theorem map_bare_placeSegments (p : Nat) (segments : List Segment) :
    (placeSegments p segments).map Segment.bare = segments.map Segment.bare := by
  induction segments generalizing p with
  | nil => rfl
  | cons s rest ih =>
    have hs : (s.place p).bare = s.bare := congrArg Segment.mk (map_bare_placeTokens p s.tokens)
    rw [placeSegments, List.map_cons, List.map_cons, hs, ih]

/-! ## Well-formed segments -/

/-- A character that stands for itself outside a variable. -/
def IsPlain (c : Char) : Prop := c ≠ separator ∧ c ≠ openBrace ∧ c ≠ closeBrace

instance (c : Char) : Decidable (IsPlain c) :=
  inferInstanceAs (Decidable (c ≠ separator ∧ c ≠ openBrace ∧ c ≠ closeBrace))

/-- A variable that a source can spell. -/
structure Variable.WellFormed (v : Variable) : Prop where
  nonempty : v.name ≠ []
  braceFree : ∀ c ∈ v.name, c ≠ openBrace ∧ c ≠ closeBrace
  /-- The name of a variable that is not reserved does not begin with the mark of those that are. -/
  unmarked : v.reserved = false → v.name.head? ≠ some reservedMarker

instance (v : Variable) : Decidable v.WellFormed :=
  -- Along the name, and not over all characters.
  have : Decidable (∀ c ∈ v.name, c ≠ openBrace ∧ c ≠ closeBrace) := List.decidableBAll _ _
  decidable_of_iff
    (v.name ≠ [] ∧ (∀ c ∈ v.name, c ≠ openBrace ∧ c ≠ closeBrace) ∧
      (v.reserved = false → v.name.head? ≠ some reservedMarker))
    ⟨fun ⟨h, h', h''⟩ => ⟨h, h', h''⟩, fun ⟨h, h', h''⟩ => ⟨h, h', h''⟩⟩

/-- A token that a source can spell. -/
def Token.WellFormed : Token → Prop
  | .literal t _ => t ≠ [] ∧ ∀ c ∈ t, IsPlain c
  | .var v => v.WellFormed

instance (t : Token) : Decidable t.WellFormed :=
  match t with
  | .literal t _ =>
    have : Decidable (∀ c ∈ t, IsPlain c) := List.decidableBAll _ _
    inferInstanceAs (Decidable (t ≠ [] ∧ ∀ c ∈ t, IsPlain c))
  | .var v => inferInstanceAs (Decidable v.WellFormed)

/-- The six token lists of a segment, `true` for a literal and `false` for a variable. -/
def tokenShapes : List (List Bool) :=
  [[], [true], [false], [true, false], [false, true], [true, false, true]]

/-- A segment that a source can spell. -/
structure Segment.WellFormed (s : Segment) : Prop where
  shape : s.tokens.map Token.isLiteral ∈ tokenShapes
  tokens : ∀ t ∈ s.tokens, t.WellFormed

instance (s : Segment) : Decidable s.WellFormed :=
  decidable_of_iff (s.tokens.map Token.isLiteral ∈ tokenShapes ∧ ∀ t ∈ s.tokens, t.WellFormed)
    ⟨fun ⟨h, h'⟩ => ⟨h, h'⟩, fun ⟨h, h'⟩ => ⟨h, h'⟩⟩

/-- Whether a token is a reserved variable. -/
def Token.isReserved : Token → Bool
  | .literal .. => false
  | .var v => v.reserved

/-- None of the tokens is a reserved variable. -/
def NoReserved (tokens : List Token) : Prop := ∀ t ∈ tokens, t.isReserved = false

instance (tokens : List Token) : Decidable (NoReserved tokens) :=
  inferInstanceAs (Decidable (∀ t ∈ tokens, t.isReserved = false))

/-- **Segments that a source can spell**: there is at least one, each is well-formed, and a reserved
    variable stands only as the last token of the last segment. -/
structure WellFormed (segments : List Segment) : Prop where
  nonempty : segments ≠ []
  segment : ∀ s ∈ segments, s.WellFormed
  leading : ∀ s ∈ segments.dropLast, NoReserved s.tokens
  final : ∀ s ∈ segments.getLast?, NoReserved s.tokens.dropLast

instance (segments : List Segment) : Decidable (WellFormed segments) :=
  decidable_of_iff
    (segments ≠ [] ∧ (∀ s ∈ segments, s.WellFormed) ∧
      (∀ s ∈ segments.dropLast, NoReserved s.tokens) ∧
      ∀ s ∈ segments.getLast?, NoReserved s.tokens.dropLast)
    ⟨fun ⟨h, h', h'', h'''⟩ => ⟨h, h', h'', h'''⟩, fun ⟨h, h', h'', h'''⟩ => ⟨h, h', h'', h'''⟩⟩

theorem wellFormed_singleton {s : Segment} :
    WellFormed [s] ↔ s.WellFormed ∧ NoReserved s.tokens.dropLast := by
  constructor
  · intro h
    exact ⟨h.segment s (List.mem_singleton.mpr rfl), h.final s rfl⟩
  · rintro ⟨hs, hr⟩
    refine ⟨List.cons_ne_nil _ _, ?_, ?_, ?_⟩
    · intro s' h'
      rwa [List.mem_singleton.mp h']
    · intro s' h'
      exact absurd h' List.not_mem_nil
    · intro s' h'
      rwa [← Option.some.inj h']

theorem wellFormed_cons {s : Segment} {rest : List Segment} (hne : rest ≠ []) :
    WellFormed (s :: rest) ↔ s.WellFormed ∧ NoReserved s.tokens ∧ WellFormed rest := by
  obtain ⟨t, rest, rfl⟩ := List.exists_cons_of_ne_nil hne
  have hlast : (s :: t :: rest).getLast? = (t :: rest).getLast? := List.getLast?_cons_cons
  constructor
  · intro h
    refine ⟨h.segment s List.mem_cons_self, h.leading s List.mem_cons_self, hne, ?_, ?_, ?_⟩
    · exact fun s' h' => h.segment s' (List.mem_cons_of_mem s h')
    · exact fun s' h' => h.leading s' (List.mem_cons_of_mem s h')
    · exact fun s' h' => h.final s' (hlast ▸ h')
  · rintro ⟨hs, hr, hrest⟩
    refine ⟨List.cons_ne_nil _ _, ?_, ?_, ?_⟩
    · intro s' h'
      rcases List.mem_cons.mp h' with rfl | h'
      · exact hs
      · exact hrest.segment s' h'
    · intro s' h'
      rcases List.mem_cons.mp h' with rfl | h'
      · exact hr
      · exact hrest.leading s' h'
    · exact fun s' h' => hrest.final s' (hlast ▸ h')

theorem WellFormed.dropLast {segments : List Segment} (h : WellFormed segments)
    (hne : segments.dropLast ≠ []) : WellFormed segments.dropLast := by
  refine ⟨hne, ?_, ?_, ?_⟩
  · exact fun s hs => h.segment s (List.dropLast_subset _ hs)
  · exact fun s hs => h.leading s (List.dropLast_subset _ hs)
  · intro s hs t ht
    exact h.leading s (List.mem_of_getLast? hs) t (List.dropLast_subset _ ht)

theorem wellFormed_concat {segments : List Segment} {s : Segment} :
    WellFormed (segments ++ [s]) ↔
      (∀ g ∈ segments, g.WellFormed ∧ NoReserved g.tokens) ∧ s.WellFormed
        ∧ NoReserved s.tokens.dropLast := by
  induction segments with
  | nil =>
    rw [List.nil_append, wellFormed_singleton]
    exact ⟨fun h => ⟨fun g hg => absurd hg List.not_mem_nil, h⟩, fun h => h.2⟩
  | cons t rest ih =>
    rw [List.cons_append, wellFormed_cons (List.append_ne_nil_of_right_ne_nil rest (by simp)), ih,
      List.forall_mem_cons]
    constructor
    · rintro ⟨ht, hr, hrest, hs⟩
      exact ⟨⟨⟨ht, hr⟩, hrest⟩, hs⟩
    · rintro ⟨⟨⟨ht, hr⟩, hrest⟩, hs⟩
      exact ⟨ht, hr, hrest, hs⟩

/-- **Induction along well-formed segments**: only the last one may have a reserved variable. -/
@[elab_as_elim]
theorem WellFormed.induct {motive : List Segment → Prop}
    (last : ∀ s : Segment, s.WellFormed → NoReserved s.tokens.dropLast → motive [s])
    (cons : ∀ (s : Segment) (rest : List Segment), s.WellFormed → NoReserved s.tokens →
      WellFormed rest → motive rest → motive (s :: rest)) :
    ∀ segments, WellFormed segments → motive segments
  | [], h => absurd rfl h.nonempty
  | [s], h => last s (wellFormed_singleton.mp h).1 (wellFormed_singleton.mp h).2
  | s :: t :: rest, h => by
    obtain ⟨hs, hr, hrest⟩ := (wellFormed_cons (List.cons_ne_nil t rest)).mp h
    exact cons s (t :: rest) hs hr hrest (WellFormed.induct last cons (t :: rest) hrest)

/-! ## The two forms of a segment -/

/-- Fixed text as tokens: an empty one is no token. -/
def fixed (t : Text) (span : Option Span) : List Token :=
  match t with
  | [] => []
  | t => [.literal t span]

@[simp] theorem spellTokens_fixed (t : Text) (span : Option Span) :
    spellTokens (fixed t span) = t := by
  cases t with
  | nil => rfl
  | cons c t => exact List.append_nil (c :: t)

@[simp] theorem flatMap_value_fixed (t : Text) (span : Option Span) :
    (fixed t span).flatMap Token.value = t := by
  cases t with
  | nil => rfl
  | cons c t => exact List.append_nil (c :: t)

@[simp] theorem findSome?_var?_fixed (t : Text) (span : Option Span) :
    (fixed t span).findSome? Token.var? = none := by
  cases t <;> rfl

@[simp] theorem filterMap_var?_fixed (t : Text) (span : Option Span) :
    (fixed t span).filterMap Token.var? = [] := by
  cases t <;> rfl

theorem isLiteral_of_mem_fixed {t : Text} {span : Option Span} :
    ∀ token ∈ fixed t span, token.isLiteral = true := by
  cases t with
  | nil => exact fun token h => absurd h List.not_mem_nil
  | cons c t => exact fun token h => by rw [List.mem_singleton.mp h]; rfl

/-- A fixed text, or a variable between two fixed texts. -/
inductive Segment.Form : Segment → Prop
  | text (t : Text) (span : Option Span) (ht : ∀ c ∈ t, IsPlain c) : Form ⟨fixed t span⟩
  | around (a : Text) (sa : Option Span) (v : Variable) (b : Text) (sb : Option Span)
      (ha : ∀ c ∈ a, IsPlain c) (hv : v.WellFormed) (hb : ∀ c ∈ b, IsPlain c) :
      Form ⟨fixed a sa ++ .var v :: fixed b sb⟩

theorem fixed_of_ne_nil {t : Text} (h : t ≠ []) (span : Option Span) :
    fixed t span = [.literal t span] := by
  cases t with
  | nil => exact absurd rfl h
  | cons c t => rfl

theorem Segment.WellFormed.form {s : Segment} (h : s.WellFormed) : s.Form := by
  obtain ⟨tokens⟩ := s
  obtain ⟨hshape, hall⟩ := h
  match tokens, hshape, hall with
  | [], _, _ => exact .text [] none fun c hc => absurd hc List.not_mem_nil
  | [.literal t st], _, hall =>
    obtain ⟨hne, ht⟩ := hall _ List.mem_cons_self
    rw [← fixed_of_ne_nil hne st]
    exact .text t st ht
  | [.var v], _, hall =>
    have hv := hall _ List.mem_cons_self
    exact .around [] none v [] none (by simp) hv (by simp)
  | [.literal a sa, .var v], _, hall =>
    obtain ⟨hne, ha⟩ := hall (.literal a sa) (by simp)
    have hv := hall (.var v) (by simp)
    have := Form.around a sa v [] none ha hv (by simp)
    rwa [fixed_of_ne_nil hne] at this
  | [.var v, .literal b sb], _, hall =>
    obtain ⟨hne, hb⟩ := hall (.literal b sb) (by simp)
    have hv := hall (.var v) (by simp)
    have := Form.around [] none v b sb (by simp) hv hb
    rwa [fixed_of_ne_nil hne] at this
  | [.literal a sa, .var v, .literal b sb], _, hall =>
    obtain ⟨hnea, ha⟩ := hall (.literal a sa) (by simp)
    obtain ⟨hneb, hb⟩ := hall (.literal b sb) (by simp)
    have hv := hall (.var v) (by simp)
    have := Form.around a sa v b sb ha hv hb
    rwa [fixed_of_ne_nil hnea, fixed_of_ne_nil hneb] at this
  -- No other list has one of the six shapes.
  | [.literal _ _, .literal _ _], h, _ | [.var _, .var _], h, _
  | [.literal _ _, .literal _ _, _], h, _ | [.var _, _, _], h, _
  | [_, .var _, .var _], h, _ | _ :: _ :: _ :: _ :: _, h, _ =>
    exact absurd h (by simp [tokenShapes, Token.isLiteral])

/-! ## Fixed text has no separator -/

theorem Segment.WellFormed.plain {s : Segment} (h : s.WellFormed) {tokens : List Token}
    (hsub : ∀ t ∈ tokens, t ∈ s.tokens) : ∀ c ∈ tokens.flatMap Token.value, IsPlain c := by
  intro c hc
  obtain ⟨t, ht, hct⟩ := List.mem_flatMap.mp hc
  have hwell := h.tokens t (hsub t ht)
  cases t with
  | literal t span => exact hwell.2 c hct
  | var v => exact absurd hct List.not_mem_nil

theorem Segment.WellFormed.separator_not_mem_literal {s : Segment} (h : s.WellFormed) :
    separator ∉ s.literal :=
  fun hmem => (h.plain (fun _ ht => ht) _ hmem).1 rfl

theorem Segment.WellFormed.separator_not_mem_head {s : Segment} (h : s.WellFormed) :
    separator ∉ s.head :=
  fun hmem => (h.plain (fun _ ht => (List.takeWhile_sublist _).mem ht) _ hmem).1 rfl

theorem Segment.WellFormed.separator_not_mem_tail {s : Segment} (h : s.WellFormed) :
    separator ∉ s.tail := by
  refine fun hmem => (h.plain (fun t ht => ?_) _ hmem).1 rfl
  exact List.mem_reverse.mp ((List.takeWhile_sublist _).mem (List.mem_reverse.mp ht))

/-! ## What the forms say about a segment -/

namespace Segment

variable (a : Text) (sa : Option Span) (v : Variable) (b : Text) (sb : Option Span)

theorem var?_text : (Segment.mk (fixed a sa)).var? = none := findSome?_var?_fixed a sa

theorem literal_text : (Segment.mk (fixed a sa)).literal = a := flatMap_value_fixed a sa

theorem var?_around : (Segment.mk (fixed a sa ++ .var v :: fixed b sb)).var? = some v := by
  rw [var?, List.findSome?_append, findSome?_var?_fixed]
  rfl

theorem head_around : (Segment.mk (fixed a sa ++ .var v :: fixed b sb)).head = a := by
  rw [head, List.takeWhile_append_of_pos isLiteral_of_mem_fixed,
    List.takeWhile_cons_of_neg (by simp [Token.isLiteral]), List.append_nil, flatMap_value_fixed]

theorem tail_around : (Segment.mk (fixed a sa ++ .var v :: fixed b sb)).tail = b := by
  have hb : ∀ token ∈ (fixed b sb).reverse, token.isLiteral = true :=
    fun token h => isLiteral_of_mem_fixed token (List.mem_reverse.mp h)
  rw [tail, List.reverse_append, List.reverse_cons, List.append_assoc,
    List.takeWhile_append_of_pos hb, List.singleton_append,
    List.takeWhile_cons_of_neg (by simp [Token.isLiteral]), List.append_nil, List.reverse_reverse,
    flatMap_value_fixed]

theorem kind_around : (Segment.mk (fixed a sa ++ .var v :: fixed b sb)).kind =
    if v.reserved then .catchAll else if a = [] ∧ b = [] then .free else .mixed := by
  unfold kind
  rw [var?_around]
  cases a <;> cases b <;> simp [fixed]

end Segment

theorem Segment.WellFormed.spell_eq_literal {s : Segment} (h : s.WellFormed) (hv : s.var? = none) :
    s.spell = s.literal := by
  cases h.form with
  | text t span ht => rw [spell, spellTokens_fixed, literal_text]
  | around a sa v b sb ha hw hb =>
    rw [var?_around] at hv
    nomatch hv

/-- Behind a reserved variable that is the last token there is no fixed text. -/
theorem eq_nil_of_reserved {a b : Text} {sa sb : Option Span} {v : Variable}
    (h : NoReserved (fixed a sa ++ .var v :: fixed b sb).dropLast) (hv : v.reserved = true) :
    b = [] := by
  cases b with
  | nil => rfl
  | cons c b =>
    have hmem : Token.var v ∈ (fixed a sa ++ .var v :: fixed (c :: b) sb).dropLast := by
      simp [fixed]
    exact absurd (h _ hmem) (by simp [Token.isReserved, hv])

theorem Segment.WellFormed.tail_eq_nil {s : Segment} (h : s.WellFormed)
    (hr : NoReserved s.tokens.dropLast) {v : Variable} (hv : s.var? = some v)
    (hres : v.reserved = true) : s.tail = [] := by
  cases h.form with
  | text t span ht =>
    rw [var?_text] at hv
    nomatch hv
  | around a sa w b sb ha hw hb =>
    rw [var?_around] at hv
    rw [← Option.some.inj hv] at hres
    rw [tail_around, eq_nil_of_reserved hr hres]

/-- A well-formed segment is a catch-all exactly if one of its tokens is a reserved variable. -/
theorem Segment.WellFormed.noReserved_iff {s : Segment} (h : s.WellFormed) :
    NoReserved s.tokens ↔ s.kind ≠ .catchAll := by
  rw [ne_eq, s.kind_eq_catchAll_iff]
  constructor
  · rintro hr ⟨v, hv, hres⟩
    obtain ⟨t, ht, hvar⟩ := List.exists_of_findSome?_eq_some hv
    cases t with
    | literal t span => nomatch hvar
    | var w =>
      obtain rfl : w = v := Option.some.inj hvar
      exact Bool.false_ne_true ((hr _ ht).symm.trans hres)
  · intro hno t ht
    cases h.form with
    | text a span ha =>
      have hlit := isLiteral_of_mem_fixed t ht
      cases t with
      | literal => rfl
      | var => nomatch hlit
    | around a sa v b sb ha hw hb =>
      cases t with
      | literal => rfl
      | var w =>
        have hw : w = v := by
          rcases List.mem_append.mp ht with ht | ht
          · nomatch isLiteral_of_mem_fixed _ ht
          · rcases List.mem_cons.mp ht with ht | ht
            · exact Token.var.inj ht
            · nomatch isLiteral_of_mem_fixed _ ht
        subst hw
        cases hres : w.reserved with
        | false => exact hres
        | true => exact absurd ⟨w, var?_around a sa w b sb, hres⟩ hno

end Routing
