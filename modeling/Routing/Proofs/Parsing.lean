/-
  PARSING — the scanner reads exactly what can be spelled, and gives back what was spelled.

  One direction is in the invariants of `Scanning`: what a scan accepts is well-formed and spells
  the source.  This file adds the other one, by running the scanner over a spelling:

  1. a fixed text, a name, a variable and a segment are each read by one run lemma, for every rest
     of the source after them;
  2. along well-formed segments, the runs end in a state that holds the segments with the spans that
     `placeSegments` gives them.

  Both together make `Template.parse` and `spell` inverse to each other, up to spans.
-/
import Routing.Proofs.Scanning

namespace Routing

/-! ## Where the spans of a segment are -/

theorem placeTokens_append (p : Nat) (ts us : List Token) :
    placeTokens p (ts ++ us)
      = placeTokens p ts ++ placeTokens (p + (spellTokens ts).length) us := by
  induction ts generalizing p with
  | nil => rfl
  | cons t ts ih =>
    rw [List.cons_append, placeTokens, ih, placeTokens, List.cons_append, spellTokens_cons,
      List.length_append, Nat.add_assoc]

theorem placeTokens_fixed (p : Nat) (t : Text) (span : Option Span) :
    placeTokens p (fixed t span) = fixed t (some ⟨p, p + t.length⟩) := by
  cases t <;> rfl

namespace Scan

theorem reverse_flush_reverse (start : Nat) (t : Text) (ts : List Token) :
    (flush start t.reverse ts).reverse
      = ts.reverse ++ fixed t (some ⟨start, start + t.length⟩) := by
  cases t with
  | nil => simp [flush, fixed]
  | cons c t =>
    obtain ⟨x, l, hl⟩ := List.exists_cons_of_ne_nil (l := (c :: t).reverse) (by simp)
    have hback : (x :: l).reverse = c :: t := by rw [← hl, List.reverse_reverse]
    have hlen : (x :: l).length = (c :: t).length := by rw [← hl, List.length_reverse]
    rw [hl, flush, List.reverse_cons, hback, hlen, fixed_of_ne_nil (List.cons_ne_nil c t)]
    exact List.cons_ne_nil x l

/-! ## Runs over the parts of a spelling -/

/-- A run over characters that are all held: the state moves on by one and holds one more. -/
theorem run_held {P : Char → Prop} (state : Nat → Text → Scan)
    (hmove : ∀ {p held c}, P c → Move (state p held) c (state (p + 1) (c :: held)))
    {t : Text} (ht : ∀ c ∈ t, P c) (p : Nat) (held rest : Text) :
    (state p held).run (t ++ rest) = (state (p + t.length) (t.reverse ++ held)).run rest := by
  induction t generalizing p held with
  | nil => rfl
  | cons c t ih =>
    rw [List.forall_mem_cons] at ht
    rw [List.cons_append, (hmove ht.1).run_cons, ih ht.2, List.length_cons, List.reverse_cons,
      List.append_assoc, List.singleton_append, Nat.add_right_comm, Nat.add_assoc]

theorem run_text {t : Text} (ht : ∀ c ∈ t, IsPlain c) (p : Nat) (d : List Segment)
    (ts : List Token) (start : Nat) (held rest : Text) :
    (⟨p, d, ts, .literal start held⟩ : Scan).run (t ++ rest)
      = (⟨p + t.length, d, ts, .literal start (t.reverse ++ held)⟩ : Scan).run rest :=
  run_held (fun p held => ⟨p, d, ts, .literal start held⟩) .text ht p held rest

theorem run_name {t : Text} (ht : ∀ c ∈ t, c ≠ openBrace ∧ c ≠ closeBrace) (p : Nat)
    (d : List Segment) (ts : List Token) (start : Nat) (r : Bool) (held rest : Text) :
    (⟨p, d, ts, .naming start r held⟩ : Scan).run (t ++ rest)
      = (⟨p + t.length, d, ts, .naming start r (t.reverse ++ held)⟩ : Scan).run rest :=
  run_held (fun p held => ⟨p, d, ts, .naming start r held⟩) .name ht p held rest

/-- The mode after a variable that ends before `p`. -/
def modeAfter (v : Variable) (p : Nat) : Mode :=
  if v.reserved then .closed else .literal p []

theorem run_variable {v : Variable} (hv : v.WellFormed) {ts : List Token}
    (hts : ∀ t ∈ ts, t.isLiteral = true) (p : Nat) (d : List Segment) (start : Nat)
    (held rest : Text) :
    (⟨p, d, ts, .literal start held⟩ : Scan).run (v.spell ++ rest)
      = (⟨p + v.spell.length, d, (Token.var v).place p :: flush start held ts,
          modeAfter v (p + v.spell.length)⟩ : Scan).run rest := by
  obtain ⟨name, r, span⟩ := v
  obtain ⟨hne, hbrace, hmark⟩ := hv
  -- The character after the brace is the mark, or else a first character that could have been it.
  cases r with
  | true =>
    have hheld : name.reverse ++ [] ≠ [] := by simpa using hne
    have hpos : p + 1 + 1 + name.length + 1 = p + (Variable.mk name true span).spell.length := by
      simp [Variable.spell]
      omega
    show (⟨p, d, ts, .literal start held⟩ : Scan).run
      (openBrace :: reservedMarker :: (name ++ [closeBrace] ++ rest)) = _
    rw [(Move.opening hts).run_cons, Move.mark.run_cons, List.append_assoc, run_name hbrace,
      List.singleton_append, (Move.closing hheld).run_cons, hpos]
    simp [Token.place, modeAfter]
  | false =>
    obtain ⟨c, name, rfl⟩ := List.exists_cons_of_ne_nil hne
    rw [List.forall_mem_cons] at hbrace
    have hc : c ≠ reservedMarker := by simpa using hmark rfl
    have hheld : name.reverse ++ [c] ≠ [] := by simp
    have hpos : p + 1 + 1 + name.length + 1
        = p + (Variable.mk (c :: name) false span).spell.length := by
      simp [Variable.spell]
      omega
    show (⟨p, d, ts, .literal start held⟩ : Scan).run
      (openBrace :: c :: (name ++ [closeBrace] ++ rest)) = _
    rw [(Move.opening hts).run_cons, (Move.first hbrace.1 hc).run_cons, List.append_assoc,
      run_name hbrace.2, List.singleton_append, (Move.closing hheld).run_cons, hpos]
    simp [Token.place, modeAfter]

/-! ## Runs over segments -/

/-- The state `s'` holds the segment `g`, read from `p` on, and has finished the segments `d`. -/
structure Holds (s' : Scan) (p : Nat) (d : List Segment) (g : Segment) : Prop where
  done : s'.done = d
  pos : s'.pos = p + g.spell.length
  pending : s'.pending = g.place p
  /-- No variable is open, and the segment is closed only by a reserved variable. -/
  phase : s'.mode.phase = .literal ∨ s'.mode.phase = .reservedClosed ∧ ¬ NoReserved g.tokens

/-- After a variable and the fixed text behind it, of which there is none if it is reserved. -/
theorem run_behind {v : Variable} {b : Text} (hb : ∀ c ∈ b, IsPlain c)
    (hv : v.reserved = true → b = []) (p : Nat) (d : List Segment) (ts : List Token) :
    ∃ s' : Scan, s'.done = d ∧ s'.pos = p + b.length ∧
      s'.pending = ⟨ts.reverse ++ fixed b (some ⟨p, p + b.length⟩)⟩ ∧
      (s'.mode.phase = .literal ∨ s'.mode.phase = .reservedClosed ∧ v.reserved = true) ∧
      ∀ rest, (⟨p, d, ts, modeAfter v p⟩ : Scan).run (b ++ rest) = s'.run rest := by
  cases hr : v.reserved with
  | true =>
    obtain rfl := hv hr
    refine ⟨⟨p, d, ts, .closed⟩, rfl, rfl, ?_, .inr ⟨rfl, rfl⟩, fun rest => ?_⟩
    · show Segment.mk ts.reverse = _
      rw [fixed, List.append_nil]
    · rw [modeAfter, hr, List.nil_append, if_pos rfl]
  | false =>
    refine ⟨⟨p + b.length, d, ts, .literal p (b.reverse ++ [])⟩, rfl, rfl, ?_, .inl rfl,
      fun rest => ?_⟩
    · show Segment.mk (flush p (b.reverse ++ []) ts).reverse = _
      rw [List.append_nil, reverse_flush_reverse]
    · rw [modeAfter, hr, if_neg Bool.false_ne_true, run_text hb]

theorem run_segment {g : Segment} (hg : g.WellFormed) (hr : NoReserved g.tokens.dropLast)
    (p : Nat) (d : List Segment) :
    ∃ s' : Scan, s'.Holds p d g ∧
      ∀ rest, (⟨p, d, [], .literal p []⟩ : Scan).run (g.spell ++ rest) = s'.run rest := by
  cases hg.form with
  | text t span ht =>
    have hspell : (Segment.mk (fixed t span)).spell = t := spellTokens_fixed t span
    refine ⟨⟨p + t.length, d, [], .literal p (t.reverse ++ [])⟩,
      ⟨rfl, by rw [hspell], ?_, .inl rfl⟩, fun rest => ?_⟩
    · show Segment.mk (flush p (t.reverse ++ []) []).reverse = ⟨placeTokens p (fixed t span)⟩
      rw [List.append_nil, reverse_flush_reverse, placeTokens_fixed, List.reverse_nil,
        List.nil_append]
    · rw [hspell, run_text ht]
  | around a sa v b sb ha hv hb =>
    have hspell :
        (Segment.mk (fixed a sa ++ .var v :: fixed b sb)).spell = a ++ (v.spell ++ b) := by
      simp [Segment.spell, Token.spell]
    -- Three runs: the text before the variable, the variable, and what is behind it.
    obtain ⟨s', hdone, hpos, hpending, hphase, hrun⟩ :=
      run_behind hb (eq_nil_of_reserved hr) (p + a.length + v.spell.length) d
        ((Token.var v).place (p + a.length) :: flush p (a.reverse ++ []) [])
    refine ⟨s', ⟨hdone, ?_, ?_, ?_⟩, fun rest => ?_⟩
    · rw [hpos, hspell, List.length_append, List.length_append]
      omega
    · rw [hpending]
      show _ = Segment.mk (placeTokens p (fixed a sa ++ .var v :: fixed b sb))
      rw [List.append_nil, List.reverse_cons, reverse_flush_reverse, placeTokens_append,
        placeTokens_fixed, spellTokens_fixed, placeTokens, placeTokens_fixed]
      simp [Token.spell]
    · refine hphase.imp_right fun h => ⟨h.1, fun hno => ?_⟩
      have hfalse : v.reserved = false := hno (.var v) (by simp)
      rw [hfalse] at h
      exact Bool.false_ne_true h.2
    · rw [hspell, List.append_assoc, run_text ha, List.append_assoc, run_variable hv (by simp),
        hrun]

theorem Holds.run_separator {s' : Scan} {p : Nat} {d : List Segment} {g : Segment}
    (h : s'.Holds p d g) (hg : NoReserved g.tokens) (rest : Text) :
    s'.run (separator :: rest)
      = (⟨p + g.spell.length + 1, g.place p :: d, [], .literal (p + g.spell.length + 1) []⟩
          : Scan).run rest := by
  obtain ⟨hdone, hpos, hpending, hphase⟩ := h
  obtain ⟨p', d', ts, mode⟩ := s'
  cases mode with
  | literal start held =>
    have hg' : Segment.mk (flush start held ts).reverse = g.place p := hpending
    rw [Move.cut.run_cons, hg', ← hdone, ← hpos]
  | opened start => rcases hphase with h | h <;> exact absurd h (by simp [Mode.phase])
  | naming start r held => rcases hphase with h | h <;> exact absurd h (by simp [Mode.phase])
  | closed =>
    -- Only a reserved variable closes a segment, and this one has none.
    rcases hphase with h | h
    · exact absurd h (by simp [Mode.phase])
    · exact absurd hg h.2

theorem Holds.finish {s' : Scan} {p : Nat} {d : List Segment} {g : Segment}
    (h : s'.Holds p d g) :
    ∃ result, s'.finish = .ok result ∧ result.val = d.reverse ++ [g.place p] := by
  obtain ⟨hdone, hpos, hpending, hphase⟩ := h
  have hok : ∃ result, s'.finish = .ok result := by
    obtain ⟨p', d', ts, mode⟩ := s'
    cases mode with
    | literal start held => exact ⟨_, rfl⟩
    | opened start => rcases hphase with h | h <;> exact absurd h (by simp [Mode.phase])
    | naming start r held => rcases hphase with h | h <;> exact absurd h (by simp [Mode.phase])
    | closed => exact ⟨_, rfl⟩
  obtain ⟨result, hresult⟩ := hok
  refine ⟨result, hresult, ?_⟩
  rw [(finish_eq_ok hresult).1, hdone, hpending]

/-- **A run over well-formed segments** ends with them, their spans placed. -/
theorem run_segments {segments : List Segment} (h : WellFormed segments) :
    ∀ (p : Nat) (d : List Segment), ∃ s' result,
      (⟨p, d, [], .literal p []⟩ : Scan).run
        (List.intercalate [separator] (segments.map Segment.spell)) = (s', none) ∧
      s'.finish = .ok result ∧ result.val = d.reverse ++ placeSegments p segments := by
  refine WellFormed.induct ?last ?cons segments h
  case last =>
    intro g hg hr p d
    obtain ⟨s', hholds, hrun⟩ := run_segment hg hr p d
    obtain ⟨result, hfinish, hval⟩ := hholds.finish
    refine ⟨s', result, ?_, hfinish, hval⟩
    have hrun' := hrun []
    rw [List.append_nil] at hrun'
    rw [List.map_singleton, List.intercalate_singleton, hrun', run]
  case cons =>
    intro g rest hg hr hrest ih p d
    have hlast : NoReserved g.tokens.dropLast := fun t ht => hr t (List.dropLast_subset _ ht)
    obtain ⟨s₁, hholds, hrun⟩ := run_segment hg hlast p d
    obtain ⟨s', result, hrun', hfinish, hval⟩ :=
      ih (p + g.spell.length + 1) (g.place p :: d)
    refine ⟨s', result, ?_, hfinish, ?_⟩
    · rw [List.map_cons, List.intercalate_cons_of_ne_nil (by simpa using hrest.nonempty),
        List.append_assoc, hrun, List.singleton_append, hholds.run_separator hr, hrun']
    · rw [hval, List.reverse_cons, List.append_assoc, List.singleton_append, placeSegments]

end Scan

/-! ## The scanner and the spelling are inverse to each other -/

/-- What a successful result holds, as a result. -/
theorem eq_ok_get {ε α : Type} : ∀ {x : Except ε α} (h : x.toOption.isSome = true),
    x = .ok (x.toOption.get h)
  | .ok _, _ => rfl
  | .error _, h => nomatch h

namespace Template

/-- What a scan accepts is well-formed and spells its source. -/
theorem parse_eq_ok {source : Text} {t : Template} (h : parse source = .ok t) :
    t.raw = source ∧ WellFormed t.segments ∧ spell t.segments = source := by
  obtain ⟨rest, s, result, rfl, hrun, hfinish, hraw, hsegments⟩ := exists_run_of_parse h
  have hsound : s.Sound := by simpa [hrun] using Scan.sound_run rest
  obtain ⟨hwell, hspell⟩ := hsound.finish hfinish
  have hread : s.spelled = separator :: rest := Scan.spelled_run hrun
  rw [hsegments]
  exact ⟨hraw, hwell, hspell.trans hread⟩

/-- The spelling of well-formed segments is scanned to them, their spans placed. -/
theorem parse_spell {segments : List Segment} (h : WellFormed segments) :
    ∃ t, parse (spell segments) = .ok t ∧ t.raw = spell segments ∧
      t.segments = placeSegments 1 segments := by
  obtain ⟨s', result, hrun, hfinish, hval⟩ := Scan.run_segments h 1 []
  have hstart : Scan.start.run (List.intercalate [separator] (segments.map Segment.spell))
      = (s', none) := hrun
  refine ⟨⟨spell segments, result.val, result.property⟩, ?_, rfl, hval⟩
  rw [parse, spell, scan_of_finish hstart hfinish]

/-- **The scanner accepts exactly its grammar**, and is a bijection between the sources that it
    accepts and the well-formed segments, taken up to spans. -/
theorem parse_iff_spell :
    (∀ source t, parse source = .ok t →
      WellFormed t.segments ∧ t.raw = source ∧ spell t.segments = source) ∧
    (∀ segments, WellFormed segments →
      ∃ t, parse (spell segments) = .ok t ∧ t.raw = spell segments ∧
        t.segments.map Segment.bare = segments.map Segment.bare) ∧
    (∀ source, (∃ t, parse source = .ok t) ↔
      ∃ segments, WellFormed segments ∧ source = spell segments) ∧
    ∀ segments segments', WellFormed segments → WellFormed segments' →
      spell segments = spell segments' →
      segments.map Segment.bare = segments'.map Segment.bare := by
  have sound : ∀ source t, parse source = .ok t →
      WellFormed t.segments ∧ t.raw = source ∧ spell t.segments = source := by
    intro source t h
    obtain ⟨hraw, hwell, hspell⟩ := parse_eq_ok h
    exact ⟨hwell, hraw, hspell⟩
  have complete : ∀ segments, WellFormed segments →
      ∃ t, parse (spell segments) = .ok t ∧ t.raw = spell segments ∧
        t.segments.map Segment.bare = segments.map Segment.bare := by
    intro segments h
    obtain ⟨t, hparse, hraw, hsegments⟩ := parse_spell h
    refine ⟨t, hparse, hraw, ?_⟩
    rw [hsegments, map_bare_placeSegments]
  refine ⟨sound, complete, fun source => ⟨?_, ?_⟩, ?_⟩
  · rintro ⟨t, h⟩
    obtain ⟨hwell, -, hspell⟩ := sound source t h
    exact ⟨t.segments, hwell, hspell.symm⟩
  · rintro ⟨segments, hwell, rfl⟩
    obtain ⟨t, h, -⟩ := complete segments hwell
    exact ⟨t, h⟩
  · intro segments segments' hwell hwell' hspell
    obtain ⟨t, h, -, hbare⟩ := complete segments hwell
    obtain ⟨t', h', -, hbare'⟩ := complete segments' hwell'
    rw [hspell, h'] at h
    obtain rfl := Except.ok.inj h
    rw [← hbare, hbare']

/-- The segments of `/v{x/y}.json//de{++z}`. -/
theorem parse_iff_spell_mixed :
    let segments : List Segment :=
      [⟨[.literal ['v'] none, .var ⟨"x/y".toList, false, none⟩, .literal ".json".toList none]⟩,
        ⟨[]⟩, ⟨[.literal "de".toList none, .var ⟨"+z".toList, true, none⟩]⟩]
    spell segments = "/v\x7bx/y\x7d.json//de\x7b++z\x7d".toList ∧
      ∃ t, parse (spell segments) = .ok t ∧ t.raw = spell segments ∧
        t.segments.map Segment.bare = segments ∧ spell t.segments = spell segments := by
  intro segments
  obtain ⟨t, hparse, hraw, hbare⟩ := parse_iff_spell.2.1 segments (by decide)
  exact ⟨by decide, t, hparse, hraw, hbare, (parse_iff_spell.1 _ t hparse).2.2⟩

end Template

end Routing
