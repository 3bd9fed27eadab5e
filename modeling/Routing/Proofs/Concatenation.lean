/-
  CONCATENATION — scanning one source after another.

  A source that is accepted and does not end in a catch-all leaves the scanner, at the next `/`, as
  it was at the start: no fixed text, no tokens and no variable are left over.  What is read from
  there on is what would be read alone, only further to the right.

  1. **Shifting** moves every span by the number of characters before it, and for a state also puts
     finished segments before those it has.
  2. **The crux** (`Scan.step_shift`): a step does not see the shift.  It goes on, or fails with the
     same fault, as it would without; so does a run, and so does the end of a source.
  3. **Where an accepted source ends** (`Template.Leaves`): in fixed text, or behind a reserved
     variable, and the second exactly if its last segment is a catch-all.

  So scanning turns joining texts into joining templates, and a rejection of the second text into
  the same rejection further to the right.
-/
import Routing.Proofs.Parsing
import Routing.Proofs.Viability

namespace Routing

/-! ## Shifting -/

/-- A span with `n` more characters before it. -/
def Span.shift (n : Nat) (s : Span) : Span := ⟨n + s.start, n + s.stop⟩

/-- A token with `n` more characters before it. -/
def Token.shift (n : Nat) : Token → Token
  | .literal t span => .literal t (span.map (Span.shift n))
  | .var v => .var { v with span := v.span.map (Span.shift n) }

/-- A segment with `n` more characters before it. -/
def Segment.shift (n : Nat) (g : Segment) : Segment := ⟨g.tokens.map (Token.shift n)⟩

theorem Token.isLiteral_shift (n : Nat) (t : Token) : (t.shift n).isLiteral = t.isLiteral := by
  cases t <;> rfl

theorem any_variable_shift (n : Nat) (ts : List Token) :
    (ts.map (Token.shift n)).any (!·.isLiteral) = ts.any (!·.isLiteral) := by
  rw [List.any_map]
  congr 1
  funext t
  show (!(t.shift n).isLiteral) = !t.isLiteral
  rw [Token.isLiteral_shift]

namespace Scan

/-- A mode with `n` more characters before it. -/
def Mode.shift (n : Nat) : Mode → Mode
  | .literal start held => .literal (n + start) held
  | .opened start => .opened (n + start)
  | .naming start r held => .naming (n + start) r held
  | .closed => .closed

/-- A state with `n` more characters before it, of which the segments `front` have been finished,
    newest first. -/
def shift (n : Nat) (front : List Segment) (s : Scan) : Scan :=
  ⟨n + s.pos, s.done.map (Segment.shift n) ++ front, s.tokens.map (Token.shift n), s.mode.shift n⟩

theorem flush_shift (n start : Nat) (held : Text) (ts : List Token) :
    flush (n + start) held (ts.map (Token.shift n))
      = (flush start held ts).map (Token.shift n) := by
  cases held with
  | nil => rfl
  | cons c held =>
    show Token.literal _ (some ⟨n + start, n + start + (c :: held).length⟩) :: _ = _
    rw [Nat.add_assoc]
    rfl

/-- The segment that a shifted state would finish now. -/
theorem pending_flush_shift (n start : Nat) (held : Text) (ts : List Token) :
    (Segment.mk (flush (n + start) held (ts.map (Token.shift n))).reverse)
      = (Segment.mk (flush start held ts).reverse).shift n := by
  rw [flush_shift, Segment.shift, List.map_reverse]

variable (n : Nat) (front : List Segment)

theorem stepLiteral_shift (s : Scan) (start : Nat) (held : Text) (c : Char) :
    (s.shift n front).stepLiteral (n + start) held c
      = (s.stepLiteral start held c).map (shift n front) := by
  obtain ⟨p, d, ts, mode⟩ := s
  simp only [stepLiteral, shift, any_variable_shift]
  split
  · rw [pending_flush_shift]
    rfl
  · split
    · split
      · rfl
      · rw [flush_shift]
        rfl
    · split <;> rfl

theorem stepNaming_shift (s : Scan) (start : Nat) (r : Bool) (held : Text) (c : Char) :
    (s.shift n front).stepNaming (n + start) r held c
      = (s.stepNaming start r held c).map (shift n front) := by
  unfold stepNaming
  split
  · rfl
  · split
    · split
      · rfl
      · cases r <;> rfl
    · rfl

/-- **A step does not see a shift**, whether it goes on or fails. -/
theorem step_shift (s : Scan) (c : Char) :
    (s.shift n front).step c = (s.step c).map (shift n front) := by
  obtain ⟨p, d, ts, mode⟩ := s
  cases mode with
  | literal start held => exact stepLiteral_shift n front _ start held c
  | opened start =>
    by_cases hc : c = reservedMarker
    · subst hc
      rfl
    · unfold step
      simp only [shift, Mode.shift, if_neg hc]
      exact stepNaming_shift n front ⟨p, d, ts, .opened start⟩ start false [] c
  | naming start r held => exact stepNaming_shift n front _ start r held c
  | closed => rfl

/-- **A run does not see a shift**: it stops where it would stop without, for the same fault. -/
theorem run_shift (s : Scan) (text : Text) :
    (s.shift n front).run text = ((s.run text).1.shift n front, (s.run text).2) := by
  induction text generalizing s with
  | nil => rfl
  | cons c rest ih =>
    rw [run, run, step_shift]
    cases s.step c with
    | error f => rfl
    | ok s' => exact ih s'

theorem finish_shift_ok {s : Scan} {result : { segments : List Segment // segments ≠ [] }}
    (h : s.finish = .ok result) : ∃ result', (s.shift n front).finish = .ok result' ∧
      result'.val = front.reverse ++ result.val.map (Segment.shift n) := by
  obtain ⟨p, d, ts, mode⟩ := s
  cases mode with
  | literal start held =>
    cases h
    refine ⟨_, rfl, ?_⟩
    show (Segment.mk (flush (n + start) held (ts.map (Token.shift n))).reverse
      :: (d.map (Segment.shift n) ++ front)).reverse = _
    rw [pending_flush_shift]
    simp
  | opened start => nomatch h
  | naming start r held => nomatch h
  | closed =>
    cases h
    refine ⟨_, rfl, ?_⟩
    show (Segment.mk (ts.map (Token.shift n)).reverse
      :: (d.map (Segment.shift n) ++ front)).reverse = _
    simp [Segment.shift]

theorem finish_shift_error {s : Scan} {start : Nat} (h : s.finish = .error start) :
    (s.shift n front).finish = .error (n + start) := by
  obtain ⟨p, d, ts, mode⟩ := s
  cases mode with
  | literal | closed => nomatch h
  | opened | naming =>
    cases h
    rfl

/-! ## Where an accepted source ends -/

/-- Only a reserved variable closes a segment. -/
theorem Move.reserved_of_closed {s s' : Scan} {c : Char} (h : Move s c s')
    (hclosed : s'.mode = .closed) : ¬ NoReserved s'.tokens := by
  cases h with
  | text | cut | opening | mark | first | name => nomatch hclosed
  | @closing _ _ _ _ r _ _ =>
    cases r with
    | false => nomatch hclosed
    | true =>
      intro hno
      exact Bool.noConfusion (hno _ List.mem_cons_self)

theorem reserved_of_closed (text : Text) :
    (start.run text).1.mode = .closed → ¬ NoReserved (start.run text).1.tokens := by
  refine run_keeps (P := fun s => s.mode = .closed → ¬ NoReserved s.tokens) ?_ ?_ text
  · intro s s' c h _
    exact h.reserved_of_closed
  · intro h
    nomatch (h : Mode.literal 1 [] = .closed)

/-- At the end of a source the mode tells whether the last segment has a reserved variable. -/
theorem Sound.mode_of_finish {s : Scan} (hs : s.Sound)
    (hclosed : s.mode = .closed → ¬ NoReserved s.tokens)
    {result : { segments : List Segment // segments ≠ [] }} (h : s.finish = .ok result) :
    (∃ start held, s.mode = .literal start held) ∧ NoReserved s.pending.tokens ∨
      s.mode = .closed ∧ ¬ NoReserved s.pending.tokens := by
  obtain ⟨p, d, ts, mode⟩ := s
  cases mode with
  | literal start held =>
    obtain ⟨-, hres, -⟩ := hs.mode
    exact .inl ⟨⟨start, held, rfl⟩, noReserved_reverse (noReserved_flush hres)⟩
  | opened start => nomatch h
  | naming start r held => nomatch h
  | closed =>
    refine .inr ⟨rfl, fun hno => hclosed rfl ?_⟩
    intro t ht
    exact hno t (List.mem_reverse.mpr ht)

end Scan

namespace Template

theorem last_eq_of_concat {t : Template} {front : List Segment} {g : Segment}
    (h : t.segments = front ++ [g]) : t.last = g := by
  simp only [last, h, List.getLast_concat]

/-- What is left of the scanner at the end of the source of a template. -/
structure Leaves (t : Template) (s : Scan) : Prop where
  pos : s.pos = t.raw.length
  segments : (s.pending :: s.done).reverse = t.segments
  mode : (∃ start held, s.mode = .literal start held) ∧ t.last.kind ≠ .catchAll ∨
    s.mode = .closed ∧ t.last.kind = .catchAll

/-- **The end of an accepted source.** -/
theorem exists_leaves {source : Text} {t : Template} (h : parse source = .ok t) :
    ∃ rest s, source = separator :: rest ∧ Scan.start.run rest = (s, none) ∧ t.Leaves s := by
  obtain ⟨rest, s, result, rfl, hrun, hfinish, hraw, hresult⟩ := exists_run_of_parse h
  have hreached : s.Reached := by simpa [hrun] using Scan.reached_run rest
  have hclosed : s.mode = .closed → ¬ NoReserved s.tokens := by
    simpa [hrun] using Scan.reserved_of_closed rest
  have hread : s.spelled = separator :: rest := Scan.spelled_run hrun
  have hsegments : t.segments = s.done.reverse ++ [s.pending] :=
    hresult.trans (Scan.finish_eq_ok hfinish).1
  refine ⟨rest, s, rfl, hrun, ?_, ?_, ?_⟩
  · rw [hreached.placed.pos, hread, hraw]
  · rw [List.reverse_cons, hsegments]
  · have hno := (hreached.sound.pending hfinish).1.noReserved_iff
    rw [last_eq_of_concat hsegments, ← hno]
    rcases hreached.sound.mode_of_finish hclosed hfinish with hmode | ⟨hmode, hres⟩
    · exact .inl hmode
    · exact .inr ⟨hmode, not_not.mp (mt hno.mpr hres)⟩

/-! ## Joining templates -/

/-- The segments of two templates, those of the second one where their source stands after that of
    the first. -/
def append (t t' : Template) : Template :=
  ⟨t.raw ++ t'.raw, t.segments ++ t'.segments.map (Segment.shift t.raw.length),
    List.append_ne_nil_of_left_ne_nil t.segments_ne_nil _⟩

theorem segments_append (t t' : Template) : (t.append t').segments
    = t.segments ++ t'.segments.map (Segment.shift t.raw.length) := rfl

end Template

/-- A rejection, told of the source that has `front` before its own. -/
def Rejection.behind (front : Text) (r : Rejection) : Rejection :=
  { r with source := front ++ r.source, index := r.index.map (front.length + ·) }

theorem Fault.behind_reject (f : Fault) (front source : Text) (index : Nat) :
    (f.reject source index).behind front = f.reject (front ++ source) (front.length + index) := by
  simp [reject, Rejection.behind, Rejection.ofCategory]

namespace Template

variable {source : Text} {t : Template}

/-- **After a source that does not end in a catch-all** the scanner starts anew, shifted. -/
theorem Leaves.run_separator {s : Scan} (h : t.Leaves s) (hlast : t.last.kind ≠ .catchAll)
    (rest : Text) : s.run (separator :: rest)
      = (Scan.start.shift t.raw.length (s.pending :: s.done)).run rest := by
  obtain ⟨⟨start, held, hmode⟩, -⟩ := h.mode.resolve_right fun hno => hlast hno.2
  have hpos := h.pos
  obtain ⟨p, d, ts, mode⟩ := s
  subst hmode
  rw [Scan.Move.cut.run_cons, ← hpos]
  rfl

/-- **After a catch-all** nothing can follow. -/
theorem Leaves.run_closed {s : Scan} (h : t.Leaves s) (hlast : t.last.kind = .catchAll) (c : Char)
    (rest : Text) : s.run (c :: rest) = (s, some (.contentAfterCatchAll c)) := by
  obtain ⟨hmode, -⟩ := h.mode.resolve_left fun hno => hno.2 hlast
  rw [Scan.run, Scan.step, hmode]

/-- **Scanning a joined text** joins the templates, or shifts the rejection. -/
theorem parse_append (h : parse source = .ok t) (hlast : t.last.kind ≠ .catchAll) (rest : Text) :
    parse (source ++ separator :: rest) =
      match parse (separator :: rest) with
      | .ok t' => .ok (t.append t')
      | .error r => .error (r.behind source) := by
  obtain ⟨hraw, -⟩ := parse_eq_ok h
  obtain ⟨front, s, rfl, hfront, hleaves⟩ := exists_leaves h
  have hrun : Scan.start.run (front ++ separator :: rest)
      = ((Scan.start.run rest).1.shift t.raw.length (s.pending :: s.done),
          (Scan.start.run rest).2) := by
    rw [Scan.run_append, hfront]
    show s.run (separator :: rest) = _
    rw [hleaves.run_separator hlast, Scan.run_shift]
  rw [hraw] at hrun
  cases hrest : Scan.start.run rest with
  | mk s' stop =>
    rw [hrest] at hrun
    cases stop with
    | some f =>
      rw [parse, parse, List.cons_append, scan_of_fault hrest, scan_of_fault hrun]
      show Except.error _ = Except.error _
      rw [Fault.behind_reject]
      rfl
    | none =>
      cases hfinish : s'.finish with
      | ok result =>
        obtain ⟨result', hfinish', hval⟩ :=
          Scan.finish_shift_ok (separator :: front).length (s.pending :: s.done) hfinish
        rw [parse, parse, List.cons_append, scan_of_finish hrest hfinish,
          scan_of_finish hrun hfinish']
        show Except.ok _ = Except.ok _
        simp only [append, hraw, hval, hleaves.segments, List.cons_append]
      | error start =>
        have hfinish' :=
          Scan.finish_shift_error (separator :: front).length (s.pending :: s.done) hfinish
        rw [parse, parse, List.cons_append, scan_of_open hrest hfinish, scan_of_open hrun hfinish']
        show Except.error _ = Except.error _
        rw [Fault.behind_reject]
        rfl

/-- **Scanning is a homomorphism for concatenation.**  Behind an accepted source that does not end
    in a catch-all, a text that begins with `/` is read as it is read alone: the whole is accepted
    exactly if the text is, with the segments of both, and a rejection of the text is one of the
    whole, with the same category and the same words.  The spans and the index count the source.
    Behind a catch-all nothing is read, and the first character after it is blamed. -/
theorem parse_concatenation (h : parse source = .ok t) :
    (t.last.kind ≠ .catchAll → ∀ more, more.head? = some separator →
      ((∃ u, parse (source ++ more) = .ok u) ↔ ∃ t', parse more = .ok t') ∧
      (∀ t', parse more = .ok t' → parse (source ++ more) = .ok (t.append t')) ∧
      ∀ r, parse more = .error r → parse (source ++ more) = .error (r.behind source)) ∧
    (t.last.kind = .catchAll → ∀ c rest, parse (source ++ c :: rest)
      = .error ((Fault.contentAfterCatchAll c).reject (source ++ c :: rest) source.length)) := by
  refine ⟨?_, ?_⟩
  · intro hlast more hmore
    obtain ⟨rest, rfl⟩ : ∃ rest, more = separator :: rest := by
      obtain ⟨rest, hrest⟩ := List.head?_eq_some_iff.mp hmore
      exact ⟨rest, hrest⟩
    have hwhole := parse_append h hlast rest
    cases hrest : parse (separator :: rest) with
    | ok t' =>
      rw [hrest] at hwhole
      refine ⟨iff_of_true ⟨_, hwhole⟩ ⟨t', rfl⟩, ?_, ?_⟩
      · intro u hu
        rw [← Except.ok.inj hu]
        exact hwhole
      · intro r hr
        nomatch hr
    | error r =>
      rw [hrest] at hwhole
      refine ⟨iff_of_false ?_ ?_, ?_, ?_⟩
      · rintro ⟨u, hu⟩
        rw [hwhole] at hu
        nomatch hu
      · rintro ⟨u, hu⟩
        nomatch hu
      · intro t' ht'
        nomatch ht'
      · intro r' hr'
        rw [← Except.error.inj hr']
        exact hwhole
  · intro hlast c rest
    obtain ⟨hraw, -⟩ := parse_eq_ok h
    obtain ⟨front, s, rfl, hfront, hleaves⟩ := exists_leaves h
    have hrun : Scan.start.run (front ++ c :: rest) = (s, some (.contentAfterCatchAll c)) := by
      rw [Scan.run_append, hfront]
      exact hleaves.run_closed hlast c rest
    rw [parse, List.cons_append, scan_of_fault hrun, hleaves.pos, hraw]

/-- The source `/v{a}.x` before one that is accepted and one that is not, and `/{+p}` before any
    character. -/
theorem parse_concatenation_shifted :
    (∃ t t' r, parse "/v\x7ba\x7d.x".toList = .ok t ∧ t.last.kind ≠ .catchAll ∧
      parse "/\x7bb/c\x7d/d".toList = .ok t' ∧ parse "/e\x7d".toList = .error r ∧
      parse ("/v\x7ba\x7d.x".toList ++ "/\x7bb/c\x7d/d".toList) = .ok (t.append t') ∧
      (t.append t').segments.getLast? = some ⟨[.literal ['d'] (some ⟨14, 15⟩)]⟩ ∧
      parse ("/v\x7ba\x7d.x".toList ++ "/e\x7d".toList)
        = .error (r.behind "/v\x7ba\x7d.x".toList) ∧ r.index = some 2) ∧
    ∃ t, parse "/\x7b+p\x7d".toList = .ok t ∧ t.last.kind = .catchAll ∧
      parse ("/\x7b+p\x7d".toList ++ "/q".toList)
        = .error ((Fault.contentAfterCatchAll '/').reject "/\x7b+p\x7d/q".toList 5) := by
  have ht := @eq_ok_get _ _ (parse "/v\x7ba\x7d.x".toList) (by decide)
  have ht' := @eq_ok_get _ _ (parse "/\x7bb/c\x7d/d".toList) (by decide)
  have hclosed := @eq_ok_get _ _ (parse "/\x7b+p\x7d".toList) (by decide)
  have hlast : ((parse "/v\x7ba\x7d.x".toList).toOption.get (by decide)).last.kind ≠ .catchAll := by
    decide
  refine ⟨⟨_, _, _, ht, hlast, ht', rfl, ?_, by decide, ?_, rfl⟩, _, hclosed, by decide, ?_⟩
  · exact ((parse_concatenation ht).1 hlast _ rfl).2.1 _ ht'
  · exact ((parse_concatenation ht).1 hlast _ rfl).2.2 _ rfl
  · exact (parse_concatenation hclosed).2 (by decide) '/' ['q']

end Template

end Routing
