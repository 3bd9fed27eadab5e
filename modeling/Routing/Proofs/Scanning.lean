/-
  SCANNING — what a step of the scanner can do, and what every run keeps.

  1. **Moves.**  `Scan.Move s c s'` lists the seven ways in which a step succeeds, one constructor
     each, and `step_eq_ok_iff` says that there are no others.  Nothing after it opens `Scan.step`.
  2. **Nothing is lost.**  `Scan.spelled` is the text that a state still knows how to spell; a move
     appends its character to it, so after a run it is the whole text that was read.
  3. **Soundness.**  `Scan.Sound` says what the finished segments, the open tokens and the mode can
     be.  It holds at the start, moves keep it, and at the end of a source it is the
     well-formedness of the segments.
-/
import Routing.Proofs.Joining
import Routing.Proofs.Spelling
import Routing.Pattern.Scan

namespace Routing

namespace Scan

/-! ## Moves -/

/-- **The moves of the scanner.** -/
inductive Move : Scan → Char → Scan → Prop
  /-- A character of fixed text. -/
  | text {p d ts start held c} (hc : IsPlain c) :
      Move ⟨p, d, ts, .literal start held⟩ c ⟨p + 1, d, ts, .literal start (c :: held)⟩
  /-- The end of a segment. -/
  | cut {p d ts start held} :
      Move ⟨p, d, ts, .literal start held⟩ separator
        ⟨p + 1, ⟨(flush start held ts).reverse⟩ :: d, [], .literal (p + 1) []⟩
  /-- The brace of the only variable of a segment. -/
  | opening {p d ts start held} (hts : ∀ t ∈ ts, t.isLiteral = true) :
      Move ⟨p, d, ts, .literal start held⟩ openBrace ⟨p + 1, d, flush start held ts, .opened p⟩
  /-- The mark of a reserved variable. -/
  | mark {p d ts start} :
      Move ⟨p, d, ts, .opened start⟩ reservedMarker ⟨p + 1, d, ts, .naming start true []⟩
  /-- The first character of a name without a mark. -/
  | first {p d ts start c} (hc : c ≠ openBrace ∧ c ≠ closeBrace) (hm : c ≠ reservedMarker) :
      Move ⟨p, d, ts, .opened start⟩ c ⟨p + 1, d, ts, .naming start false [c]⟩
  /-- One more character of a name. -/
  | name {p d ts start r held c} (hc : c ≠ openBrace ∧ c ≠ closeBrace) :
      Move ⟨p, d, ts, .naming start r held⟩ c ⟨p + 1, d, ts, .naming start r (c :: held)⟩
  /-- The end of a variable. -/
  | closing {p d ts start r held} (hne : held ≠ []) :
      Move ⟨p, d, ts, .naming start r held⟩ closeBrace
        ⟨p + 1, d, .var ⟨held.reverse, r, some ⟨start, p + 1⟩⟩ :: ts,
          if r then .closed else .literal (p + 1) []⟩

theorem Move.of_stepLiteral {p start : Nat} {d : List Segment} {ts : List Token} {held : Text}
    {s' : Scan} {c : Char}
    (h : stepLiteral ⟨p, d, ts, .literal start held⟩ start held c = .ok s') :
    Move ⟨p, d, ts, .literal start held⟩ c s' := by
  unfold stepLiteral at h
  split at h
  · next hs =>
    cases h
    subst hs
    exact .cut
  · next hs =>
    split at h
    · next ho =>
      split at h
      · nomatch h
      · next hts =>
        cases h
        subst ho
        exact .opening (by simpa using hts)
    · next ho =>
      split at h
      · nomatch h
      · next hc =>
        cases h
        exact .text ⟨hs, ho, hc⟩

theorem Move.of_step {s s' : Scan} {c : Char} (h : s.step c = .ok s') : Move s c s' := by
  obtain ⟨p, d, ts, mode⟩ := s
  cases mode with
  | literal start held => exact .of_stepLiteral h
  | opened start =>
    simp only [step, stepNaming] at h
    split at h
    · next hm =>
      cases h
      subst hm
      exact .mark
    · next hm =>
      split at h
      · nomatch h
      · next ho =>
        split at h
        · nomatch h
        · next hc =>
          cases h
          exact .first ⟨ho, hc⟩ hm
  | naming start r held =>
    simp only [step, stepNaming] at h
    split at h
    · nomatch h
    · next ho =>
      split at h
      · next hc =>
        split at h
        · nomatch h
        · next hne =>
          cases h
          subst hc
          exact .closing hne
      · next hc =>
        cases h
        exact .name ⟨ho, hc⟩
  | closed => nomatch h

theorem Move.step {s s' : Scan} {c : Char} (h : Move s c s') : s.step c = .ok s' := by
  have hos : openBrace ≠ separator := by decide
  have hco : closeBrace ≠ openBrace := by decide
  cases h with
  | text hc => simp [Scan.step, stepLiteral, hc.1, hc.2.1, hc.2.2]
  | cut => simp [Scan.step, stepLiteral]
  | @opening p d ts start held hts =>
    have hany : ts.any (!·.isLiteral) = false := by simpa using hts
    simp [Scan.step, stepLiteral, hos, hany]
  | mark => simp [Scan.step]
  | first hc hm => simp [Scan.step, stepNaming, hm, hc.1, hc.2]
  | name hc => simp [Scan.step, stepNaming, hc.1, hc.2]
  | closing hne => simp [Scan.step, stepNaming, hco, hne]

/-- **A step succeeds exactly by a move.** -/
theorem step_eq_ok_iff {s s' : Scan} {c : Char} : s.step c = .ok s' ↔ Move s c s' :=
  ⟨Move.of_step, Move.step⟩

theorem Move.run_cons {s s' : Scan} {c : Char} (h : Move s c s') (rest : Text) :
    s.run (c :: rest) = s'.run rest := by
  rw [run, h.step]

/-! ## Nothing is lost -/

/-- What a mode has read since the last token. -/
def Mode.spelled : Mode → Text
  | .literal _ held => held.reverse
  | .opened _ => [openBrace]
  | .naming _ r held => openBrace :: ((if r then [reservedMarker] else []) ++ held.reverse)
  | .closed => []

/-- Everything that a state has read, the leading `/` included. -/
def spelled (s : Scan) : Text :=
  separator :: (s.done.reverse.flatMap (fun g => g.spell ++ [separator])
    ++ spellTokens s.tokens.reverse ++ s.mode.spelled)

theorem spellTokens_flush (start : Nat) (held : Text) (ts : List Token) :
    spellTokens (flush start held ts).reverse = spellTokens ts.reverse ++ held.reverse := by
  cases held with
  | nil => simp [flush]
  | cons c held => simp [flush, Token.spell]

/-- A move appends its character to what has been read. -/
theorem Move.spelled {s s' : Scan} {c : Char} (h : Move s c s') :
    s'.spelled = s.spelled ++ [c] := by
  cases h with
  | text hc => simp [Scan.spelled, Mode.spelled]
  | cut => simp [Scan.spelled, Mode.spelled, Segment.spell, spellTokens_flush]
  | opening hts => simp [Scan.spelled, Mode.spelled, spellTokens_flush]
  | mark => simp [Scan.spelled, Mode.spelled]
  | first hc hm => simp [Scan.spelled, Mode.spelled]
  | name hc => simp [Scan.spelled, Mode.spelled]
  | @closing _ _ _ _ r _ hne =>
    cases r <;> simp [Scan.spelled, Mode.spelled, Token.spell, Variable.spell]

theorem spelled_run {s s' : Scan} {text : Text} (h : s.run text = (s', none)) :
    s'.spelled = s.spelled ++ text := by
  induction text generalizing s with
  | nil =>
    obtain rfl : s = s' := congrArg Prod.fst h
    rw [List.append_nil]
  | cons c rest ih =>
    rw [run] at h
    cases hstep : s.step c with
    | error f =>
      rw [hstep] at h
      cases h
    | ok s₁ =>
      rw [hstep] at h
      rw [ih h, (Move.of_step hstep).spelled, List.append_assoc, List.singleton_append]

/-! ## Soundness -/

/-- What a mode and the open tokens before it, newest first, can be. -/
def Mode.Sound (ts : List Token) : Mode → Prop
  | .literal _ held =>
    ts.map Token.isLiteral ∈ [[], [false], [false, true]] ∧ NoReserved ts ∧ ∀ c ∈ held, IsPlain c
  | .opened _ => ts.map Token.isLiteral ∈ [[], [true]]
  | .naming _ r held =>
    ts.map Token.isLiteral ∈ [[], [true]] ∧ (∀ c ∈ held, c ≠ openBrace ∧ c ≠ closeBrace) ∧
      (r = false → held ≠ [] ∧ held.getLast? ≠ some reservedMarker)
  | .closed => ts.map Token.isLiteral ∈ [[false], [false, true]] ∧ NoReserved ts.tail

/-- **What the states of the scanner can be.** -/
structure Sound (s : Scan) : Prop where
  done : ∀ g ∈ s.done, g.WellFormed ∧ NoReserved g.tokens
  tokens : ∀ t ∈ s.tokens, t.WellFormed
  mode : s.mode.Sound s.tokens

theorem sound_start : start.Sound :=
  ⟨by simp [start], by simp [start], by simp [start, Mode.Sound, NoReserved]⟩

theorem mem_flush {start : Nat} {held : Text} {ts : List Token} {t : Token}
    (h : t ∈ flush start held ts) :
    (held ≠ [] ∧ t = .literal held.reverse (some ⟨start, start + held.length⟩)) ∨ t ∈ ts := by
  cases held with
  | nil => exact .inr h
  | cons c held =>
    rcases List.mem_cons.mp h with h | h
    · exact .inl ⟨List.cons_ne_nil c held, h⟩
    · exact .inr h

theorem wellFormed_flush {start : Nat} {held : Text} {ts : List Token}
    (hts : ∀ t ∈ ts, t.WellFormed) (hheld : ∀ c ∈ held, IsPlain c) :
    ∀ t ∈ flush start held ts, t.WellFormed := by
  intro t ht
  rcases mem_flush ht with ⟨hne, rfl⟩ | ht
  · exact ⟨fun h => hne (List.reverse_eq_nil_iff.mp h),
      fun c hc => hheld c (List.mem_reverse.mp hc)⟩
  · exact hts t ht

theorem noReserved_flush {start : Nat} {held : Text} {ts : List Token} (hts : NoReserved ts) :
    NoReserved (flush start held ts) := by
  intro t ht
  rcases mem_flush ht with ⟨_, rfl⟩ | ht
  · rfl
  · exact hts t ht

theorem map_isLiteral_flush (start : Nat) (held : Text) (ts : List Token) :
    (flush start held ts).map Token.isLiteral
      = if held = [] then ts.map Token.isLiteral else true :: ts.map Token.isLiteral := by
  cases held <;> rfl

/-- The segment that the open tokens and the text after them make. -/
theorem wellFormed_pending {start : Nat} {held : Text} {ts : List Token}
    (hts : ∀ t ∈ ts, t.WellFormed)
    (hshape : ts.map Token.isLiteral ∈ [[], [false], [false, true]])
    (hheld : ∀ c ∈ held, IsPlain c) :
    (Segment.mk (flush start held ts).reverse).WellFormed := by
  refine ⟨?_, fun t ht => wellFormed_flush hts hheld t (List.mem_reverse.mp ht)⟩
  show (flush start held ts).reverse.map Token.isLiteral ∈ tokenShapes
  rw [List.map_reverse, map_isLiteral_flush]
  simp only [List.mem_cons, List.not_mem_nil, or_false] at hshape
  rcases hshape with h | h | h <;> rw [h] <;> split <;> decide

theorem noReserved_reverse {ts : List Token} (h : NoReserved ts) : NoReserved ts.reverse :=
  fun t ht => h t (List.mem_reverse.mp ht)

theorem noReserved_of_isLiteral {ts : List Token}
    (h : ts.map Token.isLiteral ∈ [[], [true]]) : NoReserved ts := by
  match ts, h with
  | [], _ => exact fun t ht => absurd ht List.not_mem_nil
  | [.literal t sp], _ => exact fun t ht => by rw [List.mem_singleton.mp ht]; rfl
  | [.var v], h => exact absurd h (by simp [Token.isLiteral])
  | _ :: _ :: _, h => exact absurd h (by simp)

/-- Before the only variable of a segment there is fixed text or nothing. -/
theorem shape_of_closing {ts : List Token} (v : Variable)
    (h : ts.map Token.isLiteral ∈ [[], [true]]) :
    (Token.var v :: ts).map Token.isLiteral ∈ [[false], [false, true]] := by
  rw [List.map_cons]
  simp only [List.mem_cons, List.not_mem_nil, or_false] at h
  rcases h with h | h <;> simp [h, Token.isLiteral]

/-- The variable that a closing brace ends. -/
theorem wellFormed_closing {r : Bool} {held : Text} (span : Option Span) (hne : held ≠ [])
    (hheld : ∀ c ∈ held, c ≠ openBrace ∧ c ≠ closeBrace)
    (hmark : r = false → held ≠ [] ∧ held.getLast? ≠ some reservedMarker) :
    (Token.var ⟨held.reverse, r, span⟩).WellFormed := by
  refine ⟨?_, ?_, ?_⟩
  · intro hnil
    exact hne (List.reverse_eq_nil_iff.mp hnil)
  · intro c hc
    exact hheld c (List.mem_reverse.mp hc)
  · intro hr
    show held.reverse.head? ≠ some reservedMarker
    rw [List.head?_reverse]
    exact (hmark hr).2

/-- **Moves keep soundness.** -/
theorem Move.sound {s s' : Scan} {c : Char} (h : Move s c s') (hs : s.Sound) : s'.Sound := by
  obtain ⟨hdone, htokens, hmode⟩ := hs
  cases h with
  | text hc =>
    obtain ⟨hshape, hres, hheld⟩ := hmode
    exact ⟨hdone, htokens, hshape, hres, List.forall_mem_cons.mpr ⟨hc, hheld⟩⟩
  | cut =>
    obtain ⟨hshape, hres, hheld⟩ := hmode
    refine ⟨List.forall_mem_cons.mpr ⟨⟨?_, ?_⟩, hdone⟩, by simp, by simp, by simp [NoReserved],
      by simp⟩
    · exact wellFormed_pending htokens hshape hheld
    · exact noReserved_reverse (noReserved_flush hres)
  | @opening p d ts start held hts =>
    obtain ⟨hshape, hres, hheld⟩ := hmode
    refine ⟨hdone, wellFormed_flush htokens hheld, ?_⟩
    show (flush start held ts).map Token.isLiteral ∈ [[], [true]]
    -- Without a variable among them there are no open tokens yet.
    have hnil : ts.map Token.isLiteral = [] := by
      simp only [List.mem_cons, List.not_mem_nil, or_false] at hshape
      cases ts with
      | nil => rfl
      | cons t ts =>
        have ht : t.isLiteral = true := hts t List.mem_cons_self
        simp [ht] at hshape
    rw [map_isLiteral_flush, hnil]
    split <;> decide
  | mark => exact ⟨hdone, htokens, hmode, by simp, by simp⟩
  | first hc hm => exact ⟨hdone, htokens, hmode, by simpa using hc, by simpa using hm⟩
  | @name p d ts start r held c hc =>
    obtain ⟨hshape, hheld, hmark⟩ := hmode
    refine ⟨hdone, htokens, hshape, List.forall_mem_cons.mpr ⟨hc, hheld⟩, ?_⟩
    intro hr
    obtain ⟨hne, hlast⟩ := hmark hr
    refine ⟨List.cons_ne_nil c held, ?_⟩
    rwa [List.getLast?_cons_of_ne_nil hne]
  | @closing p d ts start r held hne =>
    -- The variable becomes the newest token, and may be reserved; those before it are not.
    obtain ⟨hshape, hheld, hmark⟩ := hmode
    have hres : NoReserved ts := noReserved_of_isLiteral hshape
    have hvar := wellFormed_closing (some ⟨start, p + 1⟩) hne hheld hmark
    have hclosed := shape_of_closing ⟨held.reverse, r, some ⟨start, p + 1⟩⟩ hshape
    refine ⟨hdone, List.forall_mem_cons.mpr ⟨hvar, htokens⟩, ?_⟩
    cases r with
    | true => exact ⟨hclosed, hres⟩
    | false => exact ⟨List.mem_cons_of_mem _ hclosed, List.forall_mem_cons.mpr ⟨rfl, hres⟩, by simp⟩

/-- A run keeps what every move keeps, also in the state where a fault stops it. -/
theorem run_keeps {P : Scan → Prop} (hP : ∀ {s s' : Scan} {c : Char}, Move s c s' → P s → P s')
    {s : Scan} (h : P s) (text : Text) : P (s.run text).1 := by
  induction text generalizing s with
  | nil => exact h
  | cons c rest ih =>
    rw [run]
    cases hstep : s.step c with
    | error f => exact h
    | ok s₁ => exact ih (hP (.of_step hstep) h)

theorem sound_run (text : Text) : (start.run text).1.Sound :=
  run_keeps Move.sound sound_start text

/-! ## The end of a source -/

/-- The segment that is open at the end. -/
def pending (s : Scan) : Segment :=
  match s.mode with
  | .literal start held => ⟨(flush start held s.tokens).reverse⟩
  | _ => ⟨s.tokens.reverse⟩

theorem finish_eq_ok {s : Scan} {result : { segments : List Segment // segments ≠ [] }}
    (h : s.finish = .ok result) :
    result.val = s.done.reverse ++ [s.pending] ∧
      s.pending.spell = spellTokens s.tokens.reverse ++ s.mode.spelled := by
  obtain ⟨p, d, ts, mode⟩ := s
  cases mode with
  | literal start held =>
    cases h
    exact ⟨List.reverse_cons, spellTokens_flush start held ts⟩
  | opened start => nomatch h
  | naming start r held => nomatch h
  | closed =>
    cases h
    exact ⟨List.reverse_cons, (List.append_nil _).symm⟩

theorem Sound.pending {s : Scan} (hs : s.Sound)
    {result : { segments : List Segment // segments ≠ [] }} (h : s.finish = .ok result) :
    s.pending.WellFormed ∧ NoReserved s.pending.tokens.dropLast := by
  obtain ⟨p, d, ts, mode⟩ := s
  obtain ⟨-, htokens, hmode⟩ := hs
  cases mode with
  | literal start held =>
    obtain ⟨hshape, hres, hheld⟩ := hmode
    refine ⟨wellFormed_pending htokens hshape hheld, fun t ht => ?_⟩
    exact noReserved_reverse (noReserved_flush hres) t (List.dropLast_subset _ ht)
  | opened start => nomatch h
  | naming start r held => nomatch h
  | closed =>
    obtain ⟨hshape, hres⟩ := hmode
    refine ⟨⟨?_, fun t ht => htokens t (List.mem_reverse.mp ht)⟩, ?_⟩
    · show ts.reverse.map Token.isLiteral ∈ tokenShapes
      rw [List.map_reverse]
      simp only [List.mem_cons, List.not_mem_nil, or_false] at hshape
      rcases hshape with h | h <;> rw [h] <;> decide
    · show NoReserved ts.reverse.dropLast
      rw [List.dropLast_reverse]
      exact noReserved_reverse hres

/-- **At the end of a source** a sound state gives well-formed segments, and they spell what was
    read. -/
theorem Sound.finish {s : Scan} (hs : s.Sound)
    {result : { segments : List Segment // segments ≠ [] }} (h : s.finish = .ok result) :
    WellFormed result.val ∧ spell result.val = s.spelled := by
  obtain ⟨hval, hspell⟩ := finish_eq_ok h
  rw [hval]
  refine ⟨wellFormed_concat.mpr ⟨?_, hs.pending h⟩, ?_⟩
  · exact fun g hg => hs.done g (List.mem_reverse.mp hg)
  · rw [spell, List.map_append, List.map_singleton, intercalate_concat, hspell, Scan.spelled,
      List.append_assoc, List.flatMap_map]

end Scan

/-! ## Whole sources

  A run over what follows the first `/` meets a fault, or ends in an open variable, or finishes the
  segments: three equations, and nothing after them opens `Template.scan`. -/

namespace Template

theorem scan_of_fault {rest : Text} {s : Scan} {f : Fault}
    (h : Scan.start.run rest = (s, some f)) :
    scan (separator :: rest)
      = ⟨.error (f.reject (separator :: rest) s.pos), s.mode.phase, s.pos⟩ := by
  rw [scan, if_pos rfl, h]

theorem scan_of_open {rest : Text} {s : Scan} {start : Nat}
    (h : Scan.start.run rest = (s, none)) (hopen : s.finish = .error start) :
    scan (separator :: rest) =
      ⟨.error (Fault.unterminatedVariable.reject (separator :: rest) start), s.mode.phase,
        s.pos⟩ := by
  simp only [scan, if_pos, h, hopen]

theorem scan_of_finish {rest : Text} {s : Scan}
    {result : { segments : List Segment // segments ≠ [] }}
    (h : Scan.start.run rest = (s, none)) (hfinish : s.finish = .ok result) :
    scan (separator :: rest)
      = ⟨.ok ⟨separator :: rest, result.val, result.property⟩, s.mode.phase, s.pos⟩ := by
  simp only [scan, if_pos, h, hfinish]

/-- An accepted source is run over to its end, and what is finished there are its segments. -/
theorem exists_run_of_parse {source : Text} {t : Template} (h : parse source = .ok t) :
    ∃ rest s result, source = separator :: rest ∧ Scan.start.run rest = (s, none) ∧
      s.finish = .ok result ∧ t.raw = source ∧ t.segments = result.val := by
  unfold parse scan at h
  match source, h with
  | c :: rest, h =>
    dsimp only at h
    split at h
    · next hc =>
      subst hc
      split at h
      · nomatch h
      · next s hrun =>
        split at h
        · next result hfinish =>
          cases h
          exact ⟨rest, s, result, rfl, hrun, hfinish, rfl, rfl⟩
        · nomatch h
    · nomatch h

end Template

end Routing
