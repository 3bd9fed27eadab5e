/-
  VIABILITY — a source is refused at the first character that no continuation can mend.

  A text is VIABLE if some source that begins with it is accepted.  The scanner blames the first
  character after which the source is not viable any more, and only for want of characters does it
  refuse a source that is.

  1. **Every state can be completed** (`Scan.exists_completion`): a few characters close what is
     open.  So a text is viable exactly if the run over it meets no fault.
  2. **Where a run stops** (`Scan.run_eq_error`): everything before the character was read without a
     fault, and so is viable.
  3. **What the text shows** (`Scan.Shows`): of a text that has been read, the last brace says
     whether a variable is open, and the last characters say whether a catch-all has ended.  Moves
     keep this, so the phase of the scanner, and with it the category of a fault, can be read off
     the text.
  4. **Where a variable began** (`Scan.Placed`) is kept in the same way, for the one fault that
     blames no character it stopped at.
-/
import Mathlib.Data.List.Infix
import Routing.Proofs.Scanning

namespace Routing

/-! ## Viable texts -/

/-- Some source that begins with the text is accepted. -/
def Viable (text : Text) : Prop := ∃ more t, Template.parse (text ++ more) = .ok t

theorem Viable.of_append {text more : Text} (h : Viable (text ++ more)) : Viable text := by
  obtain ⟨rest, t, ht⟩ := h
  exact ⟨more ++ rest, t, by rwa [← List.append_assoc]⟩

theorem viable_nil : Viable [] := ⟨[separator], _, rfl⟩

theorem not_viable_cons {c : Char} (hc : c ≠ separator) (rest : Text) : ¬ Viable (c :: rest) := by
  rintro ⟨more, t, ht⟩
  rw [List.cons_append, Template.parse, Template.scan, if_neg hc] at ht
  cases ht

namespace Scan

/-! ## Completing a state -/

/-- A name and a brace close the variable of any open mode. -/
theorem exists_completion_naming (p : Nat) (d : List Segment) (ts : List Token) (start : Nat)
    (r : Bool) (held : Text) : ∃ more s' result,
      (⟨p, d, ts, .naming start r held⟩ : Scan).run more = (s', none) ∧ s'.finish = .ok result := by
  have hname : 'a' ≠ openBrace ∧ 'a' ≠ closeBrace := by decide
  refine ⟨['a', closeBrace], ?_⟩
  rw [(Move.name hname).run_cons, (Move.closing (List.cons_ne_nil _ held)).run_cons]
  cases r <;> exact ⟨_, _, rfl, rfl⟩

/-- **Every state can be completed.** -/
theorem exists_completion (s : Scan) :
    ∃ more s' result, s.run more = (s', none) ∧ s'.finish = .ok result := by
  obtain ⟨p, d, ts, mode⟩ := s
  cases mode with
  | literal start held => exact ⟨[], _, _, rfl, rfl⟩
  | closed => exact ⟨[], _, _, rfl, rfl⟩
  | naming start r held => exact exists_completion_naming p d ts start r held
  | opened start =>
    have hfirst : 'a' ≠ openBrace ∧ 'a' ≠ closeBrace := by decide
    obtain ⟨more, s', result, hrun, hfinish⟩ :=
      exists_completion_naming (p + 1) d ts start false ['a']
    refine ⟨'a' :: more, s', result, ?_, hfinish⟩
    rw [(Move.first hfirst (by decide)).run_cons, hrun]

end Scan

/-- **A text is viable exactly if the scanner meets no fault in it.** -/
theorem viable_cons_iff (rest : Text) :
    Viable (separator :: rest) ↔ (Scan.start.run rest).2 = none := by
  constructor
  · rintro ⟨more, t, ht⟩
    obtain ⟨whole, s', -, heq, hrun, -⟩ := Template.exists_run_of_parse ht
    obtain rfl : rest ++ more = whole := (List.cons.inj heq).2
    -- A run that has stopped stays stopped, whatever follows.
    rw [Scan.run_append] at hrun
    cases hrest : Scan.start.run rest with
    | mk s stop =>
      rw [hrest] at hrun
      cases stop with
      | none => rfl
      | some f => nomatch hrun
  · intro hnone
    obtain ⟨s, hs⟩ : ∃ s, Scan.start.run rest = (s, none) := ⟨_, Prod.ext rfl hnone⟩
    obtain ⟨more, s', result, hrun, hfinish⟩ := s.exists_completion
    refine ⟨more, ⟨separator :: (rest ++ more), result.val, result.property⟩, ?_⟩
    have hwhole : Scan.start.run (rest ++ more) = (s', none) := by
      rw [Scan.run_append, hs]
      exact hrun
    rw [List.cons_append, Template.parse, Template.scan_of_finish hwhole hfinish]

instance (text : Text) : Decidable (Viable text) :=
  match text with
  | [] => isTrue viable_nil
  | c :: rest =>
    if hc : c = separator then
      decidable_of_iff ((Scan.start.run rest).2 = none) (hc ▸ (viable_cons_iff rest).symm)
    else isFalse (not_viable_cons hc rest)

/-! ## What a text shows -/

/-- The last brace of a text. -/
def lastBrace? (text : Text) : Option Char :=
  text.reverse.find? fun c => c = openBrace ∨ c = closeBrace

/-- The text ends inside a variable: its last brace opens one. -/
def EndsInVariable (text : Text) : Prop := lastBrace? text = some openBrace

/-- The text ends with a reserved variable. -/
def EndsWithCatchAll (text : Text) : Prop :=
  ∃ v : Variable, v.WellFormed ∧ v.reserved = true ∧ v.spell <:+ text

instance (text : Text) : Decidable (EndsInVariable text) :=
  inferInstanceAs (Decidable (lastBrace? text = some openBrace))

/-- The reserved variable that a text spells, if it spells one. -/
def reservedIn (text : Text) : Variable := ⟨(text.drop 2).dropLast, true, none⟩

theorem reservedIn_spell {v : Variable} (hv : v.reserved = true) :
    reservedIn v.spell = { v with span := none } := by
  obtain ⟨name, r, span⟩ := v
  subst hv
  simp [reservedIn, Variable.spell]

instance (text : Text) : Decidable (EndsWithCatchAll text) :=
  decidable_of_iff
    (∃ rest ∈ text.tails, (reservedIn rest).WellFormed ∧ (reservedIn rest).spell = rest) <| by
    constructor
    · rintro ⟨rest, hrest, hwell, hspell⟩
      exact ⟨reservedIn rest, hwell, rfl, hspell.symm ▸ (List.mem_tails rest text).mp hrest⟩
    · rintro ⟨v, hwell, hres, hsuffix⟩
      refine ⟨v.spell, (List.mem_tails _ _).mpr hsuffix, ?_⟩
      rw [reservedIn_spell hres]
      exact ⟨⟨hwell.nonempty, hwell.braceFree, hwell.unmarked⟩, rfl⟩

theorem lastBrace?_concat (text : Text) (c : Char) :
    lastBrace? (text ++ [c]) = if c = openBrace ∨ c = closeBrace then some c
      else lastBrace? text := by
  rw [lastBrace?, List.reverse_append, List.reverse_singleton, List.singleton_append,
    List.find?_cons]
  by_cases hc : c = openBrace ∨ c = closeBrace
  · simp [hc]
  · simp [hc, lastBrace?]

/-- A character that is no brace neither opens nor closes a variable. -/
theorem endsInVariable_concat {c : Char} (hc : c ≠ openBrace ∧ c ≠ closeBrace) (text : Text) :
    EndsInVariable (text ++ [c]) ↔ EndsInVariable text := by
  rw [EndsInVariable, lastBrace?_concat, if_neg (not_or.mpr hc), EndsInVariable]

theorem not_endsWithCatchAll_concat {c : Char} (hc : c ≠ closeBrace) (text : Text) :
    ¬ EndsWithCatchAll (text ++ [c]) := by
  rintro ⟨v, -, -, hsuffix⟩
  have hspell : v.spell = (openBrace :: ((if v.reserved then [reservedMarker] else []) ++ v.name))
      ++ [closeBrace] := rfl
  rw [hspell] at hsuffix
  obtain ⟨before, hbefore⟩ := hsuffix
  rw [← List.append_assoc] at hbefore
  exact hc (List.append_inj_right' hbefore rfl |> List.cons.inj |>.1).symm

/-- **A variable that is closed is a catch-all exactly if it was marked.** -/
theorem endsWithCatchAll_closing {before held : Text} {r : Bool} (hne : held ≠ [])
    (hbrace : ∀ c ∈ held, c ≠ openBrace ∧ c ≠ closeBrace)
    (hmark : r = false → held.getLast? ≠ some reservedMarker) :
    EndsWithCatchAll (before ++
        openBrace :: ((if r then [reservedMarker] else []) ++ held.reverse) ++ [closeBrace]) ↔
      r = true := by
  constructor
  · rintro ⟨v, hwell, hres, pre, hpre⟩
    by_contra hr
    obtain rfl : r = false := Bool.eq_false_iff.mpr hr
    -- Both readings begin at the last open brace, and only one of them has a mark after it.
    have hspell : v.spell = openBrace :: reservedMarker :: v.name ++ [closeBrace] := by
      rw [Variable.spell, hres]
      rfl
    rw [hspell, ← List.append_assoc] at hpre
    have hcut := List.append_cancel_right hpre
    have hname : openBrace ∉ reservedMarker :: v.name := by
      rw [List.mem_cons]
      exact fun h => h.elim (by decide) fun h => (hwell.braceFree _ h).1 rfl
    have hheld : openBrace ∉ [] ++ held.reverse :=
      fun h => (hbrace _ (List.mem_reverse.mp h)).1 rfl
    have heq := eq_of_cons_suffix ⟨pre, hcut⟩ ⟨before, rfl⟩ hheld hname
    apply hmark rfl
    rw [← List.head?_reverse]
    exact (congrArg List.head? (List.cons.inj heq).2).symm
  · rintro rfl
    refine ⟨⟨held.reverse, true, none⟩, ⟨?_, ?_, fun h => Bool.noConfusion h⟩, rfl, ?_⟩
    · exact fun h => hne (List.reverse_eq_nil_iff.mp h)
    · exact fun c hc => hbrace c (List.mem_reverse.mp hc)
    · exact ⟨before, by simp [Variable.spell]⟩

/-! ## What the scanner knows, the text shows -/

namespace Scan

/-- What a state has read, without what its mode has read since the last token. -/
def settled (s : Scan) : Text :=
  separator :: (s.done.reverse.flatMap (fun g => g.spell ++ [separator])
    ++ spellTokens s.tokens.reverse)

theorem spelled_eq (s : Scan) : s.spelled = s.settled ++ s.mode.spelled := rfl

/-- The phase of a state can be read off the text that it has read. -/
structure Shows (s : Scan) : Prop where
  inVariable : s.mode.phase = .inVariable ↔ EndsInVariable s.spelled
  closed : s.mode.phase = .reservedClosed ↔ EndsWithCatchAll s.spelled

theorem shows_start : start.Shows := ⟨by decide, by decide⟩

/-- A character that is no brace changes neither side. -/
theorem Shows.plain {s s' : Scan} {c : Char} (hs : s.Shows)
    (hspelled : s'.spelled = s.spelled ++ [c]) (hc : c ≠ openBrace ∧ c ≠ closeBrace)
    (hphase : s'.mode.phase = s.mode.phase) (hopen : s.mode.phase ≠ .reservedClosed) :
    s'.Shows := by
  refine ⟨?_, ?_⟩
  · rw [hphase, hspelled, endsInVariable_concat hc]
    exact hs.inVariable
  · rw [hphase, hspelled]
    exact iff_of_false hopen (not_endsWithCatchAll_concat hc.2 _)

theorem Move.shows {s s' : Scan} {c : Char} (h : Move s c s') (hsound : s.Sound) (hs : s.Shows) :
    s'.Shows := by
  have hspelled := h.spelled
  cases h with
  | text hc => exact hs.plain hspelled ⟨hc.2.1, hc.2.2⟩ rfl nofun
  | cut => exact hs.plain hspelled (by decide) rfl nofun
  | opening hts =>
    refine ⟨?_, ?_⟩ <;> rw [hspelled]
    · exact iff_of_true rfl (by rw [EndsInVariable, lastBrace?_concat, if_pos (.inl rfl)])
    · exact iff_of_false nofun (not_endsWithCatchAll_concat (by decide) _)
  | mark => exact hs.plain hspelled (by decide) rfl nofun
  | first hc hm => exact hs.plain hspelled hc rfl nofun
  | name hc => exact hs.plain hspelled hc rfl nofun
  | @closing p d ts start r held hne =>
    obtain ⟨-, hheld, hmark⟩ := hsound.mode
    refine ⟨?_, ?_⟩ <;> rw [hspelled]
    · refine iff_of_false (by cases r <;> nofun) ?_
      rw [EndsInVariable, lastBrace?_concat, if_pos (.inr rfl)]
      decide
    · rw [spelled_eq, Mode.spelled, endsWithCatchAll_closing hne hheld fun hr => (hmark hr).2]
      cases r <;> simp [Mode.phase]

/-- The position is the length of what has been read, and an open variable began where its part of
    the text does. -/
structure Placed (s : Scan) : Prop where
  pos : s.pos = s.spelled.length
  start : ∀ start, s.finish = .error start → start + s.mode.spelled.length = s.pos

theorem placed_start : start.Placed := ⟨rfl, fun _ h => nomatch h⟩

theorem Move.placed {s s' : Scan} {c : Char} (h : Move s c s') (hs : s.Placed) : s'.Placed := by
  have hpos : s'.pos = s.pos + 1 := by cases h <;> rfl
  refine ⟨by rw [hpos, h.spelled, hs.pos, List.length_append, List.length_singleton], ?_⟩
  intro start hstart
  cases h with
  | text | cut => cases hstart
  | opening => cases hstart; rfl
  | mark => cases hstart; rw [hpos, ← hs.start _ rfl]; rfl
  | first => cases hstart; rw [hpos, ← hs.start _ rfl]; rfl
  | name => cases hstart; rw [hpos, ← hs.start _ rfl]; simp [Mode.spelled]; omega
  | @closing _ _ _ _ r _ _ => cases r <;> cases hstart

/-- What is known of every state that is reached. -/
structure Reached (s : Scan) : Prop where
  sound : s.Sound
  shown : s.Shows
  placed : s.Placed

theorem reached_run (text : Text) : (start.run text).1.Reached :=
  run_keeps (fun h hs => ⟨h.sound hs.sound, h.shows hs.sound hs.shown, h.placed hs.placed⟩)
    ⟨sound_start, shows_start, placed_start⟩ text

/-! ## Where a run stops, and why -/

/-- **A run that meets a fault** has read everything before the character without one. -/
theorem run_eq_error {s s' : Scan} {text : Text} {f : Fault} (h : s.run text = (s', some f)) :
    ∃ before c after, text = before ++ c :: after ∧ s.run before = (s', none) ∧
      s'.step c = .error f := by
  induction text generalizing s with
  | nil => nomatch h
  | cons c rest ih =>
    rw [run] at h
    cases hstep : s.step c with
    | error g =>
      rw [hstep] at h
      cases h
      exact ⟨[], c, rest, rfl, rfl, hstep⟩
    | ok s₁ =>
      rw [hstep] at h
      obtain ⟨before, c', after, rfl, hrun, hfault⟩ := ih h
      refine ⟨c :: before, c', after, rfl, ?_, hfault⟩
      rw [run, hstep]
      exact hrun

/-- The faults that each phase can meet, and the characters that cause them. -/
inductive Blocks : Phase → Char → Fault → Prop
  | second : Blocks .literal openBrace .multipleVariables
  | stray : Blocks .literal closeBrace .unmatchedCloseBrace
  | nested : Blocks .inVariable openBrace .nestedOpenBrace
  | unnamed : Blocks .inVariable closeBrace .emptyVariableName
  | trailing {c : Char} : Blocks .reservedClosed c (.contentAfterCatchAll c)

theorem blocks_of_stepLiteral {s : Scan} {start : Nat} {held : Text} {c : Char} {f : Fault}
    (h : s.stepLiteral start held c = .error f) : Blocks .literal c f := by
  unfold stepLiteral at h
  split at h
  · nomatch h
  · split at h
    · next ho =>
      subst ho
      split at h
      · cases h
        exact .second
      · nomatch h
    · split at h
      · next hc =>
        subst hc
        cases h
        exact .stray
      · nomatch h

theorem blocks_of_stepNaming {s : Scan} {start : Nat} {r : Bool} {held : Text} {c : Char}
    {f : Fault} (h : s.stepNaming start r held c = .error f) : Blocks .inVariable c f := by
  unfold stepNaming at h
  split at h
  · next ho =>
    subst ho
    cases h
    exact .nested
  · split at h
    · next hc =>
      subst hc
      split at h
      · cases h
        exact .unnamed
      · nomatch h
    · nomatch h

theorem blocks_of_step {s : Scan} {c : Char} {f : Fault} (h : s.step c = .error f) :
    Blocks s.mode.phase c f := by
  unfold step at h
  split at h
  · next hmode =>
    rw [hmode]
    exact blocks_of_stepLiteral h
  · next hmode =>
    rw [hmode]
    split at h
    · nomatch h
    · exact blocks_of_stepNaming h
  · next hmode =>
    rw [hmode]
    exact blocks_of_stepNaming h
  · next hmode =>
    rw [hmode]
    cases h
    exact .trailing

end Scan

/-- The **category of a character that cannot be mended**, by the text before it. -/
def blame? (read : Text) (c : Char) : Option Category :=
  if read = [] then some .missingLeadingSlash
  else if EndsWithCatchAll read then some .contentAfterCatchAll
  else if EndsInVariable read then
    if c = openBrace then some .nestedOpenBrace
    else if c = closeBrace then some .emptyVariableName
    else none
  else if c = openBrace then some .multipleVariables
  else if c = closeBrace then some .unmatchedCloseBrace
  else none

/-- The text before a fault tells its category. -/
theorem Scan.Shows.blame?_eq {s : Scan} (hs : s.Shows) {c : Char} {f : Fault}
    (h : Blocks s.mode.phase c f) : blame? s.spelled c = some f.category := by
  have hread : s.spelled ≠ [] := List.cons_ne_nil _ _
  rw [blame?, if_neg hread]
  simp only [← hs.closed, ← hs.inVariable]
  generalize s.mode.phase = phase at h
  cases h <;> rfl

example : blame? "/a\x7b+b\x7d".toList '/' = some .contentAfterCatchAll := by decide
example : blame? "/a\x7bb\x7d".toList '\x7b' = some .multipleVariables := by decide
example : blame? "/a\x7b+".toList '\x7d' = some .emptyVariableName := by decide

/-- What an open mode has read is the brace of its variable and a name without another one. -/
theorem Scan.Sound.exists_name {s : Scan} (hs : s.Sound) {start : Nat}
    (h : s.finish = .error start) :
    ∃ name, s.mode.spelled = openBrace :: name ∧ openBrace ∉ name := by
  obtain ⟨p, d, ts, mode⟩ := s
  cases mode with
  | literal | closed => nomatch h
  | opened => exact ⟨[], rfl, List.not_mem_nil⟩
  | naming start r held =>
    obtain ⟨-, hheld, -⟩ := hs.mode
    refine ⟨_, rfl, fun hmem => ?_⟩
    rcases List.mem_append.mp hmem with hmem | hmem
    · cases r <;> revert hmem <;> decide
    · exact (hheld _ (List.mem_reverse.mp hmem)).1 rfl

/-! ## Refusals -/

namespace Template

/-- The source is refused for a category, at an index, with the scanner at a position. -/
def RefusedAt (source : Text) (category : Category) (index pos : Nat) : Prop :=
  ∃ r, (scan source).result = .error r ∧ r.category = category ∧ r.index = some (index : Int) ∧
    (scan source).pos = pos

theorem refusedAt_nil : RefusedAt [] .emptyPattern 0 0 := ⟨_, rfl, rfl, rfl, rfl⟩

theorem refusedAt_cons {c : Char} (hc : c ≠ separator) (rest : Text) :
    RefusedAt (c :: rest) .missingLeadingSlash 0 0 := by
  refine ⟨Fault.missingLeadingSlash.reject (c :: rest) 0, ?_, rfl, rfl, ?_⟩ <;>
    rw [scan, if_neg hc]

theorem refusedAt_of_run {rest : Text} {s : Scan} {f : Fault}
    (h : Scan.start.run rest = (s, some f)) :
    RefusedAt (separator :: rest) f.category s.pos s.pos := by
  refine ⟨f.reject (separator :: rest) s.pos, ?_, rfl, rfl, ?_⟩ <;> rw [scan_of_fault h]

theorem refusedAt_of_finish {rest : Text} {s : Scan} {start : Nat}
    (h : Scan.start.run rest = (s, none)) (hstart : s.finish = .error start) :
    RefusedAt (separator :: rest) .unterminatedVariable start s.pos := by
  refine ⟨Fault.unterminatedVariable.reject (separator :: rest) start, ?_, rfl, rfl, ?_⟩ <;>
    rw [scan_of_open h hstart]

/-- **A source that is not viable** is refused at the first character that makes it so. -/
theorem refusedAt_of_not_viable {source : Text} (h : ¬ Viable source) :
    ∃ i c category, source[i]? = some c ∧ ¬ Viable (source.take (i + 1)) ∧
      Viable (source.take i) ∧ blame? (source.take i) c = some category ∧
      RefusedAt source category i i := by
  cases source with
  | nil => exact absurd viable_nil h
  | cons c rest =>
    by_cases hc : c = separator
    · subst hc
      obtain ⟨s, f, hrun⟩ : ∃ s f, Scan.start.run rest = (s, some f) := by
        obtain ⟨f, hf⟩ := Option.ne_none_iff_exists'.mp (mt (viable_cons_iff rest).mpr h)
        exact ⟨_, f, Prod.ext rfl hf⟩
      have hreached : s.Reached := by simpa [hrun] using Scan.reached_run rest
      -- The state in which the run stops has read just what stands before the character.
      obtain ⟨before, c, after, rfl, hbefore, hstep⟩ := Scan.run_eq_error hrun
      have hread : s.spelled = separator :: before := Scan.spelled_run hbefore
      have hpos : s.pos = before.length + 1 := by rw [hreached.placed.pos, hread, List.length_cons]
      refine ⟨before.length + 1, c, f.category, by simp, ?_, ?_, ?_, hpos ▸ refusedAt_of_run hrun⟩
      · have htake : (separator :: (before ++ c :: after)).take (before.length + 1 + 1)
            = separator :: (before ++ [c]) := by simp [List.take_append]
        rw [htake, viable_cons_iff, Scan.run_append, hbefore]
        simp [Scan.run, hstep]
      · rw [List.take_succ_cons, List.take_left, viable_cons_iff, hbefore]
      · rw [List.take_succ_cons, List.take_left, ← hread]
        exact hreached.shown.blame?_eq (Scan.blocks_of_step hstep)
    · exact ⟨0, c, .missingLeadingSlash, rfl, not_viable_cons hc [], viable_nil, rfl,
        refusedAt_cons hc rest⟩

/-- **A source that is viable and not accepted** is empty, or ends in an open variable, and is
    refused at its brace. -/
theorem refusedAt_of_viable {source : Text} (h : Viable source)
    (hno : ¬ ∃ t, parse source = .ok t) :
    (source = [] ∧ RefusedAt source .emptyPattern 0 0) ∨
      ∃ before name, source = before ++ openBrace :: name ∧ openBrace ∉ name ∧
        RefusedAt source .unterminatedVariable before.length source.length := by
  cases source with
  | nil => exact .inl ⟨rfl, refusedAt_nil⟩
  | cons c rest =>
    right
    obtain rfl : c = separator := by
      by_contra hc
      exact not_viable_cons hc rest h
    obtain ⟨s, hrun⟩ : ∃ s, Scan.start.run rest = (s, none) :=
      ⟨_, Prod.ext rfl ((viable_cons_iff rest).mp h)⟩
    have hreached : s.Reached := by simpa [hrun] using Scan.reached_run rest
    have hread : s.spelled = separator :: rest := Scan.spelled_run hrun
    cases hfinish : s.finish with
    | ok result =>
      refine absurd ⟨⟨separator :: rest, result.val, result.property⟩, ?_⟩ hno
      rw [parse, scan_of_finish hrun hfinish]
    | error start =>
      have hrefused := refusedAt_of_finish hrun hfinish
      rw [hreached.placed.pos, hread] at hrefused
      obtain ⟨name, hname, hbrace⟩ := hreached.sound.exists_name hfinish
      have hlen : start = s.settled.length := by
        have hstart := hreached.placed.start start hfinish
        rw [hreached.placed.pos, s.spelled_eq, List.length_append] at hstart
        omega
      exact ⟨s.settled, name, by rw [← hread, s.spelled_eq, hname], hbrace, hlen ▸ hrefused⟩

/-- **Refusals blame the earliest point of no return.**  A source that is not viable is refused at
    the least index up to which it is not, with the scanner there, and the category is that of the
    character after the text before it.  A source that is viable and not accepted is refused as
    empty, or at the last brace that it opens, with the scanner at the end.  So the index is always
    that of a character, or zero. -/
theorem refused_at_earliest (source : Text) :
    (¬ Viable source → ∃ i c category, source[i]? = some c ∧ ¬ Viable (source.take (i + 1)) ∧
      (∀ j < i, Viable (source.take (j + 1))) ∧ blame? (source.take i) c = some category ∧
      RefusedAt source category i i) ∧
    (Viable source → (¬ ∃ t, parse source = .ok t) →
      (source = [] ∧ RefusedAt source .emptyPattern 0 0) ∨
        ∃ before name, source = before ++ openBrace :: name ∧ openBrace ∉ name ∧
          RefusedAt source .unterminatedVariable before.length source.length) ∧
    ∀ r, parse source = .error r → ∃ i : Nat, r.index = some (i : Int) ∧
      i ≤ source.length - 1 := by
  refine ⟨fun h => ?_, refusedAt_of_viable, fun r hr => ?_⟩
  · obtain ⟨i, c, category, hc, hno, hbefore, hblame, hrefused⟩ := refusedAt_of_not_viable h
    refine ⟨i, c, category, hc, hno, fun j hj => ?_, hblame, hrefused⟩
    have hprefix : source.take (j + 1) <+: source.take i := List.take_prefix_take_left hj
    obtain ⟨more, hmore⟩ := hprefix
    exact Viable.of_append (hmore ▸ hbefore)
  · -- Whatever the category, the index is one that a refusal above names.
    have hindex : ∃ category i pos, RefusedAt source category i pos ∧ i ≤ source.length - 1 := by
      by_cases h : Viable source
      · have hno : ¬ ∃ t, parse source = .ok t := fun ⟨t, ht⟩ => nomatch hr.symm.trans ht
        rcases refusedAt_of_viable h hno with ⟨-, hrefused⟩ | ⟨before, name, heq, -, hrefused⟩
        · exact ⟨_, _, _, hrefused, Nat.zero_le _⟩
        · refine ⟨_, _, _, hrefused, ?_⟩
          rw [heq, List.length_append, List.length_cons]
          omega
      · obtain ⟨i, c, category, hc, -, -, -, hrefused⟩ := refusedAt_of_not_viable h
        obtain ⟨hi, -⟩ := List.getElem?_eq_some_iff.mp hc
        exact ⟨_, _, _, hrefused, by omega⟩
    obtain ⟨category, i, pos, ⟨r', hr', -, hi, -⟩, hle⟩ := hindex
    obtain rfl : r = r' := Except.error.inj (hr.symm.trans hr')
    exact ⟨i, hi, hle⟩

theorem refused_at_earliest_catchAll :
    (¬ Viable "/a\x7bb\x7d/\x7b+c\x7d/d".toList ∧
      ∃ i category, RefusedAt "/a\x7bb\x7d/\x7b+c\x7d/d".toList category i i) ∧
    Viable "/a/\x7b+b/c".toList ∧ (¬ ∃ t, parse "/a/\x7b+b/c".toList = .ok t) ∧
      ∃ i, RefusedAt "/a/\x7b+b/c".toList .unterminatedVariable i 8 := by
  have hno : ¬ Viable "/a\x7bb\x7d/\x7b+c\x7d/d".toList := by decide
  have hviable : Viable "/a/\x7b+b/c".toList := by decide
  have hopen : ¬ ∃ t, parse "/a/\x7b+b/c".toList = .ok t := by
    rintro ⟨t, ht⟩
    have hsome : (parse "/a/\x7b+b/c".toList).toOption.isSome = false := by decide
    rw [ht] at hsome
    nomatch hsome
  refine ⟨⟨hno, ?_⟩, hviable, hopen, ?_⟩
  · obtain ⟨i, c, category, -, -, -, -, hrefused⟩ := (refused_at_earliest _).1 hno
    exact ⟨i, category, hrefused⟩
  · rcases (refused_at_earliest _).2.1 hviable hopen with ⟨hnil, -⟩ | ⟨before, name, -, -, hrefused⟩
    · nomatch hnil
    · exact ⟨before.length, hrefused⟩

end Template

end Routing
