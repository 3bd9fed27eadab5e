/-
  CARETS — what the lines of a rejection show, and when the caret stands under what it blames.

  A rejection is laid out as a text, and a reader sees the lines between its line feeds.

  1. **What a reader expects** (`Rejection.ShownBy`) is said of any list of lines: the summary, the
     source, a caret in the column of the blamed character, and the advice with its numbers.
  2. **A refusal blames a character of its source** (`Template.exists_fault`), and no other part of
     the source enters its wording than the character found after a catch-all.
  3. **The crux** (`Fault.splitOn_format`): joined lines that are cut again give the cuts of each
     (`splitOn_intercalate_eq`).  So what is seen is broken up by the line feeds of the source, and
     by nothing else, while the caret counts them as columns.
-/
import Mathlib.Data.List.TakeWhile
import Routing.Proofs.Joining
import Routing.Proofs.Viability

namespace Routing

/-! ## Texts on one line -/

theorem break_not_mem_ofNat (n : Nat) : '\n' ∉ Text.ofNat n := by
  intro h
  exact absurd (Text.isDigit_of_mem_ofNat h) (by decide)

theorem break_not_mem_ofInt (n : Int) : '\n' ∉ Text.ofInt n := by
  cases n with
  | ofNat n => exact break_not_mem_ofNat n
  | negSucc n =>
    intro h
    rcases List.mem_cons.mp h with h | h
    · exact absurd h (by decide)
    · exact break_not_mem_ofNat (n + 1) h

/-- The only line feed that a wording can have is the character it repeats. -/
theorem Fault.eq_of_break {f : Fault} (h : '\n' ∈ f.message) : f = .contentAfterCatchAll '\n' := by
  cases f with
  | contentAfterCatchAll c =>
    have hmem : '\n' ∈ "unexpected '".toList ∨ '\n' ∈ c :: "' after catch-all variable".toList :=
      List.mem_append.mp h
    rcases hmem with hfront | hback
    · exact absurd hfront (by decide)
    · rcases List.mem_cons.mp hback with rfl | hrest
      · rfl
      · exact absurd hrest (by decide)
  | _ => exact absurd h (by decide)

theorem Category.break_not_mem_suggestions (c : Category) : ∀ s ∈ c.suggestions, '\n' ∉ s := by
  cases c <;> decide

/-! ## What a fault blames -/

namespace Template

/-- **A refusal blames a character of its source** for a fault, and the character that the wording
    repeats is one of the source. -/
theorem exists_fault {source : Text} {r : Rejection} (hne : source ≠ [])
    (h : parse source = .error r) : ∃ f i, r = Fault.reject f source i ∧ i < source.length ∧
      ∀ c, f = .contentAfterCatchAll c → c ∈ source := by
  obtain ⟨c, rest, rfl⟩ := List.exists_cons_of_ne_nil hne
  by_cases hc : c = separator
  · subst hc
    rcases hrun : Scan.start.run rest with ⟨s, _ | f⟩
    · have hreached : s.Reached := by simpa [hrun] using Scan.reached_run rest
      cases hfinish : s.finish with
      | ok result =>
        rw [parse, scan_of_finish hrun hfinish] at h
        cases h
      | error start =>
        rw [parse, scan_of_open hrun hfinish] at h
        refine ⟨.unterminatedVariable, start, (Except.error.inj h).symm, ?_,
          fun c hc => by cases hc⟩
        -- What is open begins with its brace, and ends where the source does.
        obtain ⟨name, hname, -⟩ := hreached.sound.exists_name hfinish
        have hstart := hreached.placed.start start hfinish
        have hread : s.spelled = separator :: rest := Scan.spelled_run hrun
        rw [hreached.placed.pos, hread, hname, List.length_cons] at hstart
        omega
    · rw [parse, scan_of_fault hrun] at h
      have hreached : s.Reached := by simpa [hrun] using Scan.reached_run rest
      obtain ⟨before, c, after, rfl, hbefore, hstep⟩ := Scan.run_eq_error hrun
      refine ⟨f, s.pos, (Except.error.inj h).symm, ?_, ?_⟩
      · have hread : s.spelled = separator :: before := Scan.spelled_run hbefore
        rw [hreached.placed.pos, hread]
        simp
      · rintro c' rfl
        have hblocks := Scan.blocks_of_step hstep
        generalize s.mode.phase = phase at hblocks
        cases hblocks
        simp
  · rw [parse, scan, if_neg hc] at h
    refine ⟨.missingLeadingSlash, 0, (Except.error.inj h).symm, Nat.succ_pos _, ?_⟩
    intro c' hc'
    cases hc'

end Template

/-! ## What a reader expects to see -/

/-- The lines show a rejection of a source: under a heading stand the source, a caret in the column
    of the blamed character, which exists, and the advice, numbered from one. -/
structure Rejection.ShownBy (r : Rejection) (source : Text) (lines : List Text) : Prop where
  heading : lines[0]? = some ("PatternSyntaxError: ".toList ++ r.summary)
  shown : lines[1]? = some ("  ".toList ++ source)
  caret : ∃ i : Nat, r.index = some (i : Int) ∧ i < source.length ∧
    lines[2]? = some (List.replicate (2 + i) ' ' ++ ['^'])
  advice : lines.drop 3 =
    if r.suggestions = [] then []
    else "Suggestions:".toList :: r.suggestions.mapIdx fun k s =>
      "  ".toList ++ Text.ofNat (k + 1) ++ ") ".toList ++ s

/-! ## The lines of a layout -/

theorem Diagnostic.advice_eq (d : Diagnostic) :
    d.advice = if d.suggestions = [] then []
      else "Suggestions:".toList :: d.suggestions.mapIdx fun k s =>
        "  ".toList ++ Text.ofNat (k + 1) ++ ") ".toList ++ s := by
  unfold advice
  cases d.suggestions with
  | nil => rfl
  | cons s rest =>
    rw [if_neg (List.cons_ne_nil s rest), List.mapIdx_eq_zipIdx_map]
    show _ :: List.map _ ((s :: rest).zipIdx (0 + 1)) = _
    rw [List.zipIdx_succ, List.map_map]
    rfl

/-- Advice on one line each is shown on lines of their own. -/
theorem Diagnostic.break_not_mem_advice {d : Diagnostic} (h : ∀ s ∈ d.suggestions, '\n' ∉ s) :
    ∀ line ∈ d.advice, '\n' ∉ line := by
  intro line hline
  rw [d.advice_eq] at hline
  split at hline
  · exact absurd hline List.not_mem_nil
  · rcases List.mem_cons.mp hline with rfl | hline
    · decide
    · obtain ⟨k, hk, rfl⟩ := List.mem_mapIdx.mp hline
      have hs : '\n' ∉ d.suggestions[k] := h _ (List.getElem_mem hk)
      have hnumber := break_not_mem_ofNat (k + 1)
      simp only [List.mem_append, not_or]
      exact ⟨⟨⟨by decide, hnumber⟩, by decide⟩, hs⟩

theorem Rejection.splitOn_format (r : Rejection) :
    r.format.splitOn '\n' = (r.toDiagnostic.lines heading).flatMap (List.splitOn '\n') :=
  splitOn_intercalate_eq '\n' (List.cons_ne_nil _ _)

theorem flatMap_splitOn_eq_self {lines : List Text} (h : ∀ line ∈ lines, '\n' ∉ line) :
    lines.flatMap (List.splitOn '\n') = lines := by
  induction lines with
  | nil => rfl
  | cons line lines ih =>
    rw [List.flatMap_cons, List.splitOn_eq_singleton (h line List.mem_cons_self),
      ih fun l hl => h l (List.mem_cons_of_mem _ hl), List.singleton_append]

namespace Fault

variable (f : Fault) {source : Text} (i : Nat)

/-- The summary of a rejection has no line feed unless the wording repeats one. -/
theorem break_not_mem_summary (hf : f ≠ .contentAfterCatchAll '\n') (source : Text) :
    '\n' ∉ (f.reject source i).summary := by
  show '\n' ∉ f.message ++ " at index ".toList ++ Text.ofNat i
  simp only [List.mem_append, not_or]
  exact ⟨⟨fun h => hf (eq_of_break h), by decide⟩, break_not_mem_ofInt i⟩

/-- **What is seen of a rejection**: the summary and the source broken up at their line feeds, and
    the caret and the advice as they are. -/
theorem splitOn_format (hne : source ≠ []) :
    (f.reject source i).format.splitOn '\n' =
      ("PatternSyntaxError: ".toList ++ (f.reject source i).summary).splitOn '\n' ++
        ("  ".toList ++ source).splitOn '\n' ++
        (List.replicate (2 + i) ' ' ++ ['^']) :: (f.reject source i).advice := by
  have hpointer : (f.reject source i).pointer =
      ["  ".toList ++ source, List.replicate (2 + i) ' ' ++ ['^']] := by
    obtain ⟨c, rest, rfl⟩ := List.exists_cons_of_ne_nil hne
    have hblanks : "  ".toList = List.replicate 2 ' ' := rfl
    show ["  ".toList ++ c :: rest, "  ".toList ++ List.replicate i ' ' ++ ['^']] = _
    rw [hblanks, List.replicate_append_replicate]
  have hcaret : '\n' ∉ List.replicate (2 + i) ' ' ++ ['^'] := by
    intro h
    rcases List.mem_append.mp h with h | h
    · exact absurd (List.eq_of_mem_replicate h) (by decide)
    · exact absurd (List.mem_singleton.mp h) (by decide)
  have hheading : Rejection.heading ++ ": ".toList = "PatternSyntaxError: ".toList := by decide
  have hadvice := Diagnostic.break_not_mem_advice (d := (f.reject source i).toDiagnostic)
    f.category.break_not_mem_suggestions
  rw [Rejection.splitOn_format, Diagnostic.lines, hpointer, List.flatMap_append,
    flatMap_splitOn_eq_self hadvice, List.flatMap_cons, List.flatMap_cons, List.flatMap_singleton,
    List.splitOn_eq_singleton hcaret, hheading]
  simp only [List.append_assoc, List.singleton_append]

end Fault

/-! ## Where a character stands -/

/-- The column, within its line, of the character at an index of a text. -/
def Text.column (t : Text) (i : Nat) : Nat := ((t.take i).reverse.takeWhile (· ≠ '\n')).length

/-- A column counts all characters before it exactly if they are on one line. -/
theorem Text.column_eq_iff {t : Text} {i : Nat} (hi : i ≤ t.length) :
    t.column i = i ↔ '\n' ∉ t.take i := by
  have hlen : (t.take i).reverse.length = i := by
    rw [List.length_reverse, List.length_take, Nat.min_eq_left hi]
  have hall : t.column i = i ↔ (t.take i).reverse.takeWhile (· ≠ '\n') = (t.take i).reverse := by
    refine ⟨fun h => ?_, fun h => (congrArg List.length h).trans hlen⟩
    exact (List.takeWhile_prefix _).eq_of_length (h.trans hlen.symm)
  rw [hall, List.takeWhile_eq_self_iff]
  simp only [List.mem_reverse, decide_eq_true_eq]
  exact ⟨fun h hmem => h _ hmem rfl, fun h c hc heq => h (heq ▸ hc)⟩

namespace Template

/-- **A rejection is shown as expected exactly if its source is one line.**  Take any source that is
    not empty and is refused.

    1. The lines of the layout are the expected ones if and only if the source has no line feed.
    2. Whatever the source, they are the summary and the source, each broken up at its line feeds,
       then the caret and the advice.
    3. The caret stands under the blamed character, in the last line of the source and in the column
       that the character has there, if and only if the source has no line feed. -/
theorem shownBy_format {source : Text} {r : Rejection} (hne : source ≠ [])
    (h : parse source = .error r) :
    (r.ShownBy source (r.format.splitOn '\n') ↔ '\n' ∉ source) ∧
    ∃ i : Nat, r.index = some (i : Int) ∧ i < source.length ∧
      r.format.splitOn '\n' =
        ("PatternSyntaxError: ".toList ++ r.summary).splitOn '\n' ++
          ("  ".toList ++ source).splitOn '\n' ++
          (List.replicate (2 + i) ' ' ++ ['^']) :: r.advice ∧
      (Text.column ("  ".toList ++ source) (2 + i) = 2 + i ∧ '\n' ∉ source.drop i ↔
        '\n' ∉ source) := by
  obtain ⟨f, i, rfl, hi, hfound⟩ := exists_fault hne h
  have hlines := f.splitOn_format i hne
  have hblanks : '\n' ∉ "  ".toList := by decide
  refine ⟨⟨fun hshown hmem => ?_, fun hno => ?_⟩, i, rfl, hi, hlines, ?_⟩
  · exact not_mem_of_mem_splitOn (List.mem_of_getElem? hshown.shown) (List.mem_append_right _ hmem)
  · have hheading : '\n' ∉ "PatternSyntaxError: ".toList ++ (f.reject source i).summary := by
      rw [List.mem_append, not_or]
      exact ⟨by decide, f.break_not_mem_summary i (fun hf => hno (hfound '\n' hf)) source⟩
    have hsource : '\n' ∉ "  ".toList ++ source := by
      rw [List.mem_append, not_or]
      exact ⟨hblanks, hno⟩
    rw [List.splitOn_eq_singleton hheading, List.splitOn_eq_singleton hsource] at hlines
    rw [hlines]
    exact ⟨rfl, rfl, ⟨i, rfl, hi, rfl⟩, Diagnostic.advice_eq _⟩
  · have hcolumn : 2 + i ≤ ("  ".toList ++ source).length := by
      rw [List.length_append]
      show 2 + i ≤ 2 + source.length
      omega
    have hfront : ("  ".toList ++ source).take (2 + i) = "  ".toList ++ source.take i :=
      @List.take_length_add_append _ "  ".toList _ i
    have hcut : '\n' ∈ source ↔ '\n' ∈ source.take i ∨ '\n' ∈ source.drop i := by
      rw [← List.mem_append, List.take_append_drop]
    rw [Text.column_eq_iff hcolumn, hfront, List.mem_append, hcut]
    tauto

/-- A variable is open at the end, and so the blamed brace is not where the scanner stopped. -/
theorem shownBy_format_open :
    "/\r\x7bé".toList ≠ [] ∧ ∃ r, parse "/\r\x7bé".toList = .error r ∧
      r.ShownBy "/\r\x7bé".toList (r.format.splitOn '\n') ∧ r.index = some 2 := by
  have hne : "/\r\x7bé".toList ≠ [] := List.cons_ne_nil _ _
  have hparse : parse "/\r\x7bé".toList
      = .error (Fault.unterminatedVariable.reject "/\r\x7bé".toList 2) := rfl
  exact ⟨hne, _, hparse, (shownBy_format hne hparse).1.mpr (by decide), rfl⟩

/-- Of a source on two lines, the second stands where the caret is expected, and the caret stands
    under nothing. -/
theorem not_shownBy_format_broken :
    ∃ r, parse "/a\n\x7d".toList = .error r ∧ r.index = some 3 ∧
      r.format.splitOn '\n' =
        ["PatternSyntaxError: unmatched '\x7d' at index 3".toList, "  /a".toList, ['\x7d'],
          "     ^".toList, "Suggestions:".toList,
          "  1) Remove the stray '\x7d' or add a matching '\x7b'".toList] ∧
      ¬ r.ShownBy "/a\n\x7d".toList (r.format.splitOn '\n') := by
  refine ⟨Fault.unmatchedCloseBrace.reject "/a\n\x7d".toList 3, rfl, rfl, by decide, fun h => ?_⟩
  exact absurd h.shown (by decide)

end Template

end Routing
