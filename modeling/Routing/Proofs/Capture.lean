/-
  CAPTURE — the matcher as one recursion along segments and fields.

  `matchFields` first looks for a catch-all at the end, then counts fields, then binds names while
  it walks.  Here it is taken apart:

  1. a segment alone captures a value exactly when its field is the value between the fixed ends
     (`Segment.capture?_eq_some_iff`), whatever its tokens are;
  2. `matchFrom` is the matcher from any bindings on, and goes along segments and fields in step
     (`matchFrom_cons`), again for all segments;
  3. `captures?` keeps only the values, in the order of the variables, and on well-formed segments
     the bindings are the names of the variables bound to them one after the other (`matchFrom_eq`).
-/
import Routing.Proofs.Joining
import Routing.Proofs.Spelling
import Routing.Route.Match

namespace Routing

/-! ## One segment and one field -/

namespace Segment

theorem capture?_eq_some_iff (s : Segment) (field value : Text) :
    s.capture? field = some value ↔ value ≠ [] ∧ field = s.head ++ value ++ s.tail := by
  unfold capture?
  constructor
  · intro h
    split at h
    · next hc =>
      obtain ⟨hlen, hpre, hsuf⟩ := hc
      obtain ⟨rest, hrest⟩ := List.isPrefixOf_iff_prefix.mp hpre
      subst hrest
      rw [List.length_append] at hlen
      have htail : s.tail <:+ rest :=
        List.suffix_of_suffix_length_le (List.isSuffixOf_iff_suffix.mp hsuf)
          (List.suffix_append _ _) (by omega)
      obtain ⟨middle, hmiddle⟩ := htail
      subst hmiddle
      rw [List.length_append] at hlen
      obtain rfl : _ = value := Option.some.inj h
      have hvalue : ((s.head ++ (middle ++ s.tail)).drop s.head.length).take
          ((s.head ++ (middle ++ s.tail)).length - s.head.length - s.tail.length) = middle := by
        rw [List.drop_left, List.length_append, List.length_append,
          show s.head.length + (middle.length + s.tail.length) - s.head.length - s.tail.length
            = middle.length by omega, List.take_left]
      rw [hvalue]
      refine ⟨fun hnil => ?_, (List.append_assoc _ _ _).symm⟩
      rw [hnil, List.length_nil] at hlen
      omega
    · nomatch h
  · rintro ⟨hne, rfl⟩
    have hpos : 0 < value.length := List.length_pos_iff.mpr hne
    have hpre : s.head <+: s.head ++ value ++ s.tail :=
      (List.prefix_append _ _).trans (List.prefix_append _ _)
    rw [if_pos ⟨by rw [List.length_append, List.length_append]; omega,
      List.isPrefixOf_iff_prefix.mpr hpre,
      List.isSuffixOf_iff_suffix.mpr (List.suffix_append _ _)⟩]
    rw [List.append_assoc, List.drop_left, List.length_append, List.length_append,
      show s.head.length + (value.length + s.tail.length) - s.head.length - s.tail.length
        = value.length by omega, List.take_left]

theorem captureRest?_eq_some_iff (s : Segment) (text value : Text) :
    s.captureRest? text = some value ↔ value ≠ [] ∧ text = s.head ++ value := by
  unfold captureRest?
  constructor
  · intro h
    split at h
    · next hc =>
      obtain ⟨hlen, hpre⟩ := hc
      obtain ⟨rest, rfl⟩ := List.isPrefixOf_iff_prefix.mp hpre
      rw [List.drop_left] at h
      obtain rfl : rest = value := Option.some.inj h
      refine ⟨fun hnil => ?_, rfl⟩
      rw [hnil, List.append_nil] at hlen
      omega
    · nomatch h
  · rintro ⟨hne, rfl⟩
    have hpos : 0 < value.length := List.length_pos_iff.mpr hne
    rw [if_pos ⟨by rw [List.length_append]; omega,
      List.isPrefixOf_iff_prefix.mpr (List.prefix_append _ _)⟩, List.drop_left]

/-- The values that a segment takes from one field. -/
def captures? (s : Segment) (field : Text) : Option (List Text) :=
  match s.var? with
  | none => if field = s.literal then some [] else none
  | some _ => (s.capture? field).map ([·])

theorem mem_of_var? {s : Segment} {v : Variable} (h : s.var? = some v) :
    Token.var v ∈ s.tokens := by
  obtain ⟨t, ht, hv⟩ := List.exists_of_findSome?_eq_some h
  cases t with
  | literal t span => nomatch hv
  | var w => rwa [← Option.some.inj hv]

end Segment

/-! ## The matcher from any bindings on -/

/-- The matcher with bindings to begin with. -/
def matchFrom (segments : List Segment) (fields : List Text) (b : Bindings) : Option Bindings :=
  match finalCatchAll? segments with
  | some (last, v) =>
    let leading := segments.dropLast
    if fields.length ≤ leading.length then none
    else
      (acceptAll leading (fields.take leading.length) b).bind fun b =>
        (last.captureRest? (List.intercalate [separator] (fields.drop leading.length))).map
          fun value => b.put v.name value
  | none => if fields.length = segments.length then acceptAll segments fields b else none

theorem matchFields_eq_matchFrom (segments : List Segment) (fields : List Text) :
    matchFields segments fields = matchFrom segments fields [] := rfl

theorem matchFrom_cons (s : Segment) {rest : List Segment} (hne : rest ≠ []) (field : Text)
    (fields : List Text) (b : Bindings) :
    matchFrom (s :: rest) (field :: fields) b
      = (s.accept field b).bind (matchFrom rest fields) := by
  -- Both sides look at the same last segment.
  have hlast : finalCatchAll? (s :: rest) = finalCatchAll? rest := by
    rw [finalCatchAll?, List.getLast?_cons_of_ne_nil hne, finalCatchAll?]
  unfold matchFrom
  rw [hlast]
  cases finalCatchAll? rest with
  | some final =>
    obtain ⟨last, v⟩ := final
    simp only [List.dropLast_cons_of_ne_nil hne, List.length_cons, Nat.add_le_add_iff_right]
    by_cases hlen : fields.length ≤ rest.dropLast.length
    · simp only [if_pos hlen]
      cases s.accept field b <;> rfl
    · simp only [if_neg hlen, List.take_succ_cons, List.drop_succ_cons, acceptAll,
        Option.bind_assoc]
  | none =>
    simp only [List.length_cons, Nat.add_right_cancel_iff]
    by_cases hlen : fields.length = rest.length
    · simp only [if_pos hlen, acceptAll]
    · simp only [if_neg hlen]
      cases s.accept field b <;> rfl

theorem matchFrom_nil (segments : List Segment) (hne : segments ≠ []) (b : Bindings) :
    matchFrom segments [] b = none := by
  unfold matchFrom
  split
  · exact if_pos (Nat.zero_le _)
  · exact if_neg fun h => hne (List.length_eq_zero_iff.mp h.symm)

theorem matchFrom_singleton (s : Segment) (field : Text) (fields : List Text) (b : Bindings) :
    matchFrom [s] (field :: fields) b =
      match s.var? with
      | none => if fields = [] then s.accept field b else none
      | some v =>
        if v.reserved then
          (s.captureRest? (List.intercalate [separator] (field :: fields))).map
            fun value => b.put v.name value
        else if fields = [] then s.accept field b else none := by
  have hacc : (s.accept field b).bind (acceptAll [] []) = s.accept field b := by
    cases s.accept field b <;> rfl
  have hplain : (if (field :: fields).length = 1 then acceptAll [s] (field :: fields) b else none)
      = if fields = [] then s.accept field b else none := by
    cases fields with
    | nil => exact hacc
    | cons f fields => rw [if_neg (by simp), if_neg (List.cons_ne_nil f fields)]
  unfold matchFrom finalCatchAll?
  rw [List.getLast?_singleton, Option.bind_some]
  cases hv : s.var? with
  | none => exact hplain
  | some v =>
    rw [Option.bind_some]
    by_cases hr : v.reserved = true
    · simp [hr, acceptAll]
    · simp only [if_neg hr]
      exact hplain

/-! ## The test of the static head

  A match of all segments forces the texts of the leading literal ones, so the quick refusal never
  refuses what would have matched. -/

theorem Segment.accept_of_literal {s : Segment} (hs : s.kind = .literal) {field : Text}
    {b b' : Bindings} (h : s.accept field b = some b') : field = s.literal := by
  unfold Segment.accept at h
  rw [s.kind_eq_literal_iff.mp hs] at h
  by_cases hf : field = s.literal
  · exact hf
  · rw [if_neg hf] at h
    nomatch h

theorem leadingLiterals_isPrefix {segments : List Segment} {fields : List Text} {b b' : Bindings}
    (h : matchFrom segments fields b = some b') :
    (segments.takeWhile (·.kind = .literal)).map Segment.literal <+: fields := by
  induction segments generalizing fields b with
  | nil => exact List.nil_prefix
  | cons s rest ih =>
    by_cases hs : s.kind = .literal
    · rw [List.takeWhile_cons_of_pos (by simpa using hs), List.map_cons]
      cases fields with
      | nil =>
        rw [matchFrom_nil (s :: rest) (List.cons_ne_nil s rest)] at h
        nomatch h
      | cons f fields =>
        by_cases hrest : rest = []
        · subst hrest
          rw [matchFrom_singleton, s.kind_eq_literal_iff.mp hs] at h
          have hacc : s.accept f b = some b' := by
            by_cases hf : fields = []
            · rwa [if_pos hf] at h
            · rw [if_neg hf] at h
              nomatch h
          rw [Segment.accept_of_literal hs hacc]
          exact (List.prefix_cons_inj _).mpr List.nil_prefix
        · rw [matchFrom_cons s hrest] at h
          obtain ⟨b₁, hacc, hmore⟩ := Option.bind_eq_some_iff.mp h
          rw [Segment.accept_of_literal hs hacc]
          exact (List.prefix_cons_inj _).mpr (ih hmore)
    · rw [List.takeWhile_cons_of_neg (by simpa using hs)]
      exact List.nil_prefix

theorem staticHead_isPrefix {segments : List Segment} {body : Text} {b b' : Bindings}
    (h : matchFrom segments (body.splitOn separator) b = some b') :
    staticHead segments <+: separator :: body := by
  obtain ⟨more, hmore⟩ := leadingLiterals_isPrefix h
  rw [staticHead, ← @List.intercalate_splitOn _ body _ _ separator, ← hmore]
  exact (List.prefix_cons_inj _).mpr (intercalate_isPrefix separator _ more)

/-- **The static head decides nothing.** -/
theorem Route.match?_cons {r : Route} (hr : r.staticHead = Routing.staticHead r.matchSegments)
    (c : Char) (body : Text) :
    r.match? (c :: body) =
      if c = separator then matchFrom r.matchSegments (body.splitOn separator) [] else none := by
  rw [Route.match?, matchFields_eq_matchFrom, hr]
  by_cases hc : c = separator
  · rw [if_pos hc]
    subst hc
    by_cases hhead : (Routing.staticHead r.matchSegments).isPrefixOf (separator :: body)
    · rw [if_pos ⟨rfl, hhead⟩]
    · rw [if_neg fun h => hhead h.2]
      cases hm : matchFrom r.matchSegments (body.splitOn separator) [] with
      | none => rfl
      | some b' => exact absurd (List.isPrefixOf_iff_prefix.mpr (staticHead_isPrefix hm)) hhead
  · rw [if_neg hc, if_neg fun h => hc h.1]

/-- Routes with the same segments for matching answer alike. -/
theorem Route.match?_congr {a b : Route} (hhead : a.staticHead = b.staticHead)
    (hsegments : a.matchSegments = b.matchSegments) : a.match? = b.match? := by
  funext path
  cases path with
  | nil => rfl
  | cons c body => rw [Route.match?, Route.match?, hhead, hsegments]

/-! ## The values that segments take -/

/-- All variables of segments, from left to right. -/
def occurrences (segments : List Segment) : List Variable :=
  segments.flatMap fun s => s.tokens.filterMap Token.var?

/-- The names of all variables of segments, from left to right. -/
def occurrenceNames (segments : List Segment) : List Text :=
  (occurrences segments).map Variable.name

/-- The values that segments take from fields; a catch-all takes all that are left, joined. -/
def captures? : List Segment → List Text → Option (List Text)
  | [], [] => some []
  | s :: rest, f :: fields =>
    if s.kind = .catchAll then
      (s.captureRest? (List.intercalate [separator] (f :: fields))).map ([·])
    else (s.captures? f).bind fun values => (captures? rest fields).map (values ++ ·)
  | _, _ => none

theorem captures?_singleton (s : Segment) (f : Text) (fields : List Text) :
    captures? [s] (f :: fields) =
      if s.kind = .catchAll then
        (s.captureRest? (List.intercalate [separator] (f :: fields))).map ([·])
      else if fields = [] then s.captures? f else none := by
  rw [captures?]
  congr 1
  cases fields with
  | nil =>
    rw [if_pos rfl]
    cases s.captures? f with
    | none => rfl
    | some values => exact congrArg some (List.append_nil values)
  | cons g fields =>
    rw [if_neg (List.cons_ne_nil g fields)]
    cases s.captures? f <;> rfl

theorem occurrences_cons (s : Segment) (rest : List Segment) :
    occurrences (s :: rest) = occurrences [s] ++ occurrences rest := by
  simp [occurrences]

theorem occurrenceNames_cons (s : Segment) (rest : List Segment) :
    occurrenceNames (s :: rest) = occurrenceNames [s] ++ occurrenceNames rest := by
  rw [occurrenceNames, occurrences_cons, List.map_append]
  rfl

/-- A well-formed segment has no variable but the first. -/
theorem Segment.WellFormed.occurrences_eq {s : Segment} (h : s.WellFormed) :
    occurrences [s] = s.var?.toList := by
  rw [occurrences, List.flatMap_singleton]
  cases h.form with
  | text t span ht =>
    show (fixed t span).filterMap Token.var? = ((fixed t span).findSome? Token.var?).toList
    rw [filterMap_var?_fixed, findSome?_var?_fixed]
    rfl
  | around a sa v b sb ha hv hb =>
    show (fixed a sa ++ .var v :: fixed b sb).filterMap Token.var?
      = ((fixed a sa ++ .var v :: fixed b sb).findSome? Token.var?).toList
    rw [List.filterMap_append, filterMap_var?_fixed, List.findSome?_append, findSome?_var?_fixed,
      List.filterMap_cons, filterMap_var?_fixed]
    rfl

theorem Segment.WellFormed.occurrenceNames_eq {s : Segment} (h : s.WellFormed) {v : Variable}
    (hv : s.var? = some v) : occurrenceNames [s] = [v.name] := by
  rw [occurrenceNames, h.occurrences_eq, hv]
  rfl

theorem Segment.length_captures? {s : Segment} (hs : s.WellFormed) {field : Text}
    {values : List Text} (h : s.captures? field = some values) :
    values.length = (occurrences [s]).length := by
  rw [hs.occurrences_eq]
  unfold Segment.captures? at h
  cases hv : s.var? with
  | none =>
    simp only [hv] at h
    split at h
    · rw [← Option.some.inj h]
      rfl
    · nomatch h
  | some v =>
    simp only [hv] at h
    obtain ⟨value, -, rfl⟩ := Option.map_eq_some_iff.mp h
    rfl

theorem Segment.accept_eq {s : Segment} (hs : s.WellFormed) (field : Text) (b : Bindings) :
    s.accept field b =
      (s.captures? field).map fun values =>
        Assoc.putAll ((occurrenceNames [s]).zip values) b := by
  unfold Segment.accept Segment.captures?
  cases hv : s.var? with
  | none =>
    by_cases hf : field = s.literal
    · simp only [if_pos hf]
      rw [Option.map_some, List.zip_nil_right]
      rfl
    · simp only [if_neg hf, Option.map_none]
  | some v =>
    rw [hs.occurrenceNames_eq hv, Option.map_map]
    rfl

/-- **The matcher binds names to captured values**, one after the other. -/
theorem matchFrom_eq {segments : List Segment} (h : WellFormed segments) :
    ∀ (fields : List Text) (b : Bindings), matchFrom segments fields b =
      (captures? segments fields).map fun values =>
        Assoc.putAll ((occurrenceNames segments).zip values) b := by
  refine WellFormed.induct ?last ?cons segments h
  case last =>
    intro s hs hr fields b
    cases fields with
    | nil => exact matchFrom_nil [s] (List.cons_ne_nil s []) b
    | cons f fields =>
      have hplain : (if fields = [] then s.accept f b else none)
          = (if fields = [] then s.captures? f else none).map fun values =>
              Assoc.putAll ((occurrenceNames [s]).zip values) b := by
        by_cases hf : fields = []
        · rw [if_pos hf, if_pos hf, s.accept_eq hs]
        · rw [if_neg hf, if_neg hf, Option.map_none]
      rw [matchFrom_singleton, captures?_singleton]
      cases hv : s.var? with
      | none =>
        have hk : s.kind ≠ .catchAll := by
          rw [s.kind_eq_literal_iff.mpr hv]
          decide
        rw [if_neg hk]
        exact hplain
      | some v =>
        have hk : s.kind = .catchAll ↔ v.reserved = true := by
          rw [s.kind_eq_catchAll_iff, hv]
          exact ⟨fun ⟨w, hw, hr⟩ => Option.some.inj hw ▸ hr, fun hr => ⟨v, rfl, hr⟩⟩
        by_cases hres : v.reserved = true
        · rw [if_pos (hk.mpr hres), hs.occurrenceNames_eq hv, Option.map_map]
          exact if_pos hres
        · rw [if_neg fun h => hres (hk.mp h)]
          exact (if_neg hres).trans hplain
  case cons =>
    intro s rest hs hr hrest ih fields b
    cases fields with
    | nil => exact matchFrom_nil (s :: rest) (List.cons_ne_nil s rest) b
    | cons f fields =>
      rw [matchFrom_cons s hrest.nonempty, s.accept_eq hs, captures?,
        if_neg (hs.noReserved_iff.mp hr)]
      cases hvalues : s.captures? f with
      | none => rfl
      | some values =>
        have hlen : (occurrenceNames [s]).length = values.length := by
          rw [occurrenceNames, List.length_map, Segment.length_captures? hs hvalues]
        rw [Option.map_some, Option.bind_some, Option.bind_some, ih, Option.map_map]
        congr 1
        funext more
        rw [Function.comp_apply, occurrenceNames_cons s rest, List.zip_append hlen,
          Assoc.putAll_append]

end Routing
