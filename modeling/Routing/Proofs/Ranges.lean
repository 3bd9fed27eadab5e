/-
  RANGES — which settings pass their checks.

  Both checks refuse what compares as too small.  NaN compares as nothing, so it is not refused.

  1. **In range** are a size of at least zero, and a time to live above zero or none.
  2. **The crux** (`Settings.check_eq_ok_iff`): what passes the checks is in range, or NaN.
  3. **Numerals.**  A size that is read from a text is an integer, and so never NaN.  A time to live
     that is read from a text is none, or the number that the text stands for; no numeral is one of
     the words for none (`Text.toFloat?_of_ttlWord`), so the two readings never compete.
  4. **Loading** (`Layers.load_eq_ok_iff`) gives exactly the settings that hold the effective value
     of each field and pass the checks.
-/
import Routing.Proofs.Layering
import Routing.Proofs.Operations

namespace Routing

/-! ## Comparing with a number -/

namespace Exact

/-- What is not below an integer is at least that integer, or no number at all. -/
theorem lt_ofInt_eq_false_iff {x : Exact} {n : Int} :
    x.lt (.ofInt n) = false ↔ (Exact.ofInt n).le x = true ∨ x = .nan := by
  cases x <;> simp [lt, le, ofInt]

/-- What is neither below an integer nor equal to it is above it, or no number at all. -/
theorem le_ofInt_eq_false_iff {x : Exact} {n : Int} :
    x.le (.ofInt n) = false ↔ (Exact.ofInt n).lt x = true ∨ x = .nan := by
  cases x <;> simp [lt, le, ofInt]

end Exact

/-! ## Numerals -/

namespace Text

theorem lowerChar_eq_n {c : Char} (h : lowerChar c = 'n') : c = 'n' ∨ c = 'N' := by
  rw [lowerChar] at h
  split at h
  · nomatch h
  · by_cases hupper : c.val ≥ 'A'.val ∧ c.val ≤ 'Z'.val
    · have hlower : c.toLower = _ := dif_pos hupper
      have hval : c.val + 32 = 110 := congrArg Char.val (hlower.symm.trans h)
      refine .inr (Char.ext ?_)
      calc c.val = c.val + 32 - 32 := (UInt32.add_sub_cancel c.val 32).symm
        _ = 110 - 32 := congrArg (· - 32) hval
    · have hlower : c.toLower = c := dif_neg hupper
      exact .inl (hlower.symm.trans h)

theorem digitValue?_lt {c : Char} {d : Nat} (h : digitValue? c = some d) : d < 10 := by
  obtain ⟨z, -, hz⟩ := List.exists_of_findSome?_eq_some h
  rw [Option.ite_none_right_eq_some] at hz
  obtain ⟨⟨hlow, hhigh⟩, hd⟩ := hz
  have hd' : c.toNat - z = d := Option.some.inj hd
  omega

theorem decimalValue_concat (digits : Text) (c : Char) :
    decimalValue (digits ++ [c]) = 10 * decimalValue digits + (digitValue? c).getD 0 :=
  List.foldl_concat ..

theorem decimalValue_lt (digits : Text) : decimalValue digits < Nat.pow 10 digits.length := by
  induction digits using List.reverseRecOn with
  | nil => decide
  | append_singleton digits c ih =>
    have hdigit : (digitValue? c).getD 0 < 10 := by
      cases hvalue : digitValue? c with
      | none => decide
      | some d => exact digitValue?_lt hvalue
    rw [decimalValue_concat, List.length_append, List.length_singleton]
    show _ < Nat.pow 10 digits.length * 10
    omega

/-- Digits stand for a number that is written with no more digits. -/
theorem length_ofNat_decimalValue {digits : Text} {k : Nat} (hk : 0 < k)
    (h : digits.length ≤ k) : (ofNat (decimalValue digits)).length ≤ k := by
  have hle : Nat.pow 10 digits.length ≤ Nat.pow 10 k := Nat.pow_le_pow_right (by decide) h
  have hlt := Nat.lt_of_lt_of_le (decimalValue_lt digits) hle
  exact (Nat.length_toDigits_le_iff (by decide) hk).mpr hlt

/-- **A number that is read from a text can be told.** -/
theorem isTellable_of_toInt? {t : Text} {n : Int} (h : toInt? t = some n) :
    isTellable n = true := by
  obtain ⟨negative, body, hsigned⟩ : ∃ negative body, signed t = (negative, body) := ⟨_, _, rfl⟩
  rw [toInt?, hsigned] at h
  obtain ⟨digits, -, hdigits⟩ := Option.bind_eq_some_iff.mp h
  rw [Option.ite_none_right_eq_some] at hdigits
  obtain ⟨hlength, hn⟩ := hdigits
  have habs : n.natAbs = decimalValue digits := by
    rw [← Option.some.inj hn]
    cases negative with
    | true => exact Int.natAbs_neg _
    | false => rfl
  rw [isTellable, habs, decide_eq_true_eq]
  exact length_ofNat_decimalValue (by decide) hlength

/-- A run of digits begins with a digit. -/
theorem digitRun?_cons {c : Char} (hc : isDecimal c = false) (rest : Text) :
    digitRun? (c :: rest) = none := by
  have hfirst : ∃ piece pieces, (c :: rest).splitOn '_' = piece :: pieces ∧
      (!piece.isEmpty && piece.all isDecimal) = false := by
    rw [List.splitOn, List.splitOnP_cons_eq_if_modifyHead]
    split
    · exact ⟨_, _, rfl, rfl⟩
    · cases hpieces : rest.splitOnP (· == '_') with
      | nil => exact absurd hpieces (List.splitOnP_ne_nil _ _)
      | cons piece pieces =>
        refine ⟨c :: piece, pieces, rfl, ?_⟩
        rw [List.all_cons, hc]
        rfl
  obtain ⟨piece, pieces, hsplit, hpiece⟩ := hfirst
  rw [digitRun?, hsplit]
  simp [List.all_cons, hpiece]

theorem decimalParts?_cons {c : Char} (hc : isDecimal c = false) (hplain : c ∉ ['.', 'e', 'E'])
    (rest : Text) : decimalParts? (c :: rest) = none := by
  simp only [List.mem_cons, List.not_mem_nil, or_false, not_or] at hplain
  obtain ⟨hpoint, he, hE⟩ := hplain
  have hrun (front : Text) : optionalRun? (c :: front) = none := by
    rw [optionalRun?, List.isEmpty_cons, if_neg Bool.false_ne_true, digitRun?_cons hc]
  simp [decimalParts?, hpoint, he, hE, hrun]

/-- **The words for no time to live are no numerals.** -/
theorem toFloat?_of_lowered {t : Text} (h : t.lowered ∈ [[], "none".toList, "null".toList]) :
    toFloat? t = none := by
  have hwords : t.lowered ∉ ["inf".toList, "infinity".toList, "nan".toList] := by
    have hapart : ∀ word ∈ [[], "none".toList, "null".toList],
        word ∉ ["inf".toList, "infinity".toList, "nan".toList] := by decide
    exact hapart _ h
  cases t with
  | nil => rfl
  | cons c rest =>
    have hletter : c = 'n' ∨ c = 'N' := by
      have hhead : ∀ word ∈ [[], "none".toList, "null".toList],
          word ≠ [] → word.head? = some 'n' := by decide
      exact lowerChar_eq_n (Option.some.inj (hhead _ h (List.cons_ne_nil _ _)))
    simp only [List.mem_cons, List.not_mem_nil, or_false, not_or] at hwords
    obtain ⟨hinf, hinfinity, hnan⟩ := hwords
    have hparts : decimalParts? (c :: rest) = none := by
      rcases hletter with rfl | rfl <;> exact decimalParts?_cons (by decide) (by decide) rest
    have hsigned : signed (c :: rest) = (false, c :: rest) := by
      rcases hletter with rfl | rfl <;> rfl
    rw [toFloat?, hsigned]
    dsimp only
    rw [toUnsignedFloat?]
    dsimp only
    rw [if_neg (not_or.mpr ⟨hinf, hinfinity⟩), if_neg hnan, hparts]
    rfl

end Text

/-! ## Settings in range -/

/-- A value that **compares with nothing**, although it is of the type of the numbers. -/
def Setting.IsNan (v : Setting) : Prop := v.number? = some .nan

namespace Settings

/-- The size is at least zero. -/
def SizeInRange (s : Settings) : Prop :=
  ∃ x, s.size.number? = some x ∧ (Exact.ofInt 0).le x = true

/-- There is no time to live, or it is above zero. -/
def TtlInRange (s : Settings) : Prop :=
  s.ttl = .null ∨ ∃ x, s.ttl.number? = some x ∧ (Exact.ofInt 0).lt x = true

theorem checkSize_eq_ok_iff {s : Settings} :
    s.checkSize = .ok () ↔ s.SizeInRange ∨ s.size.IsNan := by
  rw [checkSize, SizeInRange, Setting.IsNan]
  cases s.size.number? with
  | none => simp
  | some x =>
    simp [← Exact.lt_ofInt_eq_false_iff]

theorem checkTtl_eq_ok_iff {s : Settings} :
    s.checkTtl = .ok () ↔ s.TtlInRange ∨ s.ttl.IsNan := by
  rw [checkTtl, TtlInRange, Setting.IsNan]
  split
  · next hnull => exact iff_of_true rfl (.inl (.inl hnull))
  · next ttl hne =>
    have hsome : s.ttl ≠ .null := hne
    rw [or_iff_right hsome]
    cases s.ttl.number? with
    | none => simp
    | some x => simp [← Exact.le_ofInt_eq_false_iff]

/-- **What passes the checks** is in range, or NaN. -/
theorem check_eq_ok_iff {s s' : Settings} :
    s.check = .ok s' ↔
      s' = s ∧ (s.SizeInRange ∨ s.size.IsNan) ∧ (s.TtlInRange ∨ s.ttl.IsNan) := by
  rw [← checkSize_eq_ok_iff, ← checkTtl_eq_ok_iff, check]
  cases s.checkSize with
  | error e => simp
  | ok _ =>
    cases s.checkTtl with
    | error e => simp [Except.map]
    | ok _ => simp [Except.map, eq_comm]

theorem checkSize_ok_or_fault {s : Settings} (hsize : Knob.maxSize.Admits s.size) :
    s.checkSize = .ok () ∨ s.checkSize = .error (.ofValue .negativeSize s.size) := by
  obtain ⟨x, hx⟩ := Option.isSome_iff_exists.mp hsize
  rw [checkSize, hx]
  by_cases hlow : x.lt (.ofInt 0) = true
  · exact .inr (if_pos hlow)
  · exact .inl (if_neg hlow)

theorem checkTtl_ok_or_fault {s : Settings} (httl : Knob.ttl.Admits s.ttl) :
    s.checkTtl = .ok () ∨ s.checkTtl = .error (.ofValue .nonPositiveTtl s.ttl) := by
  rw [checkTtl]
  split
  · exact .inl rfl
  · next ttl hne =>
    obtain ⟨x, hx⟩ := Option.isSome_iff_exists.mp (httl.resolve_left hne)
    rw [hx]
    by_cases hlow : x.le (.ofInt 0) = true
    · exact .inr (if_pos hlow)
    · exact .inl (if_neg hlow)

/-- **Settings that can be compared** pass the checks, or the size or the time to live is at
    fault. -/
theorem check_ok_or_fault {s : Settings} (hsize : Knob.maxSize.Admits s.size)
    (httl : Knob.ttl.Admits s.ttl) :
    s.check = .ok s ∨ ∃ f complaint, s.check = .error (.ofValue complaint (s.get f)) := by
  rw [check]
  rcases checkSize_ok_or_fault hsize with hok | hfault
  · rw [hok]
    rcases checkTtl_ok_or_fault httl with hok' | hfault'
    · rw [hok']
      exact .inl rfl
    · rw [hfault']
      exact .inr ⟨.ttl, .nonPositiveTtl, rfl⟩
  · rw [hfault]
    exact .inr ⟨.size, .negativeSize, rfl⟩

end Settings

/-! ## What is read -/

namespace Field

/-- What a caller may **give for a field**: a text, a number or truth value, or no time to live. -/
def Takes (f : Field) (v : Setting) : Prop :=
  (∃ t, v = .text t) ∨ v.number?.isSome ∨ f = .ttl ∧ v = .null

/-- A size that is read from a text is an integer. -/
theorem read_size_text {t : Text} {v : Setting} (h : Field.size.read (.text t) = .ok v) :
    ∃ n, Text.toInt? (Text.strip t) = some n ∧ v = .int n := by
  cases hint : Text.toInt? (Text.strip t) with
  | none =>
    rw [read, parse?, hint] at h
    cases h
  | some n =>
    rw [read, parse?, hint] at h
    exact ⟨n, rfl, (Except.ok.inj h).symm⟩

/-- A time to live that is read from a text is none, or the number that the text stands for. -/
theorem read_ttl_text {t : Text} {v : Setting} (h : Field.ttl.read (.text t) = .ok v) :
    v = .null ∨ ∃ x, Text.toFloat? (Text.strip t) = some x ∧ v = .float x := by
  rw [read, parse?, ttlWord?] at h
  by_cases hword : (Text.strip t).lowered ∈ [[], "none".toList, "null".toList]
  · rw [if_pos hword] at h
    exact .inl (Except.ok.inj h).symm
  · rw [if_neg hword] at h
    cases hx : Text.toFloat? (Text.strip t) with
    | none =>
      rw [hx] at h
      cases h
    | some x =>
      rw [hx] at h
      exact .inr ⟨x, rfl, (Except.ok.inj h).symm⟩

/-- A numeral is read as its number. -/
theorem read_ttl_numeral {t : Text} {x : Float} (hx : Text.toFloat? (Text.strip t) = some x) :
    Field.ttl.read (.text t) = .ok (.float x) := by
  have hword : (Text.strip t).lowered ∉ [[], "none".toList, "null".toList] := fun h =>
    nomatch (Text.toFloat?_of_lowered h).symm.trans hx
  rw [read, parse?, ttlWord?, if_neg hword, hx]
  rfl

/-- What is no text is taken as it is. -/
theorem read_of_not_text {f : Field} {v : Setting} (h : ∀ t, v ≠ .text t) : f.read v = .ok v := by
  cases v with
  | text t => exact absurd rfl (h t)
  | _ => rfl

/-- A number is taken as it is. -/
theorem read_of_number {f : Field} {v : Setting} (h : v.number?.isSome) : f.read v = .ok v :=
  read_of_not_text fun t ht => by
    rw [ht] at h
    nomatch h

/-- What is read from a text can be told. -/
theorem isTellable_of_read_text {f : Field} {t : Text} {v : Setting}
    (h : f.read (.text t) = .ok v) : v.isTellable = true := by
  cases f with
  | size =>
    obtain ⟨n, hn, rfl⟩ := read_size_text h
    exact Text.isTellable_of_toInt? hn
  | ttl =>
    rcases read_ttl_text h with rfl | ⟨x, -, rfl⟩ <;> rfl
  | enabled | stats =>
    rw [read, parse?] at h
    cases hword : switchWord? (Text.strip t) with
    | none =>
      rw [hword] at h
      cases h
    | some b =>
      rw [hword] at h
      cases h
      rfl

theorem Takes.admits_size {raw v : Setting} (h : Field.size.Takes raw)
    (hread : Field.size.read raw = .ok v) : Knob.maxSize.Admits v := by
  rcases h with ⟨t, rfl⟩ | hnumber | ⟨hfield, -⟩
  · obtain ⟨n, -, rfl⟩ := read_size_text hread
    rfl
  · rw [← Except.ok.inj ((read_of_number hnumber).symm.trans hread)]
    exact hnumber
  · nomatch hfield

theorem Takes.admits_ttl {raw v : Setting} (h : Field.ttl.Takes raw)
    (hread : Field.ttl.read raw = .ok v) : Knob.ttl.Admits v := by
  rcases h with ⟨t, rfl⟩ | hnumber | ⟨-, rfl⟩
  · rcases read_ttl_text hread with rfl | ⟨x, -, rfl⟩
    · exact .inl rfl
    · exact .inr rfl
  · rw [← Except.ok.inj ((read_of_number hnumber).symm.trans hread)]
    exact .inr hnumber
  · exact .inl (Except.ok.inj hread).symm

end Field

/-! ## What is loaded -/

namespace Layers

/-- Each override is what its field takes. -/
def Plain (layers : Layers) : Prop :=
  ∀ p ∈ layers.overrides, ∀ f : Field, p.1 = f.name → f.Takes p.2

variable {layers : Layers} {file : Assoc Text Text} {s s' : Settings}

/-- An effective value is an override or a text. -/
theorem mem_overrides_or_text {f : Field} {raw : Setting}
    (h : layers.effective? file f = some raw) :
    (f.name, raw) ∈ layers.overrides ∨ ∃ t, raw = .text t := by
  rw [effective?, Option.or_eq_some_iff] at h
  rcases h with hoverride | ⟨-, htext⟩
  · rw [Assoc.ofPairs, Assoc.lookup_putAll, List.lookup_nil, Option.or_none] at hoverride
    exact .inl (List.mem_reverse.mp (Assoc.mem_of_lookup hoverride))
  · obtain ⟨t, -, ht⟩ := Option.map_eq_some_iff.mp htext
    exact .inr ⟨t, ht.symm⟩

theorem Plain.takes (h : layers.Plain) {f : Field} {raw : Setting}
    (heffective : layers.effective? file f = some raw) : f.Takes raw := by
  rcases mem_overrides_or_text heffective with hmem | htext
  · exact h _ hmem f rfl
  · exact .inl htext

theorem Holds.eq (h : layers.Holds file s) (h' : layers.Holds file s') : s = s' := by
  have hget (f : Field) : s.get f = s'.get f := by
    have hf := h f
    have hf' := h' f
    cases heffective : layers.effective? file f with
    | some raw =>
      rw [heffective] at hf hf'
      exact Except.ok.inj (hf.symm.trans hf')
    | none =>
      rw [heffective] at hf hf'
      exact hf.trans hf'.symm
  have henabled := hget .enabled
  have hsize := hget .size
  have httl := hget .ttl
  have hstats := hget .stats
  obtain ⟨_, _, _, _⟩ := s
  obtain ⟨_, _, _, _⟩ := s'
  cases henabled
  cases hsize
  cases httl
  cases hstats
  rfl

theorem Holds.read (h : layers.Holds file s) {f : Field} {raw : Setting}
    (heffective : layers.effective? file f = some raw) : f.read raw = .ok (s.get f) := by
  have hf := h f
  rw [heffective] at hf
  exact hf

theorem Holds.readable (h : layers.Holds file s) (f : Field) : layers.Readable file f :=
  fun _ heffective => ⟨_, h.read heffective⟩

theorem Holds.admits_size (h : layers.Holds file s) (hplain : layers.Plain) :
    Knob.maxSize.Admits s.size := by
  cases heffective : layers.effective? file .size with
  | some raw => exact (hplain.takes heffective).admits_size (h.read heffective)
  | none =>
    have hdefault := h .size
    rw [heffective] at hdefault
    have hsize : s.size = .int 1000 := hdefault
    rw [hsize]
    rfl

theorem Holds.admits_ttl (h : layers.Holds file s) (hplain : layers.Plain) :
    Knob.ttl.Admits s.ttl := by
  cases heffective : layers.effective? file .ttl with
  | some raw => exact (hplain.takes heffective).admits_ttl (h.read heffective)
  | none =>
    have hdefault := h .ttl
    rw [heffective] at hdefault
    exact .inl hdefault

/-- **Of settings that hold the effective values**, what cannot be told is an override. -/
theorem Holds.mem_overrides (h : layers.Holds file s) {f : Field}
    (htell : (s.get f).isTellable = false) : (f.name, s.get f) ∈ layers.overrides := by
  have hf := h f
  cases heffective : layers.effective? file f with
  | none =>
    rw [heffective] at hf
    have hdefault : s.get f = Settings.default.get f := hf
    rw [hdefault] at htell
    cases f <;> exact absurd htell (by decide +kernel)
  | some raw =>
    rw [heffective] at hf
    have hnotext : ∀ t, raw ≠ .text t := by
      rintro t rfl
      rw [Field.isTellable_of_read_text hf] at htell
      cases htell
    have hraw : raw = s.get f := Except.ok.inj ((Field.read_of_not_text hnotext).symm.trans hf)
    rcases mem_overrides_or_text heffective with hmem | ⟨t, ht⟩
    · rw [← hraw]
      exact hmem
    · exact absurd ht (hnotext t)

/-- Loading refuses a key or a value, or checks the effective values. -/
theorem load_cases (hfile : layers.fileEntries = .ok file) :
    (∃ c, layers.load = .error (.refused c)) ∨
      (∀ key, ¬ layers.Unknown key) ∧ ∃ s, layers.Holds file s ∧ layers.load = s.check := by
  by_cases hunknown : ∃ key, layers.Unknown key
  · obtain ⟨key, hkey⟩ := hunknown
    exact .inl ⟨_, load_of_unknown hfile hkey⟩
  · have hknown : ∀ key, ¬ layers.Unknown key := not_exists.mp hunknown
    by_cases hbad : ∃ f, ¬ layers.Readable file f
    · obtain ⟨_, f, _, raw, -, -, -, -, hload⟩ := load_of_unreadable hfile hknown hbad
      exact .inl ⟨_, hload⟩
    · have hread : ∀ f, layers.Readable file f := fun f => not_not.mp (not_exists.mp hbad f)
      exact .inr ⟨hknown, load_of_readable hfile hknown hread⟩

/-- **Exactly the settings that hold the effective values and pass the checks are loaded.** -/
theorem load_eq_ok_iff :
    layers.load = .ok s ↔
      ∃ file, layers.fileEntries = .ok file ∧ (∀ key, ¬ layers.Unknown key) ∧
        layers.Holds file s ∧ (s.SizeInRange ∨ s.size.IsNan) ∧ (s.TtlInRange ∨ s.ttl.IsNan) := by
  constructor
  · intro h
    cases hfile : layers.fileEntries with
    | error e =>
      rw [load, hfile] at h
      cases h
    | ok file =>
      rcases load_cases hfile with ⟨c, hrefused⟩ | ⟨hknown, s', hholds, hload⟩
      · cases h.symm.trans hrefused
      · obtain ⟨rfl, hrange⟩ := Settings.check_eq_ok_iff.mp (hload.symm.trans h)
        exact ⟨file, rfl, hknown, hholds, hrange⟩
  · rintro ⟨file, hfile, hknown, hholds, hrange⟩
    obtain ⟨s', hholds', hload⟩ := load_of_readable hfile hknown hholds.readable
    rw [hload, hholds'.eq hholds]
    exact Settings.check_eq_ok_iff.mpr ⟨rfl, hrange⟩

theorem holds_of_load (hfile : layers.fileEntries = .ok file) (h : layers.load = .ok s) :
    layers.Holds file s ∧ (s.SizeInRange ∨ s.size.IsNan) ∧ (s.TtlInRange ∨ s.ttl.IsNan) := by
  obtain ⟨file', hfile', -, hholds, hrange⟩ := load_eq_ok_iff.mp h
  rw [Except.ok.inj (hfile.symm.trans hfile')]
  exact ⟨hholds, hrange⟩

/-- An override is an integer of **too many digits** for a message. -/
def Unwieldy (layers : Layers) : Prop := ∃ p ∈ layers.overrides, p.2.isTellable = false

/-- If overrides are what their fields take, **what is not loaded is refused**, in words unless an
    override is too long for them. -/
theorem load_ok_or_refused (hfile : layers.fileEntries = .ok file) (hplain : layers.Plain) :
    (∃ s, layers.load = .ok s) ∨ (∃ c, layers.load = .error (.refused c)) ∨
      layers.load = .error .untold ∧ layers.Unwieldy := by
  rcases load_cases hfile with hrefused | ⟨-, s, hholds, hload⟩
  · exact .inr (.inl hrefused)
  · rw [hload]
    rcases Settings.check_ok_or_fault (hholds.admits_size hplain) (hholds.admits_ttl hplain) with
      hok | ⟨f, complaint, hfault⟩
    · exact .inl ⟨s, hok⟩
    · rw [hfault, SettingsFault.ofValue]
      cases htell : (s.get f).isTellable with
      | true => exact .inr (.inl ⟨_, rfl⟩)
      | false => exact .inr (.inr ⟨rfl, _, hholds.mem_overrides htell, htell⟩)

/-- **Accepted settings are in range, but for NaN.**  Settings are loaded exactly if the file can be
    decoded, no override names no field, every effective value can be read, and the size and the
    time to live are in range or NaN.  So accepted settings without NaN are in range.  If overrides
    are what their fields take, whatever else is a refusal, told in words unless an override has too
    many digits for that.  A size that comes from a text is always in range, and a time to live that
    comes from a numeral is its number, above zero or NaN. -/
theorem load_in_range (layers : Layers) :
    (∀ s, layers.load = .ok s ↔ ∃ file, layers.fileEntries = .ok file ∧
      (∀ key, ¬ layers.Unknown key) ∧ layers.Holds file s ∧
      (s.SizeInRange ∨ s.size.IsNan) ∧ (s.TtlInRange ∨ s.ttl.IsNan)) ∧
    (∀ s, layers.load = .ok s → ¬ s.size.IsNan → ¬ s.ttl.IsNan →
      s.SizeInRange ∧ s.TtlInRange) ∧
    ∀ file, layers.fileEntries = .ok file →
      (layers.Plain → (∃ s, layers.load = .ok s) ∨ (∃ c, layers.load = .error (.refused c)) ∨
        layers.load = .error .untold ∧ layers.Unwieldy) ∧
      (∀ t, layers.effective? file .size = some (.text t) →
        ∀ s, layers.load = .ok s → s.SizeInRange) ∧
      ∀ t x, layers.effective? file .ttl = some (.text t) →
        Text.toFloat? (Text.strip t) = some x → ∀ s, layers.load = .ok s →
          s.ttl = .float x ∧
            ((Exact.ofInt 0).lt (.ofFloat x) = true ∨ Exact.ofFloat x = .nan) := by
  refine ⟨fun s => load_eq_ok_iff, fun s hs hsize httl => ?_, fun file hfile => ⟨?_, ?_, ?_⟩⟩
  · obtain ⟨-, -, -, -, hsizes, httls⟩ := load_eq_ok_iff.mp hs
    exact ⟨hsizes.resolve_right hsize, httls.resolve_right httl⟩
  · exact load_ok_or_refused hfile
  · intro t ht s hs
    obtain ⟨hholds, hsizes, -⟩ := holds_of_load hfile hs
    obtain ⟨n, -, hn⟩ := Field.read_size_text (hholds.read ht)
    have hsize : s.size = .int n := hn
    refine hsizes.resolve_right fun hnan => ?_
    rw [Setting.IsNan, hsize] at hnan
    cases hnan
  · intro t x ht hx s hs
    obtain ⟨hholds, -, httls⟩ := holds_of_load hfile hs
    have hread := (hholds.read ht).symm.trans (Field.read_ttl_numeral hx)
    have httl : s.ttl = .float x := Except.ok.inj hread
    rw [Settings.TtlInRange, Setting.IsNan, httl] at httls
    refine ⟨httl, ?_⟩
    rcases httls with (hnull | ⟨y, hy, hpositive⟩) | hnan
    · cases hnull
    · rw [← Option.some.inj hy] at hpositive
      exact .inl hpositive
    · exact .inr (Option.some.inj hnan)

/-- A time to live beyond the largest number is infinite, and the size is a zero with a sign. -/
def overflowing : Layers :=
  .ofEnvironment [("URIPATTERN_CACHE_TTL".toList, " 1_0e400\n".toList),
    ("URIPATTERN_CACHE_SIZE".toList, "-0".toList)]

theorem load_in_range_overflowing :
    ∃ s, overflowing.load = .ok s ∧ s.SizeInRange ∧ s.TtlInRange ∧ s.ttl = .float (1.0 / 0.0) := by
  have hsize : overflowing.effective? [] .size = some (.text "-0".toList) := rfl
  have httl : overflowing.effective? [] .ttl = some (.text " 1_0e400\n".toList) := rfl
  have hnumeral : Text.toFloat? (Text.strip " 1_0e400\n".toList) = some (1.0 / 0.0) := by
    decide +kernel
  have hloaded : overflowing.load.toBool = true := by decide +kernel
  obtain ⟨-, -, hfile⟩ := load_in_range overflowing
  obtain ⟨-, hsizes, httls⟩ := hfile [] rfl
  cases hload : overflowing.load with
  | error e =>
    rw [hload] at hloaded
    nomatch hloaded
  | ok s =>
    obtain ⟨hinfinite, hpositive⟩ := httls _ _ httl hnumeral s hload
    have hnan : Exact.ofFloat (1.0 / 0.0) ≠ .nan := by decide +kernel
    have hnumber : s.ttl.number? = some (.ofFloat (1.0 / 0.0)) := congrArg Setting.number? hinfinite
    have hrange : s.TtlInRange := .inr ⟨_, hnumber, hpositive.resolve_right hnan⟩
    exact ⟨s, rfl, hsizes _ hsize s hload, hrange, hinfinite⟩

/-- NaN passes the check of the time to live. -/
theorem load_nan :
    ∃ s, (ofEnvironment [("URIPATTERN_CACHE_TTL".toList, "nan".toList)]).load = .ok s ∧
      ¬ s.TtlInRange := by
  have hnan : (ofEnvironment [("URIPATTERN_CACHE_TTL".toList, "nan".toList)]).load.toOption.map
      (fun s => s.ttl.number?) = some (some .nan) := by decide +kernel
  cases hload : (ofEnvironment [("URIPATTERN_CACHE_TTL".toList, "nan".toList)]).load with
  | error e =>
    rw [hload] at hnan
    nomatch hnan
  | ok s =>
    rw [hload] at hnan
    have httl : s.ttl.number? = some .nan := Option.some.inj hnan
    refine ⟨s, rfl, ?_⟩
    rintro (hnull | ⟨x, hx, hpositive⟩)
    · rw [hnull] at httl
      nomatch httl
    · rw [← Option.some.inj (httl.symm.trans hx)] at hpositive
      nomatch hpositive

end Layers

end Routing
