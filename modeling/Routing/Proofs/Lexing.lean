/-
  LEXING — a written document is cut into its lexemes, whatever its layout.

  1. **Gaps are forgotten** (`Mode.run_gap`), and a mark or a quoted text ends by itself.  A number
     or a word ends where a delimiter follows (`Mode.run_plain`), so every statement about it is
     made for a rest of the text that begins with one.
  2. **Escapes are undone** (`Mode.run_escapeChar`).  The crux is a character beyond U+FFFF: its two
     units are halves of a pair, and no unit of another character is such a half, for no character
     is.
  3. **Numbers** are written without a leading zero, and so are read back (`plain?_ofNat`).
  4. **Documents** are followed along the writer (`run_write`): what it puts between lexemes are
     gaps, and what stands behind an item begins with a delimiter.
-/
import Mathlib.Data.List.TakeWhile
import Routing.Proofs.Decoding

namespace Routing

namespace Json

namespace Mode

/-! ## Steps of the lexer -/

theorem run_silent {m m' : Mode} {c : Char} (h : m.step c = some ([], m')) (rest : Text) :
    m.run (c :: rest) = m'.run rest := by
  rw [run, h]
  show (m'.run rest).map ([] ++ ·) = m'.run rest
  cases m'.run rest <;> rfl

theorem run_emit {m m' : Mode} {c : Char} {x : Lexeme} (h : m.step c = some ([x], m'))
    (rest : Text) : m.run (c :: rest) = (m'.run rest).map (x :: ·) := by
  rw [run, h]
  rfl

/-- Gaps are forgotten. -/
theorem run_gap {gap : Text} (h : ∀ c ∈ gap, isGap c = true) (rest : Text) :
    between.run (gap ++ rest) = between.run rest := by
  induction gap with
  | nil => rfl
  | cons c gap ih =>
    have hstep : between.step c = some ([], between) := by
      rw [step, stepBetween, if_pos (h c List.mem_cons_self)]
    rw [List.cons_append, run_silent hstep, ih fun d hd => h d (List.mem_cons_of_mem c hd)]

theorem gap_blank : ∀ c ∈ [' '], isGap c = true := List.forall_mem_singleton.mpr rfl

theorem eq_of_isGap {c : Char} (h : isGap c = true) : c = ' ' ∨ c = '\t' ∨ c = '\n' ∨ c = '\r' := by
  simpa only [isGap, Bool.or_eq_true, decide_eq_true_eq, or_assoc] using h

theorem isGap_of_mark? {c : Char} {x : Lexeme} (h : mark? c = some x) : isGap c = false := by
  refine Bool.eq_false_iff.mpr fun hgap => ?_
  rcases eq_of_isGap hgap with rfl | rfl | rfl | rfl <;> cases h

theorem run_mark {c : Char} {x : Lexeme} (h : mark? c = some x) (rest : Text) :
    between.run (c :: rest) = (between.run rest).map (x :: ·) := by
  refine run_emit ?_ rest
  rw [step, stepBetween, if_neg (by rw [isGap_of_mark? h]; exact Bool.false_ne_true), h]

/-! ## Values without quotes -/

/-- A text at whose beginning a value without quotes ends. -/
def Delimited (rest : Text) : Prop := ∀ c ∈ rest.head?, isDelimiter c = true

theorem delimited_nil : Delimited [] := fun _ h => nomatch h

theorem delimited_cons {c : Char} (h : isDelimiter c = true) (rest : Text) :
    Delimited (c :: rest) :=
  fun _ hd => Option.some.inj hd ▸ h

theorem stepBetween_of_not_delimiter {c : Char} (h : ¬ isDelimiter c = true) :
    stepBetween c = ([], .bare [c]) := by
  simp only [isDelimiter, Bool.or_eq_true, decide_eq_true_eq, not_or] at h
  obtain ⟨⟨hgap, hmark⟩, hquote⟩ := h
  rw [stepBetween, if_neg hgap]
  cases hm : mark? c with
  | some x => exact absurd (congrArg Option.isSome hm) hmark
  | none => exact if_neg hquote

theorem run_bare_append {t : Text} (ht : ∀ c ∈ t, ¬ isDelimiter c = true) (held rest : Text) :
    (bare held).run (t ++ rest) = (bare (t.reverse ++ held)).run rest := by
  induction t generalizing held with
  | nil => rfl
  | cons c t ih =>
    have hstep : (bare held).step c = some ([], bare (c :: held)) := by
      rw [step, if_neg (ht c List.mem_cons_self)]
    rw [List.cons_append, run_silent hstep, ih fun d hd => ht d (List.mem_cons_of_mem c hd),
      List.reverse_cons, List.append_assoc, List.singleton_append]

/-- A value without quotes is read up to where it ends. -/
theorem run_bare {held : Text} {v : Value} (hv : plain? held.reverse = some v) {rest : Text}
    (hrest : Delimited rest) : (bare held).run rest = (between.run rest).map (.plain v :: ·) := by
  cases rest with
  | nil =>
    show (plain? held.reverse).map _ = _
    rw [hv]
    rfl
  | cons c rest =>
    have hstep : (bare held).step c
        = some (.plain v :: (stepBetween c).1, (stepBetween c).2) := by
      rw [step, if_pos (hrest c rfl), hv]
      rfl
    rw [run, hstep, run]
    show ((stepBetween c).2.run rest).map _ = (((stepBetween c).2.run rest).map _).map _
    rw [Option.map_map]
    rfl

theorem run_plain {t : Text} {v : Value} (hne : t ≠ []) (ht : ∀ c ∈ t, ¬ isDelimiter c = true)
    (hv : plain? t = some v) {rest : Text} (hrest : Delimited rest) :
    between.run (t ++ rest) = (between.run rest).map (.plain v :: ·) := by
  obtain ⟨c, t, rfl⟩ := List.exists_cons_of_ne_nil hne
  have hstep : between.step c = some ([], bare [c]) :=
    congrArg some (stepBetween_of_not_delimiter (ht c List.mem_cons_self))
  rw [List.cons_append, run_silent hstep,
    run_bare_append fun d hd => ht d (List.mem_cons_of_mem c hd)]
  exact run_bare (by simpa using hv) hrest

end Mode

/-! ## Numbers -/

theorem head?_toDigits {n : Nat} (hn : 0 < n) : (Nat.toDigits 10 n).head? ≠ some '0' := by
  induction n using Nat.strongRecOn with
  | _ n ih =>
    rw [Nat.toDigits_eq_if (by decide)]
    split
    · next hlt =>
      have hdigit : ∀ d < 10, 0 < d → [Nat.digitChar d].head? ≠ some '0' := by decide
      exact hdigit n hlt hn
    · next hge =>
      rw [List.head?_append, Option.or_of_isSome (by simp)]
      exact ih (n / 10) (by omega) (by omega)

theorem plain?_ofNat (n : Nat) : plain? (Text.ofNat n) = some (.integer n) := by
  have hdigits : ∀ c ∈ Text.ofNat n, c.isDigit = true := fun _ => Text.isDigit_of_mem_ofNat
  have hne : Text.ofNat n ≠ [] := Nat.toDigits_ne_nil
  have hlead : leadingDigits (Text.ofNat n) = Text.ofNat n := by
    have hall := @List.takeWhile_append_of_pos _ Char.isDigit _ [] hdigits
    rwa [List.append_nil, List.takeWhile_nil, List.append_nil] at hall
  have hafter : afterDigits (Text.ofNat n) = [] := List.dropWhile_eq_nil_iff.mpr hdigits
  have hzero : (Text.ofNat n).head? = some '0' → Text.ofNat n = ['0'] := by
    intro h
    rcases Nat.eq_zero_or_pos n with rfl | hn
    · rfl
    · exact absurd h (head?_toDigits hn)
  have hmagnitude : magnitude? (Text.ofNat n) = some (n, none) := by
    have hwhole : ¬ (Text.ofNat n = [] ∨
        (Text.ofNat n).head? = some '0' ∧ Text.ofNat n ≠ ['0']) := by
      rintro (h | ⟨h, h'⟩)
      · exact hne h
      · exact h' (hzero h)
    simp only [magnitude?, hlead, if_neg hwhole, hafter, if_true]
    rw [Text.ofNat, Nat.ofDigitChars_ten_toDigits]
  have hother : ∀ t : Text, t.all Char.isDigit = false → Text.ofNat n ≠ t := by
    rintro t ht rfl
    rw [List.all_eq_true.mpr hdigits] at ht
    cases ht
  have hsign : (Text.ofNat n).head? ≠ some '-' :=
    fun h => absurd (hdigits '-' (List.mem_of_head? h)) (by decide)
  rw [plain?, if_neg (hother _ (by decide)), if_neg (hother _ (by decide)),
    if_neg (hother _ (by decide)), number?, if_neg hsign, hmagnitude]
  rfl

theorem not_isDelimiter_of_isDigit {c : Char} (h : c.isDigit = true) : ¬ isDelimiter c = true := by
  have hne : ∀ d : Char, d.isDigit = false → c ≠ d := by
    rintro d hd rfl
    rw [h] at hd
    cases hd
  simp [isDelimiter, isGap, mark?, hne ' ' rfl, hne '\t' rfl, hne '\n' rfl, hne '\r' rfl,
    hne '[' rfl, hne ']' rfl, hne '\x7b' rfl, hne '\x7d' rfl, hne ':' rfl, hne ',' rfl,
    hne '"' rfl]

/-! ## Texts between quotes -/

namespace Mode

theorem hexDigit?_digitChar : ∀ d < 16, hexDigit? (Nat.digitChar d) = some d := by decide

theorem run_digit {held rest : Text} {first : Option Nat} {more n d : Nat} (hd : d < 16) :
    (unit held first (more + 1) n).run (Nat.digitChar d :: rest)
      = (unit held first more (16 * n + d)).run rest := by
  refine run_silent ?_ rest
  rw [step, hexDigit?_digitChar d hd]
  rfl

/-- **Four digits are read as the unit they were written for.** -/
theorem run_hex4 {n : Nat} (hn : n < 0x10000) {held : Text} {first : Option Nat} {m : Mode}
    (hm : afterUnit held first n = some m) (rest : Text) :
    (unit held first 3 0).run (hex4 n ++ rest) = m.run rest := by
  have hdigit : ∀ k : Nat, k % 16 < 16 := fun k => Nat.mod_lt k (by decide)
  have hvalue : 16 * (16 * (16 * (16 * 0 + n / 4096 % 16) + n / 256 % 16) + n / 16 % 16) + n % 16
      = n := by omega
  show (unit held first 3 0).run (Nat.digitChar (n / 4096 % 16) :: Nat.digitChar (n / 256 % 16) ::
    Nat.digitChar (n / 16 % 16) :: Nat.digitChar (n % 16) :: rest) = m.run rest
  rw [run_digit (hdigit _), run_digit (hdigit _), run_digit (hdigit _)]
  refine run_silent ?_ rest
  rw [step, hexDigit?_digitChar _ (hdigit _), Option.bind_some, hvalue, hm]
  rfl

/-- An escaped unit is read like its digits. -/
theorem run_unitEscape {n : Nat} (hn : n < 0x10000) {held : Text} {m : Mode}
    (hm : afterUnit held none n = some m) (rest : Text) :
    (quoted held).run (unitEscape n ++ rest) = m.run rest := by
  have hslash : (quoted held).step '\\' = some ([], escape held) := rfl
  have hu : (escape held).step 'u' = some ([], unit held none 3 0) := rfl
  rw [unitEscape, List.cons_append, List.cons_append, run_silent hslash, run_silent hu,
    run_hex4 hn hm]

/-- The second unit of a pair is read like its digits, with the first one in mind. -/
theorem run_unitEscape_half {n : Nat} (hn : n < 0x10000) {held : Text} {high : Nat} {m : Mode}
    (hm : afterUnit held (some high) n = some m) (rest : Text) :
    (half held high).run (unitEscape n ++ rest) = m.run rest := by
  have hslash : (half held high).step '\\' = some ([], halfEscape held high) := rfl
  have hu : (halfEscape held high).step 'u' = some ([], unit held (some high) 3 0) := rfl
  rw [unitEscape, List.cons_append, List.cons_append, run_silent hslash, run_silent hu,
    run_hex4 hn hm]

/-- No character is half of a pair. -/
theorem not_half (c : Char) : isHigh c.toNat = false ∧ isLow c.toNat = false := by
  have hvalid : c.toNat < 0xD800 ∨ 0xDFFF < c.toNat ∧ c.toNat < 0x110000 := c.valid
  simp only [isHigh, isLow, Bool.and_eq_false_iff, decide_eq_false_iff_not]
  omega

theorem run_units (c : Char) (held rest : Text) :
    (quoted held).run ((units c.toNat).flatMap unitEscape ++ rest)
      = (quoted (c :: held)).run rest := by
  have hvalid : c.toNat < 0xD800 ∨ 0xDFFF < c.toNat ∧ c.toNat < 0x110000 := c.valid
  unfold units
  split
  · next hsmall =>
    obtain ⟨hhigh, hlow⟩ := not_half c
    have hafter : afterUnit held none c.toNat = some (quoted (c :: held)) := by
      rw [afterUnit, hhigh, hlow, Char.ofNat_toNat]
      rfl
    rw [List.flatMap_singleton, run_unitEscape hsmall hafter]
  · next hlarge =>
    generalize hx : c.toNat - 0x10000 = x
    have hhigh : isHigh (0xD800 + x / 0x400) = true := by
      simp only [isHigh, Bool.and_eq_true, decide_eq_true_eq]
      omega
    have hlow : isLow (0xDC00 + x % 0x400) = true := by
      simp only [isLow, Bool.and_eq_true, decide_eq_true_eq]
      omega
    have hpair : 0x10000 + (0xD800 + x / 0x400 - 0xD800) * 0x400 + (0xDC00 + x % 0x400 - 0xDC00)
        = c.toNat := by omega
    have hfirst : afterUnit held none (0xD800 + x / 0x400)
        = some (half held (0xD800 + x / 0x400)) := by
      rw [afterUnit, hhigh]
      rfl
    have hsecond : afterUnit held (some (0xD800 + x / 0x400)) (0xDC00 + x % 0x400)
        = some (quoted (c :: held)) := by
      rw [afterUnit, hlow, hpair, Char.ofNat_toNat]
      rfl
    rw [List.flatMap_cons, List.flatMap_singleton, List.append_assoc,
      run_unitEscape (by omega) hfirst, run_unitEscape_half (by omega) hsecond]

/-- **An escaped character is read as that character.** -/
theorem run_escapeChar (c : Char) (held rest : Text) :
    (quoted held).run (escapeChar c ++ rest) = (quoted (c :: held)).run rest := by
  have hnamed : ∀ letter d, letter ≠ 'u' → named? letter = some d →
      (quoted held).run ('\\' :: letter :: rest) = (quoted (d :: held)).run rest := by
    intro letter d hu hd
    have hslash : (quoted held).step '\\' = some ([], escape held) := rfl
    have hletter : (escape held).step letter = some ([], quoted (d :: held)) := by
      rw [step, if_neg hu, hd]
      rfl
    rw [run_silent hslash, run_silent hletter]
  unfold escapeChar
  -- Seven characters have an escape of one letter.
  iterate 7
    split
    · next h =>
      subst h
      exact hnamed _ _ (by decide) rfl
  split
  · next hquote hslash _ _ _ _ _ hplain =>
    refine run_silent ?_ rest
    rw [step, if_neg hquote, if_neg hslash, if_neg (by omega)]
  · exact run_units c held rest

theorem run_quoted (t held rest : Text) :
    (quoted held).run (t.flatMap escapeChar ++ '"' :: rest)
      = (between.run rest).map (.text (held.reverse ++ t) :: ·) := by
  induction t generalizing held with
  | nil =>
    rw [List.append_nil]
    exact run_emit rfl rest
  | cons c t ih =>
    rw [List.flatMap_cons, List.append_assoc, run_escapeChar, ih, List.reverse_cons,
      List.append_assoc, List.singleton_append]

/-- **A quoted text is one lexeme.** -/
theorem run_quote (t rest : Text) :
    between.run (quote t ++ rest) = (between.run rest).map (.text t :: ·) := by
  have hopen : between.step '"' = some ([], quoted []) := rfl
  rw [quote, List.cons_append, List.cons_append, run_silent hopen, List.append_assoc,
    List.singleton_append, run_quoted]
  rfl

/-- A name and the colon behind it are two lexemes. -/
theorem run_name (name rest : Text) :
    between.run (quote name ++ (": ".toList ++ rest))
      = (between.run rest).map fun xs => .text name :: .colon :: xs := by
  show between.run (quote name ++ (':' :: ([' '] ++ rest))) = _
  rw [run_quote, run_mark rfl, run_gap gap_blank, Option.map_map]
  rfl

end Mode

/-! ## Documents as lexemes -/

mutual

/-- The lexemes of a document. -/
def lexemes : Json → List Lexeme
  | .text t => [.text t]
  | .number n => [.plain (.integer n)]
  | .bool b => [.plain (.bool b)]
  | .list [] => [.openList, .closeList]
  | .list (x :: xs) => .openList :: lexemes x ++ moreItems xs ++ [.closeList]
  | .fields [] => [.openFields, .closeFields]
  | .fields ((k, x) :: xs) =>
    .openFields :: .text k :: .colon :: lexemes x ++ moreFields xs ++ [.closeFields]

/-- The lexemes of the items after the first. -/
def moreItems : List Json → List Lexeme
  | [] => []
  | x :: xs => .comma :: lexemes x ++ moreItems xs

/-- The lexemes of the fields after the first. -/
def moreFields : List (Text × Json) → List Lexeme
  | [] => []
  | (k, x) :: xs => .comma :: .text k :: .colon :: lexemes x ++ moreFields xs

end

/-- A layout whose line breaks say nothing: its unit is made of gaps. -/
def Layout.Silent : Layout → Prop
  | .line => True
  | .block unit => ∀ c ∈ unit, isGap c = true

namespace Layout

variable {l : Layout}

theorem Silent.newline (h : l.Silent) (depth : Nat) : ∀ c ∈ l.newline depth, isGap c = true := by
  cases l with
  | line => exact fun c hc => absurd hc List.not_mem_nil
  | block unit =>
    intro c hc
    rcases List.mem_cons.mp hc with rfl | hc
    · rfl
    · obtain ⟨u, hu, hcu⟩ := List.mem_flatten.mp hc
      rw [List.eq_of_mem_replicate hu] at hcu
      exact h c hcu

theorem Silent.run_newline (h : l.Silent) (depth : Nat) (rest : Text) :
    Mode.between.run (l.newline depth ++ rest) = Mode.between.run rest :=
  Mode.run_gap (h.newline depth) rest

theorem Silent.run_between (h : l.Silent) (depth : Nat) (rest : Text) :
    Mode.between.run (l.between depth ++ rest) = (Mode.between.run rest).map (.comma :: ·) := by
  cases l with
  | line =>
    show Mode.between.run (',' :: ([' '] ++ rest)) = _
    rw [Mode.run_mark rfl, Mode.run_gap Mode.gap_blank]
  | block unit =>
    show Mode.between.run (',' :: (Layout.newline (.block unit) depth ++ rest)) = _
    rw [Mode.run_mark rfl, h.run_newline depth]

theorem delimited_newline (l : Layout) (depth : Nat) {rest : Text} (h : Mode.Delimited rest) :
    Mode.Delimited (l.newline depth ++ rest) := by
  cases l with
  | line => exact h
  | block unit => exact Mode.delimited_cons rfl _

theorem delimited_between (l : Layout) (depth : Nat) (rest : Text) :
    Mode.Delimited (l.between depth ++ rest) := by
  cases l <;> exact Mode.delimited_cons rfl _

end Layout

section

variable (l : Layout)

theorem delimited_writeItems (depth : Nat) (xs : List Json) {rest : Text}
    (h : Mode.Delimited rest) : Mode.Delimited (writeItems l depth xs ++ rest) := by
  cases xs with
  | nil => exact h
  | cons x xs =>
    rw [writeItems, List.append_assoc, List.append_assoc]
    exact l.delimited_between depth _

theorem delimited_writeFields (depth : Nat) (xs : List (Text × Json)) {rest : Text}
    (h : Mode.Delimited rest) : Mode.Delimited (writeFields l depth xs ++ rest) := by
  cases xs with
  | nil => exact h
  | cons x xs =>
    obtain ⟨k, x⟩ := x
    rw [writeFields]
    simp only [List.append_assoc]
    exact l.delimited_between depth _

end

mutual

/-- **A written document is cut into its lexemes**, whatever the layout. -/
theorem run_write {l : Layout} (hl : l.Silent) (depth : Nat) :
    ∀ (x : Json) {rest : Text}, Mode.Delimited rest →
      Mode.between.run (write l depth x ++ rest) = (Mode.between.run rest).map (lexemes x ++ ·)
  | .text t, rest, _ => Mode.run_quote t rest
  | .number n, rest, hrest => by
    have hdigits : ∀ c ∈ Text.ofNat n, ¬ isDelimiter c = true :=
      fun _ hc => not_isDelimiter_of_isDigit (Text.isDigit_of_mem_ofNat hc)
    exact Mode.run_plain Nat.toDigits_ne_nil hdigits (plain?_ofNat n) hrest
  | .bool true, rest, hrest => by
    have hplain : ∀ c ∈ "true".toList, ¬ isDelimiter c = true := List.any_eq_false.mp rfl
    exact Mode.run_plain (List.cons_ne_nil _ _) hplain rfl hrest
  | .bool false, rest, hrest => by
    have hplain : ∀ c ∈ "false".toList, ¬ isDelimiter c = true := List.any_eq_false.mp rfl
    exact Mode.run_plain (List.cons_ne_nil _ _) hplain rfl hrest
  | .list [], rest, _ => by
    show Mode.between.run ('[' :: ']' :: rest) = _
    rw [Mode.run_mark rfl, Mode.run_mark rfl, Option.map_map]
    rfl
  | .list (x :: xs), rest, hrest => by
    have hend : Mode.Delimited (l.newline depth ++ ']' :: rest) :=
      l.delimited_newline depth (Mode.delimited_cons rfl rest)
    simp only [write, List.cons_append, List.append_assoc, List.nil_append]
    rw [Mode.run_mark rfl, hl.run_newline,
      run_write hl (depth + 1) x (delimited_writeItems l (depth + 1) xs hend),
      run_writeItems hl (depth + 1) xs hend, hl.run_newline, Mode.run_mark rfl]
    simp only [lexemes, Option.map_map, Function.comp_def, List.cons_append, List.append_assoc,
      List.nil_append]
  | .fields [], rest, _ => by
    show Mode.between.run ('\x7b' :: '\x7d' :: rest) = _
    rw [Mode.run_mark rfl, Mode.run_mark rfl, Option.map_map]
    rfl
  | .fields ((k, x) :: xs), rest, hrest => by
    have hend : Mode.Delimited (l.newline depth ++ '\x7d' :: rest) :=
      l.delimited_newline depth (Mode.delimited_cons rfl rest)
    simp only [write, List.cons_append, List.append_assoc, List.nil_append]
    rw [Mode.run_mark rfl, hl.run_newline, Mode.run_name,
      run_write hl (depth + 1) x (delimited_writeFields l (depth + 1) xs hend),
      run_writeFields hl (depth + 1) xs hend, hl.run_newline, Mode.run_mark rfl]
    simp only [lexemes, Option.map_map, Function.comp_def, List.cons_append, List.append_assoc,
      List.nil_append]

theorem run_writeItems {l : Layout} (hl : l.Silent) (depth : Nat) :
    ∀ (xs : List Json) {rest : Text}, Mode.Delimited rest →
      Mode.between.run (writeItems l depth xs ++ rest)
        = (Mode.between.run rest).map (moreItems xs ++ ·)
  | [], rest, _ => by simp [writeItems, moreItems]
  | x :: xs, rest, hrest => by
    simp only [writeItems, List.append_assoc]
    rw [hl.run_between, run_write hl depth x (delimited_writeItems l depth xs hrest),
      run_writeItems hl depth xs hrest]
    simp only [moreItems, Option.map_map, Function.comp_def, List.cons_append, List.append_assoc]

theorem run_writeFields {l : Layout} (hl : l.Silent) (depth : Nat) :
    ∀ (xs : List (Text × Json)) {rest : Text}, Mode.Delimited rest →
      Mode.between.run (writeFields l depth xs ++ rest)
        = (Mode.between.run rest).map (moreFields xs ++ ·)
  | [], rest, _ => by simp [writeFields, moreFields]
  | (k, x) :: xs, rest, hrest => by
    simp only [writeFields, List.append_assoc]
    rw [hl.run_between, Mode.run_name,
      run_write hl depth x (delimited_writeFields l depth xs hrest),
      run_writeFields hl depth xs hrest]
    simp only [moreFields, Option.map_map, Function.comp_def, List.cons_append, List.append_assoc]

end

end Json

end Routing
