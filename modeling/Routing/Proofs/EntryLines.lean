/-
  ENTRY LINES — reading an environment file inverts writing one.

  A writer has choices that a reader must not see: blanks around keys and values, quotes around a
  value, the mark at the end of each line, comments and blank lines in between.

  1. **Lines as they are written** (`EnvFile.Line`) carry these choices, and their text shares no
     code with the reader.
  2. **Trimming** stops at the first character from either side that is not of the class
     (`Text.trim_append_cons`).  So the `=` of a line separates what is trimmed at the left from
     what is trimmed at the right, and each side is trimmed again to its key or its value.
  3. **The crux** (`EnvFile.filterMap_lines`): a line that is ended by any of the three marks is
     read apart from what follows.  A carriage return before a line feed that ends an empty line
     is the one exception: the two are read as one mark.  But then it is the blank line that is
     lost, and it says nothing.
-/
import Mathlib.Data.List.DropRight
import Routing.Proofs.Layering

namespace Routing

/-! ## Trimming -/

namespace Text

variable {p : Char → Bool}

/-- A text that neither begins nor ends with a character of a class. -/
def Bounded (p : Char → Bool) (t : Text) : Prop :=
  (∀ c ∈ t.head?, p c = false) ∧ ∀ c ∈ t.getLast?, p c = false

-- The instances are named, since one that runs through all characters would do as well.
instance (p : Char → Bool) (t : Text) : Decidable (t.Bounded p) :=
  have : Decidable (∀ c ∈ t.head?, p c = false) := Option.decidableForallMem _
  have : Decidable (∀ c ∈ t.getLast?, p c = false) := Option.decidableForallMem _
  inferInstanceAs (Decidable (_ ∧ _))

theorem dropWhile_eq_self {t : Text} (h : ∀ c ∈ t.head?, p c = false) : t.dropWhile p = t := by
  cases t with
  | nil => rfl
  | cons c rest =>
    have hc : ¬ p c = true := by
      rw [h c rfl]
      exact Bool.false_ne_true
    exact List.dropWhile_cons_of_neg hc

theorem dropWhile_append_cons {c : Char} (hc : p c = false) (front back : Text) :
    (front ++ c :: back).dropWhile p = front.dropWhile p ++ c :: back := by
  induction front with
  | nil => exact dropWhile_eq_self fun _ h => Option.some.inj h ▸ hc
  | cons first rest ih =>
    rw [List.cons_append, List.dropWhile_cons, List.dropWhile_cons]
    split
    · exact ih
    · rfl

theorem trim_eq_self {t : Text} (h : t.Bounded p) : t.trim p = t := by
  have hlast : ∀ c ∈ t.reverse.head?, p c = false := by
    rw [List.head?_reverse]
    exact h.2
  rw [trim, dropWhile_eq_self h.1, dropWhile_eq_self hlast, List.reverse_reverse]

theorem trim_append_left {margin : Text} (h : ∀ c ∈ margin, p c = true) (t : Text) :
    trim p (margin ++ t) = trim p t := by
  rw [trim, List.dropWhile_append_of_pos h, trim]

theorem trim_append_right {margin : Text} (h : ∀ c ∈ margin, p c = true) (t : Text) :
    trim p (t ++ margin) = trim p t := by
  have hreverse : ∀ c ∈ margin.reverse, p c = true := fun c hc => h c (List.mem_reverse.mp hc)
  rw [trim, trim, List.dropWhile_append]
  cases t.dropWhile p with
  | nil =>
    have hnone : margin.dropWhile p = [] := List.dropWhile_eq_nil_iff.mpr h
    rw [List.isEmpty_nil, if_pos rfl, hnone]
  | cons c rest =>
    rw [List.isEmpty_cons, if_neg Bool.false_ne_true, List.reverse_append,
      List.dropWhile_append_of_pos hreverse]

theorem trim_around {margin margin' t : Text} (h : ∀ c ∈ margin, p c = true)
    (h' : ∀ c ∈ margin', p c = true) (ht : t.Bounded p) :
    trim p (margin ++ t ++ margin') = t := by
  rw [trim_append_right h', trim_append_left h, trim_eq_self ht]

theorem trim_dropWhile (t : Text) : trim p (t.dropWhile p) = trim p t := by
  have hfront : ∀ c ∈ t.takeWhile p, p c = true := fun _ => List.mem_takeWhile_imp
  have hsplit := trim_append_left hfront (t.dropWhile p)
  rw [List.takeWhile_append_dropWhile] at hsplit
  exact hsplit.symm

theorem trim_rdropWhile (t : Text) : trim p (t.rdropWhile p) = trim p t := by
  have hback : ∀ c ∈ t.rtakeWhile p, p c = true := fun _ => List.mem_rtakeWhile_imp
  have hsplit := trim_append_right hback (t.rdropWhile p)
  rw [List.rdropWhile_append_rtakeWhile] at hsplit
  exact hsplit.symm

/-- **Trimming stops at a character** that is not of the class, from either side. -/
theorem trim_append_cons {c : Char} (hc : p c = false) (front back : Text) :
    trim p (front ++ c :: back) = front.dropWhile p ++ c :: back.rdropWhile p := by
  have hreverse : (front.dropWhile p ++ c :: back).reverse
      = back.reverse ++ c :: (front.dropWhile p).reverse := by
    rw [List.reverse_append, List.reverse_cons, List.append_assoc, List.singleton_append]
  rw [trim, dropWhile_append_cons hc, hreverse, dropWhile_append_cons hc, List.reverse_append,
    List.reverse_cons, List.reverse_reverse, List.append_assoc, List.singleton_append,
    List.rdropWhile]

end Text

/-! ## Lines as they are written -/

namespace EnvFile

/-- Whether a character ends a line, alone or with another one. -/
def isBreak (c : Char) : Bool := c = '\n' || c = '\r'

/-- A text that stays within its line. -/
def Unbroken (t : Text) : Prop := ∀ c ∈ t, isBreak c = false

/-- Blanks that stay within their line. -/
def Margin (t : Text) : Prop := ∀ c ∈ t, Text.isBlank c = true ∧ isBreak c = false

instance (t : Text) : Decidable (Unbroken t) := List.decidableBAll _ t

instance (t : Text) : Decidable (Margin t) := List.decidableBAll _ t

/-- The mark at the end of a line. -/
inductive LineEnd where
  | lineFeed
  | carriageReturn
  | both

/-- The characters of a mark. -/
def LineEnd.text : LineEnd → Text
  | .lineFeed => ['\n']
  | .carriageReturn => ['\r']
  | .both => ['\r', '\n']

/-- What stands on either side of a value. -/
inductive Quotes where
  | none
  | single
  | double

/-- The quote of one side. -/
def Quotes.text : Quotes → Text
  | .none => []
  | .single => ['\'']
  | .double => ['"']

/-- A line as it is written. -/
inductive Line where
  | blank (margin : Text)
  | comment (margin rest : Text)
  | pair (key value : Text) (quotes : Quotes) (before after ahead behind : Text)

namespace Line

/-- The text of a line, without its end. -/
def text : Line → Text
  | .blank margin => margin
  | .comment margin rest => margin ++ '#' :: rest
  | .pair key value quotes before after ahead behind =>
    before ++ key ++ after ++ '=' :: (ahead ++ (quotes.text ++ value ++ quotes.text) ++ behind)

/-- The key and the value of a line that has them. -/
def pair? : Line → Option (Text × Text)
  | .blank _ | .comment .. => none
  | .pair key value .. => some (key, value)

/-- A text that can be the key of a line. -/
structure IsKey (key : Text) : Prop where
  unbroken : Unbroken key
  bounded : key.Bounded Text.isBlank
  noEquals : '=' ∉ key
  noComment : key.head? ≠ some '#'

/-- A text that can be the value of a line. -/
structure IsValue (value : Text) : Prop where
  unbroken : Unbroken value
  bounded : value.Bounded fun c => Text.isBlank c || isQuote c

/-- A line whose parts are what they have to be. -/
def WellFormed : Line → Prop
  | .blank margin => Margin margin
  | .comment margin rest => Margin margin ∧ Unbroken rest
  | .pair key value _ before after ahead behind =>
    IsKey key ∧ IsValue value ∧ Margin before ∧ Margin after ∧ Margin ahead ∧ Margin behind

instance (key : Text) : Decidable (IsKey key) :=
  decidable_of_iff (Unbroken key ∧ key.Bounded Text.isBlank ∧ '=' ∉ key ∧ key.head? ≠ some '#')
    ⟨fun ⟨h, h', h'', h'''⟩ => ⟨h, h', h'', h'''⟩, fun ⟨h, h', h'', h'''⟩ => ⟨h, h', h'', h'''⟩⟩

instance (value : Text) : Decidable (IsValue value) :=
  decidable_of_iff (Unbroken value ∧ value.Bounded fun c => Text.isBlank c || isQuote c)
    ⟨fun ⟨h, h'⟩ => ⟨h, h'⟩, fun ⟨h, h'⟩ => ⟨h, h'⟩⟩

instance (line : Line) : Decidable line.WellFormed :=
  match line with
  | .blank margin => inferInstanceAs (Decidable (Margin margin))
  | .comment margin rest => inferInstanceAs (Decidable (Margin margin ∧ Unbroken rest))
  | .pair .. => inferInstanceAs (Decidable (IsKey _ ∧ IsValue _ ∧ _))

end Line

/-- The text of lines with their marks, and of a last line, which may be empty, without one. -/
def write (lines : List (Line × LineEnd)) (last : Line) : Text :=
  lines.flatMap (fun p => p.1.text ++ p.2.text) ++ last.text

/-! ## Reading one line -/

/-- A line that is trimmed to an entry is cut at its first `=`. -/
theorem entry?_of_strip {line front back : Text} (hstrip : Text.strip line = front ++ '=' :: back)
    (hequals : '=' ∉ front) (hcomment : front.head? ≠ some '#') :
    entry? line = some (Text.strip front, (Text.strip back).trim isQuote) := by
  have hpass : ∀ c ∈ front, decide (c ≠ '=') = true := fun c hc =>
    decide_eq_true fun heq => hequals (heq ▸ hc)
  have hkey : (front ++ '=' :: back).takeWhile (· ≠ '=') = front := by
    rw [List.takeWhile_append_of_pos hpass]
    exact List.append_nil front
  have hvalue : (front ++ '=' :: back).dropWhile (· ≠ '=') = '=' :: back := by
    rw [List.dropWhile_append_of_pos hpass]
    rfl
  rw [ entry?, hstrip]
  split
  · next h => exact absurd h (List.append_ne_nil_of_right_ne_nil _ (List.cons_ne_nil _ _))
  · next rest h =>
    -- The first character of the line is that of the key, or the `=` if the key is empty.
    cases front with
    | nil => nomatch (List.cons.inj h).1
    | cons c front => exact absurd (congrArg some (List.cons.inj h).1) hcomment
  · rw [hvalue, hkey]

theorem Quotes.isQuote_of_mem {quotes : Quotes} {c : Char} (h : c ∈ quotes.text) :
    isQuote c = true := by
  cases quotes with
  | none => nomatch h
  | single | double =>
    rw [List.mem_singleton.mp h]
    rfl

theorem Quotes.unbroken_text (quotes : Quotes) : Unbroken quotes.text := by
  intro c hc
  cases quotes with
  | none => nomatch hc
  | single | double =>
    rw [List.mem_singleton.mp hc]
    rfl

namespace Line

/-- The part of a line before its `=` does not begin like a comment. -/
theorem IsKey.head?_front {key before after : Text} (h : IsKey key)
    (hbefore : ∀ c ∈ before, Text.isBlank c = true) (hafter : ∀ c ∈ after, Text.isBlank c = true) :
    ((before ++ key ++ after).dropWhile Text.isBlank).head? ≠ some '#' := by
  rw [List.append_assoc, List.dropWhile_append_of_pos hbefore]
  cases key with
  | nil =>
    have hnone : after.dropWhile Text.isBlank = [] := List.dropWhile_eq_nil_iff.mpr hafter
    rw [List.nil_append, hnone]
    exact Option.some_ne_none _ |>.symm
  | cons first rest =>
    have hself : (first :: rest ++ after).dropWhile Text.isBlank = first :: rest ++ after :=
      Text.dropWhile_eq_self h.bounded.1
    rw [hself]
    exact h.noComment

theorem IsValue.bounded_isBlank {value : Text} (h : IsValue value) :
    value.Bounded Text.isBlank :=
  ⟨fun c hc => (Bool.or_eq_false_iff.mp (h.bounded.1 c hc)).1,
    fun c hc => (Bool.or_eq_false_iff.mp (h.bounded.2 c hc)).1⟩

theorem IsValue.bounded_isQuote {value : Text} (h : IsValue value) : value.Bounded isQuote :=
  ⟨fun c hc => (Bool.or_eq_false_iff.mp (h.bounded.1 c hc)).2,
    fun c hc => (Bool.or_eq_false_iff.mp (h.bounded.2 c hc)).2⟩

/-- No blank stands at either end of a value in its quotes. -/
theorem bounded_quoted {value : Text} (h : IsValue value) (quotes : Quotes) :
    (quotes.text ++ value ++ quotes.text : Text).Bounded Text.isBlank := by
  have hsame (q : Char) (hq : Text.isBlank q = false) :
      Text.Bounded Text.isBlank ([q] ++ value ++ [q]) := by
    refine ⟨fun c hc => ?_, fun c hc => ?_⟩
    · rw [← Option.some.inj hc]
      exact hq
    · rw [List.getLast?_concat] at hc
      rw [← Option.some.inj hc]
      exact hq
  cases quotes with
  | none =>
    rw [Quotes.text, List.nil_append, List.append_nil]
    exact h.bounded_isBlank
  | single => exact hsame '\'' (by decide)
  | double => exact hsame '"' (by decide)

theorem trim_quoted {value : Text} (h : IsValue value) (quotes : Quotes) :
    Text.trim isQuote (quotes.text ++ value ++ quotes.text) = value := by
  have hquotes : ∀ c ∈ quotes.text, isQuote c = true := fun _ => Quotes.isQuote_of_mem
  exact Text.trim_around hquotes hquotes h.bounded_isQuote

/-- **A line is read as what it says.** -/
theorem entry?_text {line : Line} (h : line.WellFormed) : entry? line.text = line.pair? := by
  cases line with
  | blank margin =>
    have hmargin := Text.trim_append_left (p := Text.isBlank) (fun c hc => (h c hc).1) []
    rw [List.append_nil] at hmargin
    rw [ entry?, text, Text.strip, hmargin]
    rfl
  | comment margin rest =>
    have hmargin : margin.dropWhile Text.isBlank = [] :=
      List.dropWhile_eq_nil_iff.mpr fun c hc => (h.1 c hc).1
    have hhash : Text.isBlank '#' = false := by decide
    rw [ entry?, text, Text.strip, Text.trim_append_cons hhash, hmargin]
    rfl
  | pair key value quotes before after ahead behind =>
    obtain ⟨hkey, hvalue, hbefore, hafter, hahead, hbehind⟩ := h
    have hequals : Text.isBlank '=' = false := by decide
    have hstrip := Text.trim_append_cons hequals (before ++ key ++ after)
      (ahead ++ (quotes.text ++ value ++ quotes.text) ++ behind)
    have hblank {margin : Text} (h : Margin margin) : ∀ c ∈ margin, Text.isBlank c = true :=
      fun c hc => (h c hc).1
    have hnoEquals {margin : Text} (h : Margin margin) : '=' ∉ margin := fun hmem =>
      Bool.false_ne_true (hequals.symm.trans (hblank h _ hmem))
    have hfront : '=' ∉ (before ++ key ++ after).dropWhile Text.isBlank := fun hmem => by
      have hmem := (List.dropWhile_sublist _).mem hmem
      rw [List.mem_append, List.mem_append] at hmem
      exact hmem.elim (·.elim (hnoEquals hbefore) hkey.noEquals) (hnoEquals hafter)
    rw [text, entry?_of_strip hstrip hfront (hkey.head?_front (hblank hbefore) (hblank hafter)),
      Text.strip, Text.trim_dropWhile,
      Text.trim_around (hblank hbefore) (hblank hafter) hkey.bounded, Text.strip,
      Text.trim_rdropWhile,
      Text.trim_around (hblank hahead) (hblank hbehind) (bounded_quoted hvalue quotes),
      trim_quoted hvalue]
    rfl

end Line

/-! ## Reading lines -/

theorem unifyLineEnds_append {t : Text} (h : Unbroken t) (rest : Text) :
    unifyLineEnds (t ++ rest) = t ++ unifyLineEnds rest := by
  induction t with
  | nil => rfl
  | cons c t ih =>
    obtain ⟨hc, ht⟩ := List.forall_mem_cons.mp h
    have hne : c ≠ '\r' := by
      rintro rfl
      nomatch hc
    rw [List.cons_append, unifyLineEnds, ih ht, List.cons_append]
    · exact fun _ heq _ => hne heq
    · exact hne

theorem Unbroken.notMem {t : Text} (h : Unbroken t) : '\n' ∉ t := fun hmem => nomatch h _ hmem

theorem lines_of_unbroken {t : Text} (h : Unbroken t) : lines t = [t] := by
  have hunify := unifyLineEnds_append h []
  rw [unifyLineEnds, List.append_nil] at hunify
  rw [lines, hunify, List.splitOn_eq_singleton h.notMem]

theorem splitOn_of_unbroken {t : Text} (h : Unbroken t) (rest : Text) :
    (t ++ '\n' :: rest).splitOn '\n' = t :: rest.splitOn '\n' := by
  refine List.splitOnP_append_cons_of_forall_mem (fun c hc => ?_) _ rfl _
  exact beq_eq_false_iff_ne.mpr fun heq => h.notMem (heq ▸ hc)

/-- **A line is read apart from what follows**, whichever mark ends it. -/
theorem filterMap_lines {t : Text} (h : Unbroken t) (mark : LineEnd) (rest : Text) :
    (lines (t ++ mark.text ++ rest)).filterMap entry?
      = Option.toList ( entry? t) ++ (lines rest).filterMap entry? := by
  have hended (rest : Text) :
      ((t ++ '\n' :: unifyLineEnds rest).splitOn '\n').filterMap entry?
        = Option.toList ( entry? t) ++ (lines rest).filterMap entry? := by
    rw [splitOn_of_unbroken h, List.filterMap_cons, lines]
    cases entry? t <;> rfl
  rw [lines, List.append_assoc, unifyLineEnds_append h]
  cases mark with
  | lineFeed => exact hended rest
  | both => exact hended rest
  | carriageReturn =>
    show ((t ++ unifyLineEnds ('\r' :: rest)).splitOn '\n').filterMap entry? = _
    cases rest with
    | nil => exact hended []
    | cons c rest =>
      by_cases hc : c = '\n'
      · -- The mark takes the line feed of the empty line that follows with it.
        subst hc
        have hempty : lines ('\n' :: rest) = [] :: lines rest :=
          splitOn_of_unbroken (List.forall_mem_nil _) (unifyLineEnds rest)
        have hnone : entry? [] = none := rfl
        rw [hempty, List.filterMap_cons, hnone]
        exact hended rest
      · rw [unifyLineEnds]
        · exact hended (c :: rest)
        · exact fun _ heq => hc (List.cons.inj heq).1

theorem Unbroken.append {t t' : Text} (h : Unbroken t) (h' : Unbroken t') : Unbroken (t ++ t') :=
  List.forall_mem_append.mpr ⟨h, h'⟩

theorem Margin.unbroken {margin : Text} (h : Margin margin) : Unbroken margin :=
  fun c hc => (h c hc).2

theorem Line.unbroken_text {line : Line} (h : line.WellFormed) : Unbroken line.text := by
  cases line with
  | blank margin => exact Margin.unbroken h
  | comment margin rest =>
    exact h.1.unbroken.append (List.forall_mem_cons.mpr ⟨rfl, h.2⟩)
  | pair key value quotes before after ahead behind =>
    obtain ⟨hkey, hvalue, hbefore, hafter, hahead, hbehind⟩ := h
    have hquotes := quotes.unbroken_text
    have hfront := (hbefore.unbroken.append hkey.unbroken).append hafter.unbroken
    have hquoted := (hquotes.append hvalue.unbroken).append hquotes
    have hback := (hahead.unbroken.append hquoted).append hbehind.unbroken
    exact hfront.append (List.forall_mem_cons.mpr ⟨rfl, hback⟩)

/-- **The entries that are read from lines are those that have been written.** -/
theorem filterMap_write {written : List (Line × LineEnd)} {last : Line}
    (hwritten : ∀ p ∈ written, p.1.WellFormed) (hlast : last.WellFormed) :
    (lines (write written last)).filterMap entry?
      = (written.map Prod.fst ++ [last]).filterMap Line.pair? := by
  induction written with
  | nil =>
    show (lines last.text).filterMap entry? = [last].filterMap Line.pair?
    rw [lines_of_unbroken (Line.unbroken_text hlast), List.filterMap_cons, List.filterMap_cons,
      Line.entry?_text hlast]
    rfl
  | cons p rest ih =>
    obtain ⟨hp, hrest⟩ := List.forall_mem_cons.mp hwritten
    have hsplit : write (p :: rest) last = p.1.text ++ p.2.text ++ write rest last := by
      rw [write, List.flatMap_cons, List.append_assoc, write]
    rw [hsplit, filterMap_lines (Line.unbroken_text hp), ih hrest, Line.entry?_text hp,
      List.map_cons, List.cons_append, List.filterMap_cons]
    cases p.1.pair? <;> rfl

/-! ## Files -/

/-- The pairs that are written, in their order. -/
def pairs (written : List (Line × LineEnd)) (last : Line) : List (Text × Text) :=
  (written.map Prod.fst ++ [last]).filterMap Line.pair?

theorem decode?_toUTF8 (s : String) : decode? s.toUTF8 = some s.toList := by
  have hs : String.fromUTF8? s.toUTF8 = some s := by
    unfold String.fromUTF8?
    exact dif_pos s.isValidUTF8
  rw [decode?, hs]
  rfl

theorem entries_eq_ofPairs {written : List (Line × LineEnd)} {last : Line}
    (hwritten : ∀ p ∈ written, p.1.WellFormed) (hlast : last.WellFormed) :
    entries (write written last) = Assoc.ofPairs (pairs written last) := by
  rw [entries, filterMap_write hwritten hlast, pairs]

end EnvFile

namespace Layers

/-- A layer whose keys do not have the lead says nothing. -/
theorem addLayer_of_no_lead {lead : Text} {layer : List (Text × Text)}
    (h : ∀ p ∈ layer, ¬ lead <+: p.1) (raw : Assoc Field Setting) :
    addLayer lead raw (Assoc.ofPairs layer) = raw := by
  have hnone : assigned (fieldOf? lead) .text (Assoc.ofPairs layer) = [] := by
    refine List.filterMap_eq_nil_iff.mpr fun p hp => ?_
    cases hf : fieldOf? lead p.1 with
    | none => rfl
    | some f =>
      obtain ⟨rest, hrest, -⟩ := Field.fieldOf?_eq_some_iff.mp hf
      have hkey : p.1 ∈ (Assoc.ofPairs layer).keys := List.mem_map_of_mem hp
      rw [Assoc.keys_ofPairs, List.mem_eraseDups] at hkey
      obtain ⟨q, hq, heq⟩ := List.mem_map.mp hkey
      exact absurd ⟨rest, (heq.trans hrest).symm⟩ (h q hq)
  rw [addLayer_eq, hnone]
  rfl

/-- A file with these entries sets what an environment with these pairs sets. -/
theorem load_of_file {layers : Layers} {pairs : List (Text × Text)}
    (hfile : layers.fileEntries = .ok (Assoc.ofPairs pairs))
    (h : ∀ p ∈ layers.environment, ¬ layers.lead <+: p.1) :
    layers.load = load ⟨layers.lead, none, pairs, layers.overrides⟩ := by
  have hempty : addLayer layers.lead [] [] = [] := rfl
  rw [load, load, hfile]
  dsimp only [fileEntries]
  rw [addLayer_of_no_lead h, hempty]

end Layers

/-! ## Writing and reading -/

/-- **Reading a file inverts writing one.**  Take any lines: entries, with blanks and quotes as the
    writer likes, blank lines and comments, each ended by any of the three marks, and the last one
    by none.  The keys of the file that are read are those that were written, each once, in order of
    first appearance, and each has the last value that was written for it.  And where the
    environment has no key with the lead, the file gives the settings, or the refusal, that its
    pairs give as the environment. -/
theorem EnvFile.entries_write (written : List (Line × LineEnd)) (last : Line)
    (hwritten : ∀ p ∈ written, p.1.WellFormed) (hlast : last.WellFormed) :
    (entries (write written last)).keys = ((pairs written last).map Prod.fst).eraseDups ∧
    (∀ key, (entries (write written last)).lookup key
      = (pairs written last).reverse.lookup key) ∧
    ∀ lead environment overrides, (∀ p ∈ environment, ¬ lead <+: p.1) →
      Layers.load ⟨lead, some (String.ofList (write written last)).toUTF8, environment, overrides⟩
        = Layers.load ⟨lead, none, pairs written last, overrides⟩ := by
  have hentries := entries_eq_ofPairs hwritten hlast
  refine ⟨?_, fun key => ?_, fun lead environment overrides henvironment => ?_⟩
  · rw [hentries, Assoc.keys_ofPairs]
  · rw [hentries, Assoc.ofPairs, Assoc.lookup_putAll]
    exact Option.or_none
  · refine Layers.load_of_file ?_ henvironment
    rw [Layers.fileEntries]
    dsimp only
    rw [decode?_toUTF8, String.toList_ofList]
    exact congrArg Except.ok hentries

namespace EnvFile

/-- A carriage return before a line feed, blanks that end no line, quotes, a key that returns. -/
def sample : List (Line × LineEnd) :=
  [(.comment [] " P_CACHE_SIZE=1".toList, .carriageReturn),
    (.blank [], .lineFeed),
    (.pair "P_CACHE_SIZE".toList "5".toList .double [] " ".toList "\u3000".toList [], .both),
    (.pair "P_X".toList "a='#b".toList .single "\u2028\u0085".toList [] [] "\t".toList, .lineFeed),
    (.blank "\u001c".toList, .carriageReturn)]

/-- The key has no blanks around it, and its value is bare. -/
def sampleLast : Line := .pair "P_CACHE_SIZE".toList "7".toList .none [] [] [] []

theorem entries_write_sample :
    let text := write sample sampleLast
    text = ("# P_CACHE_SIZE=1\r\nP_CACHE_SIZE =\u3000\"5\"\r\n".toList ++
      "\u2028\u0085P_X='a='#b'\t\n\u001c\rP_CACHE_SIZE=7".toList) ∧
    (entries text).keys = ["P_CACHE_SIZE".toList, "P_X".toList] ∧
    (entries text).lookup "P_CACHE_SIZE".toList = some "7".toList ∧
    (entries text).lookup "P_X".toList = some "a='#b".toList ∧
    Layers.load ⟨"P_".toList, some (String.ofList text).toUTF8,
        [("Q_CACHE_TTL".toList, "0".toList)], []⟩
      = Layers.load ⟨"P_".toList, none, pairs sample sampleLast, []⟩ := by
  intro text
  have hwritten : ∀ p ∈ sample, p.1.WellFormed := by decide
  have hlast : sampleLast.WellFormed := by decide
  have henvironment : ∀ p ∈ [("Q_CACHE_TTL".toList, "0".toList)], ¬ "P_".toList <+: p.1 := by
    decide
  obtain ⟨hkeys, hlookup, hload⟩ := entries_write sample sampleLast hwritten hlast
  refine ⟨by decide, hkeys.trans (by decide), (hlookup _).trans (by decide),
    (hlookup _).trans (by decide), hload _ _ _ henvironment⟩

end EnvFile

end Routing
