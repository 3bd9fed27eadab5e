/-
  LOSSLESS TEXT — a route can be read back from its text, in every layout.

  1. **Parsing follows the document** (`Json.run_lexemes`): the lexemes of a document take the
     parser from awaiting a value to having it, whatever is open around it.  Together with lexing
     this reads a text back (`Json.decode_render`).
  2. **Written text is ASCII** (`Json.ascii_write`), for all else is escaped.
  3. **A source is spelled by its decoded segments** (`sourceOf?_toJson`).  Spans are not written,
     and a spelling does not need them.
-/
import Routing.Proofs.Lexing
import Routing.Proofs.Parsing
import Routing.Route.Document

namespace Routing

namespace Json

/-! ## Lexemes as documents -/

mutual

/-- **The lexemes of a document are parsed to its value**, whatever is open around it. -/
theorem run_lexemes (stack : List Frame) (orEnd : Bool) :
    ∀ (x : Json) (rest : List Lexeme),
      Parser.run ⟨stack, .value orEnd⟩ (lexemes x ++ rest)
        = Parser.run ⟨stack, .follow x.value⟩ rest
  | .text _, _ => rfl
  | .number _, _ => rfl
  | .bool _, _ => rfl
  | .list [], _ => rfl
  | .list (x :: xs), rest => by
    show Parser.run ⟨.list [] :: stack, .value true⟩
      (lexemes x ++ moreItems xs ++ [.closeList] ++ rest) = _
    rw [List.append_assoc, List.append_assoc, run_lexemes, List.singleton_append, run_moreItems]
    rfl
  | .fields [], _ => rfl
  | .fields ((k, x) :: xs), rest => by
    show Parser.run ⟨.fields [] k :: stack, .value false⟩
      (lexemes x ++ moreFields xs ++ [.closeFields] ++ rest) = _
    rw [List.append_assoc, List.append_assoc, run_lexemes, List.singleton_append, run_moreFields]
    rfl

/-- The items after the first go on with the list that is open. -/
theorem run_moreItems (stack : List Frame) :
    ∀ (xs : List Json) (done : List Value) (v : Value) (rest : List Lexeme),
      Parser.run ⟨.list done :: stack, .follow v⟩ (moreItems xs ++ .closeList :: rest)
        = Parser.run ⟨stack, .follow (.list (done.reverse ++ v :: values xs))⟩ rest
  | [], done, v, rest => by
    show Parser.run ⟨stack, .follow (.list (v :: done).reverse)⟩ rest = _
    rw [List.reverse_cons]
    rfl
  | x :: xs, done, v, rest => by
    show Parser.run ⟨.list (v :: done) :: stack, .value false⟩
      (lexemes x ++ moreItems xs ++ .closeList :: rest) = _
    rw [List.append_assoc, run_lexemes, run_moreItems, List.reverse_cons, List.append_assoc]
    rfl

/-- The fields after the first go on with the fields that are open. -/
theorem run_moreFields (stack : List Frame) :
    ∀ (xs : List (Text × Json)) (done : List (Text × Value)) (k : Text) (v : Value)
      (rest : List Lexeme),
      Parser.run ⟨.fields done k :: stack, .follow v⟩ (moreFields xs ++ .closeFields :: rest)
        = Parser.run ⟨stack, .follow (.fields (done.reverse ++ (k, v) :: fieldValues xs))⟩ rest
  | [], done, k, v, rest => by
    show Parser.run ⟨stack, .follow (.fields ((k, v) :: done).reverse)⟩ rest = _
    rw [List.reverse_cons]
    rfl
  | (name, x) :: xs, done, k, v, rest => by
    show Parser.run ⟨.fields ((k, v) :: done) name :: stack, .value false⟩
      (lexemes x ++ moreFields xs ++ .closeFields :: rest) = _
    rw [List.append_assoc, run_lexemes, run_moreFields, List.reverse_cons, List.append_assoc]
    rfl

end

/-- **A document is decoded from its text**, in every layout that says nothing. -/
theorem decode_render {l : Layout} (hl : l.Silent) (x : Json) :
    decode (render l x) = some x.value := by
  have hlex : lexemes? (render l x) = some (lexemes x) := by
    have hwrite := run_write hl 0 x Mode.delimited_nil
    rw [List.append_nil] at hwrite
    rw [lexemes?, render, hwrite]
    show some (lexemes x ++ []) = _
    rw [List.append_nil]
  have hparse := run_lexemes [] false x []
  rw [List.append_nil] at hparse
  rw [decode, hlex]
  exact hparse

/-! ## Written text is ASCII -/

/-- All characters of a text are ASCII. -/
def Ascii (t : Text) : Prop := ∀ c ∈ t, c.toNat < 128

instance (t : Text) : Decidable (Ascii t) := List.decidableBAll _ t

theorem ascii_append {t u : Text} : Ascii (t ++ u) ↔ Ascii t ∧ Ascii u := List.forall_mem_append

theorem ascii_cons {c : Char} {t : Text} : Ascii (c :: t) ↔ c.toNat < 128 ∧ Ascii t :=
  List.forall_mem_cons

theorem ascii_nil : Ascii [] := List.forall_mem_nil _

theorem isGap_ascii {c : Char} (h : isGap c = true) : c.toNat < 128 := by
  rcases Mode.eq_of_isGap h with rfl | rfl | rfl | rfl <;> decide

theorem ascii_ofNat (n : Nat) : Ascii (Text.ofNat n) := by
  intro c hc
  have hdigit := Text.isDigit_of_mem_ofNat hc
  simp only [Char.isDigit, Bool.and_eq_true, decide_eq_true_eq] at hdigit
  have hle : c.toNat ≤ 57 := hdigit.2
  omega

theorem ascii_unitEscape (n : Nat) : Ascii (unitEscape n) := by
  have hdigit : ∀ d < 16, (Nat.digitChar d).toNat < 128 := by decide
  have hmod : ∀ k : Nat, (Nat.digitChar (k % 16)).toNat < 128 :=
    fun k => hdigit _ (Nat.mod_lt k (by decide))
  simp only [unitEscape, hex4, List.map_cons, List.map_nil, ascii_cons, hmod, ascii_nil, and_true]
  decide

theorem ascii_escapeChar (c : Char) : Ascii (escapeChar c) := by
  unfold escapeChar
  iterate 7
    split
    · decide
  split
  · next hplain => exact ascii_cons.mpr ⟨by omega, ascii_nil⟩
  · intro d hd
    obtain ⟨n, -, hn⟩ := List.mem_flatMap.mp hd
    exact ascii_unitEscape n d hn

theorem ascii_quote (t : Text) : Ascii (quote t) := by
  have hbody : Ascii (t.flatMap escapeChar) := by
    intro d hd
    obtain ⟨c, -, hc⟩ := List.mem_flatMap.mp hd
    exact ascii_escapeChar c d hc
  rw [quote, List.cons_append, ascii_cons, ascii_append]
  exact ⟨by decide, hbody, by decide⟩

theorem Layout.Silent.ascii_newline {l : Layout} (h : l.Silent) (depth : Nat) :
    Ascii (l.newline depth) := fun c hc => isGap_ascii (h.newline depth c hc)

theorem Layout.Silent.ascii_between {l : Layout} (h : l.Silent) (depth : Nat) :
    Ascii (l.between depth) := by
  cases l with
  | line => exact (by decide : Ascii ", ".toList)
  | block unit => exact ascii_cons.mpr ⟨by decide, h.ascii_newline depth⟩

mutual

/-- **A written document is ASCII.** -/
theorem ascii_write {l : Layout} (hl : l.Silent) (depth : Nat) : ∀ x : Json, Ascii (write l depth x)
  | .text t => ascii_quote t
  | .number n => ascii_ofNat n
  | .bool true => (by decide : Ascii "true".toList)
  | .bool false => (by decide : Ascii "false".toList)
  | .list [] => (by decide : Ascii "[]".toList)
  | .list (x :: xs) => by
    simp only [write, List.cons_append, ascii_append, ascii_cons, ascii_write hl (depth + 1) x,
      ascii_writeItems hl (depth + 1) xs, hl.ascii_newline, ascii_nil, and_true]
    decide
  | .fields [] => (by decide : Ascii ['\x7b', '\x7d'])
  | .fields ((k, x) :: xs) => by
    have hcolon : Ascii ": ".toList := by decide
    simp only [write, List.cons_append, ascii_append, ascii_cons, ascii_write hl (depth + 1) x,
      ascii_writeFields hl (depth + 1) xs, hl.ascii_newline, ascii_quote, hcolon, ascii_nil,
      and_true]
    decide

theorem ascii_writeItems {l : Layout} (hl : l.Silent) (depth : Nat) :
    ∀ xs : List Json, Ascii (writeItems l depth xs)
  | [] => ascii_nil
  | x :: xs => by
    rw [writeItems, ascii_append, ascii_append]
    exact ⟨⟨hl.ascii_between depth, ascii_write hl depth x⟩, ascii_writeItems hl depth xs⟩

theorem ascii_writeFields {l : Layout} (hl : l.Silent) (depth : Nat) :
    ∀ xs : List (Text × Json), Ascii (writeFields l depth xs)
  | [] => ascii_nil
  | (k, x) :: xs => by
    have hcolon : Ascii ": ".toList := by decide
    rw [writeFields, ascii_append, ascii_append, ascii_append, ascii_append]
    exact ⟨⟨⟨⟨hl.ascii_between depth, ascii_quote k⟩, hcolon⟩, ascii_write hl depth x⟩,
      ascii_writeFields hl depth xs⟩

end

end Json

/-! ## What decoded segments spell -/

namespace Json.Value

/-- The value of a field.  Of several with one name, the last one counts. -/
def field? (name : Text) : Value → Option Value
  | .fields items => items.reverse.lookup name
  | _ => none

/-- The items of a list. -/
def items? : Value → Option (List Value)
  | .list items => some items
  | _ => none

end Json.Value

/-- The token that a value describes, without a span. -/
def Token.ofValue? (v : Json.Value) : Option Token :=
  match v.field? "type".toList with
  | some (.text kind) =>
    if kind = "literal".toList then
      match v.field? "value".toList with
      | some (.text t) => some (.literal t none)
      | _ => none
    else if kind = "variable".toList then
      match v.field? "name".toList, v.field? "reserved".toList with
      | some (.text name), some (.bool reserved) => some (.var ⟨name, reserved, none⟩)
      | _, _ => none
    else none
  | _ => none

/-- The segment that a value describes, by its tokens alone. -/
def Segment.ofValue? (v : Json.Value) : Option Segment :=
  ((v.field? "tokens".toList).bind Json.Value.items?).bind fun items =>
    (items.mapM Token.ofValue?).map Segment.mk

/-- The source that a value spells by its segments alone. -/
def sourceOf? (v : Json.Value) : Option Text :=
  ((v.field? "segments".toList).bind Json.Value.items?).bind fun items =>
    (items.mapM Segment.ofValue?).map spell

theorem Json.mapM_values {α β : Type} {f : α → Json} {read? : Json.Value → Option β} {g : α → β}
    (h : ∀ x, read? (f x).value = some (g x)) (xs : List α) :
    (Json.values (xs.map f)).mapM read? = some (xs.map g) := by
  induction xs with
  | nil => rfl
  | cons x xs ih =>
    rw [List.map_cons, Json.values, List.mapM_cons, h, ih]
    rfl

theorem Token.ofValue?_toJson (t : Token) : Token.ofValue? t.toJson.value = some t.bare := by
  cases t <;> rfl

theorem Segment.ofValue?_toJson (s : Segment) : Segment.ofValue? s.toJson.value = some s.bare := by
  have htokens : (s.toJson.value.field? "tokens".toList).bind Json.Value.items?
      = some (Json.values (s.tokens.map Token.toJson)) := rfl
  rw [ofValue?, htokens, Option.bind_some, Json.mapM_values Token.ofValue?_toJson]
  rfl

theorem Token.spell_bare (t : Token) : t.bare.spell = t.spell := by
  cases t <;> rfl

theorem Segment.spell_bare (s : Segment) : s.bare.spell = s.spell := by
  show (s.tokens.map Token.bare).flatMap Token.spell = s.tokens.flatMap Token.spell
  rw [List.flatMap_map, funext Token.spell_bare]

theorem spell_map_bare (segments : List Segment) :
    spell (segments.map Segment.bare) = spell segments := by
  rw [spell, List.map_map]
  congr 2
  exact List.map_congr_left fun s _ => Segment.spell_bare s

theorem sourceOf?_toJson (r : Route) : sourceOf? r.toJson.value = some (spell r.segments) := by
  have hsegments : (r.toJson.value.field? "segments".toList).bind Json.Value.items?
      = some (Json.values (r.segments.map Segment.toJson)) := rfl
  rw [sourceOf?, hsegments, Option.bind_some, Json.mapM_values Segment.ofValue?_toJson,
    Option.map_some, spell_map_bare]

/-! ## Routes -/

/-- The layouts that a caller can ask for: one line, or items on lines of their own, indented by any
    number of blanks, where a number below zero is none, or by any unit made of gaps. -/
inductive Json.Layout.Asked : Json.Layout → Prop
  | line : Asked .line
  | width (width : Int) : Asked (.block (Text.margin width))
  | unit {unit : Text} (h : ∀ c ∈ unit, Json.isGap c = true) : Asked (.block unit)

theorem Json.Layout.Asked.silent {l : Json.Layout} (h : l.Asked) : l.Silent := by
  cases h with
  | line => trivial
  | width width =>
    intro c hc
    rw [List.eq_of_mem_replicate hc]
    rfl
  | unit h => exact h

/-- Every number of blanks that is a width and that there is room for, below zero as well, has its
    layout. -/
theorem Json.Layout.ofWidth_eq {room : Nat} {width : Int} (hlow : -Text.widthBound ≤ width)
    (hhigh : width < Text.widthBound) (hroom : width ≤ room) :
    ofWidth room width = .ok (.block (Text.margin width)) := by
  have hnone : Text.marginFault? room width = none := by
    rw [Text.marginFault?, if_neg (by omega), if_neg (by omega)]
  rw [ofWidth, Text.tryMargin, hnone]
  rfl

namespace Template

/-- **The text of a route says its document and nothing else.**  Take any template, read from a
    source or given by hand, and any layout that can be asked for.

    1. The text is ASCII.
    2. It decodes to a document exactly if that is the document of the route.
    3. So the layout makes no difference, and each width that a machine has room for is one.
    4. If the template was read from a source, its decoded segments spell that source. -/
theorem render_lossless (t : Template) {l : Json.Layout} (hl : l.Asked) :
    Json.Ascii (t.compile.render l) ∧
    (∀ x : Json, Json.decode (t.compile.render l) = some x.value ↔ x = t.compile.toJson) ∧
    (∀ l' : Json.Layout, l'.Asked →
      Json.decode (t.compile.render l') = Json.decode (t.compile.render l)) ∧
    (∀ (room : Nat) (width : Int), -Text.widthBound ≤ width → width < Text.widthBound →
      width ≤ room → Json.Layout.ofWidth room width = .ok (.block (Text.margin width))) ∧
    ∀ source, parse source = .ok t →
      (Json.decode (t.compile.render l)).bind sourceOf? = some source := by
  have hdecode : ∀ l' : Json.Layout, l'.Asked →
      Json.decode (t.compile.render l') = some t.compile.toJson.value :=
    fun l' hl' => Json.decode_render hl'.silent t.compile.toJson
  refine ⟨Json.ascii_write hl.silent 0 _, fun x => ⟨fun h => ?_, ?_⟩, fun l' hl' => ?_, ?_, ?_⟩
  · rw [hdecode l hl] at h
    exact Json.value_injective (Option.some.inj h).symm
  · rintro rfl
    exact hdecode l hl
  · rw [hdecode l' hl', hdecode l hl]
  · exact fun room width hlow hhigh hroom => Json.Layout.ofWidth_eq hlow hhigh hroom
  · intro source h
    obtain ⟨-, -, hspell⟩ := parse_eq_ok h
    rw [hdecode l hl, Option.bind_some, sourceOf?_toJson]
    exact congrArg some hspell

/-- Quotes, a control character and a character beyond U+FFFF, indented by tabs. -/
theorem render_lossless_escaped :
    (Json.Layout.block ['\t']).Asked ∧ ∃ t, parse "/\"\\/\x01\x7b+😀/\x7f\x7d".toList = .ok t ∧
      Json.decode (t.compile.render (.block ['\t'])) = some t.compile.toJson.value ∧
      (Json.decode (t.compile.render (.block ['\t']))).bind sourceOf?
        = some "/\"\\/\x01\x7b+😀/\x7f\x7d".toList := by
  have hl : (Json.Layout.block ['\t']).Asked := .unit (List.forall_mem_singleton.mpr rfl)
  have hparse := @eq_ok_get _ _ (parse "/\"\\/\x01\x7b+😀/\x7f\x7d".toList) (by decide)
  obtain ⟨-, hdecode, -, -, hsource⟩ := render_lossless _ hl
  exact ⟨hl, _, hparse, (hdecode _).mpr rfl, hsource _ hparse⟩

end Template

end Routing
