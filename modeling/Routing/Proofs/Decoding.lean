/-
  DECODING — what a text says as JSON, whoever wrote it.

  This is the reader that stands opposite to `Json.render`.  It shares no code with the writer, and
  it reads all of JSON and not just what the writer uses: any blanks between lexemes, numbers with
  sign, fraction and exponent, `null`, every escape, and fields in any order.

  1. **Values** (`Json.Value`) are what a text can say.  A document says one (`Json.value`), and no
     two documents say the same (`Json.value_injective`).
  2. **Lexing** cuts a text into lexemes, one character at a time.  A `Mode` says what the next
     character means: the blanks between lexemes are forgotten here, and escapes are undone.
  3. **Parsing** reads lexemes with a stack of what is open.
  4. **What is no JSON is refused**: a control character inside quotes, half of a surrogate pair, a
     leading zero, a trailing comma, a second value.
-/
import Routing.Json

namespace Routing

namespace Json

/-! ## Values -/

/-- What a text can say. -/
inductive Value where
  | null
  | bool (b : Bool)
  | integer (n : Int)
  /-- A number with a fraction or an exponent: `mantissa` times that power of ten. -/
  | decimal (mantissa exponent : Int)
  | text (t : Text)
  | list (items : List Value)
  | fields (items : List (Text × Value))

mutual

/-- The value that a document says. -/
def value : Json → Value
  | .text t => .text t
  | .number n => .integer n
  | .bool b => .bool b
  | .list items => .list (values items)
  | .fields items => .fields (fieldValues items)

/-- The values that documents say. -/
def values : List Json → List Value
  | [] => []
  | x :: xs => x.value :: values xs

/-- Fields with the values that their documents say. -/
def fieldValues : List (Text × Json) → List (Text × Value)
  | [] => []
  | (k, x) :: xs => (k, x.value) :: fieldValues xs

end

mutual

theorem value_injective : ∀ {x y : Json}, x.value = y.value → x = y
  | .text _, y, h => by cases y <;> cases h; rfl
  | .number _, y, h => by cases y <;> cases h; rfl
  | .bool _, y, h => by cases y <;> cases h; rfl
  | .list _, y, h => by
    cases y <;> try cases h
    rw [values_injective (Value.list.inj h)]
  | .fields _, y, h => by
    cases y <;> try cases h
    rw [fieldValues_injective (Value.fields.inj h)]

theorem values_injective : ∀ {xs ys : List Json}, values xs = values ys → xs = ys
  | [], [], _ => rfl
  | [], _ :: _, h => by cases h
  | _ :: _, [], h => by cases h
  | _ :: _, _ :: _, h => by
    rw [value_injective (List.cons.inj h).1, values_injective (List.cons.inj h).2]

theorem fieldValues_injective :
    ∀ {xs ys : List (Text × Json)}, fieldValues xs = fieldValues ys → xs = ys
  | [], [], _ => rfl
  | [], _ :: _, h => by cases h
  | _ :: _, [], h => by cases h
  | (k, _) :: _, (k', _) :: _, h => by
    obtain ⟨hk, hx⟩ := Prod.mk.inj (List.cons.inj h).1
    rw [hk, value_injective hx, fieldValues_injective (List.cons.inj h).2]

end

/-! ## Numbers and words -/

/-- The digits that a text begins with. -/
def leadingDigits (t : Text) : Text := t.takeWhile Char.isDigit

/-- What follows the digits that a text begins with. -/
def afterDigits (t : Text) : Text := t.dropWhile Char.isDigit

/-- The number that a text of digits spells. -/
def digits? (t : Text) : Option Nat :=
  if t ≠ [] ∧ afterDigits t = [] then some (Nat.ofDigitChars 10 t 0) else none

/-- The digits of the fraction that a text begins with, if any, and what follows. -/
def fraction? (t : Text) : Option (Text × Text) :=
  if t.head? = some '.' then
    if leadingDigits t.tail = [] then none else some (leadingDigits t.tail, afterDigits t.tail)
  else some ([], t)

/-- The exponent that a text spells; without one it is zero. -/
def exponent? : Text → Option Int
  | [] => some 0
  | c :: t =>
    if c ≠ 'e' ∧ c ≠ 'E' then none
    else if t.head? = some '-' then (digits? t.tail).map fun n => -(n : Int)
    else if t.head? = some '+' then (digits? t.tail).map fun n => (n : Int)
    else (digits? t).map fun n => (n : Int)

/-- The number that a text without a sign spells: its digits, and the power of ten they are
    multiplied by if there is a fraction or an exponent.  A leading zero stands alone. -/
def magnitude? (t : Text) : Option (Nat × Option Int) :=
  let whole := leadingDigits t
  if whole = [] ∨ (whole.head? = some '0' ∧ whole ≠ ['0']) then none
  else if afterDigits t = [] then some (Nat.ofDigitChars 10 whole 0, none)
  else
    (fraction? (afterDigits t)).bind fun (fraction, rest) =>
      (exponent? rest).map fun e =>
        (Nat.ofDigitChars 10 (whole ++ fraction) 0, some (e - fraction.length))

/-- A number as a value. -/
def Value.ofNumber (mantissa : Int) : Option Int → Value
  | none => .integer mantissa
  | some exponent => .decimal mantissa exponent

/-- The number that a text spells. -/
def number? (t : Text) : Option Value :=
  if t.head? = some '-' then (magnitude? t.tail).map fun (m, e) => .ofNumber (-(m : Int)) e
  else (magnitude? t).map fun (m, e) => .ofNumber m e

/-- The value that a text without quotes spells: one of three words, or a number. -/
def plain? (t : Text) : Option Value :=
  if t = "null".toList then some .null
  else if t = "true".toList then some (.bool true)
  else if t = "false".toList then some (.bool false)
  else number? t

/-! ## Lexing -/

/-- What a text is cut into. -/
inductive Lexeme where
  | openList
  | closeList
  | openFields
  | closeFields
  | colon
  | comma
  | text (t : Text)
  /-- A value without quotes: a word or a number. -/
  | plain (v : Value)

/-- Whether a character may stand between two lexemes. -/
def isGap (c : Char) : Bool := c = ' ' || c = '\t' || c = '\n' || c = '\r'

/-- The lexeme that a character is by itself. -/
def mark? (c : Char) : Option Lexeme :=
  if c = '[' then some .openList
  else if c = ']' then some .closeList
  else if c = '\x7b' then some .openFields
  else if c = '\x7d' then some .closeFields
  else if c = ':' then some .colon
  else if c = ',' then some .comma
  else none

/-- Whether a character ends a value without quotes. -/
def isDelimiter (c : Char) : Bool := isGap c || (mark? c).isSome || c = '"'

/-- The character that an escape of one letter stands for. -/
def named? (c : Char) : Option Char :=
  if c = '"' ∨ c = '\\' ∨ c = '/' then some c
  else if c = 'b' then some '\x08'
  else if c = 'f' then some '\x0c'
  else if c = 'n' then some '\n'
  else if c = 'r' then some '\r'
  else if c = 't' then some '\t'
  else none

/-- The value of a hexadecimal digit. -/
def hexDigit? (c : Char) : Option Nat :=
  if c.isDigit then some (c.toNat - '0'.toNat)
  else if 'a' ≤ c ∧ c ≤ 'f' then some (c.toNat - 'a'.toNat + 10)
  else if 'A' ≤ c ∧ c ≤ 'F' then some (c.toNat - 'A'.toNat + 10)
  else none

/-- Whether a 16-bit unit is the first half of a surrogate pair. -/
def isHigh (n : Nat) : Bool := 0xD800 ≤ n && n < 0xDC00

/-- Whether a 16-bit unit is the second half of a surrogate pair. -/
def isLow (n : Nat) : Bool := 0xDC00 ≤ n && n < 0xE000

/-- What the next character means.  What has been read inside quotes or of a value without them is
    held, newest first. -/
inductive Mode where
  /-- Between two lexemes. -/
  | between
  /-- Inside a value without quotes. -/
  | bare (held : Text)
  /-- Inside quotes. -/
  | quoted (held : Text)
  /-- After a backslash. -/
  | escape (held : Text)
  /-- Inside the four digits of a unit, of which `n` has been read and `more` follow the next one;
      the unit completes the half `first`, if there is one. -/
  | unit (held : Text) (first : Option Nat) (more n : Nat)
  /-- After the first half of a pair. -/
  | half (held : Text) (first : Nat)
  /-- After the first half of a pair and a backslash. -/
  | halfEscape (held : Text) (first : Nat)

namespace Mode

/-- The mode after a whole unit. -/
def afterUnit (held : Text) (first : Option Nat) (n : Nat) : Option Mode :=
  match first with
  | none =>
    if isHigh n then some (.half held n)
    else if isLow n then none
    else some (.quoted (Char.ofNat n :: held))
  | some high =>
    if isLow n then
      some (.quoted (Char.ofNat (0x10000 + (high - 0xD800) * 0x400 + (n - 0xDC00)) :: held))
    else none

/-- The step between two lexemes. -/
def stepBetween (c : Char) : List Lexeme × Mode :=
  if isGap c then ([], .between)
  else match mark? c with
    | some x => ([x], .between)
    | none => if c = '"' then ([], .quoted []) else ([], .bare [c])

/-- The step on a character: the lexemes that end with it, and the mode after it. -/
def step (m : Mode) (c : Char) : Option (List Lexeme × Mode) :=
  match m with
  | .between => some (stepBetween c)
  | .bare held =>
    if isDelimiter c then
      (plain? held.reverse).map fun v => (.plain v :: (stepBetween c).1, (stepBetween c).2)
    else some ([], .bare (c :: held))
  | .quoted held =>
    if c = '"' then some ([.text held.reverse], .between)
    else if c = '\\' then some ([], .escape held)
    else if c.toNat < 0x20 then none
    else some ([], .quoted (c :: held))
  | .escape held =>
    if c = 'u' then some ([], .unit held none 3 0)
    else (named? c).map fun d => ([], .quoted (d :: held))
  | .unit held first 0 n =>
    (hexDigit? c).bind fun d => (afterUnit held first (16 * n + d)).map fun m => ([], m)
  | .unit held first (more + 1) n =>
    (hexDigit? c).map fun d => ([], .unit held first more (16 * n + d))
  | .half held first => if c = '\\' then some ([], .halfEscape held first) else none
  | .halfEscape held first => if c = 'u' then some ([], .unit held (some first) 3 0) else none

/-- The lexemes that end with the text. -/
def finish : Mode → Option (List Lexeme)
  | .between => some []
  | .bare held => (plain? held.reverse).map fun v => [.plain v]
  | _ => none

/-- The lexemes of a text that is read from a mode on. -/
def run (m : Mode) : Text → Option (List Lexeme)
  | [] => m.finish
  | c :: rest => (m.step c).bind fun (xs, m') => (m'.run rest).map (xs ++ ·)

end Mode

/-- The **lexemes of a text**. -/
def lexemes? (t : Text) : Option (List Lexeme) := Mode.between.run t

/-! ## Parsing -/

/-- What is open around the value that is being read, newest first. -/
inductive Frame where
  | list (done : List Value)
  | fields (done : List (Text × Value)) (name : Text)

/-- What must come next. -/
inductive Awaits where
  /-- A value, or, at the beginning of a list, its end. -/
  | value (orEnd : Bool)
  /-- The name of a field, or, at the beginning of the fields, their end. -/
  | name (done : List (Text × Value)) (orEnd : Bool)
  /-- The colon after a name. -/
  | colon (done : List (Text × Value)) (name : Text)
  /-- What follows the value `v`. -/
  | follow (v : Value)

/-- The state of the parser. -/
structure Parser where
  stack : List Frame
  awaits : Awaits

namespace Parser

/-- The state before a text. -/
def start : Parser := ⟨[], .value false⟩

/-- The step on a lexeme. -/
def step : Parser → Lexeme → Option Parser
  | ⟨stack, .value _⟩, .text t => some ⟨stack, .follow (.text t)⟩
  | ⟨stack, .value _⟩, .plain v => some ⟨stack, .follow v⟩
  | ⟨stack, .value _⟩, .openList => some ⟨.list [] :: stack, .value true⟩
  | ⟨stack, .value _⟩, .openFields => some ⟨stack, .name [] true⟩
  | ⟨.list _ :: stack, .value true⟩, .closeList => some ⟨stack, .follow (.list [])⟩
  | ⟨stack, .name done _⟩, .text k => some ⟨stack, .colon done k⟩
  | ⟨stack, .name _ true⟩, .closeFields => some ⟨stack, .follow (.fields [])⟩
  | ⟨stack, .colon done k⟩, .colon => some ⟨.fields done k :: stack, .value false⟩
  | ⟨.list done :: stack, .follow v⟩, .comma => some ⟨.list (v :: done) :: stack, .value false⟩
  | ⟨.list done :: stack, .follow v⟩, .closeList =>
    some ⟨stack, .follow (.list (v :: done).reverse)⟩
  | ⟨.fields done k :: stack, .follow v⟩, .comma => some ⟨stack, .name ((k, v) :: done) false⟩
  | ⟨.fields done k :: stack, .follow v⟩, .closeFields =>
    some ⟨stack, .follow (.fields ((k, v) :: done).reverse)⟩
  | _, _ => none

/-- The value that is left when everything has been read and nothing is open. -/
def finish : Parser → Option Value
  | ⟨[], .follow v⟩ => some v
  | _ => none

/-- The value of lexemes that are read from a state on. -/
def run (p : Parser) : List Lexeme → Option Value
  | [] => p.finish
  | x :: rest => (p.step x).bind fun p' => p'.run rest

end Parser

/-- The **value that a text says as JSON**, if it says one. -/
def decode (t : Text) : Option Value := (lexemes? t).bind Parser.start.run

/-! ## Examples -/

example : decode " [ 1 , -2.50e+1 ,\n\x7b\"a\": null\x7d ]\r\n".toList = some
    (.list [.integer 1, .decimal (-250) (-1), .fields [(['a'], .null)]]) := rfl
example : decode "\"\\uD83D\\ude00\\/\"".toList = some (.text "😀/".toList) := by cbv
example : decode "[1,]".toList = none ∧ decode "01".toList = none ∧ decode "1 2".toList = none
    ∧ decode "\"\\ud83d\"".toList = none ∧ decode "\"\t\"".toList = none :=
  ⟨rfl, rfl, rfl, rfl, rfl⟩

end Json

end Routing
