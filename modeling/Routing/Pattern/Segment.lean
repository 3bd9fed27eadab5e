/-
  TOKENS AND SEGMENTS — the parts that a route template is made of.

  A template such as `/a/{x}/c/de{+y}` is cut by `/` into SEGMENTS, and a segment is an ordered run
  of TOKENS: fixed text, or a variable that stands for text still unknown.

  1. **Tokens** carry the span of the source they were read from, or none if they were made by hand.
  2. **Kinds** say what a segment can hold: one text only (`literal`), a variable between fixed ends
     (`mixed`), a variable alone (`free`), or a variable that also runs across `/` (`catchAll`).
     The kind is decided by the FIRST variable, so it is defined for every run of tokens, also for
     one that no source can spell.
  3. **Ranks** order the kinds by what they exclude: rank 0 admits one text, rank 3 nearly all.
-/
import Routing.Text.Basic

namespace Routing

/-! ## Tokens -/

/-- A stretch of the source: the index of its first character and the index after its last. -/
structure Span where
  start : Nat
  stop : Nat
  deriving DecidableEq

/-- The span as it is written for a reader. -/
def Span.text (s : Span) : Text :=
  "pos ".toList ++ Text.ofNat s.start ++ '-' :: Text.ofNat s.stop

/-- A named place in a template.  A reserved one takes the rest of the path, `/` included. -/
structure Variable where
  name : Text
  reserved : Bool
  span : Option Span
  deriving DecidableEq

/-- A token of a segment: fixed text, or a variable. -/
inductive Token where
  | literal (value : Text) (span : Option Span)
  | var (v : Variable)
  deriving DecidableEq

namespace Token

/-- Whether the token is fixed text. -/
def isLiteral : Token → Bool
  | .literal .. => true
  | .var _ => false

/-- The fixed text of a token; a variable has none. -/
def value : Token → Text
  | .literal t _ => t
  | .var _ => []

/-- The variable of a token, if it is one. -/
def var? : Token → Option Variable
  | .literal .. => none
  | .var v => some v

end Token

/-! ## Kinds and their ranks -/

/-- What a segment admits. -/
inductive Kind where
  | literal
  | mixed
  | free
  | catchAll
  deriving DecidableEq

namespace Kind

/-- All kinds, from the one that admits least to the one that admits most. -/
def all : List Kind := [.literal, .mixed, .free, .catchAll]

/-- The word for a kind. -/
def name : Kind → Text
  | .literal => "literal".toList
  | .mixed => "mixed".toList
  | .free => "variable".toList
  | .catchAll => "reserved".toList

/-- The rank of a kind: the lower, the more specific. -/
def rank : Kind → Nat
  | .literal => 0
  | .mixed => 1
  | .free => 2
  | .catchAll => 3

end Kind

/-! ## Segments -/

/-- The tokens between two `/`.  Without tokens it is the empty literal. -/
structure Segment where
  tokens : List Token
  deriving DecidableEq

namespace Segment

/-- The first variable of a segment. -/
def var? (s : Segment) : Option Variable := s.tokens.findSome? Token.var?

/-- The kind of a segment, as its first variable decides it. -/
def kind (s : Segment) : Kind :=
  match s.var? with
  | none => .literal
  | some v => if v.reserved then .catchAll else if 1 < s.tokens.length then .mixed else .free

/-- All fixed text of a segment. -/
def literal (s : Segment) : Text := s.tokens.flatMap Token.value

/-- The fixed text before the first variable. -/
def head (s : Segment) : Text := (s.tokens.takeWhile Token.isLiteral).flatMap Token.value

/-- The fixed text after the last variable. -/
def tail (s : Segment) : Text :=
  (s.tokens.reverse.takeWhile Token.isLiteral).reverse.flatMap Token.value

/-- The rank of a segment is that of its kind. -/
def rank (s : Segment) : Nat := s.kind.rank

end Segment

/-! ## The kind and the first variable

  A segment is literal exactly if it has no variable, and a catch-all exactly if its first variable
  is reserved: the two facts that matching needs of a kind. -/

theorem Segment.kind_eq_literal_iff (s : Segment) : s.kind = .literal ↔ s.var? = none := by
  unfold Segment.kind
  rcases s.var? with _ | v
  · exact ⟨fun _ => rfl, fun _ => rfl⟩
  · refine ⟨fun h => ?_, fun h => nomatch h⟩
    by_cases hr : v.reserved = true
    · simp [hr] at h
    · by_cases hl : 1 < s.tokens.length <;> simp [hr, hl] at h

theorem Segment.kind_eq_catchAll_iff (s : Segment) :
    s.kind = .catchAll ↔ ∃ v, s.var? = some v ∧ v.reserved = true := by
  unfold Segment.kind
  rcases s.var? with _ | v
  · exact ⟨fun h => (nomatch h), fun ⟨_, h, _⟩ => (nomatch h)⟩
  · by_cases hr : v.reserved = true
    · exact ⟨fun _ => ⟨v, rfl, hr⟩, fun _ => by simp [hr]⟩
    · refine ⟨fun h => ?_, fun ⟨w, hw, hres⟩ => ?_⟩
      · by_cases hl : 1 < s.tokens.length <;> simp [hr, hl] at h
      · exact absurd (Option.some.inj hw ▸ hres) hr

/-! ## Examples -/

example : (Segment.mk [.literal ['d'] none, .var ⟨['y'], true, none⟩]).kind = .catchAll := by decide
example : (Segment.mk [.var ⟨['y'], false, none⟩, .literal ['d'] none]).tail = ['d'] := by decide
example : (Segment.mk []).kind = .literal ∧ (Segment.mk []).literal = [] := by decide

end Routing
