/-
  SCANNING — from a source to its template, one character at a time, left to right.

  The scanner is a machine over the characters after the leading `/`.  It holds the finished
  segments, the tokens of the open one, and a MODE that says what the next character means:

  * `literal`   — fixed text; `/` ends the segment, `{` opens a variable, `}` is stray;
  * `opened`    — just after `{`; a `+` here marks the variable as reserved;
  * `naming`    — inside a variable; everything but a brace is part of the name, `/` included;
  * `closed`    — a reserved variable has ended; nothing may follow.

  One character gives the next state or a fault (`Scan.step`), and a run is the iteration of steps
  that stops at the first fault (`Scan.run`).  A step that fails changes nothing: the state in which
  a run stops still says where it was and what it was reading.

  Lists are held newest first, so that a step takes constant time.
-/
import Routing.Pattern.Template
import Routing.Pattern.Fault

namespace Routing

/-! ## The machine -/

namespace Scan

/-- What the next character means. -/
inductive Mode where
  /-- Fixed text that began at `start`; `held` is what has been read of it, newest first. -/
  | literal (start : Nat) (held : Text)
  /-- The brace at `start` has been read and nothing after it. -/
  | opened (start : Nat)
  /-- The name of the variable that began at `start`; `held` is newest first. -/
  | naming (start : Nat) (reserved : Bool) (held : Text)
  /-- A reserved variable has ended. -/
  | closed
  deriving DecidableEq

/-- The three states that a caller can tell apart. -/
inductive Phase where
  | literal
  | inVariable
  | reservedClosed
  deriving DecidableEq

/-- All phases. -/
def Phase.all : List Phase := [.literal, .inVariable, .reservedClosed]

/-- The word for a phase. -/
def Phase.name : Phase → Text
  | .literal => "literal".toList
  | .inVariable => "in_variable".toList
  | .reservedClosed => "reserved_closed".toList

/-- The phase that a mode belongs to. -/
def Mode.phase : Mode → Phase
  | .literal .. => .literal
  | .opened _ => .inVariable
  | .naming .. => .inVariable
  | .closed => .reservedClosed

end Scan

/-- The state of the scanner before the character at `pos`. -/
structure Scan where
  pos : Nat
  done : List Segment
  tokens : List Token
  mode : Scan.Mode
  deriving DecidableEq

namespace Scan

/-- The state after the leading `/`. -/
def start : Scan := ⟨1, [], [], .literal 1 []⟩

/-- Adds the fixed text `held`, if there is any, to `tokens`. -/
def flush (start : Nat) (held : Text) (tokens : List Token) : List Token :=
  match held with
  | [] => tokens
  | held => .literal held.reverse (some ⟨start, start + held.length⟩) :: tokens

/-- The step on a character of fixed text. -/
def stepLiteral (s : Scan) (start : Nat) (held : Text) (c : Char) : Except Fault Scan :=
  if c = separator then
    .ok ⟨s.pos + 1, ⟨(flush start held s.tokens).reverse⟩ :: s.done, [], .literal (s.pos + 1) []⟩
  else if c = openBrace then
    if s.tokens.any (!·.isLiteral) then .error .multipleVariables
    else .ok ⟨s.pos + 1, s.done, flush start held s.tokens, .opened s.pos⟩
  else if c = closeBrace then .error .unmatchedCloseBrace
  else .ok { s with pos := s.pos + 1, mode := .literal start (c :: held) }

/-- The step on a character inside a variable. -/
def stepNaming (s : Scan) (start : Nat) (reserved : Bool) (held : Text) (c : Char) :
    Except Fault Scan :=
  if c = openBrace then .error .nestedOpenBrace
  else if c = closeBrace then
    if held = [] then .error .emptyVariableName
    else .ok
      { s with
        pos := s.pos + 1
        tokens := .var ⟨held.reverse, reserved, some ⟨start, s.pos + 1⟩⟩ :: s.tokens
        mode := if reserved then .closed else .literal (s.pos + 1) [] }
  else .ok { s with pos := s.pos + 1, mode := .naming start reserved (c :: held) }

/-- The **step** on a character: the state after it, or what is wrong with it. -/
def step (s : Scan) (c : Char) : Except Fault Scan :=
  match s.mode with
  | .literal start held => s.stepLiteral start held c
  | .opened start =>
    if c = reservedMarker then .ok { s with pos := s.pos + 1, mode := .naming start true [] }
    else s.stepNaming start false [] c
  | .naming start reserved held => s.stepNaming start reserved held c
  | .closed => .error (.contentAfterCatchAll c)

/-- A run over characters: the state in which it stops and, if a step failed, the fault. -/
def run (s : Scan) : Text → Scan × Option Fault
  | [] => (s, none)
  | c :: rest =>
    match s.step c with
    | .ok s' => s'.run rest
    | .error f => (s, some f)

/-- A run over two texts goes on with the second where the first has left it, unless it has stopped
    there. -/
theorem run_append (s : Scan) (t u : Text) :
    s.run (t ++ u) =
      match s.run t with
      | (s', none) => s'.run u
      | stopped => stopped := by
  induction t generalizing s with
  | nil => rfl
  | cons c rest ih =>
    rw [List.cons_append, run, run]
    rcases s.step c with f | s'
    · rfl
    · exact ih s'

/-- The segments at the end of the source, or the index of the brace that is still open. -/
def finish (s : Scan) : Except Nat { segments : List Segment // segments ≠ [] } :=
  match s.mode with
  | .literal start held => .ok ⟨(⟨(flush start held s.tokens).reverse⟩ :: s.done).reverse, by simp⟩
  | .closed => .ok ⟨(⟨s.tokens.reverse⟩ :: s.done).reverse, by simp⟩
  | .opened start => .error start
  | .naming start .. => .error start

end Scan

/-! ## Scanning a whole source -/

/-- What a scan of a whole source tells: the template or the rejection, and where and in which phase
    the scanner stopped. -/
structure ScanReport where
  result : Except Rejection Template
  phase : Scan.Phase
  pos : Nat

namespace Template

/-- The **scan of a source**.  The source begins with `/`; an error has the index at which the
    scanner stopped, but for a variable still open at the end, which is blamed on its brace. -/
def scan (source : Text) : ScanReport :=
  match source with
  | [] => ⟨.error (Fault.emptyPattern.reject source 0), .literal, 0⟩
  | c :: rest =>
    if c = separator then
      match Scan.start.run rest with
      | (s, some f) => ⟨.error (f.reject source s.pos), s.mode.phase, s.pos⟩
      | (s, none) =>
        match s.finish with
        | .ok segments => ⟨.ok ⟨source, segments.val, segments.property⟩, s.mode.phase, s.pos⟩
        | .error start =>
          ⟨.error (Fault.unterminatedVariable.reject source start), s.mode.phase, s.pos⟩
    else ⟨.error (Fault.missingLeadingSlash.reject source 0), .literal, 0⟩

/-- The **template of a source**, or why there is none. -/
def parse (source : Text) : Except Rejection Template := (scan source).result

end Template

/-! ## Examples -/

example : (Template.parse "/a/".toList).toOption.map Template.segments
    = some [⟨[.literal "a".toList (some ⟨1, 2⟩)]⟩, ⟨[]⟩] := by decide
example : (Template.parse "/de\x7b+y\x7d".toList).toOption.map Template.segments
    = some [⟨[.literal "de".toList (some ⟨1, 3⟩), .var ⟨"y".toList, true, some ⟨3, 7⟩⟩]⟩] := by
  decide
example : (Template.scan "/a\x7b".toList).phase = .inVariable
    ∧ (Template.scan "/a\x7b".toList).pos = 3 := by decide

end Routing
