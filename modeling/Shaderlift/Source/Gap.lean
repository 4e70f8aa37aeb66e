import Shaderlift.Source.Place
import Shaderlift.Source.SyntaxError

/-!
Gaps between tokens: white space, line comments, block comments and directive lines. A directive is a
`#` with nothing but white space before it on its line, and runs to the end of the line.
-/

namespace Shaderlift

/-- What a gap is in the middle of; `opening` and `closing` stand for the second characters of the marks of a
block comment. -/
inductive GapMode where
  | blank
  | line
  | opening (start : Span)
  | block (start : Span)
  | closing
  deriving DecidableEq, Repr

/-- Decide whether a character starts or continues a gap at a place, given the next character. -/
def gapAt (place : Place) (c : Char) (next : Option Char) : Option GapMode :=
  if Text.isBlank c then some .blank
  else if c == '#' && place.lineStart then some .line
  else if c == '/' && next == some '/' then some .line
  else if c == '/' && next == some '*' then some (.opening place.span)
  else none

def skipGap : GapMode → Place → List Char → Except SyntaxError (Place × List Char)
  | .opening start, place, [] => .error ⟨.unterminatedComment, start.through place.span⟩
  | .block start, place, [] => .error ⟨.unterminatedComment, start.through place.span⟩
  | _, place, [] => .ok (place, [])
  | .line, place, c :: rest => skipGap (if c == '\n' then .blank else .line) (place.advance c) rest
  | .opening start, place, c :: rest => skipGap (.block start) (place.advance c) rest
  | .block start, place, c :: rest =>
    skipGap (if c == '*' && rest.head? == some '/' then .closing else .block start) (place.advance c) rest
  | .closing, place, c :: rest => skipGap .blank (place.advance c) rest
  | .blank, place, c :: rest =>
    match gapAt place c rest.head? with
    | some mode => skipGap mode (place.advance c) rest
    | none => .ok (place, c :: rest)

end Shaderlift
