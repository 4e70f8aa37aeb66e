import Shaderlift.Text.Blank
import Shaderlift.Text.Span

/-!
A moving place in a source text: its byte offset, line and column, and whether only white space stands
before it on its line.
-/

namespace Shaderlift

/-- A place between two characters of a source text. -/
structure Place where
  offset : Nat
  line : Nat
  column : Nat
  lineStart : Bool
  deriving DecidableEq, Repr, Inhabited

namespace Place

def first : Place := ⟨0, 1, 1, true⟩

def advance (place : Place) (c : Char) : Place :=
  if c == '\n' then
    { offset := place.offset + c.utf8Size, line := place.line + 1, column := 1, lineStart := true }
  else
    { place with
      offset := place.offset + c.utf8Size
      column := place.column + 1
      lineStart := place.lineStart && Text.isBlank c }

def advanceOver (place : Place) (text : List Char) : Place :=
  text.foldl advance place

def span (place : Place) : Span :=
  ⟨place.line, place.column, place.offset, place.offset⟩

/-- Moving over a text moves over its parts in turn. -/
theorem advanceOver_append (place : Place) (front back : List Char) :
    place.advanceOver (front ++ back) = (place.advanceOver front).advanceOver back := by
  simp [advanceOver, List.foldl_append]

end Place

end Shaderlift
