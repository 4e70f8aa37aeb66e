/-!
Places in a source text. A span has the one-based line and column of its start and the byte offsets of
its start and end in UTF-8. Spans are ordered by line, then column, then start, then end.
-/

namespace Shaderlift

/-- The place of a piece of source text. -/
structure Span where
  line : Nat
  column : Nat
  start : Nat
  stop : Nat
  deriving DecidableEq, Repr, Inhabited

namespace Span

def origin : Span := ⟨1, 1, 0, 0⟩

/-- Extend a span to the end of another, never shrinking it. -/
def through (first last : Span) : Span :=
  { first with stop := max last.stop first.stop }

def length (span : Span) : Nat :=
  span.stop - span.start

def isEmpty (span : Span) : Bool :=
  span.stop ≤ span.start

def render (span : Span) : String :=
  toString span.line ++ ":" ++ toString span.column

/-- Compare two spans by line, column, start and end. -/
def compare (a b : Span) : Ordering :=
  (Ord.compare a.line b.line).then <| (Ord.compare a.column b.column).then <|
    (Ord.compare a.start b.start).then (Ord.compare a.stop b.stop)

/-- Drop bytes from the front of a text; fails inside a character and past the end. -/
def dropBytes : Nat → List Char → Option (List Char)
  | 0, text => some text
  | _ + 1, [] => none
  | n + 1, c :: text => if c.utf8Size ≤ n + 1 then dropBytes (n + 1 - c.utf8Size) text else none
termination_by _ text => text.length

/-- Take bytes from the front of a text; fails inside a character and past the end. -/
def takeBytes : Nat → List Char → Option (List Char)
  | 0, _ => some []
  | _ + 1, [] => none
  | n + 1, c :: text =>
    if c.utf8Size ≤ n + 1 then (takeBytes (n + 1 - c.utf8Size) text).map (c :: ·) else none
termination_by _ text => text.length

/-- Return the text a span covers, if both ends are character boundaries of the source in order. -/
def slice (span : Span) (source : String) : Option String := do
  if span.stop < span.start then none
  else
    let rest ← dropBytes span.start source.toList
    let text ← takeBytes (span.stop - span.start) rest
    pure (String.ofList text)

end Span

end Shaderlift
