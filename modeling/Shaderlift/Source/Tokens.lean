import Shaderlift.Source.Gap
import Shaderlift.Source.Lexeme

/-!
Splitting a source text into tokens. The stream always ends with one end token; a text over the size
limit is refused before it is looked at.
-/

namespace Shaderlift

/-- Split a text from a place on. Each step reads a character at least, so the text's length is enough
fuel. -/
def tokensFrom : Nat → Place → List Char → Array Token → Except SyntaxError (Array Token)
  | 0, place, _, tokens => .ok (tokens.push ⟨.eof, place.span⟩)
  | fuel + 1, place, text, tokens =>
    match skipGap .blank place text with
    | .error error => .error error
    | .ok (start, []) => .ok (tokens.push ⟨.eof, start.span⟩)
    | .ok (start, c :: rest) =>
      match Lexeme.read c rest with
      | .error misread =>
        .error ⟨misread.fault, start.span.through (start.advanceOver misread.text.reverse).span⟩
      | .ok piece =>
        let stop := start.advanceOver piece.text
        tokensFrom fuel stop piece.rest (tokens.push ⟨piece.value, start.span.through stop.span⟩)

def tokenize (source : String) : Except SyntaxError (Array Token) :=
  if source.utf8ByteSize > maxSourceBytes then
    .error ⟨.sourceTooLong source.utf8ByteSize, Span.origin⟩
  else
    let text := source.toList
    tokensFrom (text.length + 1) Place.first text #[]

end Shaderlift
