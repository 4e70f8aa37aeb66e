import Shaderlift.Source.SyntaxError
import Shaderlift.Text.Dotted

/-!
Parsers over a token stream. The tokens never change; the state is the cursor, which holds the position
in the stream and the depth of nesting. A failure loses the cursor, so trying a parser and going back is
a matter of keeping the old one.

Loops run on fuel. Each round of a loop reads a token, so the number of tokens is always enough, and no
loop ends by running out.
-/

namespace Shaderlift

/-- The position in the token stream and the depth of nesting. -/
structure Cursor where
  pos : Nat
  depth : Nat
  deriving DecidableEq, Repr, Inhabited

abbrev Parser := ReaderT (Array Token) (StateT Cursor (Except SyntaxError))

namespace Parser

/-- Look at the token some places ahead; past the end, at the last token. -/
def peekAt (ahead : Nat) : Parser Token := do
  let tokens ← read
  let cursor ← get
  pure (tokens.getD (min (cursor.pos + ahead) (tokens.size - 1)) ⟨.eof, Span.origin⟩)

def peek : Parser Token := peekAt 0

def kindAt (ahead : Nat) : Parser TokenKind := do
  let token ← peekAt ahead
  pure token.kind

def kind : Parser TokenKind := kindAt 0

def here : Parser Span := do
  let token ← peek
  pure token.span

/-- Step over the next token; the last one is never passed. -/
def bump : Parser Token := do
  let token ← peek
  match token.kind with
  | .eof => pure token
  | _ =>
    modify fun cursor => { cursor with pos := cursor.pos + 1 }
    pure token

/-- Step over the next token. -/
def skip : Parser Unit := do
  let _ ← bump

def prevSpan : Parser Span := do
  let tokens ← read
  let cursor ← get
  if cursor.pos = 0 then here
  else pure (tokens.getD (cursor.pos - 1) ⟨.eof, Span.origin⟩).span

def spanFrom (start : Span) : Parser Span := do
  let stop ← prevSpan
  pure (start.through stop)

def fail {α : Type} (fault : SyntaxFault) : Parser α := do
  let token ← peek
  throw ⟨fault, token.span⟩

/-- Fail because the next token is not what is asked for. -/
def unexpected {α : Type} (what : Expectation) : Parser α := do
  let token ← peek
  throw ⟨.expected what token.kind, token.span⟩

def punctAt (ahead : Nat) (mark : Punct) : Parser Bool := do
  let kind ← kindAt ahead
  pure (kind == .punct mark)

def atPunct (mark : Punct) : Parser Bool := punctAt 0 mark

def wordAt (ahead : Nat) (text : String) : Parser Bool := do
  let kind ← kindAt ahead
  pure (kind == .word text)

def atWord (text : String) : Parser Bool := wordAt 0 text

def nameAt (ahead : Nat) (name : String) : Parser Bool := do
  let kind ← kindAt ahead
  pure (kind == .ident name)

def atName (name : String) : Parser Bool := nameAt 0 name

def identAt (ahead : Nat) : Parser Bool := do
  let kind ← kindAt ahead
  pure kind.isIdent

def atIdent : Parser Bool := identAt 0

/-- Decide whether the token some places ahead is an identifier or a reserved word. -/
def nameLikeAt (ahead : Nat) : Parser Bool := do
  let kind ← kindAt ahead
  pure kind.isNameLike

def atTypeWord : Parser Bool := do
  let kind ← kind
  pure kind.isTypeWord

def atEnd : Parser Bool := do
  let kind ← kind
  pure (kind == .eof)

/-- Step over the next token if a test holds. -/
def eatIf (test : Parser Bool) : Parser Bool := do
  if ← test then
    skip
    pure true
  else pure false

def eatPunct (mark : Punct) : Parser Bool := eatIf (atPunct mark)

/-- Step over a reserved word if it is next. -/
def eatWord (text : String) : Parser Bool := eatIf (atWord text)

/-- Step over an identifier with this name if it is next. -/
def eatName (name : String) : Parser Bool := eatIf (atName name)

def expectPunct (mark : Punct) : Parser Span := do
  if ← atPunct mark then
    let token ← bump
    pure token.span
  else unexpected (.punct mark)

/-- Step over a reserved word that has to be next. -/
def expectWord (text : String) : Parser Span := do
  if ← atWord text then
    let token ← bump
    pure token.span
  else unexpected (.word text)

/-- Step over an identifier with this name that has to be next. -/
def expectName (name : String) : Parser Unit := do
  if ← atName name then skip else unexpected (.word name)

/-- Step over an identifier that has to be next, and return it with its place. -/
def expectIdentSpan : Parser (String × Span) := do
  let token ← peek
  match token.kind with
  | .ident name =>
    skip
    pure (name, token.span)
  | _ => unexpected .identifier

/-- Step over an identifier that has to be next, and return it. -/
def expectIdent : Parser String := do
  let (name, _) ← expectIdentSpan
  pure name

def expectEnd : Parser Unit := do
  if ← atEnd then pure () else unexpected .endOfInput

/-- Decide whether no gap stands between the next two tokens. -/
def touching : Parser Bool := do
  let first ← peekAt 0
  let second ← peekAt 1
  pure (first.span.stop == second.span.start)

/-- Try a parser; when it fails, stay where the attempt began. -/
def speculate {α : Type} (parser : Parser α) : Parser (Option α) :=
  fun tokens cursor =>
    match parser tokens cursor with
    | .ok (value, next) => .ok (some value, next)
    | .error _ => .ok (none, cursor)

def followedBy {α : Type} (parser : Parser α) (test : Parser Bool) : Parser Bool :=
  fun tokens cursor =>
    match (do let _ ← parser; test : Parser Bool) tokens cursor with
    | .ok (answer, _) => .ok (answer, cursor)
    | .error _ => .ok (false, cursor)

def nested {α : Type} (parser : Parser α) : Parser α := do
  modify fun cursor => { cursor with depth := cursor.depth + 1 }
  let cursor ← get
  if cursor.depth > maxNesting then fail .tooDeep
  else
    let value ← parser
    modify fun cursor => { cursor with depth := cursor.depth - 1 }
    pure value

/-- Repeat a step until it gives nothing, on fuel; `done` holds the last value first. -/
def manyOn {α : Type} (step : Parser (Option α)) : Nat → List α → Parser (List α)
  | 0, _ => fail .tooDeep
  | fuel + 1, done => do
    match ← step with
    | some value => manyOn step fuel (value :: done)
    | none => pure done.reverse

/-- Repeat a step until it gives nothing. -/
def many {α : Type} (step : Parser (Option α)) : Parser (List α) := do
  let tokens ← read
  manyOn step (tokens.size + 1) []

def extendOn {α : Type} (step : α → Parser (Option α)) : Nat → α → Parser α
  | 0, _ => fail .tooDeep
  | fuel + 1, value => do
    match ← step value with
    | some longer => extendOn step fuel longer
    | none => pure value

def extend {α : Type} (step : α → Parser (Option α)) (value : α) : Parser α := do
  let tokens ← read
  extendOn step (tokens.size + 1) value

def optional {α : Type} (test : Parser Bool) (parser : Parser α) : Parser (Option α) := do
  if ← test then
    let value ← parser
    pure (some value)
  else pure none

def commaList {α : Type} (item : Parser α) : Parser (List α) := do
  let first ← item
  let rest ← many (optional (eatPunct .comma) item)
  pure (first :: rest)

/-- Parse items to a closing mark, on fuel; a comma may stand before the mark. -/
def closedListOn {α : Type} (close : Punct) (item : Parser α) : Nat → List α → Parser (List α)
  | 0, _ => fail .tooDeep
  | fuel + 1, done => do
    if ← eatPunct close then pure done.reverse
    else
      let value ← item
      if ← eatPunct .comma then closedListOn close item fuel (value :: done)
      else
        let _ ← expectPunct close
        pure (value :: done).reverse

/-- Parse items to a closing mark; a comma may stand before the mark. -/
def closedList {α : Type} (close : Punct) (item : Parser α) : Parser (List α) := do
  let tokens ← read
  closedListOn close item (tokens.size + 1) []

/-- Parse a list between two marks, with commas between items and none before the closing mark. -/
def enclosed {α : Type} (opening closing : Punct) (item : Parser α) : Parser (List α) := do
  let _ ← expectPunct opening
  if ← eatPunct closing then pure []
  else
    let items ← commaList item
    let _ ← expectPunct closing
    pure items

def qualifiedName : Parser String := do
  let first ← expectIdent
  let rest ← many (optional (eatPunct .dot) expectIdent)
  pure (rest.foldl Text.dotted first)

end Parser

end Shaderlift
