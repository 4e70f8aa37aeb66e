import Shaderlift.Source.Parser.Expr

/-!
Parsing of patterns, and the entries of expressions and patterns tied together.
-/

namespace Shaderlift

namespace Parser

def relationalOp? : TokenKind → Option BinaryOp
  | .punct .lt => some .lt
  | .punct .ltEq => some .le
  | .punct .gt => some .gt
  | .punct .gtEq => some .ge
  | _ => none

def designation : Parser (Option String) := do
  match ← kind with
  | .ident name =>
    if ["and", "or", "when"].contains name then pure none
    else
      skip
      pure (some name)
  | _ => pure none

def pathAheadOn : Nat → Nat → Parser Bool
  | 0, _ => pure false
  | fuel + 1, ahead => do
    if ← identAt ahead then
      if ← punctAt (ahead + 1) .colon then pure true
      else if ← punctAt (ahead + 1) .dot then pathAheadOn fuel (ahead + 2)
      else pure false
    else pure false

def pathFollows : Parser Bool := do
  let tokens ← read
  pathAheadOn (tokens.size + 1) 0

def subpattern (self : ExprParsers) : Parser Subpattern := do
  if ← pathFollows then
    let name ← qualifiedName
    let _ ← expectPunct .colon
    let pattern ← self.pattern
    pure ⟨some name, pattern⟩
  else
    let pattern ← self.pattern
    pure ⟨none, pattern⟩

def positionalSubpatterns (self : ExprParsers) : Parser (List Subpattern) :=
  enclosed .lParen .rParen (subpattern self)

def propertySubpatterns (self : ExprParsers) : Parser (List Subpattern) := do
  let _ ← expectPunct .lBrace
  closedList .rBrace (subpattern self)

def propertySubpatterns? (self : ExprParsers) : Parser (Option (List Subpattern)) :=
  optional (atPunct .lBrace) (propertySubpatterns self)

def recursiveRest (self : ExprParsers) (start : Span) (type : Option TypeExpr)
    (positional : Option (List Subpattern)) : Parser Pattern := do
  let properties ← propertySubpatterns? self
  let name ← designation
  let span ← spanFrom start
  pure (.recursive span type positional properties name)

/-- Parse a pattern that starts with a parenthesis. One unnamed pattern in parentheses is that pattern. -/
def parenPattern (self : ExprParsers) : Parser Pattern := do
  let start ← here
  let items ← positionalSubpatterns self
  let braceFollows ← atPunct .lBrace
  match items, braceFollows with
  | [⟨none, pattern⟩], false => pure pattern
  | items, _ => recursiveRest self start none (some items)

def typePattern (self : ExprParsers) : Parser Pattern := do
  let start ← here
  let matched ← type
  let positionalFollows ← atPunct .lParen
  let propertiesFollow ← atPunct .lBrace
  if positionalFollows || propertiesFollow then
    let positional ← optional (pure positionalFollows) (positionalSubpatterns self)
    recursiveRest self start (some matched) positional
  else
    match ← designation with
    | some name =>
      let span ← spanFrom start
      pure (.declaration span matched name)
    | none => unexpected .pattern

def parenPattern? (self : ExprParsers) : Parser (Option Pattern) := do
  if ← atPunct .lParen then speculate (parenPattern self) else pure none

/-- Parse a pattern that neither a relation, a brace nor a parenthesis starts. -/
def leafPattern (self : ExprParsers) : Parser Pattern := do
  let start ← here
  let isDiscard ← atName "_"
  let isVar ← atName "var"
  let dotFollows ← punctAt 1 .dot
  let nameFollows ← identAt 1
  if isDiscard && !dotFollows then
    skip
    pure (.discard start)
  else if isVar && nameFollows then
    skip
    let name ← expectIdent
    let span ← spanFrom start
    pure (.var span name)
  else
    match ← speculate (typePattern self) with
    | some pattern => pure pattern
    | none => .constant <$> binary self shiftLevel

def primaryPattern (self : ExprParsers) : Parser Pattern := do
  let token ← peek
  match relationalOp? token.kind with
  | some op =>
    skip
    let value ← binary self shiftLevel
    let span ← spanFrom token.span
    pure (.relational span op value)
  | none =>
    if ← atPunct .lBrace then recursiveRest self token.span none none
    else
      match ← parenPattern? self with
      | some pattern => pure pattern
      | none => leafPattern self

def notPattern (self : ExprParsers) : Parser Pattern := do
  if ← eatName "not" then .not <$> self.notPattern else primaryPattern self

def andPattern (self : ExprParsers) : Parser Pattern := do
  let head ← notPattern self
  extend (fun lhs => do
    let rhs ← optional (eatName "and") (notPattern self)
    pure (rhs.map (.and lhs))) head

def orPattern (self : ExprParsers) : Parser Pattern := do
  let head ← andPattern self
  extend (fun lhs => do
    let rhs ← optional (eatName "or") (andPattern self)
    pure (rhs.map (.or lhs))) head

end Parser

namespace ExprParsers

open Shaderlift.Parser in
/-- Build the entries from those for what stands deeper. -/
def deeper (self : ExprParsers) : ExprParsers where
  expr := nested (anyExpr self)
  coalesce := Parser.coalesce self
  binary := Parser.binary self
  unary := nested (Parser.unary self)
  pattern := nested (orPattern self)
  notPattern := Parser.notPattern self
  initializer := Parser.initializer self

def on : Nat → ExprParsers
  | 0 =>
    { expr := Parser.fail .tooDeep
      coalesce := Parser.fail .tooDeep
      binary := fun _ => Parser.fail .tooDeep
      unary := Parser.fail .tooDeep
      pattern := Parser.fail .tooDeep
      notPattern := Parser.fail .tooDeep
      initializer := Parser.fail .tooDeep }
  | rounds + 1 =>
    { expr := fun tokens => (on rounds).deeper.expr tokens
      coalesce := fun tokens => (on rounds).deeper.coalesce tokens
      binary := fun level tokens => (on rounds).deeper.binary level tokens
      unary := fun tokens => (on rounds).deeper.unary tokens
      pattern := fun tokens => (on rounds).deeper.pattern tokens
      notPattern := fun tokens => (on rounds).deeper.notPattern tokens
      initializer := fun tokens => (on rounds).deeper.initializer tokens }

/-- Each round enters a level or has read a token, so no text needs more rounds than this. -/
def forTokens (tokens : Array Token) : ExprParsers :=
  on (maxNesting + tokens.size + 2)

end ExprParsers

namespace Parser

def expr : Parser Expr := fun tokens => (ExprParsers.forTokens tokens).expr tokens

def pattern : Parser Pattern := fun tokens => (ExprParsers.forTokens tokens).pattern tokens

def variableInit : Parser Expr := fun tokens => (ExprParsers.forTokens tokens).initializer tokens

def parenArguments : Parser (List Argument) :=
  fun tokens => arguments (ExprParsers.forTokens tokens) tokens

def condition : Parser Expr := fun tokens => parenExpr (ExprParsers.forTokens tokens) tokens

end Parser

end Shaderlift
