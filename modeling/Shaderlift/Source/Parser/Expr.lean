import Shaderlift.Source.Parser.Literal
import Shaderlift.Source.Parser.Type

/-!
Parsing of expressions. The grammar is recursive through seven entries, collected in `ExprParsers`; each
piece of it is a parser that takes the entries for what stands deeper. Going round once either enters a
level of nesting or has read a token, which bounds the number of rounds.
-/

namespace Shaderlift

/-- The entries through which expressions and patterns contain each other. `expr`, `unary` and `pattern`
count a level of nesting; the others do not. -/
structure ExprParsers where
  expr : Parser Expr
  coalesce : Parser Expr
  binary : Nat → Parser Expr
  unary : Parser Expr
  pattern : Parser Pattern
  notPattern : Parser Pattern
  initializer : Parser Expr

/-- The precedence of an operator between two operands; a higher one binds tighter. -/
def BinaryOp.precedence : BinaryOp → Nat
  | .coalesce => 0
  | .or => 1
  | .and => 2
  | .bitOr => 3
  | .bitXor => 4
  | .bitAnd => 5
  | .eq | .ne => 6
  | .lt | .gt | .le | .ge => 7
  | .shl | .shr => 8
  | .add | .sub => 9
  | .mul | .div | .rem => 10

def relationalLevel : Nat := 7

/-- The precedence of shifts, the loosest one in a constant pattern. -/
def shiftLevel : Nat := 8

/-- What may follow an operand. -/
inductive Link where
  | op (op : BinaryOp) (tokens : Nat)
  | isPattern
  | asType

def Link.precedence : Link → Nat
  | .op operator _ => operator.precedence
  | .isPattern => relationalLevel
  | .asType => relationalLevel

namespace Parser

def skipTokens : Nat → Parser Unit
  | 0 => pure ()
  | count + 1 => do
    skip
    skipTokens count

/-- Return the operator that a mark stands for by itself. -/
def binaryOp? : Punct → Option BinaryOp
  | .pipePipe => some .or
  | .ampAmp => some .and
  | .pipe => some .bitOr
  | .caret => some .bitXor
  | .amp => some .bitAnd
  | .eqEq => some .eq
  | .bangEq => some .ne
  | .lt => some .lt
  | .ltEq => some .le
  | .gtEq => some .ge
  | .gt => some .gt
  | .shl => some .shl
  | .plus => some .add
  | .minus => some .sub
  | .star => some .mul
  | .slash => some .div
  | .percent => some .rem
  | _ => none

/-- Look at what follows an operand. Two closing angles that touch are a shift; an angle that touches
`>=` is left to assignment. -/
def linkNext : Parser (Option Link) := do
  match ← kind with
  | .word "is" => pure (some .isPattern)
  | .word "as" => pure (some .asType)
  | .punct .gt =>
    let joined ← touching
    match joined, ← kindAt 1 with
    | true, .punct .gt => pure (some (.op .shr 2))
    | true, .punct .gtEq => pure none
    | _, _ => pure (some (.op .gt 1))
  | .punct mark => pure ((binaryOp? mark).map (.op · 1))
  | _ => pure none

/-- Return the assignment operator that a mark stands for by itself. -/
def assignOp? : Punct → Option AssignOp
  | .eq => some .assign
  | .plusEq => some .add
  | .minusEq => some .sub
  | .starEq => some .mul
  | .slashEq => some .div
  | .percentEq => some .rem
  | .ampEq => some .bitAnd
  | .pipeEq => some .bitOr
  | .caretEq => some .bitXor
  | .shlEq => some .shl
  | .questionQuestionEq => some .coalesce
  | _ => none

/-- Look at an assignment operator and the number of its tokens. -/
def assignNext : Parser (Option (AssignOp × Nat)) := do
  match ← kind with
  | .punct .gt =>
    let joined ← touching
    let isGtEq ← punctAt 1 .gtEq
    pure (if isGtEq && joined then some (.shr, 2) else none)
  | .punct mark => pure ((assignOp? mark).map (·, 1))
  | _ => pure none

/-- Return the operator that a mark stands for before its operand. -/
def unaryOp? : Punct → Option UnaryOp
  | .minus => some .neg
  | .plus => some .plus
  | .bang => some .not
  | .tilde => some .bitNot
  | .plusPlus => some .preInc
  | .minusMinus => some .preDec
  | .amp => some .addressOf
  | .star => some .deref
  | .caret => some .indexFromEnd
  | _ => none

def argumentName : Parser (Option String) := do
  let isName ← atIdent
  let colonFollows ← punctAt 1 .colon
  if isName && colonFollows then
    let name ← expectIdent
    skip
    pure (some name)
  else pure none

def argumentPassing : Parser (Option Passing) := do
  if ← eatWord "ref" then pure (some .byRef)
  else if ← eatWord "out" then pure (some .byOut)
  else if ← eatWord "in" then pure (some .byIn)
  else pure none

def declaresVariable : Parser Bool := do
  let isVar ← atName "var"
  let isType ← atTypeWord
  let isName ← atIdent
  let nameFollows ← identAt 1
  pure (isVar || isType || (isName && nameFollows))

def argument (self : ExprParsers) : Parser Argument := do
  let name ← argumentName
  let passing ← argumentPassing
  let declares ← declaresVariable
  if passing == some .byOut && declares then fail (.refused .outVariable)
  else
    let value ← self.expr
    pure ⟨name, passing, value⟩

def arguments (self : ExprParsers) : Parser (List Argument) :=
  enclosed .lParen .rParen (argument self)

def initializerList (self : ExprParsers) : Parser (List Expr) := do
  let _ ← expectPunct .lBrace
  closedList .rBrace self.initializer

def initializerList? (self : ExprParsers) : Parser (Option (List Expr)) :=
  optional (atPunct .lBrace) (initializerList self)

/-- Parse the initial value of a variable: an expression or a list in braces. -/
def initializer (self : ExprParsers) : Parser Expr := do
  let start ← here
  if ← atPunct .lBrace then
    let items ← initializerList self
    let span ← spanFrom start
    pure (.arrayInit span items)
  else self.expr

def parenExpr (self : ExprParsers) : Parser Expr := do
  let _ ← expectPunct .lParen
  let inner ← self.expr
  let _ ← expectPunct .rParen
  pure inner

def parenType : Parser TypeExpr := do
  let _ ← expectPunct .lParen
  let inner ← type
  let _ ← expectPunct .rParen
  pure inner

def castOperandWords : List String :=
  ["this", "new", "default", "true", "false", "null", "typeof", "sizeof", "checked", "unchecked", "base"]

def startsCastOperand (isTypeWord : Bool) : TokenKind → Bool
  | .word text => castOperandWords.contains text || typeWords.contains text
  | .punct mark =>
    match mark with
    | .lParen | .bang | .tilde => true
    | .minus | .plus | .plusPlus | .minusMinus => isTypeWord
    | _ => false
  | .eof => false
  | _ => true

def cast (self : ExprParsers) : Parser Expr := do
  let start ← expectPunct .lParen
  let isTypeWord ← atTypeWord
  let target ← type
  let _ ← expectPunct .rParen
  let next ← kind
  if startsCastOperand isTypeWord next then
    let operand ← self.unary
    let span ← spanFrom start
    pure (.cast span target operand)
  else unexpected .castOperand

def startsAwaitOperand : TokenKind → Bool
  | .word text => !(["is", "as", "in"].contains text)
  | .punct mark =>
    match mark with
    | .lParen | .bang | .tilde | .minus | .plus => true
    | _ => false
  | .eof => false
  | _ => true

/-- Parse type arguments in an expression, which only a call or a member access may follow. -/
def genericArgs : Parser (List TypeExpr) := do
  let args ← typeArgs
  let callFollows ← atPunct .lParen
  let accessFollows ← atPunct .dot
  if callFollows || accessFollows then pure args else unexpected .callAfterTypeArguments

def genericArgs? : Parser (Option (List TypeExpr)) := do
  if ← atPunct .lt then speculate genericArgs else pure none

/-- Parse a call with type arguments. Before a member access they are dropped. -/
def genericCall (self : ExprParsers) (callee : Expr) (typeArgs : List TypeExpr) : Parser Expr := do
  if ← atPunct .dot then pure callee
  else
    let args ← arguments self
    let span ← spanFrom callee.span
    pure (.call span callee typeArgs args)

/-- Parse a type for `new` or `stackalloc`: a name, or a reserved word with stars, but no brackets. -/
def elementType : Parser TypeExpr := do
  let token ← peek
  match token.kind with
  | .word text =>
    if token.kind.isTypeWord then
      skip
      extend (fun type => do
        if ← eatPunct .star then
          let span ← spanFrom token.span
          pure (some (.pointer span type))
        else pure none) (.word text token.span)
    else unexpected .identifier
  | _ =>
    let name ← qualifiedName
    let args ← optional (atPunct .lt) typeArgs
    let span ← spanFrom token.span
    pure (.named span name (args.getD []))

def nullableSuffix (type : TypeExpr) : Parser TypeExpr := do
  let isMark ← atPunct .question
  let argsFollow ← punctAt 1 .lParen
  let sizesFollow ← punctAt 1 .lBracket
  if isMark && (argsFollow || sizesFollow) then
    skip
    let span ← spanFrom type.span
    pure (.nullable span type)
  else pure type

def anonymousMember (self : ExprParsers) : Parser AnonymousMember := do
  let isName ← atIdent
  let isNamed ← punctAt 1 .eq
  if isName && isNamed then
    let name ← expectIdent
    skip
    let value ← self.expr
    pure ⟨some name, value⟩
  else
    let value ← self.expr
    pure ⟨none, value⟩

/-- Parse empty brackets after the sizes of an array; each adds a rank to its element. -/
def jaggedRank (element : TypeExpr) : Parser (Option TypeExpr) := do
  let opens ← atPunct .lBracket
  let closes ← punctAt 1 .rBracket
  if opens && closes then
    skip
    skip
    let span ← spanFrom element.span
    pure (some (.array span element 1))
  else pure none

def newArray (self : ExprParsers) (start : Span) (element : TypeExpr) : Parser Expr := do
  let _ ← expectPunct .lBracket
  let sizes ← closedList .rBracket (optional (not <$> atPunct .comma) self.expr)
  let element ← extend jaggedRank element
  let init ← initializerList? self
  let span ← spanFrom start
  pure (.newArray span element (sizes.filterMap id) init)

def afterCloseParen : Parser Bool := do
  let tokens ← read
  let cursor ← get
  if cursor.pos = 0 then pure false
  else pure ((tokens.getD (cursor.pos - 1) ⟨.eof, Span.origin⟩).kind == .punct .rParen)

def newObject (self : ExprParsers) (start : Span) (target : TypeExpr) : Parser Expr := do
  let args ← optional (atPunct .lParen) (arguments self)
  let init ← initializerList? self
  let closed ← afterCloseParen
  if (args.getD []).isEmpty && init.isNone && !closed then unexpected .argumentsOrInitializer
  else
    let span ← spanFrom start
    pure (.construct span (some target) (args.getD []) init)

def newExpr (self : ExprParsers) : Parser Expr := do
  let start ← expectWord "new"
  match ← kind with
  | .punct .lBrace =>
    skip
    let members ← closedList .rBrace (anonymousMember self)
    let span ← spanFrom start
    pure (.anonymous span members)
  | .punct .lParen =>
    let args ← arguments self
    let init ← initializerList? self
    let span ← spanFrom start
    pure (.construct span none args init)
  | .punct .lBracket =>
    skip
    let _ ← expectPunct .rBracket
    let items ← initializerList self
    let span ← spanFrom start
    pure (.newArray span (.word "var" span) [] (some items))
  | _ =>
    let element ← elementType
    let element ← nullableSuffix element
    if ← atPunct .lBracket then newArray self start element
    else newObject self start element

def stackSize (self : ExprParsers) : Parser (Option Expr) := do
  if ← eatPunct .lBracket then
    let size ← optional (not <$> atPunct .rBracket) self.expr
    let _ ← expectPunct .rBracket
    pure size
  else pure none

def stackAlloc (self : ExprParsers) (start : Span) : Parser Expr := do
  let element ← elementType
  let size ← stackSize self
  let init ← initializerList? self
  let span ← spanFrom start
  pure (.stackAlloc span element size init)

def wordPrimary (self : ExprParsers) (text : String) (start : Span) : Parser Expr := do
  match text with
  | "true" | "false" =>
    skip
    pure (.literal start (.bool (text == "true")))
  | "null" =>
    skip
    pure (.literal start .null)
  | "this" =>
    skip
    pure (.selfRef start)
  | "base" => fail (.refused .baseAccess)
  | "new" => newExpr self
  | "default" =>
    skip
    let target ← optional (atPunct .lParen) parenType
    let span ← spanFrom start
    pure (.defaultOf span target)
  | "sizeof" =>
    skip
    let target ← parenType
    let span ← spanFrom start
    pure (.sizeOfType span target)
  | "typeof" =>
    skip
    let target ← parenType
    let span ← spanFrom start
    pure (.typeOfType span target)
  | "checked" | "unchecked" =>
    skip
    let inner ← parenExpr self
    let span ← spanFrom start
    pure (.checked span (text == "unchecked") inner)
  | "stackalloc" =>
    skip
    stackAlloc self start
  | "ref" =>
    skip
    let operand ← self.unary
    let span ← spanFrom start
    pure (.refTo span operand)
  | "delegate" => fail (.refused .anonymousMethod)
  | _ =>
    if typeWords.contains text then
      skip
      pure (.typeWord start text)
    else unexpected .expression

/-- Fail if an arrow follows a closed parenthesis. -/
def refuseArrow : Parser Unit := do
  if ← atPunct .arrow then fail (.refused .lambda)

def parenOrTuple (self : ExprParsers) : Parser Expr := do
  let start ← expectPunct .lParen
  let first ← argument self
  if ← eatPunct .rParen then
    refuseArrow
    if first.name.isSome || first.passing.isSome then unexpected (.punct .comma)
    else
      let span ← spanFrom start
      pure (.paren span first.value)
  else
    let rest ← many (optional (eatPunct .comma) (argument self))
    let _ ← expectPunct .rParen
    refuseArrow
    let span ← spanFrom start
    pure (.tuple span (first :: rest))

def primary (self : ExprParsers) : Parser Expr := do
  let token ← peek
  match token.kind with
  | .int text =>
    skip
    match Literal.ofInt? text with
    | some value => pure (.literal token.span value)
    | none => throw ⟨.invalidInteger text, token.span⟩
  | .real text =>
    skip
    pure (.literal token.span (Literal.ofReal text))
  | .char value =>
    skip
    pure (.literal token.span (.char value))
  | .str value =>
    skip
    pure (.literal token.span (.str value))
  | .ident name =>
    skip
    match ← genericArgs? with
    | some args => genericCall self (.ident token.span name) args
    | none => pure (.ident token.span name)
  | .word text => wordPrimary self text token.span
  | .punct .lParen => parenOrTuple self
  | .punct .lBrace =>
    let items ← initializerList self
    let span ← spanFrom token.span
    pure (.arrayInit span items)
  | _ => unexpected .expression

def forgivingFollowers : List Punct :=
  [.dot, .rParen, .semi, .comma, .lBracket, .rBracket]

def memberAccess (self : ExprParsers) (target : Expr) (conditional : Bool) : Parser Expr := do
  skip
  let name ← expectIdent
  let span ← spanFrom target.span
  let access := Expr.member span target name conditional
  match ← genericArgs? with
  | some args => genericCall self access args
  | none => pure access

def postOperator (op : PostOp) (operand : Expr) : Parser Expr := do
  skip
  let span ← spanFrom operand.span
  pure (.post span op operand)

def exprSuffix (self : ExprParsers) (expr : Expr) : Parser (Option Expr) := do
  match ← kind with
  | .punct .dot => some <$> memberAccess self expr false
  | .punct .questionDot => some <$> memberAccess self expr true
  | .punct .lParen =>
    let args ← arguments self
    let span ← spanFrom expr.span
    pure (some (.call span expr [] args))
  | .punct .lBracket =>
    let args ← enclosed .lBracket .rBracket (argument self)
    let span ← spanFrom expr.span
    pure (some (.index span expr args))
  | .punct .plusPlus => some <$> postOperator .inc expr
  | .punct .minusMinus => some <$> postOperator .dec expr
  | .punct .bang =>
    match ← kindAt 1 with
    | .punct mark =>
      if forgivingFollowers.contains mark then some <$> postOperator .nullForgiving expr
      else pure none
    | _ => pure none
  | .word "switch" => fail (.refused .switchExpression)
  | _ => pure none

def suffixed (self : ExprParsers) : Parser Expr := do
  let head ← primary self
  extend (exprSuffix self) head

def cast? (self : ExprParsers) : Parser (Option Expr) := do
  if ← atPunct .lParen then speculate (cast self) else pure none

def unary (self : ExprParsers) : Parser Expr := do
  let token ← peek
  let op :=
    match token.kind with
    | .punct mark => unaryOp? mark
    | _ => none
  match op with
  | some op =>
    skip
    let operand ← self.unary
    let span ← spanFrom token.span
    pure (.unary span op operand)
  | none =>
    let isAwait ← atName "await"
    let next ← kindAt 1
    if isAwait && startsAwaitOperand next then
      skip
      let operand ← self.unary
      let span ← spanFrom token.span
      pure (.await span operand)
    else
      match ← cast? self with
      | some expr => pure expr
      | none => suffixed self

def startsRangeEnd : TokenKind → Bool
  | .punct mark =>
    match mark with
    | .lParen | .minus | .plus | .bang | .tilde | .caret | .plusPlus | .minusMinus => true
    | _ => false
  | .eof => false
  | _ => true

def range (self : ExprParsers) : Parser Expr := do
  let start ← here
  let first ← optional (not <$> atPunct .dotDot) self.unary
  if ← eatPunct .dotDot then
    let next ← kind
    let last ← optional (pure (startsRangeEnd next)) self.unary
    let span ← spanFrom start
    pure (.range span first last)
  else
    match first with
    | some operand => pure operand
    | none => unexpected .expression

/-- Parse what follows an operand, if it binds at least as tightly as asked for. -/
def linkStep (self : ExprParsers) (level : Nat) (start : Span) (lhs : Expr) : Parser (Option Expr) := do
  match ← linkNext with
  | none => pure none
  | some next =>
    if next.precedence < level then pure none
    else
      match next with
      | .isPattern =>
        skip
        let pattern ← self.pattern
        let span ← spanFrom start
        pure (some (.isPattern span lhs pattern))
      | .asType =>
        skip
        let target ← type
        let span ← spanFrom start
        pure (some (.asType span lhs target))
      | .op op tokens =>
        skipTokens tokens
        let rhs ← nested (self.binary (op.precedence + 1))
        let span ← spanFrom start
        pure (some (.binary span op lhs rhs))

/-- Parse operands joined by operators of a precedence at least. -/
def binary (self : ExprParsers) (level : Nat) : Parser Expr := do
  let start ← here
  let head ← range self
  extend (linkStep self level start) head

def throwing (self : ExprParsers) : Parser Expr := do
  let start ← here
  skip
  let operand ← self.expr
  let span ← spanFrom start
  pure (.throwing span operand)

/-- Parse operands joined by `??`, which groups to the right. -/
def coalesce (self : ExprParsers) : Parser Expr := do
  let start ← here
  let lhs ← binary self BinaryOp.or.precedence
  if ← eatPunct .questionQuestion then
    let isThrow ← atWord "throw"
    let rhs ← if isThrow then throwing self else self.coalesce
    let span ← spanFrom start
    pure (.binary span .coalesce lhs rhs)
  else pure lhs

def conditional (self : ExprParsers) : Parser Expr := do
  let start ← here
  let cond ← coalesce self
  if ← eatPunct .question then
    let thenExpr ← self.expr
    let _ ← expectPunct .colon
    let elseExpr ← self.expr
    let span ← spanFrom start
    pure (.conditional span cond thenExpr elseExpr)
  else pure cond

def refTo (self : ExprParsers) : Parser Expr := do
  let token ← bump
  let operand ← self.expr
  let span ← spanFrom token.span
  pure (.refTo span operand)

def assigned (self : ExprParsers) (op : AssignOp) : Parser Expr := do
  let isRef ← atWord "ref"
  if op == .assign && isRef then refTo self else self.expr

/-- Parse an expression that is neither a query nor a `throw`. -/
def assignment (self : ExprParsers) : Parser Expr := do
  let start ← here
  let isName ← atIdent
  let arrowFollows ← punctAt 1 .arrow
  if isName && arrowFollows then fail (.refused .lambda)
  else
    let target ← conditional self
    match ← assignNext with
    | some (op, tokens) =>
      skipTokens tokens
      let value ← assigned self op
      let span ← spanFrom start
      pure (.assign span op target value)
    | none =>
      refuseArrow
      pure target

def queryFollows : Parser Bool := do
  let isFrom ← atName "from"
  let first ← kindAt 1
  let second ← kindAt 2
  let third ← kindAt 3
  let untyped := first.isIdent && second == .word "in"
  let typed := (first.isIdent || first.isTypeWord) && second.isIdent && third == .word "in"
  pure (isFrom && (untyped || typed))

/-- Parse the variable and the source of a query; the variable's type is dropped. -/
def querySource (self : ExprParsers) : Parser (String × Expr) := do
  let untyped ← wordAt 1 "in"
  let _ ← optional (pure !untyped) type
  let name ← expectIdent
  let _ ← expectWord "in"
  let source ← self.expr
  pure (name, source)

def orderKey (self : ExprParsers) : Parser Expr := do
  let key ← self.expr
  let ascending ← eatName "ascending"
  let _ ← if ascending then pure true else eatName "descending"
  pure key

def clauseWords : List String :=
  ["from", "where", "select", "let", "orderby", "join", "group", "into"]

def queryClause (self : ExprParsers) (clause : String) : Parser QueryClause := do
  match clause with
  | "from" =>
    let (name, source) ← querySource self
    pure (.fromSource name source)
  | "join" =>
    let (name, source) ← querySource self
    expectName "on"
    let left ← self.expr
    expectName "equals"
    let right ← self.expr
    pure (.joinSource name source left right)
  | "let" =>
    let name ← expectIdent
    let _ ← expectPunct .eq
    let value ← self.expr
    pure (.letValue name value)
  | "where" => .whereTrue <$> self.expr
  | "orderby" => .orderBy <$> commaList (orderKey self)
  | "select" => .selectValue <$> self.expr
  | "group" =>
    let element ← self.expr
    expectName "by"
    let key ← self.expr
    pure (.groupBy element key)
  | _ => .intoName <$> expectIdent

def queryClause? (self : ExprParsers) : Parser (Option QueryClause) := do
  match ← kind with
  | .ident name =>
    if clauseWords.contains name then
      skip
      some <$> queryClause self name
    else pure none
  | _ => pure none

def query (self : ExprParsers) : Parser Expr := do
  let start ← here
  let clauses ← many (queryClause? self)
  let span ← spanFrom start
  pure (.query span clauses)

/-- Parse an expression of any kind, without counting a level. -/
def anyExpr (self : ExprParsers) : Parser Expr := do
  if ← atWord "throw" then throwing self
  else if ← queryFollows then query self
  else assignment self

end Parser

end Shaderlift
