import Shaderlift.Source.Parser.Pattern
import Shaderlift.Source.Tree.Stmt

/-!
Parsing of statements and of what declarations and statements share: attributes, parameters, bodies.
Every statement counts one level of nesting, so the nesting limit bounds the recursion.
-/

namespace Shaderlift.Parser

/-- Return the name of an attribute: the last segment, without the ending `Attribute`. -/
def attributeName (path : String) : String :=
  let name := Text.lastSegment path
  match Text.stripEnd "Attribute".toList name.toList with
  | some short => String.ofList short
  | none => name

def attr : Parser Attr := do
  let start ← here
  let path ← qualifiedName
  let args ← optional (atPunct .lParen) parenArguments
  let span ← spanFrom start
  pure ⟨attributeName path, args.getD [], span⟩

/-- Parse one more attribute of a section; a comma may stand before the closing bracket. -/
def moreAttr : Parser (Option Attr) := do
  if ← eatPunct .comma then
    if ← atPunct .rBracket then pure none else some <$> attr
  else pure none

/-- Parse a section of attributes in brackets; its target is dropped. -/
def attrSection : Parser (List Attr) := do
  let _ ← expectPunct .lBracket
  let isTarget ← nameLikeAt 0
  let colonFollows ← punctAt 1 .colon
  if isTarget && colonFollows then
    skip
    skip
  let first ← attr
  let rest ← many moreAttr
  let _ ← expectPunct .rBracket
  pure (first :: rest)

def attributes : Parser (List Attr) := do
  let sections ← many (optional (atPunct .lBracket) attrSection)
  pure sections.flatten

/-- Parse a type parameter; its attributes and variance are dropped. -/
def typeParam : Parser String := do
  let _ ← attributes
  let isIn ← eatWord "in"
  let _ ← if isIn then pure true else eatWord "out"
  expectIdent

def typeParams : Parser (List String) := do
  if ← eatPunct .lt then
    let params ← commaList typeParam
    let _ ← expectPunct .gt
    pure params
  else pure []

def paramPassing : Parser (Option Passing) := do
  if ← eatWord "ref" then
    let _ ← eatWord "readonly"
    pure (some .byRef)
  else if ← eatWord "out" then pure (some .byOut)
  else if ← eatWord "in" then pure (some .byIn)
  else if ← eatWord "this" then pure (some .receiver)
  else if ← eatWord "params" then pure (some .rest)
  else pure none

def param : Parser Param := do
  let start ← here
  let attributes ← attributes
  let _ ← eatName "scoped"
  let passing ← paramPassing
  let type ← type
  let name ← expectIdent
  let default ← optional (eatPunct .eq) expr
  let span ← spanFrom start
  pure { attributes, passing, type, name, default, span }

def params : Parser (List Param) := enclosed .lParen .rParen param

def beforeBrace {α : Type} (item : Parser α) : Parser (Option α) := do
  if ← eatPunct .rBrace then pure none
  else if ← atEnd then unexpected (.punct .rBrace)
  else some <$> item

def block (self : Parser Stmt) : Parser Block := do
  let start ← expectPunct .lBrace
  let stmts ← many (beforeBrace self)
  let span ← spanFrom start
  pure ⟨stmts, span⟩

def methodBody (self : Parser Stmt) : Parser (Option MethodBody) := do
  if ← eatPunct .semi then pure none
  else if ← eatPunct .arrow then
    let value ← expr
    let _ ← expectPunct .semi
    pure (some (.expr value))
  else
    let body ← block self
    pure (some (.block body))

def localFunctionAfter (self : Parser Stmt) (modifiers : List Modifier) (returnType : TypeExpr)
    (start : Span) : Parser MethodDecl := do
  let name ← expectIdent
  let typeParams ← typeParams
  let params ← params
  let body ← methodBody self
  let span ← spanFrom start
  pure
    { header :=
        { attributes := [], modifiers, returnType, explicitInterface := none, name, typeParams, params, span }
      body }

def localModifier : Parser (Option Modifier) := do
  if ← eatWord "static" then pure (some .isStatic)
  else if ← eatWord "unsafe" then pure (some .isUnsafe)
  else if ← eatWord "extern" then pure (some .isExternal)
  else
    let isAsync ← atName "async"
    let goesOn ← nameLikeAt 1
    if isAsync && goesOn then
      skip
      pure (some .isAsync)
    else pure none

def localFunction (self : Parser Stmt) : Parser MethodDecl := do
  let start ← here
  let modifiers ← many localModifier
  let returnType ← type
  localFunctionAfter self modifiers returnType start

def localInit : Parser Expr := do
  if ← atWord "ref" then fun tokens => refTo (ExprParsers.forTokens tokens) tokens
  else variableInit

def localDeclarator : Parser Declarator := do
  let (name, start) ← expectIdentSpan
  let init ← optional (eatPunct .eq) localInit
  let span ← spanFrom start
  pure { name, fixedSize := none, init, span }

def localDeclAfter (type : TypeExpr) (start : Span) (isConst isUsing : Bool) : Parser LocalDecl := do
  let declarators ← commaList localDeclarator
  let span ← spanFrom start
  pure { type, declarators, isConst, isUsing, span }

def localDecl (isConst isUsing : Bool) : Parser LocalDecl := do
  let start ← here
  let type ← type
  localDeclAfter type start isConst isUsing

abbrev Unplaced := Span → Stmt

/-- Parse a declaration statement: local variables, or a local function with a body. -/
def declaration (self : Parser Stmt) : Parser Unplaced := do
  let start ← here
  let type ← type
  if type.simpleName? == some "await" then unexpected .expression
  else if !(← atIdent) then unexpected .identifier
  else
    match ← kindAt 1 with
    | .punct .lParen | .punct .lt =>
      let function ← localFunctionAfter self [] type start
      if function.body.isNone then fail .missingBody
      else pure (.localFunction · function)
    | .punct .eq | .punct .semi | .punct .comma =>
      let decl ← localDeclAfter type start false false
      let _ ← expectPunct .semi
      pure (.declare · decl)
    | _ => unexpected .declaration

def valueAndSemi : Parser (Option Expr) := do
  let value ← optional (not <$> atPunct .semi) expr
  let _ ← expectPunct .semi
  pure value

/-- Parse expressions with commas between them, up to a mark. -/
def exprList (stop : Punct) : Parser (List Expr) := do
  let first ← expr
  let rest ← many (do
    if ← atPunct stop then pure none else optional (eatPunct .comma) expr)
  pure (first :: rest)

def forDecl : Parser LocalDecl := do
  let start ← here
  let type ← type
  if ← atIdent then localDeclAfter type start false false else unexpected .identifier

def forInit : Parser (Option ForInit) := do
  if ← atPunct .semi then pure none
  else
    match ← speculate forDecl with
    | some decl => pure (some (.decl decl))
    | none => some <$> .exprs <$> exprList .semi

def forLoop (self : Parser Stmt) : Parser Unplaced := do
  skip
  let _ ← expectPunct .lParen
  let init ← forInit
  let _ ← expectPunct .semi
  let cond ← valueAndSemi
  let step ← optional (not <$> atPunct .rParen) (exprList .rParen)
  let _ ← expectPunct .rParen
  let body ← self
  pure (.forLoop · init cond (step.getD []) body)

def forEach (self : Parser Stmt) : Parser Unplaced := do
  skip
  let _ ← expectPunct .lParen
  let type ← type
  let name ← expectIdent
  let _ ← expectWord "in"
  let source ← expr
  let _ ← expectPunct .rParen
  let body ← self
  pure (.forEach · type name source body)

def atDefaultLabel : Parser Bool := do
  let isDefault ← atWord "default"
  let colonFollows ← punctAt 1 .colon
  pure (isDefault && colonFollows)

def switchLabel : Parser (Option SwitchLabel) := do
  if ← eatWord "case" then
    let pattern ← pattern
    let guard ← optional (eatName "when") expr
    let _ ← expectPunct .colon
    pure (some (.case pattern guard))
  else if ← atDefaultLabel then
    skip
    skip
    pure (some .otherwise)
  else pure none

def sectionStmt (self : Parser Stmt) : Parser (Option Stmt) := do
  let isCase ← atWord "case"
  let isDefault ← atDefaultLabel
  let isClose ← atPunct .rBrace
  if isCase || isDefault || isClose then pure none
  else if ← atEnd then unexpected (.punct .rBrace)
  else some <$> self

def switchSection (self : Parser Stmt) : Parser SwitchSection := do
  let start ← here
  let labels ← many switchLabel
  if labels.isEmpty then unexpected .caseLabel
  else
    let stmts ← many (sectionStmt self)
    let span ← spanFrom start
    pure { labels, stmts, span }

def switchOn (self : Parser Stmt) : Parser Unplaced := do
  skip
  let scrutinee ← condition
  let _ ← expectPunct .lBrace
  let sections ← many (do
    if ← eatPunct .rBrace then pure none else some <$> switchSection self)
  pure (.switchOn · scrutinee sections)

def caught : Parser (TypeExpr × Option String) := do
  let type ← type
  let name ← optional atIdent expectIdent
  let _ ← expectPunct .rParen
  pure (type, name)

def catchClause (self : Parser Stmt) : Parser CatchClause := do
  let exception ← optional (eatPunct .lParen) caught
  let filter ← optional (eatName "when") condition
  let body ← block self
  pure { type := exception.map Prod.fst, name := exception.bind Prod.snd, filter, body }

def tryCatch (self : Parser Stmt) : Parser Unplaced := do
  skip
  let body ← block self
  let catches ← many (optional (eatWord "catch") (catchClause self))
  let last ← optional (eatWord "finally") (block self)
  if catches.isEmpty && last.isNone then unexpected .handler
  else pure (.tryCatch · body catches last)

def usingDecl : Parser LocalDecl := do
  let start ← here
  let type ← type
  let isName ← atIdent
  let isInit ← punctAt 1 .eq
  if isName && isInit then localDeclAfter type start false true else unexpected .declaration

def usingStmt (self : Parser Stmt) : Parser Unplaced := do
  skip
  if ← eatPunct .lParen then
    let decl ← speculate usingDecl
    let value ← optional (pure decl.isNone) expr
    let _ ← expectPunct .rParen
    let body ← self
    pure (.usingBlock · decl value body)
  else
    let decl ← localDecl false true
    let _ ← expectPunct .semi
    pure (.declare · decl)

def ifElse (self : Parser Stmt) : Parser Unplaced := do
  skip
  let cond ← condition
  let thenBranch ← self
  let elseBranch ← optional (eatWord "else") self
  pure (.ifElse · cond thenBranch elseBranch)

def whileLoop (self : Parser Stmt) : Parser Unplaced := do
  skip
  let cond ← condition
  let body ← self
  pure (.whileLoop · cond body)

def doWhile (self : Parser Stmt) : Parser Unplaced := do
  skip
  let body ← self
  let _ ← expectWord "while"
  let cond ← condition
  let _ ← expectPunct .semi
  pure (.doWhile · body cond)

def lock (self : Parser Stmt) : Parser Unplaced := do
  skip
  let target ← condition
  let body ← self
  pure (.lock · target body)

def fixedPointer (self : Parser Stmt) : Parser Unplaced := do
  skip
  let _ ← expectPunct .lParen
  let decl ← localDecl false false
  let _ ← expectPunct .rParen
  let body ← self
  pure (.fixedPointer · decl body)

/-- Parse a statement that a reserved word starts, if the word starts one. -/
def wordStmt (self : Parser Stmt) (text : String) : Parser (Option Unplaced) := do
  let braceFollows ← punctAt 1 .lBrace
  let parenFollows ← punctAt 1 .lParen
  match text with
  | "if" => some <$> ifElse self
  | "while" => some <$> whileLoop self
  | "do" => some <$> doWhile self
  | "for" => some <$> forLoop self
  | "foreach" => some <$> forEach self
  | "switch" => some <$> switchOn self
  | "return" =>
    skip
    let value ← valueAndSemi
    pure (some (.returning · value))
  | "break" =>
    skip
    let _ ← expectPunct .semi
    pure (some .breaking)
  | "continue" =>
    skip
    let _ ← expectPunct .semi
    pure (some .continuing)
  | "goto" => fail (.refused .gotoStatement)
  | "lock" => some <$> lock self
  | "try" => some <$> tryCatch self
  | "throw" =>
    skip
    let value ← valueAndSemi
    pure (some (.throwing · value))
  | "using" => some <$> usingStmt self
  | "checked" | "unchecked" =>
    if braceFollows then
      skip
      let body ← block self
      pure (some (.checkedBlock · (text == "unchecked") body))
    else pure none
  | "unsafe" =>
    if braceFollows then
      skip
      let body ← block self
      pure (some (.unsafeBlock · body))
    else
      let function ← localFunction self
      pure (some (.localFunction · function))
  | "fixed" => if parenFollows then some <$> fixedPointer self else pure none
  | "const" =>
    skip
    let decl ← localDecl true false
    let _ ← expectPunct .semi
    pure (some (.declare · decl))
  | "static" | "extern" =>
    let function ← localFunction self
    pure (some (.localFunction · function))
  | _ => pure none

def atYield : Parser Bool := do
  let isYield ← atName "yield"
  let isReturn ← wordAt 1 "return"
  let isBreak ← wordAt 1 "break"
  pure (isYield && (isReturn || isBreak))

def yielding : Parser Unplaced := do
  skip
  let word ← bump
  let value ← optional (pure (word.kind == .word "return")) expr
  let _ ← expectPunct .semi
  pure (.yielding · value)

def atAsyncFunction : Parser Bool := do
  let isAsync ← atName "async"
  let goesOn ← nameLikeAt 1
  let isInit ← punctAt 2 .eq
  pure (isAsync && goesOn && !isInit)

/-- Parse a statement that no reserved word starts. -/
def plainStmt (self : Parser Stmt) : Parser Unplaced := do
  if ← atYield then yielding
  else if ← atAsyncFunction then
    let function ← localFunction self
    pure (.localFunction · function)
  else
    match ← speculate (declaration self) with
    | some stmt => pure stmt
    | none =>
      let value ← expr
      let _ ← expectPunct .semi
      pure (.expr · value)

/-- Parse a statement of any kind, without its place. -/
def anyStmt (self : Parser Stmt) : Parser Unplaced := do
  match ← kind with
  | .punct .lBrace =>
    let body ← block self
    pure (.block · body)
  | .punct .semi =>
    skip
    pure .empty
  | .word text =>
    match ← wordStmt self text with
    | some stmt => pure stmt
    | none => plainStmt self
  | _ => plainStmt self

def placedStmt (self : Parser Stmt) : Parser Stmt := do
  let start ← here
  let stmt ← anyStmt self
  let span ← spanFrom start
  pure (stmt span)

def stmtOn : Nat → Parser Stmt
  | 0 => fail .tooDeep
  | fuel + 1 => fun tokens => nested (placedStmt (stmtOn fuel)) tokens

/-- Parse a statement. No statement nests deeper than the limit allows. -/
def stmt : Parser Stmt := stmtOn (maxNesting + 2)

end Shaderlift.Parser
