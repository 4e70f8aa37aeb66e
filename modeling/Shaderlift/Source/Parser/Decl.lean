import Shaderlift.Source.Parser.Stmt
import Shaderlift.Source.Tokens
import Shaderlift.Source.Tree.Decl

/-!
Parsing of declarations and of whole source texts. Types and namespaces may nest without limit; each
level reads a token, so the number of tokens bounds the recursion. Generic constraints are not part of
the language.
-/

namespace Shaderlift

namespace Parser

/-- Parse a modifier if one is next. A contextual one counts only before another word. -/
def modifier : Parser (Option Modifier) := do
  let next ← kindAt 1
  let found :=
    match ← kind with
    | .word "public" => some Modifier.isPublic
    | .word "private" => some .isPrivate
    | .word "protected" => some .isProtected
    | .word "internal" => some .isInternal
    | .word "static" => some .isStatic
    | .word "readonly" => some .isReadonly
    | .word "const" => some .isConst
    | .word "unsafe" => if next == .punct .lBrace then none else some .isUnsafe
    | .word "extern" => some .isExternal
    | .word "volatile" => some .isVolatile
    | .word "new" => some .isNew
    | .word "override" => some .isOverride
    | .word "virtual" => some .isVirtual
    | .word "abstract" => some .isAbstract
    | .word "sealed" => some .isSealed
    | .word "fixed" => if next == .punct .lParen then none else some .isFixed
    | .word "ref" => if next == .word "struct" || next == .ident "partial" then some .isRef else none
    | .ident name =>
      if next.isNameLike then
        match name with
        | "partial" => some .isPartial
        | "async" => some .isAsync
        | "required" => some .isRequired
        | "file" => some .isFile
        | _ => none
      else none
    | _ => none
  if found.isSome then skip
  pure found

def modifiers : Parser (List Modifier) := many modifier

def typeKind : Parser TypeKind := do
  if ← eatWord "struct" then pure .struct
  else if ← eatWord "class" then pure .classType
  else if ← eatWord "interface" then pure .interfaceType
  else if ← eatName "record" then
    if ← eatWord "struct" then pure .recordStruct
    else
      let _ ← eatWord "class"
      pure .record
  else
    match ← kind with
    | .word "enum" | .word "delegate" => fail (.refused .enumOrDelegate)
    | _ => unexpected .typeDeclaration

def fieldDeclarator (name : String) (start : Span) : Parser Declarator := do
  let fixedSize ← optional (eatPunct .lBracket) (do
    let size ← expr
    let _ ← expectPunct .rBracket
    pure size)
  let init ← optional (eatPunct .eq) variableInit
  let span ← spanFrom start
  pure { name, fixedSize, init, span }

def nextFieldDeclarator : Parser Declarator := do
  let (name, start) ← expectIdentSpan
  fieldDeclarator name start

def fieldDeclarators (name : String) (start : Span) : Parser (List Declarator) := do
  let first ← fieldDeclarator name start
  let rest ← many (optional (eatPunct .comma) nextFieldDeclarator)
  pure (first :: rest)

/-- Parse an accessor of a property; its attributes and modifiers are dropped. -/
def accessor : Parser Accessor := do
  let start ← here
  let _ ← attributes
  let _ ← modifiers
  let name ← expectIdent
  let body ← methodBody stmt
  let span ← spanFrom start
  pure { name, body, span }

def accessors : Parser (List Accessor) := do
  let _ ← expectPunct .lBrace
  many (do if ← eatPunct .rBrace then pure none else some <$> accessor)

def endedBySemi {α : Type} (value : Parser α) : Parser α := do
  let value ← value
  let _ ← expectPunct .semi
  pure value

def property (attributes : List Attr) (modifiers : List Modifier) (type : TypeExpr) (name : String)
    (start : Span) : Parser PropertyDecl := do
  if ← eatPunct .arrow then
    let value ← endedBySemi expr
    let span ← spanFrom start
    pure { attributes, modifiers, type, name, accessors := [], exprBody := some value, init := none, span }
  else
    let accessors ← accessors
    let init ← optional (eatPunct .eq) (endedBySemi variableInit)
    let span ← spanFrom start
    pure { attributes, modifiers, type, name, accessors, exprBody := none, init, span }

/-- A member's name and the interface named before it. -/
structure MemberName where
  name : String
  qualifier : Option (String × List TypeExpr)

/-- Parse one more segment of a member's name. The segments before the last name an interface. -/
def memberSegment (member : MemberName) : Parser (Option MemberName) := do
  let isGeneric ← atPunct .lt
  let qualifies ← followedBy typeArgs (atPunct .dot)
  let isDot ← atPunct .dot
  if isDot || (isGeneric && qualifies) then
    let args ← optional (pure !isDot) typeArgs
    let _ ← expectPunct .dot
    let full :=
      match member.qualifier with
      | some (outer, _) => Text.dotted outer member.name
      | none => member.name
    let name ← expectIdent
    pure (some ⟨name, some (full, args.getD [])⟩)
  else pure none

def atTypeDecl : Parser Bool := do
  let isRecord ← atName "record"
  let next ← kindAt 1
  match ← kind with
  | .word "struct" | .word "class" | .word "interface" => pure true
  | _ => pure (isRecord && (next.isIdent || next == .word "struct" || next == .word "class"))

def atConstructor (typeName : String) : Parser Bool := do
  let isName ← atName typeName
  let parenFollows ← punctAt 1 .lParen
  pure (isName && parenFollows)

def constructorCall : Parser Unit := do
  skip
  let _ ← parenArguments

def constructorDecl (modifiers : List Modifier) (name : String) (start : Span) :
    Parser ConstructorDecl := do
  skip
  let params ← params
  let _ ← optional (eatPunct .colon) constructorCall
  let body ← methodBody stmt
  let span ← spanFrom start
  pure { modifiers, name, params, body, span }

def refuseMember : Parser Unit := do
  match ← kind with
  | .word text =>
    if ["enum", "delegate", "event", "implicit", "explicit"].contains text then
      fail (.refused (.memberDeclaration (.word text)))
  | .punct .tilde => fail (.refused .finalizer)
  | _ => pure ()

def refuseOperator : Parser Unit := do
  match ← kind with
  | .word "operator" => fail (.refused .operatorDeclaration)
  | .word "this" => fail (.refused .indexerDeclaration)
  | _ => pure ()

def typedMember (attributes : List Attr) (modifiers : List Modifier) (start : Span) : Parser Member := do
  let type ← type
  refuseOperator
  let (first, nameSpan) ← expectIdentSpan
  let ⟨name, qualifier⟩ ← extend memberSegment ⟨first, none⟩
  match ← kind with
  | .punct .lParen | .punct .lt =>
    let typeParams ← typeParams
    let params ← params
    let body ← methodBody stmt
    let span ← spanFrom start
    let explicitInterface := qualifier.map fun (full, args) => TypeExpr.named nameSpan full args
    let header : MethodHeader :=
      { attributes, modifiers, returnType := type, explicitInterface, name, typeParams, params, span }
    pure (.method { header, body })
  | .punct .lBrace | .punct .arrow => .property <$> property attributes modifiers type name start
  | _ =>
    let nameStart ← prevSpan
    let declarators ← fieldDeclarators name nameStart
    let _ ← expectPunct .semi
    let span ← spanFrom start
    pure (.field { attributes, modifiers, type, declarators, span })

/-- The attributes, modifiers and start of a declaration. -/
structure DeclStart where
  attributes : List Attr
  modifiers : List Modifier
  start : Span

def declStart : Parser DeclStart := do
  let start ← here
  let attributes ← attributes
  let modifiers ← modifiers
  pure { attributes, modifiers, start }

def member (typeDecl : DeclStart → Parser TypeDecl) (typeName : String) : Parser Member := do
  let head ← declStart
  if ← atTypeDecl then .type <$> typeDecl head
  else
    refuseMember
    if ← atConstructor typeName then
      .constructor <$> constructorDecl head.modifiers typeName head.start
    else typedMember head.attributes head.modifiers head.start

def refusePrimaryConstructor : Parser Unit := do
  if ← atPunct .lParen then fail (.refused .primaryConstructor)

def typeDeclWith (nested : DeclStart → Parser TypeDecl) (enclosingNamespace : Option String)
    (head : DeclStart) : Parser TypeDecl := do
  let kind ← typeKind
  let name ← expectIdent
  let typeParams ← typeParams
  refusePrimaryConstructor
  let bases ← optional (eatPunct .colon) (commaList type)
  let _ ← expectPunct .lBrace
  let members ← many (beforeBrace (do
    if ← eatPunct .semi then pure none else some <$> member nested name))
  let _ ← eatPunct .semi
  let span ← spanFrom head.start
  let header : TypeHeader :=
    { attributes := head.attributes, modifiers := head.modifiers, kind, name, typeParams,
      bases := bases.getD [], enclosingNamespace, span }
  pure { header, members := members.filterMap id }

def typeDeclOn (enclosingNamespace : Option String) : Nat → DeclStart → Parser TypeDecl
  | 0 => fun _ => fail .tooDeep
  | fuel + 1 => fun head tokens =>
    typeDeclWith (typeDeclOn enclosingNamespace fuel) enclosingNamespace head tokens

def typeDecl (enclosingNamespace : Option String) (head : DeclStart) : Parser TypeDecl :=
  fun tokens => typeDeclOn enclosingNamespace (tokens.size + 1) head tokens

def usingAlias : Parser (Option String) := do
  let isName ← atIdent
  let isAlias ← punctAt 1 .eq
  if isName && isAlias then
    let name ← expectIdent
    skip
    pure (some name)
  else pure none

def usingDirective : Parser UsingDirective := do
  let start ← expectWord "using"
  let isStatic ← eatWord "static"
  let aliasName ← usingAlias
  let target ← type
  let _ ← expectPunct .semi
  let span ← spanFrom start
  pure { aliasName, isStatic, target, span }

/-- Step over the word `global` before `using`. -/
def skipGlobal : Parser Unit := do
  let isGlobal ← atName "global"
  let usingFollows ← wordAt 1 "using"
  if isGlobal && usingFollows then skip

/-- Parse the rest of a namespace, or of the text outside any, on fuel. A namespace that a semicolon ends
holds all that follows. -/
def namespaceOn : Nat → Option String → Bool → SourceUnit → Parser SourceUnit
  | 0, _, _, _ => fail .tooDeep
  | fuel + 1, outer, braced, unit => do
    let closes ← if braced then eatPunct .rBrace else pure false
    let ends ← atEnd
    if closes then pure unit
    else if ends then if braced then unexpected (.punct .rBrace) else pure unit
    else
      skipGlobal
      if ← atWord "using" then
        let directive ← usingDirective
        namespaceOn fuel outer braced { unit with usings := unit.usings ++ [directive] }
      else if ← eatWord "namespace" then
        let name ← qualifiedName
        let full :=
          match outer with
          | some outer => Text.dotted outer name
          | none => name
        if ← eatPunct .semi then namespaceOn fuel (some full) braced unit
        else
          let _ ← expectPunct .lBrace
          let unit ← namespaceOn fuel (some full) true unit
          namespaceOn fuel outer braced unit
      else if ← eatPunct .semi then namespaceOn fuel outer braced unit
      else
        let head ← declStart
        let decl ← typeDecl outer head
        namespaceOn fuel outer braced { unit with types := unit.types ++ [decl] }

def sourceUnit : Parser SourceUnit := do
  let tokens ← read
  namespaceOn (tokens.size + 1) none false { usings := [], types := [] }

def whole {α : Type} (parser : Parser α) : Parser α := do
  let value ← parser
  expectEnd
  pure value

def run {α : Type} (parser : Parser α) (source : String) : Except SyntaxError α := do
  let tokens ← tokenize source
  let (value, _) ← parser tokens ⟨0, 0⟩
  pure value

end Parser

def SourceUnit.parse (source : String) : Except SyntaxError SourceUnit :=
  Parser.run Parser.sourceUnit source

def Expr.parse (source : String) : Except SyntaxError Expr :=
  Parser.run (Parser.whole Parser.expr) source

def Stmt.parse (source : String) : Except SyntaxError Stmt :=
  Parser.run (Parser.whole Parser.stmt) source

end Shaderlift
