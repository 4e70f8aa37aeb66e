import Shaderlift.Source.Parser.Core
import Shaderlift.Source.Tree.Type

/-!
Parsing of types. Every type counts one level of nesting, so the nesting limit bounds the recursion.
-/

namespace Shaderlift.Parser

def nullableFollowers : List Punct :=
  [.gt, .comma, .rParen, .rBracket, .lBracket, .semi, .eq]

/-- Decide whether the `?` that is next belongs to a type rather than to a conditional expression. -/
def nullableFollows : Parser Bool := do
  match ← kindAt 1 with
  | .ident _ => pure true
  | .punct mark => pure (nullableFollowers.contains mark)
  | _ => pure false

def typeSuffix (type : TypeExpr) : Parser (Option TypeExpr) := do
  match ← kind with
  | .punct .question =>
    if ← nullableFollows then
      skip
      let span ← spanFrom type.span
      pure (some (.nullable span type))
    else pure none
  | .punct .star =>
    skip
    let span ← spanFrom type.span
    pure (some (.pointer span type))
  | .punct .lBracket =>
    let closes ← punctAt 1 .rBracket
    let continues ← punctAt 1 .comma
    if closes || continues then
      skip
      let commas ← many (optional (eatPunct .comma) (pure ()))
      let _ ← expectPunct .rBracket
      let span ← spanFrom type.span
      pure (some (.array span type (commas.length + 1)))
    else pure none
  | _ => pure none

def typeArgsWith (type : Parser TypeExpr) : Parser (List TypeExpr) := do
  let _ ← expectPunct .lt
  let args ← commaList type
  let _ ← expectPunct .gt
  pure args

/-- Parse one more segment of a named type. Only the arguments of the last segment are kept. -/
def nameSegmentWith (type : Parser TypeExpr) (named : String × List TypeExpr) :
    Parser (Option (String × List TypeExpr)) := do
  let isDot ← atPunct .dot
  let isPart ← identAt 1
  if isDot && isPart then
    skip
    let part ← expectIdent
    let args ← optional (atPunct .lt) (typeArgsWith type)
    pure (some (Text.dotted named.1 part, args.getD []))
  else pure none

def namedTypeWith (type : Parser TypeExpr) : Parser TypeExpr := do
  let (first, start) ← expectIdentSpan
  let qualified ← optional (eatPunct .colonColon) expectIdent
  let args ← optional (atPunct .lt) (typeArgsWith type)
  let (name, args) ← extend (nameSegmentWith type) (qualified.getD first, args.getD [])
  let span ← spanFrom start
  pure (.named span name args)

def tupleItemWith (type : Parser TypeExpr) : Parser TypeExpr := do
  let item ← type
  let _ ← eatIf atIdent
  pure item

def tupleTypeWith (type : Parser TypeExpr) : Parser TypeExpr := do
  let start ← expectPunct .lParen
  let items ← commaList (tupleItemWith type)
  let _ ← expectPunct .rParen
  if items.length < 2 then fail .shortTuple
  else
    let span ← spanFrom start
    pure (.tuple span items)

/-- Step over one token before a closing bracket. -/
def skipInBrackets : Parser (Option Unit) := do
  if ← eatPunct .rBracket then pure none
  else if ← atEnd then unexpected (.punct .rBracket)
  else
    skip
    pure (some ())

/-- Step over the calling convention of a function pointer. -/
def skipConvention : Parser Unit := do
  let managed ← eatName "managed"
  let unmanaged ← if managed then pure true else eatName "unmanaged"
  if unmanaged then
    if ← eatPunct .lBracket then
      let _ ← many skipInBrackets
      pure ()

/-- Parse a type in the signature of a function pointer; how it is passed is dropped. -/
def signatureItemWith (type : Parser TypeExpr) : Parser TypeExpr := do
  let byRef ← eatWord "ref"
  let byOut ← if byRef then pure true else eatWord "out"
  let _ ← if byOut then pure true else eatWord "in"
  type

def functionPointerWith (type : Parser TypeExpr) : Parser TypeExpr := do
  let start ← expectWord "delegate"
  let _ ← expectPunct .star
  skipConvention
  let _ ← expectPunct .lt
  let signature ← commaList (signatureItemWith type)
  let _ ← expectPunct .gt
  let span ← spanFrom start
  pure (.functionPointer span signature)

def plainTypeWith (type : Parser TypeExpr) : Parser TypeExpr := do
  let token ← peek
  match token.kind with
  | .punct .lParen => tupleTypeWith type
  | .word text =>
    let starFollows ← punctAt 1 .star
    if text == "delegate" && starFollows then functionPointerWith type
    else if token.kind.isTypeWord then
      skip
      pure (.word text token.span)
    else unexpected .typeName
  | _ => namedTypeWith type

def typeWith (type : Parser TypeExpr) : Parser TypeExpr := do
  let start ← here
  if ← eatWord "ref" then
    let isReadonly ← eatWord "readonly"
    let target ← type
    pure (.byRef (start.through target.span) isReadonly target)
  else
    let plain ← plainTypeWith type
    extend typeSuffix plain

def typeOn : Nat → Parser TypeExpr
  | 0 => fail .tooDeep
  | fuel + 1 => fun tokens => nested (typeWith (typeOn fuel)) tokens

/-- Parse a type. No type nests deeper than the limit allows. -/
def type : Parser TypeExpr := typeOn (maxNesting + 2)

def typeArgs : Parser (List TypeExpr) := typeArgsWith type

end Shaderlift.Parser
