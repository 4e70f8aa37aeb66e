import Shaderlift.Source.Token

/-!
Errors of reading source text: what went wrong and where. The wording of every cause is in
`SyntaxFault.message`.
-/

namespace Shaderlift

def maxSourceBytes : Nat := 4 * 1024 * 1024

def maxNesting : Nat := 200

/-- What the grammar asks for at a place. -/
inductive Expectation where
  | punct (mark : Punct)
  | word (text : String)
  | identifier
  | endOfInput
  | typeName
  | typeDeclaration
  | expression
  | castOperand
  | callAfterTypeArguments
  | argumentsOrInitializer
  | pattern
  | declaration
  | caseLabel
  | handler
  deriving DecidableEq, Repr

def Expectation.phrase : Expectation → String
  | .punct mark => "`" ++ mark.spelling ++ "`"
  | .word text => "`" ++ text ++ "`"
  | .identifier => "an identifier"
  | .endOfInput => "end of input"
  | .typeName => "a type"
  | .typeDeclaration => "a type declaration"
  | .expression => "an expression"
  | .castOperand => "a cast operand"
  | .callAfterTypeArguments => "`(` after type arguments"
  | .argumentsOrInitializer => "`(` or an initializer"
  | .pattern => "a pattern"
  | .declaration => "a declaration"
  | .caseLabel => "`case` or `default`"
  | .handler => "`catch` or `finally`"

/-- Constructs that are recognised only to be refused. -/
inductive Refused where
  | lambda
  | baseAccess
  | primaryConstructor
  | enumOrDelegate
  | memberDeclaration (found : TokenKind)
  | finalizer
  | operatorDeclaration
  | indexerDeclaration
  | anonymousMethod
  | switchExpression
  | outVariable
  | gotoStatement
  deriving DecidableEq, Repr

def Refused.phrase : Refused → String
  | .lambda => "lambda expressions are"
  | .baseAccess => "`base` access is"
  | .primaryConstructor => "primary constructors are"
  | .enumOrDelegate => "enum and delegate declarations are"
  | .memberDeclaration found => found.describe ++ " declarations are"
  | .finalizer => "finalizers are"
  | .operatorDeclaration => "operator declarations are"
  | .indexerDeclaration => "indexer declarations are"
  | .anonymousMethod => "anonymous methods are"
  | .switchExpression => "switch expressions are"
  | .outVariable => "out variable declarations are"
  | .gotoStatement => "goto statements are"

/-- The causes of a syntax error. -/
inductive SyntaxFault where
  | sourceTooLong (bytes : Nat)
  | unterminatedComment
  | unterminatedEscape
  | invalidEscape
  | unterminatedString
  | unterminatedVerbatim
  | emptyCharacter
  | unterminatedCharacter
  | strayCharacter (c : Char)
  | expected (what : Expectation) (found : TokenKind)
  | refused (what : Refused)
  | tooDeep
  | shortTuple
  | missingBody
  | invalidInteger (text : String)
  deriving DecidableEq, Repr

def SyntaxFault.message : SyntaxFault → String
  | .sourceTooLong bytes =>
    "source length " ++ toString bytes ++ " exceeds maximum " ++ toString maxSourceBytes ++ " bytes"
  | .unterminatedComment => "unterminated block comment"
  | .unterminatedEscape => "unterminated escape sequence"
  | .invalidEscape => "invalid unicode escape"
  | .unterminatedString => "unterminated string literal"
  | .unterminatedVerbatim => "unterminated verbatim string literal"
  | .emptyCharacter => "empty or unterminated character literal"
  | .unterminatedCharacter => "unterminated character literal"
  | .strayCharacter c => "unexpected character " ++ Text.quotedChar c
  | .expected what found => "expected " ++ what.phrase ++ ", found " ++ found.describe
  | .refused what => what.phrase ++ " not supported"
  | .tooDeep => "nesting depth exceeds maximum of " ++ toString maxNesting
  | .shortTuple => "tuple types need at least two elements"
  | .missingBody => "local functions need a body"
  | .invalidInteger text => "invalid integer literal `" ++ text ++ "`"

/-- A syntax error: its cause and its place. -/
structure SyntaxError where
  fault : SyntaxFault
  span : Span
  deriving DecidableEq, Repr

def SyntaxError.render (error : SyntaxError) : String :=
  "syntax error at " ++ error.span.render ++ ": " ++ error.fault.message

end Shaderlift
