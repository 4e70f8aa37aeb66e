import Shaderlift.Text.Dotted
import Shaderlift.Text.Span

/-!
Types as they are written in source text.
-/

namespace Shaderlift

/-- A written type. A name may be dotted; `var` and the reserved type words are names at this level. -/
inductive TypeExpr where
  | named (span : Span) (name : String) (args : List TypeExpr)
  | array (span : Span) (element : TypeExpr) (rank : Nat)
  | pointer (span : Span) (target : TypeExpr)
  | functionPointer (span : Span) (signature : List TypeExpr)
  | tuple (span : Span) (items : List TypeExpr)
  | byRef (span : Span) (isReadonly : Bool) (target : TypeExpr)
  | nullable (span : Span) (target : TypeExpr)
  deriving Inhabited, Repr

namespace TypeExpr

def span : TypeExpr → Span
  | .named span _ _ => span
  | .array span _ _ => span
  | .pointer span _ => span
  | .functionPointer span _ => span
  | .tuple span _ => span
  | .byRef span _ _ => span
  | .nullable span _ => span

def word (name : String) (span : Span) : TypeExpr :=
  .named span name []

def simpleName? : TypeExpr → Option String
  | .named _ name _ => some (Text.lastSegment name)
  | _ => none

def arguments : TypeExpr → List TypeExpr
  | .named _ _ args => args
  | _ => []

def isWord (type : TypeExpr) (text : String) : Bool :=
  match type with
  | .named _ name [] => name == text
  | _ => false

def isInferred (type : TypeExpr) : Bool := type.isWord "var"

def isVoid (type : TypeExpr) : Bool := type.isWord "void"

mutual

def render : TypeExpr → String
  | .named _ name [] => name
  | .named _ name (arg :: args) => name ++ "<" ++ renderList (arg :: args) ++ ">"
  | .array _ element rank => element.render ++ "[" ++ String.ofList (List.replicate (rank - 1) ',') ++ "]"
  | .pointer _ target => target.render ++ "*"
  | .functionPointer _ signature => "delegate*<" ++ renderList signature ++ ">"
  | .tuple _ items => "(" ++ renderList items ++ ")"
  | .byRef _ true target => "ref readonly " ++ target.render
  | .byRef _ false target => "ref " ++ target.render
  | .nullable _ target => target.render ++ "?"

def renderList : List TypeExpr → String
  | [] => ""
  | [type] => type.render
  | type :: types => type.render ++ ", " ++ renderList types

end

end TypeExpr

end Shaderlift
