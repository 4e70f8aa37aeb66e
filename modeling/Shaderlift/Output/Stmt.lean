import Shaderlift.Types.Value

/-!
Statements and functions of the output, with expressions already written.
-/

namespace Shaderlift

mutual

/-- A statement of the output. -/
inductive OutStmt where
  | block (stmts : List OutStmt)
  | line (text : String)
  | ifElse (cond : String) (thenBranch : OutStmt) (elseBranch : Option OutStmt)
  | whileLoop (cond : String) (body : OutStmt)
  | doWhile (body : OutStmt) (cond : String)
  | forLoop (init cond step : String) (body : OutStmt)
  | switchOn (scrutinee : String) (sections : List OutSection)
  | returning (value : Option String)

/-- A section of a switch with its written labels. -/
structure OutSection where
  labels : List String
  body : List OutStmt

end

instance : Inhabited OutStmt := ⟨.line ""⟩

/-- A function of the output, with the lines before its signature. -/
structure OutFunction where
  name : String
  returnType : String
  params : List String
  attributes : List String
  body : List OutStmt
  deriving Inhabited

def OutFunction.signature (function : OutFunction) : String :=
  function.returnType ++ " " ++ function.name ++ "(" ++ Text.joinWith ", " function.params ++ ")"

/-- A static value of the output. -/
structure StaticDecl where
  name : String
  type : ValueType
  isConstant : Bool
  init : Option String
  deriving DecidableEq, Repr, Inhabited

def StaticDecl.declaration (decl : StaticDecl) : String :=
  let declared := decl.type.spelling ++ " " ++ decl.name ++ decl.type.suffix
  match decl.init with
  | some init =>
    if decl.isConstant then "static const " ++ declared ++ " = " ++ init ++ ";"
    else "static " ++ declared ++ " = " ++ init ++ ";"
  | none => "static " ++ declared ++ ";"

end Shaderlift
