import Mathlib.Data.List.Forall2
import Shaderlift.Proofs.Lowering.Actions
import Shaderlift.Proofs.Lowering.BlankUnit
import Shaderlift.Proofs.Lowering.Jumps

/-!
# Control flow is kept

Statements are lowered one by one. `Mirrors` relates a statement of the source to one of the output with the
same control flow: the same nesting, the same branches, loops and sections, and the same returns and jumps in
the same order. A block leaves its local functions out, and where returned values are written to the output
texture a return of a value is a write followed by a bare return. Local functions become functions of their
own; `lifted` lists them in the order in which they appear in the output.

That a shader is lowered to functions that mirror its methods, one for each, is proved together with the scopes of
its variables.
-/

namespace Shaderlift

/-! ## The relation -/

/-- The text of a label of a switch section. A pattern that is no constant is written as the default. -/
inductive MirrorsLabel : SwitchLabel → String → Prop
  | constant {value : Expr} {guard : Option Expr} {text : String} :
      MirrorsLabel (.case (.constant value) guard) ("case " ++ text ++ ":")
  | pattern {pattern : Pattern} {guard : Option Expr} :
      (∀ value, pattern ≠ .constant value) → MirrorsLabel (.case pattern guard) "default:"
  | otherwise : MirrorsLabel .otherwise "default:"

mutual

/-- A statement of the output has the control flow of a statement of the source. Where returned values are
written, a return of a value is a block of the write and a bare return. A declaration is a line that is no
jump; an expression is a line that is a jump only if the expression is nothing but the name of the jump. -/
inductive Mirrors (writes : Bool) : Stmt → OutStmt → Prop
  | block {span close : Span} {list : List Stmt} {outs : List OutStmt} :
      MirrorsBlock writes list outs → Mirrors writes (.block span ⟨list, close⟩) (.block outs)
  | unsafeBlock {span close : Span} {list : List Stmt} {outs : List OutStmt} :
      MirrorsBlock writes list outs → Mirrors writes (.unsafeBlock span ⟨list, close⟩) (.block outs)
  | declare {span : Span} {decl : LocalDecl} {text : String} :
      text ∉ jumpWords → Mirrors writes (.declare span decl) (.line (text ++ ";"))
  | localFunction {span : Span} {function : MethodDecl} :
      Mirrors writes (.localFunction span function) (.line ";")
  | expr {span : Span} {value : Expr} {text : String} :
      (text ∈ jumpWords → value.isOnly text = true) → Mirrors writes (.expr span value) (.line (text ++ ";"))
  | ifElse {span : Span} {cond : Expr} {thenBranch : Stmt} {elseBranch : Option Stmt} {test : String}
      {first : OutStmt} {second : Option OutStmt} :
      Mirrors writes thenBranch first → MirrorsElse writes elseBranch second →
      Mirrors writes (.ifElse span cond thenBranch elseBranch) (.ifElse test first second)
  | whileLoop {span : Span} {cond : Expr} {body : Stmt} {test : String} {out : OutStmt} :
      Mirrors writes body out → Mirrors writes (.whileLoop span cond body) (.whileLoop test out)
  | doWhile {span : Span} {cond : Expr} {body : Stmt} {test : String} {out : OutStmt} :
      Mirrors writes body out → Mirrors writes (.doWhile span body cond) (.doWhile out test)
  | forLoop {span : Span} {init : Option ForInit} {cond : Option Expr} {step : List Expr} {body : Stmt}
      {start test steps : String} {out : OutStmt} :
      Mirrors writes body out →
      Mirrors writes (.forLoop span init cond step body) (.forLoop start test steps out)
  | switchOn {span : Span} {scrutinee : Expr} {sections : List SwitchSection} {subject : String}
      {outs : List OutSection} :
      MirrorsSections writes sections outs →
      Mirrors writes (.switchOn span scrutinee sections) (.switchOn subject outs)
  | returning {span : Span} : Mirrors writes (.returning span none) (.returning none)
  | value {span : Span} {value : Expr} {text : String} :
      writes = false → Mirrors writes (.returning span (some value)) (.returning (some text))
  | write {span : Span} {value : Expr} {text : String} :
      writes = true → Mirrors writes (.returning span (some value))
        (.block [.line (outputTexture ++ "[ThreadIds.xy] = " ++ text ++ ";"), .returning none])
  | breaking {span : Span} : Mirrors writes (.breaking span) (.line "break;")
  | continuing {span : Span} : Mirrors writes (.continuing span) (.line "continue;")
  | empty {span : Span} : Mirrors writes (.empty span) (.line ";")

/-- A branch that may be left out is left out in both. -/
inductive MirrorsElse (writes : Bool) : Option Stmt → Option OutStmt → Prop
  | none : MirrorsElse writes none none
  | some {stmt : Stmt} {out : OutStmt} : Mirrors writes stmt out → MirrorsElse writes (some stmt) (some out)

/-- The statements of a block, without its local functions. -/
inductive MirrorsBlock (writes : Bool) : List Stmt → List OutStmt → Prop
  | nil : MirrorsBlock writes [] []
  | function {span : Span} {function : MethodDecl} {rest : List Stmt} {outs : List OutStmt} :
      MirrorsBlock writes rest outs → MirrorsBlock writes (.localFunction span function :: rest) outs
  | cons {stmt : Stmt} {rest : List Stmt} {out : OutStmt} {outs : List OutStmt} :
      (∀ span function, stmt ≠ .localFunction span function) → Mirrors writes stmt out →
      MirrorsBlock writes rest outs → MirrorsBlock writes (stmt :: rest) (out :: outs)

/-- The statements of a section, one by one. -/
inductive MirrorsList (writes : Bool) : List Stmt → List OutStmt → Prop
  | nil : MirrorsList writes [] []
  | cons {stmt : Stmt} {rest : List Stmt} {out : OutStmt} {outs : List OutStmt} :
      Mirrors writes stmt out → MirrorsList writes rest outs → MirrorsList writes (stmt :: rest) (out :: outs)

/-- The sections of a switch, one by one, label by label. -/
inductive MirrorsSections (writes : Bool) : List SwitchSection → List OutSection → Prop
  | nil : MirrorsSections writes [] []
  | cons {labels : List SwitchLabel} {list : List Stmt} {span : Span} {rest : List SwitchSection}
      {texts : List String} {body : List OutStmt} {outs : List OutSection} :
      List.Forall₂ MirrorsLabel labels texts → MirrorsList writes list body →
      MirrorsSections writes rest outs →
      MirrorsSections writes (⟨labels, list, span⟩ :: rest) (⟨texts, body⟩ :: outs)

end

/-- The body of a method. An expression is a line, or else the return of its value. -/
inductive MirrorsBody (writes : Bool) : MethodDecl → List OutStmt → Prop
  | block {header : MethodHeader} {list : List Stmt} {close : Span} {outs : List OutStmt} :
      MirrorsBlock writes list outs → MirrorsBody writes ⟨header, some (.block ⟨list, close⟩)⟩ outs
  | line {header : MethodHeader} {value : Expr} {out : OutStmt} :
      header.returnType.isVoid = true → Mirrors writes (.expr value.span value) out →
      MirrorsBody writes ⟨header, some (.expr value)⟩ [out]
  | value {header : MethodHeader} {value : Expr} {out : OutStmt} :
      header.returnType.isVoid = false → Mirrors writes (.returning value.span (some value)) out →
      MirrorsBody writes ⟨header, some (.expr value)⟩ [out]
  | none {header : MethodHeader} : MirrorsBody writes ⟨header, none⟩ []

/-- A function of the output stands for a method under a name: it takes as many parameters, and its body has
the control flow of the method's. -/
structure MirrorsMethod (writes : Bool) (source : String × MethodDecl) (out : OutFunction) : Prop where
  name : out.name = source.1
  arity : out.params.length = source.2.params.length
  body : MirrorsBody writes source.2 out.body

/-! ## Local functions -/

mutual

/-- List the local functions of a statement under their names in the output, inner ones before those around
them. -/
def Stmt.lifted : Stmt → List (String × MethodDecl)
  | .block _ body => body.lifted
  | .unsafeBlock _ body => body.lifted
  | .localFunction _ function => function.lifted ++ [(Reserved.identifier function.name, function)]
  | .ifElse _ _ thenBranch elseBranch => thenBranch.lifted ++ liftedStmt? elseBranch
  | .whileLoop _ _ body => body.lifted
  | .doWhile _ body _ => body.lifted
  | .forLoop _ _ _ _ body => body.lifted
  | .switchOn _ _ sections => liftedSections sections
  | _ => []

/-- List the local functions of a statement that may be left out. -/
def liftedStmt? : Option Stmt → List (String × MethodDecl)
  | some stmt => stmt.lifted
  | none => []

def liftedStmts : List Stmt → List (String × MethodDecl)
  | [] => []
  | stmt :: rest => stmt.lifted ++ liftedStmts rest

def Block.lifted : Block → List (String × MethodDecl)
  | ⟨list, _⟩ => liftedStmts list

def liftedSections : List SwitchSection → List (String × MethodDecl)
  | [] => []
  | ⟨_, list, _⟩ :: rest => liftedStmts list ++ liftedSections rest

def liftedBody : Option MethodBody → List (String × MethodDecl)
  | some (.block body) => body.lifted
  | some (.expr _) => []
  | none => []

def MethodDecl.lifted : MethodDecl → List (String × MethodDecl)
  | ⟨_, body⟩ => liftedBody body

end

namespace Lower

/-- List a method under its name in the output after its local functions. -/
def liftedMethod (program : Program) (key : MethodKey) : List (String × MethodDecl) :=
  match program.method? key with
  | some method => method.lifted ++ [(methodName program key, method)]
  | none => []

/-- Decide whether returned values are written to the output texture. -/
def writesOutput (context : LowerContext) : Bool := context.inEntry && context.program.kind == .pixel

end Lower

end Shaderlift
