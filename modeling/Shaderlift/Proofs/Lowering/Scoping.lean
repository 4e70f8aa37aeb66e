import Shaderlift.Proofs.Lowering.ControlFlow
import Shaderlift.Proofs.Lowering.Writing

/-!
# Scopes are kept

Variables are neither renamed nor moved. A place is an expression together with the variables that are in scope
where it stands. The places of a statement of the source are read off its tree; those of the output are read off
`Code`, which is a statement of the output before its expressions and declarations have become texts. On both
sides a variable is in scope from its own initial value to the end of the braces around it, and the sections of a
switch share their braces.

The main result of the module is `scopes_unit`: every function of the output has the control flow and the places of the
method that it stands for, in the same order, and the variables in scope at a place are those of the method under the
names that the output gives them. What stands at a place, the types of the variables and the signature can be accounted for at
the end of the run.
-/

namespace Shaderlift

open List
open Bool (and_eq_true_iff)
open Reserved (identifier)

/-! ## Places -/

/-- A value with the names of the variables that are in scope where it stands. -/
structure Scoped (α : Type) where
  names : List String
  value : α

namespace Scoped

variable {α : Type}

def bare (value : α) : Scoped α := ⟨[], value⟩

/-- Put a place into the scope of more variables. -/
def under (outer : List String) (place : Scoped α) : Scoped α := ⟨place.names ++ outer, place.value⟩

theorem under_nil (place : Scoped α) : place.under [] = place := by
  simp [under]

theorem map_under_nil (places : List (Scoped α)) : places.map (under []) = places := by
  rw [show (under [] : Scoped α → Scoped α) = id from funext under_nil, map_id]

end Scoped

/-- The initial values of names that are declared one after another. The scope of a name holds its own initial
value. -/
def initials {α : Type} : List (String × Option α) → List (Scoped α)
  | [] => []
  | (name, init) :: rest => (init.toList.map Scoped.bare ++ initials rest).map (Scoped.under [name])

/-! ## Places of the source -/

def LocalDecl.places (decl : LocalDecl) : List (Scoped Expr) :=
  initials (decl.declarators.map fun declarator => (declarator.name, declarator.init))

namespace ForInit

/-- List the variables that the start of a loop declares. -/
def names? : Option ForInit → List String
  | some (.decl declared) => declared.declarators.map Declarator.name
  | some (.exprs _) | none => []

def places? : Option ForInit → List (Scoped Expr)
  | some (.decl declared) => declared.places
  | some (.exprs values) => values.map .bare
  | none => []

end ForInit

def SwitchLabel.value? : SwitchLabel → Option Expr
  | .case (.constant val) _ => some val
  | .case _ _ | .otherwise => none

/-- List the variables that a statement declares for the statements after it. -/
def Stmt.declares : Stmt → List String
  | .declare _ decl => decl.declarators.map Declarator.name
  | _ => []

mutual

/-- List the places of a statement. A local function is a function of its own, and the statements that no shader
may contain have no places. -/
def Stmt.places : Stmt → List (Scoped Expr)
  | .block _ body => body.places
  | .unsafeBlock _ body => body.places
  | .declare _ decl => decl.places
  | .expr _ val => [.bare val]
  | .ifElse _ cond thenBranch elseBranch => .bare cond :: (thenBranch.places ++ placesOfStmt? elseBranch)
  | .whileLoop _ cond body => .bare cond :: body.places
  | .doWhile _ body cond => body.places ++ [.bare cond]
  | .forLoop _ init cond step body =>
    ForInit.places? init ++
      (cond.toList.map Scoped.bare ++ step.map Scoped.bare ++ body.places).map (.under (ForInit.names? init))
  | .switchOn _ scrutinee sections => .bare scrutinee :: placesOfSections sections
  | .returning _ val => val.toList.map .bare
  | _ => []

def placesOfStmt? : Option Stmt → List (Scoped Expr)
  | some stmt => stmt.places
  | none => []

def placesOfStmts : List Stmt → List (Scoped Expr)
  | [] => []
  | stmt :: rest => stmt.places ++ (placesOfStmts rest).map (.under stmt.declares)

def Block.places : Block → List (Scoped Expr)
  | ⟨list, _⟩ => placesOfStmts list

def placesOfSections : List SwitchSection → List (Scoped Expr)
  | [] => []
  | ⟨labels, list, _⟩ :: rest =>
    (labels.flatMap fun label => label.value?.toList).map .bare ++ placesOfStmts list ++
      (placesOfSections rest).map (.under (list.flatMap Stmt.declares))

end

def MethodBody.places? : Option MethodBody → List (Scoped Expr)
  | some (.block body) => body.places
  | some (.expr val) => [.bare val]
  | none => []

/-- List the places of a method. Its parameters are in scope everywhere in its body. -/
def MethodDecl.places (method : MethodDecl) : List (Scoped Expr) :=
  (MethodBody.places? method.body).map (.under (method.params.map Param.name))

/-! ## Declarations of the source -/

/-- List the declarations at the start of a loop. -/
def ForInit.localDecls? : Option ForInit → List LocalDecl
  | some (.decl declared) => [declared]
  | some (.exprs _) | none => []

mutual

/-- List the declarations of variables in a statement, outside local functions. -/
def Stmt.localDecls : Stmt → List LocalDecl
  | .block _ body => body.localDecls
  | .unsafeBlock _ body => body.localDecls
  | .declare _ decl => [decl]
  | .ifElse _ _ thenBranch elseBranch => thenBranch.localDecls ++ localDeclsOfStmt? elseBranch
  | .whileLoop _ _ body => body.localDecls
  | .doWhile _ body _ => body.localDecls
  | .forLoop _ init _ _ body => ForInit.localDecls? init ++ body.localDecls
  | .switchOn _ _ sections => localDeclsOfSections sections
  | _ => []

def localDeclsOfStmt? : Option Stmt → List LocalDecl
  | some stmt => stmt.localDecls
  | none => []

def localDeclsOfStmts : List Stmt → List LocalDecl
  | [] => []
  | stmt :: rest => stmt.localDecls ++ localDeclsOfStmts rest

def Block.localDecls : Block → List LocalDecl
  | ⟨list, _⟩ => localDeclsOfStmts list

def localDeclsOfSections : List SwitchSection → List LocalDecl
  | [] => []
  | ⟨_, list, _⟩ :: rest => localDeclsOfStmts list ++ localDeclsOfSections rest

end

def MethodBody.localDecls? : Option MethodBody → List LocalDecl
  | some (.block body) => body.localDecls
  | some (.expr _) | none => []

/-! ## Switches of the source -/

mutual

/-- List the labels of each switch in a statement, outside local functions. -/
def Stmt.switches : Stmt → List (List SwitchLabel)
  | .block _ body => body.switches
  | .unsafeBlock _ body => body.switches
  | .ifElse _ _ thenBranch elseBranch => thenBranch.switches ++ switchesOfStmt? elseBranch
  | .whileLoop _ _ body => body.switches
  | .doWhile _ body _ => body.switches
  | .forLoop _ _ _ _ body => body.switches
  | .switchOn _ _ sections => sections.flatMap SwitchSection.labels :: switchesOfSections sections
  | _ => []

def switchesOfStmt? : Option Stmt → List (List SwitchLabel)
  | some stmt => stmt.switches
  | none => []

def switchesOfStmts : List Stmt → List (List SwitchLabel)
  | [] => []
  | stmt :: rest => stmt.switches ++ switchesOfStmts rest

def Block.switches : Block → List (List SwitchLabel)
  | ⟨list, _⟩ => switchesOfStmts list

def switchesOfSections : List SwitchSection → List (List SwitchLabel)
  | [] => []
  | ⟨_, list, _⟩ :: rest => switchesOfStmts list ++ switchesOfSections rest

end

def MethodBody.switches? : Option MethodBody → List (List SwitchLabel)
  | some (.block body) => body.switches
  | some (.expr _) | none => []

/-! ## Places of the output -/

/-- The start of a loop of the output. -/
inductive ForCode where
  | declare (type : String) (names : List (String × Option OutExpr))
  | exprs (values : List OutExpr)

mutual

/-- A statement of the output whose expressions and declarations are not written yet. -/
inductive Code where
  | block (body : List Code)
  | line (text : String)
  | declare (type : String) (names : List (String × Option OutExpr))
  | expr (value : OutExpr)
  | ifElse (cond : OutExpr) (thenBranch : Code) (elseBranch : Option Code)
  | whileLoop (cond : OutExpr) (body : Code)
  | doWhile (body : Code) (cond : OutExpr)
  | forLoop (init : ForCode) (cond : Option OutExpr) (step : List OutExpr) (body : Code)
  | switchOn (scrutinee : OutExpr) (sections : List CodeSection)
  | returning (value : Option OutExpr)

/-- A section of a switch. A label without a value is the default. -/
structure CodeSection where
  labels : List (Option OutExpr)
  body : List Code

end

def initialText : String × Option OutExpr → String
  | (name, some init) => name ++ " = " ++ init.text
  | (name, none) => name

/-- Write a declaration without the mark at its end. -/
def declarationText (type : String) (names : List (String × Option OutExpr)) : String :=
  type ++ " " ++ Text.joinWith ", " (names.map initialText)

def labelText : Option OutExpr → String
  | some val => "case " ++ val.text ++ ":"
  | none => "default:"

theorem not_jump_declaration (type : String) (names : List (String × Option OutExpr)) :
    declarationText type names ∉ jumpWords := by
  have hBlank : isPlain " " = false := by decide
  apply not_jump_of_marked
  simp [declarationText, isPlain_append, hBlank]

namespace ForCode

def text : ForCode → String
  | .declare type names => declarationText type names
  | .exprs values => Text.joinWith ", " (values.map OutExpr.text)

/-- List the variables that the start of a loop declares. -/
def names : ForCode → List String
  | .declare _ names => names.map Prod.fst
  | .exprs _ => []

def places : ForCode → List (Scoped OutExpr)
  | .declare _ names => initials names
  | .exprs values => values.map .bare

/-- List the type that the start of a loop declares variables of. -/
def localTypes : ForCode → List String
  | .declare type _ => [type]
  | .exprs _ => []

end ForCode

namespace Code

mutual

/-- Write the expressions and declarations of a statement. Where returned values are written to the output
texture, a return of a value is a write followed by a bare return. -/
def written (writes : Bool) : Code → OutStmt
  | .block body => .block (writtenAll writes body)
  | .line text => .line text
  | .declare type names => .line (declarationText type names ++ ";")
  | .expr val => .line (val.text ++ ";")
  | .ifElse cond thenBranch elseBranch =>
    .ifElse cond.text (written writes thenBranch) (written? writes elseBranch)
  | .whileLoop cond body => .whileLoop cond.text (written writes body)
  | .doWhile body cond => .doWhile (written writes body) cond.text
  | .forLoop init cond step body =>
    .forLoop init.text ((cond.map OutExpr.text).getD "") (Text.joinWith ", " (step.map OutExpr.text))
      (written writes body)
  | .switchOn scrutinee sections => .switchOn scrutinee.text (writtenSections writes sections)
  | .returning (some val) =>
    if writes then .block [.line (outputTexture ++ "[ThreadIds.xy] = " ++ val.text ++ ";"), .returning none]
    else .returning (some val.text)
  | .returning none => .returning none

def written? (writes : Bool) : Option Code → Option OutStmt
  | some code => some (written writes code)
  | none => none

def writtenAll (writes : Bool) : List Code → List OutStmt
  | [] => []
  | code :: rest => written writes code :: writtenAll writes rest

def writtenSections (writes : Bool) : List CodeSection → List OutSection
  | [] => []
  | ⟨labels, body⟩ :: rest => ⟨labels.map labelText, writtenAll writes body⟩ :: writtenSections writes rest

end

/-- List the variables that a statement declares for the statements after it. -/
def declares : Code → List String
  | .declare _ names => names.map Prod.fst
  | _ => []

mutual

def places : Code → List (Scoped OutExpr)
  | .block body => placesOfAll body
  | .line _ => []
  | .declare _ names => initials names
  | .expr val => [.bare val]
  | .ifElse cond thenBranch elseBranch => .bare cond :: (places thenBranch ++ places? elseBranch)
  | .whileLoop cond body => .bare cond :: places body
  | .doWhile body cond => places body ++ [.bare cond]
  | .forLoop init cond step body =>
    init.places ++ (cond.toList.map Scoped.bare ++ step.map Scoped.bare ++ places body).map (.under init.names)
  | .switchOn scrutinee sections => .bare scrutinee :: placesOfSections sections
  | .returning val => val.toList.map .bare

def places? : Option Code → List (Scoped OutExpr)
  | some code => places code
  | none => []

def placesOfAll : List Code → List (Scoped OutExpr)
  | [] => []
  | code :: rest => places code ++ (placesOfAll rest).map (.under code.declares)

def placesOfSections : List CodeSection → List (Scoped OutExpr)
  | [] => []
  | ⟨labels, body⟩ :: rest =>
    (labels.flatMap Option.toList).map .bare ++ placesOfAll body ++
      (placesOfSections rest).map (.under (body.flatMap declares))

end

mutual

def localTypes : Code → List String
  | .block body => localTypesOfAll body
  | .declare type _ => [type]
  | .ifElse _ thenBranch elseBranch => localTypes thenBranch ++ localTypes? elseBranch
  | .whileLoop _ body => localTypes body
  | .doWhile body _ => localTypes body
  | .forLoop init _ _ body => init.localTypes ++ localTypes body
  | .switchOn _ sections => localTypesOfSections sections
  | .line _ | .expr _ | .returning _ => []

def localTypes? : Option Code → List String
  | some code => localTypes code
  | none => []

def localTypesOfAll : List Code → List String
  | [] => []
  | code :: rest => localTypes code ++ localTypesOfAll rest

def localTypesOfSections : List CodeSection → List String
  | [] => []
  | ⟨_, body⟩ :: rest => localTypesOfAll body ++ localTypesOfSections rest

end

mutual

def switches : Code → List (List (Option OutExpr))
  | .block body => switchesOfAll body
  | .ifElse _ thenBranch elseBranch => switches thenBranch ++ switches? elseBranch
  | .whileLoop _ body => switches body
  | .doWhile body _ => switches body
  | .forLoop _ _ _ body => switches body
  | .switchOn _ sections => sections.flatMap CodeSection.labels :: switchesOfSections sections
  | .line _ | .declare _ _ | .expr _ | .returning _ => []

def switches? : Option Code → List (List (Option OutExpr))
  | some code => switches code
  | none => []

def switchesOfAll : List Code → List (List (Option OutExpr))
  | [] => []
  | code :: rest => switches code ++ switchesOfAll rest

def switchesOfSections : List CodeSection → List (List (Option OutExpr))
  | [] => []
  | ⟨_, body⟩ :: rest => switchesOfAll body ++ switchesOfSections rest

end

end Code

/-- A parameter of the output: what stands before its name, its name, and what stands after it. -/
structure ParamCode where
  type : String
  name : String
  ending : String

def ParamCode.text (param : ParamCode) : String := param.type ++ " " ++ param.name ++ param.ending

/-- A function of the output whose expressions and declarations are not written yet. The body of an entry point
may stand inside a guard. -/
structure FunctionCode where
  params : List ParamCode
  guard : Option String
  body : List Code

namespace FunctionCode

/-- A function of the output is written from its code. -/
structure Prints (writes : Bool) (code : FunctionCode) (function : OutFunction) : Prop where
  params : code.params.map ParamCode.text = function.params
  body : function.body =
    match code.guard with
    | some test => [.ifElse test (.block (Code.writtenAll writes code.body)) none]
    | none => Code.writtenAll writes code.body

/-- List the places of a function. Its parameters are in scope everywhere in its body. -/
def places (code : FunctionCode) : List (Scoped OutExpr) :=
  (Code.placesOfAll code.body).map (.under (code.params.map ParamCode.name))

end FunctionCode

/-! ## Corresponding places -/

namespace Lower

open Track Legality

/-- An expression of the output is what an expression of the source is lowered to somewhere in a program. -/
def Yields (program : Program) (value : Expr) (out : OutExpr) : Prop :=
  ∃ context hint state, context.program = program ∧ (tree context hint value state).1 = out

/-- An expression of the output is what an expression of the source is lowered to: it reads as a jump only if the
expression does, and it can be accounted for. -/
structure Ending.Renders (ending : Ending) (value : Expr) (out : OutExpr) : Prop where
  yields : Yields ending.program value out
  reads : Reads value out
  accounts : ending.Accounts out

/-- A place of the output stands for a place of the source: the same variables are in scope, under the names that
the output gives them. -/
structure Corresponds (ending : Ending) (place : Scoped Expr) (out : Scoped OutExpr) : Prop where
  names : out.names = place.names.map identifier
  value : ending.Renders place.value out.value

/-- Places of the output stand for places of the source, one by one. -/
def Places (ending : Ending) (places : List (Scoped Expr)) (outs : List (Scoped OutExpr)) : Prop :=
  List.Forall₂ (Corresponds ending) places outs

namespace Places

variable {ending : Ending} {places others : List (Scoped Expr)} {outs rest : List (Scoped OutExpr)}

theorem nil : Places ending [] [] := List.Forall₂.nil

theorem cons_bare {val : Expr} {out : OutExpr} (hVal : ending.Renders val out)
    (hPlaces : Places ending places outs) : Places ending (.bare val :: places) (.bare out :: outs) :=
  .cons ⟨rfl, hVal⟩ hPlaces

theorem append (hFirst : Places ending places outs) (hSecond : Places ending others rest) :
    Places ending (places ++ others) (outs ++ rest) :=
  rel_append hFirst hSecond

theorem under (hPlaces : Places ending places outs) {names written : List String}
    (hNames : written = names.map identifier) :
    Places ending (places.map (.under names)) (outs.map (.under written)) := by
  rw [Places, forall₂_map_left_iff, forall₂_map_right_iff]
  refine hPlaces.imp fun place out hPlace => ⟨?_, hPlace.value⟩
  rw [Scoped.under, Scoped.under, map_append, hPlace.names, hNames]

theorem bare {values : List Expr} {written : List OutExpr} (hValues : List.Forall₂ ending.Renders values written) :
    Places ending (values.map .bare) (written.map .bare) := by
  rw [Places, forall₂_map_left_iff, forall₂_map_right_iff]
  exact hValues.imp fun _ _ hVal => ⟨rfl, hVal⟩

end Places

/-- The type of a declaration of the output is known, or it is written as in the source. The latter happens only to
declarations of no names and to aliases of shapes that no shader can have. -/
def Ending.Declares (ending : Ending) (decl : LocalDecl) (text : String) : Prop :=
  ∃ spelled, text = (if decl.isConst then "const " else "") ++ spelled ∧
    (ending.Spells spelled ∨ spelled = decl.type.render ∧
      (decl.declarators = [] ∨ ∃ shape, ending.program.meaning decl.type = .forbidden shape))

/-- The types of declarations of the output stand for those of the source, one by one. -/
abbrev Types (ending : Ending) (decls : List LocalDecl) (types : List String) : Prop :=
  List.Forall₂ ending.Declares decls types

/-- A label of the output stands for one of the source: a constant is written as such, and anything else as the
default. -/
def Ending.Labels (ending : Ending) (label : SwitchLabel) (out : Option OutExpr) : Prop :=
  Option.Rel ending.Renders label.value? out

namespace Ending.Labels

variable {ending : Ending} {label : SwitchLabel} {out : Option OutExpr} (hLabel : ending.Labels label out)

include hLabel

theorem values : List.Forall₂ ending.Renders label.value?.toList out.toList := by
  unfold Ending.Labels at hLabel
  generalize label.value? = val at hLabel ⊢
  cases hLabel with
  | none => exact .nil
  | some hVal => exact .cons hVal .nil

theorem mirrors : MirrorsLabel label (labelText out) := by
  unfold Ending.Labels SwitchLabel.value? at hLabel
  cases label with
  | otherwise =>
    cases hLabel
    exact .otherwise
  | case pattern guard =>
    cases pattern with
    | constant val =>
      cases hLabel
      exact .constant
    | _ =>
      cases hLabel
      exact .pattern fun _ => nofun

end Ending.Labels

/-- The labels of the switches of the output stand for those of the source, switch by switch and label by label. -/
abbrev Switches (ending : Ending) (switches : List (List SwitchLabel)) (outs : List (List (Option OutExpr))) : Prop :=
  List.Forall₂ (List.Forall₂ ending.Labels) switches outs

/-- A parameter of the output stands for one of the source. -/
structure Ending.Takes (ending : Ending) (param : Param) (code : ParamCode) : Prop where
  name : code.name = identifier param.name
  type : ∃ text, code.type = passingText param.passing ++ text ∧ ending.SpellsWritten param.type text

/-- A result is written from something that has a property. -/
def From {α β : Type} (write : α → β) (Good : α → Prop) (out : β) : Prop := ∃ value, write value = out ∧ Good value

/-- The names of the output stand for declarators of the source. -/
structure ScopesNames (ending : Ending) (list : List Declarator) (parts : List (String × Option OutExpr)) : Prop where
  names : parts.map Prod.fst = (list.map Declarator.name).map identifier
  places : Places ending (initials (list.map fun declarator => (declarator.name, declarator.init))) (initials parts)

/-- The start of a loop of the output stands for one of the source. -/
structure ScopesStart (ending : Ending) (init : Option ForInit) (code : ForCode) : Prop where
  names : code.names = (ForInit.names? init).map identifier
  places : Places ending (ForInit.places? init) code.places
  types : Types ending (ForInit.localDecls? init) code.localTypes

/-- A statement of the output has the control flow and the places of one of the source and declares the same
variables. -/
structure ScopesStmt (ending : Ending) (written : Stmt) (code : Code) : Prop where
  declares : code.declares = written.declares.map identifier
  places : Places ending written.places code.places
  types : Types ending written.localDecls code.localTypes
  switches : Switches ending written.switches code.switches
  mirrors : ∀ writes, Mirrors writes written (code.written writes)

/-- Statements of the output have the places of statements of the source and declare the same variables. -/
structure ScopesStmts (ending : Ending) (list : List Stmt) (codes : List Code) : Prop where
  declares : codes.flatMap Code.declares = (list.flatMap Stmt.declares).map identifier
  places : Places ending (placesOfStmts list) (Code.placesOfAll codes)
  types : Types ending (localDeclsOfStmts list) (Code.localTypesOfAll codes)
  switches : Switches ending (switchesOfStmts list) (Code.switchesOfAll codes)

variable {ending : Ending} {rest : List Stmt} {codes : List Code}

theorem ScopesStmts.nil : ScopesStmts ending [] [] := ⟨rfl, .nil, .nil, .nil⟩

theorem ScopesStmts.cons {first : Stmt} {code : Code} (hRest : ScopesStmts ending rest codes)
    (hFirst : ScopesStmt ending first code) : ScopesStmts ending (first :: rest) (code :: codes) where
  declares := by
    rw [flatMap_cons, flatMap_cons, map_append, hFirst.declares, hRest.declares]
  places := hFirst.places.append (hRest.places.under hFirst.declares)
  types := rel_append hFirst.types hRest.types
  switches := rel_append hFirst.switches hRest.switches

/-- A local function leaves no place behind. -/
theorem ScopesStmts.function {span : Span} {fn : MethodDecl} (hRest : ScopesStmts ending rest codes) :
    ScopesStmts ending (.localFunction span fn :: rest) codes where
  declares := hRest.declares
  places := by
    rw [placesOfStmts, Stmt.places, nil_append, Stmt.declares, Scoped.map_under_nil]
    · exact hRest.places
    all_goals exact nofun
  types := by
    rw [localDeclsOfStmts, Stmt.localDecls, nil_append]
    · exact hRest.types
    all_goals exact nofun
  switches := by
    rw [switchesOfStmts, Stmt.switches, nil_append]
    · exact hRest.switches
    all_goals exact nofun

/-- The body of a function of the output has the control flow and the places of the body of a method, declares
variables of the same types and has the same switches. -/
structure ScopesBody (ending : Ending) (method : MethodDecl) (codes : List Code) : Prop where
  places : Places ending (MethodBody.places? method.body) (Code.placesOfAll codes)
  types : Types ending (MethodBody.localDecls? method.body) (Code.localTypesOfAll codes)
  switches : Switches ending (MethodBody.switches? method.body) (Code.switchesOfAll codes)
  mirrors : ∀ writes, MirrorsBody writes method (Code.writtenAll writes codes)

/-- A function of the output takes the parameters of a method and has its places. -/
structure ScopesMethod (ending : Ending) (method : MethodDecl) (code : FunctionCode) : Prop where
  params : List.Forall₂ ending.Takes method.params code.params
  body : ScopesBody ending method code.body

namespace ScopesMethod

variable {ending : Ending} {method : MethodDecl} {code : FunctionCode} (hMethod : ScopesMethod ending method code)

include hMethod

theorem names : code.params.map ParamCode.name = (method.params.map Param.name).map identifier := by
  have hParams := hMethod.params
  generalize method.params = params, code.params = codes at hParams
  induction hParams with
  | nil => rfl
  | cons hParam _ ih => rw [map_cons, map_cons, map_cons, hParam.name, ih]

theorem places : Places ending method.places code.places := hMethod.body.places.under hMethod.names

end ScopesMethod

/-- A function of the output stands for a method under a name and keeps its scopes. -/
structure StandsFor (ending : Ending) (writes : Bool) (source : String × MethodDecl) (function : OutFunction) :
    Prop where
  name : function.name = source.1
  returnType : ending.SpellsWritten source.2.header.returnType function.returnType
  code : ∃ code : FunctionCode, code.guard = none ∧ code.Prints writes function ∧
    ScopesMethod ending source.2 code

theorem StandsFor.mirrorsMethod {ending : Ending} {writes : Bool} {src : String × MethodDecl} {fn : OutFunction}
    (hFn : StandsFor ending writes src fn) : MirrorsMethod writes src fn := by
  obtain ⟨code, hGuard, hPrints, hMethod⟩ := hFn.code
  refine ⟨hFn.name, ?_, ?_⟩
  · rw [← hPrints.params, length_map, hMethod.params.length_eq]
  · rw [hPrints.body, hGuard]
    exact hMethod.body.mirrors writes

/-- The functions that an action lifts keep the scopes of the given methods. -/
abbrev Scopes {α : Type} (ending : Ending) (P : Prop) (sources : List (String × MethodDecl)) (Good : α → Prop)
    (action : Lower α) : Prop :=
  Writes ending (StandsFor ending false) P sources Good action

/-! ## Parts of statements -/

section Parts

variable {ending : Ending} {P : Prop} {ctx : LowerContext} (hFair : ending.Fair) (hCtx : ending.Hosts ctx)

include hFair hCtx

theorem scopes_hinted {hint : Option ValueType} (hHint : P → ValueType.Proper? hint) (val : Expr)
    (hVal : val.all ending.test = true) :
    Scopes ending P [] (From OutExpr.text (ending.Renders val)) (hinted ctx hint val) := by
  have hTree : Scopes ending P [] ending.Accounts (tree ctx hint val) :=
    writes_exprOn hFair (pullDepth ctx.program) hCtx hHint fun _ => hVal
  refine ⟨hTree.grows, fun hP st hSound hEnd => ?_⟩
  obtain ⟨hAfter, hOut, hAdded⟩ := hTree.holds hP st hSound hEnd
  exact ⟨hAfter, ⟨_, rfl, ⟨ctx, hint, st, hCtx.program, rfl⟩, reads_tree hCtx.blank hint val st, hOut⟩,
    hAdded⟩

theorem scopes_expr (val : Expr) (hVal : val.all ending.test = true) :
    Scopes ending P [] (From OutExpr.text (ending.Renders val)) (expr ctx val) :=
  scopes_hinted hFair hCtx (fun _ => ValueType.proper?_none) val hVal

theorem scopes_exprs (values : List Expr) (hValues : allExprs ending.test values = true) :
    Scopes ending P [] (From (List.map OutExpr.text) (List.Forall₂ ending.Renders values)) (exprs ctx values) := by
  induction values generalizing P with
  | nil => exact .pure fun _ => ⟨[], rfl, .nil⟩
  | cons val rest ih =>
    obtain ⟨hVal, hRest⟩ := and_eq_true_iff.mp hValues
    refine (scopes_expr hFair hCtx val hVal).next fun text => (ih hRest).map ?_
    rintro ⟨-, out, rfl, hOut⟩ _ ⟨outs, rfl, hOuts⟩
    exact ⟨out :: outs, rfl, .cons hOut hOuts⟩

theorem scopes_expr? (val : Option Expr) (hVal : allExpr? ending.test val = true) : Scopes ending P []
      (From (fun out : Option OutExpr => (out.map OutExpr.text).getD "")
        fun out => List.Forall₂ ending.Renders val.toList out.toList) (expr? ctx val) := by
  cases val with
  | none => exact .pure fun _ => ⟨none, rfl, .nil⟩
  | some val =>
    refine (scopes_expr hFair hCtx val hVal).weaken id fun _ text hText => ?_
    obtain ⟨out, hText, hOut⟩ := hText
    exact ⟨some out, hText, .cons hOut .nil⟩

omit hCtx in
/-- A declaration whose type cannot be told is reported, so there is none at the end of a run without errors, unless
it declares nothing. -/
theorem scopes_reportUntyped (list : List Declarator) :
    Scopes ending P [] (fun _ => list = []) (reportUntyped list) := by
  refine .note (fun _ => ⟨fun _ hMem => mem_append_left _ hMem, fun _ => id, fun _ => id, fun _ => id⟩)
    (fun _ => ⟨rfl, rfl⟩) fun gathered hEnd => ?_
  cases list with
  | nil => rfl
  | cons declarator rest =>
    have hFound := hEnd.report (Diagnostic.make .uninferrableLocalType (some declarator.span) [declarator.name])
      (mem_append_right _ mem_cons_self)
    have hErrors : Report.hasErrors ending.last.gathered.report = true := any_eq_true.mpr ⟨_, hFound, rfl⟩
    rw [hFair.report] at hErrors
    cases hErrors

theorem scopes_declType (decl : LocalDecl) (hDecl : ending.test.decl decl = true) : Scopes ending P []
      (fun type => ValueType.Proper? type ∧
        (type = none → decl.declarators = [] ∨ ∃ shape, ending.program.meaning decl.type = .forbidden shape))
      (declType ctx decl) := by
  have hReport : ∀ {Q : Prop} (inferred : Option ValueType), (Q → ValueType.Proper? inferred) →
      Scopes ending Q []
        (fun type => ValueType.Proper? type ∧
          (type = none → decl.declarators = [] ∨ ∃ shape, ending.program.meaning decl.type = .forbidden shape))
        (do if inferred.isNone then reportUntyped decl.declarators
            Pure.pure inferred) := by
    intro Q inferred hInferred
    dsimp only
    split
    · exact (scopes_reportUntyped hFair _).map fun hQ _ hEmpty => ⟨hInferred hQ, fun _ => .inl hEmpty⟩
    · rename_i hKnown
      refine .pure fun hQ => ⟨hInferred hQ, fun hNone => ?_⟩
      rw [hNone] at hKnown
      exact absurd rfl hKnown
  unfold declType
  split
  · split
    · exact (writes_infer hCtx _).next fun inferred => hReport inferred And.right
    · exact hReport none fun _ => ValueType.proper?_none
  · rename_i hWritten
    rw [hCtx.program]
    refine .pure fun _ => ⟨ending.program.proper_valueType? decl.type, fun hNone => .inr ?_⟩
    exact (typed_decl.mp hDecl).resolve_left hWritten hNone

theorem scopes_declarators {type : Option ValueType} (hType : P → ValueType.Proper? type) (list : List Declarator)
    (hList : (list.all fun declarator => declarator.all ending.test) = true) :
    Scopes ending P [] (From (List.map initialText) (ScopesNames ending list)) (declarators ctx type list) := by
  induction list generalizing P with
  | nil => exact .pure fun _ => ⟨[], rfl, rfl, .nil⟩
  | cons declarator rest ih =>
    obtain ⟨hOwn, hOthers⟩ := and_eq_true_iff.mp hList
    -- What is written for the name and its initial value is known here; the rest follows in its scope.
    have hRest : ∀ {Q : Prop} (text : String), (Q → ValueType.Proper? type) →
        (Q → ∃ init : Option OutExpr, text = initialText (identifier declarator.name, init) ∧
          List.Forall₂ ending.Renders declarator.init.toList init.toList) →
        Scopes ending Q [] (From (List.map initialText) (ScopesNames ending (declarator :: rest)))
          (do inScope (·.declare declarator.name type)
              let others ← declarators ctx type rest
              pure (text :: others)) := by
      intro Q text hProper hText
      refine (Writes.inScope fun hQ scope hScope => hScope.declare declarator.name (hProper hQ)).next fun _ => ?_
      refine (ih (fun hBoth => hProper hBoth.1) hOthers).map ?_
      rintro ⟨hQ, -⟩ _ ⟨names, rfl, hNames⟩
      obtain ⟨init, rfl, hInit⟩ := hText hQ
      refine ⟨(identifier declarator.name, init) :: names, rfl, ?_, ?_⟩
      · rw [map_cons, map_cons, map_cons, hNames.names]
      · exact ((Places.bare hInit).append hNames.places).under rfl
    unfold declarators
    dsimp only
    split
    · rename_i val hVal
      rw [hVal] at hRest
      have hInit := (and_eq_true_iff.mp hOwn).2
      rw [hVal, allExpr?] at hInit
      refine (scopes_hinted hFair hCtx hType val hInit).next fun text => hRest _ (fun hBoth => hType hBoth.1) ?_
      rintro ⟨-, out, rfl, hOut⟩
      exact ⟨some out, rfl, .cons hOut .nil⟩
    · rename_i hNone
      rw [hNone] at hRest
      exact hRest _ hType fun _ => ⟨none, rfl, .nil⟩

theorem scopes_localDecl (decl : LocalDecl) (hDecl : decl.all ending.test = true) : Scopes ending P []
      (From (fun parts : String × List (String × Option OutExpr) => declarationText parts.1 parts.2)
        fun parts => ending.Declares decl parts.1 ∧ ScopesNames ending decl.declarators parts.2)
      (localDecl ctx decl) := by
  obtain ⟨hOwn, hList⟩ := and_eq_true_iff.mp hDecl
  refine (scopes_declType hFair hCtx decl hOwn).next fun type => ?_
  have hRest : ∀ {Q : Prop} (spelled : String), (Q → ValueType.Proper? type) →
      (Q → ending.Declares decl ((if decl.isConst then "const " else "") ++ spelled)) →
      Scopes ending Q []
        (From (fun parts : String × List (String × Option OutExpr) => declarationText parts.1 parts.2)
          fun parts => ending.Declares decl parts.1 ∧ ScopesNames ending decl.declarators parts.2)
        (do let parts ← declarators ctx type decl.declarators
            pure ((if decl.isConst then "const " else "") ++ spelled ++ " " ++ Text.joinWith ", " parts)) := by
    intro Q spelled hProper hSpelled
    refine (scopes_declarators hFair hCtx hProper decl.declarators hList).map ?_
    rintro hQ _ ⟨names, rfl, hNames⟩
    exact ⟨((if decl.isConst then "const " else "") ++ spelled, names), rfl, hSpelled hQ, hNames⟩
  dsimp only
  split
  · rename_i known
    refine (writes_spell fun hBoth => ValueType.proper?_some.mp hBoth.2.1).next fun text => ?_
    exact hRest text (fun hAll => hAll.1.2.1) fun hAll => ⟨text, rfl, .inl ⟨known, hAll.2⟩⟩
  · exact hRest _ (fun hBoth => hBoth.2.1) fun hBoth => ⟨_, rfl, .inr ⟨rfl, hBoth.2.2 rfl⟩⟩

theorem scopes_forInit (init : Option ForInit) (hInit : allForInit ending.test init = true) :
    Scopes ending P [] (From ForCode.text (ScopesStart ending init)) (forInit ctx init) := by
  match init with
  | none => exact .pure fun _ => ⟨.exprs [], rfl, rfl, .nil, .nil⟩
  | some (.exprs values) =>
    refine (scopes_exprs hFair hCtx values hInit).map ?_
    rintro - _ ⟨outs, rfl, hOuts⟩
    exact ⟨.exprs outs, rfl, rfl, .bare hOuts, .nil⟩
  | some (.decl decl) =>
    refine (scopes_localDecl hFair hCtx decl hInit).weaken id ?_
    rintro - _ ⟨⟨type, names⟩, hText, hType, hNames⟩
    exact ⟨.declare type names, hText, hNames.names, hNames.places, .cons hType .nil⟩

theorem scopes_label (label : SwitchLabel) (hLabel : label.all ending.test = true) :
    Scopes ending P [] (From labelText (ending.Labels label)) (Lower.label ctx label) := by
  match label with
  | .otherwise => exact .pure fun _ => ⟨none, rfl, .none⟩
  | .case pattern guard =>
    have hPat := (and_eq_true_iff.mp hLabel).1
    cases pattern with
    | constant val =>
      refine (scopes_expr hFair hCtx val (and_eq_true_iff.mp hPat).2).map ?_
      rintro - _ ⟨out, rfl, hOut⟩
      exact ⟨some out, rfl, .some hOut⟩
    | _ => exact .pure fun _ => ⟨none, rfl, .none⟩

theorem scopes_labels (list : List SwitchLabel) (hList : (list.all fun label => label.all ending.test) = true) :
    Scopes ending P [] (From (List.map labelText) (List.Forall₂ ending.Labels list)) (labels ctx list) := by
  induction list generalizing P with
  | nil => exact .pure fun _ => ⟨[], rfl, .nil⟩
  | cons label rest ih =>
    obtain ⟨hLabel, hRest⟩ := and_eq_true_iff.mp hList
    refine (scopes_label hFair hCtx label hLabel).next fun text => (ih hRest).map ?_
    rintro ⟨-, out, rfl, hOut⟩ _ ⟨outs, rfl, hOuts⟩
    exact ⟨out :: outs, rfl, .cons hOut hOuts⟩

/-- The return of a value, in the entry point or elsewhere. -/
theorem scopes_returnValue (span : Span) (val : Expr) (hVal : val.all ending.test = true) : Scopes ending P []
      (From (Code.written (writesOutput ctx)) (ScopesStmt ending (.returning span (some val))))
      (returnValue ctx val) := by
  have hCode : ∀ {out : OutExpr}, ending.Renders val out →
      ScopesStmt ending (.returning span (some val)) (.returning (some out)) := by
    refine fun hOut => ⟨rfl, .cons_bare hOut .nil, .nil, .nil, fun writes => ?_⟩
    cases writes with
    | false => exact .value rfl
    | true => exact .write rfl
  unfold returnValue
  split
  · rename_i hWrites
    refine (scopes_hinted hFair hCtx (fun _ => hCtx.pixelType) val hVal).map ?_
    rintro - _ ⟨out, rfl, hOut⟩
    exact ⟨.returning (some out), if_pos hWrites, hCode hOut⟩
  · rename_i hWrites
    refine (scopes_hinted hFair hCtx (fun _ => hCtx.returnType) val hVal).map ?_
    rintro - _ ⟨out, rfl, hOut⟩
    exact ⟨.returning (some out), if_neg hWrites, hCode hOut⟩

end Parts

/-! ## Signatures -/

section Signatures

variable {ending : Ending} {P : Prop}

theorem scopes_params (list : List Param) :
    Scopes ending P [] (From (List.map ParamCode.text) (List.Forall₂ ending.Takes list))
      (params ending.program list) := by
  induction list generalizing P with
  | nil => exact .pure fun _ => ⟨[], rfl, .nil⟩
  | cons param rest ih =>
    have hParam : Scopes ending P [] (From ParamCode.text (ending.Takes param)) (Lower.param ending.program param) := by
      refine (writes_spellWritten param.type).map fun _ type hType => ?_
      exact ⟨⟨passingText param.passing ++ type, identifier param.name, _⟩, rfl, rfl, type, rfl, hType⟩
    refine hParam.next fun text => ih.map ?_
    rintro ⟨-, first, rfl, hFirst⟩ _ ⟨others, rfl, hOthers⟩
    exact ⟨first :: others, rfl, .cons hFirst hOthers⟩

theorem scopes_functionOf (name : String) {writes : Bool} (method : MethodDecl) {body : Lower (List OutStmt)}
    {sources : List (String × MethodDecl)}
    (hBody : ∀ {Q : Prop}, Scopes ending Q sources (From (Code.writtenAll writes) (ScopesBody ending method)) body) :
    Scopes ending P sources (StandsFor ending writes (name, method))
      (functionOf ending.program name method.header body) := by
  refine (scopes_params method.params).next fun texts => ?_
  refine (writes_spellWritten method.header.returnType).next fun returnType => ?_
  refine (Writes.within (fun _ scope hScope => hScope.push.withParams ending.program _) hBody).map ?_
  rintro ⟨⟨-, params, rfl, hParams⟩, hReturnType⟩ _ ⟨codes, rfl, hCodes⟩
  exact ⟨rfl, hReturnType, ⟨params, none, codes⟩, rfl, ⟨rfl, rfl⟩, hParams, hCodes⟩

end Signatures

/-! ## Statements -/

section Stmts

variable {ending : Ending} (hFair : ending.Fair)

include hFair

set_option linter.unusedSectionVars false

mutual

/-- A statement is lowered to one with the same places, and its local functions to functions that keep theirs. -/
theorem scopes_stmt {P : Prop} {ctx : LowerContext} (hCtx : ending.Hosts ctx) (written : Stmt)
    (hWritten : written.all ending.test = true) :
    Scopes ending P written.lifted (From (Code.written (writesOutput ctx)) (ScopesStmt ending written))
      (stmt ctx written) := by
  unfold stmt Stmt.lifted
  unfold Stmt.all at hWritten
  cases written with
  | block _ body | unsafeBlock _ body =>
    have hBody := (and_eq_true_iff.mp hWritten).2
    refine (scopes_block hCtx body hBody).map ?_
    rintro - _ ⟨codes, rfl, hCodes, hMirrors⟩
    obtain ⟨list, close⟩ := body
    refine ⟨.block codes, rfl, rfl, hCodes.places, hCodes.types, hCodes.switches, fun writes => ?_⟩
    first | exact .block (hMirrors writes) | exact .unsafeBlock (hMirrors writes)
  | declare _ decl =>
    have hDecl := (and_eq_true_iff.mp hWritten).2
    refine (scopes_localDecl hFair hCtx decl hDecl).map ?_
    rintro - _ ⟨⟨type, names⟩, rfl, hType, hNames⟩
    exact ⟨.declare type names, rfl, hNames.names, hNames.places, .cons hType .nil, .nil,
      fun _ => .declare (not_jump_declaration type names)⟩
  | localFunction _ fn =>
    have hFn := (and_eq_true_iff.mp hWritten).2
    exact (scopes_lift hCtx fn hFn).map fun _ _ _ =>
      ⟨.line ";", rfl, rfl, .nil, .nil, .nil, fun _ => .localFunction⟩
  | expr _ val =>
    have hVal := (and_eq_true_iff.mp hWritten).2
    refine (scopes_expr hFair hCtx val hVal).map ?_
    rintro - _ ⟨out, rfl, hOut⟩
    exact ⟨.expr out, rfl, rfl, .cons_bare hOut .nil, .nil, .nil, fun _ => .expr hOut.reads⟩
  | ifElse _ cond thenBranch elseBranch =>
    simp only [Bool.and_eq_true] at hWritten
    obtain ⟨-, hCond, hThen, hElse⟩ := hWritten
    refine (scopes_expr hFair hCtx cond hCond).next fun _ => ?_
    refine (scopes_stmt hCtx thenBranch hThen).bind fun _ => ?_
    refine (scopes_stmt? hCtx elseBranch hElse).map ?_
    rintro ⟨⟨-, test, rfl, hTest⟩, first, rfl, hFirst⟩ _ ⟨second, rfl, hPlaces, hTypes, hSwitches, hSecond⟩
    exact ⟨.ifElse test first second, rfl, rfl, .cons_bare hTest (hFirst.places.append hPlaces),
      rel_append hFirst.types hTypes, rel_append hFirst.switches hSwitches,
      fun writes => .ifElse (hFirst.mirrors writes) (hSecond writes)⟩
  | whileLoop _ cond body =>
    simp only [Bool.and_eq_true] at hWritten
    obtain ⟨-, hCond, hBody⟩ := hWritten
    refine (scopes_expr hFair hCtx cond hCond).next fun _ => ?_
    refine (scopes_stmt hCtx body hBody).map ?_
    rintro ⟨-, test, rfl, hTest⟩ _ ⟨code, rfl, hCode⟩
    exact ⟨.whileLoop test code, rfl, rfl, .cons_bare hTest hCode.places, hCode.types, hCode.switches,
      fun writes => .whileLoop (hCode.mirrors writes)⟩
  | doWhile _ body cond =>
    simp only [Bool.and_eq_true] at hWritten
    obtain ⟨-, hCond, hBody⟩ := hWritten
    refine (scopes_stmt hCtx body hBody).before fun _ => ?_
    refine (scopes_expr hFair hCtx cond hCond).map ?_
    rintro ⟨-, code, rfl, hCode⟩ _ ⟨test, rfl, hTest⟩
    exact ⟨.doWhile code test, rfl, rfl, hCode.places.append (.cons_bare hTest .nil), hCode.types, hCode.switches,
      fun writes => .doWhile (hCode.mirrors writes)⟩
  | forLoop _ init cond step body =>
    simp only [Bool.and_eq_true] at hWritten
    obtain ⟨-, hInit, hCond, hStep, hBody⟩ := hWritten
    refine .within (fun _ _ hScope => hScope.push) ((scopes_forInit hFair hCtx init hInit).next fun _ => ?_)
    refine (scopes_expr? hFair hCtx cond hCond).next fun _ => ?_
    refine (scopes_exprs hFair hCtx step hStep).next fun _ => ?_
    refine (scopes_stmt hCtx body hBody).map ?_
    rintro ⟨⟨⟨-, start, rfl, hStart⟩, test, rfl, hTest⟩, steps, rfl, hSteps⟩ _ ⟨code, rfl, hCode⟩
    refine ⟨.forLoop start test steps code, rfl, rfl, hStart.places.append ?_,
      rel_append hStart.types hCode.types, hCode.switches, fun writes => .forLoop (hCode.mirrors writes)⟩
    exact (((Places.bare hTest).append (.bare hSteps)).append hCode.places).under hStart.names
  | switchOn _ scrutinee sections =>
    simp only [Bool.and_eq_true] at hWritten
    obtain ⟨-, hScrutinee, hSections⟩ := hWritten
    refine (scopes_expr hFair hCtx scrutinee hScrutinee).next fun _ => ?_
    refine (scopes_switchSections hCtx sections hSections).map ?_
    rintro ⟨-, subject, rfl, hSubject⟩ _ ⟨codes, rfl, hPlaces, hTypes, hSwitches, hMirrors⟩
    exact ⟨.switchOn subject codes, rfl, rfl, .cons_bare hSubject hPlaces, hTypes, hSwitches,
      fun writes => .switchOn (hMirrors writes)⟩
  | returning span val =>
    cases val with
    | none => exact .pure fun _ => ⟨.returning none, rfl, rfl, .nil, .nil, .nil, fun _ => .returning⟩
    | some val => exact scopes_returnValue hFair hCtx span val (and_eq_true_iff.mp hWritten).2
  | breaking => exact .pure fun _ => ⟨.line "break;", rfl, rfl, .nil, .nil, .nil, fun _ => .breaking⟩
  | continuing => exact .pure fun _ => ⟨.line "continue;", rfl, rfl, .nil, .nil, .nil, fun _ => .continuing⟩
  | empty => exact .pure fun _ => ⟨.line ";", rfl, rfl, .nil, .nil, .nil, fun _ => .empty⟩
  | forEach | lock | tryCatch | throwing | usingBlock | yielding | checkedBlock | fixedPointer =>
    cases (and_eq_true_iff.mp hWritten).1

theorem scopes_stmt? {P : Prop} {ctx : LowerContext} (hCtx : ending.Hosts ctx) (written : Option Stmt)
    (hWritten : allStmt? ending.test written = true) : Scopes ending P (liftedStmt? written)
      (From (Code.written? (writesOutput ctx)) fun code =>
        Places ending (placesOfStmt? written) (Code.places? code) ∧
          Types ending (localDeclsOfStmt? written) (Code.localTypes? code) ∧
          Switches ending (switchesOfStmt? written) (Code.switches? code) ∧
          ∀ writes, MirrorsElse writes written (Code.written? writes code)) (stmt? ctx written) := by
  unfold stmt? liftedStmt?
  unfold allStmt? at hWritten
  cases written with
  | none => exact .pure fun _ => ⟨none, rfl, .nil, .nil, .nil, fun _ => .none⟩
  | some written =>
    refine (scopes_stmt hCtx written hWritten).map ?_
    rintro - _ ⟨code, rfl, hCode⟩
    exact ⟨some code, rfl, hCode.places, hCode.types, hCode.switches, fun writes => .some (hCode.mirrors writes)⟩

theorem scopes_stmts {P : Prop} {ctx : LowerContext} (hCtx : ending.Hosts ctx) (list : List Stmt)
    (hList : allStmts ending.test list = true) : Scopes ending P (liftedStmts list)
      (From (Code.writtenAll (writesOutput ctx)) fun codes =>
        ScopesStmts ending list codes ∧ ∀ writes, MirrorsList writes list (Code.writtenAll writes codes))
      (stmts ctx list) := by
  unfold stmts liftedStmts
  unfold allStmts at hList
  cases list with
  | nil => exact .pure fun _ => ⟨[], rfl, .nil, fun _ => .nil⟩
  | cons first rest =>
    obtain ⟨hFirst, hRest⟩ := and_eq_true_iff.mp hList
    refine (scopes_stmt hCtx first hFirst).bind fun _ => (scopes_stmts hCtx rest hRest).map ?_
    rintro ⟨-, code, rfl, hCode⟩ _ ⟨codes, rfl, hCodes, hMirrors⟩
    exact ⟨code :: codes, rfl, hCodes.cons hCode, fun writes => .cons (hCode.mirrors writes) (hMirrors writes)⟩

theorem scopes_blockStmts {P : Prop} {ctx : LowerContext} (hCtx : ending.Hosts ctx) (list : List Stmt)
    (hList : allStmts ending.test list = true) : Scopes ending P (liftedStmts list)
      (From (Code.writtenAll (writesOutput ctx)) fun codes =>
        ScopesStmts ending list codes ∧ ∀ writes, MirrorsBlock writes list (Code.writtenAll writes codes))
      (blockStmts ctx list) := by
  unfold blockStmts liftedStmts
  unfold allStmts at hList
  match list with
  | [] => exact .pure fun _ => ⟨[], rfl, .nil, fun _ => .nil⟩
  | first :: rest =>
    obtain ⟨hFirst, hRest⟩ := and_eq_true_iff.mp hList
    cases first with
    | localFunction _ fn =>
      unfold Stmt.lifted
      unfold Stmt.all at hFirst
      have hFn := (and_eq_true_iff.mp hFirst).2
      refine (scopes_lift hCtx fn hFn).bind fun _ => ?_
      refine (scopes_blockStmts hCtx rest hRest).weaken id ?_
      rintro - _ ⟨codes, hCode, hCodes, hMirrors⟩
      exact ⟨codes, hCode, hCodes.function, fun writes => .function (hMirrors writes)⟩
    | _ =>
      refine (scopes_stmt hCtx _ hFirst).bind fun _ => (scopes_blockStmts hCtx rest hRest).map ?_
      rintro ⟨-, code, rfl, hCode⟩ _ ⟨codes, rfl, hCodes, hMirrors⟩
      exact ⟨code :: codes, rfl, hCodes.cons hCode,
        fun writes => .cons (fun _ _ => nofun) (hCode.mirrors writes) (hMirrors writes)⟩

theorem scopes_block {P : Prop} {ctx : LowerContext} (hCtx : ending.Hosts ctx) (body : Block)
    (hBody : body.all ending.test = true) : Scopes ending P body.lifted
      (From (Code.writtenAll (writesOutput ctx)) fun codes =>
        ScopesStmts ending body.stmts codes ∧ ∀ writes, MirrorsBlock writes body.stmts (Code.writtenAll writes codes))
      (block ctx body) := by
  unfold block Block.lifted
  unfold Block.all at hBody
  match body with
  | ⟨list, _⟩ => exact .within (fun _ _ hScope => hScope.push.withFunctions _ _) (scopes_blockStmts hCtx list hBody)

theorem scopes_switchSections {P : Prop} {ctx : LowerContext} (hCtx : ending.Hosts ctx)
    (list : List SwitchSection) (hList : allSections ending.test list = true) : Scopes ending P (liftedSections list)
      (From (Code.writtenSections (writesOutput ctx)) fun codes =>
        Places ending (placesOfSections list) (Code.placesOfSections codes) ∧
          Types ending (localDeclsOfSections list) (Code.localTypesOfSections codes) ∧
          Switches ending (list.flatMap SwitchSection.labels :: switchesOfSections list)
            (codes.flatMap CodeSection.labels :: Code.switchesOfSections codes) ∧
          ∀ writes, MirrorsSections writes list (Code.writtenSections writes codes)) (switchSections ctx list) := by
  unfold switchSections liftedSections
  unfold allSections at hList
  match list with
  | [] => exact .pure fun _ => ⟨[], rfl, .nil, .nil, .cons .nil .nil, fun _ => .nil⟩
  | ⟨marks, body, _⟩ :: rest =>
    simp only [Bool.and_eq_true] at hList
    obtain ⟨hMarks, hBody, hRest⟩ := hList
    refine (scopes_labels hFair hCtx marks hMarks).next fun _ => ?_
    refine ((scopes_stmts hCtx body hBody).within fun _ _ hScope => hScope.push).bind fun _ => ?_
    refine (scopes_switchSections hCtx rest hRest).map ?_
    rintro ⟨⟨-, outs, rfl, hOuts⟩, codes, rfl, hCodes, hBodies⟩ _ ⟨others, rfl, hPlaces, hTypes, hSwitches, hMirrors⟩
    obtain ⟨hLabels, hInner⟩ := forall₂_cons.mp hSwitches
    refine ⟨⟨outs, codes⟩ :: others, rfl, ?_, rel_append hCodes.types hTypes,
      .cons (rel_append hOuts hLabels) (rel_append hCodes.switches hInner), fun writes => ?_⟩
    · have hValues := rel_flatMap hOuts fun _ _ hLabel => hLabel.values
      exact ((Places.bare hValues).append hCodes.places).append (hPlaces.under hCodes.declares)
    · refine .cons ?_ (hBodies writes) (hMirrors writes)
      exact forall₂_map_right_iff.mpr (hOuts.imp fun _ _ hLabel => hLabel.mirrors)

theorem scopes_lift {P : Prop} {ctx : LowerContext} (hCtx : ending.Hosts ctx) (fn : MethodDecl)
    (hFn : fn.all ending.test = true) :
    Scopes ending P (fn.lifted ++ [(identifier fn.name, fn)]) (fun _ => True) (lift ctx fn) := by
  unfold lift MethodDecl.lifted
  unfold MethodDecl.all at hFn
  match fn with
  | ⟨header, body⟩ =>
    have hBody := (and_eq_true_iff.mp hFn).2
    dsimp only
    rw [hCtx.program]
    refine (scopes_functionOf _ ⟨header, body⟩ (scopes_bodyOf ?_ header body hBody)).bind
      fun _ => .add And.right
    exact ⟨rfl, hCtx.blank, ending.program.proper_valueType? _, hCtx.pixelType⟩

theorem scopes_bodyOf {P : Prop} {ctx : LowerContext} (hCtx : ending.Hosts ctx)
    (header : MethodHeader) (body : Option MethodBody) (hBody : allBody? ending.test body = true) :
    Scopes ending P (liftedBody body) (From (Code.writtenAll (writesOutput ctx)) (ScopesBody ending ⟨header, body⟩))
      (bodyOf ctx header.returnType.isVoid body) := by
  unfold bodyOf liftedBody
  unfold allBody? at hBody
  match body with
  | none => exact .pure fun _ => ⟨[], rfl, .nil, .nil, .nil, fun _ => .none⟩
  | some (.block ⟨list, close⟩) =>
    unfold MethodBody.all at hBody
    refine (scopes_block hCtx ⟨list, close⟩ hBody).weaken id ?_
    rintro - _ ⟨codes, hCode, hCodes, hMirrors⟩
    exact ⟨codes, hCode, hCodes.places, hCodes.types, hCodes.switches, fun writes => .block (hMirrors writes)⟩
  | some (.expr val) =>
    dsimp only
    split
    · rename_i hVoid
      refine (scopes_expr hFair hCtx val hBody).map ?_
      rintro - _ ⟨out, rfl, hOut⟩
      exact ⟨[.expr out], rfl, .cons_bare hOut .nil, .nil, .nil, fun _ => .line hVoid (.expr hOut.reads)⟩
    · rename_i hVoid
      refine (scopes_returnValue hFair hCtx val.span val hBody).map ?_
      rintro - _ ⟨code, rfl, hCode⟩
      exact ⟨[code], rfl, hCode.places.append .nil, rel_append hCode.types .nil,
        rel_append hCode.switches .nil, fun writes => .value (Bool.eq_false_iff.mpr hVoid) (hCode.mirrors writes)⟩

end

end Stmts

/-! ## Methods and shaders -/

section Unit

variable {ending : Ending} {P : Prop} (hFair : ending.Fair)

include hFair

theorem scopes_method {ctx : LowerContext} (hCtx : ending.Hosts ctx) (name : String) (written : MethodDecl)
    (hWritten : written.all ending.test = true) :
    Scopes ending P written.lifted (StandsFor ending (writesOutput ctx) (name, written)) (method ctx name written) := by
  unfold MethodDecl.lifted
  unfold MethodDecl.all at hWritten
  match written with
  | ⟨header, body⟩ =>
    have hInner : ending.Hosts { ctx with returnType := ctx.program.valueType? header.returnType } :=
      ⟨hCtx.program, hCtx.blank, ctx.program.proper_valueType? _, hCtx.pixelType⟩
    have hBody := (and_eq_true_iff.mp hWritten).2
    have hFn : Scopes ending P (liftedBody body) (StandsFor ending (writesOutput ctx) (name, ⟨header, body⟩))
        (functionOf ending.program name header (bodyOf _ header.returnType.isVoid body)) :=
      scopes_functionOf name ⟨header, body⟩ (scopes_bodyOf hFair hInner header body hBody)
    rwa [← hCtx.program] at hFn

variable {model : ShaderModel} (hModel : ValueType.Proper? model.pixelType)

include hModel

omit hFair in
theorem hosts_start (owner : String) (inEntry : Bool) :
    ending.Hosts ⟨ending.program, model, .standard, owner, inEntry, none⟩ :=
  ⟨rfl, rfl, ValueType.proper?_none, hModel⟩

theorem scopes_helperMethods {needed : List MethodKey}
    (hMethods : ∀ key ∈ needed, ∀ found, ending.program.method? key = some found → found.all ending.test = true) :
    Scopes ending P (needed.flatMap (liftedMethod ending.program)) (fun _ => True)
      (helperMethods ending.program model .standard needed) := by
  induction needed generalizing P with
  | nil => exact .pure fun _ => trivial
  | cons key rest ih =>
    have hRest : ∀ {Q : Prop}, Scopes ending Q (rest.flatMap (liftedMethod ending.program)) (fun _ => True)
        (helperMethods ending.program model .standard rest) :=
      ih (forall_mem_cons.mp hMethods).2
    unfold helperMethods
    rw [flatMap_cons, liftedMethod]
    cases hFound : ending.program.method? key with
    | none => exact hRest
    | some found =>
      have hMethod := scopes_method (P := P) hFair (hosts_start hModel key.owner false)
        (methodName ending.program key) found (hMethods key mem_cons_self found hFound)
      dsimp only
      rw [append_assoc]
      exact hMethod.bind fun _ => (Writes.add And.right).bind fun _ => hRest

theorem scopes_shaderStatics {fields : List FieldInfo}
    (hFields : ∀ field ∈ fields, ∀ type, field.type = .value type → type.Proper)
    (hInits : ∀ name init, shaderInit? ending.program name = some init → init.all ending.test = true)
    (hShader : ending.program.typeDecl? ending.program.shader.name = some ending.program.shader) :
    Scopes ending P [] (fun statics => ∀ decl ∈ statics, ending.Lists decl)
      (shaderStatics ⟨ending.program, model, .standard, ending.program.shader.name, false, none⟩ fields) := by
  induction fields generalizing P with
  | nil => exact .pure fun _ => forall_mem_nil _
  | cons field rest ih =>
    have hRest : ∀ {Q : Prop}, Scopes ending Q [] (fun statics => ∀ decl ∈ statics, ending.Lists decl)
        (shaderStatics ⟨ending.program, model, .standard, ending.program.shader.name, false, none⟩ rest) :=
      ih (forall_mem_cons.mp hFields).2
    unfold shaderStatics
    split
    · rename_i type _ hType
      have hProper := hFields field mem_cons_self type hType
      have hHost : ending.Hosts ⟨ending.program, model, .standard, ending.program.shader.name, false, none⟩ :=
        hosts_start hModel _ false
      have hInit : fieldInit? ending.program ending.program.shader.name field.name =
          shaderInit? ending.program field.name := by
        rw [fieldInit?, hShader]
        rfl
      refine (writes_staticInit (fun val hVal => ?_) fun val st => ?_).next fun init => ?_
      · exact writes_exprOn hFair _ hHost (fun _ => ValueType.proper?_some.mpr hProper)
          fun _ => hInits field.name val hVal
      · exact ⟨_, _, some type, st, hHost.program, rfl⟩
      · refine (writes_noteStruct type).next fun _ => hRest.map ?_
        rintro ⟨⟨-, hStarts⟩, hNoted⟩ others hOthers
        refine forall_mem_cons.mpr ⟨⟨⟨hProper, hNoted⟩, _, field.name, (if_pos rfl).symm, ?_⟩, hOthers⟩
        rwa [hInit]
    · exact hRest

end Unit

/-- A run over a shader leads to an end: everything that it writes passes the test for types. -/
structure Ending.Follows (ending : Ending) (model : ShaderModel) (entry : MethodDecl) (start : Tracked Gathered)
    (needed : List MethodKey) : Prop where
  pixelType : ValueType.Proper? model.pixelType
  sound : ending.Sound start
  last : (unit ending.program model .standard entry start).2 = ending.last
  reached : (ending.program.reachableMethods (method ⟨ending.program, model, .standard, ending.program.shader.name,
    true, none⟩ entryPoint entry start).2.memo).1 = needed
  passes : entry.all ending.test = true
  methods : ∀ key ∈ needed, ∀ found, ending.program.method? key = some found → found.all ending.test = true
  fields : ∀ field ∈ model.fields, ∀ type, field.type = .value type → type.Proper
  inits : ∀ name init, shaderInit? ending.program name = some init → init.all ending.test = true
  shader : ending.program.typeDecl? ending.program.shader.name = some ending.program.shader

namespace Ending.Follows

variable {ending : Ending} {model : ShaderModel} {entry : MethodDecl} {start : Tracked Gathered} {needed : List MethodKey}
  (hFollows : ending.Follows model entry start needed) (hFair : ending.Fair)

include hFollows hFair

theorem scopes_afterEntry (written : OutFunction) :
    Scopes ending True (needed.flatMap (liftedMethod ending.program))
      (fun result => result.1 = written ∧ ∀ decl ∈ result.2, ending.Lists decl)
      (afterEntry ending.program model .standard written needed) :=
  (scopes_helperMethods hFair hFollows.pixelType hFollows.methods).before fun _ =>
    (scopes_shaderStatics hFair hFollows.pixelType hFollows.fields hFollows.inits hFollows.shader).map
      fun _ _ hStatics => ⟨rfl, hStatics⟩

/-- The run goes on to its end from the state that the entry point leaves behind. -/
theorem later_entry :
    Later ending.program (method ⟨ending.program, model, .standard, ending.program.shader.name, true, none⟩ entryPoint
      entry start).2 ending.last := by
  have hLast := hFollows.last
  have hNeeded := hFollows.reached
  rw [unit_eq] at hLast
  generalize method ⟨ending.program, model, .standard, ending.program.shader.name, true, none⟩ entryPoint entry start =
    first at hNeeded hLast ⊢
  dsimp only at hLast
  rw [hNeeded] at hLast
  have hKept : Later ending.program first.2
      { first.2 with memo := (ending.program.reachableMethods first.2.memo).2 } :=
    ⟨ending.program.stable_reachableMethods.kept first.2.memo, fun _ => id, .refl _⟩
  exact hLast ▸ hKept.trans ((hFollows.scopes_afterEntry hFair first.1).grows _)

/-- A shader is lowered to functions that keep the scopes of its entry point, of the local functions of the entry
point, and of the methods that it needs, each after its own local functions. Its static values can be accounted
for. -/
theorem scopes_unit : StandsFor ending (ending.program.kind == .pixel) (entryPoint, entry)
        (unit ending.program model .standard entry start).1.1 ∧
      (∀ decl ∈ ending.last.gathered.statics ++ (unit ending.program model .standard entry start).1.2,
        ending.Lists decl) ∧ ∃ added, ending.last.gathered.helpers = start.gathered.helpers ++ added ∧
        List.Forall₂ (StandsFor ending false) (entry.lifted ++ needed.flatMap (liftedMethod ending.program)) added := by
  have hMethod := scopes_method (P := True) hFair (hosts_start hFollows.pixelType ending.program.shader.name true)
    entryPoint entry hFollows.passes
  obtain ⟨hBetween, hFn, before, hBefore, hLifted⟩ :=
    hMethod.holds trivial start hFollows.sound (hFollows.later_entry hFair)
  have hLast := hFollows.last
  have hNeeded := hFollows.reached
  rw [unit_eq] at hLast ⊢
  generalize method ⟨ending.program, model, .standard, ending.program.shader.name, true, none⟩ entryPoint entry start =
    first at hNeeded hLast hBetween hFn hBefore ⊢
  dsimp only at hLast ⊢
  rw [hNeeded] at hLast ⊢
  obtain ⟨hEnd, ⟨hWritten, hOwn⟩, after, hHelpers, hOthers⟩ := (hFollows.scopes_afterEntry hFair first.1).holds trivial
    { first.2 with memo := (ending.program.reachableMethods first.2.memo).2 } ⟨hBetween.scope, hBetween.statics⟩
    (hLast ▸ .refl _)
  rw [hLast] at hEnd hHelpers
  refine ⟨hWritten ▸ hFn, forall_mem_append.mpr ⟨hEnd.statics, hOwn⟩, before ++ after, ?_, rel_append hLifted hOthers⟩
  rw [hHelpers, ← append_assoc, ← hBefore]

end Ending.Follows

end Lower

end Shaderlift
