import Shaderlift.Call.Typing

/-!
Following the scope through a method. Every pass over source text keeps the calls classified so far, the
scope and the calls that it has met beside what it gathers itself. Frames follow blocks, loops and methods;
a frame is dropped with all that was declared in it when the part that opened it has been passed.
-/

namespace Shaderlift

/-- A call that a pass has met, and what it calls as seen from there. -/
structure MetCall where
  call : Expr
  callee : Callee

def MetCall.key? (met : MetCall) : Option MethodKey :=
  match met.callee with
  | .source key => some key
  | _ => none

/-- The state of a pass: the calls classified so far, the scope, the calls that the pass has met, the latest
first, and what it gathers. -/
structure Tracked (ρ : Type) where
  memo : CallMemo
  scope : Scope
  met : List MetCall
  gathered : ρ

/-- The start of a pass, with nothing declared and no call met. -/
def Tracked.start {ρ : Type} (memo : CallMemo) (gathered : ρ) : Tracked ρ := ⟨memo, .empty, [], gathered⟩

abbrev Track (ρ : Type) := StateM (Tracked ρ)

namespace Track

variable {ρ : Type}

/-- Run an action that remembers calls, seen from a method of a type. -/
def recalling {α : Type} (program : Program) (owner : String) (action : Site → Recall α) : Track ρ α :=
  fun state =>
    let (result, memo) := action ⟨program, owner, state.scope⟩ state.memo
    (result, { state with memo })

/-- Classify a call and note that it has been met. -/
def meet (program : Program) (owner : String) (call callee : Expr) (args : List Argument) : Track ρ Callee := do
  let found ← recalling program owner fun site => site.resolveCall callee args
  modify fun state => { state with met := ⟨call, found⟩ :: state.met }
  pure found

def gather (change : ρ → ρ) : Track ρ Unit :=
  modify fun state => { state with gathered := change state.gathered }

def inScope (change : Scope → Scope) : Track ρ Unit :=
  modify fun state => { state with scope := change state.scope }

/-- Run an action in another scope and come back to the present one. -/
def within {α : Type} (change : Scope → Scope) (action : Track ρ α) : Track ρ α := do
  let before ← get
  inScope change
  let result ← action
  modify fun state => { state with scope := before.scope }
  pure result

def framed {α : Type} (action : Track ρ α) : Track ρ α := within Scope.push action

def withFunctions (program : Program) (stmts : List Stmt) (scope : Scope) : Scope :=
  stmts.foldl
    (fun scope stmt =>
      match stmt with
      | .localFunction _ function =>
        scope.declareFunction function.name (program.valueType? function.header.returnType)
      | _ => scope)
    scope

def withParams (program : Program) (params : List Param) (scope : Scope) : Scope :=
  params.foldl (fun scope param => scope.declare param.name (program.valueType? param.type)) scope

def inBlock {α : Type} (program : Program) (stmts : List Stmt) (action : Track ρ α) : Track ρ α :=
  within (fun scope => withFunctions program stmts scope.push) action

def inMethod {α : Type} (program : Program) (method : MethodDecl) (action : Track ρ α) : Track ρ α :=
  within (fun scope => withParams program method.params scope.push) action

/-- Declare names in order, each with the written type or the type of its own initial value. -/
def declareAll (program : Program) (owner : String) (type : TypeExpr) : List Declarator → Track ρ Unit
  | [] => pure ()
  | declarator :: rest => do
    let known ← recalling program owner fun site => site.declaredType type declarator.init
    inScope (·.declare declarator.name known)
    declareAll program owner type rest

end Track

end Shaderlift
