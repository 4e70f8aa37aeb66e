import Shaderlift.Call.Tracking
import Shaderlift.Source.Traversal

/-!
The methods that a shader needs. Starting at the entry point, the calls of each method are collected in
source order, and methods not met before are queued. The entry point itself is left out.
-/

namespace Shaderlift

namespace Closure

open Track

/-- The hooks that meet all calls: local functions are known in their whole block, and a variable is known
after its declaration. -/
def visitor (program : Program) (owner : String) : Visitor (Tracked Unit) :=
  { block := fun block walk => inBlock program block.stmts walk
    stmt := fun stmt walk =>
      match stmt with
      | .forLoop _ _ _ _ _ => framed walk
      | .forEach _ type name _ _ =>
        within (fun scope => scope.push.declare name (program.valueType? type)) walk
      | _ => walk
    decl := fun decl walk => do
      walk
      declareAll program owner decl.type decl.declarators
    method := fun method walk => inMethod program method walk
    expr := fun expr walk => do
      match expr with
      | .call span callee types args =>
        let _ ← meet program owner (.call span callee types args) callee args
      | _ => pure ()
      walk }

end Closure

namespace Program

def callsOf (program : Program) (owner : String) (method : MethodDecl) : Recall (List MethodKey) :=
  fun memo =>
    let (_, state) := (Closure.visitor program owner).visitMethod method (.start memo ())
    (state.met.reverse.filterMap MetCall.key?, state.memo)

def isEntry (program : Program) (key : MethodKey) : Bool :=
  match program.entry with
  | some (index, _) =>
    key.owner == program.shader.name && key.index == index && (program.method? key).isSome
  | none => false

/-- A method that waits for its calls to be collected. -/
structure Waiting where
  owner : String
  method : MethodDecl

/-- The methods met so far, in the order of discovery, and those whose calls have not been collected. -/
structure Frontier where
  order : List MethodKey
  queue : List Waiting

/-- Add a method unless it is the entry point, has been met, or does not exist. -/
def Frontier.add (program : Program) (frontier : Frontier) (key : MethodKey) : Frontier :=
  if program.isEntry key || frontier.order.contains key then frontier
  else
    match program.method? key with
    | some method => ⟨frontier.order ++ [key], frontier.queue ++ [⟨key.owner, method⟩]⟩
    | none => frontier

/-- Collect the calls of waiting methods until none waits. -/
def explore (program : Program) : Nat → Frontier → Recall (List MethodKey)
  | 0, frontier => pure frontier.order
  | fuel + 1, frontier =>
    match frontier.queue with
    | [] => pure frontier.order
    | next :: queue => do
      let found ← program.callsOf next.owner next.method
      explore program fuel (found.foldl (Frontier.add program) { frontier with queue })

/-- List the methods that the entry point needs, in the order of discovery. Each method waits once, so
the number of methods bounds the search. -/
def reachableMethods (program : Program) : Recall (List MethodKey) :=
  match program.entry with
  | some (_, entry) => program.explore (program.allMethods.length + 2) ⟨[], [⟨program.shader.name, entry⟩]⟩
  | none => pure []

end Program

end Shaderlift
