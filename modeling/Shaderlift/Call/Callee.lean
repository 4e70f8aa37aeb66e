import Shaderlift.Builtin.Intrinsic
import Shaderlift.Call.Scope
import Shaderlift.Program.Shader

/-!
What a call calls. A call is classified by its callee, the names and types of its arguments and the scope.
Answers that do not depend on the scope are remembered by the owner of the call, the name and the
arguments, and later calls get the remembered answer.
-/

namespace Shaderlift

/-- The methods of textures. -/
inductive ResourceMethod where
  | sample | sampleLevel
  deriving DecidableEq, Repr, Inhabited

namespace ResourceMethod

def ofName? : String → Option ResourceMethod
  | "Sample" => some .sample
  | "SampleLevel" => some .sampleLevel
  | _ => none

def name : ResourceMethod → String
  | .sample => "Sample"
  | .sampleLevel => "SampleLevel"

end ResourceMethod

/-- What a call calls. -/
inductive Callee where
  | intrinsic (intrinsic : Intrinsic)
  | source (key : MethodKey)
  | localFunction (name : String)
  | resourceMember (field : String) (method : ResourceMethod)
  | unknown (text : String)
  | ambiguous (text : String)
  deriving DecidableEq, Repr, Inhabited

/-- An argument as far as the choice among methods goes: its name and its type, if known. -/
structure CallArg where
  name : Option String
  type : Option ValueType
  deriving DecidableEq, Repr, Inhabited

/-- What a call is remembered by. -/
structure CallKey where
  owner : String
  name : String
  args : List CallArg
  deriving DecidableEq, Repr, Inhabited

/-- The calls that have been classified, the latest first. -/
structure CallMemo where
  entries : List (CallKey × Callee)
  deriving Repr, Inhabited

abbrev Recall := StateM CallMemo

namespace CallMemo

def empty : CallMemo := ⟨[]⟩

def size (memo : CallMemo) : Nat := memo.entries.length

def remember (key : CallKey) (fresh : Callee) : Recall Callee := do
  match (← get).entries.lookup key with
  | some known => pure known
  | none =>
    modify fun memo => ⟨(key, fresh) :: memo.entries⟩
    pure fresh

end CallMemo

namespace Program

def paramFor? (method : MethodDecl) (position : Nat) (arg : CallArg) : Option Param :=
  match arg.name with
  | some name => method.params.find? fun param => param.name == name
  | none => method.params[position]?

/-- Decide whether a method takes arguments of known types, given when a parameter takes an argument. -/
def takes (program : Program) (fits : ValueType → ValueType → Bool) (method : MethodDecl)
    (args : List CallArg) : Bool :=
  args.zipIdx.all fun (arg, position) =>
    match (paramFor? method position arg).bind (fun param => program.valueType? param.type), arg.type with
    | some param, some type => fits param type
    | _, _ => false

/-- Decide whether a parameter takes an argument of its own type. -/
def fitsExactly (param arg : ValueType) : Bool := param == arg

/-- Decide whether a parameter takes an argument after a change of the component type. -/
def fitsShape (param arg : ValueType) : Bool :=
  match param.scalar? with
  | some kind => arg.withScalar kind == param
  | none => false

/-- Choose among methods that all take the arguments: the only one, or the only one without default
values. -/
def chooseAmong (arity : Nat) (matching : List (Nat × MethodDecl)) : Option Nat :=
  match matching with
  | [(index, _)] => some index
  | _ =>
    match matching.filter fun (_, method) => method.params.length == arity with
    | [(index, _)] => some index
    | _ => none

/-- Choose among several methods: those that take the types of the arguments exactly come before those
that take them up to the component type. -/
def selectOverload (program : Program) (candidates : List (Nat × MethodDecl)) (args : List CallArg) :
    Option Nat :=
  let matching (fits : ValueType → ValueType → Bool) : List (Nat × MethodDecl) :=
    candidates.filter fun (_, method) => program.takes fits method args
  let exact := matching fitsExactly
  if !exact.isEmpty then chooseAmong args.length exact
  else
    let shaped := matching fitsShape
    if !shaped.isEmpty then chooseAmong args.length shaped else none

def sourceMethod? (program : Program) (owner name : String) (args : List CallArg) : Option Callee :=
  match program.overloads owner name args.length with
  | [] => none
  | [(index, _)] => some (.source ⟨owner, name, index⟩)
  | candidates =>
    match program.selectOverload candidates args with
    | some index => some (.source ⟨owner, name, index⟩)
    | none => some (.ambiguous (Text.dotted owner name))

/-- Find what a name means through a type that is used without being named. -/
def calleeThrough? (program : Program) (target name : String) (args : List CallArg) : Option Callee :=
  match (Intrinsic.owner? target).bind (Intrinsic.find? · name program.kind) with
  | some intrinsic => some (.intrinsic intrinsic)
  | none => program.sourceMethod? (Text.lastSegment target) name args

def unqualifiedCallee (program : Program) (owner name : String) (args : List CallArg) : Callee :=
  match program.sourceMethod? owner name args with
  | some callee => callee
  | none =>
    (program.staticUsings.findSome? fun target => program.calleeThrough? target name args).getD
      (.unknown name)

def selfCallee (program : Program) (owner name : String) (args : List CallArg) : Callee :=
  (program.sourceMethod? owner name args).getD (.unknown (Text.dotted "this" name))

def qualifiedCallee (program : Program) (path name : String) (args : List CallArg) : Callee :=
  let unknown := Callee.unknown (Text.dotted path name)
  match Intrinsic.owner? path with
  | some owner =>
    match Intrinsic.find? owner name program.kind with
    | some intrinsic => .intrinsic intrinsic
    | none => unknown
  | none =>
    match program.index.find? path with
    | some entry => (program.sourceMethod? entry.name name args).getD unknown
    | none => unknown

/-- Decide whether a name is a local variable or a field rather than a type. -/
def isVariable (program : Program) (owner name : String) (scope : Scope) : Bool :=
  scope.contains name || (program.field? owner name).isSome

/-- Classify a call on a variable: only textures of image effects have methods. -/
def variableCallee (program : Program) (owner path name : String) (scope : Scope) : Callee :=
  let unknown := Callee.unknown (Text.dotted path name)
  if path.toList.contains '.' || scope.contains path then unknown
  else
    match (program.fieldType? owner path).map program.meaning, ResourceMethod.ofName? name with
    | some (.resource resource), some method =>
      if resource.isEffectTexture then .resourceMember path method else unknown
    | _, _ => unknown

/-- Classify a call made from a method of a type. -/
def callee (program : Program) (owner : String) (callee : Expr) (args : List CallArg) (scope : Scope) :
    Recall Callee :=
  match callee with
  | .ident _ name =>
    if (scope.function? name).isSome then pure (.localFunction name)
    else CallMemo.remember ⟨owner, name, args⟩ (program.unqualifiedCallee owner name args)
  | .member _ (.selfRef _) name false =>
    CallMemo.remember ⟨owner, name, args⟩ (program.selfCallee owner name args)
  | .member _ target name false =>
    match target.path? with
    | none => pure (.unknown name)
    | some path =>
      if program.isVariable owner (Text.firstSegment path) scope then
        pure (program.variableCallee owner path name scope)
      else CallMemo.remember ⟨path, name, args⟩ (program.qualifiedCallee path name args)
  | _ => pure (.unknown "<expression>")

end Program

end Shaderlift
