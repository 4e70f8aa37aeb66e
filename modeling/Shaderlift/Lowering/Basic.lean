import Shaderlift.Builtin.Reserved
import Shaderlift.Call.Tracking
import Shaderlift.Model.Basic
import Shaderlift.Output.Expr
import Shaderlift.Output.Stmt
import Shaderlift.Program.Static

/-!
What lowering gathers while it writes a shader: the coordinates in use, lifted functions, the structs and
static values that are named, and the sizes of resources that are read.
-/

namespace Shaderlift

/-- The coordinates that need a parameter of the entry point. -/
structure SpecialIds where
  groupThreadIds : Bool
  groupIndex : Bool
  gridIds : Bool
  deriving DecidableEq, Repr, Inhabited

namespace SpecialIds

def render (ids : SpecialIds) : String :=
  Text.joinWith " | " <|
    (if ids.groupThreadIds then ["GROUP_THREAD_IDS"] else []) ++
      (if ids.groupIndex then ["GROUP_INDEX"] else []) ++ (if ids.gridIds then ["GRID_IDS"] else [])

end SpecialIds

/-- A size of a resource that is read. -/
structure SizeRead where
  field : String
  property : ResourceProperty
  deriving DecidableEq, Repr, Inhabited

/-- What lowering gathers. Lists are in the order of discovery. -/
structure Gathered where
  report : Report
  ids : SpecialIds
  usesGroupSize : Bool
  helpers : List OutFunction
  structs : List String
  sizes : List SizeRead
  seenStatics : List (String × String)
  statics : List StaticDecl

def Gathered.empty : Gathered :=
  { report := []
    ids := ⟨false, false, false⟩
    usesGroupSize := false
    helpers := []
    structs := []
    sizes := []
    seenStatics := []
    statics := [] }

/-- What is written in the place of an expression or a statement that no shader may contain. -/
structure Blank where
  expr : OutExpr
  stmt : String
  deriving Repr, Inhabited

def Blank.standard : Blank := ⟨.int "0", ";"⟩

/-- Where lowering is: the program and its model, what is written for constructs that cannot be, the type
that owns the method, whether it is in the entry point outside local functions, and the type that the
method returns. -/
structure LowerContext where
  program : Program
  model : ShaderModel
  blank : Blank
  owner : String
  inEntry : Bool
  returnType : Option ValueType

abbrev Lower := Track Gathered

namespace Lower

open Track

def addNew {α : Type} [BEq α] (value : α) (list : List α) : List α :=
  if list.contains value then list else list ++ [value]

def noteStruct (type : ValueType) : Lower Unit :=
  match type.struct? with
  | some name => gather fun g => { g with structs := addNew name g.structs }
  | none => pure ()

def spell (type : ValueType) : Lower String := do
  noteStruct type
  pure type.spelling

def spellWritten (program : Program) (type : TypeExpr) : Lower String :=
  match program.valueType? type with
  | some value => spell value
  | none => pure type.render

def look {α : Type} (context : LowerContext) (action : Site → Recall α) : Lower α :=
  recalling context.program context.owner action

def site (context : LowerContext) : Lower Site := do
  pure ⟨context.program, context.owner, (← get).scope⟩

end Lower

end Shaderlift
