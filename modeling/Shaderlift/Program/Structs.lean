import Shaderlift.Program.Index
import Shaderlift.Types.Meaning

/-!
Which structs a shader can hold. A struct is out if it contains itself, directly or through others, or if
one of its instance fields is a raw truth value, has a fixed size, or has no numeric type and is no struct
that is in. The last rule is applied until nothing changes.
-/

namespace Shaderlift

namespace TypeDecl

def instanceFields (decl : TypeDecl) : List FieldDecl :=
  decl.fields.filter fun field => !field.isStatic

end TypeDecl

namespace TypeTable

/-- Give a name a meaning; an older meaning of the name is lost. -/
def withAlias (table : TypeTable) (name : String) (target : TypeExpr) : TypeTable :=
  { table with aliases := (name, target) :: table.aliases.filter fun entry => entry.1 != name }

def withStruct (table : TypeTable) (name : String) (isValid : Bool) : TypeTable :=
  { table with
    structs := table.structs.map fun entry => if entry.1 == name then (name, isValid) else entry }

def declared (unit : SourceUnit) (index : TypeIndex) : TypeTable :=
  let names : TypeTable :=
    { aliases := []
      structs := (index.entries.filter TypeEntry.isValueType).map fun entry => (entry.name, true)
      references := (index.entries.filter fun entry => !entry.isValueType).map TypeEntry.name }
  unit.usings.foldl
    (fun table directive =>
      match directive.aliasName with
      | some name => table.withAlias name directive.target
      | none => table)
    names

/-- List the structs that the instance fields of a type hold directly. -/
def embedded (table : TypeTable) (decl : TypeDecl) : List String :=
  decl.instanceFields.filterMap fun field =>
    match field.type.meaning table with
    | .value (.struct name) => some name
    | _ => none

/-- The structs that each struct holds directly. -/
abbrev Embedding := List (String × List String)

/-- List the structs that each struct holds directly. -/
def embedding (table : TypeTable) (index : TypeIndex) : Embedding :=
  (index.entries.filter TypeEntry.isValueType).map fun entry => (entry.name, table.embedded entry.decl)

/-- Add the structs held by those found so far, a number of times. -/
def heldBy (embedding : Embedding) : Nat → List String → List String
  | 0, found => found
  | rounds + 1, found =>
    heldBy embedding rounds
      (found ++ found.flatMap fun name => (embedding.lookup name).getD []).eraseDups

/-- Decide whether a struct contains itself. A chain of structs that does not repeat one is no longer
than the number of structs. -/
def containsItself (embedding : Embedding) (name : String) : Bool :=
  (heldBy embedding embedding.length ((embedding.lookup name).getD [])).contains name

/-- Put the structs out that contain themselves. -/
def withoutCycles (table : TypeTable) (index : TypeIndex) : TypeTable :=
  let embedding := table.embedding index
  embedding.foldl
    (fun result entry =>
      if containsItself embedding entry.1 then result.withStruct entry.1 false else result)
    table

def allowsField (table : TypeTable) (field : FieldDecl) : Bool :=
  !field.type.isRawBool && field.declarators.all (fun declarator => declarator.fixedSize.isNone) &&
    match field.type.meaning table with
    | .value (.scalar _) => true
    | .value (.vector _ _) => true
    | .value (.matrix _ _ _) => true
    | .value (.struct _) => true
    | _ => false

def allowsStruct (table : TypeTable) (index : TypeIndex) (name : String) : Bool :=
  match index.entries.find? fun entry => entry.name == name with
  | some entry => entry.decl.instanceFields.all table.allowsField
  | none => true

/-- Put out the structs with a field that may not be, once. -/
def pruned (table : TypeTable) (index : TypeIndex) : TypeTable :=
  { table with
    structs := table.structs.map fun entry => (entry.1, entry.2 && table.allowsStruct index entry.1) }

/-- Put structs out until nothing changes. Each round but the last puts one out at least. -/
def settled (index : TypeIndex) : Nat → TypeTable → TypeTable
  | 0, table => table
  | rounds + 1, table =>
    let next := table.pruned index
    if next.structs = table.structs then table else settled index rounds next

def build (unit : SourceUnit) (index : TypeIndex) : TypeTable :=
  let table := (declared unit index).withoutCycles index
  settled index (table.structs.length + 1) table

end TypeTable

end Shaderlift
