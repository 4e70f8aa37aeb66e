import Shaderlift.Source.Tree.Type
import Shaderlift.Types.Resource

/-!
What a written type means to a shader. Aliases are followed to a fixed depth, so a cycle of aliases ends
as an unsupported type.
-/

namespace Shaderlift

/-- The shapes of types that a shader cannot have at all. -/
inductive ForbiddenShape where
  | pointer | functionPointer | tuple | byRef
  deriving DecidableEq, Repr, Inhabited

/-- What a written type means: a value, a resource, a reference type, a type without counterpart, or a
shape that cannot be. -/
inductive Meaning where
  | value (type : ValueType)
  | resource (resource : Resource)
  | managed (name : String)
  | unsupported (name : String)
  | forbidden (shape : ForbiddenShape)
  deriving DecidableEq, Repr, Inhabited

def Meaning.value? : Meaning → Option ValueType
  | .value type => some type
  | _ => none

/-- The names that a source text declares. `structs` tells for each value struct whether a shader can
hold it; both it and `references` are in the order of the names. -/
structure TypeTable where
  aliases : List (String × TypeExpr)
  structs : List (String × Bool)
  references : List String

namespace TypeTable

def empty : TypeTable := ⟨[], [], []⟩

end TypeTable

namespace TypeExpr

/-- The names of reference types that need no declaration. -/
def managedNames : List String :=
  ["string", "String", "object", "Object", "dynamic", "Exception", "Array", "Delegate", "Type", "List",
   "Dictionary", "HashSet", "Queue", "Stack", "Func", "Action", "Task", "StringBuilder", "Random"]

/-- How many aliases may be followed in a row. -/
def maxAliasDepth : Nat := 16

/-- Split the dimensions off the name of a texture type. -/
def splitDims (name : String) : String × Option Nat :=
  let strip (ending : String) : Option String :=
    (Text.stripEnd ending.toList name.toList).map String.ofList
  match strip "1D", strip "2D", strip "3D" with
  | some base, _, _ => (base, some 1)
  | _, some base, _ => (base, some 2)
  | _, _, some base => (base, some 3)
  | _, _, _ => (name, none)

def resourceKind? (name : String) (arity : Nat) : Option ResourceKind :=
  let (base, dims) := splitDims name
  match base, arity with
  | "ReadWriteBuffer", 1 => some .readWriteBuffer
  | "ReadOnlyBuffer", 1 => some .readOnlyBuffer
  | "ConstantBuffer", 1 => some .constantBuffer
  | "ReadWriteTexture", 1 => dims.map (.readWriteTexture · false)
  | "ReadWriteTexture", 2 => dims.map (.readWriteTexture · true)
  | "IReadWriteNormalizedTexture", 1 => dims.map (.readWriteTexture · true)
  | "ReadOnlyTexture", 1 => dims.map (.readOnlyTexture · false)
  | "ReadOnlyTexture", 2 => dims.map (.readOnlyTexture · true)
  | "IReadOnlyNormalizedTexture", 1 => dims.map (.readOnlyTexture · true)
  | "D2D1ResourceTexture", 1 => dims.map .effectTexture
  | _, _ => none

/-- Tell a reference type from a type without counterpart. -/
def foreign (table : TypeTable) (type : TypeExpr) (simple : String) : Meaning :=
  if table.references.contains simple || managedNames.contains simple then .managed type.render
  else .unsupported type.render

/-- Find what a bare name means at a depth of aliases, given what the target of an alias means. -/
def wordMeaning (table : TypeTable) (follow : Nat → TypeExpr → Meaning) (depth : Nat) (type : TypeExpr)
    (name : String) : Meaning :=
  let simple := Text.lastSegment name
  match table.aliases.lookup name with
  | some target => if depth ≥ maxAliasDepth then .unsupported type.render else follow (depth + 1) target
  | none =>
    match ValueType.ofName? simple, table.structs.lookup simple with
    | some value, _ => .value value
    | none, some true => .value (.struct simple)
    | none, some false => .unsupported type.render
    | none, none => foreign table type simple

def appliedMeaning (table : TypeTable) (type : TypeExpr) (name : String) (arity : Nat) (first : TypeExpr)
    (meaning : Meaning) : Meaning :=
  let simple := Text.lastSegment name
  match resourceKind? simple arity, meaning with
  | some kind, .value element => .resource ⟨kind, element⟩
  | some _, _ => .unsupported (simple ++ "<" ++ first.render ++ ">")
  | none, _ => foreign table type simple

/-- Find what a type means at a depth of aliases, given what the target of an alias means. -/
def meaningWith (table : TypeTable) (follow : Nat → TypeExpr → Meaning) (depth : Nat) : TypeExpr → Meaning
  | .pointer _ _ => .forbidden .pointer
  | .functionPointer _ _ => .forbidden .functionPointer
  | .tuple _ _ => .forbidden .tuple
  | .byRef _ _ _ => .forbidden .byRef
  | .array span element rank => .managed (render (.array span element rank))
  | .nullable span target => .unsupported (render (.nullable span target))
  | .named span name [] => wordMeaning table follow depth (.named span name []) name
  | .named span name (first :: rest) =>
    appliedMeaning table (.named span name (first :: rest)) name (rest.length + 1) first
      (meaningWith table follow (depth + 1) first)

def meaningOn (table : TypeTable) : Nat → Nat → TypeExpr → Meaning
  | 0, _, type => .unsupported type.render
  | fuel + 1, depth, type => meaningWith table (fun deeper target => meaningOn table fuel deeper target) depth type

def meaning (table : TypeTable) (type : TypeExpr) : Meaning :=
  meaningOn table (maxAliasDepth + 1) 0 type

/-- Decide whether a type is the truth type of the language rather than that of a shader. -/
def isRawBool (type : TypeExpr) : Bool :=
  (type.simpleName? == some "bool" || type.simpleName? == some "Boolean") && type.arguments.isEmpty

end TypeExpr

end Shaderlift
