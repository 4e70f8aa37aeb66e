import Shaderlift.Types.Value

/-!
Resource types: buffers and textures with an element type.
-/

namespace Shaderlift

/-- What kind of resource a type is. Textures have one to three dimensions. -/
inductive ResourceKind where
  | readWriteBuffer
  | readOnlyBuffer
  | constantBuffer
  | readWriteTexture (dims : Nat) (normalized : Bool)
  | readOnlyTexture (dims : Nat) (normalized : Bool)
  | effectTexture (dims : Nat)
  deriving DecidableEq, Repr, Inhabited

/-- A resource type. -/
structure Resource where
  kind : ResourceKind
  element : ValueType
  deriving DecidableEq, Repr, Inhabited

namespace Resource

def isBuffer (resource : Resource) : Bool :=
  match resource.kind with
  | .readWriteBuffer | .readOnlyBuffer | .constantBuffer => true
  | _ => false

def isTexture (resource : Resource) : Bool := !resource.isBuffer

def isReadWrite (resource : Resource) : Bool :=
  match resource.kind with
  | .readWriteBuffer | .readWriteTexture _ _ => true
  | _ => false

def isEffectTexture (resource : Resource) : Bool :=
  match resource.kind with
  | .effectTexture _ => true
  | _ => false

def dims? (resource : Resource) : Option Nat :=
  match resource.kind with
  | .readWriteTexture dims _ | .readOnlyTexture dims _ | .effectTexture dims => some dims
  | _ => none

def isSampled (kinds : List Scalar) : ValueType → Bool
  | .scalar kind => kinds.contains kind
  | .vector kind _ => kinds.contains kind
  | _ => false

def elementIsValid (resource : Resource) : Bool :=
  match resource.kind with
  | .readWriteBuffer | .readOnlyBuffer | .constantBuffer =>
    match resource.element with
    | .void | .array _ _ => false
    | _ => true
  | .readWriteTexture _ true | .readOnlyTexture _ true => isSampled [.float] resource.element
  | .readWriteTexture _ false | .readOnlyTexture _ false =>
    isSampled [.int, .uint, .float] resource.element
  | .effectTexture _ => resource.element == .scalar .float || resource.element == .vector .float 4

def textureObject (name : String) (dims : Nat) (normalized : Bool) (element : ValueType) : String :=
  name ++ toString dims ++ "D<" ++ (if normalized then "unorm " else "") ++ element.spelling ++ ">"

/-- Write the type under which a resource is declared. A constant buffer is a block and has none. -/
def objectType? (resource : Resource) : Option String :=
  match resource.kind with
  | .readWriteBuffer => some ("RWStructuredBuffer<" ++ resource.element.spelling ++ ">")
  | .readOnlyBuffer => some ("StructuredBuffer<" ++ resource.element.spelling ++ ">")
  | .constantBuffer => none
  | .readWriteTexture dims normalized =>
    some (textureObject "RWTexture" dims normalized resource.element)
  | .readOnlyTexture dims normalized => some (textureObject "Texture" dims normalized resource.element)
  | .effectTexture dims => some (textureObject "Texture" dims false resource.element)

end Resource

end Shaderlift
