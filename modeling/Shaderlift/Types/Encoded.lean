import Shaderlift.Json.Value
import Shaderlift.Program.Kind
import Shaderlift.Text.Span
import Shaderlift.Types.Resource

/-!
Types, places and kinds of shaders as JSON values.
-/

namespace Shaderlift

namespace Json

def ofOption {α : Type} (encode : α → Json) : Option α → Json
  | some value => encode value
  | none => .null

def ofList {α : Type} (encode : α → Json) (values : List α) : Json := .arr (values.map encode)

def ofNat (n : Nat) : Json := .int n

end Json

def Span.toJson (span : Span) : Json :=
  .obj [("line", .ofNat span.line), ("column", .ofNat span.column), ("start", .ofNat span.start),
    ("end", .ofNat span.stop)]

def Scalar.name : Scalar → String
  | .bool => "Bool"
  | .int => "Int"
  | .uint => "UInt"
  | .float => "Float"
  | .double => "Double"

def ValueType.toJson : ValueType → Json
  | .void => .str "Void"
  | .scalar kind => .obj [("Scalar", .str kind.name)]
  | .vector kind width => .obj [("Vector", .arr [.str kind.name, .ofNat width])]
  | .matrix kind rows cols =>
    .obj [("Matrix", .obj [("scalar", .str kind.name), ("rows", .ofNat rows), ("cols", .ofNat cols)])]
  | .struct name => .obj [("Struct", .str name)]
  | .array element length =>
    .obj [("Array", .obj [("element", element.toJson), ("len", .ofOption .ofNat length)])]

def ResourceKind.toJson : ResourceKind → Json
  | .readWriteBuffer => .str "ReadWriteBuffer"
  | .readOnlyBuffer => .str "ReadOnlyBuffer"
  | .constantBuffer => .str "ConstantBuffer"
  | .readWriteTexture dims normalized =>
    .obj [("ReadWriteTexture", .obj [("dims", .ofNat dims), ("normalized", .bool normalized)])]
  | .readOnlyTexture dims normalized =>
    .obj [("ReadOnlyTexture", .obj [("dims", .ofNat dims), ("normalized", .bool normalized)])]
  | .effectTexture dims => .obj [("D2DResourceTexture", .obj [("dims", .ofNat dims)])]

def Resource.toJson (resource : Resource) : Json :=
  .obj [("kind", resource.kind.toJson), ("element", resource.element.toJson)]

end Shaderlift
