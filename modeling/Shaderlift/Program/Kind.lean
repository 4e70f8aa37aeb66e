/-!
The kinds of shaders.
-/

namespace Shaderlift

/-- The kind of a shader: run for its effects, run for each pixel of an output texture, or run as an image
effect. -/
inductive ShaderKind where
  | compute
  | pixel
  | effect
  deriving DecidableEq, Repr, Inhabited

namespace ShaderKind

def isEffect (kind : ShaderKind) : Bool := kind == .effect

def isDispatched (kind : ShaderKind) : Bool := !kind.isEffect

def name : ShaderKind → String
  | .compute => "Compute"
  | .pixel => "Pixel"
  | .effect => "D2D1Pixel"

end ShaderKind

end Shaderlift
