import Shaderlift.Types.Value

/-!
Names that the output language keeps for itself. A source name that is one of them, or that spells a
built-in type in lower case, is written with a mark before it.
-/

namespace Shaderlift.Reserved

/-- The words that the output language keeps for itself and that a source text may use as names. -/
def words : List String :=
  ["asm", "asm_fragment", "bool", "buffer", "cbuffer", "centroid", "column_major", "compile",
   "compile_fragment", "discard", "double", "dword", "export", "extern", "float", "globallycoherent",
   "groupshared", "half", "inline", "inout", "int", "line", "lineadj", "linear", "matrix", "min10float",
   "min12int", "min16float", "min16int", "min16uint", "nointerpolation", "noperspective", "packoffset",
   "pass", "pixelfragment", "point", "precise", "register", "row_major", "sample", "sampler", "shared",
   "snorm", "stateblock", "stateblock_state", "string", "tbuffer", "technique", "texture", "triangle",
   "triangleadj", "uniform", "unorm", "unsigned", "vector", "vertexfragment", "abs", "all", "any",
   "ceil", "clamp", "clip", "cos", "cross", "ddx", "ddy", "degrees", "distance", "dot", "exp", "exp2",
   "floor", "fmod", "frac", "length", "lerp", "log", "log2", "mad", "max", "min", "mul", "normalize",
   "pow", "radians", "rcp", "reflect", "refract", "round", "rsqrt", "saturate", "sign", "sin", "sqrt",
   "step", "tan", "transpose", "trunc"]

/-- Decide whether a name is written in lower case and spells a built-in type. -/
def spellsType (name : String) : Bool :=
  match name.toList with
  | c :: _ => c.isLower && (ValueType.ofName? name).isSome
  | [] => false

def identifier (name : String) : String :=
  if spellsType name || words.contains name then "__reserved__" ++ name else name

end Shaderlift.Reserved
