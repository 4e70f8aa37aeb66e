import Shaderlift.Transpiled

/-!
Bytecode of a shader: embedded when it was built, or made by a compiler for the profile and the options of
the shader's model. A compiler is a function; a failure of it becomes a diagnostic.
-/

namespace Shaderlift

/-- Why a compiler gives no bytecode: it could not run, or it refused the text. -/
inductive CompilerFailure where
  | system (code : UInt32) (message : String)
  | refused (message : String)
  deriving DecidableEq, Repr

namespace CompilerFailure

def codeText (code : UInt32) : String :=
  String.ofList ((Nat.toDigits 16 code.toNat).leftpad 8 '0' |>.map Char.toUpper)

def message : CompilerFailure → String
  | .system code text => "compiler failed with HRESULT 0x" ++ codeText code ++ ": " ++ text
  | .refused text => text

def diagnostic (typeName : String) : CompilerFailure → Diagnostic
  | .system code text => .make .compilerWin32Failure none [typeName, codeText code, text]
  | .refused text => .make .compilerError none [typeName, text]

end CompilerFailure

/-- A compiler makes bytecode from a text, an entry point, a profile and options. -/
abbrev Compiler := String → String → Profile → CompileOptions → Except CompilerFailure (List UInt8)

/-- Bytecode and where it is from. -/
inductive Bytecode where
  | precompiled (bytes : List UInt8)
  | compiled (bytes : List UInt8)
  deriving DecidableEq, Repr

namespace Bytecode

def bytes : Bytecode → List UInt8
  | .precompiled bytes => bytes
  | .compiled bytes => bytes

def isPrecompiled : Bytecode → Bool
  | .precompiled _ => true
  | .compiled _ => false

end Bytecode

def Transpiled.compile (shader : Transpiled) (compiler : Compiler) : Except CompilerFailure Bytecode :=
  (compiler shader.hlsl entryPoint shader.model.profile shader.model.compileOptions).map .compiled

end Shaderlift
