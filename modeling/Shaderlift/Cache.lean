import Shaderlift.Digest.Basic
import Shaderlift.Json.Writer
import Shaderlift.Transpiled

/-!
A cache of transpiled shaders. An entry is found by a digest of everything that the output depends on, so
an entry is never out of date. Failures are not kept, and the first result for a key stays.
-/

namespace Shaderlift

/-- What is asked for: a shader type in a source text, under a configuration. -/
structure Request where
  typeName : String
  source : String
  config : Config
  deriving DecidableEq

namespace Request

def framed (text : String) : List UInt8 :=
  let bytes := text.toUTF8.data.toList
  littleEndian 8 bytes.length ++ bytes

def bytes (request : Request) : List UInt8 :=
  framed request.typeName ++ framed request.source ++ framed request.config.toJson.compact

def key (request : Request) : Digest := .ofBytes request.bytes

def transpile (request : Request) : Except TranspileError Transpiled :=
  Shaderlift.transpile request.source request.typeName request.config

end Request

/-- Where a shader came from. -/
inductive Origin where
  | memory
  | transpiled
  deriving DecidableEq, Repr

def Origin.name : Origin → String
  | .memory => "Memory"
  | .transpiled => "Transpiled"

/-- Kept shaders by key, latest first. -/
structure Cache where
  entries : List (Digest × Transpiled)

namespace Cache

def empty : Cache := ⟨[]⟩

def get? (cache : Cache) (key : Digest) : Option Transpiled := cache.entries.lookup key

def size (cache : Cache) : Nat := cache.entries.length

def isEmpty (cache : Cache) : Bool := cache.entries.isEmpty

def getOrTranspile (cache : Cache) (request : Request) :
    Except TranspileError (Transpiled × Origin) × Cache :=
  match cache.get? request.key with
  | some shader => (.ok (shader, .memory), cache)
  | none =>
    match request.transpile with
    | .ok shader => (.ok (shader, .transpiled), ⟨(request.key, shader) :: cache.entries⟩)
    | .error error => (.error error, cache)

/-- Keep a shader under a key.  If another caller was first, its shader stays and is the one that is given. -/
def keepFirst (cache : Cache) (key : Digest) (shader : Transpiled) : (Transpiled × Origin) × Cache :=
  match cache.get? key with
  | some first => ((first, .memory), cache)
  | none => ((shader, .transpiled), ⟨(key, shader) :: cache.entries⟩)

/-- Find the shader of a request in a cache that callers share.  It is not held while the shader is transpiled, so
the key is looked up again afterwards. -/
def getOrTranspileShared (cache : Cache) (request : Request) :
    Except TranspileError (Transpiled × Origin) × Cache :=
  match cache.get? request.key with
  | some shader => (.ok (shader, .memory), cache)
  | none =>
    match request.transpile with
    | .ok shader =>
      let (found, after) := cache.keepFirst request.key shader
      (.ok found, after)
    | .error error => (.error error, cache)

end Cache

end Shaderlift
