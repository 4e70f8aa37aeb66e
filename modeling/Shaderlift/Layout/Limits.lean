/-!
Limits on what a shader may use.
-/

namespace Shaderlift.Limits

def rootSignatureWords : Nat := 64

/-- The words of a root signature that hold the size of the dispatch. -/
def dispatchWords : Nat := 3

def capturedBytes : Nat := (rootSignatureWords - dispatchWords) * 4

def effectBytes : Nat := 64 * 1024

def constantBufferBytes : Nat := 64 * 1024

def effectInputs : Nat := 8

def effectTextures : Nat := 16

/-- The greatest extent of a thread group along the first two axes. -/
def groupExtent : Nat := 1024

/-- The greatest extent of a thread group along the third axis. -/
def groupDepth : Nat := 64

def groupThreads : Nat := 1024

def registerBytes : Nat := 16

end Shaderlift.Limits
