import Shaderlift.Digest.Compression

/-!
The BLAKE3 digest of bytes. The bytes are cut into chunks of 1024 and those into blocks of 64. The chunks are
the leaves of a tree whose left subtrees are full; a digest has 32 bytes.
-/

namespace Shaderlift

def littleEndian : Nat → Nat → List UInt8
  | 0, _ => []
  | count + 1, value => UInt8.ofNat value :: littleEndian count (value / 256)

/-- A digest of eight words. -/
structure Digest where
  words : List UInt32
  deriving DecidableEq, Repr, Inhabited

namespace Digest

/-- Cut a list into pieces of a positive size; only the last one may be shorter. -/
def pieces {α : Type} (size : Nat) (list : List α) : List (List α) :=
  if list.length ≤ size + 1 then [list]
  else list.take (size + 1) :: pieces size (list.drop (size + 1))
termination_by list.length
decreasing_by simp only [List.length_drop]; omega

/-- Read the word at a place of a block; a block is filled up by zeros. -/
def wordAt (bytes : Array UInt8) (index : Nat) : UInt32 :=
  let byte (offset : Nat) : UInt32 := (bytes.getD (4 * index + offset) 0).toUInt32
  byte 0 ||| byte 1 <<< 8 ||| byte 2 <<< 16 ||| byte 3 <<< 24

def blockOf (bytes : List UInt8) : Block :=
  let array := bytes.toArray
  Vector.ofFn fun index => wordAt array index.val

def chunkStart : UInt32 := 1

def chunkEnd : UInt32 := 2

def parentMark : UInt32 := 4

def rootMark : UInt32 := 8

def lastInput (counter : UInt64) (chaining : Chaining) (mark : UInt32) : List (List UInt8) → Input
  | [] => ⟨chaining, blockOf [], counter, 0, mark ||| chunkEnd⟩
  | [last] => ⟨chaining, blockOf last, counter, UInt32.ofNat last.length, mark ||| chunkEnd⟩
  | block :: rest =>
    let input : Input := ⟨chaining, blockOf block, counter, UInt32.ofNat block.length, mark⟩
    lastInput counter input.compress 0 rest

def chunkNode (counter : Nat) (bytes : List UInt8) : Input :=
  lastInput (UInt64.ofNat counter) start chunkStart (pieces 63 bytes)

def parentNode (left right : Input) : Input :=
  ⟨start, (left.compress ++ right.compress : Vector UInt32 16), 0, 64, parentMark⟩

/-- The number of chunks on the left of a tree: the largest power of two below the number of all. -/
def leftCount (count : Nat) : Nat := 1 <<< Nat.log2 (count - 1)

def treeOn : Nat → List Input → Option Input
  | _, [] => none
  | _, [node] => some node
  | 0, _ => none
  | depth + 1, nodes => do
    let count := leftCount nodes.length
    let left ← treeOn depth (nodes.take count)
    let right ← treeOn depth (nodes.drop count)
    pure (parentNode left right)

def rootNode (bytes : List UInt8) : Option Input :=
  let nodes := (pieces 1023 bytes).zipIdx.map fun (chunk, counter) => chunkNode counter chunk
  treeOn nodes.length nodes

def ofBytes (bytes : List UInt8) : Digest :=
  match rootNode bytes with
  | some root => ⟨({ root with flags := root.flags ||| rootMark }.compress).toList⟩
  | none => ⟨[]⟩

def bytes (digest : Digest) : List UInt8 := digest.words.flatMap fun word => littleEndian 4 word.toNat

def hex (digest : Digest) : String :=
  String.ofList <| digest.bytes.flatMap fun byte =>
    [Nat.digitChar (byte.toNat / 16), Nat.digitChar (byte.toNat % 16)]

end Digest

end Shaderlift
