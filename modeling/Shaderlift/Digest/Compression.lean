/-!
The compression function of BLAKE3. A block of sixteen words is mixed into eight chaining words in seven
rounds; between rounds the words of the block change places.
-/

namespace Shaderlift

namespace Digest

/-- The chaining words between two blocks. -/
abbrev Chaining := Vector UInt32 8

abbrev Block := Vector UInt32 16

abbrev State := Vector UInt32 16

def start : Chaining :=
  #v[0x6A09E667, 0xBB67AE85, 0x3C6EF372, 0xA54FF53A, 0x510E527F, 0x9B05688C, 0x1F83D9AB, 0x5BE0CD19]

def rotate (word count : UInt32) : UInt32 := (word >>> count) ||| (word <<< (32 - count))

/-- Mix two words of the block into four words of the state. -/
def mix (state : State) (a b c d : Fin 16) (x y : UInt32) : State :=
  let va := state[a] + state[b] + x
  let vd := rotate (state[d] ^^^ va) 16
  let vc := state[c] + vd
  let vb := rotate (state[b] ^^^ vc) 12
  let va := va + vb + y
  let vd := rotate (vd ^^^ va) 8
  let vc := vc + vd
  let vb := rotate (vb ^^^ vc) 7
  (((state.set a va).set b vb).set c vc).set d vd

/-- Mix a block into the state, down the columns and then along the diagonals. -/
def round (state : State) (block : Block) : State :=
  let state := mix state 0 4 8 12 block[0] block[1]
  let state := mix state 1 5 9 13 block[2] block[3]
  let state := mix state 2 6 10 14 block[4] block[5]
  let state := mix state 3 7 11 15 block[6] block[7]
  let state := mix state 0 5 10 15 block[8] block[9]
  let state := mix state 1 6 11 12 block[10] block[11]
  let state := mix state 2 7 8 13 block[12] block[13]
  mix state 3 4 9 14 block[14] block[15]

/-- Put the words of a block in their places for the next round. -/
def permute (block : Block) : Block :=
  #v[block[2], block[6], block[3], block[10], block[7], block[0], block[4], block[13],
     block[1], block[11], block[12], block[5], block[9], block[14], block[15], block[8]]

def rounds : Nat → State → Block → State
  | 0, state, _ => state
  | count + 1, state, block => rounds count (round state block) (permute block)

/-- Everything that one compression reads. -/
structure Input where
  chaining : Chaining
  block : Block
  counter : UInt64
  length : UInt32
  flags : UInt32

def Input.compress (input : Input) : Chaining :=
  let cv := input.chaining
  let state : State :=
    #v[cv[0], cv[1], cv[2], cv[3], cv[4], cv[5], cv[6], cv[7],
       start[0], start[1], start[2], start[3],
       input.counter.toUInt32, (input.counter >>> 32).toUInt32, input.length, input.flags]
  let mixed := rounds 7 state input.block
  #v[mixed[0] ^^^ mixed[8], mixed[1] ^^^ mixed[9], mixed[2] ^^^ mixed[10], mixed[3] ^^^ mixed[11],
     mixed[4] ^^^ mixed[12], mixed[5] ^^^ mixed[13], mixed[6] ^^^ mixed[14], mixed[7] ^^^ mixed[15]]

end Digest

end Shaderlift
