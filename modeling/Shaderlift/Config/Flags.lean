import Shaderlift.Text.Blank
import Shaderlift.Text.Dotted
import Shaderlift.Text.Quoted
import Shaderlift.Json.Reader

/-!
Sets of flags as texts. A set is a number whose bits are the flags; a flag may have several bits. In a
text the flags are divided by bars, and bits without a name are written in hexadecimal.
-/

namespace Shaderlift.Flags

/-- The flags of a set by name, with their bits, in the order in which they are written. -/
abbrev Table := List (String × Nat)

def hasAll (set bits : Nat) : Bool := set &&& bits == bits

def hasAny (set bits : Nat) : Bool := set &&& bits != 0

def without (set bits : Nat) : Nat := set ^^^ (set &&& bits)

/-- List the flags of a set that have a bit not covered by an earlier one, and the bits left over. -/
def names (set : Nat) : Nat → Table → List String × Nat
  | left, [] => ([], left)
  | left, (name, bits) :: rest =>
    if hasAll set bits && hasAny left bits then
      let (later, left) := names set (without left bits) rest
      (name :: later, left)
    else names set left rest

def writeBits (bits : Nat) : String := "0x" ++ String.ofList (Text.hexDigits bits)

def write (table : Table) (set : Nat) : String :=
  let (named, left) := names set set table
  Text.joinWith " | " (if left == 0 then named else named ++ [writeBits left])

def readHex (digits : List Char) : Option Nat :=
  match digits with
  | [] => none
  | _ =>
    digits.foldl
      (fun value c => do
        let value ← value
        let digit ← Json.hexDigit? c
        pure (value * 16 + digit))
      (some 0)

/-- Read bits after their mark; a plus sign may stand before the digits. -/
def readBits (limit : Nat) (text : List Char) : Option Nat := do
  let bits ← readHex (match text with | '+' :: digits => digits | _ => text)
  if bits < limit then some bits else none

def readFlag (table : Table) (limit : Nat) (text : List Char) : Option Nat :=
  match Text.stripStart "0x".toList text with
  | some digits => readBits limit digits
  | none => table.lookup (String.ofList text)

def readAll (table : Table) (limit : Nat) : Nat → List (List Char) → Option Nat
  | set, [] => some set
  | set, text :: rest => do
    let flag ← readFlag table limit (Text.trim text)
    readAll table limit (set ||| flag) rest

/-- Read a set; a blank text is the empty set. -/
def read (table : Table) (limit : Nat) (text : String) : Option Nat :=
  if text.toList.all Text.isBlank then some 0
  else readAll table limit 0 (Text.splitAt '|' text.toList)

end Shaderlift.Flags
