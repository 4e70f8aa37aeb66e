import Shaderlift.Source.Lexeme
import Shaderlift.Source.Tree.Expr

/-!
Values of number literals. An integer literal is its digits in base two, ten or sixteen without
underscores, and has to be below 2^64; a real literal keeps its digits as text.
-/

namespace Shaderlift.Literal

def intBound : Nat := UInt64.size

def digitsFrom (base : Nat) : Nat → List Char → Option Nat
  | value, [] => some value
  | value, c :: rest =>
    match Lexeme.hexValue c with
    | some digit => if digit < base then digitsFrom base (value * base + digit) rest else none
    | none => none

def digits? (base : Nat) (text : List Char) : Option Nat :=
  if text.isEmpty then none else digitsFrom base 0 text

/-- Read the digits of an integer literal in the base that its first characters tell. -/
def body? (body : List Char) : Option Nat :=
  match body with
  | '0' :: 'x' :: digits => digits? 16 digits
  | '0' :: 'b' :: digits => digits? 2 digits
  | digits => digits? 10 digits

def suffixOf : List Char → IntSuffix
  | [] => .none
  | ['u'] => .u
  | ['l'] => .l
  | _ => .ul

def ofInt? (text : String) : Option Literal := do
  let lower := text.toList.map Char.toLower
  let isMark (c : Char) : Bool := c == 'u' || c == 'l'
  let reversed := lower.reverse
  let body := ((reversed.dropWhile isMark).reverse).filter (· != '_')
  let value ← body? body
  if value < intBound then some (.int text value (suffixOf (reversed.takeWhile isMark).reverse))
  else none

def realSuffix? (c : Char) : Option RealSuffix :=
  if c == 'f' || c == 'F' then some .f
  else if c == 'd' || c == 'D' then some .d
  else if c == 'm' || c == 'M' then some .m
  else none

def ofReal (text : String) : Literal :=
  let cleaned := text.toList.filter (· != '_')
  match cleaned.getLast?.bind realSuffix? with
  | some suffix => .real (String.ofList cleaned.dropLast) (some suffix)
  | none => .real (String.ofList cleaned) none

end Shaderlift.Literal
