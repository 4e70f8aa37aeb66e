/-!
JSON values. Integers written plainly are kept apart from all other numbers, which keep their text,
since nothing here computes with them. A value that holds a text escape without a character of its own
is kept as `illFormed`: it may be skipped but not used.
-/

namespace Shaderlift

/-- A JSON value. The members of an object keep their order and may repeat a name. -/
inductive Json where
  | null
  | bool (value : Bool)
  | int (value : Int)
  | real (text : String)
  | str (value : String)
  | arr (items : List Json)
  | obj (members : List (String × Json))
  | illFormed
  deriving Repr, Inhabited

namespace Json

def member? (json : Json) (name : String) : Option Json :=
  match json with
  | .obj members => (members.reverse.find? fun entry => entry.1 == name).map Prod.snd
  | _ => none

def member (json : Json) (name : String) : Json :=
  (json.member? name).getD .null

def str? : Json → Option String
  | .str value => some value
  | _ => none

def nat? : Json → Option Nat
  | .int (.ofNat value) => some value
  | _ => none

/-- Return the items of an array; anything else has none. -/
def items : Json → List Json
  | .arr items => items
  | _ => []

/-- Return the members of an object; anything else has none. -/
def members : Json → List (String × Json)
  | .obj members => members
  | _ => []

/-- Keep the last of the members that share a name, in the place of the first. -/
def lastWins {α : Type} : List (String × α) → List (String × α)
  | [] => []
  | (name, value) :: rest =>
    let later := lastWins rest
    match later.find? fun entry => entry.1 == name with
    | some entry => (name, entry.2) :: later.filter fun entry => entry.1 != name
    | none => (name, value) :: later

mutual

/-- Drop all members but the last of each name, at every level. -/
def withoutRepeats : Json → Json
  | .arr items => .arr (itemsWithoutRepeats items)
  | .obj members => .obj (lastWins (membersWithoutRepeats members))
  | json => json

def itemsWithoutRepeats : List Json → List Json
  | [] => []
  | item :: rest => item.withoutRepeats :: itemsWithoutRepeats rest

def membersWithoutRepeats : List (String × Json) → List (String × Json)
  | [] => []
  | (name, value) :: rest => (name, value.withoutRepeats) :: membersWithoutRepeats rest

end

mutual

/-- Count the levels of arrays and objects. -/
def depth : Json → Nat
  | .arr items => itemsDepth items + 1
  | .obj members => membersDepth members + 1
  | _ => 0

/-- Count the levels below an array. -/
def itemsDepth : List Json → Nat
  | [] => 0
  | item :: rest => max item.depth (itemsDepth rest)

/-- Count the levels below an object. -/
def membersDepth : List (String × Json) → Nat
  | [] => 0
  | (_, value) :: rest => max value.depth (membersDepth rest)

end

mutual

def wellFormed : Json → Bool
  | .arr items => itemsWellFormed items
  | .obj members => membersWellFormed members
  | .illFormed => false
  | _ => true

def itemsWellFormed : List Json → Bool
  | [] => true
  | item :: rest => item.wellFormed && itemsWellFormed rest

def membersWellFormed : List (String × Json) → Bool
  | [] => true
  | (_, value) :: rest => value.wellFormed && membersWellFormed rest

end

end Json

end Shaderlift
