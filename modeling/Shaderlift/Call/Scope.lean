import Shaderlift.Types.Value

/-!
Lexical scopes: nested frames of local variables and local functions. The outermost frame is never
closed. A name can be known while its type is not.
-/

namespace Shaderlift

/-- The names declared between a pair of braces, the latest first. -/
structure Frame where
  locals : List (String × Option ValueType)
  functions : List (String × Option ValueType)
  deriving DecidableEq, Repr, Inhabited

/-- Nested frames: the innermost, and those around it. -/
structure Scope where
  top : Frame
  outer : List Frame
  deriving DecidableEq, Repr, Inhabited

namespace Scope

def empty : Scope := ⟨⟨[], []⟩, []⟩

def push (scope : Scope) : Scope := ⟨⟨[], []⟩, scope.top :: scope.outer⟩

/-- Close the innermost frame unless it is the only one. -/
def pop (scope : Scope) : Scope :=
  match scope.outer with
  | [] => scope
  | frame :: frames => ⟨frame, frames⟩

def declare (scope : Scope) (name : String) (type : Option ValueType) : Scope :=
  { scope with top := { scope.top with locals := (name, type) :: scope.top.locals } }

def declareFunction (scope : Scope) (name : String) (type : Option ValueType) : Scope :=
  { scope with top := { scope.top with functions := (name, type) :: scope.top.functions } }

def frames (scope : Scope) : List Frame := scope.top :: scope.outer

def local? (scope : Scope) (name : String) : Option (Option ValueType) :=
  scope.frames.findSome? fun frame => frame.locals.lookup name

def function? (scope : Scope) (name : String) : Option (Option ValueType) :=
  scope.frames.findSome? fun frame => frame.functions.lookup name

def contains (scope : Scope) (name : String) : Bool := (scope.local? name).isSome

/-- Closing a frame undoes opening it. -/
@[simp] theorem pop_push (scope : Scope) : scope.push.pop = scope := rfl

end Scope

end Shaderlift
