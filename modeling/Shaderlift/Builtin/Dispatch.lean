import Shaderlift.Types.Resource

/-!
Names that a shader knows without declaring them: the coordinates of a dispatch and the sizes of
resources.
-/

namespace Shaderlift

/-- The coordinates of a dispatch. -/
inductive DispatchInfo where
  | threadIds | groupIds | gridIds | groupSize | dispatchSize
  deriving DecidableEq, Repr, Inhabited

namespace DispatchInfo

def table : List (String × DispatchInfo) :=
  [("ThreadIds", .threadIds), ("GroupIds", .groupIds), ("GridIds", .gridIds),
   ("GroupSize", .groupSize), ("DispatchSize", .dispatchSize)]

def ofName? (name : String) : Option DispatchInfo := table.lookup name

def name : DispatchInfo → String
  | .threadIds => "ThreadIds"
  | .groupIds => "GroupIds"
  | .gridIds => "GridIds"
  | .groupSize => "GroupSize"
  | .dispatchSize => "DispatchSize"

end DispatchInfo

/-- A size of a resource. -/
inductive ResourceProperty where
  | length | width | height | depth
  deriving DecidableEq, Repr, Inhabited

namespace ResourceProperty

def name : ResourceProperty → String
  | .length => "Length"
  | .width => "Width"
  | .height => "Height"
  | .depth => "Depth"

/-- The place of a size in the order of sizes. -/
def rank : ResourceProperty → Nat
  | .length => 0
  | .width => 1
  | .height => 2
  | .depth => 3

def ofName? (resource : Resource) (name : String) : Option ResourceProperty :=
  match resource.dims?, name with
  | none, "Length" => some .length
  | some _, "Width" => some .width
  | some dims, "Height" => if dims == 2 || dims == 3 then some .height else none
  | some dims, "Depth" => if dims == 3 then some .depth else none
  | _, _ => none

end ResourceProperty

end Shaderlift
