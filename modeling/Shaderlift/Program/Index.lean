import Shaderlift.Source.Tree.Decl

/-!
The types of a source text by name. Of several types with one name the first in source order counts, an
outer type before those inside it.
-/

namespace Shaderlift

/-- A declared type and the types around it, the outermost first. -/
structure TypeEntry where
  decl : TypeDecl
  enclosing : List TypeDecl

namespace TypeEntry

def name (entry : TypeEntry) : String := entry.decl.name

def isValueType (entry : TypeEntry) : Bool :=
  match entry.decl.kind with
  | .struct | .recordStruct => true
  | _ => false

/-- Decide whether a declaration by itself can be seen from outside. A type inside another is hidden
unless it says otherwise. -/
def isVisible (isNested : Bool) (decl : TypeDecl) : Bool :=
  let has (modifier : Modifier) : Bool := decl.header.modifiers.contains modifier
  if has .isFile then false
  else if has .isPublic || has .isInternal then true
  else !isNested && !has .isPrivate && !has .isProtected

/-- Decide whether a type can be seen from outside its file and the types around it. -/
def isAccessible (entry : TypeEntry) : Bool :=
  match entry.enclosing ++ [entry.decl] with
  | [] => true
  | outermost :: inner => isVisible false outermost && inner.all (isVisible true)

def nestedName (entry : TypeEntry) : String :=
  Text.joinWith "." (entry.enclosing.map TypeDecl.name ++ [entry.name])

def namespace? (entry : TypeEntry) : Option String :=
  (entry.enclosing.headD entry.decl).header.enclosingNamespace

end TypeEntry

/-- The types of a source text, one for each name, in the order of the names. -/
structure TypeIndex where
  entries : List TypeEntry

namespace TypeIndex

mutual

def entriesOf (enclosing : List TypeDecl) : TypeDecl → List TypeEntry
  | ⟨header, members⟩ =>
    ⟨⟨header, members⟩, enclosing⟩ :: entriesOfMembers (enclosing ++ [⟨header, members⟩]) members

def entriesOfMembers (enclosing : List TypeDecl) : List Member → List TypeEntry
  | [] => []
  | member :: rest => entriesOfMember enclosing member ++ entriesOfMembers enclosing rest

def entriesOfMember (enclosing : List TypeDecl) : Member → List TypeEntry
  | .type decl => entriesOf enclosing decl
  | .field _ => []
  | .method _ => []
  | .property _ => []
  | .constructor _ => []

end

def firstOfEach (entries : List TypeEntry) : List TypeEntry :=
  entries.foldl
    (fun kept entry => if kept.any fun other => other.name == entry.name then kept else kept ++ [entry]) []

/-- Put an entry before the first one whose name does not come before its own. -/
def insertByName (entry : TypeEntry) : List TypeEntry → List TypeEntry
  | [] => [entry]
  | other :: rest =>
    if compare entry.name other.name == .gt then other :: insertByName entry rest
    else entry :: other :: rest

def orderByName (entries : List TypeEntry) : List TypeEntry := entries.foldr insertByName []

def build (unit : SourceUnit) : TypeIndex :=
  ⟨orderByName (firstOfEach (unit.types.flatMap (entriesOf [])))⟩

def get? (index : TypeIndex) (name : String) : Option TypeEntry :=
  index.entries.find? fun entry => entry.name == Text.lastSegment name

def find? (index : TypeIndex) (name : String) : Option TypeEntry :=
  match index.get? name with
  | none => none
  | some entry =>
    let nested := entry.nestedName
    let full := entry.namespace?.map (Text.dotted · nested)
    if name == entry.name || name == nested || full == some name then some entry else none

end TypeIndex

end Shaderlift
