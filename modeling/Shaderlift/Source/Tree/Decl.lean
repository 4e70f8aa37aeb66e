import Shaderlift.Source.Tree.Stmt

/-!
Declarations: types with their members, and whole source texts. The types of a source text stand in
source order whatever namespace they are in.
-/

namespace Shaderlift

/-- What a declared type is. -/
inductive TypeKind where
  | struct | classType | interfaceType | record | recordStruct
  deriving DecidableEq, Repr, Inhabited

/-- A field declaration, of one name at least. -/
structure FieldDecl where
  attributes : List Attr
  modifiers : List Modifier
  type : TypeExpr
  declarators : List Declarator
  span : Span

/-- An accessor of a property. -/
structure Accessor where
  name : String
  body : Option MethodBody
  span : Span

/-- A property. -/
structure PropertyDecl where
  attributes : List Attr
  modifiers : List Modifier
  type : TypeExpr
  name : String
  accessors : List Accessor
  exprBody : Option Expr
  init : Option Expr
  span : Span

/-- A constructor. -/
structure ConstructorDecl where
  modifiers : List Modifier
  name : String
  params : List Param
  body : Option MethodBody
  span : Span

/-- A declared type without its members. -/
structure TypeHeader where
  attributes : List Attr
  modifiers : List Modifier
  kind : TypeKind
  name : String
  typeParams : List String
  bases : List TypeExpr
  enclosingNamespace : Option String
  span : Span

mutual

/-- A declared type. -/
structure TypeDecl where
  header : TypeHeader
  members : List Member

/-- A member of a type. -/
inductive Member where
  | field (decl : FieldDecl)
  | method (decl : MethodDecl)
  | property (decl : PropertyDecl)
  | constructor (decl : ConstructorDecl)
  | type (decl : TypeDecl)

end

/-- A `using` line. -/
structure UsingDirective where
  aliasName : Option String
  isStatic : Bool
  target : TypeExpr
  span : Span

/-- A source text: its `using` lines and its types outside other types. -/
structure SourceUnit where
  usings : List UsingDirective
  types : List TypeDecl

def FieldDecl.isStatic (field : FieldDecl) : Bool :=
  field.modifiers.contains .isStatic || field.modifiers.contains .isConst

def FieldDecl.attribute? (field : FieldDecl) (name : String) : Option Attr :=
  field.attributes.find? fun attr => attr.name == name

namespace TypeDecl

def name (decl : TypeDecl) : String := decl.header.name

def kind (decl : TypeDecl) : TypeKind := decl.header.kind

def span (decl : TypeDecl) : Span := decl.header.span

def fields (decl : TypeDecl) : List FieldDecl :=
  decl.members.filterMap fun
    | .field field => some field
    | _ => none

def methods (decl : TypeDecl) : List MethodDecl :=
  decl.members.filterMap fun
    | .method method => some method
    | _ => none

def nested (decl : TypeDecl) : List TypeDecl :=
  decl.members.filterMap fun
    | .type nested => some nested
    | _ => none

end TypeDecl

end Shaderlift
