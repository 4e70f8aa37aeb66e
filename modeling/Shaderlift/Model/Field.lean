import Shaderlift.Model.Basic
import Shaderlift.Program.Static

/-!
What the fields of a shader are. A field that cannot be is reported and left out of the model.
-/

namespace Shaderlift

namespace Program

/-- Word a broken rule of the shader as a whole. -/
def complain (program : Program) (rule : Rule) (span : Span) (args : List String) : Diagnostic :=
  Diagnostic.make rule (some span) (program.shader.name :: args)

/-- Word a broken rule at the place of the shader. -/
def complainHere (program : Program) (rule : Rule) (args : List String) : Diagnostic :=
  program.complain rule program.shader.span args

end Program

abbrev FieldVerdict := Except Report FieldInfo

namespace FieldVerdict

def reject (program : Program) (rule : Rule) (field : FieldDecl) (args : List String) : FieldVerdict :=
  .error [program.complain rule field.span args]

def rejectType (program : Program) (field : FieldDecl) (name : String) : FieldVerdict :=
  reject program .invalidShaderFieldType field [name, field.type.render]

def ofResource (program : Program) (config : Config) (field : FieldDecl) (name : String)
    (resource : Resource) : FieldVerdict :=
  let accept (role : FieldRole) : FieldVerdict := .ok ⟨name, .resource resource, role, field.span⟩
  if resource.isEffectTexture != program.kind.isEffect then rejectType program field name
  else if !resource.elementIsValid then
    if resource.isEffectTexture then
      reject program .invalidResourceTextureElementType field [name, resource.element.spelling]
    else rejectType program field name
  else if resource.isEffectTexture then
    match config.resourceTextures.entries.lookup name with
    | some index => accept (.textureIndex index.toNat)
    | none => reject program .missingResourceTextureIndex field [name]
  else if resource.isBuffer then accept .bufferResource
  else accept .textureResource

/-- Judge a field that belongs to a value of the shader. A shape that cannot be is left to the rules on
constructs. -/
def ofInstance (program : Program) (config : Config) (field : FieldDecl) (name : String) : FieldVerdict :=
  if field.type.isRawBool then rejectType program field name
  else
    match program.meaning field.type with
    | .value type => .ok ⟨name, .value type, .plainData, field.span⟩
    | .resource resource => ofResource program config field name resource
    | .forbidden _ => .error []
    | .managed _ => rejectType program field name
    | .unsupported _ => rejectType program field name

def ofStatic (program : Program) (field : FieldDecl) (declarator : Declarator) : FieldVerdict :=
  match program.meaning field.type with
  | .forbidden _ => .error []
  | _ =>
    let hasType := !field.type.isRawBool || field.modifiers.contains .isConst
    match if hasType then program.staticValueType? field.type declarator.init else none with
    | some type => .ok ⟨declarator.name, .value type, .static field.isConstant, field.span⟩
    | none =>
      reject program .invalidStaticFieldType field [declarator.name, field.type.render]

/-- The length of memory shared by a group: as its attribute says, as its initial value says, or one
element a thread. -/
def sharedLength (attr : Attr) (init : Option Expr) (dispatch : Dispatch) : Nat :=
  match attr.args.head?.bind (fun arg => arg.value.wordLiteral?), init.bind Expr.arrayLength? with
  | some length, _ => length
  | none, some length => length
  | none, none => dispatch.groupSize.threads

def ofShared (program : Program) (dispatch : Dispatch) (field : FieldDecl) (declarator : Declarator)
    (attr : Attr) : FieldVerdict :=
  let name := declarator.name
  if !field.isStatic || program.kind.isEffect then
    reject program .invalidGroupSharedDeclaration field [name]
  else
    match field.type with
    | .array _ element 1 =>
      match if element.isRawBool then none else program.valueType? element with
      | some type =>
        let length := sharedLength attr declarator.init dispatch
        .ok ⟨name, .value (.array type (some length)), .groupShared length, field.span⟩
      | none => reject program .invalidGroupSharedElementType field [name, element.render]
    | _ => reject program .invalidGroupSharedFieldType field [name, field.type.render]

def ofDeclarator (program : Program) (config : Config) (dispatch : Dispatch) (field : FieldDecl)
    (declarator : Declarator) : FieldVerdict :=
  match field.attribute? "GroupShared" with
  | some attr => ofShared program dispatch field declarator attr
  | none =>
    if field.isStatic then ofStatic program field declarator
    else if declarator.fixedSize.isSome then rejectType program field declarator.name
    else ofInstance program config field declarator.name

end FieldVerdict

namespace Program

/-- Judge the fields of the shader in source order. -/
def verdicts (program : Program) (config : Config) (dispatch : Dispatch) : List FieldVerdict :=
  program.shader.fields.flatMap fun field =>
    field.declarators.map (FieldVerdict.ofDeclarator program config dispatch field)

/-- List the fields of the shader in source order, and what is wrong with the others. -/
def fieldInfos (program : Program) (config : Config) (dispatch : Dispatch) : List FieldInfo × Report :=
  let verdicts := program.verdicts config dispatch
  (verdicts.filterMap Except.toOption,
    verdicts.flatMap fun
      | .ok _ => []
      | .error report => report)

end Program

end Shaderlift
