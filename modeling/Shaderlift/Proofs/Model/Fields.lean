import Mathlib.Data.List.Basic
import Shaderlift.Model.Build
import Shaderlift.Proofs.Diagnostic.Reports

/-!
# What the fields of a shader are judged to be

A declared name of a shader is judged once. `FieldVerdict.Judged` says what a verdict can be and when: a
value, a resource of a dispatched shader, a texture of an image effect with its index, or a field that is left
out. What follows about the model of a shader is read off from it: which of the declared names are resources,
and in what order.
-/

namespace Shaderlift

open List

namespace Program

def isResource (program : Program) (type : TypeExpr) : Bool :=
  match program.meaning type with
  | .resource _ => true
  | _ => false

def isTexture (program : Program) (type : TypeExpr) : Bool :=
  match program.meaning type with
  | .resource res => res.isEffectTexture
  | _ => false

/-- Decide whether a declared name is a texture that an image effect can bind: it belongs to each value of the
shader, and its type is that of a texture whose elements can be sampled. -/
def bindsTexture (program : Program) (field : FieldDecl) (declarator : Declarator) : Bool :=
  (field.attribute? "GroupShared").isNone && !field.isStatic && declarator.fixedSize.isNone &&
    !field.type.isRawBool &&
    match program.meaning field.type with
    | .resource res => res.isEffectTexture && res.elementIsValid
    | _ => false

/-- List the names that a shader declares as fields, in source order. -/
def declaredNames (program : Program) : List String :=
  program.shader.fields.flatMap fun field => field.declarators.map Declarator.name

/-- List the names that a shader declares as resources, in source order. -/
def resourceNames (program : Program) : List String :=
  program.shader.fields.flatMap fun field =>
    if program.isResource field.type then field.declarators.map Declarator.name else []

/-- List the textures that an image effect can bind, in source order. -/
def textureNames (program : Program) : List String :=
  program.shader.fields.flatMap fun field =>
    (field.declarators.filter (program.bindsTexture field)).map Declarator.name

end Program

namespace FieldVerdict

/-- What a verdict on a declared name can be. -/
inductive Judged (program : Program) (config : Config) (field : FieldDecl) (declarator : Declarator) :
    FieldVerdict → Prop
  | value {type : ValueType} {role : FieldRole} :
      program.isResource field.type = false → (∀ index, role ≠ .textureIndex index) →
      Judged program config field declarator (.ok ⟨declarator.name, .value type, role, field.span⟩)
  | resource {resource : Resource} {role : FieldRole} :
      program.kind.isEffect = false → program.isResource field.type = true →
      (∀ index, role ≠ .textureIndex index) →
      Judged program config field declarator (.ok ⟨declarator.name, .resource resource, role, field.span⟩)
  | texture {resource : Resource} {index : UInt32} :
      program.kind.isEffect = true → program.bindsTexture field declarator = true →
      program.isResource field.type = true → resource.dims?.isSome →
      config.resourceTextures.entries.lookup declarator.name = some index →
      Judged program config field declarator
        (.ok ⟨declarator.name, .resource resource, .textureIndex index.toNat, field.span⟩)
  | unindexed :
      program.bindsTexture field declarator = true →
      config.resourceTextures.entries.lookup declarator.name = none →
      Judged program config field declarator
        (.error [program.complain .missingResourceTextureIndex field.span [declarator.name]])
  | rejected {rule : Rule} {args : List String} :
      rule.isOnIndices = false → rule.severity = .error →
      (program.kind.isEffect = true → program.bindsTexture field declarator = false) →
      Judged program config field declarator (.error [program.complain rule field.span args])
  | forbidden :
      program.isResource field.type = false → Judged program config field declarator (.error [])

section Judged

variable {prog : Program} {cfg : Config} {dispatch : Dispatch} {field : FieldDecl} {declarator : Declarator}

theorem judged_rejectType
    (hBinds : prog.kind.isEffect = true → prog.bindsTexture field declarator = false) :
    Judged prog cfg field declarator (rejectType prog field declarator.name) :=
  .rejected rfl rfl hBinds

theorem isResource_of_meaning {meaning : Meaning} (hMeaning : prog.meaning field.type = meaning)
    (hNone : ∀ res, meaning ≠ .resource res) : prog.isResource field.type = false := by
  rw [Program.isResource, hMeaning]
  cases meaning with
  | resource res => exact absurd rfl (hNone res)
  | _ => rfl

theorem bindsTexture_of_isResource (hRes : prog.isResource field.type = false) :
    prog.bindsTexture field declarator = false := by
  unfold Program.isResource at hRes
  unfold Program.bindsTexture
  split at hRes
  · cases hRes
  · exact Bool.and_false _

theorem judged_ofResource {res : Resource} (hMeaning : prog.meaning field.type = .resource res)
    (hPlain : ((field.attribute? "GroupShared").isNone && !field.isStatic && declarator.fixedSize.isNone &&
      !field.type.isRawBool) = true) :
    Judged prog cfg field declarator (ofResource prog cfg field declarator.name res) := by
  have hBinds : prog.bindsTexture field declarator = (res.isEffectTexture && res.elementIsValid) := by
    rw [Program.bindsTexture, hPlain, Bool.true_and, hMeaning]
  have hRes : prog.isResource field.type = true := by rw [Program.isResource, hMeaning]
  unfold ofResource
  dsimp only
  split
  · rename_i hOther
    refine judged_rejectType fun hEffect => ?_
    rw [hBinds]
    cases hTexture : res.isEffectTexture with
    | true => simp [hTexture, hEffect] at hOther
    | false => rfl
  · rename_i hSame
    have hSame : res.isEffectTexture = prog.kind.isEffect := by simpa using hSame
    split
    · rename_i hElement
      have hElement : res.elementIsValid = false := by simpa using hElement
      have hNone : prog.kind.isEffect = true → prog.bindsTexture field declarator = false := by
        intro _
        rw [hBinds, hElement, Bool.and_false]
      split
      · exact .rejected rfl rfl hNone
      · exact judged_rejectType hNone
    · rename_i hElement
      have hElement : res.elementIsValid = true := by simpa using hElement
      split
      · rename_i hTexture
        have hBound : prog.bindsTexture field declarator = true := by rw [hBinds, hTexture, hElement, Bool.and_true]
        have hDims : res.dims?.isSome = true := by
          unfold Resource.isEffectTexture at hTexture
          unfold Resource.dims?
          split at hTexture
          · rename_i hKind
            rw [hKind]
            rfl
          · cases hTexture
        split
        · rename_i index hIdx
          exact .texture (hSame ▸ hTexture) hBound hRes hDims hIdx
        · rename_i hIdx
          exact .unindexed hBound hIdx
      · rename_i hTexture
        have hKind : prog.kind.isEffect = false := by
          rw [← hSame]
          simpa using hTexture
        split
        · exact .resource hKind hRes nofun
        · exact .resource hKind hRes nofun

theorem judged_ofInstance (hPlain : ((field.attribute? "GroupShared").isNone && !field.isStatic &&
      declarator.fixedSize.isNone) = true) :
    Judged prog cfg field declarator (ofInstance prog cfg field declarator.name) := by
  unfold ofInstance
  split
  · rename_i hBool
    refine judged_rejectType fun _ => ?_
    unfold Program.bindsTexture
    rw [hBool, Bool.not_true, Bool.and_false, Bool.false_and]
  · rename_i hBool
    split
    · rename_i hMeaning
      exact .value (isResource_of_meaning hMeaning nofun) nofun
    · rename_i hMeaning
      refine judged_ofResource hMeaning ?_
      rw [hPlain, Bool.true_and]
      simpa using hBool
    · rename_i hMeaning
      exact .forbidden (isResource_of_meaning hMeaning nofun)
    · rename_i hMeaning
      exact judged_rejectType fun _ => bindsTexture_of_isResource (isResource_of_meaning hMeaning nofun)
    · rename_i hMeaning
      exact judged_rejectType fun _ => bindsTexture_of_isResource (isResource_of_meaning hMeaning nofun)

theorem judged_ofStatic (hStatic : field.isStatic = true) :
    Judged prog cfg field declarator (ofStatic prog field declarator) := by
  have hBinds : prog.bindsTexture field declarator = false := by
    rw [Program.bindsTexture, hStatic, Bool.not_true, Bool.and_false, Bool.false_and, Bool.false_and, Bool.false_and]
  unfold ofStatic
  split
  · rename_i hMeaning
    exact .forbidden (isResource_of_meaning hMeaning fun _ hEq => by cases hEq)
  · dsimp only
    split
    · rename_i type hType
      refine .value ?_ fun _ hEq => by cases hEq
      have hSome : prog.staticValueType? field.type declarator.init = some type := by
        split at hType
        · exact hType
        · cases hType
      unfold Program.staticValueType? at hSome
      split at hSome
      · rename_i hMeaning
        exact isResource_of_meaning hMeaning fun _ hEq => by cases hEq
      · rename_i hMeaning _
        exact isResource_of_meaning hMeaning fun _ hEq => by cases hEq
      · cases hSome
    · exact .rejected rfl rfl fun _ => hBinds

theorem judged_ofShared {attr : Attr} (hShared : field.attribute? "GroupShared" = some attr) :
    Judged prog cfg field declarator (ofShared prog dispatch field declarator attr) := by
  have hBinds : prog.bindsTexture field declarator = false := by
    rw [Program.bindsTexture, hShared, Option.isNone_some, Bool.false_and, Bool.false_and, Bool.false_and,
      Bool.false_and]
  unfold ofShared
  dsimp only
  split
  · exact .rejected rfl rfl fun _ => hBinds
  · split
    · rename_i hType
      split
      · refine .value ?_ fun _ hEq => by cases hEq
        rw [Program.isResource, hType]
        rfl
      · exact .rejected rfl rfl fun _ => hBinds
    · exact .rejected rfl rfl fun _ => hBinds

variable (prog cfg dispatch field declarator) in
/-- Every verdict is one of these. -/
theorem judged_ofDeclarator : Judged prog cfg field declarator (ofDeclarator prog cfg dispatch field declarator) := by
  unfold ofDeclarator
  split
  · exact judged_ofShared ‹_›
  · rename_i hShared
    split
    · exact judged_ofStatic ‹_›
    · rename_i hStatic
      split
      · rename_i hFixed
        refine judged_rejectType fun _ => ?_
        rw [Program.bindsTexture, Option.isNone_eq_false_iff.mpr hFixed, Bool.and_false, Bool.false_and, Bool.false_and]
      · rename_i hFixed
        refine judged_ofInstance ?_
        rw [hShared, Option.isNone_none, Bool.true_and, Option.isNone_iff_eq_none.mpr (by simpa using hFixed), Bool.and_true]
        simpa using hStatic

end Judged

end FieldVerdict

/-! ## The fields of a model -/

theorem Program.hasErrors_complain {prog : Program} {rule : Rule} (hRule : rule.severity = .error) (span : Span)
    (args : List String) : Report.hasErrors [prog.complain rule span args] = true := by
  simp [Report.hasErrors, complain, Diagnostic.make, Diagnostic.isError, Diagnostic.severity, hRule]

def FieldVerdict.complaints : FieldVerdict → Report
  | .ok _ => []
  | .error report => report

namespace Program

variable (prog : Program) (cfg : Config) (dispatch : Dispatch)

theorem report_fieldInfos :
    (prog.fieldInfos cfg dispatch).2 = (prog.verdicts cfg dispatch).flatMap FieldVerdict.complaints := rfl

/-- What is picked from the fields of a model is picked from the verdicts, declared name by declared name. -/
theorem filterMap_fieldInfos {β : Type} {pick : FieldInfo → Option β} {picked : FieldDecl → Declarator → Option β}
    (hPicked : ∀ field ∈ prog.shader.fields, ∀ declarator ∈ field.declarators,
      (FieldVerdict.ofDeclarator prog cfg dispatch field declarator).toOption.bind pick = picked field declarator) :
    (prog.fieldInfos cfg dispatch).1.filterMap pick =
      prog.shader.fields.flatMap fun field => field.declarators.filterMap (picked field) := by
  rw [fieldInfos, filterMap_filterMap, verdicts, filterMap_flatMap]
  refine flatMap_congr fun field hField => ?_
  rw [filterMap_map]
  exact filterMap_congr fun declarator hDeclarator => hPicked field hField declarator hDeclarator

/-- A field of a model comes from a declared name about which nothing is wrong. -/
theorem exists_of_mem_fieldInfos {info : FieldInfo} (hInfo : info ∈ (prog.fieldInfos cfg dispatch).1) :
    ∃ field ∈ prog.shader.fields, ∃ declarator ∈ field.declarators,
      FieldVerdict.ofDeclarator prog cfg dispatch field declarator = .ok info := by
  obtain ⟨verdict, hVerdict, hOk⟩ := mem_filterMap.mp hInfo
  obtain ⟨field, hField, hMem⟩ := mem_flatMap.mp hVerdict
  obtain ⟨declarator, hDeclarator, hSame⟩ := mem_map.mp hMem
  cases verdict with
  | error => cases hOk
  | ok found =>
    cases hOk
    exact ⟨field, hField, declarator, hDeclarator, hSame⟩

theorem judged_of_mem_fieldInfos {info : FieldInfo} (hInfo : info ∈ (prog.fieldInfos cfg dispatch).1) :
    ∃ field declarator, FieldVerdict.Judged prog cfg field declarator (.ok info) := by
  obtain ⟨field, -, declarator, -, hOk⟩ := prog.exists_of_mem_fieldInfos cfg dispatch hInfo
  exact ⟨field, declarator, hOk ▸ FieldVerdict.judged_ofDeclarator prog cfg dispatch field declarator⟩

/-- If nothing is wrong with the fields, then what a verdict reports is no error. -/
theorem quiet_of_verdict (hQuiet : Report.hasErrors (prog.fieldInfos cfg dispatch).2 = false)
    {field : FieldDecl} (hField : field ∈ prog.shader.fields) {declarator : Declarator}
    (hDeclarator : declarator ∈ field.declarators) {report : Report}
    (hVerdict : FieldVerdict.ofDeclarator prog cfg dispatch field declarator = .error report) :
    Report.hasErrors report = false := by
  have hMem : .error report ∈ prog.verdicts cfg dispatch :=
    mem_flatMap.mpr ⟨field, hField, mem_map.mpr ⟨declarator, hDeclarator, hVerdict⟩⟩
  rw [Report.hasErrors, any_eq_false] at hQuiet ⊢
  exact fun diagnostic hDiagnostic => hQuiet diagnostic (mem_flatMap.mpr ⟨_, hMem, hDiagnostic⟩)

/-- If nothing is wrong with the fields, then the resources among them are the names that are declared as
resources, in source order. -/
theorem resources_fieldInfos (hQuiet : Report.hasErrors (prog.fieldInfos cfg dispatch).2 = false) :
    ((prog.fieldInfos cfg dispatch).1.filter fun field => field.resource?.isSome).map FieldInfo.name =
      prog.resourceNames := by
  have hPicked : ∀ field ∈ prog.shader.fields, ∀ declarator ∈ field.declarators,
      ((FieldVerdict.ofDeclarator prog cfg dispatch field declarator).toOption.bind fun field =>
        if field.resource?.isSome then some field.name else none) =
          if prog.isResource field.type then some declarator.name else none := by
    intro field hField declarator hDeclarator
    have hNone := @quiet_of_verdict prog cfg dispatch hQuiet field hField declarator hDeclarator
    have hJudged := FieldVerdict.judged_ofDeclarator prog cfg dispatch field declarator
    generalize FieldVerdict.ofDeclarator prog cfg dispatch field declarator = verdict at hNone hJudged
    cases hJudged with
    | value hOther | forbidden hOther => rw [hOther]; rfl
    | resource _ hRes | texture _ _ hRes => rw [hRes]; rfl
    | unindexed => cases (hNone rfl).symm.trans (hasErrors_complain rfl _ _)
    | rejected _ hError => cases (hNone rfl).symm.trans (hasErrors_complain hError _ _)
  rw [← filterMap_eq_filter, ← filterMap_eq_map, filterMap_filterMap]
  refine Eq.trans (filterMap_congr fun field _ => ?_)
    ((prog.filterMap_fieldInfos cfg dispatch hPicked).trans (flatMap_congr fun field _ => ?_))
  · cases hRes : field.resource? with
    | none => simp [hRes]
    | some => simp [hRes]
  · cases prog.isResource field.type with
    | true => exact congrFun filterMap_eq_map _
    | false => exact filterMap_eq_nil_iff.mpr fun _ _ => rfl

/-- The textures of an image effect are those that it can bind and that have an index, in source order. -/
theorem textures_fieldInfos (hKind : prog.kind.isEffect = true) :
    ((prog.fieldInfos cfg dispatch).1.filterMap TextureInfo.ofField?).map
        (fun texture => (texture.field, texture.index)) = prog.textureNames.filterMap fun name =>
        (cfg.resourceTextures.entries.lookup name).map fun index => (name, index.toNat) := by
  have hPicked : ∀ field ∈ prog.shader.fields, ∀ declarator ∈ field.declarators,
      ((FieldVerdict.ofDeclarator prog cfg dispatch field declarator).toOption.bind fun field =>
        (TextureInfo.ofField? field).map fun texture => (texture.field, texture.index)) =
          if prog.bindsTexture field declarator then
            (cfg.resourceTextures.entries.lookup declarator.name).map fun index => (declarator.name, index.toNat)
          else none := by
    intro field hField declarator hDeclarator
    have hJudged := FieldVerdict.judged_ofDeclarator prog cfg dispatch field declarator
    generalize FieldVerdict.ofDeclarator prog cfg dispatch field declarator = verdict at hJudged
    cases hJudged with
    | value hOther hRole =>
      rw [FieldVerdict.bindsTexture_of_isResource hOther]
      simp [Except.toOption, TextureInfo.ofField?]
    | forbidden hOther => rw [FieldVerdict.bindsTexture_of_isResource hOther]; rfl
    | resource hOther => cases hKind.symm.trans hOther
    | texture _ hBinds _ hDims hIdx =>
      obtain ⟨dims, hDims⟩ := Option.isSome_iff_exists.mp hDims
      rw [hBinds, hIdx]
      simp [Except.toOption, TextureInfo.ofField?, hDims]
    | unindexed hBinds hIdx => rw [hBinds, hIdx]; rfl
    | rejected _ _ hBinds => rw [hBinds hKind]; rfl
  rw [← filterMap_eq_map, filterMap_filterMap]
  refine Eq.trans (filterMap_congr fun field _ => ?_)
    ((prog.filterMap_fieldInfos cfg dispatch hPicked).trans ?_)
  · exact Option.map_eq_bind.symm
  · rw [textureNames, filterMap_flatMap]
    refine flatMap_congr fun field _ => ?_
    rw [filterMap_map, filterMap_filter]
    rfl

end Program

end Shaderlift
