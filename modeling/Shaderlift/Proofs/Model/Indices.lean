import Mathlib.Data.List.Nodup
import Mathlib.Data.List.Pairwise
import Shaderlift.Proofs.Model.Fields

/-!
# The numbering of inputs and textures

The checks on the indices of an image effect are sound and complete: they report nothing exactly when the inputs
and the textures are well numbered. Each check is characterized by itself; the clamped count of inputs and the
textures that are left out for want of an index do not hide anything, because what clamps or leaves out is
reported as well.
-/

namespace Shaderlift

open List
open TextureInfo (checkNames checkIndices ofField?)

/-! ## Well numbered configurations -/

/-- The inputs of a configuration are numbered below a count, each once and as one kind, and described at most
once. -/
structure Config.NumbersInputs (config : Config) (count : Nat) : Prop where
  simple : config.simpleInputs.Nodup
  complex : config.complexInputs.Nodup
  disjoint : config.simpleInputs.Disjoint config.complexInputs
  below : ∀ index ∈ config.simpleInputs ++ config.complexInputs, index.toNat < count
  described : (config.inputDescriptions.map InputDescription.index).Nodup
  describedBelow : ∀ description ∈ config.inputDescriptions, description.index.toNat < count

/-- List the names that a shader declares with a type of textures, in source order. -/
def Program.declaredTextures (program : Program) : List String :=
  program.shader.fields.flatMap fun field =>
    if program.isTexture field.type then field.declarators.map Declarator.name else []

/-- The textures of a shader have indices of their own from a count on, and only declared textures have one. -/
structure Program.NumbersTextures (program : Program) (config : Config) (count : Nat) : Prop where
  indexed : ∀ name ∈ program.textureNames, ∃ index, config.resourceTextures.entries.lookup name = some index ∧
    count ≤ index.toNat ∧ index.toNat < 16
  distinct : (program.textureNames.filterMap fun name => config.resourceTextures.entries.lookup name).Nodup
  declared : ∀ name ∈ config.resourceTextures.entries.map Prod.fst, name ∈ program.declaredTextures

/-- An image effect is well numbered: it has at most eight inputs, and its inputs and textures are numbered as
they have to be. -/
def Program.WellNumbered (program : Program) (config : Config) : Prop :=
  ∃ count, config.inputCount = some count ∧ count.toNat ≤ 8 ∧ config.NumbersInputs count.toNat ∧
    program.NumbersTextures config count.toNat

/-! ## Reports without a word on indices -/

namespace Program

open Report

variable {prog : Program} {rule : Rule}

theorem sparesIndices_complain (hRule : rule.isOnIndices = false) (span : Span) (args : List String) :
    SparesIndices [prog.complain rule span args] := forall_mem_singleton.mpr hRule

/-- A complaint on indices, made under a condition, is spared exactly when the condition fails. -/
theorem sparesIndices_ite (hRule : rule.isOnIndices = true) {test : Prop} [Decidable test] {span : Span}
    {args : List String} :
    SparesIndices (if test then [prog.complain rule span args] else []) ↔ ¬ test := by
  by_cases hTest : test
  · rw [if_pos hTest]
    refine ⟨fun hSpares => ?_, fun hNot => absurd hTest hNot⟩
    cases (hSpares _ mem_cons_self).symm.trans hRule
  · rw [if_neg hTest]
    exact ⟨fun _ => hTest, fun _ => sparesIndices_nil⟩

/-- Complaints on indices, one for each item of a list, are spared exactly when there is no item. -/
theorem sparesIndices_map {α : Type} (hRule : rule.isOnIndices = true) {items : List α} {span : Span}
    {args : α → List String} :
    SparesIndices (items.map fun item => prog.complain rule span (args item)) ↔ items = [] := by
  cases items with
  | nil => exact ⟨fun _ => rfl, fun _ => sparesIndices_nil⟩
  | cons item rest =>
    refine ⟨fun hSpares => ?_, nofun⟩
    cases (hSpares _ mem_cons_self).symm.trans hRule

end Program

/-! ## Indices one after the other -/

/-- Indices are given once, and none of them has been seen before. -/
def Fresh (seen indices : List Nat) : Prop := indices.Nodup ∧ ∀ index ∈ indices, index ∉ seen

theorem fresh_nil {indices : List Nat} : Fresh [] indices ↔ indices.Nodup :=
  and_iff_left fun _ _ => not_mem_nil

/-- A check that walks over indices and remembers those that it has seen finds each fresh index. -/
theorem fresh_cons {seen rest : List Nat} {index : Nat} :
    Fresh seen (index :: rest) ↔ index ∉ seen ∧ Fresh (index :: seen) rest := by
  unfold Fresh
  rw [nodup_cons, forall_mem_cons]
  constructor
  · rintro ⟨⟨hOnce, hRest⟩, hNew, hOthers⟩
    refine ⟨hNew, hRest, fun other hOther hSeen => ?_⟩
    rcases mem_cons.mp hSeen with rfl | hSeen
    · exact hOnce hOther
    · exact hOthers other hOther hSeen
  · rintro ⟨hNew, hRest, hOthers⟩
    exact ⟨⟨fun hAgain => hOthers index hAgain mem_cons_self, hRest⟩, hNew,
      fun other hOther hSeen => hOthers other hOther (mem_cons_of_mem index hSeen)⟩

/-! ## Inputs -/

namespace Inputs

open Report

theorem repeatedFrom_eq_nil_iff (seen indices : List Nat) : repeatedFrom seen [] indices = [] ↔ Fresh seen indices := by
  induction indices generalizing seen with
  | nil => exact ⟨fun _ => ⟨.nil, nofun⟩, fun _ => rfl⟩
  | cons index rest ih =>
    unfold repeatedFrom
    rw [fresh_cons, ← ih]
    by_cases hSeen : index ∈ seen
    · simp [hSeen]
    · simp [hSeen]

/-- Words are told apart by their numbers. -/
theorem nodup_toNat {words : List UInt32} : (words.map UInt32.toNat).Nodup ↔ words.Nodup :=
  nodup_map_iff fun _ _ => UInt32.toNat_inj.mp

/-- No index is repeated exactly when each is given once. -/
theorem repeated_eq_nil_iff (indices : List UInt32) : repeated (indices.map UInt32.toNat) = [] ↔ indices.Nodup :=
  (repeatedFrom_eq_nil_iff [] _).trans (fresh_nil.trans nodup_toNat)

theorem mem_ordered {indices : List Nat} {index : Nat} : index ∈ ordered indices ↔ index ∈ indices := by
  rw [ordered, mem_mergeSort, mem_eraseDups]

/-- Two lists of indices have none in common. -/
theorem overlap_eq_nil_iff (first second : List UInt32) :
    (ordered (first.map UInt32.toNat)).filter (ordered (second.map UInt32.toNat)).contains = [] ↔
      first.Disjoint second := by
  simp only [filter_eq_nil_iff, mem_ordered, contains_eq_mem, forall_mem_map, decide_eq_true_eq,
    mem_map_of_injective fun _ _ => UInt32.toNat_inj.mp]
  exact ⟨fun hNone index => hNone index, fun hDisjoint index hFirst => hDisjoint hFirst⟩

theorem outside_eq_nil_iff (indices : List UInt32) (count : Nat) :
    (ordered (indices.map UInt32.toNat)).filter (fun index => decide (index ≥ count)) = [] ↔
      ∀ index ∈ indices, index.toNat < count := by
  simp only [filter_eq_nil_iff, mem_ordered, forall_mem_map, decide_eq_true_eq, ge_iff_le, Nat.not_le]

theorem sparesIndices_checkDescriptions (prog : Program) (count : Nat) (seen : List Nat)
    (descriptions : List InputDescription) : SparesIndices (checkDescriptions prog count seen descriptions) ↔
      Fresh seen (descriptions.map fun description => description.index.toNat) ∧
        ∀ description ∈ descriptions, description.index.toNat < count := by
  induction descriptions generalizing seen with
  | nil => exact ⟨fun _ => ⟨⟨.nil, nofun⟩, nofun⟩, fun _ => sparesIndices_nil⟩
  | cons description rest ih =>
    unfold checkDescriptions
    rw [sparesIndices_append, sparesIndices_append, Program.complainHere, Program.complainHere,
      Program.sparesIndices_ite rfl, Program.sparesIndices_ite rfl, ih, map_cons, fresh_cons, forall_mem_cons]
    simp only [contains_eq_mem, decide_eq_true_eq, ge_iff_le, Nat.not_le]
    tauto

theorem sparesIndices_countOf (prog : Program) (cfg : Config) :
    SparesIndices (countOf prog cfg).2 ↔ ∃ count, cfg.inputCount = some count ∧ count.toNat ≤ 8 := by
  unfold countOf
  cases hCount : cfg.inputCount with
  | none =>
    refine ⟨fun hSpares => ?_, nofun⟩
    cases hSpares _ mem_cons_self
  | some count =>
    dsimp only
    split
    · rename_i hLarge
      refine ⟨fun hSpares => ?_, ?_⟩
      · cases hSpares _ mem_cons_self
      · rintro ⟨other, hOther, hSmall⟩
        cases hOther
        exact absurd hSmall (Nat.not_le.mpr hLarge)
    · rename_i hSmall
      exact ⟨fun _ => ⟨count, rfl, Nat.not_lt.mp hSmall⟩, fun _ => sparesIndices_nil⟩

section Build

variable {prog : Program} {cfg : Config} (hKind : prog.kind.isEffect = true)

include hKind

theorem count_build {count : UInt32} (hCount : cfg.inputCount = some count) (hSmall : count.toNat ≤ 8) :
    (build prog cfg).1.count = count.toNat := by
  have hClamped : (countOf prog cfg).1 = count.toNat := by
    rw [countOf, hCount]
    exact congrArg Prod.fst (if_neg (Nat.not_lt.mpr hSmall))
  unfold build
  rw [hKind, if_neg (by simp)]
  exact hClamped

/-- The inputs of an image effect are reported exactly when they are not well numbered. -/
theorem sparesIndices_build : SparesIndices (build prog cfg).2 ↔
    ∃ count, cfg.inputCount = some count ∧ count.toNat ≤ 8 ∧ cfg.NumbersInputs count.toNat := by
  have hDescribed : (cfg.inputDescriptions.map fun description => description.index.toNat) =
      (cfg.inputDescriptions.map InputDescription.index).map UInt32.toNat := by rw [map_map]; rfl
  have hReport : SparesIndices (build prog cfg).2 ↔
      (((((∃ count, cfg.inputCount = some count ∧ count.toNat ≤ 8) ∧ cfg.simpleInputs.Nodup) ∧
        cfg.complexInputs.Nodup) ∧ cfg.simpleInputs.Disjoint cfg.complexInputs) ∧
        ∀ index ∈ cfg.simpleInputs ++ cfg.complexInputs, index.toNat < (build prog cfg).1.count) ∧
        (cfg.inputDescriptions.map InputDescription.index).Nodup ∧
        ∀ description ∈ cfg.inputDescriptions, description.index.toNat < (build prog cfg).1.count := by
    unfold build
    rw [hKind, if_neg (by simp)]
    dsimp only
    rw [sparesIndices_append, sparesIndices_append, sparesIndices_append, sparesIndices_append, sparesIndices_append]
    unfold Program.complainHere
    rw [Program.sparesIndices_map rfl, Program.sparesIndices_map rfl, Program.sparesIndices_map rfl,
      Program.sparesIndices_map rfl, sparesIndices_checkDescriptions, sparesIndices_countOf, repeated_eq_nil_iff,
      repeated_eq_nil_iff, overlap_eq_nil_iff, ← map_append, outside_eq_nil_iff, fresh_nil, hDescribed, nodup_toNat]
  rw [hReport]
  constructor
  · rintro ⟨⟨⟨⟨⟨⟨count, hCount, hSmall⟩, hSimple⟩, hComplex⟩, hDisjoint⟩, hBelow⟩, hOnce, hDescribedBelow⟩
    rw [count_build hKind hCount hSmall] at hBelow hDescribedBelow
    exact ⟨count, hCount, hSmall, hSimple, hComplex, hDisjoint, hBelow, hOnce, hDescribedBelow⟩
  · rintro ⟨count, hCount, hSmall, hNumbers⟩
    rw [count_build hKind hCount hSmall]
    exact ⟨⟨⟨⟨⟨⟨count, hCount, hSmall⟩, hNumbers.simple⟩, hNumbers.complex⟩, hNumbers.disjoint⟩, hNumbers.below⟩,
      hNumbers.described, hNumbers.describedBelow⟩

end Build

end Inputs

/-! ## Textures -/

namespace TextureInfo

open Report

variable {prog : Program} {cfg : Config}

theorem sparesIndices_checkIndex (count : Nat) (texture : TextureInfo) :
    SparesIndices (checkIndex prog count texture) ↔ count ≤ texture.index ∧ texture.index < 16 := by
  unfold checkIndex
  dsimp only
  split
  · rename_i hLarge
    refine ⟨fun hSpares => ?_, fun hBoth => absurd hBoth.2 (Nat.not_lt.mpr hLarge)⟩
    cases hSpares _ mem_cons_self
  · rename_i hSmall
    rw [Program.sparesIndices_ite rfl, Nat.not_lt]
    exact (and_iff_left (Nat.not_le.mp hSmall)).symm

theorem sparesIndices_checkIndices (count : Nat) (seen : List Nat) (textures : List TextureInfo) :
    SparesIndices (checkIndices prog count seen textures) ↔ Fresh seen (textures.map TextureInfo.index) ∧
        ∀ texture ∈ textures, count ≤ texture.index ∧ texture.index < 16 := by
  induction textures generalizing seen with
  | nil => exact ⟨fun _ => ⟨⟨.nil, nofun⟩, nofun⟩, fun _ => sparesIndices_nil⟩
  | cons texture rest ih =>
    unfold checkIndices
    rw [sparesIndices_append, sparesIndices_append, sparesIndices_checkIndex, Program.sparesIndices_ite rfl, ih,
      map_cons, fresh_cons, forall_mem_cons, contains_eq_mem, decide_eq_true_eq]
    tauto

end TextureInfo

namespace Program

open Report

variable {prog : Program} {cfg : Config}

/-- A declared name of an image effect is reported for want of an index exactly when it is a texture without
one. -/
theorem sparesIndices_verdict (hKind : prog.kind.isEffect = true) (dispatch : Dispatch) (field : FieldDecl)
    (declarator : Declarator) :
    SparesIndices (FieldVerdict.ofDeclarator prog cfg dispatch field declarator).complaints ↔
      (prog.bindsTexture field declarator = true → (cfg.resourceTextures.entries.lookup declarator.name).isSome) := by
  have hJudged := FieldVerdict.judged_ofDeclarator prog cfg dispatch field declarator
  generalize FieldVerdict.ofDeclarator prog cfg dispatch field declarator = verdict at hJudged
  cases hJudged with
  | value hOther | forbidden hOther =>
    rw [FieldVerdict.bindsTexture_of_isResource hOther]
    exact ⟨fun _ hTrue => absurd hTrue Bool.false_ne_true, fun _ => sparesIndices_nil⟩
  | resource hOther => cases hKind.symm.trans hOther
  | texture _ _ _ _ hIdx =>
    rw [hIdx]
    exact ⟨fun _ _ => rfl, fun _ => sparesIndices_nil⟩
  | unindexed hBinds hIdx =>
    rw [hBinds, hIdx]
    refine ⟨fun hSpares => ?_, fun hSome => ?_⟩
    · cases hSpares _ mem_cons_self
    · cases hSome rfl
  | rejected hRule _ hBinds =>
    rw [hBinds hKind]
    exact ⟨fun _ hTrue => absurd hTrue Bool.false_ne_true, fun _ => sparesIndices_complain hRule _ _⟩

/-- The fields of an image effect are reported for want of an index exactly when a texture has none. -/
theorem sparesIndices_fieldInfos (hKind : prog.kind.isEffect = true) (dispatch : Dispatch) :
    SparesIndices (prog.fieldInfos cfg dispatch).2 ↔
      ∀ name ∈ prog.textureNames, (cfg.resourceTextures.entries.lookup name).isSome := by
  have hEach : SparesIndices (prog.fieldInfos cfg dispatch).2 ↔
      ∀ field ∈ prog.shader.fields, ∀ declarator ∈ field.declarators,
        SparesIndices (FieldVerdict.ofDeclarator prog cfg dispatch field declarator).complaints := by
    rw [prog.report_fieldInfos cfg dispatch]
    unfold SparesIndices verdicts
    simp only [forall_mem_flatMap, forall_mem_map]
  rw [hEach]
  simp only [sparesIndices_verdict hKind, textureNames, forall_mem_flatMap, forall_mem_map,
    mem_filter, and_imp]

theorem eq_of_declares (hNames : prog.declaredNames.Nodup) {first second : FieldDecl}
    (hFirst : first ∈ prog.shader.fields) (hSecond : second ∈ prog.shader.fields) {name : String}
    (hInFirst : name ∈ first.declarators.map Declarator.name)
    (hInSecond : name ∈ second.declarators.map Declarator.name) : first = second := by
  by_contra hOther
  have hApart := (nodup_flatMap.mp hNames).2
  have hSymm : Std.Symm (Function.onFun List.Disjoint fun field : FieldDecl => field.declarators.map Declarator.name) :=
    ⟨fun _ _ hDisjoint _ hFirst hSecond => hDisjoint hSecond hFirst⟩
  exact hApart.forall hFirst hSecond hOther hInFirst hInSecond

theorem mem_declaredTextures {name : String} :
    name ∈ prog.declaredTextures ↔ ∃ field ∈ prog.shader.fields, prog.isTexture field.type = true ∧
      name ∈ field.declarators.map Declarator.name := by
  simp only [declaredTextures, mem_flatMap]
  refine exists_congr fun field => and_congr_right fun _ => ?_
  cases prog.isTexture field.type with
  | true => simp
  | false => simp

theorem isTexture_of_bindsTexture {field : FieldDecl} {declarator : Declarator}
    (hBinds : prog.bindsTexture field declarator = true) : prog.isTexture field.type = true := by
  have hType := (Bool.and_eq_true_iff.mp hBinds).2
  unfold isTexture
  split at hType
  · exact (Bool.and_eq_true_iff.mp hType).1
  · cases hType

theorem mem_declaredTextures_of_index {dispatch : Dispatch} {field : FieldInfo} {index : Nat}
    (hField : field ∈ (prog.fieldInfos cfg dispatch).1) (hRole : field.role = .textureIndex index) :
    field.name ∈ prog.declaredTextures := by
  obtain ⟨decl, hDecl, declarator, hDeclarator, hOk⟩ := prog.exists_of_mem_fieldInfos cfg dispatch hField
  have hJudged := FieldVerdict.judged_ofDeclarator prog cfg dispatch decl declarator
  rw [hOk] at hJudged
  cases hJudged with
  | value _ hOther => exact absurd hRole (hOther index)
  | resource _ _ hOther => exact absurd hRole (hOther index)
  | texture _ hBinds =>
    exact mem_declaredTextures.mpr ⟨decl, hDecl, isTexture_of_bindsTexture hBinds,
      mem_map.mpr ⟨declarator, hDeclarator, rfl⟩⟩

variable (hShader : prog.typeDecl? prog.shader.name = some prog.shader)

include hShader

theorem isDeclared_eq (name : String) : TextureInfo.isDeclared prog name =
      (prog.shader.fields.find? fun field => field.declarators.any fun d => d.name == name).any fun field =>
        prog.isTexture field.type := by
  unfold TextureInfo.isDeclared fieldType? field?
  rw [hShader]
  dsimp only
  cases prog.shader.fields.find? fun field => field.declarators.any fun d => d.name == name with
  | none => rfl
  | some field =>
    rw [Option.map_some, Option.map_some, Option.any_some, isTexture]
    cases prog.meaning field.type <;> rfl

/-- Where each name is declared once, a name is found to be a texture exactly when it is declared as one. -/
theorem isDeclared_iff (hNames : prog.declaredNames.Nodup) (name : String) :
    TextureInfo.isDeclared prog name = true ↔ name ∈ prog.declaredTextures := by
  have hDeclares : ∀ field : FieldDecl, (field.declarators.any fun d => d.name == name) = true ↔
      name ∈ field.declarators.map Declarator.name := by
    intro field
    simp only [any_eq_true, beq_iff_eq, mem_map]
  rw [isDeclared_eq hShader, Option.any_eq_true, mem_declaredTextures]
  constructor
  · rintro ⟨field, hFound, hTexture⟩
    have hName := List.find?_some hFound
    exact ⟨field, mem_of_find?_eq_some hFound, hTexture, (hDeclares field).mp hName⟩
  · rintro ⟨field, hField, hTexture, hName⟩
    cases hFound : prog.shader.fields.find? fun field => field.declarators.any fun d => d.name == name with
    | none => exact absurd ((hDeclares field).mpr hName) (List.find?_eq_none.mp hFound field hField)
    | some first =>
      have hFirst := List.find?_some hFound
      have hSame := eq_of_declares hNames (mem_of_find?_eq_some hFound) hField ((hDeclares first).mp hFirst) hName
      exact ⟨first, rfl, hSame ▸ hTexture⟩

/-- Names with an index are reported exactly when one of them is not declared as a texture. -/
theorem sparesIndices_checkNames (hNames : prog.declaredNames.Nodup) (dispatch : Dispatch) :
    SparesIndices (checkNames prog cfg (prog.fieldInfos cfg dispatch).1) ↔
      ∀ name ∈ cfg.resourceTextures.entries.map Prod.fst, name ∈ prog.declaredTextures := by
  unfold checkNames complainHere
  dsimp only
  rw [sparesIndices_map rfl, filter_eq_nil_iff, forall_mem_map]
  refine forall₂_congr fun entry _ => ?_
  rw [← isDeclared_iff hShader hNames, Bool.and_eq_true_iff, Bool.not_eq_true', Bool.not_eq_true', not_and,
    Bool.not_eq_false]
  refine ⟨fun hOne => ?_, fun hDeclared _ => hDeclared⟩
  -- A field of the model that has an index is declared as a texture anyhow.
  by_contra hNot
  refine hNot (hOne (Bool.eq_false_iff.mpr fun hAny => ?_))
  obtain ⟨field, hField, hBoth⟩ := any_eq_true.mp hAny
  obtain ⟨hName, hRole⟩ := Bool.and_eq_true_iff.mp hBoth
  split at hRole
  · rename_i index hIdx
    rw [isDeclared_iff hShader hNames, ← beq_iff_eq.mp hName] at hNot
    exact hNot (mem_declaredTextures_of_index hField hIdx)
  · cases hRole

omit hShader in
/-- The indices of the textures in the model are those that the configuration gives to the textures that can be
bound. -/
theorem indices_fieldInfos (hKind : prog.kind.isEffect = true) (dispatch : Dispatch) :
    ((prog.fieldInfos cfg dispatch).1.filterMap ofField?).map TextureInfo.index =
      (prog.textureNames.filterMap fun name => cfg.resourceTextures.entries.lookup name).map UInt32.toNat := by
  calc ((prog.fieldInfos cfg dispatch).1.filterMap ofField?).map TextureInfo.index
      = (((prog.fieldInfos cfg dispatch).1.filterMap ofField?).map
          fun texture => (texture.field, texture.index)).map Prod.snd := by rw [map_map]; rfl
    _ = prog.textureNames.filterMap fun name =>
          (cfg.resourceTextures.entries.lookup name).map UInt32.toNat := by
        rw [prog.textures_fieldInfos cfg dispatch hKind, map_filterMap]
        refine filterMap_congr fun name _ => ?_
        rw [Option.map_map]
        rfl
    _ = _ := map_filterMap.symm

/-- The textures of an image effect are reported exactly when they are not well numbered. -/
theorem numbersTextures_iff (hKind : prog.kind.isEffect = true) (hNames : prog.declaredNames.Nodup)
    (dispatch : Dispatch) (count : Nat) : prog.NumbersTextures cfg count ↔
      SparesIndices (prog.fieldInfos cfg dispatch).2 ∧
        SparesIndices (checkNames prog cfg (prog.fieldInfos cfg dispatch).1) ∧
        SparesIndices (checkIndices prog count []
          ((prog.fieldInfos cfg dispatch).1.filterMap ofField?)) := by
  have hRange : (∀ texture ∈ (prog.fieldInfos cfg dispatch).1.filterMap ofField?,
      count ≤ texture.index ∧ texture.index < 16) ↔
        ∀ index ∈ prog.textureNames.filterMap fun name => cfg.resourceTextures.entries.lookup name,
          count ≤ index.toNat ∧ index.toNat < 16 := by
    rw [← forall_mem_map (P := fun index => count ≤ index ∧ index < 16), indices_fieldInfos hKind,
      forall_mem_map]
  rw [sparesIndices_fieldInfos hKind, sparesIndices_checkNames hShader hNames,
    TextureInfo.sparesIndices_checkIndices, fresh_nil, indices_fieldInfos hKind, Inputs.nodup_toNat, hRange]
  constructor
  · intro hNumbers
    refine ⟨fun name hName => ?_, hNumbers.declared, hNumbers.distinct, fun index hIdx => ?_⟩
    · obtain ⟨index, hIdx, -⟩ := hNumbers.indexed name hName
      exact Option.isSome_of_eq_some hIdx
    · obtain ⟨name, hName, hLookup⟩ := mem_filterMap.mp hIdx
      obtain ⟨found, hFound, hBounds⟩ := hNumbers.indexed name hName
      rw [hFound] at hLookup
      exact Option.some.inj hLookup ▸ hBounds
  · rintro ⟨hIndexed, hDeclared, hDistinct, hBounds⟩
    refine ⟨fun name hName => ?_, hDistinct, hDeclared⟩
    obtain ⟨index, hIdx⟩ := Option.isSome_iff_exists.mp (hIndexed name hName)
    exact ⟨index, hIdx, hBounds index (mem_filterMap.mpr ⟨name, hName, hIdx⟩)⟩

end Program

/-! ## Whole models -/

namespace ShaderModel

open Report

variable (prog : Program) (cfg : Config)

theorem sparesIndices_scene (memo : CallMemo) : SparesIndices (ScenePosition.check prog cfg memo).1 := by
  unfold ScenePosition.check
  split
  · exact sparesIndices_nil
  · dsimp only
    split
    split
    · exact Program.sparesIndices_complain rfl _ _
    · exact sparesIndices_nil

theorem sparesIndices_dispatch : SparesIndices (Dispatch.build prog cfg).2 := by
  unfold Dispatch.build
  split
  · exact sparesIndices_nil
  · split
    · exact Program.sparesIndices_complain rfl _ _
    · dsimp only
      split
      · exact sparesIndices_nil
      · exact Program.sparesIndices_complain rfl _ _

theorem sparesIndices_checkProperties : SparesIndices (checkProperties prog) := by
  intro diagnostic hDiagnostic
  obtain ⟨member, -, hMember⟩ := mem_filterMap.mp hDiagnostic
  split at hMember
  · cases hMember
    rfl
  · cases hMember

theorem sparesIndices_checkOptions : SparesIndices (checkOptions prog cfg) := by
  unfold checkOptions
  rw [sparesIndices_append]
  constructor
  · split
    · exact Program.sparesIndices_complain rfl _ _
    · exact sparesIndices_nil
  · split
    · exact Program.sparesIndices_complain rfl _ _
    · exact sparesIndices_nil

theorem sparesIndices_checkAccess (fields : List FieldInfo) : SparesIndices (checkAccess prog cfg fields) := by
  unfold checkAccess
  split
  · exact sparesIndices_nil
  · rw [sparesIndices_append]
    constructor
    · split
      · exact sparesIndices_nil
      · exact Program.sparesIndices_complain rfl _ _
    · intro diagnostic hDiagnostic
      obtain ⟨field, -, hField⟩ := mem_flatMap.mp hDiagnostic
      unfold checkField at hField
      split at hField
      · exact Program.sparesIndices_complain rfl _ _ diagnostic hField
      · cases hField

theorem sparesIndices_effect (effect : EffectInfo) : SparesIndices (EffectInfo.check prog effect) := by
  unfold EffectInfo.check
  dsimp only
  rw [sparesIndices_append]
  constructor
  · split
    · split
      · exact sparesIndices_nil
      · exact Program.sparesIndices_complain rfl _ _
    · exact sparesIndices_nil
  · intro diagnostic hDiagnostic
    obtain ⟨⟨text, rule⟩, hText, rfl⟩ := mem_map.mp hDiagnostic
    have hMem := (mem_filter.mp hText).1
    simp only [mem_cons, Prod.mk.injEq, not_mem_nil, or_false] at hMem
    rcases hMem with ⟨-, rfl⟩ | ⟨-, rfl⟩ | ⟨-, rfl⟩ | ⟨-, rfl⟩ <;> rfl

theorem sparesIndices_checkWhole (model : ShaderModel) : SparesIndices (checkWhole prog model) := by
  unfold checkWhole
  rw [sparesIndices_append]
  constructor
  · split
    · exact Program.sparesIndices_complain rfl _ _
    · exact sparesIndices_nil
  · split
    · exact Program.sparesIndices_complain rfl _ _
    · exact sparesIndices_nil

variable {prog}

theorem report_build (prog : Program) (cfg : Config) (memo : CallMemo) :
    (ShaderModel.build prog cfg memo).1.2 =
      (Dispatch.build prog cfg).2 ++ (prog.fieldInfos cfg (Dispatch.build prog cfg).1).2 ++
        checkProperties prog ++
        checkNames prog cfg (prog.fieldInfos cfg (Dispatch.build prog cfg).1).1 ++
        (Inputs.build prog cfg).2 ++
        checkIndices prog (Inputs.build prog cfg).1.count []
          ((prog.fieldInfos cfg (Dispatch.build prog cfg).1).1.filterMap ofField?) ++
        (ScenePosition.check prog cfg memo).1 ++ checkOptions prog cfg ++
        checkAccess prog cfg (prog.fieldInfos cfg (Dispatch.build prog cfg).1).1 ++
        EffectInfo.check prog cfg.effect ++
        checkWhole prog (ShaderModel.build prog cfg memo).1.1 :=
  rfl

/-- The checks on indices are sound and complete: the report on the model of an image effect says something
about the numbering of inputs and textures exactly when they are not well numbered. -/
theorem sparesIndices_build_iff (hKind : prog.kind.isEffect = true)
    (hShader : prog.typeDecl? prog.shader.name = some prog.shader) (hNames : prog.declaredNames.Nodup)
    (memo : CallMemo) : SparesIndices (ShaderModel.build prog cfg memo).1.2 ↔ prog.WellNumbered cfg := by
  rw [report_build]
  simp only [sparesIndices_append, sparesIndices_dispatch, sparesIndices_checkProperties, sparesIndices_scene,
    sparesIndices_checkOptions, sparesIndices_checkAccess, sparesIndices_effect, sparesIndices_checkWhole, and_true,
    true_and, Inputs.sparesIndices_build hKind]
  constructor
  · rintro ⟨⟨⟨hFields, hNamed⟩, count, hCount, hSmall, hInputs⟩, hIndices⟩
    rw [Inputs.count_build hKind hCount hSmall] at hIndices
    exact ⟨count, hCount, hSmall, hInputs,
      (Program.numbersTextures_iff hShader hKind hNames _ _).mpr ⟨hFields, hNamed, hIndices⟩⟩
  · rintro ⟨count, hCount, hSmall, hInputs, hTextures⟩
    obtain ⟨hFields, hNamed, hIndices⟩ := (Program.numbersTextures_iff hShader hKind hNames _ _).mp hTextures
    rw [Inputs.count_build hKind hCount hSmall]
    exact ⟨⟨⟨hFields, hNamed⟩, count, hCount, hSmall, hInputs⟩, hIndices⟩

end ShaderModel

end Shaderlift
