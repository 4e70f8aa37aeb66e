import Shaderlift.Proofs.Accepted.Calls
import Shaderlift.Proofs.Accepted.Scoping

/-!
# The signatures of the functions of accepted shaders

A function of the output has the name and the parameter types of what it was lowered from: the name of a local function
or of a method of the shader as it is, that of any other method after the name of its type. Methods that are needed
are found once, so two of them agree in both only if they are overloads with the same types, provided that their names
and those of their types have no underscore (`transpile_signatures`). Nothing keeps local functions apart, neither from
those of other methods nor from methods of the shader.
-/

namespace Shaderlift

open List

open Lower

/-- How the output spells a type of the source. -/
def Program.spelledType (program : Program) (type : TypeExpr) : String :=
  match program.valueType? type with
  | some val => val.spelling
  | none => type.render

def Program.paramTypes (program : Program) (method : MethodDecl) : List String :=
  method.params.map fun param => program.spelledType param.type

/-- A function of the output has a name and takes parameters of some types. -/
def OutFunction.HasSignature (function : OutFunction) (name : String) (types : List String) : Prop :=
  function.name = name ∧ ∃ params : List ParamCode, params.map ParamCode.text = function.params ∧
    List.Forall₂ (fun type (param : ParamCode) => ∃ passing, param.type = passingText passing ++ type) types params

variable {ending : Ending} {fn : OutFunction} {src : String × MethodDecl} {writes : Bool} {prog : Program}

theorem Lower.Ending.SpellsWritten.eq_spelledType {type : TypeExpr} {text : String}
    (hText : ending.SpellsWritten type text) : text = ending.program.spelledType type := by
  unfold Program.spelledType
  rcases hText with ⟨val, hVal, -, rfl⟩ | ⟨hNone, rfl⟩
  · rw [hVal]
  · rw [hNone]

theorem Lower.StandsFor.hasSignature (hFn : StandsFor ending writes src fn) :
    fn.HasSignature src.1 (ending.program.paramTypes src.2) := by
  obtain ⟨code, -, hPrints, hMethod⟩ := hFn.code
  refine ⟨hFn.name, code.params, hPrints.params, ?_⟩
  rw [Program.paramTypes, forall₂_map_left_iff]
  refine hMethod.params.imp fun param written hTakes => ?_
  obtain ⟨text, hType, hText⟩ := hTakes.type
  exact ⟨param.passing, by rw [hType, hText.eq_spelledType]⟩

/-- The types of the parameters of an entry point of a kind. -/
def ShaderKind.entryTypes (kind : ShaderKind) (ids : SpecialIds) : List String :=
  if kind.isDispatched then (coordinateParams ids).map ParamCode.type else []

theorem Lower.StandsFor.hasSignature_entry (hFn : StandsFor ending writes src fn) (hParams : src.2.params = [])
    (model : ShaderModel) (ids : SpecialIds) :
    (entryPointOf model ids fn).HasSignature src.1 (model.kind.entryTypes ids) := by
  obtain ⟨hName, hTypes⟩ := hFn.hasSignature
  rw [Program.paramTypes, hParams] at hTypes
  unfold entryPointOf ShaderKind.entryTypes
  split
  · refine ⟨hName, coordinateParams ids, map_text_coordinateParams ids, ?_⟩
    rw [forall₂_map_left_iff, forall₂_same]
    exact fun param _ => ⟨none, by simp [passingText]⟩
  · exact ⟨hName, hTypes⟩

/-! ## Names of methods -/

/-- Neither the name of a method nor that of its type has an underscore. -/
def MethodKey.IsPlain (key : MethodKey) : Prop := '_' ∉ key.owner.toList ∧ '_' ∉ key.name.toList

section Plain

variable {first second owner other : String} (hFirst : '_' ∉ first.toList) (hSecond : '_' ∉ second.toList)
  (hOwner : '_' ∉ owner.toList) (hOther : '_' ∉ other.toList)

include hFirst in
/-- The name of a plain name is the name itself or has four underscores. -/
theorem Reserved.identifier_cases : identifier first = first ∨
      identifier first = "__reserved__" ++ first ∧ (identifier first).toList.count '_' = 4 := by
  unfold identifier
  split
  · refine .inr ⟨rfl, ?_⟩
    rw [String.toList_append, count_append, count_eq_zero.mpr hFirst]
    decide
  · exact .inl rfl

include hFirst hSecond in
theorem Reserved.identifier_inj_of_plain (hSame : identifier first = identifier second) : first = second := by
  have hNone := count_eq_zero.mpr hFirst
  have hZero := count_eq_zero.mpr hSecond
  rcases identifier_cases hFirst with hKept | ⟨hMarked, hCount⟩ <;>
    rcases identifier_cases hSecond with hAlso | ⟨hLikewise, hFour⟩
  · rw [← hKept, hSame, hAlso]
  · rw [← hSame, hKept] at hFour
    omega
  · rw [hSame, hAlso] at hCount
    omega
  · rw [hMarked, hLikewise] at hSame
    simpa using hSame

include hFirst hOwner in
theorem Lower.count_globalName : (globalName owner first).toList.count '_' = 2 := by
  rw [globalName, String.toList_append, String.toList_append, count_append, count_append,
    count_eq_zero.mpr hFirst, count_eq_zero.mpr hOwner]
  decide

include hFirst hSecond hOwner in
theorem Lower.identifier_ne_globalName : Reserved.identifier first ≠ globalName owner second := by
  intro hSame
  have hCount := count_globalName hSecond hOwner
  rw [← hSame] at hCount
  rcases Reserved.identifier_cases hFirst with hKept | ⟨-, hFour⟩
  · rw [hKept, count_eq_zero.mpr hFirst] at hCount
    cases hCount
  · omega

include hOwner hOther in
theorem Lower.globalName_inj (hSame : globalName owner first = globalName other second) :
    owner = other ∧ first = second := by
  have hChars := congrArg String.toList hSame
  simp only [globalName, String.toList_append, append_assoc] at hChars
  have hTake : ∀ (text : String) (rest : List Char), '_' ∉ text.toList →
      (text.toList ++ ("__".toList ++ rest)).takeWhile (· != '_') = text.toList := by
    intro text rest hText
    rw [takeWhile_append_of_pos]
    · simp
    · intro c hChar
      simpa using fun hMark : c = '_' => hText (hMark ▸ hChar)
  have hOwners : owner.toList = other.toList := by
    rw [← hTake owner first.toList hOwner, hChars, hTake other _ hOther]
  rw [hOwners] at hChars
  exact ⟨String.toList_inj.mp hOwners, String.toList_inj.mp (append_cancel_left (append_cancel_left hChars))⟩

end Plain

theorem Lower.methodName_eq_iff {first second : MethodKey} (hFirst : first.IsPlain) (hSecond : second.IsPlain) :
    methodName prog first = methodName prog second ↔ first.owner = second.owner ∧ first.name = second.name := by
  refine ⟨fun hSame => ?_, fun hSame => by simp [methodName, hSame]⟩
  unfold methodName at hSame
  split at hSame <;> split at hSame <;> rename_i hOwn hOther
  · exact ⟨(beq_iff_eq.mp hOwn).trans (beq_iff_eq.mp hOther).symm,
      Reserved.identifier_inj_of_plain hFirst.2 hSecond.2 hSame⟩
  · exact absurd hSame (identifier_ne_globalName hFirst.2 hSecond.2 hSecond.1)
  · exact absurd hSame.symm (identifier_ne_globalName hSecond.2 hFirst.2 hFirst.1)
  · exact globalName_inj hFirst.1 hSecond.1 hSame

theorem Lower.methodName_eq_entryPoint_iff {key : MethodKey} (hKey : key.IsPlain) :
    methodName prog key = entryPoint ↔ key.owner = prog.shader.name ∧ key.name = entryPoint := by
  have hPlain : '_' ∉ entryPoint.toList := by decide
  have hEntry : Reserved.identifier entryPoint = entryPoint := by decide
  refine ⟨fun hSame => ?_, fun hSame => by simp [methodName, hSame, hEntry]⟩
  rw [← hEntry] at hSame
  unfold methodName at hSame
  split at hSame
  · rename_i hOwn
    exact ⟨beq_iff_eq.mp hOwn, Reserved.identifier_inj_of_plain hKey.2 hPlain hSame⟩
  · exact absurd hSame.symm (identifier_ne_globalName hPlain hKey.2 hKey.1)

/-! ## Functions with the same signature -/

namespace LoweringRun

variable (run : LoweringRun)

/-- The names and parameter types of the functions of an accepted shader, the entry point last. -/
def signatures (ids : SpecialIds) : List (String × List String) :=
  run.functions.map (fun source => (source.1, run.program.paramTypes source.2)) ++
    [(entryPoint, run.program.kind.entryTypes ids)]

/-- The parameter types of a method that is needed. -/
def typesOf (key : MethodKey) : List String := ((run.program.method? key).map run.program.paramTypes).getD []

/-- No function is lifted out of a method. -/
def NoLocals : Prop :=
  run.entry.lifted = [] ∧ ∀ key ∈ run.needed, ∀ method, run.program.method? key = some method → method.lifted = []

/-- Overloads among the methods that are needed differ in the spelling of their parameter types, and none of them that
is named like the entry point takes the coordinates that the entry point takes. -/
structure OverloadsDiffer (ids : SpecialIds) : Prop where
  needed : ∀ first ∈ run.needed, ∀ second ∈ run.needed, first.owner = second.owner → first.name = second.name →
    run.typesOf first = run.typesOf second → first = second
  entry : ∀ key ∈ run.needed, key.owner = run.program.shader.name → key.name = entryPoint →
    run.typesOf key ≠ run.program.kind.entryTypes ids

variable {run}

theorem signatures_of_noLocals (hLocals : run.NoLocals)
    (hFound : ∀ key ∈ run.needed, (run.program.method? key).isSome = true) (ids : SpecialIds) :
    run.signatures ids = run.needed.map (fun key => (methodName run.program key, run.typesOf key)) ++
      [(entryPoint, run.program.kind.entryTypes ids)] := by
  have hEach : ∀ key ∈ run.needed,
      (liftedMethod run.program key).map (fun src => (src.1, run.program.paramTypes src.2)) =
        [(methodName run.program key, run.typesOf key)] := by
    intro key hKey
    obtain ⟨method, hMethod⟩ := Option.isSome_iff_exists.mp (hFound key hKey)
    simp [liftedMethod, typesOf, hMethod, hLocals.2 key hKey method hMethod]
  rw [signatures, functions, hLocals.1, nil_append, map_flatMap, map_eq_flatMap]
  exact congrArg (· ++ _) (flatMap_congr hEach)

/-- Without local functions and with plain names, the functions differ exactly if overloads do. -/
theorem nodup_signatures_iff (hLocals : run.NoLocals)
    (hFound : ∀ key ∈ run.needed, (run.program.method? key).isSome = true) (hPlain : ∀ key ∈ run.needed, key.IsPlain)
    (ids : SpecialIds) : (run.signatures ids).Nodup ↔ run.OverloadsDiffer ids := by
  have hOnce : run.needed.Nodup := Program.nodup_reachableMethods run.last.memo
  rw [signatures_of_noLocals hLocals hFound, nodup_append, nodup_map_iff_inj_on hOnce]
  constructor
  · rintro ⟨hApart, -, hEntry⟩
    refine ⟨fun first hFirst second hSecond hOwner hName hTypes => hApart first hFirst second hSecond ?_, ?_⟩
    · rw [(methodName_eq_iff (hPlain first hFirst) (hPlain second hSecond)).mpr ⟨hOwner, hName⟩, hTypes]
    · intro key hKey hOwner hName hTypes
      refine hEntry _ (mem_map_of_mem hKey) _ (mem_singleton_self _) ?_
      rw [(methodName_eq_entryPoint_iff (hPlain key hKey)).mpr ⟨hOwner, hName⟩, hTypes]
  · intro hDiffer
    refine ⟨fun first hFirst second hSecond hSame => ?_, nodup_singleton _, ?_⟩
    · obtain ⟨hName, hTypes⟩ := Prod.mk.inj hSame
      obtain ⟨hOwner, hName⟩ := (methodName_eq_iff (hPlain first hFirst) (hPlain second hSecond)).mp hName
      exact hDiffer.needed first hFirst second hSecond hOwner hName hTypes
    · intro helper hHelper entry hEntry hSame
      obtain ⟨key, hKey, rfl⟩ := mem_map.mp hHelper
      obtain ⟨hName, hTypes⟩ := Prod.mk.inj (hSame.trans (mem_singleton.mp hEntry))
      obtain ⟨hOwner, hName⟩ := (methodName_eq_entryPoint_iff (hPlain key hKey)).mp hName
      exact hDiffer.entry key hKey hOwner hName hTypes

end LoweringRun

theorem Accepted.signatures {cfg : Config} {out : Transpiled} {run : LoweringRun} (hAccepted : Accepted cfg out run)
    (hParams : run.entry.params = []) :
    let lowered := run.program.loweredOf cfg run.entry
    List.Forall₂ (fun fn signature => fn.HasSignature signature.1 signature.2)
      (lowered.helpers ++ [lowered.entry]) (run.signatures lowered.ids) := by
  obtain ⟨⟨written, hWritten, hEntry⟩, hHelpers, -⟩ := hAccepted.scopes
  refine rel_append ?_ (.cons ?_ .nil)
  · rw [forall₂_map_right_iff]
    exact (hHelpers.imp fun _ _ hFn => hFn.hasSignature).flip
  · rw [hEntry]
    exact hWritten.hasSignature_entry hParams (run.program.modelOf cfg) _

/-- The output of an accepted shader is the print of functions with the names and the spelled parameter types of its
local functions, of the methods that it needs, each of which is lowered once, and of its entry point. Without local
functions, and if no name has an underscore, two functions agree in both exactly if they are overloads whose types are
spelled alike, or the entry point and an overload of it that takes the same coordinates. -/
theorem transpile_signatures (source name : String) (config : Config) (out : Transpiled)
    (hOk : transpile source name config = .ok out) :
    ∃ run lowered, loweringRun? source name config = some run ∧
      out.hlsl = OutUnit.render run.program out.model lowered out.bindings ∧
      List.Forall₂ (fun function signature => function.HasSignature signature.1 signature.2)
        (lowered.helpers ++ [lowered.entry]) (run.signatures out.ids) ∧
      run.needed.Nodup ∧
      (run.NoLocals → (∀ key ∈ run.needed, key.IsPlain) →
        ((run.signatures out.ids).Nodup ↔ run.OverloadsDiffer out.ids)) := by
  obtain ⟨run, hRun, hAccepted⟩ := accepted_of_ok hOk
  refine ⟨run, run.program.loweredOf config run.entry, hRun, hAccepted.hlsl, ?_,
    Program.nodup_reachableMethods run.last.memo, fun hLocals hPlain => ?_⟩
  · rw [hAccepted.ids]
    exact hAccepted.signatures (LoweringRun.params_entry hRun)
  · exact LoweringRun.nodup_signatures_iff hLocals hAccepted.needed_closed.1 hPlain out.ids

/-- A shader with a local function in a method and another of its name in the entry point, and with overloads. -/
def namesakesShader : String :=
  "struct S : IComputeShader \x7b ReadWriteBuffer<float> b; static float F(int x) => x; " ++
    "static float F(float x) \x7b float G(float y) => y; return G(x); \x7d " ++
    "void Execute() \x7b float G(float y) => y * 2; b[0] = F(1.5f) + F(1) + G(2); \x7d \x7d"

set_option maxRecDepth 100000 in
theorem signatures_namesakesShader :
    (transpile namesakesShader "S" .unspecified).toOption.map Transpiled.ids = some ⟨false, false, false⟩ ∧
      (loweringRun? namesakesShader "S" .unspecified).map (fun run => run.signatures ⟨false, false, false⟩) =
        some [("G", ["float"]), ("G", ["float"]), ("F", ["float"]), ("F", ["int"]), ("Execute", ["uint3"])] := by
  decide +kernel

/-- The two local functions become functions with one signature; the overloads keep theirs. -/
theorem transpile_signatures_namesakesShader :
    ∃ (out : Transpiled) (run : LoweringRun) (lowered : LoweredUnit) (inner outer : OutFunction) (rest : List OutFunction),
      transpile namesakesShader "S" .unspecified = .ok out ∧
      out.hlsl = OutUnit.render run.program out.model lowered out.bindings ∧
      lowered.helpers ++ [lowered.entry] = outer :: inner :: rest ∧
      outer.HasSignature "G" ["float"] ∧ inner.HasSignature "G" ["float"] ∧ ¬ (run.signatures out.ids).Nodup := by
  obtain ⟨hIds, hShape⟩ := signatures_namesakesShader
  cases hOut : transpile namesakesShader "S" .unspecified with
  | error =>
    rw [hOut] at hIds
    cases hIds
  | ok out =>
    obtain ⟨run, lowered, hRun, hHlsl, hFunctions, -⟩ := transpile_signatures namesakesShader "S" .unspecified out hOut
    rw [hOut] at hIds
    rw [hRun, Option.map_some, Option.some.injEq, ← Option.some.inj hIds] at hShape
    rw [hShape] at hFunctions
    obtain ⟨outer, others, hOuter, hOthers, hList⟩ := forall₂_cons_right_iff.mp hFunctions
    obtain ⟨inner, rest, hInner, -, rfl⟩ := forall₂_cons_right_iff.mp hOthers
    exact ⟨out, run, lowered, inner, outer, rest, rfl, hHlsl, hList, hOuter, hInner, by rw [hShape]; decide⟩

end Shaderlift
