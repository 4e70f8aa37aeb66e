import Shaderlift.Proofs.Accepted.Accounts

/-!
# References to fields in accepted shaders

A reference to a field of the shader that the source qualifies, by `this` or by the name of the shader, is written
as the bare name of the field. In the output such a name is captured where a variable of that name is in scope.
The main result says where this happens: wherever a variable in scope in the source has that name in the output,
and in the entry point of a dispatched shader for the names of its coordinates. Nothing is renamed to avoid it.
-/

namespace Shaderlift

open List
open Reserved (identifier)

open Lower

namespace OutExpr

mutual

/-- List the names of an expression that the source qualifies. -/
def qualifiedNames : OutExpr → List String
  | .token _ => []
  | .qualified name => [name]
  | .member target _ => qualifiedNames target
  | .index target args => qualifiedNames target ++ qualifiedNamesOfAll args
  | .call callee args => qualifiedNames callee ++ qualifiedNamesOfAll args
  | .unary _ operand => qualifiedNames operand
  | .post _ operand => qualifiedNames operand
  | .binary _ lhs rhs => qualifiedNames lhs ++ qualifiedNames rhs
  | .assign _ target val => qualifiedNames target ++ qualifiedNames val
  | .conditional cond thenExpr elseExpr =>
    qualifiedNames cond ++ qualifiedNames thenExpr ++ qualifiedNames elseExpr
  | .cast _ operand => qualifiedNames operand
  | .paren inner => qualifiedNames inner
  | .braces items => qualifiedNamesOfAll items

def qualifiedNamesOfAll : List OutExpr → List String
  | [] => []
  | first :: rest => qualifiedNames first ++ qualifiedNamesOfAll rest

end

end OutExpr

/-! ## Entry points -/

variable {prog : Program} {name : String} {cfg : Config} {run : LoweringRun} {ending : Ending} {writes : Bool}
  {src : String × MethodDecl} {fn : OutFunction} {Rel : Scoped Expr → Scoped OutExpr → Prop}

/-- An entry point takes no parameters. -/
theorem Program.params_entry {unit : SourceUnit} {decl : TypeDecl} {report : Report}
    (hBuild : build unit decl = (some prog, report)) {pos : Nat} {entry : MethodDecl}
    (hEntry : prog.entry = some (pos, entry)) : entry.params = [] := by
  rw [(parts_of_build hBuild).2.2.2, findEntry, Option.map_eq_some_iff] at hEntry
  obtain ⟨⟨method, place⟩, hFind, hPair⟩ := hEntry
  cases hPair
  have hIs := List.find?_some hFind
  dsimp only at hIs
  rw [MethodDecl.isEntryPoint, Bool.and_eq_true_iff, Bool.and_eq_true_iff, List.isEmpty_iff] at hIs
  exact hIs.1.2

theorem LoweringRun.params_entry {src : String} (hRun : loweringRun? src name cfg = some run) :
    run.entry.params = [] := by
  unfold loweringRun? at hRun
  split at hRun
  · cases hRun
  · rename_i unit decl hFound
    obtain ⟨prog, hProg, hRun⟩ := Option.bind_eq_some_iff.mp hRun
    obtain ⟨⟨pos, entry⟩, hEntry, rfl⟩ := Option.map_eq_some_iff.mp hRun
    exact Program.params_entry (Prod.ext hProg rfl) hEntry

/-- The parameters by which the coordinates that a shader uses come into a dispatched entry point. -/
def coordinateParams (ids : SpecialIds) : List ParamCode :=
  [⟨"uint3", "ThreadIds", " : SV_DispatchThreadID"⟩] ++
    (if ids.groupThreadIds then [⟨"uint3", "GroupIds", " : SV_GroupThreadID"⟩] else []) ++
    (if ids.groupIndex then [⟨"uint", "__GroupIds__get_Index", " : SV_GroupIndex"⟩] else []) ++
    (if ids.gridIds then [⟨"uint3", "GridIds", " : SV_GroupID"⟩] else [])

theorem map_text_coordinateParams (ids : SpecialIds) : (coordinateParams ids).map ParamCode.text = entryParams ids := by
  rcases ids with ⟨groupThreadIds, groupIndex, gridIds⟩
  cases groupThreadIds <;> cases groupIndex <;> cases gridIds <;> decide

/-- The names of the parameters of an entry point of a kind: the coordinates of a dispatched shader. -/
def ShaderKind.coordinates (kind : ShaderKind) (ids : SpecialIds) : List String :=
  if kind.isDispatched then (coordinateParams ids).map ParamCode.name else []

/-- Turn the code of the entry method into the code of the entry point of a kind of shader. -/
def FunctionCode.entryPointOf (kind : ShaderKind) (ids : SpecialIds) (code : FunctionCode) : FunctionCode :=
  if kind.isDispatched then ⟨coordinateParams ids, some (guardText kind), code.body⟩ else code

namespace FunctionCode

variable {code : FunctionCode}

theorem prints_entryPointOf {writes : Bool} {fn : OutFunction} (hGuard : code.guard = none)
    (hPrints : code.Prints writes fn) (model : ShaderModel) (ids : SpecialIds) :
    (code.entryPointOf model.kind ids).Prints writes (Lower.entryPointOf model ids fn) := by
  have hBody : fn.body = Code.writtenAll writes code.body := by
    rw [hPrints.body, hGuard]
  unfold entryPointOf Lower.entryPointOf
  split
  · exact ⟨map_text_coordinateParams ids, by rw [hBody]⟩
  · exact hPrints

theorem places_entryPointOf {ending : Ending} {entry : MethodDecl} (hParams : entry.params = [])
    (hMethod : ScopesMethod ending entry code) (kind : ShaderKind) (ids : SpecialIds) :
    (code.entryPointOf kind ids).places = (Code.placesOfAll code.body).map (.under (kind.coordinates ids)) := by
  unfold entryPointOf ShaderKind.coordinates
  split
  · rfl
  · rw [places, hMethod.names, hParams]
    rfl

end FunctionCode

/-- What holds of the places of a method and those of the function that stands for it. -/
theorem Lower.StandsFor.methodCode (hFunction : StandsFor ending writes src fn)
    (hRel : ∀ place out, Corresponds ending place out → Rel place out) :
    ∃ code : FunctionCode, ScopesMethod ending src.2 code ∧ code.Prints writes fn ∧
      List.Forall₂ Rel src.2.places code.places := by
  obtain ⟨code, -, hPrints, hMethod⟩ := hFunction.code
  exact ⟨code, hMethod, hPrints, hMethod.places.imp hRel⟩

/-- What holds of the places of a method and those of the entry point that it is turned into, where the coordinates
are in scope as well. -/
theorem Lower.StandsFor.entryCode (hFunction : StandsFor ending writes src fn) (hParams : src.2.params = [])
    (model : ShaderModel) (ids : SpecialIds)
    (hRel : ∀ place out, Corresponds ending place out → Rel place (out.under (model.kind.coordinates ids))) :
    ∃ code : FunctionCode, ScopesMethod ending src.2 code ∧
      (code.entryPointOf model.kind ids).Prints writes (entryPointOf model ids fn) ∧
      List.Forall₂ Rel src.2.places (code.entryPointOf model.kind ids).places := by
  obtain ⟨code, hGuard, hPrints, hMethod⟩ := hFunction.code
  refine ⟨code, hMethod, code.prints_entryPointOf hGuard hPrints model ids, ?_⟩
  rw [FunctionCode.places_entryPointOf hParams hMethod, MethodDecl.places, hParams, map_nil,
    Scoped.map_under_nil, forall₂_map_right_iff]
  exact hMethod.body.places.imp hRel

/-! ## Captured references -/

/-- A place of the output stands for a place of the source, in a function that takes some coordinates as well. A
name that the source qualifies is captured there exactly if it is the name of coordinates or the name that the
output gives to a variable in scope in the source. -/
structure CapturesLike (program : Program) (coordinates : List String) (place : Scoped Expr) (out : Scoped OutExpr) :
    Prop where
  value : Yields program place.value out.value
  captured : ∀ field ∈ out.value.qualifiedNames,
    (field ∈ out.names ↔ field ∈ coordinates ∨ ∃ known ∈ place.names, identifier known = field)

theorem Lower.Corresponds.capturesLike {place : Scoped Expr} {out : Scoped OutExpr}
    (hPlace : Corresponds ending place out) (coordinates : List String) :
    CapturesLike ending.program coordinates place (out.under coordinates) := by
  refine ⟨hPlace.value.yields, fun field _ => ?_⟩
  rw [Scoped.under, hPlace.names, mem_append, mem_map, or_comm]

/-- A function of the output is written from code in which the references of a method to fields are captured only
where they are captured in the method, or by coordinates. -/
def CapturesMethod (program : Program) (writes : Bool) (coordinates : List String) (method : MethodDecl)
    (function : OutFunction) : Prop :=
  ∃ code : FunctionCode, code.Prints writes function ∧
    List.Forall₂ (CapturesLike program coordinates) method.places code.places

theorem Lower.StandsFor.capturesMethod (hFunction : StandsFor ending writes src fn) :
    CapturesMethod ending.program writes [] src.2 fn := by
  have hPlaces : ∀ place out, Corresponds ending place out → CapturesLike ending.program [] place out := by
    intro place out hPlace
    have hCaptures := hPlace.capturesLike []
    rwa [Scoped.under_nil] at hCaptures
  obtain ⟨code, -, hCode⟩ := hFunction.methodCode hPlaces
  exact ⟨code, hCode⟩

theorem Lower.StandsFor.capturesEntry (hFunction : StandsFor ending writes src fn)
    (hParams : src.2.params = []) (model : ShaderModel) (ids : SpecialIds) :
    CapturesMethod ending.program writes (model.kind.coordinates ids) src.2 (entryPointOf model ids fn) := by
  obtain ⟨code, -, hCode⟩ := hFunction.entryCode hParams model ids fun place out hPlace =>
    hPlace.capturesLike (model.kind.coordinates ids)
  exact ⟨_, hCode⟩

/-- The output of an accepted shader is the print of functions that have the places of its methods. At each of them
a reference to a field that the source qualifies is captured exactly if a variable in scope at that place of the
method has its name in the output, or if it has the name of coordinates that the entry point takes. -/
theorem transpile_captured_iff (source name : String) (config : Config) (out : Transpiled)
    (hOk : transpile source name config = .ok out) :
    ∃ run lowered, loweringRun? source name config = some run ∧
      out.hlsl = OutUnit.render run.program out.model lowered out.bindings ∧
      CapturesMethod run.program (run.program.kind == .pixel) (out.model.kind.coordinates out.ids) run.entry
        lowered.entry ∧
      List.Forall₂ (fun source => CapturesMethod run.program false [] source.2) run.functions lowered.helpers := by
  obtain ⟨run, hRun, hAccepted⟩ := accepted_of_ok hOk
  obtain ⟨⟨written, hWritten, hEntry⟩, hHelpers, -⟩ := hAccepted.scopes
  refine ⟨run, run.program.loweredOf config run.entry, hRun, hAccepted.hlsl, ?_,
    hHelpers.imp fun _ _ hFunction => hFunction.capturesMethod⟩
  rw [hEntry, hAccepted.model, hAccepted.ids]
  exact hWritten.capturesEntry (LoweringRun.params_entry hRun) (run.program.modelOf config) _

/-- The member that an expression takes of the shader by `this`. -/
def Expr.selfMember? : Expr → Option String
  | .member _ (.selfRef _) name _ => some name
  | _ => none

theorem Lower.Yields.qualified {val : Expr} {out : OutExpr} (hValue : Yields prog val out)
    (hMember : val.selfMember? = some name) : out = .qualified (identifier name) := by
  obtain ⟨ctx, hint, st, -, rfl⟩ := hValue
  unfold Expr.selfMember? at hMember
  split at hMember
  · cases hMember
    rfl
  · cases hMember

/-- A shader with a variable that hides a field in the entry point, and with a method in which nothing hides it. -/
def shadowedShader : String :=
  "struct S : IComputeShader \x7b ReadWriteBuffer<float> b; float f; float F(float x) \x7b return this.f; \x7d " ++
    "void Execute() \x7b float f = this.f; b[0] = F(f); \x7d \x7d"

/-- What is known of the places of a method: the variables in scope, and the member taken of the shader. -/
def MethodDecl.outline (method : MethodDecl) : List (List String × Option String) :=
  method.places.map fun place => (place.names, place.value.selfMember?)

set_option maxRecDepth 100000 in
theorem places_shadowedShader :
    (transpile shadowedShader "S" .unspecified).toBool = true ∧
      (loweringRun? shadowedShader "S" .unspecified).map (fun run => run.program.kind == .pixel) = some false ∧
      (loweringRun? shadowedShader "S" .unspecified).map
        (fun run => (run.entry :: run.functions.map Prod.snd).map MethodDecl.outline) =
      some [[(["f"], some "f"), (["f"], none)], [(["x"], some "f")]] := by decide +kernel

/-- The first place of a method, if it is nothing but a member that is taken of the shader. -/
theorem CapturesMethod.head {coordinates names : List String} {method : MethodDecl} {field : String}
    {rest : List (List String × Option String)} (hMethod : CapturesMethod prog writes coordinates method fn)
    (hOutline : method.outline = (names, some field) :: rest) :
    ∃ code : FunctionCode, code.Prints writes fn ∧ ∃ place ∈ code.places,
      place.value = .qualified (identifier field) ∧
        (identifier field ∈ place.names ↔ identifier field ∈ coordinates ∨
          ∃ known ∈ names, identifier known = identifier field) := by
  obtain ⟨code, hPrints, hPlaces⟩ := hMethod
  obtain ⟨first, others, hFirst, hShown, -⟩ := map_eq_cons_iff.mp hOutline
  rw [hFirst, forall₂_cons_left_iff] at hPlaces
  obtain ⟨place, last, hPlace, -, hCode⟩ := hPlaces
  obtain ⟨hNames, hField⟩ := Prod.mk.inj hShown
  have hValue := hPlace.value.qualified hField
  refine ⟨code, hPrints, place, hCode ▸ mem_cons_self, hValue, ?_⟩
  rw [← hNames]
  exact hPlace.captured _ (by rw [hValue]; exact mem_singleton_self _)

/-- The variable captures the field where its initial value is that field; the parameter does not. -/
theorem transpile_captured_iff_shadowedShader :
    ∃ (out : Transpiled) (run : LoweringRun) (lowered : LoweredUnit) (entry helper : FunctionCode)
      (function : OutFunction),
      transpile shadowedShader "S" .unspecified = .ok out ∧
      out.hlsl = OutUnit.render run.program out.model lowered out.bindings ∧
      entry.Prints false lowered.entry ∧ lowered.helpers = [function] ∧ helper.Prints false function ∧
      (∃ place ∈ entry.places, place.value = .qualified "f" ∧ "f" ∈ place.names) ∧
      ∃ place ∈ helper.places, place.value = .qualified "f" ∧ "f" ∉ place.names := by
  obtain ⟨hOk, hKind, hOutlines⟩ := places_shadowedShader
  obtain ⟨out, hOut⟩ := exists_of_toBool hOk
  obtain ⟨run, lowered, hRun, hHlsl, hEntry, hHelpers⟩ :=
    transpile_captured_iff shadowedShader "S" .unspecified out hOut
  rw [hRun, Option.map_some, Option.some.injEq] at hKind hOutlines
  obtain ⟨hFirst, hOthers⟩ := List.cons.inj hOutlines
  rw [map_map, map_eq_singleton_iff] at hOthers
  obtain ⟨source, hFunctions, hSecond⟩ := hOthers
  rw [hFunctions, forall₂_cons_left_iff] at hHelpers
  obtain ⟨function, others, hFunction, hNone, hList⟩ := hHelpers
  cases hNone
  rw [hKind] at hEntry
  obtain ⟨entry, hEntryPrints, place, hPlace, hValue, hCaptured⟩ := hEntry.head hFirst
  obtain ⟨helper, hHelperPrints, other, hOther, hOtherValue, hKept⟩ := hFunction.head hSecond
  have hField : Reserved.identifier "f" = "f" := by decide
  have hParam : Reserved.identifier "x" = "x" := by decide
  rw [hField] at hValue hCaptured hOtherValue hKept
  refine ⟨out, run, lowered, entry, helper, function, hOut, hHlsl, hEntryPrints, hList, hHelperPrints, ?_, ?_⟩
  · exact ⟨place, hPlace, hValue, hCaptured.mpr (.inr ⟨"f", mem_singleton_self _, hField⟩)⟩
  · refine ⟨other, hOther, hOtherValue, ?_⟩
    rw [hKept]
    simp [hParam]

end Shaderlift
