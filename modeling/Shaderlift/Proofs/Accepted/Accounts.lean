import Shaderlift.Proofs.Accepted.Basic
import Shaderlift.Proofs.Lowering.Scoping
import Shaderlift.Proofs.Model.Fields

/-!
# What an accepted shader is written to

What the rules have walked passes their test for types, and so does what is pulled in from elsewhere, as far as the
types of its casts may be any. So the whole output of an accepted shader can be accounted for at the end of its run:
the functions, the static values, and everything in them.
-/

namespace Shaderlift

open List

open Legality Lower ValueType

/-! ## Types of the model -/

/-- The type of a field of a model comes from its declaration: a value has dimensions that the output language knows,
and a resource is what the declared type means. -/
def FieldType.ComesFrom (program : Program) (field : FieldDecl) : FieldType → Prop
  | .value type => type.Proper
  | .resource held => program.meaning field.type = .resource held

namespace FieldVerdict

variable {prog : Program} {cfg : Config} {dispatch : Dispatch} {field : FieldDecl} {declarator : Declarator}
  {info : FieldInfo}

theorem comesFrom_ofResource {name : String} {res : Resource} (hMeaning : prog.meaning field.type = .resource res)
    (hInfo : ofResource prog cfg field name res = .ok info) : info.type.ComesFrom prog field := by
  unfold ofResource at hInfo
  dsimp only at hInfo
  split at hInfo
  · cases hInfo
  · split at hInfo
    · split at hInfo <;> cases hInfo
    · split at hInfo
      · split at hInfo
        · cases hInfo
          exact hMeaning
        · cases hInfo
      · split at hInfo <;> cases hInfo <;> exact hMeaning

theorem comesFrom_ofInstance {name : String} (hInfo : ofInstance prog cfg field name = .ok info) :
    info.type.ComesFrom prog field := by
  have hProper := prog.proper_meaning field.type
  unfold ofInstance at hInfo
  split at hInfo
  · cases hInfo
  · split at hInfo
    · rename_i hMeaning
      rw [hMeaning] at hProper
      cases hInfo
      exact hProper
    · rename_i hMeaning
      exact comesFrom_ofResource hMeaning hInfo
    · cases hInfo
    · cases hInfo
    · cases hInfo

theorem comesFrom_ofStatic (hInfo : ofStatic prog field declarator = .ok info) : info.type.ComesFrom prog field := by
  unfold ofStatic at hInfo
  split at hInfo
  · cases hInfo
  · dsimp only at hInfo
    split at hInfo
    · rename_i found hFound
      cases hInfo
      split at hFound
      · exact prog.proper_staticValueType? _ _ found hFound
      · cases hFound
    · cases hInfo

theorem comesFrom_ofShared {attr : Attr} (hInfo : ofShared prog dispatch field declarator attr = .ok info) :
    info.type.ComesFrom prog field := by
  unfold ofShared at hInfo
  dsimp only at hInfo
  split at hInfo
  · cases hInfo
  · split at hInfo
    · split at hInfo
      · rename_i found hFound
        cases hInfo
        split at hFound
        · cases hFound
        · have hProper : found.Proper := prog.proper_valueType? _ found hFound
          exact hProper
      · cases hInfo
    · cases hInfo

theorem comesFrom_ofDeclarator (hInfo : ofDeclarator prog cfg dispatch field declarator = .ok info) :
    info.type.ComesFrom prog field := by
  unfold ofDeclarator at hInfo
  split at hInfo
  · exact comesFrom_ofShared hInfo
  · split at hInfo
    · exact comesFrom_ofStatic hInfo
    · split at hInfo
      · cases hInfo
      · exact comesFrom_ofInstance hInfo

end FieldVerdict

namespace Program

variable (prog : Program) (cfg : Config) (dispatch : Dispatch) {field : FieldInfo}

theorem comesFrom_fieldInfos (hField : field ∈ (prog.fieldInfos cfg dispatch).1) :
    ∃ decl, field.type.ComesFrom prog decl := by
  obtain ⟨decl, -, declarator, -, hOk⟩ := prog.exists_of_mem_fieldInfos cfg dispatch hField
  exact ⟨decl, FieldVerdict.comesFrom_ofDeclarator hOk⟩

/-- The fields of a shader have types with dimensions that the output language knows. -/
theorem proper_fieldInfos {type : ValueType} (hField : field ∈ (prog.fieldInfos cfg dispatch).1)
    (hType : field.type = .value type) : type.Proper := by
  obtain ⟨decl, hFrom⟩ := prog.comesFrom_fieldInfos cfg dispatch hField
  rwa [hType] at hFrom

theorem proper_elementType (hField : field ∈ (prog.fieldInfos cfg dispatch).1) : field.elementType.Proper := by
  obtain ⟨decl, hFrom⟩ := prog.comesFrom_fieldInfos cfg dispatch hField
  unfold FieldInfo.elementType
  cases hType : field.type with
  | value type => exact prog.proper_fieldInfos cfg dispatch hField hType
  | resource held =>
    rw [hType] at hFrom
    have hMeaning := prog.proper_meaning decl.type
    rwa [hFrom] at hMeaning

end Program

/-! ## Fragments that pass the test -/

/-- The methods that an accepted shader is lowered from, under their names in the output: the local functions
of the entry point, then each method that it needs after its own local functions. -/
def LoweringRun.functions (run : LoweringRun) : List (String × MethodDecl) :=
  run.entry.lifted ++ (run.program.reachableMethods run.last.memo).1.flatMap (liftedMethod run.program)

namespace LoweringRun

def ending (run : LoweringRun) (Casts : TypeExpr → Prop) : Ending := ⟨run.program, run.last, Casts⟩

/-- A type that is cast to in a fragment that the rules do not walk. -/
def StrayCast (run : LoweringRun) (type : TypeExpr) : Prop :=
  ∃ value, (run.Unwalked (.init value) ∨ run.Unwalked (.default value)) ∧ type ∈ (castCollector.visitExpr value []).2

/-- The types that casts may have: those that may stand in a body, and those that the rules do not look at. -/
def Casts (run : LoweringRun) (type : TypeExpr) : Prop := run.program.Bears type ∨ run.StrayCast type

theorem passes_of_unwalked {run : LoweringRun} {fragment : Fragment} (hUnwalked : run.Unwalked fragment) :
    fragment.Holds (run.ending run.Casts).test (·.all (run.ending run.Casts).test = true) := by
  have hVal : ∀ val, run.Unwalked (.init val) ∨ run.Unwalked (.default val) →
      val.all (typed run.program run.Casts) = true :=
    fun val hVal => all_typed fun type hType => .inr ⟨val, hVal, hType⟩
  cases hUnwalked with
  | static hMet hOwner hInit => exact hVal _ (.inl (.static hMet hOwner hInit))
  | default hCall hOwner hKey hMethod hParam hDefault =>
    exact hVal _ (.inr (.default hCall hOwner hKey hMethod hParam hDefault))

end LoweringRun

namespace Accepted

variable {cfg : Config} {out : Transpiled} {run : LoweringRun} (hAccepted : Accepted cfg out run)

include hAccepted

variable {test : NodeTest} {decl : MethodDecl}

/-- A shader passes every test that the rules respect. -/
theorem passesShader
    (hRules : ∀ owner, (visitor run.program owner).Respects test (Vouches run.program)) :
    PassesShader run.program test run.last.memo :=
  Program.passesShader_of_legality hRules .empty hAccepted.quiet _ hAccepted.kept_legality

theorem passesTypes : PassesShader run.program (run.ending run.Casts).test run.last.memo :=
  hAccepted.passesShader (visitor_respects_typed fun _ hBears => .inl hBears)

/-- The methods that contribute to the output pass every test that the shader passes. -/
theorem passes_contributing (hPasses : PassesShader run.program test run.last.memo)
    (hContributes : run.Contributes (.method decl)) : decl.all test = true := by
  cases hContributes with
  | entry => exact hPasses.own hAccepted.walked.entry
  | helper hKey hMethod => exact hPasses.needed hAccepted.seen hMethod (.inr hKey)

theorem passes_init {name : String} {init : Expr} (hInit : shaderInit? run.program name = some init) :
    init.all (run.ending run.Casts).test = true := by
  exact all_typed_of_passesInit (hAccepted.passesTypes.initial hInit)

/-- Everything that contributes to the output of an accepted shader passes the test for types. -/
theorem passes {fragment : Fragment} (hContributes : run.Contributes fragment) :
    fragment.Holds (run.ending run.Casts).test (·.all (run.ending run.Casts).test = true) :=
  hAccepted.walked.holds hAccepted.passesTypes (fun _ _ => hAccepted.passes_init)
    (fun _ => LoweringRun.passes_of_unwalked) hContributes

theorem fair : (run.ending run.Casts).Fair where
  statics field hMet init hInit := hAccepted.passes (.static hMet hInit)
  defaults call key method hCall hMethod := by
    refine all_eq_true.mpr fun param hParam => ?_
    cases hDefault : param.default with
    | none => rfl
    | some val => exact hAccepted.passes (.default hCall hMethod hParam hDefault)
  report := hAccepted.runQuiet

theorem follows :
    (run.ending run.Casts).Follows (run.program.modelOf cfg) run.entry (run.program.startOf cfg)
      (run.program.reachableMethods run.last.memo).1 where
  pixelType := hAccepted.pixelType
  sound := ⟨Scope.proper_empty, forall_mem_nil _⟩
  last := hAccepted.last_eq.symm
  reached := hAccepted.needed_eq
  passes := hAccepted.passes .entry
  methods _ hKey _ hFound := hAccepted.passes (.helper hKey hFound)
  fields _ hField _ := run.program.proper_fieldInfos cfg _ hField
  inits _ _ hInit := hAccepted.passes_init hInit
  shader := hAccepted.seen.shader

/-- The functions of an accepted shader keep the scopes of its methods, and its static values can be accounted for.
The entry point is written from a function that keeps those of the entry method. -/
theorem scopes :
    let lowered := run.program.loweredOf cfg run.entry
    (∃ written, StandsFor (run.ending run.Casts) (run.program.kind == .pixel) (entryPoint, run.entry) written ∧
      lowered.entry = entryPointOf (run.program.modelOf cfg) lowered.ids written) ∧
    List.Forall₂ (StandsFor (run.ending run.Casts) false) run.functions lowered.helpers ∧
    ∀ decl ∈ lowered.statics, (run.ending run.Casts).Lists decl := by
  obtain ⟨hEntry, hStatics, added, hHelpers, hAdded⟩ := hAccepted.follows.scopes_unit hAccepted.fair
  have hGathered := congrArg Tracked.gathered hAccepted.last_eq
  refine ⟨⟨_, hEntry, rfl⟩, ?_, fun decl hDecl => hStatics decl ?_⟩
  · have hLifted : (run.program.loweredOf cfg run.entry).helpers = added :=
      (congrArg Gathered.helpers hGathered).symm.trans hHelpers
    rwa [hLifted]
  · rw [show (run.ending run.Casts).last.gathered = _ from hGathered]
    exact hDecl

end Accepted

end Shaderlift
