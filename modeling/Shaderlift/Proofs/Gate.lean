import Shaderlift.Proofs.Diagnostic.Reports
import Shaderlift.Proofs.Lowering.BlankUnit
import Shaderlift.Proofs.Program.Containment
import Shaderlift.Transpiled

/-!
# The rules stand before lowering

A shader is lowered only if no rule is broken. What the rules look at and what is lowered are found in
different ways: the rules walk the members of the shader and the methods that it needs, while lowering also
pulls in initial values of static fields of other types and default values of parameters. The main result
says what follows: everything that contributes to the output of an accepted shader is free of forbidden
constructs exactly when the pulled fragments that the rules do not walk are, and then no blank is written.
-/

namespace Shaderlift

open List

open Legality Lower

/-! ## The shader and its members -/

theorem TypeIndex.get?_of_find? {index : TypeIndex} {name : String} {entry : TypeEntry}
    (hFound : index.find? name = some entry) : index.get? entry.name = some entry := by
  have hGet : index.get? name = some entry := by
    unfold TypeIndex.find? at hFound
    split at hFound
    · cases hFound
    · rename_i other hOther
      dsimp only at hFound
      split at hFound
      · rwa [← hFound]
      · cases hFound
  have hName : entry.name = Text.lastSegment name := by simpa using List.find?_some hGet
  unfold TypeIndex.get? at hGet ⊢
  rwa [hName, Text.lastSegment_lastSegment]

namespace Program

variable {unit : SourceUnit} {decl : TypeDecl} {program : Program} {report : Report} {key : MethodKey}
  {method : MethodDecl}

/-- A program is seen from a type that its own name finds, and its entry point is a method of that type. -/
structure IsSeen (program : Program) : Prop where
  shader : program.typeDecl? program.shader.name = some program.shader
  entry : ∀ position entry, program.entry = some (position, entry) → entry ∈ program.shader.methods

theorem isSeen_of_found {src name : String} (hFound : findShader src name = .ok (unit, decl))
    (hBuild : build unit decl = (some program, report)) : program.IsSeen := by
  obtain ⟨hTypes, -, hShader, hEntry⟩ := parts_of_build hBuild
  constructor
  · unfold findShader at hFound
    split at hFound
    · cases hFound
    · split at hFound
      · rename_i entry hIdx
        cases hFound
        rw [typeDecl?, hTypes, hShader]
        exact congrArg (Option.map TypeEntry.decl) (TypeIndex.get?_of_find? hIdx)
      · cases hFound
  · intro pos entry hSome
    rw [hEntry, findEntry, Option.map_eq_some_iff] at hSome
    obtain ⟨⟨method, place⟩, hFind, hPair⟩ := hSome
    cases hPair
    rw [hShader]
    exact (mem_zipIdx (mem_of_find?_eq_some hFind)).2.2 ▸ getElem_mem _

theorem exists_entry_of_method? (hMethod : program.method? key = some method) :
    ∃ entry, program.index.get? key.owner = some entry ∧ entry.decl.methods[key.index]? = some method ∧
      method.name = key.name := by
  unfold method? methodsOf typeDecl? at hMethod
  cases hEntry : program.index.get? key.owner with
  | none =>
    rw [hEntry] at hMethod
    cases hMethod
  | some entry =>
    rw [hEntry, Option.map_some] at hMethod
    dsimp only at hMethod
    split at hMethod
    · rename_i found hFound
      split at hMethod
      · rename_i hName
        cases hMethod
        exact ⟨entry, rfl, hFound, beq_iff_eq.mp hName⟩
      · cases hMethod
    · cases hMethod

/-- Methods of the shader are among its members, where their keys say. -/
theorem IsSeen.getElem?_methods (hSeen : program.IsSeen) (hOwner : key.owner = program.shader.name)
    (hMethod : program.method? key = some method) : program.shader.methods[key.index]? = some method := by
  obtain ⟨entry, hEntry, hFound, -⟩ := exists_entry_of_method? hMethod
  have hShader := hSeen.shader
  rw [← hOwner, typeDecl?, hEntry] at hShader
  rw [← Option.some.inj hShader]
  exact hFound

end Program

namespace Legality

variable {decl : TypeDecl} {method : MethodDecl} {name : String} {init : Expr}

theorem mem_members_of_mem_methods (hMethod : method ∈ decl.methods) : .method method ∈ decl.members := by
  obtain ⟨member, hMember, hSome⟩ := mem_filterMap.mp hMethod
  cases member with
  | method found =>
    cases hSome
    exact hMember
  | field | property | constructor | type => cases hSome

/-- The initial value of a field is that of a declarator among the members. -/
theorem exists_declarator_of_init
    (hInit : ((declaratorOf? decl.fields name).bind fun (_, declarator) => declarator.init) = some init) :
    ∃ field declarator, .field field ∈ decl.members ∧ declarator ∈ field.declarators ∧ declarator.init = some init := by
  obtain ⟨⟨field, declarator⟩, hFound, hVal⟩ := Option.bind_eq_some_iff.mp hInit
  obtain ⟨found, hField, hSome⟩ := exists_of_findSome?_eq_some hFound
  obtain ⟨first, hFirst, hPair⟩ := Option.map_eq_some_iff.mp hSome
  cases hPair
  obtain ⟨member, hMember, hSelf⟩ := mem_filterMap.mp hField
  cases member with
  | field other =>
    cases hSelf
    exact ⟨_, declarator, hMember, mem_of_find?_eq_some hFirst, hVal⟩
  | method | property | constructor | type => cases hSelf

variable {test : NodeTest} {prog : Program} {later : CallMemo}

namespace PassesShader

variable (hPasses : PassesShader prog test later)

include hPasses

theorem own (hMethod : method ∈ prog.shader.methods) : method.all test = true :=
  hPasses.1 _ (mem_members_of_mem_methods hMethod)

/-- A method of the shader passes the test of the shader, and so does one that it needs. -/
theorem needed {key : MethodKey} (hSeen : prog.IsSeen) (hMethod : prog.method? key = some method)
    (hKey : key.owner = prog.shader.name ∨ key ∈ (prog.reachableMethods later).1) : method.all test = true := by
  by_cases hOwner : key.owner = prog.shader.name
  · exact hPasses.own (mem_of_getElem? (hSeen.getElem?_methods hOwner hMethod))
  · exact hPasses.2 key (hKey.resolve_left hOwner) hOwner method hMethod

theorem initial (hInit : shaderInit? prog name = some init) : passesInit test init = true := by
  obtain ⟨field, declarator, hField, hDeclarator, hVal⟩ := exists_declarator_of_init hInit
  exact hPasses.1 _ hField declarator hDeclarator init hVal

end PassesShader

end Legality

/-! ## Between the rules and lowering -/

namespace ScenePosition

open Track

/-- Looking for the scene position keeps the calls that are remembered. -/
theorem visitor_respects (program : Program) (owner : String) :
    (visitor program owner).Respects NodeTest.any fun action _ => Keeps program action where
  done := .pure ()
  seq hFirst hSecond := hFirst.bind fun _ => hSecond
  weaken hAction _ := hAction
  type _ := .pure ()
  expr expr walk _ hWalk := by
    cases expr with
    | call _ callee _ args =>
      refine .bind (.recalling program owner fun _ => Program.closed_callee (Recall.closed_stable program owner) callee _ .empty) fun found => ?_
      cases found with
      | intrinsic found =>
        dsimp only
        split
        · exact .bind (.gather _) fun _ => hWalk
        · exact hWalk
      | _ => exact hWalk
    | _ => exact hWalk
  pattern _ _ _ hWalk := hWalk
  stmt _ _ _ hWalk := hWalk
  decl _ _ _ hWalk := hWalk
  block _ _ _ hWalk := by
    refine .bind .get fun st => ?_
    split
    · exact hWalk
    · exact .pure ()
  method _ _ _ hWalk := hWalk

theorem keeps_visitMethods (program : Program) (keys : List MethodKey) : Keeps program (visitMethods program keys) := by
  induction keys with
  | nil => exact .pure ()
  | cons key rest ih =>
    unfold visitMethods
    dsimp only
    split
    · exact .bind ((visitor_respects program key.owner).visitMethod _) fun _ => ih
    · exact ih

theorem keeps_find (program : Program) : Keeps program (find program) := by
  have hHelpers : Keeps program (do
      let helpers ← recalling program program.shader.name fun _ => program.reachableMethods
      visitMethods program helpers) :=
    .bind (.recalling _ _ fun _ => program.stable_reachableMethods) fun helpers => keeps_visitMethods program helpers
  unfold find
  dsimp only
  split
  · exact .bind ((visitor_respects program program.shader.name).visitMethod _) fun _ => hHelpers
  · exact hHelpers

theorem kept_check (program : Program) (cfg : Config) (memo : CallMemo) :
    memo.Kept program (check program cfg memo).2 := by
  unfold check
  split
  · exact .refl memo
  · have hFind := (keeps_find program).memo (.start memo none)
    dsimp only
    split
    rename_i st hSt
    rw [hSt] at hFind
    split
    · exact hFind
    · exact hFind

end ScenePosition

namespace Report

theorem mem_dropRepeats {report : Report} {diagnostic : Diagnostic} :
    diagnostic ∈ dropRepeats report ↔ diagnostic ∈ report := by
  induction report with
  | nil => rfl
  | cons first rest ih =>
    unfold dropRepeats
    rw [mem_cons, ← ih]
    split
    · rename_i hRest
      rw [hRest, mem_singleton]
      simp
    · rename_i second others hRest
      rw [hRest]
      split
      · rename_i hEqual
        rw [hEqual, mem_cons]
        tauto
      · rw [mem_cons]

theorem hasErrors_sorted (report : Report) : (sorted report).hasErrors = report.hasErrors := by
  rw [Bool.eq_iff_iff, hasErrors, hasErrors, any_eq_true, any_eq_true]
  refine exists_congr fun diagnostic => and_congr_left fun _ => ?_
  rw [sorted, mem_dropRepeats, mem_mergeSort]

end Report

/-! ## Runs and their fragments -/

/-- A run of lowering: the program, its entry point, and the state at the end. -/
structure LoweringRun where
  program : Program
  entry : MethodDecl
  last : Tracked Gathered

namespace Program

def modelOf (program : Program) (config : Config) : ShaderModel :=
  (ShaderModel.build program config (program.legality .empty).2).1.1

/-- The state from which a program is lowered: the calls that the rules and the model have met are
remembered. -/
def startOf (program : Program) (config : Config) : Tracked Gathered :=
  .start (ShaderModel.build program config (program.legality .empty).2).2 .empty

def run? (program : Program) (config : Config) : Option LoweringRun :=
  program.entry.map fun (_, entry) =>
    ⟨program, entry, (Lower.unit program (program.modelOf config) .standard entry (program.startOf config)).2⟩

def reportOf (program : Program) (config : Config) (start : Report) : Report :=
  (start ++ (program.legality .empty).1 ++
    (ShaderModel.build program config (program.legality .empty).2).1.2).sorted

theorem transpile_eq (program : Program) (blank : Blank) (cfg : Config) (start : Report) :
    program.transpile blank cfg start =
      if (program.reportOf cfg start).hasErrors then .error (.rejected (program.reportOf cfg start))
      else
        match program.entry with
        | some (_, entry) =>
          program.finish blank (program.modelOf cfg) (program.reportOf cfg start) entry
            (program.startOf cfg).memo
        | none => .error (.rejected (program.reportOf cfg start)) :=
  rfl

end Program

/-- The run that lowers the shader type of a name in a source text. -/
def loweringRun? (source name : String) (config : Config) : Option LoweringRun :=
  match findShader source name with
  | .error _ => none
  | .ok (unit, decl) => (Program.build unit decl).1.bind fun program => program.run? config

/-- A part of a source text from which output is written. -/
inductive Fragment where
  | method (decl : MethodDecl)
  | init (value : Expr)
  | default (value : Expr)

/-- No construct that no shader may contain occurs in a fragment. An initial value may itself create an
array. -/
def Fragment.Clean : Fragment → Prop
  | .method decl => decl.all allowed = true
  | .init val => allowsInit val = true
  | .default val => val.all allowed = true

/-- A fragment passes a test, where initial values are asked for something of their own. -/
def Fragment.Holds (test : NodeTest) (Init : Expr → Prop) : Fragment → Prop
  | .method decl => decl.all test = true
  | .init val => Init val
  | .default val => val.all test = true

theorem Fragment.clean_iff {fragment : Fragment} : fragment.Clean ↔ fragment.Holds allowed (allowsInit · = true) := by
  cases fragment <;> rfl

namespace LoweringRun

/-- The fragments that contribute to the output: the entry point and the methods that it needs, each with
its local functions; the initial values of the static fields of the shader and of those of other types that
have been met; and the default values of the methods that are called. -/
inductive Contributes (run : LoweringRun) : Fragment → Prop
  | entry : Contributes run (.method run.entry)
  | helper {key : MethodKey} {decl : MethodDecl} :
      key ∈ (run.program.reachableMethods run.last.memo).1 → run.program.method? key = some decl →
      Contributes run (.method decl)
  | ownStatic {name : String} {value : Expr} :
      shaderInit? run.program name = some value → Contributes run (.init value)
  | static {owner name : String} {value : Expr} :
      (owner, name) ∈ run.last.gathered.seenStatics → fieldInit? run.program owner name = some value →
      Contributes run (.init value)
  | default {call : CallKey} {key : MethodKey} {decl : MethodDecl} {param : Param} {value : Expr} :
      run.last.memo.entries.lookup call = some (.source key) → run.program.method? key = some decl →
      param ∈ decl.params → param.default = some value → Contributes run (.default value)

/-- The fragments among these that the rules do not walk: initial values of static fields of other types,
and default values of methods of other types that the entry point does not need. -/
inductive Unwalked (run : LoweringRun) : Fragment → Prop
  | static {owner name : String} {value : Expr} :
      (owner, name) ∈ run.last.gathered.seenStatics → owner ≠ run.program.shader.name →
      fieldInit? run.program owner name = some value → Unwalked run (.init value)
  | default {call : CallKey} {key : MethodKey} {decl : MethodDecl} {param : Param} {value : Expr} :
      run.last.memo.entries.lookup call = some (.source key) → key.owner ≠ run.program.shader.name →
      key ∉ (run.program.reachableMethods run.last.memo).1 → run.program.method? key = some decl →
      param ∈ decl.params → param.default = some value → Unwalked run (.default value)

theorem Unwalked.contributes {run : LoweringRun} {fragment : Fragment} (hUnwalked : run.Unwalked fragment) :
    run.Contributes fragment := by
  cases hUnwalked with
  | static hMet _ hInit => exact .static hMet hInit
  | default hCall _ _ hMethod hParam hDefault => exact .default hCall hMethod hParam hDefault

/-- What the rules have walked in a run: the members of the shader, and the methods of other types that the
entry point needs. -/
structure Walked (run : LoweringRun) : Prop where
  seen : run.program.IsSeen
  entry : run.entry ∈ run.program.shader.methods
  shader : PassesShader run.program allowed run.last.memo

namespace Walked

variable {run : LoweringRun} (hWalked : run.Walked)

include hWalked

/-- Everything that contributes passes a test if the shader and the fragments that the rules do not walk pass it. -/
theorem holds {test : NodeTest} {Init : Expr → Prop} (hPasses : PassesShader run.program test run.last.memo)
    (hInits : ∀ name val, shaderInit? run.program name = some val → Init val)
    (hUnwalked : ∀ fragment, run.Unwalked fragment → fragment.Holds test Init) {fragment : Fragment}
    (hContributes : run.Contributes fragment) : fragment.Holds test Init := by
  cases hContributes with
  | entry => exact hPasses.own hWalked.entry
  | helper hKey hMethod => exact hPasses.needed hWalked.seen hMethod (.inr hKey)
  | ownStatic hInit => exact hInits _ _ hInit
  | @static owner name val hMet hInit =>
    by_cases hOwner : owner = run.program.shader.name
    · rw [hOwner, fieldInit?, hWalked.seen.shader] at hInit
      exact hInits _ _ hInit
    · exact hUnwalked _ (.static hMet hOwner hInit)
  | @default call key decl param val hCall hMethod hParam hDefault =>
    by_cases hKey : key.owner = run.program.shader.name ∨ key ∈ (run.program.reachableMethods run.last.memo).1
    · have hAll := hPasses.needed hWalked.seen hMethod hKey
      have hParams := all_eq_true.mp (MethodDecl.allParams_of_all hAll) param hParam
      rwa [hDefault, allExpr?] at hParams
    · rw [not_or] at hKey
      exact hUnwalked _ (.default hCall hKey.1 hKey.2 hMethod hParam hDefault)

/-- If the fragments that the rules do not walk are clean, then everything that contributes is. -/
theorem clean_of_unwalked (hUnwalked : ∀ fragment, run.Unwalked fragment → fragment.Clean)
    {fragment : Fragment} (hContributes : run.Contributes fragment) : fragment.Clean := by
  refine Fragment.clean_iff.mpr (hWalked.holds hWalked.shader (fun _ init hInit => ?_)
    (fun _ hFragment => Fragment.clean_iff.mp (hUnwalked _ hFragment)) hContributes)
  rw [← passesInit_allowed]
  exact hWalked.shader.initial hInit

end Walked

/-- A run to which only clean fragments contribute ends in a fine state. -/
theorem fine_of_clean {run : LoweringRun} (hClean : ∀ fragment, run.Contributes fragment → fragment.Clean) :
    Fine run.program run.last where
  statics field hMet init hInit := hClean _ (.static hMet hInit)
  defaults call key method hCall hMethod := by
    refine all_eq_true.mpr fun param hParam => ?_
    cases hDefault : param.default with
    | none => rfl
    | some val => exact hClean _ (.default hCall hMethod hParam hDefault)

end LoweringRun

namespace Program

theorem kept_startOf (program : Program) (cfg : Config) :
    (program.legality .empty).2.Kept program (program.startOf cfg).memo :=
  ScenePosition.kept_check program cfg _

variable {program : Program} {cfg : Config} {run : LoweringRun} {entry : MethodDecl} {blank : Blank} {start : Report}
  {out : Transpiled}

/-- The rules have walked the run of a program about which they report no error. -/
theorem walked_of_run (hSeen : program.IsSeen) (hQuiet : Report.hasErrors (program.legality .empty).1 = false)
    (hRun : program.run? cfg = some run) : run.Walked := by
  obtain ⟨⟨pos, entry⟩, hEntry, rfl⟩ := Option.map_eq_some_iff.mp hRun
  obtain ⟨hFirst, hLast⟩ := grown_unit program (program.modelOf cfg) entry (program.startOf cfg)
  exact
    { seen := hSeen
      entry := hSeen.entry pos entry hEntry
      shader := passesShader_of_legality (visitor_respects program) .empty hQuiet _
        ((program.kept_startOf cfg).trans (hFirst.trans hLast).memo) }

/-- Nothing forbidden is lowered without being pulled in. -/
theorem allowsUnit_of_seen (hSeen : program.IsSeen) (hQuiet : Report.hasErrors (program.legality .empty).1 = false)
    {pos : Nat} (hEntry : program.entry = some (pos, entry)) :
    AllowsUnit program entry (program.startOf cfg).memo where
  entry := (passesShader_of_legality (visitor_respects program) .empty hQuiet _ (.refl _)).own
    (hSeen.entry pos entry hEntry)
  helpers later hLater key hKey found hFound :=
    (passesShader_of_legality (visitor_respects program) .empty hQuiet later
      ((program.kept_startOf cfg).trans hLater)).needed hSeen hFound (.inr hKey)
  statics name init hInit := by
    rw [← passesInit_allowed]
    exact (passesShader_of_legality (visitor_respects program) .empty hQuiet _ (.refl _)).initial hInit

/-- A program to whose run only clean fragments contribute is lowered in the same way under all blanks. -/
theorem transpile_eq_of_clean (hSeen : program.IsSeen) (hQuiet : Report.hasErrors (program.legality .empty).1 = false)
    (hRun : program.run? cfg = some run) (hClean : ∀ fragment, run.Contributes fragment → fragment.Clean)
    (blank : Blank) (start : Report) : program.transpile blank cfg start = program.transpile .standard cfg start := by
  obtain ⟨⟨pos, entry⟩, hEntry, rfl⟩ := Option.map_eq_some_iff.mp hRun
  have hUnit : Lower.unit program (program.modelOf cfg) blank entry (.start (program.startOf cfg).memo .empty) = _ :=
    unit_eq_of_fine blank program _ entry _ (allowsUnit_of_seen hSeen hQuiet hEntry) (LoweringRun.fine_of_clean hClean)
  rw [transpile_eq, transpile_eq, hEntry]
  dsimp only
  unfold finish lower
  rw [hUnit]

/-- Neither the rules nor the model report an error about an accepted program. -/
theorem quiet_of_ok (hOk : program.transpile blank cfg start = .ok out) :
    Report.hasErrors (program.legality .empty).1 = false ∧
      Report.hasErrors (ShaderModel.build program cfg (program.legality .empty).2).1.2 = false := by
  rw [transpile_eq] at hOk
  split at hOk
  · cases hOk
  · rename_i hErrors
    rw [Bool.not_eq_true, reportOf, Report.hasErrors_sorted, Report.hasErrors_append, Report.hasErrors_append]
      at hErrors
    exact ⟨hErrors.1.2, hErrors.2⟩

/-- An accepted program has a run, and the rules report no error about it. -/
theorem exists_run_of_ok (hOk : program.transpile blank cfg start = .ok out) :
    Report.hasErrors (program.legality .empty).1 = false ∧ ∃ run, program.run? cfg = some run := by
  refine ⟨(quiet_of_ok hOk).1, ?_⟩
  rw [transpile_eq] at hOk
  split at hOk
  · cases hOk
  · split at hOk
    · rename_i hEntry
      exact ⟨_, by rw [run?, hEntry]; rfl⟩
    · cases hOk

end Program

/-- The rules stand before everything that an accepted shader is lowered from, except for what is pulled in
from places that they do not walk: all fragments that contribute to the output hold no forbidden construct
exactly when those do, and then the output has no blank in it, since it is the same under all blanks. -/
theorem transpile_clean_iff (source name : String) (config : Config) (out : Transpiled)
    (hOk : transpile source name config = .ok out) :
    ∃ run, loweringRun? source name config = some run ∧
      ((∀ fragment, run.Contributes fragment → fragment.Clean) ↔
        ∀ fragment, run.Unwalked fragment → fragment.Clean) ∧
      ((∀ fragment, run.Unwalked fragment → fragment.Clean) →
        ∀ blank, transpileWith blank source name config = .ok out) := by
  unfold transpile transpileWith at hOk
  unfold loweringRun? transpileWith
  cases hFound : findShader source name with
  | error => simp [hFound] at hOk
  | ok found =>
    obtain ⟨unit, decl⟩ := found
    cases hBuild : Program.build unit decl with
    | mk built report =>
      cases built with
      | none => simp [hFound, hBuild] at hOk
      | some program =>
        simp only [hFound, hBuild] at hOk ⊢
        have hSeen := Program.isSeen_of_found hFound hBuild
        obtain ⟨hQuiet, run, hRun⟩ := Program.exists_run_of_ok hOk
        have hWalked := Program.walked_of_run hSeen hQuiet hRun
        refine ⟨run, hRun, ⟨fun hAll _ hFragment => hAll _ hFragment.contributes, ?_⟩, ?_⟩
        · exact fun hUnwalked _ => hWalked.clean_of_unwalked hUnwalked
        · intro hUnwalked blank
          rw [← hOk]
          exact Program.transpile_eq_of_clean hSeen hQuiet hRun
            (fun _ => hWalked.clean_of_unwalked hUnwalked) blank report

/-! ## A shader with a pulled value -/

theorem exists_of_toBool {src name : String} {cfg : Config} (hOk : (transpile src name cfg).toBool = true) :
    ∃ out, transpile src name cfg = .ok out := by
  cases hOut : transpile src name cfg with
  | error =>
    rw [hOut] at hOk
    cases hOk
  | ok out => exact ⟨out, rfl⟩

namespace LoweringRun

/-- Decide whether what is pulled in outside the shader is clean, for all that can be pulled in. -/
def pullsCleanly (run : LoweringRun) : Bool :=
  (run.last.gathered.seenStatics.all fun (owner, name) => (fieldInit? run.program owner name).all allowsInit) &&
    run.last.memo.entries.all fun (_, callee) =>
      match callee with
      | .source key => (run.program.method? key).all fun decl => allParams allowed decl.params
      | _ => true

theorem clean_of_pullsCleanly {run : LoweringRun} (hPulls : run.pullsCleanly = true) {fragment : Fragment}
    (hUnwalked : run.Unwalked fragment) : fragment.Clean := by
  obtain ⟨hStatics, hCalls⟩ := Bool.and_eq_true_iff.mp hPulls
  cases hUnwalked with
  | static hMet _ hInit =>
    have hField := all_eq_true.mp hStatics _ hMet
    dsimp only at hField
    rwa [hInit] at hField
  | @default call key decl param val hCall _ _ hMethod hParam hDefault =>
    have hEntry := all_eq_true.mp hCalls _ (mem_of_lookup hCall)
    dsimp only at hEntry
    rw [hMethod] at hEntry
    have hVal := all_eq_true.mp hEntry _ hParam
    rwa [hDefault, allExpr?] at hVal

end LoweringRun

/-- A shader that reads a static field of another type. -/
def borrowingShader : String :=
  "struct S : IComputeShader \x7b ReadWriteBuffer<float> b; void Execute() \x7b b[0] = P.K; \x7d \x7d " ++
    "struct P \x7b public static float K = 2; \x7d"

set_option maxRecDepth 100000 in
theorem isOk_borrowingShader : (transpile borrowingShader "S" .unspecified).toBool = true := by decide +kernel

set_option maxRecDepth 100000 in
theorem pullsCleanly_borrowingShader :
    (loweringRun? borrowingShader "S" .unspecified).all LoweringRun.pullsCleanly = true := by decide +kernel

/-- The static field is pulled in, and nothing forbidden comes with it. -/
theorem transpile_clean_iff_borrowingShader :
    ∃ out, transpile borrowingShader "S" .unspecified = .ok out ∧
      ∀ blank, transpileWith blank borrowingShader "S" .unspecified = .ok out := by
  obtain ⟨out, hOut⟩ := exists_of_toBool isOk_borrowingShader
  obtain ⟨run, hRun, -, hSame⟩ := transpile_clean_iff borrowingShader "S" .unspecified out hOut
  have hPulls := pullsCleanly_borrowingShader
  rw [hRun] at hPulls
  exact ⟨out, hOut, hSame fun _ => LoweringRun.clean_of_pullsCleanly hPulls⟩

end Shaderlift
