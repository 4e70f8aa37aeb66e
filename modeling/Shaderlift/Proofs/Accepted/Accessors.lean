import Shaderlift.Proofs.Accepted.Scoping
import Shaderlift.Proofs.Model.Indices

/-!
# The functions that return sizes

A size of a resource is read by calling a function that is named after the resource as it is called in the output.
The function is printed for a field of the model of that name, but the fields of the model have their names in the
source. So the function of a resource whose name is marked in the output is called and not defined, unless another
resource happens to have the marked name. The same holds of resources that are fields of other types.
-/

namespace Shaderlift

open List
open FieldVerdict (ofDeclarator judged_ofDeclarator)
open FieldInfo (resource?)
open Reserved (identifier)

open Lower

/-! ## Names -/

theorem Reserved.identifier_identifier (name : String) : identifier (identifier name) = identifier name := by
  have hWords : words.all (fun word => word.toList.head? != some '_') = true := by decide
  have hMarked : spellsType ("__reserved__" ++ name) = false := by
    simp [spellsType]
  have hOther : words.contains ("__reserved__" ++ name) = false := by
    rw [Bool.eq_false_iff]
    intro hContains
    have hWord := all_eq_true.mp hWords _ (contains_iff_mem.mp hContains)
    simp at hWord
  unfold identifier
  split
  · rw [hMarked, hOther]
    rfl
  · rfl

/-- Sizes of different resources, and different sizes of one resource, are returned by functions of different names. -/
theorem SizeRead.function_injective {first second : SizeRead} (hSame : first.function = second.function) :
    first = second := by
  obtain ⟨field, property⟩ := first
  obtain ⟨other, found⟩ := second
  -- Read from the end, the names of the sizes differ before those of the resources begin.
  have hReverse := congrArg (fun text => text.toList.reverse) hSame
  cases property <;> cases found <;> simp [function, ResourceProperty.name] at hReverse ⊢
  all_goals exact String.toList_inj.mp hReverse

/-! ## Definitions in the output -/

namespace OutUnit

/-- The line at which the function that returns a size begins. -/
def sizeHeader (size : SizeRead) : String := "int " ++ size.function ++ "()"

def sizeDefinition (program : Program) (size : SizeRead) (object : String) (resource : Resource) : Lines :=
  sizeHeader size :: Lines.braced (sizeBody program object size.property resource) "" ++ [""]

theorem sizeHeader_injective {first second : SizeRead} (hSame : sizeHeader first = sizeHeader second) :
    first = second := by
  have hNames : first.function = second.function := by simpa [sizeHeader] using hSame
  exact SizeRead.function_injective hNames

variable {prog : Program} {model : ShaderModel}

variable {size : SizeRead} {res : Resource}

theorem sizeLines_of_resource (hField : (model.field? size.field).bind resource? = some res) :
    sizeLines prog model size = sizeDefinition prog size (identifier size.field) res := by
  have hHeader : "int __" ++ size.field ++ "__get_" ++ size.property.name ++ "()" = sizeHeader size := by
    unfold sizeHeader SizeRead.function
    rw [← String.append_assoc, ← String.append_assoc, ← String.append_assoc]
    rfl
  unfold sizeLines
  rw [hField]
  dsimp only
  rw [hHeader]
  rfl

theorem sizeLines_of_none (hField : (model.field? size.field).bind resource? = none) :
    sizeLines prog model size = [] := by
  unfold sizeLines
  rw [hField]

/-- No line inside braces begins like the header of a function. -/
theorem sizeHeader_not_mem_braced (size : SizeRead) (lines : Lines) : sizeHeader size ∉ Lines.braced lines "" := by
  have hHead : (sizeHeader size).toList.head? = some 'i' := by simp [sizeHeader]
  intro hMem
  rcases mem_append.mp hMem with hFirst | hLast
  · rcases mem_append.mp hFirst with hOpen | hLine
    · rw [mem_singleton.mp hOpen] at hHead
      cases hHead
    · obtain ⟨line, -, hLine⟩ := mem_map.mp hLine
      rw [← hLine, Lines.indentLine] at hHead
      split at hHead
      · rename_i hEmpty
        rw [String.isEmpty_iff.mp hEmpty] at hHead
        cases hHead
      · simp at hHead
  · rw [mem_singleton.mp hLast] at hHead
    cases hHead

/-- Among the functions that return sizes there is one of a size exactly if that size is read, and the model has a
resource under the name that the output gives to the field. -/
theorem sizeHeader_mem_iff {sizes : List SizeRead} : sizeHeader size ∈ sizes.flatMap (sizeLines prog model) ↔
      size ∈ sizes ∧ ∃ res, (model.field? size.field).bind resource? = some res := by
  rw [mem_flatMap]
  constructor
  · rintro ⟨other, hOther, hMem⟩
    cases hField : (model.field? other.field).bind resource? with
    | none =>
      rw [sizeLines_of_none hField] at hMem
      cases hMem
    | some res =>
      rw [sizeLines_of_resource hField] at hMem
      have hSame : sizeHeader size = sizeHeader other := by
        rcases mem_append.mp hMem with hLines | hBlank
        · rcases mem_cons.mp hLines with hHeader | hBody
          · exact hHeader
          · exact absurd hBody (sizeHeader_not_mem_braced size _)
        · have hHead : (sizeHeader size).toList.head? = some 'i' := by simp [sizeHeader]
          rw [mem_singleton.mp hBlank] at hHead
          cases hHead
      rw [sizeHeader_injective hSame]
      exact ⟨hOther, res, hField⟩
  · rintro ⟨hSize, res, hField⟩
    refine ⟨size, hSize, ?_⟩
    rw [sizeLines_of_resource hField]
    exact mem_append_left _ mem_cons_self

theorem sizeDefinition_infix {unit : LoweredUnit} {bindings : List Binding} (hSize : size ∈ unit.sizes)
    (hField : (model.field? size.field).bind resource? = some res) :
    sizeDefinition prog size (identifier size.field) res <:+: lines prog model unit bindings := by
  have hSizes : sizeLines prog model size <:+: unit.sizes.flatMap (sizeLines prog model) := by
    obtain ⟨before, after, hSplit⟩ := append_of_mem hSize
    rw [hSplit, flatMap_append, flatMap_cons]
    exact ⟨_, _, (append_assoc ..)⟩
  rw [← sizeLines_of_resource hField]
  refine hSizes.trans ?_
  exact ⟨_, _, (append_assoc _ _ _).symm⟩

theorem sizeBody_queries (object : String) (property : ResourceProperty) (res : Resource) : res.kind = .constantBuffer ∨
      ∃ wanted, object ++ ".GetDimensions(" ++ wanted ++ ");" ∈ sizeBody prog object property res := by
  unfold sizeBody
  split
  · split
    · rename_i hKind
      exact .inl (eq_of_beq hKind)
    · have hQuery : object ++ ".GetDimensions(" ++ "width, stride" ++ ");" =
          object ++ ".GetDimensions(width, stride);" := by
        rw [String.append_assoc, String.append_assoc]
        rfl
      exact .inr ⟨"width, stride", hQuery ▸ mem_cons_of_mem _ mem_cons_self⟩
  · exact .inr ⟨_, mem_cons_of_mem _ mem_cons_self⟩

end OutUnit

/-! ## Resources of the model -/

namespace Program

variable (prog : Program) (cfg : Config) (dispatch : Dispatch)

variable {field : FieldDecl} {declarator : Declarator} {res : Resource} {path : String}

theorem name_of_verdict {info : FieldInfo}
    (hVerdict : ofDeclarator prog cfg dispatch field declarator = .ok info) :
    info.name = declarator.name := by
  have hJudged := judged_ofDeclarator prog cfg dispatch field declarator
  rw [hVerdict] at hJudged
  cases hJudged <;> rfl

variable (hQuiet : Report.hasErrors (prog.fieldInfos cfg dispatch).2 = false)

include hQuiet

/-- A name that is declared as a resource is a resource of the model. -/
theorem verdict_of_resource (hField : field ∈ prog.shader.fields) (hDeclarator : declarator ∈ field.declarators)
    (hResource : prog.meaning field.type = .resource res) :
    ∃ info, ofDeclarator prog cfg dispatch field declarator = .ok info ∧ info.resource? = some res := by
  have hIs : prog.isResource field.type = true := by rw [isResource, hResource]
  have hNone := @quiet_of_verdict prog cfg dispatch hQuiet field hField declarator hDeclarator
  have hJudged := judged_ofDeclarator prog cfg dispatch field declarator
  cases hVerdict : ofDeclarator prog cfg dispatch field declarator with
  | error report =>
    rw [hVerdict] at hJudged
    cases hJudged with
    | unindexed => cases (hNone hVerdict).symm.trans (hasErrors_complain rfl _ _)
    | rejected _ hError => cases (hNone hVerdict).symm.trans (hasErrors_complain hError _ _)
    | forbidden hOther => cases hIs.symm.trans hOther
  | ok info =>
    have hFrom := FieldVerdict.comesFrom_ofDeclarator hVerdict
    rw [hVerdict] at hJudged
    cases hJudged with
    | value hOther => cases hIs.symm.trans hOther
    | resource | texture =>
      refine ⟨_, rfl, ?_⟩
      have hSame := hFrom.symm.trans hResource
      cases hSame
      rfl

/-- The first of the names that a declaration of resources declares is that of a resource of the model. -/
theorem find?_verdicts (hField : field ∈ prog.shader.fields)
    (hResource : prog.meaning field.type = .resource res) {list : List Declarator}
    (hList : ∀ declarator ∈ list, declarator ∈ field.declarators)
    (hAny : (list.any fun declarator => declarator.name == path) = true) :
    ∃ info, (((list.map (ofDeclarator prog cfg dispatch field)).filterMap Except.toOption).find?
      fun info => info.name == path) = some info ∧ info.resource? = some res := by
  induction list with
  | nil => cases hAny
  | cons declarator rest ih =>
    obtain ⟨info, hVerdict, hInfo⟩ := prog.verdict_of_resource cfg dispatch hQuiet hField
      (hList declarator mem_cons_self) hResource
    have hName := prog.name_of_verdict cfg dispatch hVerdict
    have hKept : Except.toOption (.ok info : FieldVerdict) = some info := rfl
    rw [map_cons, hVerdict, filterMap_cons_some hKept, List.find?_cons, hName]
    rw [any_cons] at hAny
    cases hSame : declarator.name == path with
    | true => exact ⟨info, rfl, hInfo⟩
    | false =>
      rw [hSame, Bool.false_or] at hAny
      exact ih (forall_mem_cons.mp hList).2 hAny

/-- The field that a shader declares under a name is the one that its model has under that name, if it is a
resource. -/
theorem find?_fieldInfos
    (hFound : (prog.shader.fields.find? fun field => field.declarators.any fun d => d.name == path) = some field)
    (hResource : prog.meaning field.type = .resource res) :
    ((prog.fieldInfos cfg dispatch).1.find? fun info => info.name == path).bind resource? = some res := by
  have hAll : ∀ fields : List FieldDecl, (∀ field ∈ fields, field ∈ prog.shader.fields) →
      (fields.find? fun field => field.declarators.any fun d => d.name == path) = some field →
      ∃ info, (((fields.flatMap fun field => field.declarators.map
        (ofDeclarator prog cfg dispatch field)).filterMap Except.toOption).find?
          fun info => info.name == path) = some info ∧ info.resource? = some res := by
    intro fields hFields hFound
    induction fields with
    | nil => cases hFound
    | cons first rest ih =>
      rw [flatMap_cons, filterMap_append, List.find?_append]
      rw [List.find?_cons] at hFound
      cases hDeclares : first.declarators.any fun d => d.name == path with
      | true =>
        rw [hDeclares] at hFound
        cases hFound
        obtain ⟨info, hFirst, hInfo⟩ := prog.find?_verdicts cfg dispatch hQuiet
          (hFields _ mem_cons_self) hResource (fun _ => id) hDeclares
        exact ⟨info, by rw [hFirst, Option.some_or], hInfo⟩
      | false =>
        rw [hDeclares] at hFound
        obtain ⟨info, hRest, hInfo⟩ := ih (forall_mem_cons.mp hFields).2 hFound
        refine ⟨info, ?_, hInfo⟩
        -- What the first declaration declares has other names.
        have hFirst : (((first.declarators.map (ofDeclarator prog cfg dispatch first)).filterMap
            Except.toOption).find? fun info => info.name == path) = none := by
          rw [List.find?_eq_none]
          intro other hOther hSame
          obtain ⟨verdict, hVerdict, hOk⟩ := mem_filterMap.mp hOther
          obtain ⟨declarator, hDeclarator, rfl⟩ := mem_map.mp hVerdict
          cases hJudged : ofDeclarator prog cfg dispatch first declarator with
          | error =>
            rw [hJudged] at hOk
            cases hOk
          | ok judged =>
            rw [hJudged] at hOk
            cases hOk
            rw [prog.name_of_verdict cfg dispatch hJudged] at hSame
            exact absurd hSame (any_eq_false.mp hDeclares declarator hDeclarator)
        rw [hFirst, Option.none_or, hRest]
  obtain ⟨info, hInfo, hIs⟩ := hAll prog.shader.fields (fun _ => id) hFound
  have hFields : (prog.fieldInfos cfg dispatch).1.find? (fun info => info.name == path) = some info := hInfo
  rw [hFields, Option.bind_some, hIs]

end Program

/-! ## Calls in the output -/

/-- What a call of a bare name without arguments calls in the output of a run: the function that returns a size of a
resource, what a call of the source calls, or a type. -/
inductive LoweringRun.CallsBare (run : LoweringRun) : String → Prop
  | size {owner path : String} {size : SizeRead} : size ∈ run.last.gathered.sizes →
      run.program.HasSize owner path size → CallsBare run size.function
  | source {call : MetCall} {name : String} : call ∈ run.last.met →
      call.callee.written run.program = .ident name → CallsBare run name
  | construct {type : ValueType} : CallsBare run type.spelling

variable {name path : String} {run : LoweringRun} {Casts : TypeExpr → Prop} {writes : Bool}
  {src : String × MethodDecl} {fn : OutFunction} {cfg : Config}

theorem OutExpr.eq_of_ident_eq_typeName {spelled : String} (hSame : ident name = typeName spelled) :
    name = spelled := by
  unfold typeName at hSame
  split at hSame
  · cases hSame
  · cases hSame
    rfl

theorem Lower.Ending.Accounts.callsBare {out : OutExpr} (hOut : (run.ending Casts).Accounts out)
    (hPart : .call (.ident name) [] ∈ out.parts) : run.CallsBare name := by
  have hCalls : (run.ending Casts).Calls (.ident name) [] := hOut _ hPart
  generalize hCallee : OutExpr.ident name = callee at hCalls
  generalize hArgs : ([] : List OutExpr) = args at hCalls
  cases hCalls with
  | construct =>
    rw [OutExpr.eq_of_ident_eq_typeName hCallee]
    exact .construct
  | components =>
    cases hCallee
    exact .construct
  | coordinates hTwo =>
    rw [← hArgs] at hTwo
    cases hTwo
  | bits => cases hArgs
  | size hMeasures =>
    cases hCallee
    obtain ⟨owner, path, hSize⟩ := hMeasures.source
    exact .size hMeasures.noted hSize
  | source hMet => exact .source hMet hCallee.symm

/-- An expression of the output is what an expression of the source is lowered to, and it calls bare names only for
a reason. -/
structure CallsLike (run : LoweringRun) (place : Scoped Expr) (out : Scoped OutExpr) : Prop where
  value : Yields run.program place.value out.value
  calls : ∀ name, .call (.ident name) [] ∈ out.value.parts → run.CallsBare name

theorem Lower.Corresponds.callsLike {place : Scoped Expr} {out : Scoped OutExpr}
    (hPlace : Corresponds (run.ending Casts) place out) : CallsLike run place out :=
  ⟨hPlace.value.yields, fun _ hPart => hPlace.value.accounts.callsBare hPart⟩

/-- A function of the output is written from code that has the places of a method and calls bare names only for a
reason. -/
def CallsMethod (run : LoweringRun) (writes : Bool) (method : MethodDecl) (function : OutFunction) : Prop :=
  ∃ code : FunctionCode, code.Prints writes function ∧ List.Forall₂ (CallsLike run) method.places code.places

theorem Lower.StandsFor.callsMethod (hFn : StandsFor (run.ending Casts) writes src fn) :
    CallsMethod run writes src.2 fn := by
  obtain ⟨code, -, hCode⟩ := hFn.methodCode fun _ _ hPlace => hPlace.callsLike
  exact ⟨code, hCode⟩

theorem Lower.StandsFor.callsEntry (hFn : StandsFor (run.ending Casts) writes src fn)
    (hParams : src.2.params = []) (model : ShaderModel) (ids : SpecialIds) :
    CallsMethod run writes src.2 (entryPointOf model ids fn) := by
  have hPlaces : ∀ place out, Corresponds (run.ending Casts) place out →
      CallsLike run place (out.under (model.kind.coordinates ids)) :=
    fun _ _ hPlace => ⟨hPlace.callsLike.value, hPlace.callsLike.calls⟩
  obtain ⟨code, -, hCode⟩ := hFn.entryCode hParams model ids hPlaces
  exact ⟨_, hCode⟩

/-- The initial value of a static value, if it has one, is what that of a field is lowered to, and it calls bare names
only for a reason. -/
def CallsStatic (run : LoweringRun) (decl : StaticDecl) : Prop :=
  ∃ owner field, decl.name = staticName run.program owner field ∧ ∀ text, decl.init = some text →
    ∃ value out, fieldInit? run.program owner field = some value ∧ YieldsOn run.program value out ∧ text = out.text ∧
      ∀ name, .call (.ident name) [] ∈ out.parts → run.CallsBare name

theorem Lower.Ending.Lists.callsStatic {decl : StaticDecl} (hDecl : (run.ending Casts).Lists decl) :
    CallsStatic run decl := by
  obtain ⟨owner, field, hName, hInit⟩ := hDecl.source
  refine ⟨owner, field, hName, fun text hText => ?_⟩
  obtain ⟨val, out, hVal, hYields, hAccounts, hOut⟩ := hInit text hText
  exact ⟨val, out, hVal, hYields, hOut, fun _ hPart => hAccounts.callsBare hPart⟩

/-! ## Sizes of accepted shaders -/

/-- The function that returns a size of a resource is defined in the output exactly if the model has a resource under
the name that the output gives to the field, and then it asks that name for its dimensions, unless the resource is a
constant buffer, of which the number of elements is known. The model has the resource itself under
that name if it is a field of the shader and its name is not marked in the output. -/
structure DefinesSize (program : Program) (model : ShaderModel) (lowered : LoweredUnit) (bindings : List Binding)
    (owner path : String) (size : SizeRead) : Prop where
  defined : OutUnit.sizeHeader size ∈ lowered.sizes.flatMap (OutUnit.sizeLines program model) ↔
    ∃ resource, (model.field? (identifier path)).bind resource? = some resource
  queries : ∀ resource, (model.field? (identifier path)).bind resource? = some resource →
    OutUnit.sizeDefinition program size (identifier path) resource <:+:
        OutUnit.lines program model lowered bindings ∧
      (resource.kind = .constantBuffer ∨ ∃ wanted, identifier path ++ ".GetDimensions(" ++ wanted ++ ");" ∈
        OutUnit.sizeBody program (identifier path) size.property resource)
  own : owner = program.shader.name → identifier path = path →
    ∃ resource, (model.field? (identifier path)).bind resource? = some resource

/-- A field of a shader from which a size is read is a resource of the model, if nothing is wrong with the fields. -/
theorem Program.resource_of_sizeOf? {prog : Program} {dispatch : Dispatch} (hSeen : prog.IsSeen)
    (hQuiet : Report.hasErrors (prog.fieldInfos cfg dispatch).2 = false) {property : String}
    {size : ResourceProperty} (hSize : prog.sizeOf? prog.shader.name path property = some size) :
    ∃ res, ((prog.fieldInfos cfg dispatch).1.find? fun info => info.name == path).bind
      resource? = some res := by
  obtain ⟨type, hType, hMeaning⟩ := Option.bind_eq_some_iff.mp hSize
  obtain ⟨field, hField, rfl⟩ := Option.map_eq_some_iff.mp hType
  rw [field?, hSeen.shader] at hField
  split at hMeaning
  · rename_i res hResource
    exact ⟨res, prog.find?_fieldInfos cfg dispatch hQuiet hField hResource⟩
  · cases hMeaning

theorem Accepted.definesSize {out : Transpiled} (hAccepted : Accepted cfg out run) {size : SizeRead}
    (hSize : size ∈ run.last.gathered.sizes) {owner : String} (hOf : run.program.HasSize owner path size) :
    DefinesSize run.program out.model (run.program.loweredOf cfg run.entry) out.bindings owner path size := by
  have hListed : size ∈ (run.program.loweredOf cfg run.entry).sizes := by
    rw [hAccepted.last_eq] at hSize
    exact mem_mergeSort.mpr hSize
  constructor
  · rw [OutUnit.sizeHeader_mem_iff, hOf.field]
    exact and_iff_right hListed
  · intro res hField
    rw [← hOf.field] at hField
    have hDefinition : OutUnit.sizeDefinition run.program size (identifier size.field) res <:+:
        OutUnit.lines run.program out.model (run.program.loweredOf cfg run.entry) out.bindings :=
      OutUnit.sizeDefinition_infix hListed hField
    rw [hOf.field, Reserved.identifier_identifier] at hDefinition
    exact ⟨hDefinition, OutUnit.sizeBody_queries _ _ _⟩
  · intro hOwner hPlain
    obtain ⟨property, hProperty⟩ := hOf.property
    have hQuiet := hAccepted.modelQuiet
    rw [ShaderModel.report_build] at hQuiet
    simp only [Report.hasErrors_append, and_assoc] at hQuiet
    rw [hPlain, hAccepted.model]
    rw [hOwner] at hProperty
    exact Program.resource_of_sizeOf? hAccepted.seen hQuiet.2.1 hProperty

/-- Calls of the functions that return sizes in the output of an accepted shader. Every call of a bare name without
arguments is a call of such a function for a resource, or a call of the source, or of a type; and the function is
defined exactly if the shader has a resource under the name that the output gives to the field. -/
theorem transpile_sizes_defined_iff (source name : String) (config : Config) (out : Transpiled)
    (hOk : transpile source name config = .ok out) :
    ∃ run lowered, loweringRun? source name config = some run ∧
      lowered = run.program.loweredOf config run.entry ∧
      out.hlsl = OutUnit.render run.program out.model lowered out.bindings ∧
      CallsMethod run (run.program.kind == .pixel) run.entry lowered.entry ∧
      List.Forall₂ (fun source => CallsMethod run false source.2) run.functions lowered.helpers ∧
      (∀ decl ∈ lowered.statics, CallsStatic run decl) ∧
      ∀ size ∈ run.last.gathered.sizes, ∀ owner path, run.program.HasSize owner path size →
        DefinesSize run.program out.model lowered out.bindings owner path size := by
  obtain ⟨run, hRun, hAccepted⟩ := accepted_of_ok hOk
  obtain ⟨⟨written, hWritten, hEntry⟩, hHelpers, hStatics⟩ := hAccepted.scopes
  refine ⟨run, _, hRun, rfl, hAccepted.hlsl, ?_, ?_, ?_, fun size hSize owner path => hAccepted.definesSize hSize⟩
  · rw [hEntry]
    exact hWritten.callsEntry (LoweringRun.params_entry hRun) _ _
  · exact hHelpers.imp fun _ _ hFunction => hFunction.callsMethod
  · exact fun decl hDecl => (hStatics decl hDecl).callsStatic

/-- A shader that reads the sizes of two resources, one of which has a name that is marked in the output. -/
def measuredShader : String :=
  "struct S : IComputeShader \x7b ReadWriteBuffer<float> b; ReadWriteBuffer<float> buffer; void Execute() \x7b " ++
    "b[0] = b.Length + buffer.Length; \x7d \x7d"

/-- The only line inside the guard of an entry point. -/
def OutFunction.guardedLine? (function : OutFunction) : Option String :=
  match function.body with
  | [.ifElse _ (.block [.line text]) none] => some text
  | _ => none

set_option maxRecDepth 100000 in
theorem sizes_measuredShader :
    (transpile measuredShader "S" .unspecified).toOption.map
        (fun out => ((out.model.field? "__reserved__buffer").bind resource?).isNone) = some true ∧
      (loweringRun? measuredShader "S" .unspecified).map (fun run => (run.program.shader.name,
        run.last.gathered.sizes, run.program.sizeOf? "S" "b" "Length", run.program.sizeOf? "S" "buffer" "Length",
        (run.program.loweredOf .unspecified run.entry).entry.guardedLine?)) =
        some ("S", [⟨"b", .length⟩, ⟨"__reserved__buffer", .length⟩], some .length, some .length,
          some "b[0] = __b__get_Length() + ____reserved__buffer__get_Length();") := by decide +kernel

/-- Both functions are called, but only the first is defined. -/
theorem transpile_sizes_defined_iff_measuredShader :
    ∃ (out : Transpiled) (run : LoweringRun) (lowered : LoweredUnit),
      transpile measuredShader "S" .unspecified = .ok out ∧
      out.hlsl = OutUnit.render run.program out.model lowered out.bindings ∧
      lowered.entry.guardedLine? = some "b[0] = __b__get_Length() + ____reserved__buffer__get_Length();" ∧
      "int __b__get_Length()" ∈ lowered.sizes.flatMap (OutUnit.sizeLines run.program out.model) ∧
      "int ____reserved__buffer__get_Length()" ∉ lowered.sizes.flatMap (OutUnit.sizeLines run.program out.model) := by
  obtain ⟨hModel, hRead⟩ := sizes_measuredShader
  cases hOut : transpile measuredShader "S" .unspecified with
  | error =>
    rw [hOut] at hModel
    cases hModel
  | ok out =>
    obtain ⟨run, lowered, hRun, hLowered, hHlsl, -, -, -, hDefined⟩ :=
      transpile_sizes_defined_iff measuredShader "S" .unspecified out hOut
    rw [hOut] at hModel
    rw [hRun, Option.map_some, Option.some.injEq] at hRead
    simp only [Prod.mk.injEq] at hRead
    obtain ⟨hShader, hSizes, hPlain, hMarked, hLine⟩ := hRead
    have hPlainSize := hDefined ⟨"b", .length⟩ (hSizes ▸ mem_cons_self) "S" "b" ⟨by decide, "Length", hPlain⟩
    have hMarkedSize := hDefined ⟨"__reserved__buffer", .length⟩ (hSizes ▸ mem_cons_of_mem _ mem_cons_self)
      "S" "buffer" ⟨by decide, "Length", hMarked⟩
    have hHidden : (out.model.field? "__reserved__buffer").bind FieldInfo.resource? = none :=
      Option.isNone_iff_eq_none.mp (Option.some.inj hModel)
    refine ⟨out, run, lowered, rfl, hHlsl, hLowered ▸ hLine, ?_, ?_⟩
    · exact hPlainSize.defined.mpr (hPlainSize.own hShader.symm (by decide))
    · intro hHeader
      obtain ⟨resource, hResource⟩ := hMarkedSize.defined.mp hHeader
      have hName : Reserved.identifier "buffer" = "__reserved__buffer" := by decide
      rw [hName, hHidden] at hResource
      cases hResource

end Shaderlift
