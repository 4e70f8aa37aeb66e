import Shaderlift.Proofs.Accepted.Scoping

/-!
# The types that an accepted shader spells

Types are written by what they mean: scalars, vectors and matrices by their names in the output language, structs by
their own names, and every struct that is named is declared. A type that means no value is written as it stands in
the source. The rules keep such types out of local variables and casts where they look, up to aliases of shapes that
no shader can have. They do not look at the types of parameters and of returned values, nor at the casts in what is
pulled in from elsewhere.
-/

namespace Shaderlift

open List

open Lower

/-! ## Structs that are declared -/

namespace StructOrder

/-- An order that comes after another: what has been met or written stays so, and what is met in between is
written. -/
structure After (before after : Order) : Prop where
  seen : ∀ name ∈ before.seen, name ∈ after.seen
  written : ∀ name ∈ before.written, name ∈ after.written
  closed : ∀ name ∈ after.seen, name ∈ before.seen ∨ name ∈ after.written

theorem After.refl (order : Order) : After order order :=
  ⟨fun _ => id, fun _ => id, fun _ => .inl⟩

theorem After.trans {first second third : Order} (hFirst : After first second) (hSecond : After second third) :
    After first third where
  seen name hName := hSecond.seen name (hFirst.seen name hName)
  written name hName := hSecond.written name (hFirst.written name hName)
  closed name hName := by
    rcases hSecond.closed name hName with hSeen | hWritten
    · exact (hFirst.closed name hSeen).imp_right (hSecond.written name)
    · exact .inr hWritten

theorem after_foldl {step : Order → String → Order} (hStep : ∀ order name, After order (step order name))
    (names : List String) (order : Order) : After order (names.foldl step order) := by
  induction names generalizing order with
  | nil => exact .refl order
  | cons name rest ih => exact (hStep order name).trans (ih (step order name))

theorem after_visit (prog : Program) (depth : Nat) (order : Order) (name : String) :
    After order (visit prog depth order name) := by
  induction depth generalizing order name with
  | zero => exact .refl order
  | succ depth ih =>
    unfold visit
    split
    · exact .refl order
    · dsimp only
      obtain ⟨hSeen, hWritten, hClosed⟩ := after_foldl ih
        (((prog.structFields? name).getD []).filterMap fun field => field.type.struct?)
        { order with seen := name :: order.seen }
      refine ⟨(forall_mem_cons.mp hSeen).2, fun other hOther => mem_append_left _ (hWritten other hOther),
        fun other hOther => ?_⟩
      rcases hClosed other hOther with hStart | hDone
      · rcases mem_cons.mp hStart with rfl | hBefore
        · exact .inr (mem_append_right _ mem_cons_self)
        · exact .inl hBefore
      · exact .inr (mem_append_left _ hDone)

theorem mem_seen_visit (prog : Program) (depth : Nat) (order : Order) (name : String) :
    name ∈ (visit prog (depth + 1) order name).seen := by
  unfold visit
  split
  · rename_i hContains
    exact contains_iff_mem.mp hContains
  · exact (after_foldl (after_visit prog depth) _ _).seen name mem_cons_self

theorem mem_build (prog : Program) (model : ShaderModel) {structs : List String} {name : String}
    (hName : name ∈ structs) : name ∈ build prog model structs := by
  have hAll : ∀ (roots : List String) (order : Order), name ∈ roots →
      name ∈ (roots.foldl (visit prog (prog.index.entries.length + 1)) order).seen := by
    intro roots
    induction roots with
    | nil => exact fun _ hNone => by cases hNone
    | cons root rest ih =>
      intro order hRoots
      rcases mem_cons.mp hRoots with rfl | hRest
      · exact (after_foldl (after_visit prog _) rest _).seen name (mem_seen_visit prog _ order name)
      · exact ih _ hRest
  have hRoot : name ∈ orderedNames (structs ++ model.fields.filterMap fun field => field.elementType.struct?).eraseDups := by
    rw [orderedNames, mem_mergeSort, mem_eraseDups]
    exact mem_append_left _ hName
  rcases (after_foldl (after_visit prog _) _ ⟨[], []⟩).closed name (hAll _ ⟨[], []⟩ hRoot) with hNone | hWritten
  · cases hNone
  · exact hWritten

end StructOrder

/-! ## Names of types -/

/-- A text is the name of a type that exists in an output that declares some structs. -/
inductive SpellsType (declared : List String) : String → Prop
  | void : SpellsType declared "void"
  | scalar (kind : Scalar) : SpellsType declared kind.spelling
  | vector (kind : Scalar) {width : Nat} : 1 ≤ width → width ≤ 4 →
      SpellsType declared (ValueType.vector kind width).spelling
  | matrix (kind : Scalar) {rows cols : Nat} : 1 ≤ rows → rows ≤ 4 → 1 ≤ cols → cols ≤ 4 →
      SpellsType declared (ValueType.matrix kind rows cols).spelling
  | struct {name : String} : name ∈ declared → SpellsType declared name

theorem ValueType.spellsType {declared : List String} {type : ValueType} (hProper : type.Proper)
    (hStruct : ∀ name, type.struct? = some name → name ∈ declared) : SpellsType declared type.spelling := by
  induction type with
  | void => exact .void
  | scalar kind => exact .scalar kind
  | vector kind width => exact .vector kind hProper.1 hProper.2
  | matrix kind rows cols => exact .matrix kind hProper.1.1 hProper.1.2 hProper.2.1 hProper.2.2
  | struct name => exact .struct (hStruct name rfl)
  | array element _ ih => exact ih hProper hStruct

/-- A text is what is written for a type of the source: the name of the value that the type means or, if it means
none, the type as it is written. -/
def SpellsWritten (program : Program) (declared : List String) (written : TypeExpr) (text : String) : Prop :=
  (∃ type, program.valueType? written = some type ∧ text = type.spelling ∧ SpellsType declared text) ∨
    program.valueType? written = none ∧ text = written.render

/-- What a call of the output calls as far as types go: a type that exists, the coordinates of a texture, or a
function. -/
inductive SpellsCall (run : LoweringRun) (declared : List String) : OutExpr → List OutExpr → Prop
  | construct {text : String} {args : List OutExpr} : SpellsType declared text →
      SpellsCall run declared (.typeName text) args
  | components {text : String} {args : List OutExpr} : SpellsType declared text →
      SpellsCall run declared (.ident text) args
  | coordinates {args : List OutExpr} : 1 < args.length →
      SpellsCall run declared (.ident ("int" ++ toString args.length)) args
  | bits {pattern : String} : SpellsCall run declared (.ident "asfloat") [.int pattern]
  | size {size : SizeRead} : SpellsCall run declared (.ident size.function) []
  | source {call : MetCall} {args : List OutExpr} : call ∈ run.last.met →
      SpellsCall run declared (call.callee.written run.program) args

/-- The type that an expression of the output casts to or constructs exists, or a cast is written as in the source.
The latter happens only to aliases of shapes that no shader can have, and to casts that the rules do not look at. -/
def SpellsPart (run : LoweringRun) (declared : List String) : OutExpr → Prop
  | .cast type _ => SpellsType declared type ∨
      ∃ written, run.program.valueType? written = none ∧ type = written.render ∧
        ((∃ shape, run.program.meaning written = .forbidden shape) ∨ run.StrayCast written)
  | .call callee args => SpellsCall run declared callee args
  | _ => True

/-- An expression of the output is what an expression of the source is lowered to, and the types that it casts to or
constructs exist. -/
structure SpellsLike (run : LoweringRun) (declared : List String) (place : Scoped Expr) (out : Scoped OutExpr) :
    Prop where
  value : Yields run.program place.value out.value
  parts : ∀ part ∈ out.value.parts, SpellsPart run declared part

/-- The type of a declaration of the output exists, or it is written as in the source. The latter happens only to
declarations of no names and to aliases of shapes that no shader can have. -/
def SpellsLocal (program : Program) (declared : List String) (decl : LocalDecl) (text : String) : Prop :=
  ∃ spelled, text = (if decl.isConst then "const " else "") ++ spelled ∧
    (SpellsType declared spelled ∨ spelled = decl.type.render ∧
      (decl.declarators = [] ∨ ∃ shape, program.meaning decl.type = .forbidden shape))

/-- The type of a parameter of the output is written for that of a parameter of the source. -/
def SpellsParam (program : Program) (declared : List String) (param : Param) (code : ParamCode) : Prop :=
  ∃ text, code.type = passingText param.passing ++ text ∧ SpellsWritten program declared param.type text

/-- The types inside a function of the output are written for those inside a method. -/
structure SpellsBody (run : LoweringRun) (declared : List String) (method : MethodDecl) (code : FunctionCode) :
    Prop where
  places : List.Forall₂ (SpellsLike run declared) method.places code.places
  locals : List.Forall₂ (SpellsLocal run.program declared) (MethodBody.localDecls? method.body)
    (Code.localTypesOfAll code.body)

/-- The types in the signature of a function of the output are written for those of a method. -/
structure SpellsSignature (run : LoweringRun) (declared : List String) (method : MethodDecl) (code : FunctionCode)
    (function : OutFunction) : Prop where
  returnType : SpellsWritten run.program declared method.header.returnType function.returnType
  params : List.Forall₂ (SpellsParam run.program declared) method.params code.params

/-- A function of the output is written from code with types that are written for those of a method. -/
def SpellsMethod (run : LoweringRun) (declared : List String) (method : MethodDecl) (function : OutFunction) : Prop :=
  ∃ code : FunctionCode, code.Prints false function ∧ SpellsBody run declared method code ∧
    SpellsSignature run declared method code function

/-- The entry point of the output is written from code with types that are written for those of the entry method.
That of a dispatched shader takes coordinates and returns nothing. -/
def SpellsEntry (run : LoweringRun) (declared : List String) (ids : SpecialIds) (function : OutFunction) : Prop :=
  ∃ code : FunctionCode, code.Prints (run.program.kind == .pixel) function ∧
    SpellsBody run declared run.entry code ∧
    if run.program.kind.isDispatched then function.returnType = "void" ∧ code.params = coordinateParams ids
    else SpellsSignature run declared run.entry code function

/-- The type of a static value exists, and so do the types in its initial value, which is what that of a field is
lowered to. -/
def SpellsStatic (run : LoweringRun) (declared : List String) (decl : StaticDecl) : Prop :=
  SpellsType declared decl.type.spelling ∧ ∃ owner field, decl.name = staticName run.program owner field ∧
    ∀ text, decl.init = some text → ∃ value out, fieldInit? run.program owner field = some value ∧
      YieldsOn run.program value out ∧ text = out.text ∧ ∀ part ∈ out.parts, SpellsPart run declared part

/-! ## Accounts as spellings -/

section Spelling

variable {run : LoweringRun} {declared : List String}
  (hDeclared : ∀ name ∈ run.last.gathered.structs, name ∈ declared)

include hDeclared

theorem Lower.Ending.Knows.spellsType {type : ValueType} (hKnows : (run.ending run.Casts).Knows type) :
    SpellsType declared type.spelling :=
  ValueType.spellsType hKnows.1 fun name hName => hDeclared name (hKnows.2 name hName)

variable {text : String}

theorem Lower.Ending.Spells.spellsType (hSpells : (run.ending run.Casts).Spells text) : SpellsType declared text := by
  obtain ⟨type, hKnows, rfl⟩ := hSpells
  exact hKnows.spellsType hDeclared

theorem Lower.Ending.SpellsWritten.spellsWritten {written : TypeExpr}
    (hWritten : (run.ending run.Casts).SpellsWritten written text) :
    Shaderlift.SpellsWritten run.program declared written text := by
  rcases hWritten with ⟨type, hType, hKnows, rfl⟩ | hNone
  · exact .inl ⟨type, hType, rfl, hKnows.spellsType hDeclared⟩
  · exact .inr hNone

theorem Lower.Ending.Calls.spellsCall {callee : OutExpr} {args : List OutExpr}
    (hCalls : (run.ending run.Casts).Calls callee args) : SpellsCall run declared callee args := by
  cases hCalls with
  | construct hKnows => exact .construct (hKnows.spellsType hDeclared)
  | components hLow hHigh => exact .components (.vector _ hLow hHigh)
  | coordinates hTwo => exact .coordinates hTwo
  | bits => exact .bits
  | size => exact .size
  | source hMet => exact .source hMet

theorem Lower.Ending.Explains.spellsPart {part : OutExpr} (hPart : (run.ending run.Casts).Explains part) :
    SpellsPart run declared part := by
  cases part with
  | cast type operand =>
    rcases hPart with hSpells | ⟨written, hCasts, hNone, hText⟩
    · exact .inl (hSpells.spellsType hDeclared)
    · exact .inr ⟨written, hNone, hText, hCasts.imp_left fun hBears => hBears hNone⟩
  | call callee args => exact Calls.spellsCall hDeclared hPart
  | _ => trivial

theorem Lower.Ending.Accounts.spellsParts {out : OutExpr} (hOut : (run.ending run.Casts).Accounts out) :
    ∀ part ∈ out.parts, SpellsPart run declared part :=
  fun part hPart => Explains.spellsPart hDeclared (hOut part hPart)

theorem Lower.Ending.Declares.spellsLocal {decl : LocalDecl}
    (hDecl : (run.ending run.Casts).Declares decl text) : SpellsLocal run.program declared decl text := by
  obtain ⟨spelled, hText, hSpelled⟩ := hDecl
  exact ⟨spelled, hText, hSpelled.imp_left fun hSpells => hSpells.spellsType hDeclared⟩

theorem Lower.Ending.Takes.spellsParam {param : Param} {code : ParamCode}
    (hParam : (run.ending run.Casts).Takes param code) : SpellsParam run.program declared param code := by
  obtain ⟨text, hText, hWritten⟩ := hParam.type
  exact ⟨text, hText, hWritten.spellsWritten hDeclared⟩

theorem Lower.Corresponds.spellsLike {place : Scoped Expr} {out : Scoped OutExpr}
    (hPlace : Corresponds (run.ending run.Casts) place out) : SpellsLike run declared place out :=
  ⟨hPlace.value.yields, hPlace.value.accounts.spellsParts hDeclared⟩

theorem Lower.StandsFor.spellsMethod {src : String × MethodDecl} {fn : OutFunction}
    (hFn : StandsFor (run.ending run.Casts) false src fn) : SpellsMethod run declared src.2 fn := by
  obtain ⟨code, hMethod, hPrints, hPlaces⟩ := hFn.methodCode fun _ _ hPlace => hPlace.spellsLike hDeclared
  refine ⟨code, hPrints, ⟨hPlaces, ?_⟩, ⟨hFn.returnType.spellsWritten hDeclared, ?_⟩⟩
  · exact hMethod.body.types.imp fun _ _ hDecl => hDecl.spellsLocal hDeclared
  · exact hMethod.params.imp fun _ _ hParam => hParam.spellsParam hDeclared

theorem Lower.StandsFor.spellsEntry {name : String} {written : OutFunction} (hParams : run.entry.params = [])
    {model : ShaderModel} (hKind : model.kind = run.program.kind) (ids : SpecialIds)
    (hWritten : StandsFor (run.ending run.Casts) (run.program.kind == .pixel) (name, run.entry) written) :
    SpellsEntry run declared ids (entryPointOf model ids written) := by
  have hLike : ∀ place out, Corresponds (run.ending run.Casts) place out →
      SpellsLike run declared place (out.under (model.kind.coordinates ids)) :=
    fun _ _ hPlace => ⟨(hPlace.spellsLike hDeclared).value, (hPlace.spellsLike hDeclared).parts⟩
  obtain ⟨code, hMethod, hPrints, hPlaces⟩ := hWritten.entryCode hParams model ids hLike
  have hTypes := hMethod.body.types.imp fun _ _ hDecl => hDecl.spellsLocal hDeclared
  refine ⟨code.entryPointOf model.kind ids, hPrints, ⟨hPlaces, ?_⟩, ?_⟩
  · unfold FunctionCode.entryPointOf
    split
    · exact hTypes
    · exact hTypes
  · rw [← hKind]
    unfold FunctionCode.entryPointOf entryPointOf
    split
    · exact ⟨rfl, rfl⟩
    · refine ⟨hWritten.returnType.spellsWritten hDeclared, ?_⟩
      exact hMethod.params.imp fun _ _ hParam => hParam.spellsParam hDeclared

theorem Lower.Ending.Lists.spellsStatic {decl : StaticDecl} (hDecl : (run.ending run.Casts).Lists decl) :
    SpellsStatic run declared decl := by
  obtain ⟨owner, field, hName, hInit⟩ := hDecl.source
  refine ⟨hDecl.known.spellsType hDeclared, owner, field, hName, fun text hText => ?_⟩
  obtain ⟨val, out, hVal, hYields, hAccounts, hOut⟩ := hInit text hText
  exact ⟨val, out, hVal, hYields, hOut, hAccounts.spellsParts hDeclared⟩

end Spelling

/-- The types in the output of an accepted shader. Those of parameters and of returned values are the names of types
that exist if they mean values in the source, and otherwise they are written as they stand there. Those of static
values exist; those of local variables, casts and constructed values exist, up to aliases of shapes that no shader
can have, casts that the rules do not look at, and textures that are read at more than four coordinates. -/
theorem transpile_spells (source name : String) (config : Config) (out : Transpiled)
    (hOk : transpile source name config = .ok out) :
    ∃ run lowered, loweringRun? source name config = some run ∧
      lowered = run.program.loweredOf config run.entry ∧
      out.hlsl = OutUnit.render run.program out.model lowered out.bindings ∧
      SpellsEntry run (StructOrder.build run.program out.model lowered.structs) out.ids lowered.entry ∧
      List.Forall₂
        (fun source => SpellsMethod run (StructOrder.build run.program out.model lowered.structs) source.2)
        run.functions lowered.helpers ∧
      ∀ decl ∈ lowered.statics, SpellsStatic run (StructOrder.build run.program out.model lowered.structs) decl := by
  obtain ⟨run, hRun, hAccepted⟩ := accepted_of_ok hOk
  obtain ⟨⟨written, hWritten, hEntry⟩, hHelpers, hStatics⟩ := hAccepted.scopes
  have hDeclared : ∀ name ∈ run.last.gathered.structs, name ∈
      StructOrder.build run.program out.model (run.program.loweredOf config run.entry).structs := by
    intro name hName
    rw [hAccepted.last_eq] at hName
    exact StructOrder.mem_build _ _ (mem_mergeSort.mpr hName)
  refine ⟨run, _, hRun, rfl, hAccepted.hlsl, ?_, ?_, ?_⟩
  · rw [hEntry, hAccepted.ids]
    exact hWritten.spellsEntry hDeclared (LoweringRun.params_entry hRun) rfl _
  · exact hHelpers.imp fun _ _ hFunction => hFunction.spellsMethod hDeclared
  · exact fun decl hDecl => (hStatics decl hDecl).spellsStatic hDeclared

/-- A shader with a method that takes a value of a type that the output language does not have. -/
def longShader : String :=
  "struct S : IComputeShader \x7b ReadWriteBuffer<float> b; static float F(long x) => 1; " ++
    "void Execute() \x7b b[0] = F(1); \x7d \x7d"

/-- What is known of the parameters of a method: whether their types mean values, and how they are written. -/
def MethodDecl.outlineParams (method : MethodDecl) (program : Program) : List (Bool × String) :=
  method.params.map fun param =>
    ((program.valueType? param.type).isSome, passingText param.passing ++ param.type.render)

set_option maxRecDepth 100000 in
theorem signatures_longShader :
    (transpile longShader "S" .unspecified).toBool = true ∧
      (loweringRun? longShader "S" .unspecified).map
          (fun run => run.functions.map fun src => src.2.outlineParams run.program) = some [[(false, "long")]] ∧
      (loweringRun? longShader "S" .unspecified).map
          (fun run => run.functions.map fun src => run.program.valueType? src.2.header.returnType) =
        some [some .float] := by decide +kernel

/-- The type of the parameter is written as in the source, that of the returned value is known. -/
theorem transpile_spells_longShader :
    ∃ (out : Transpiled) (run : LoweringRun) (lowered : LoweredUnit) (function : OutFunction) (code : FunctionCode),
      transpile longShader "S" .unspecified = .ok out ∧
      out.hlsl = OutUnit.render run.program out.model lowered out.bindings ∧
      lowered.helpers = [function] ∧ code.Prints false function ∧
      code.params.map ParamCode.type = ["long"] ∧ function.returnType = "float" := by
  obtain ⟨hOk, hOutlines, hReturns⟩ := signatures_longShader
  obtain ⟨out, hOut⟩ := exists_of_toBool hOk
  obtain ⟨run, lowered, hRun, -, hHlsl, -, hHelpers, -⟩ := transpile_spells longShader "S" .unspecified out hOut
  rw [hRun, Option.map_some, Option.some.injEq] at hOutlines hReturns
  obtain ⟨source, hFunctions, hOutline⟩ := map_eq_singleton_iff.mp hOutlines
  rw [hFunctions, map_singleton, singleton_inj] at hReturns
  rw [hFunctions, forall₂_cons_left_iff] at hHelpers
  obtain ⟨function, others, ⟨code, hPrints, -, hCode⟩, hNone, hList⟩ := hHelpers
  cases hNone
  obtain ⟨param, hParam, hKnown⟩ := map_eq_singleton_iff.mp hOutline
  obtain ⟨hMeans, hText⟩ := Prod.mk.inj hKnown
  have hTypes := hCode.params
  rw [hParam, forall₂_cons_left_iff] at hTypes
  obtain ⟨first, rest, ⟨text, hFirst, hWritten⟩, hNone, hCodes⟩ := hTypes
  cases hNone
  refine ⟨out, run, lowered, function, code, hOut, hHlsl, hList, hPrints, ?_, ?_⟩
  · rcases hWritten with ⟨type, hType, -⟩ | ⟨-, hRaw⟩
    · rw [hType] at hMeans
      cases hMeans
    · rw [hCodes, map_singleton, hFirst, hRaw, hText]
  · rcases hCode.returnType with ⟨type, hType, hSpelled, -⟩ | ⟨hNone, -⟩
    · rw [hReturns] at hType
      cases hType
      exact hSpelled
    · rw [hReturns] at hNone
      cases hNone

end Shaderlift
