import Shaderlift.Call.Tracking
import Shaderlift.Proofs.Program.Containment

/-!
# Types have one to four components on a side

The built-in types that can be written have dimensions from one to four, structs go by their simple names, and telling
the type of an expression keeps to this: components are selected at most four at a time, and operands are combined to
the shape of one of them. So every type that is known of a variable or an expression has a name in the output language, as
long as this holds of the types under which the variables in scope are declared.
-/

namespace Shaderlift

open List

namespace ValueType

def Proper : ValueType → Prop
  | .vector _ width => 1 ≤ width ∧ width ≤ 4
  | .matrix _ rows cols => (1 ≤ rows ∧ rows ≤ 4) ∧ 1 ≤ cols ∧ cols ≤ 4
  | .array element _ => element.Proper
  | .struct name => Text.lastSegment name = name
  | .void | .scalar _ => True

def Proper? (type : Option ValueType) : Prop := ∀ known, type = some known → known.Proper

@[simp] theorem proper?_none : Proper? none := fun _ hKnown => by cases hKnown

variable {type a b : ValueType} {α : Type} {start : Option α}

@[simp] theorem proper?_some : Proper? (some type) ↔ type.Proper :=
  ⟨fun hType => hType type rfl, fun hType _ hKnown => Option.some.inj hKnown ▸ hType⟩

theorem Proper?.bind {next : α → Option ValueType} (hNext : ∀ val, start = some val → Proper? (next val)) :
    Proper? (start.bind next) := by
  cases start with
  | none => exact proper?_none
  | some val => exact hNext val rfl

theorem Proper?.map {result : α → ValueType} (hResult : ∀ val, start = some val → (result val).Proper) :
    Proper? (start.map result) := by
  cases start with
  | none => exact proper?_none
  | some val => exact proper?_some.mpr (hResult val rfl)

theorem Proper.lastSegment_eq {name : String} (hType : type.Proper) (hStruct : type.struct? = some name) :
    Text.lastSegment name = name := by
  induction type with
  | void | scalar | vector | matrix => cases hStruct
  | struct other =>
    cases hStruct
    exact hType
  | array element length ih => exact ih hType hStruct

theorem dimension?_bounds {c : Char} {n : Nat} (hDimension : dimension? c = some n) : 1 ≤ n ∧ n ≤ 4 := by
  unfold dimension? at hDimension
  split at hDimension
  next hRange =>
    simp only [Bool.and_eq_true, decide_eq_true_eq, Char.le_def, UInt32.le_iff_toNat_le] at hRange
    obtain rfl := Option.some.inj hDimension
    have hLow : 49 ≤ c.toNat := hRange.1
    have hHigh : c.toNat ≤ 52 := hRange.2
    show 1 ≤ c.toNat - 48 ∧ c.toNat - 48 ≤ 4
    omega
  · cases hDimension

theorem proper_shaped? (kind : Scalar) (text : List Char) : Proper? (shaped? kind text) := by
  unfold shaped?
  split
  · exact .map fun _ hWidth => dimension?_bounds hWidth
  · refine .bind fun rows hRows => .bind fun cols hCols => ?_
    exact proper?_some.mpr ⟨dimension?_bounds hRows, dimension?_bounds hCols⟩
  · exact proper?_none

theorem proper_ofName? (name : String) : Proper? (ofName? name) := by
  intro type hType
  unfold ofName? at hType
  split at hType
  next found hFound =>
    obtain rfl := Option.some.inj hType
    have hPlain : ∀ entry ∈ plainNames, entry.2.Proper := by
      simp only [plainNames, forall_mem_cons]
      simp [Proper, ValueType.bool, ValueType.int, ValueType.uint, ValueType.float]
    exact hPlain _ (mem_of_lookup hFound)
  · obtain ⟨⟨start, kind⟩, -, hShape⟩ := exists_of_findSome?_eq_some hType
    obtain ⟨rest, -, hShape⟩ := Option.bind_eq_some_iff.mp hShape
    exact proper_shaped? kind rest type hShape

/-! ## Operations on types -/

theorem Proper.withScalar (hType : type.Proper) (kind : Scalar) : (type.withScalar kind).Proper := by
  cases type with
  | vector | matrix | array => exact hType
  | _ => trivial

theorem Proper.combine (hLeft : a.Proper) (hRight : b.Proper) : (combine a b).Proper := by
  unfold ValueType.combine
  split
  · trivial
  · exact hLeft
  · exact hRight
  · simp only [Proper] at hLeft hRight ⊢
    omega
  · exact hLeft
  · exact hRight
  · exact hLeft

theorem Proper?.combine {a b : Option ValueType} (hLeft : Proper? a) (hRight : Proper? b) : Proper? (combine? a b) := by
  unfold ValueType.combine?
  split
  · exact proper?_some.mpr ((proper?_some.mp hLeft).combine (proper?_some.mp hRight))
  · exact hLeft
  · exact hRight

theorem Proper.product (hLeft : a.Proper) (hRight : b.Proper) : (product a b).Proper := by
  unfold ValueType.product
  split
  · exact hLeft.1
  · exact hRight.2
  · exact ⟨hLeft.1, hRight.2⟩
  · exact hLeft.combine hRight

theorem Proper.transposed (hType : type.Proper) : type.transposed.Proper := by
  cases type with
  | matrix => exact ⟨hType.2, hType.1⟩
  | _ => exact hType

theorem proper_ofComponents (kind : Scalar) {count : Nat} (hLow : 1 ≤ count) (hHigh : count ≤ 4) :
    (ofComponents kind count).Proper := by
  unfold ofComponents
  split
  · trivial
  · exact ⟨hLow, hHigh⟩

end ValueType

/-- A swizzle selects one to four components. -/
theorem Swizzle.length_ofName? {name swizzle : String} {width : Nat}
    (hName : Swizzle.ofName? name width = some swizzle) : 1 ≤ swizzle.length ∧ swizzle.length ≤ 4 := by
  unfold Swizzle.ofName? at hName
  dsimp only at hName
  split at hName
  · cases hName
  next hLength =>
    split at hName
    · obtain rfl := Option.some.inj hName
      simp only [Bool.or_eq_true, List.isEmpty_iff, decide_eq_true_eq, not_or] at hLength
      rw [String.length_ofList]
      have hPos := length_pos_iff.mpr hLength.1
      omega
    · cases hName

open ValueType

/-! ## What is written and declared -/

def Meaning.Proper : Meaning → Prop
  | .value type => type.Proper
  | .resource held => held.element.Proper
  | .managed _ | .unsupported _ | .forbidden _ => True

namespace TypeExpr

theorem proper_foreign (table : TypeTable) (type : TypeExpr) (simple : String) :
    (foreign table type simple).Proper := by
  unfold foreign
  split <;> trivial

theorem proper_meaningWith (table : TypeTable) {follow : Nat → TypeExpr → Meaning}
    (hFollow : ∀ depth target, (follow depth target).Proper) (depth : Nat) (type : TypeExpr) :
    (meaningWith table follow depth type).Proper := by
  fun_induction meaningWith table follow depth type with
  | case1 | case2 | case3 | case4 | case5 | case6 => trivial
  | case7 depth span name =>
    unfold wordMeaning
    dsimp only
    split
    · split
      · trivial
      · exact hFollow _ _
    · split
      next val hName => exact proper_ofName? _ val hName
      · exact Text.lastSegment_lastSegment name
      · trivial
      · exact proper_foreign _ _ _
  | case8 depth span name first rest ih =>
    unfold appliedMeaning
    dsimp only
    split
    next element hElement =>
      rw [hElement] at ih
      exact ih
    · trivial
    · exact proper_foreign _ _ _

theorem proper_meaning (table : TypeTable) (type : TypeExpr) : (meaning table type).Proper := by
  have hOn : ∀ fuel depth type, (meaningOn table fuel depth type).Proper := by
    intro fuel
    induction fuel with
    | zero => exact fun _ _ => trivial
    | succ fuel ih => exact fun depth type => proper_meaningWith table ih depth type
  exact hOn _ _ type

end TypeExpr

theorem Meaning.Proper.value? {meaning : Meaning} (hMeaning : meaning.Proper) : Proper? meaning.value? := by
  cases meaning with
  | value => exact proper?_some.mpr hMeaning
  | _ => exact proper?_none

theorem TypeDecl.proper_shaderKind {decl : TypeDecl} {table : TypeTable} {kind : ShaderKind}
    {pixelType : Option ValueType} (hKind : decl.shaderKind table = .ok (kind, pixelType)) : Proper? pixelType := by
  have hFound : (kind, pixelType) ∈ decl.shaderInterfaces table := by
    unfold shaderKind at hKind
    split at hKind
    · cases hKind
    · rename_i found hSingle
      cases hKind
      rw [hSingle]
      exact mem_singleton_self _
    · cases hKind
  obtain ⟨base, -, hBase⟩ := mem_filterMap.mp hFound
  split at hBase
  · cases hBase
    exact proper?_none
  · cases hBase
    exact (TypeExpr.proper_meaning table _).value?
  · cases hBase
    exact proper?_none
  · cases hBase

theorem Program.proper_pixelType {unit : SourceUnit} {decl : TypeDecl} {prog : Program} {report : Report}
    (hBuild : build unit decl = (some prog, report)) : Proper? prog.pixelType := by
  unfold build at hBuild
  dsimp only at hBuild
  split at hBuild
  · cases hBuild
  · rename_i hKind
    cases hBuild
    exact TypeDecl.proper_shaderKind hKind

namespace Program

variable (prog : Program)

theorem proper_meaning (type : TypeExpr) : (prog.meaning type).Proper := type.proper_meaning prog.table

theorem proper_valueType? (type : TypeExpr) : Proper? (prog.valueType? type) := (prog.proper_meaning type).value?

theorem proper_structFields? (name : String) : ∀ known ∈ (prog.structFields? name).getD [], known.type.Proper := by
  cases hFields : prog.structFields? name with
  | none => exact fun _ hKnown => by cases hKnown
  | some fields =>
    obtain ⟨decl, -, hResolved⟩ := Option.bind_eq_some_iff.mp hFields
    intro known hKnown
    obtain ⟨field, -, hType⟩ := exists_decl_of_mem_resolveFields hResolved hKnown
    exact prog.proper_valueType? field.type known.type hType

theorem proper_memberType? {type : ValueType} (hType : type.Proper) (name : String) :
    Proper? (prog.memberType? type name) := by
  unfold memberType?
  split
  · exact .map fun swizzle hName => (Swizzle.length_ofName? hName).elim (proper_ofComponents _)
  · exact .map fun swizzle hName => (Swizzle.length_ofName? hName).elim (proper_ofComponents _)
  · exact .map fun _ _ => trivial
  next struct =>
    refine .bind fun fields hFields => .bind fun field hField => proper?_some.mpr ?_
    refine prog.proper_structFields? struct field ?_
    rw [hFields]
    exact mem_of_find?_eq_some hField
  · exact proper?_none

theorem proper_typeOf (text : String) : (Constant.typeOf text).Proper := by
  unfold Constant.typeOf
  split
  · trivial
  · split
    · trivial
    · split <;> trivial

theorem proper_typedVector? {owner member : String} {val : OutExpr} {type : ValueType}
    (hVector : Constant.typedVector? owner member = some (val, type)) : type.Proper := by
  obtain ⟨kind, width, hOwner, rfl, -⟩ := Constant.typedVector?_cases hVector
  exact proper_ofName? _ _ hOwner

theorem proper_staticType? (path name : String) : Proper? (prog.staticType? path name) := by
  unfold staticType?
  split
  · exact proper?_some.mpr (proper_typeOf _)
  next text type _ hVector =>
    obtain ⟨⟨val, found⟩, hTyped, hPair⟩ := Option.map_eq_some_iff.mp hVector
    cases hPair
    exact proper?_some.mpr (proper_typedVector? hTyped)
  · exact .bind fun entry _ => .bind fun type _ => prog.proper_valueType? type

theorem proper_staticValueType? (type : TypeExpr) (init : Option Expr) : Proper? (prog.staticValueType? type init) := by
  have hProper := prog.proper_meaning type
  unfold staticValueType?
  split
  next known hMeaning =>
    rw [hMeaning] at hProper
    exact proper?_some.mpr hProper
  · refine .bind fun element hElement => .bind fun val _ => .bind fun length _ => proper?_some.mpr ?_
    exact prog.proper_valueType? _ element hElement
  · exact proper?_none

end Program

/-! ## Scopes -/

namespace Scope

/-- The types of all local variables and functions are proper. -/
def Proper (scope : Scope) : Prop :=
  ∀ frame ∈ scope.frames, ∀ entry ∈ frame.locals ++ frame.functions, Proper? entry.2

theorem proper_empty : Scope.empty.Proper := by
  simp [Proper, Scope.empty, frames]

variable {scope : Scope} (hScope : scope.Proper)

include hScope

theorem Proper.push : scope.push.Proper := forall_mem_cons.mpr ⟨forall_mem_nil _, hScope⟩

variable {type : Option ValueType} {name : String}

theorem Proper.declare (name : String) (hType : Proper? type) : (scope.declare name type).Proper := by
  obtain ⟨hTop, hOuter⟩ := forall_mem_cons.mp hScope
  exact forall_mem_cons.mpr ⟨forall_mem_cons.mpr ⟨hType, hTop⟩, hOuter⟩

theorem Proper.declareFunction (name : String) (hType : Proper? type) : (scope.declareFunction name type).Proper := by
  obtain ⟨hTop, hOuter⟩ := forall_mem_cons.mp hScope
  obtain ⟨hLocals, hFns⟩ := forall_mem_append.mp hTop
  exact forall_mem_cons.mpr ⟨forall_mem_append.mpr ⟨hLocals, forall_mem_cons.mpr ⟨hType, hFns⟩⟩, hOuter⟩

theorem Proper.local? (hLocal : scope.local? name = some type) : Proper? type := by
  obtain ⟨frame, hFrame, hLookup⟩ := exists_of_findSome?_eq_some hLocal
  exact hScope frame hFrame _ (mem_append_left _ (mem_of_lookup hLookup))

theorem Proper.function? (hFn : scope.function? name = some type) : Proper? type := by
  obtain ⟨frame, hFrame, hLookup⟩ := exists_of_findSome?_eq_some hFn
  exact hScope frame hFrame _ (mem_append_right _ (mem_of_lookup hLookup))

theorem Proper.withFunctions (prog : Program) (stmts : List Stmt) : (Track.withFunctions prog stmts scope).Proper := by
  unfold Track.withFunctions
  induction stmts generalizing scope with
  | nil => exact hScope
  | cons stmt rest ih =>
    rw [foldl_cons]
    split
    · exact ih (hScope.declareFunction _ (prog.proper_valueType? _))
    · exact ih hScope

theorem Proper.withParams (prog : Program) (params : List Param) : (Track.withParams prog params scope).Proper := by
  unfold Track.withParams
  induction params generalizing scope with
  | nil => exact hScope
  | cons param rest ih =>
    rw [foldl_cons]
    exact ih (hScope.declare param.name (prog.proper_valueType? param.type))

end Scope

/-! ## Types of expressions -/

/-- Whatever is remembered, the type that an action tells is proper. -/
def Recall.TellsProper (action : Recall (Option ValueType)) : Prop := ∀ memo, Proper? (action memo).1

namespace Site

open Recall

variable {type : Option ValueType} {name : String} {targetType : Recall (Option ValueType)}

theorem tells_pure (hType : Proper? type) : TellsProper (pure type) := fun _ => hType

theorem tells_after {α : Type} {first : Recall α} {next : α → Recall (Option ValueType)}
    (hNext : ∀ val, TellsProper (next val)) : TellsProper (first >>= next) :=
  fun memo => hNext (first memo).1 (first memo).2

theorem tells_bind {first : Recall (Option ValueType)} {next : Option ValueType → Recall (Option ValueType)}
    (hFirst : TellsProper first) (hNext : ∀ type, Proper? type → TellsProper (next type)) :
    TellsProper (first >>= next) :=
  fun memo => hNext (first memo).1 (hFirst memo) (first memo).2

section Args

variable {args : List PendingArg} (hArgs : ∀ arg ∈ args, TellsProper arg.type)

include hArgs

theorem tells_combineArgs {known : Option ValueType} (hKnown : Proper? known) : TellsProper (combineArgs known args) := by
  induction args generalizing known with
  | nil => exact tells_pure hKnown
  | cons arg rest ih =>
    obtain ⟨hArg, hRest⟩ := forall_mem_cons.mp hArgs
    exact tells_bind hArg fun type hType => ih hRest (hKnown.combine hType)

theorem tells_argType (pos : Nat) : TellsProper (argType args pos) := by
  unfold argType
  split
  next arg hArg => exact hArgs arg (mem_of_getElem? hArg)
  · exact tells_pure proper?_none

theorem tells_mapFirst {change : ValueType → Option ValueType} (hChange : ∀ type, type.Proper → Proper? (change type)) :
    TellsProper (mapFirst args change) :=
  tells_bind (tells_argType hArgs 0) fun _ hType => tells_pure (.bind fun known hKnown => hChange known (hType known hKnown))

theorem tells_productType : TellsProper (productType args) := by
  refine tells_bind (tells_argType hArgs 0) fun first hFirst => ?_
  split
  · exact tells_pure proper?_none
  next a =>
    refine tells_bind (tells_argType hArgs 1) fun second hSecond => tells_pure (.map fun b hb => ?_)
    exact (proper?_some.mp hFirst).product (hSecond b hb)

theorem tells_intrinsicType (name : String) : TellsProper (intrinsicType name args) := by
  have hIte : ∀ {test : Prop} [Decidable test] {first second : Recall (Option ValueType)}, TellsProper first →
      TellsProper second → TellsProper (if test then first else second) := by
    intro test _ first second hFirst hSecond
    split
    · exact hFirst
    · exact hSecond
  have hAs : ∀ kind : Scalar, TellsProper (mapFirst args fun type => some (type.withScalar kind)) :=
    fun kind => tells_mapFirst hArgs fun _ hType => proper?_some.mpr (hType.withScalar kind)
  have hScalar : TellsProper (mapFirst args fun type => type.scalar?.map .scalar) :=
    tells_mapFirst hArgs fun _ _ => .map fun _ _ => trivial
  have hTransposed : TellsProper (mapFirst args fun type => some type.transposed) :=
    tells_mapFirst hArgs fun _ hType => proper?_some.mpr hType.transposed
  have hPure : ∀ {type : ValueType}, type.Proper → TellsProper (pure (some type)) :=
    fun hType => tells_pure (proper?_some.mpr hType)
  exact hIte hScalar <| hIte (hPure trivial) <| hIte (hAs _) <| hIte (hAs _) <| hIte (hAs _) <| hIte (hAs _) <|
    hIte (hPure trivial) <| hIte (tells_productType hArgs) <| hIte hTransposed <| hIte (hPure ⟨by omega, by omega⟩) <|
    hIte (hPure trivial) (tells_combineArgs hArgs proper?_none)

end Args

variable {site : Site} (hScope : site.scope.Proper)

theorem proper_field? {meaning : Meaning} (hField : site.field? name = some meaning) : meaning.Proper := by
  unfold field? at hField
  split at hField
  · cases hField
  · obtain ⟨type, -, rfl⟩ := Option.map_eq_some_iff.mp hField
    exact site.program.proper_meaning type

theorem proper_resource? {res : Resource} (hRes : site.resource? name = some res) : res.element.Proper := by
  unfold resource? at hRes
  split at hRes
  next found hField =>
    cases hRes
    have hMeaning := proper_field? hField
    exact hMeaning
  · cases hRes

theorem proper_dispatchType? (info : DispatchInfo) (name : String) : Proper? (dispatchType? info name) := by
  unfold dispatchType?
  split
  · exact proper?_some.mpr ⟨by omega, by omega⟩
  · exact proper?_some.mpr trivial
  · exact proper?_some.mpr trivial
  · exact .map fun swizzle hName => (Swizzle.length_ofName? hName).elim (proper_ofComponents _)

theorem proper_indexedType (args : List Argument) {type : ValueType} (hType : type.Proper) :
    Proper? (indexedType args type) := by
  unfold indexedType
  split
  · exact proper?_some.mpr trivial
  next kind rows cols =>
    split
    next hConstant =>
      split
      · exact proper?_some.mpr trivial
      · have hArgs : args ≠ [] := by
          rintro rfl
          simp at hConstant
        have hPos := length_pos_iff.mpr hArgs
        exact proper?_some.mpr ⟨by omega, by omega⟩
    · exact proper?_some.mpr hType.2
  · exact proper?_some.mpr hType
  · exact proper?_none

theorem proper_elementType? (hType : site.elementType? name = some type) : Proper? type := by
  unfold elementType? at hType
  split at hType
  next res hField =>
    obtain rfl := Option.some.inj hType
    have hMeaning := proper_field? hField
    exact proper?_some.mpr hMeaning
  · obtain rfl := Option.some.inj hType
    exact site.program.proper_valueType? _
  · cases hType

include hScope

theorem proper_nameType? (name : String) : Proper? (site.nameType? name) := by
  unfold nameType?
  split
  next type hLocal => exact hScope.local? hLocal
  · split
    next meaning hField => exact (proper_field? hField).value?
    · exact .map fun _ _ => ⟨by omega, by omega⟩

omit hScope in
theorem tells_memberType (target : Expr) (name : String) (hTarget : TellsProper targetType) :
    TellsProper (site.memberType target name targetType) := by
  have hProperty : TellsProper (site.propertyType name targetType) :=
    tells_bind hTarget fun type hType => tells_pure (.bind fun known hKnown =>
      site.program.proper_memberType? (hType known hKnown) name)
  unfold memberType
  split
  · exact tells_pure (proper_dispatchType? _ _)
  · split
    · exact tells_pure (site.program.proper_staticType? _ name)
    · split
      · exact tells_pure (.map fun _ _ => trivial)
      · exact hProperty
  · exact hProperty

omit hScope in
theorem tells_indexType (target : Expr) (args : List Argument) (hTarget : TellsProper targetType) :
    TellsProper (site.indexType target args targetType) := by
  unfold indexType
  split
  next type hElement =>
    obtain ⟨name, -, hElement⟩ := Option.bind_eq_some_iff.mp hElement
    exact tells_pure (proper_elementType? hElement)
  · exact tells_bind hTarget fun type hType => tells_pure (.bind fun known hKnown =>
      proper_indexedType args (hType known hKnown))

theorem tells_callType (callee : Expr) {args : List PendingArg} (hArgs : ∀ arg ∈ args, TellsProper arg.type) :
    TellsProper (site.callType callee args) := by
  refine tells_after fun found => ?_
  split
  · exact tells_intrinsicType hArgs _
  · exact tells_pure (.bind fun method _ => site.program.proper_valueType? _)
  next name =>
    refine tells_pure ?_
    cases hFn : site.scope.function? name with
    | none => exact proper?_none
    | some type => exact hScope.function? hFn
  · exact tells_pure (.map fun _ hRes => proper_resource? hRes)
  · exact tells_pure proper?_none
  · exact tells_pure proper?_none

omit hScope in
theorem tells_binaryType (op : BinaryOp) {lhs rhs : Recall (Option ValueType)} (hLeft : TellsProper lhs)
    (hRight : TellsProper rhs) : TellsProper (binaryType op lhs rhs) := by
  refine tells_bind hLeft fun left hLeft => ?_
  split
  · exact tells_pure (proper?_some.mpr trivial)
  · exact tells_pure (proper?_some.mpr trivial)
  · exact tells_pure hLeft
  · exact tells_pure hLeft
  · refine tells_bind hRight fun right hRight => tells_pure ?_
    have hCombined := hLeft.combine hRight
    split
    · exact .map fun known hKnown => (hCombined known hKnown).withScalar _
    · exact hCombined

omit hScope

mutual

/-- The type that is told of an expression is proper. -/
theorem tells_infer {site : Site} (hScope : site.scope.Proper) (expr : Expr) : TellsProper (site.infer expr) := by
  unfold infer
  cases expr with
  | literal _ val =>
    refine tells_pure ?_
    unfold Literal.type?
    split <;> try exact proper?_none
    · split <;> exact proper?_some.mpr trivial
    all_goals exact proper?_some.mpr trivial
  | ident _ name => exact tells_pure (proper_nameType? hScope name)
  | member _ target name => exact tells_memberType target name (tells_infer hScope target)
  | index _ target args => exact tells_indexType target args (tells_infer hScope target)
  | call _ callee _ args => exact tells_callType hScope callee (tells_pendingArgs hScope args)
  | unary _ op operand =>
    cases op with
    | not => exact tells_pure (proper?_some.mpr trivial)
    | _ => exact tells_infer hScope operand
  | post _ _ operand | paren _ operand | checked _ _ operand => exact tells_infer hScope operand
  | binary _ op lhs rhs => exact tells_binaryType op (tells_infer hScope lhs) (tells_infer hScope rhs)
  | assign _ _ target => exact tells_infer hScope target
  | conditional _ _ thenExpr elseExpr =>
    refine tells_bind (tells_infer hScope thenExpr) fun first hFirst => ?_
    split
    · exact tells_pure hFirst
    · exact tells_infer hScope elseExpr
  | cast _ type => exact tells_pure (site.program.proper_valueType? type)
  | construct _ type | defaultOf _ type =>
    cases type with
    | none => exact tells_pure proper?_none
    | some type => exact tells_pure (site.program.proper_valueType? type)
  | isPattern => exact tells_pure (proper?_some.mpr trivial)
  | _ => exact tells_pure proper?_none

theorem tells_pendingArgs {site : Site} (hScope : site.scope.Proper) (args : List Argument) :
    ∀ arg ∈ site.pendingArgs args, TellsProper arg.type := by
  unfold pendingArgs
  match args with
  | [] => exact forall_mem_nil _
  | ⟨name, _, val⟩ :: rest => exact forall_mem_cons.mpr ⟨tells_infer hScope val, tells_pendingArgs hScope rest⟩

end

end Site

end Shaderlift
