import Shaderlift.Proofs.Lowering.Ending

/-!
# What expressions are written to

Seen from the end of the run, every cast and every call in a written expression can be accounted for
(`writes_exprOn`). This includes the expressions that are pulled in from elsewhere, and the initial values of static
fields of other types, which are listed when they are met.
-/

namespace Shaderlift

open List

namespace Lower

open Track Legality ValueType

/-- Where expressions are written that lead to an end: in its program, with the blanks of the output. -/
structure Ending.Hosts (ending : Ending) (context : LowerContext) : Prop where
  program : context.program = ending.program
  blank : context.blank = .standard
  returnType : Proper? context.returnType
  pixelType : Proper? context.model.pixelType

variable {ending : Ending} {Stands : String × MethodDecl → OutFunction → Prop} {P : Prop} {ctx : LowerContext}

/-! ## Types -/

theorem writes_noteStruct (type : ValueType) :
    Writes ending Stands P [] (fun _ => ∀ name, type.struct? = some name → name ∈ ending.last.gathered.structs)
      (noteStruct type) := by
  unfold noteStruct
  split
  · rename_i name hName
    refine .note (fun _ => ⟨fun _ => id, fun _ hMem => mem_addNew_of_mem hMem, fun _ => id, fun _ => id⟩)
      (fun _ => ⟨rfl, rfl⟩) fun gathered hEnd other hOther => ?_
    rw [hName] at hOther
    cases hOther
    exact hEnd.structs name (mem_addNew name gathered.structs)
  · rename_i hNone
    refine .pure fun _ name hName => ?_
    rw [hNone] at hName
    cases hName

theorem writes_spell {type : ValueType} (hType : P → type.Proper) :
    Writes ending Stands P [] (fun text => ending.Knows type ∧ type.spelling = text) (spell type) :=
  (writes_noteStruct type).map fun hP _ hNoted => ⟨⟨hType hP, hNoted⟩, rfl⟩

theorem writes_spellWritten (type : TypeExpr) :
    Writes ending Stands P [] (ending.SpellsWritten type) (spellWritten ending.program type) := by
  unfold spellWritten
  split
  · rename_i val hVal
    refine (writes_spell fun _ => ending.program.proper_valueType? type val hVal).weaken id fun _ _ hText => ?_
    exact .inl ⟨val, hVal, hText⟩
  · rename_i hNone
    exact .pure fun _ => .inr ⟨hNone, rfl⟩

theorem writes_zero {type : Option ValueType} (hType : P → Proper? type) :
    Writes ending Stands P [] ending.Accounts (zero type) := by
  cases type with
  | none => exact .pure fun _ => .token _
  | some type =>
    refine (writes_spell fun hP => hType hP type rfl).map fun _ text hText => ?_
    exact .cast (.token _) (.inl ⟨type, hText⟩)

/-! ## Coordinates -/

theorem writes_noteIds (change : SpecialIds → SpecialIds) :
    Writes ending Stands P [] (fun _ => True) (noteIds change) :=
  .note (fun _ => ⟨fun _ => id, fun _ => id, fun _ => id, fun _ => id⟩) (fun _ => ⟨rfl, rfl⟩) fun _ _ => trivial

theorem writes_noteGroupSize : Writes ending Stands P [] (fun _ => True) noteGroupSize :=
  .note (fun _ => ⟨fun _ => id, fun _ => id, fun _ => id, fun _ => id⟩) (fun _ => ⟨rfl, rfl⟩) fun _ _ => trivial

theorem spells_triple (kind : Scalar) : ending.Spells (ValueType.vector kind 3).spelling :=
  ⟨.vector kind 3, Ending.knows_numeric ⟨by omega, by omega⟩ rfl, rfl⟩

theorem accounts_triple (kind : Scalar) (name : String) :
    ending.Accounts (.cast (ValueType.vector kind 3).spelling (.ident name)) :=
  .cast (.token _) (.inl (spells_triple kind))

theorem accounts_extent (kind : ShaderKind) : ∀ part ∈ extent kind, ending.Accounts part := by
  refine forall_mem_cons.mpr ⟨.token _, forall_mem_cons.mpr ⟨.token _, forall_mem_singleton.mpr ?_⟩⟩
  split
  · exact .token _
  · exact .token _

theorem accounts_extentTriple (kind : ShaderKind) (component : Scalar) :
    ending.Accounts (.call (.ident (ValueType.vector component 3).spelling) (extent kind)) :=
  .call (.token _) (accounts_extent kind) (.components (by omega) (by omega))

theorem writes_dispatchValue (kind : ShaderKind) (info : DispatchInfo) :
    Writes ending Stands P [] ending.Accounts (dispatchValue kind info) := by
  cases info with
  | threadIds => exact .pure fun _ => accounts_triple .int _
  | groupIds | gridIds => exact (writes_noteIds _).map fun _ _ _ => accounts_triple .int _
  | groupSize => exact writes_noteGroupSize.map fun _ _ _ => .token _
  | dispatchSize => exact .pure fun _ => accounts_extentTriple kind .int

theorem accounts_dispatchSwizzle (base name : String) : ending.Accounts (dispatchSwizzle base name) :=
  .member (.token _) _

theorem accounts_extentComponent (kind : ShaderKind) (c : Char) : ending.Accounts (extentComponent kind c) := by
  unfold extentComponent
  split
  · exact .token _
  · split
    · exact .token _
    · split
      · exact .token _
      · exact .token _

theorem accounts_extentSwizzle (kind : ShaderKind) (name : String) : ending.Accounts (extentSwizzle kind name) := by
  unfold extentSwizzle
  split
  · exact .member (.token _) _
  · rename_i swizzle hSwizzle
    have hParts : ∀ part ∈ swizzle.toList.map (extentComponent kind), ending.Accounts part :=
      forall_mem_map.mpr fun c _ => accounts_extentComponent kind c
    obtain ⟨hLow, hHigh⟩ := Swizzle.length_ofName? hSwizzle
    rw [← String.length_toList] at hLow hHigh
    rw [← length_map (f := extentComponent kind)] at hLow hHigh
    have hCalls : ending.Calls (.ident (ValueType.vector .uint (swizzle.toList.map (extentComponent kind)).length).spelling)
        (swizzle.toList.map (extentComponent kind)) := .components hLow hHigh
    split
    · rename_i single hSingle
      exact hParts single (hSingle ▸ mem_singleton_self _)
    · exact .call (.token _) hParts hCalls

theorem accounts_extentCount (kind : ShaderKind) : ending.Accounts (extentCount kind) := by
  have hArea : ending.Accounts (.binary .mul (.ident "__x") (.ident "__y")) := .binary (.token _) (.token _) _
  unfold extentCount
  refine .paren ?_
  split
  · exact hArea
  · exact .binary hArea (.token _) _

theorem writes_dispatchMember (kind : ShaderKind) (info : DispatchInfo) (name : String) :
    Writes ending Stands P [] ending.Accounts (dispatchMember kind info name) := by
  cases info with
  | threadIds =>
    refine .ite (.pure fun _ => .paren (.binary ?_ ?_ _)) (.pure fun _ => accounts_dispatchSwizzle _ _)
    · exact accounts_triple .float _
    · exact accounts_extentTriple kind .float
  | groupIds =>
    exact .ite ((writes_noteIds _).map fun _ _ _ => .token _)
      ((writes_noteIds _).map fun _ _ _ => accounts_dispatchSwizzle _ _)
  | gridIds => exact (writes_noteIds _).map fun _ _ _ => accounts_dispatchSwizzle _ _
  | groupSize =>
    refine writes_noteGroupSize.map fun _ _ _ => ?_
    split
    · exact .token _
    · exact accounts_dispatchSwizzle _ _
  | dispatchSize =>
    refine .pure fun _ => ?_
    split
    · exact accounts_extentCount kind
    · exact accounts_extentSwizzle kind name

/-! ## Looking at the state -/

theorem writes_site (hCtx : ending.Hosts ctx) :
    Writes ending Stands P []
      (fun site => site.program = ending.program ∧ site.owner = ctx.owner ∧ site.scope.Proper) (site ctx) :=
  Writes.get.map fun _ _ hScope => ⟨hCtx.program, rfl, hScope⟩

theorem writes_infer (hCtx : ending.Hosts ctx) (target : Expr) :
    Writes ending Stands P [] Proper? (look ctx fun site => site.infer target) := by
  unfold look
  rw [hCtx.program]
  refine .recalling (fun scope => Site.stable_infer ⟨_, _, scope⟩ target) fun scope hScope memo => ?_
  have hTells : Recall.TellsProper (Site.infer ⟨ending.program, ctx.owner, scope⟩ target) :=
    Site.tells_infer hScope target
  exact hTells memo

/-! ## Static fields -/

theorem writes_list {decl : StaticDecl} (hDecl : P → ending.Lists decl) :
    Writes ending Stands P [] (fun _ => True)
      (gather fun g : Gathered => { g with statics := g.statics ++ [decl] }) := by
  refine .gather (fun _ => ⟨fun _ => id, fun _ => id, fun _ => id, fun _ => id⟩) (fun _ => rfl) ?_ fun _ _ => trivial
  intro hP gathered other hOther
  rcases mem_append.mp hOther with hOld | hNew
  · exact .inl hOld
  · obtain rfl := mem_singleton.mp hNew
    exact .inr (hDecl hP)

section Pulling

variable {fuel : Nat}

/-- What is pulled in on fuel can be accounted for wherever it stands. -/
def AccountsOn (ending : Ending) (Stands : String × MethodDecl → OutFunction → Prop) (fuel : Nat) : Prop :=
  ∀ {P : Prop} {context : LowerContext} {hint : Option ValueType} {value : Expr}, ending.Hosts context →
    (P → Proper? hint) → (P → value.all ending.test = true) →
    Writes ending Stands P [] ending.Accounts (exprOn fuel context hint value)

variable (hFair : ending.Fair) (hPulls : AccountsOn ending Stands fuel) (hCtx : ending.Hosts ctx)

theorem writes_staticInit {write : Expr → Lower OutExpr} {init : Option Expr}
    (hWrite : ∀ val, init = some val → Writes ending Stands P [] ending.Accounts (write val))
    (hYields : ∀ val st, YieldsOn ending.program val (write val st).1) :
    Writes ending Stands P [] (ending.Starts init) (staticInit write init) := by
  cases init with
  | none => exact .pure fun _ _ hNone => by cases hNone
  | some val =>
    unfold staticInit
    refine .ite (.pure fun _ _ hNone => by cases hNone) ?_
    refine ⟨(hWrite val rfl).grows, fun hP st hSound hEnd => ?_⟩
    obtain ⟨hAfter, hOut, hAdded⟩ := (hWrite val rfl).holds hP st hSound hEnd
    refine ⟨hAfter, fun text hText => ?_, hAdded⟩
    cases hText
    exact ⟨val, _, rfl, hYields val st, hOut, rfl⟩

variable {owner name : String} {val : OutExpr} {write : Lower OutExpr} {hint : Option ValueType}

theorem proper_writtenOr (prog : Program) (type : Option TypeExpr) (hHint : Proper? hint) :
    Proper? (writtenOr prog type hint) := by
  unfold writtenOr
  split
  · rename_i known hKnown
    obtain ⟨written, -, hMeans⟩ := Option.bind_eq_some_iff.mp hKnown
    exact proper?_some.mpr (prog.proper_valueType? written known hMeans)
  · exact hHint

theorem proper_itemHint (hHint : Proper? hint) : Proper? (itemHint hint) := by
  unfold itemHint
  split
  · rename_i element length
    have hArray : (ValueType.array element length).Proper := proper?_some.mp hHint
    exact proper?_some.mpr hArray
  · exact proper?_none

theorem proper_head? {hints : List (Option ValueType)} (hHints : ∀ hint ∈ hints, Proper? hint) :
    Proper? hints.head?.join := by
  cases hints with
  | nil => exact proper?_none
  | cons first rest => exact hHints first mem_cons_self

include hFair hPulls hCtx

/-- A static field of another type is listed when it is named for the first time, with its initial value as seen
from that type. -/
theorem writes_externalStatic (hOwner : owner ≠ ending.program.shader.name) :
    Writes ending Stands P [] ending.Accounts (externalStatic (exprOn fuel) ctx owner name) := by
  unfold externalStatic
  refine Writes.get.next fun st => .ite (.pure fun _ => .token _) ?_
  have hSee : Writes ending Stands (P ∧ st.scope.Proper) [] (fun _ => (owner, name) ∈ ending.last.gathered.seenStatics)
      (gather fun g : Gathered => { g with seenStatics := (owner, name) :: g.seenStatics }) :=
    .note (fun _ => ⟨fun _ => id, fun _ => id, fun _ => id, fun _ hMem => mem_cons_of_mem _ hMem⟩)
      (fun _ => ⟨rfl, rfl⟩) fun _ hEnd => hEnd.seen _ mem_cons_self
  refine hSee.next fun _ => ?_
  dsimp only
  split
  · exact .pure fun _ => .token _
  · rename_i field declarator hFound
    split
    · exact .pure fun _ => .token _
    · rename_i type hType
      rw [hCtx.program] at hFound hType
      have hProper : type.Proper := ending.program.proper_staticValueType? _ _ type hType
      have hHost : ending.Hosts { ctx with owner } :=
        ⟨hCtx.program, hCtx.blank, hCtx.returnType, hCtx.pixelType⟩
      have hField : fieldInit? ending.program owner name = declarator.init := by
        rw [fieldInit?, hFound]
        rfl
      have hWrite : Writes ending Stands ((P ∧ st.scope.Proper) ∧ (owner, name) ∈ ending.last.gathered.seenStatics) []
          (ending.Starts declarator.init) (staticInit (exprOn fuel { ctx with owner } (some type)) declarator.init) := by
        refine writes_staticInit (fun val hVal => ?_) fun val st =>
          ⟨fuel, { ctx with owner }, some type, st, hCtx.program, rfl⟩
        exact hPulls hHost (fun _ => proper?_some.mpr hProper) fun hSeen =>
          hFair.statics (owner, name) hSeen.2 val (hField.trans hVal)
      refine (hWrite.within fun _ _ _ => Scope.proper_empty).next fun init => ?_
      refine (writes_noteStruct type).next fun _ => ?_
      refine (writes_list ?_).map fun _ _ _ => .token _
      rintro ⟨⟨-, hInit⟩, hNoted⟩
      exact ⟨⟨hProper, hNoted⟩, owner, name, (if_neg hOwner).symm, by rwa [hField]⟩

/-! ## Names and members -/

theorem writes_ident (expr : Expr) (name : String) :
    Writes ending Stands P [] ending.Accounts (ident (exprOn fuel) ctx expr name) := by
  unfold ident
  refine (writes_site hCtx).next fun site => .ite (.pure fun _ => .token _) ?_
  split
  · exact writes_dispatchValue _ _
  · split
    · split
      · rename_i hStatic
        refine writes_externalStatic hFair hPulls hCtx ?_
        rw [← hCtx.program]
        have hOther := (Bool.and_eq_true_iff.mp hStatic).2
        exact bne_iff_ne.mp hOther
      · exact .pure fun _ => .token _
    · exact .pure fun _ => .token _

omit hFair hPulls hCtx in
theorem accounts_scalar {member : String} (hConstant : Constant.scalar? owner member = some val) :
    ending.Accounts val := by
  have hBits : ∀ pattern, ending.Accounts (Constant.asFloat pattern) := fun _ =>
    .call (.token _) (forall_mem_singleton.mpr (.token _)) .bits
  have hEach : ∀ out ∈ Constant.table.map Prod.snd, ending.Accounts out := by
    simp only [Constant.table, map_cons, map_nil, forall_mem_cons]
    refine ⟨.token _, .token _, .token _, .token _, .token _, .token _, .token _, .unary (.token _) _, .token _,
      hBits _, hBits _, hBits _, .token _, .unary (.token _) _, .token _, ?_, .token _, .token _, ?_⟩
    · exact .paren (.binary (.unary (.token _) _) (.token _) _)
    · exact forall_mem_nil _
  exact hEach val (mem_map_of_mem (mem_of_lookup hConstant))

omit hFair hPulls hCtx in
theorem accounts_typedVector {member : String} {type : ValueType}
    (hConstant : Constant.typedVector? owner member = some (val, type)) : ending.Accounts val := by
  obtain ⟨kind, width, hName, rfl, hVal⟩ := Constant.typedVector?_cases hConstant
  have hKnown : ending.Knows (.vector kind width) := Ending.knows_numeric (proper_ofName? _ _ hName) rfl
  rcases hVal with ⟨digit, rfl⟩ | ⟨axis, rfl⟩
  · exact .cast (.token _) (.inl ⟨_, hKnown, rfl⟩)
  · exact .call (.typeName _) (forall_mem_map.mpr fun _ _ => .token _) (.construct hKnown)

theorem writes_staticMember (path name : String) :
    Writes ending Stands P [] ending.Accounts (staticMember (exprOn fuel) ctx path name) := by
  unfold staticMember
  split
  · rename_i hScalar
    exact .pure fun _ => accounts_scalar hScalar
  · rename_i hVector
    exact .pure fun _ => accounts_typedVector hVector
  · split
    · split
      · split
        · exact .pure fun _ => .qualified _
        · rename_i hOther
          refine writes_externalStatic hFair hPulls hCtx ?_
          rw [← hCtx.program]
          simpa using hOther
      · exact .pure fun _ => .member (Ending.accounts_ofPath _) _
    · exact .pure fun _ => .member (Ending.accounts_ofPath _) _

omit hFair hPulls hCtx in
/-- A resource that a name refers to is a field of the type from which it is seen. -/
theorem exists_field_of_resource? {site : Site} {res : Resource} (hRes : site.resource? name = some res) :
    ∃ type, site.program.fieldType? site.owner name = some type ∧ site.program.meaning type = .resource res := by
  unfold Site.resource? Site.field? at hRes
  split at hRes
  · rename_i found hFound
    cases hRes
    split at hFound
    · cases hFound
    · exact Option.map_eq_some_iff.mp hFound
  · cases hRes

/-- A size of a resource is noted and written as a call of the function that returns it. -/
theorem writes_plainMember (target : Expr) (name : String) (hWrite : Writes ending Stands P [] ending.Accounts write) :
    Writes ending Stands P [] ending.Accounts (plainMember (exprOn fuel) ctx target name write) := by
  unfold plainMember
  refine (writes_site hCtx).next fun site => ?_
  have hProperty : ∀ {Q : Prop}, (Q → P) → Writes ending Stands Q [] ending.Accounts (property ctx target name write) :=
    fun hCondition => (writes_infer hCtx target).next fun _ =>
      (hWrite.of_imp fun hQ => hCondition hQ.1).map fun _ _ hOut => hOut.member _
  split
  · exact hProperty And.left
  · rename_i path _
    refine .ite (writes_staticMember hFair hPulls hCtx path name) ?_
    split
    · rename_i property hSize
      obtain ⟨res, hRes, hSize⟩ := Option.bind_eq_some_iff.mp hSize
      obtain ⟨type, hType, hMeaning⟩ := exists_field_of_resource? hRes
      have hNote : Writes ending Stands (P ∧ site.program = ending.program ∧ site.owner = ctx.owner ∧
          site.scope.Proper) [] (fun _ => ⟨Reserved.identifier path, property⟩ ∈ ending.last.gathered.sizes)
          (gather fun g : Gathered => { g with sizes := addNew ⟨Reserved.identifier path, property⟩ g.sizes }) :=
        .note (fun _ => ⟨fun _ => id, fun _ => id, fun _ hMem => mem_addNew_of_mem hMem, fun _ => id⟩)
          (fun _ => ⟨rfl, rfl⟩) fun gathered hEnd => hEnd.sizes _ (mem_addNew _ gathered.sizes)
      refine hNote.map fun hSite _ hNoted => ?_
      rw [hSite.2.1] at hType hMeaning
      have hFound : ending.program.sizeOf? site.owner path name = some property := by
        rw [Program.sizeOf?, hType, Option.bind_eq_bind, Option.bind_some, hMeaning]
        exact hSize
      have hMeasures : ending.Measures ⟨Reserved.identifier path, property⟩ :=
        ⟨hNoted, site.owner, path, rfl, name, hFound⟩
      have hCalls : ending.Calls (.ident (SizeRead.function ⟨Reserved.identifier path, property⟩)) [] := .size hMeasures
      exact .call (.token _) (forall_mem_nil _) hCalls
    · exact hProperty And.left

theorem writes_member (target : Expr) (name : String) (hWrite : Writes ending Stands P [] ending.Accounts write) :
    Writes ending Stands P [] ending.Accounts (member (exprOn fuel) ctx target name write) := by
  unfold member
  refine (writes_site hCtx).next fun site => ?_
  split
  · exact writes_dispatchMember _ _ _
  · exact .pure fun _ => .qualified _
  · exact writes_plainMember hFair hPulls hCtx _ name (hWrite.of_imp And.left)

/-! ## Elements and calls -/

omit hFair hPulls hCtx in
theorem accounts_indexEach {target : OutExpr} (hTarget : ending.Accounts target) {indices : List OutExpr}
    (hIndices : ∀ item ∈ indices, ending.Accounts item) : ending.Accounts (indexEach target indices) := by
  have hOne : ∀ {inner item : OutExpr}, ending.Accounts inner → ending.Accounts item →
      ending.Accounts (.index inner [item]) := fun hInner hItem => .index hInner (forall_mem_singleton.mpr hItem)
  have hFold : ∀ (items : List OutExpr) (inner : OutExpr), ending.Accounts inner →
      (∀ item ∈ items, ending.Accounts item) →
      ending.Accounts (items.foldl (fun inner item => .index inner [item]) inner) := by
    intro items
    induction items with
    | nil => exact fun _ hInner _ => hInner
    | cons item rest ih =>
      intro inner hInner hItems
      obtain ⟨hItem, hRest⟩ := forall_mem_cons.mp hItems
      exact ih _ (hOne hInner hItem) hRest
  cases indices with
  | nil => exact .index hTarget (forall_mem_nil _)
  | cons first rest =>
    obtain ⟨hFirst, hRest⟩ := forall_mem_cons.mp hIndices
    exact hFold rest _ (hOne hTarget hFirst) hRest

omit hFair hPulls in
theorem writes_index (target : Expr) (args : List Argument) {indices : Lower (List OutExpr)}
    (hWrite : Writes ending Stands P [] ending.Accounts write) (hIndices : Writes ending Stands P [] (fun outs =>
      outs.length = args.length ∧ ∀ out ∈ outs, ending.Accounts out) indices) :
    Writes ending Stands P [] ending.Accounts (index ctx target args write indices) := by
  unfold index
  refine (writes_site hCtx).next fun site => ?_
  split
  · refine (hIndices.of_imp And.left).next fun outs => ?_
    dsimp only
    split
    · rename_i hSeveral
      refine .pure fun hBoth => ?_
      obtain ⟨-, hLength, hOuts⟩ := hBoth
      have hCount : 1 < args.length := by simpa using (Bool.and_eq_true_iff.mp hSeveral).2
      refine .index (.token _) (forall_mem_singleton.mpr ?_)
      rw [← hLength]
      exact .call (.token _) hOuts (.coordinates (hLength ▸ hCount))
    · exact .pure fun hBoth => .index (.token _) hBoth.2.2
  · refine (writes_infer hCtx target).next fun type => ?_
    split
    · exact (hWrite.of_imp fun hAll => hAll.1.1).map fun _ _ hOut => hOut.member _
    · refine (hWrite.of_imp fun hAll => hAll.1.1).next fun out => ?_
      exact (hIndices.of_imp fun hAll => hAll.1.1.1).map fun hAll _ hOuts => accounts_indexEach hAll.2 hOuts.2

omit hFair hPulls hCtx in
theorem accounts_placeArgs {slots : List (Option OutExpr)} {extra : List OutExpr}
    {list : List (Option Nat × OutExpr)} (hSlots : ∀ out, some out ∈ slots → ending.Accounts out)
    (hExtra : ∀ out ∈ extra, ending.Accounts out) (hList : ∀ entry ∈ list, ending.Accounts entry.2) :
    (∀ out, some out ∈ (placeArgs slots extra list).1 → ending.Accounts out) ∧
      ∀ out ∈ (placeArgs slots extra list).2, ending.Accounts out := by
  induction list generalizing slots extra with
  | nil => exact ⟨hSlots, hExtra⟩
  | cons entry rest ih =>
    obtain ⟨hEntry, hRest⟩ := forall_mem_cons.mp hList
    have hMore : ∀ out ∈ extra ++ [entry.2], ending.Accounts out :=
      forall_mem_append.mpr ⟨hExtra, forall_mem_singleton.mpr hEntry⟩
    match entry with
    | (none, written) => exact ih hSlots hMore hRest
    | (some pos, written) =>
      unfold placeArgs
      split
      · refine ih (fun out hOut => ?_) hExtra hRest
        rcases mem_or_eq_of_mem_set hOut with hOld | hNew
        · exact hSlots out hOld
        · exact Option.some.inj hNew ▸ hEntry
      · exact ih hSlots hMore hRest

omit hFair in
theorem writes_fillDefaults (entries : List (Option OutExpr × Param))
    (hWritten : P → ∀ entry ∈ entries, ∀ out, entry.1 = some out → ending.Accounts out)
    (hDefaults : P → ∀ entry ∈ entries, allExpr? ending.test entry.2.default = true) :
    Writes ending Stands P [] (fun outs => ∀ out ∈ outs, ending.Accounts out)
      (fillDefaults (exprOn fuel ctx none) entries) := by
  induction entries with
  | nil => exact .pure fun _ => forall_mem_nil _
  | cons entry rest ih =>
    have hRest := ih (fun hP => (forall_mem_cons.mp (hWritten hP)).2)
      fun hP => (forall_mem_cons.mp (hDefaults hP)).2
    match entry with
    | (some written, _) =>
      refine hRest.map fun hP outs hOuts => forall_mem_cons.mpr ⟨?_, hOuts⟩
      exact (forall_mem_cons.mp (hWritten hP)).1 written rfl
    | (none, param) =>
      simp only [fillDefaults]
      split
      · rename_i val hVal
        refine (hPulls hCtx (fun _ => proper?_none) fun hP => ?_).next fun out => ?_
        · have hDefault := (forall_mem_cons.mp (hDefaults hP)).1
          rwa [hVal, allExpr?] at hDefault
        · exact (hRest.of_imp And.left).map fun hBoth _ hOuts => forall_mem_cons.mpr ⟨hBoth.2, hOuts⟩
      · exact hRest

omit hFair in
theorem writes_methodArgs (method : MethodDecl) (slots : List (Option Nat)) {values : List OutExpr}
    (hValues : P → ∀ out ∈ values, ending.Accounts out) (hParams : P → allParams ending.test method.params = true) :
    Writes ending Stands P [] (fun outs => ∀ out ∈ outs, ending.Accounts out)
      (methodArgs (exprOn fuel) ctx method slots values) := by
  have hPlaced : P → (∀ out, some out ∈ (placeArgs (method.params.map fun _ => none) [] (slots.zip values)).1 →
      ending.Accounts out) ∧
      ∀ out ∈ (placeArgs (method.params.map fun _ => none) [] (slots.zip values)).2, ending.Accounts out := by
    intro hP
    refine accounts_placeArgs (fun out hOut => by simp at hOut) (forall_mem_nil _) fun entry hEntry => ?_
    exact hValues hP entry.2 (of_mem_zip hEntry).2
  unfold methodArgs
  refine (writes_fillDefaults hPulls hCtx _ (fun hP entry hEntry out hOut => ?_) fun hP entry hEntry => ?_).map
    fun hP outs hOuts out hOut => ?_
  · exact (hPlaced hP).1 out (hOut ▸ (of_mem_zip hEntry).1)
  · exact all_eq_true.mp (hParams hP) entry.2 (of_mem_zip hEntry).2
  · rcases mem_append.mp hOut with hFilled | hExtra
    · exact hOuts out hFilled
    · exact (hPlaced hP).2 out hExtra

theorem writes_call (args : List Argument) (callee : Callee) {write : List (Option ValueType) → Lower (List OutExpr)}
    (hCallee : P → (∃ met ∈ ending.last.met, met.callee = callee) ∧ ∀ key, callee = .source key →
      ∃ remembered, ending.last.memo.entries.lookup remembered = some (.source key))
    (hWrite : ∀ hints, (∀ hint ∈ hints, Proper? hint) →
      Writes ending Stands P [] (fun outs => ∀ out ∈ outs, ending.Accounts out) (write hints)) :
    Writes ending Stands P [] ending.Accounts (call (exprOn fuel) ctx args callee write) := by
  have hNone := hWrite [] (forall_mem_nil _)
  have hSrc : P → ∀ outs, ending.Calls (callee.written ending.program) outs := by
    intro hP outs
    obtain ⟨met, hMet, rfl⟩ := (hCallee hP).1
    exact .source hMet
  cases callee with
  | intrinsic | localFunction => exact hNone.map fun hP outs hOuts => .call (.token _) hOuts (hSrc hP outs)
  | unknown name | ambiguous name =>
    exact hNone.map fun hP outs hOuts => .call (Ending.accounts_ofPath _) hOuts (hSrc hP outs)
  | resourceMember field method =>
    refine hNone.map fun hP outs hOuts => .call (.member (.token _) _) ?_ (hSrc hP _)
    refine forall_mem_cons.mpr ⟨.token _, ?_⟩
    split
    · exact forall_mem_singleton.mpr (.token _)
    · exact hOuts
  | source key =>
    have hName : P → ∀ outs, ending.Calls (.ident (methodName ctx.program key)) outs := by
      rw [hCtx.program]
      exact hSrc
    simp only [call]
    split
    · rename_i method hMethod
      rw [hCtx.program] at hMethod
      refine (hWrite _ fun hint hHint => ?_).next fun values => ?_
      · obtain ⟨slot, -, rfl⟩ := mem_map.mp hHint
        exact .bind fun _ _ => .bind fun param _ => ctx.program.proper_valueType? param.type
      · refine (writes_methodArgs hPulls hCtx method _ And.right fun hBoth => ?_).map fun hBoth outs hOuts => ?_
        · obtain ⟨remembered, hRemembered⟩ := (hCallee hBoth.1).2 key rfl
          exact hFair.defaults remembered key method hRemembered hMethod
        · exact .call (.token _) hOuts (hName hBoth.1 outs)
    · exact hNone.map fun hP outs hOuts => .call (.token _) hOuts (hName hP outs)

/-! ## Expressions -/

set_option linter.unusedSectionVars false

mutual

theorem writes_exprWith {P : Prop} (hint : Option ValueType) (hHint : P → Proper? hint) (expr : Expr)
    (hExpr : P → expr.all ending.test = true) :
    Writes ending Stands P [] ending.Accounts (exprWith (exprOn fuel) ctx hint expr) := by
  unfold exprWith
  unfold Expr.all at hExpr
  have hBlank : ending.Accounts ctx.blank.expr := by
    rw [hCtx.blank]
    exact .token _
  have hNone : P → Proper? none := fun _ => proper?_none
  cases expr with
  | literal _ val =>
    refine .pure fun _ => ?_
    unfold Literal.written
    split <;> exact .token _
  | selfRef | typeWord => exact .pure fun _ => .token _
  | ident span name => exact writes_ident hFair hPulls hCtx (.ident span name) name
  | member _ target name =>
    exact writes_member hFair hPulls hCtx target name
      (writes_exprWith none hNone target (of_and_right hExpr))
  | index _ target args =>
    have hParts := of_and_right hExpr
    exact writes_index hCtx target args
      (writes_exprWith none hNone target (of_and_left hParts))
      (writes_argsWith [] (fun _ => forall_mem_nil _) args (of_and_right hParts))
  | call span callee types args =>
    have hArgs := of_and_right (of_and_right hExpr)
    rw [hCtx.program]
    refine (Writes.meet ctx.owner (.call span callee types args) callee args).next fun found => ?_
    refine writes_call hFair hPulls hCtx args found And.right fun hints hHints => ?_
    have hWrite := writes_argsWith hints (fun _ => hHints) args hArgs
    exact hWrite.weaken And.left fun _ _ hOuts => hOuts.2
  | unary _ _ operand =>
    exact (writes_exprWith none hNone operand (of_and_right hExpr)).map fun _ _ hOut => hOut.unary _
  | post _ op operand =>
    have hOperand := writes_exprWith none hNone operand (of_and_right hExpr)
    cases op with
    | nullForgiving => exact hOperand
    | inc | dec => exact hOperand.map fun _ _ hOut => hOut.post _
  | binary _ _ lhs rhs =>
    have hParts := of_and_right hExpr
    have hLeft := writes_exprWith none hNone lhs (of_and_left hParts)
    have hRight := writes_exprWith none hNone rhs (of_and_right hParts)
    exact hLeft.next fun _ => (hRight.of_imp And.left).map fun hBoth _ hOut => .binary hBoth.2 hOut _
  | assign _ _ target val =>
    have hParts := of_and_right hExpr
    have hTarget := writes_exprWith none hNone target (of_and_left hParts)
    refine (writes_infer hCtx target).next fun expected => ?_
    have hVal := writes_exprWith expected (And.right : P ∧ Proper? expected → _) val
      fun hBoth => of_and_right hParts hBoth.1
    refine (hTarget.of_imp And.left).next fun _ => ?_
    exact (hVal.of_imp And.left).map fun hBoth _ hOut => .assign hBoth.2 hOut _
  | conditional _ cond thenExpr elseExpr =>
    have hParts := of_and_right hExpr
    have hBranches := of_and_right hParts
    have hCond := writes_exprWith none hNone cond (of_and_left hParts)
    have hThen := writes_exprWith hint hHint thenExpr (of_and_left hBranches)
    have hElse := writes_exprWith hint hHint elseExpr (of_and_right hBranches)
    refine hCond.next fun _ => (hThen.of_imp And.left).next fun _ => ?_
    exact (hElse.of_imp fun hBoth => hBoth.1.1).map fun hBoth _ hOut => .conditional hBoth.1.2 hBoth.2 hOut
  | cast _ type operand =>
    have hOperand := writes_exprWith none hNone operand (of_and_right hExpr)
    have hType : P → ending.Casts type := fun hP => typed_cast.mp (of_and_left hExpr hP)
    rw [hCtx.program]
    refine (writes_spellWritten type).next fun text => (hOperand.of_imp And.left).map fun hBoth out hOut => .cast hOut ?_
    obtain ⟨hP, ⟨known, -, hKnown⟩ | ⟨hUnknown, hText⟩⟩ := hBoth
    · exact .inl ⟨known, hKnown⟩
    · exact .inr ⟨type, hType hP, hUnknown, hText⟩
  | asType _ operand | checked _ _ operand =>
    exact writes_exprWith none hNone operand (of_and_right hExpr)
  | paren _ inner =>
    exact (writes_exprWith hint hHint inner (of_and_right hExpr)).map fun _ _ hOut => hOut.paren
  | construct _ type args =>
    have hArgs := of_and_left (of_and_right hExpr)
    have hType : P → Proper? (writtenOr ctx.program type hint) := fun hP => proper_writtenOr _ type (hHint hP)
    dsimp only
    split
    · rename_i known hKnown
      rw [hKnown] at hType
      refine .ite (writes_zero hType) ?_
      refine (writes_spell fun hP => proper?_some.mp (hType hP)).next fun name => ?_
      have hWrite := writes_argsWith [] (fun _ => forall_mem_nil _) args hArgs
      refine (hWrite.of_imp And.left).map fun hBoth outs hOuts => ?_
      obtain ⟨-, hKnows, rfl⟩ := hBoth
      exact .call (.typeName _) hOuts.2 (.construct hKnows)
    · exact .pure fun _ => .token _
  | newArray _ _ _ init =>
    cases init with
    | none => exact .pure fun _ => hBlank
    | some items =>
      have hItems := of_and_right (of_and_right hExpr)
      exact (writes_itemsWith _ (fun hP => proper_itemHint (hHint hP)) items hItems).map
        fun _ _ hOuts => .braces hOuts
  | arrayInit _ items =>
    exact (writes_itemsWith _ (fun hP => proper_itemHint (hHint hP)) items
      (of_and_right hExpr)).map fun _ _ hOuts => .braces hOuts
  | defaultOf _ type => exact writes_zero fun hP => proper_writtenOr _ type (hHint hP)
  | isPattern _ operand pattern =>
    have hParts := of_and_right hExpr
    have hOperand := writes_exprWith none hNone operand (of_and_left hParts)
    exact hOperand.next fun subject => writes_patternWith subject And.right pattern
      fun hBoth => of_and_right hParts hBoth.1
  | anonymous | sizeOfType | typeOfType | stackAlloc | await | throwing | refTo | range | tuple | query =>
    exact .pure fun _ => hBlank

theorem writes_argsWith {P : Prop} (hints : List (Option ValueType)) (hHints : P → ∀ hint ∈ hints, Proper? hint)
    (args : List Argument) (hArgs : P → allArgs ending.test args = true) :
    Writes ending Stands P [] (fun outs => outs.length = args.length ∧ ∀ out ∈ outs, ending.Accounts out)
      (argsWith (exprOn fuel) ctx hints args) := by
  unfold argsWith
  unfold allArgs at hArgs
  match args with
  | [] => exact .pure fun _ => ⟨rfl, forall_mem_nil _⟩
  | ⟨_, _, val⟩ :: rest =>
    have hVal := writes_exprWith _ (fun hP => proper_head? (hHints hP)) val (of_and_left hArgs)
    have hRest := writes_argsWith hints.tail
      (fun hP hint hHint => hHints hP hint (mem_of_mem_tail hHint)) rest (of_and_right hArgs)
    refine hVal.next fun _ => (hRest.of_imp And.left).map fun hBoth outs hOuts => ?_
    exact ⟨congrArg (· + 1) hOuts.1, forall_mem_cons.mpr ⟨hBoth.2, hOuts.2⟩⟩

theorem writes_itemsWith {P : Prop} (hint : Option ValueType) (hHint : P → Proper? hint) (items : List Expr)
    (hItems : P → allExprs ending.test items = true) :
    Writes ending Stands P [] (fun outs => ∀ out ∈ outs, ending.Accounts out)
      (itemsWith (exprOn fuel) ctx hint items) := by
  unfold itemsWith
  unfold allExprs at hItems
  cases items with
  | nil => exact .pure fun _ => forall_mem_nil _
  | cons item rest =>
    have hItem := writes_exprWith hint hHint item (of_and_left hItems)
    have hRest := writes_itemsWith hint hHint rest (of_and_right hItems)
    exact hItem.next fun _ => (hRest.of_imp And.left).map fun hBoth _ hOuts => forall_mem_cons.mpr ⟨hBoth.2, hOuts⟩

theorem writes_patternWith {P : Prop} (subject : OutExpr) (hSubject : P → ending.Accounts subject) (pattern : Pattern)
    (hPat : P → pattern.all ending.test = true) :
    Writes ending Stands P [] ending.Accounts (patternWith (exprOn fuel) ctx subject pattern) := by
  unfold patternWith
  unfold Pattern.all at hPat
  have hNone : P → Proper? none := fun _ => proper?_none
  cases pattern with
  | constant val | relational _ _ val =>
    refine (writes_exprWith none hNone val (of_and_right hPat)).map fun hP _ hOut => ?_
    exact .paren (.binary (hSubject hP) hOut _)
  | not inner =>
    exact (writes_patternWith subject hSubject inner (of_and_right hPat)).map
      fun _ _ hOut => hOut.unary _
  | and lhs rhs | or lhs rhs =>
    have hParts := of_and_right hPat
    have hLeft := writes_patternWith subject hSubject lhs (of_and_left hParts)
    have hRight := writes_patternWith subject hSubject rhs (of_and_right hParts)
    exact hLeft.next fun _ => (hRight.of_imp And.left).map fun hBoth _ hOut => .paren (.binary hBoth.2 hOut _)
  | discard | var | recursive | declaration => exact .pure fun _ => .token _

end

end Pulling

theorem writes_exprOn (hFair : ending.Fair) (fuel : Nat) : AccountsOn ending Stands fuel := by
  induction fuel with
  | zero => exact fun _ _ _ => .pure fun _ => .token _
  | succ fuel ih => exact fun hCtx hHint hVal => writes_exprWith hFair ih hCtx _ hHint _ hVal

end Lower

end Shaderlift
