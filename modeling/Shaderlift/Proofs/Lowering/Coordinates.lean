import Shaderlift.Proofs.Analysis.Coordinates
import Shaderlift.Proofs.Lowering.Meeting

/-!
# Coordinates that need a parameter

Coordinates of the group and of the grid are noted while expressions are written, and every one that has been noted
becomes a parameter of the entry point. Which expressions note which coordinates is told from the source alone
(`Expr.uses`), but for one thing: whether the arguments of a creation without a type are written depends on the type
that is expected there. `Uses` says so of every action that writing an expression is made of.
-/

namespace Shaderlift

open List
open Bool (and_eq_true_iff or_eq_false_iff)

/-! ## References -/

/-- One of the coordinates that need a parameter of the entry point. -/
inductive SpecialId where
  | groupThreadIds | groupIndex | gridIds
  deriving DecidableEq, Repr

namespace SpecialId

def source : SpecialId → String
  | .groupThreadIds | .groupIndex => "GroupIds"
  | .gridIds => "GridIds"

/-- The parameter of the entry point by which coordinates come in. -/
def param : SpecialId → String
  | .groupThreadIds => "uint3 GroupIds : SV_GroupThreadID"
  | .groupIndex => "uint __GroupIds__get_Index : SV_GroupIndex"
  | .gridIds => "uint3 GridIds : SV_GroupID"

def isMeant (id : SpecialId) (name : String) (property : Option String) : Bool :=
  match id with
  | .groupThreadIds => name == "GroupIds" && property != some "Index"
  | .groupIndex => name == "GroupIds" && property == some "Index"
  | .gridIds => name == "GridIds"

variable {id : SpecialId} {name : String} {property : Option String}

theorem eq_source_of_isMeant (hMeant : id.isMeant name property = true) : name = id.source := by
  cases id with
  | groupThreadIds | groupIndex => exact beq_iff_eq.mp (and_eq_true_iff.mp hMeant).1
  | gridIds => exact beq_iff_eq.mp hMeant

theorem isSome_ofName?_source (id : SpecialId) : (DispatchInfo.ofName? id.source).isSome = true := by
  cases id <;> decide

end SpecialId

/-- Decide whether coordinates have been noted. -/
def SpecialIds.has (ids : SpecialIds) : SpecialId → Bool
  | .groupThreadIds => ids.groupThreadIds
  | .groupIndex => ids.groupIndex
  | .gridIds => ids.gridIds

/-- The entry point has the parameters of the coordinates that have been noted. -/
theorem mem_entryParams (ids : SpecialIds) (id : SpecialId) : id.param ∈ Lower.entryParams ids ↔ ids.has id = true := by
  rcases ids with ⟨groupThreadIds, groupIndex, gridIds⟩
  cases id <;> cases groupThreadIds <;> cases groupIndex <;> cases gridIds <;> decide

mutual

/-- Decide whether writing an expression notes coordinates, where nothing hides their name. What is called is not
written, and neither is what stands before the last property of a longer path. The arguments of a creation without a
type are written if a type is expected: `typed` says that one is, and `loose` that one may be anywhere. -/
def Expr.uses (program : Program) (id : SpecialId) (loose typed : Bool) (expr : Expr) : Bool :=
  match expr with
  | .ident _ name => id.isMeant name none
  | .member _ target name _ =>
    match target.ident? with
    | some whole => id.isMeant whole (some name)
    | none => target.path?.isNone && target.uses program id loose loose
  | .index _ target args => target.uses program id loose loose || usesArgs program id loose args
  | .call _ _ _ args => usesArgs program id loose args
  | .unary _ _ operand => operand.uses program id loose loose
  | .post _ _ operand => operand.uses program id loose loose
  | .binary _ _ lhs rhs => lhs.uses program id loose loose || rhs.uses program id loose loose
  | .assign _ _ target val => target.uses program id loose loose || val.uses program id loose loose
  | .conditional _ cond thenExpr elseExpr =>
    cond.uses program id loose loose ||
      (thenExpr.uses program id loose typed || elseExpr.uses program id loose typed)
  | .cast _ _ operand => operand.uses program id loose loose
  | .asType _ operand _ => operand.uses program id loose loose
  | .checked _ _ inner => inner.uses program id loose loose
  | .paren _ inner => inner.uses program id loose typed
  | .construct _ type args _ => ((type.bind program.valueType?).isSome || typed) && usesArgs program id loose args
  | .newArray _ _ _ (some items) => usesItems program id loose items
  | .arrayInit _ items => usesItems program id loose items
  | .isPattern _ operand pattern => operand.uses program id loose loose || pattern.uses program id loose
  | _ => false

def usesArgs (program : Program) (id : SpecialId) (loose : Bool) : List Argument → Bool
  | [] => false
  | ⟨_, _, val⟩ :: rest => val.uses program id loose loose || usesArgs program id loose rest

def usesItems (program : Program) (id : SpecialId) (loose : Bool) : List Expr → Bool
  | [] => false
  | item :: rest => item.uses program id loose loose || usesItems program id loose rest

/-- Decide whether writing the test of a pattern notes coordinates. -/
def Pattern.uses (program : Program) (id : SpecialId) (loose : Bool) (pattern : Pattern) : Bool :=
  match pattern with
  | .constant val => val.uses program id loose loose
  | .relational _ _ val => val.uses program id loose loose
  | .not inner => inner.uses program id loose
  | .and lhs rhs => lhs.uses program id loose || rhs.uses program id loose
  | .or lhs rhs => lhs.uses program id loose || rhs.uses program id loose
  | _ => false

end

/-! ## What hides coordinates -/

namespace Site

variable {site : Site} {id : SpecialId} {name : String} {property : Option String}

variable {span : Span}

/-- A name by which coordinates are meant refers to some where it is not hidden. -/
theorem not_isMeant_of_dispatchInfo? (hNone : site.dispatchInfo? (.ident span name) = none)
    (hShows : site.shows id.source = true) : ¬id.isMeant name property = true := by
  intro hMeant
  obtain ⟨info, hInfo⟩ := Option.isSome_iff_exists.mp id.isSome_ofName?_source
  rw [SpecialId.eq_source_of_isMeant hMeant, dispatchInfo?_ident_eq_some_iff.mpr ⟨hShows, hInfo⟩] at hNone
  cases hNone

theorem shows_of_dispatchInfo? {info : DispatchInfo}
    (hInfo : site.dispatchInfo? (.ident span name) = some info) (hMeant : id.isMeant name property = true) :
    site.shows id.source = true := by
  rw [← SpecialId.eq_source_of_isMeant hMeant]
  exact (dispatchInfo?_ident_eq_some_iff.mp hInfo).1

end Site

theorem Text.firstSegment_dotted {first second : String} (hFirst : '.' ∉ first.toList) :
    Text.firstSegment (Text.dotted first second) = first := by
  have hDotted : (Text.dotted first second).toList = first.toList ++ '.' :: second.toList := by
    simp [Text.dotted, String.toList_append]
  have hBefore : ∀ c ∈ first.toList, (c != '.') = true := by
    intro c hMem
    refine bne_iff_ne.mpr ?_
    rintro rfl
    exact hFirst hMem
  unfold Text.firstSegment
  rw [hDotted, takeWhile_append_of_pos hBefore]
  simp

theorem Program.field?_eq_none_of_fieldType? {prog : Program} {owner name : String}
    (hField : prog.fieldType? owner name = none) : prog.field? owner name = none := by
  unfold Program.fieldType? at hField
  simpa using hField

namespace Expr

variable {prog : Program} {id : SpecialId} {loose typed : Bool}

variable {target : Expr} {name path : String}

theorem path?_of_ident? (hTarget : target.ident? = some name) : target.path? = some name := by
  cases target with
  | ident => exact hTarget
  | _ => cases hTarget

/-- A property of a path notes coordinates only if the path is their name. -/
theorem eq_source_of_uses_member {span : Span} {conditional : Bool} (hPath : target.path? = some path)
    (hUses : (Expr.member span target name conditional).uses prog id loose typed = true) : path = id.source := by
  unfold uses at hUses
  cases hTarget : target.ident? with
  | none =>
    rw [hTarget, hPath] at hUses
    cases hUses
  | some whole =>
    rw [hTarget] at hUses
    have hWhole := hPath.symm.trans (path?_of_ident? hTarget)
    exact (Option.some.inj hWhole).trans (SpecialId.eq_source_of_isMeant hUses)

/-- A path that notes coordinates does not start at a variable where they are not hidden. -/
theorem startsAtVariable_eq_false {site : Site} (hPath : target.path? = some path) (hTarget : target.ident? = none)
    (hUses : target.uses prog id loose typed = true) (hShows : site.shows id.source = true) :
    site.startsAtVariable path = false := by
  cases target with
  | member span inner name conditional =>
    cases conditional with
    | true => cases hPath
    | false =>
      obtain ⟨start, hStart, hDotted⟩ := Option.map_eq_some_iff.mp hPath
      obtain ⟨hScope, hField⟩ := Site.shows_iff.mp hShows
      have hFirst : Text.firstSegment path = id.source := by
        rw [← hDotted, eq_source_of_uses_member hStart hUses]
        exact Text.firstSegment_dotted (by cases id <;> decide)
      simp [Site.startsAtVariable, Program.isVariable, hFirst, hScope, Program.field?_eq_none_of_fieldType? hField]
  | ident => cases hTarget
  | typeWord =>
    unfold uses at hUses
    cases hUses
  | _ => cases hPath

theorem uses_unparen (val : Expr) : val.unparen.uses prog id loose typed = val.uses prog id loose typed := by
  cases val with
  | paren _ inner =>
    rw [uses]
    exact uses_unparen inner
  | _ => rfl

/-- A position in a matrix notes no coordinates. -/
theorem uses_eq_false_of_index? {val : Expr} (hIdx : (Swizzle.index? val).isSome = true) :
    val.uses prog id loose typed = false := by
  rw [← uses_unparen]
  refine Bool.not_eq_true _ |>.mp fun hUses => ?_
  obtain ⟨place, hPlace⟩ := Option.isSome_iff_exists.mp hIdx
  obtain ⟨pos, hName, hPos⟩ := Option.bind_eq_some_iff.mp hPlace
  unfold Swizzle.indexName? at hName
  cases hVal : val.unparen with
  | ident span name =>
    rw [hVal] at hName hUses
    unfold uses at hUses
    rw [← Option.some.inj hName, SpecialId.eq_source_of_isMeant hUses] at hPos
    cases id <;> cases hPos
  | member span target name conditional =>
    rw [hVal] at hName hUses
    dsimp only at hName
    split at hName
    · rename_i path hPath
      rw [eq_source_of_uses_member hPath hUses] at hName
      have hLast : (Text.lastSegment id.source == "MatrixIndex") = false := by cases id <;> decide
      rw [hLast] at hName
      cases hName
    · cases hName
  | _ =>
    rw [hVal] at hName
    cases hName

end Expr

section Mentions

variable {prog : Program} {id : SpecialId} {loose : Bool}

theorem SpecialId.isMeant_eq_false {name : String} (hName : (name != id.source) = true) (property : Option String) :
    id.isMeant name property = false :=
  Bool.not_eq_true _ |>.mp fun hMeant => bne_iff_ne.mp hName (eq_source_of_isMeant hMeant)

mutual

/-- An expression that does not mention the name of coordinates does not use them. -/
theorem Expr.uses_eq_false_of_all {typed : Bool} {expr : Expr} (hAll : expr.all (.without id.source) = true) :
    expr.uses prog id loose typed = false := by
  unfold Expr.uses
  unfold Expr.all at hAll
  cases expr with
  | ident _ name => exact SpecialId.isMeant_eq_false hAll none
  | member _ target name =>
    have hTarget := (and_eq_true_iff.mp hAll).2
    have hInner := fun typed => @Expr.uses_eq_false_of_all typed target hTarget
    cases target with
    | ident _ whole =>
      unfold Expr.all at hTarget
      exact SpecialId.isMeant_eq_false hTarget (some name)
    | _ => exact Bool.and_eq_false_iff.mpr (.inr (hInner loose))
  | index _ target args =>
    simp only [Bool.and_eq_true] at hAll
    obtain ⟨-, hTarget, hArgs⟩ := hAll
    exact or_eq_false_iff.mpr ⟨Expr.uses_eq_false_of_all hTarget, usesArgs_eq_false_of_all hArgs⟩
  | call _ callee _ args =>
    obtain ⟨-, hParts⟩ := and_eq_true_iff.mp hAll
    exact usesArgs_eq_false_of_all (and_eq_true_iff.mp hParts).2
  | unary _ _ operand | post _ _ operand | cast _ _ operand | asType _ operand | checked _ _ operand
    | paren _ operand => exact Expr.uses_eq_false_of_all (and_eq_true_iff.mp hAll).2
  | binary _ _ lhs rhs | assign _ _ lhs rhs =>
    simp only [Bool.and_eq_true] at hAll
    obtain ⟨-, hLeft, hRight⟩ := hAll
    exact or_eq_false_iff.mpr ⟨Expr.uses_eq_false_of_all hLeft, Expr.uses_eq_false_of_all hRight⟩
  | conditional _ cond thenExpr elseExpr =>
    simp only [Bool.and_eq_true] at hAll
    obtain ⟨-, hCond, hThen, hElse⟩ := hAll
    exact or_eq_false_iff.mpr ⟨Expr.uses_eq_false_of_all hCond,
      or_eq_false_iff.mpr ⟨Expr.uses_eq_false_of_all hThen, Expr.uses_eq_false_of_all hElse⟩⟩
  | construct _ type args =>
    obtain ⟨-, hParts⟩ := and_eq_true_iff.mp hAll
    exact Bool.and_eq_false_iff.mpr (.inr (usesArgs_eq_false_of_all (and_eq_true_iff.mp hParts).1))
  | newArray _ _ _ init =>
    cases init with
    | none => rfl
    | some items =>
      obtain ⟨-, hParts⟩ := and_eq_true_iff.mp hAll
      exact usesItems_eq_false_of_all (and_eq_true_iff.mp hParts).2
  | arrayInit _ items => exact usesItems_eq_false_of_all (and_eq_true_iff.mp hAll).2
  | isPattern _ operand pattern =>
    simp only [Bool.and_eq_true] at hAll
    obtain ⟨-, hOperand, hPat⟩ := hAll
    exact or_eq_false_iff.mpr ⟨Expr.uses_eq_false_of_all hOperand, Pattern.uses_eq_false_of_all hPat⟩
  | literal | selfRef | typeWord | anonymous | defaultOf | sizeOfType | typeOfType | stackAlloc | await | throwing
    | refTo | range | tuple | query => rfl

theorem usesArgs_eq_false_of_all {args : List Argument} (hAll : allArgs (.without id.source) args = true) :
    usesArgs prog id loose args = false := by
  unfold usesArgs
  unfold allArgs at hAll
  match args with
  | [] => rfl
  | ⟨_, _, val⟩ :: rest =>
    obtain ⟨hVal, hRest⟩ := and_eq_true_iff.mp hAll
    exact or_eq_false_iff.mpr ⟨Expr.uses_eq_false_of_all hVal, usesArgs_eq_false_of_all hRest⟩

theorem usesItems_eq_false_of_all {items : List Expr} (hAll : allExprs (.without id.source) items = true) :
    usesItems prog id loose items = false := by
  unfold usesItems
  unfold allExprs at hAll
  cases items with
  | nil => rfl
  | cons item rest =>
    obtain ⟨hItem, hRest⟩ := and_eq_true_iff.mp hAll
    exact or_eq_false_iff.mpr ⟨Expr.uses_eq_false_of_all hItem, usesItems_eq_false_of_all hRest⟩

theorem Pattern.uses_eq_false_of_all {pattern : Pattern} (hAll : pattern.all (.without id.source) = true) :
    pattern.uses prog id loose = false := by
  unfold Pattern.uses
  unfold Pattern.all at hAll
  cases pattern with
  | constant val | relational _ _ val => exact Expr.uses_eq_false_of_all (and_eq_true_iff.mp hAll).2
  | not inner => exact Pattern.uses_eq_false_of_all (and_eq_true_iff.mp hAll).2
  | and lhs rhs | or lhs rhs =>
    simp only [Bool.and_eq_true] at hAll
    obtain ⟨-, hLeft, hRight⟩ := hAll
    exact or_eq_false_iff.mpr ⟨Pattern.uses_eq_false_of_all hLeft, Pattern.uses_eq_false_of_all hRight⟩
  | discard | var | recursive | declaration => rfl

end

end Mentions

/-! ## What is noted -/

namespace Lower

open Track

variable {α β : Type}

def Noted (state : Tracked Gathered) (id : SpecialId) : Prop := state.gathered.ids.has id = true

/-- An action at a site leaves the scope and what has been noted as they are, but for coordinates: it may note some
only if `may` says so, provided that all is clear, and it does note them if `must` says so. -/
structure Uses (site : Site) (id : SpecialId) (Clear : Prop) (may must : Bool) (action : Lower α) : Prop where
  stays : ∀ state, state.scope = site.scope → (action state).2.scope = site.scope
  keeps : ∀ state, state.scope = site.scope → Noted state id → Noted (action state).2 id
  bounded : Clear → ∀ state, state.scope = site.scope → Noted (action state).2 id →
    Noted state id ∨ site.shows id.source = true ∧ may = true
  noted : ∀ state, state.scope = site.scope → site.shows id.source = true → must = true → Noted (action state).2 id

namespace Uses

variable {site : Site} {id : SpecialId} {Clear : Prop} {may must may' must' : Bool}

variable {action first : Lower α} {next : α → Lower β} {other : Site}

theorem of_eq (hScope : ∀ st, (action st).2.scope = st.scope)
    (hIds : ∀ st, (action st).2.gathered.ids = st.gathered.ids) : Uses site id Clear false false action where
  stays st hSt := (hScope st).trans hSt
  keeps st _ hNoted := by
    unfold Noted
    rwa [hIds st]
  bounded _ st _ hNoted := by
    unfold Noted at hNoted
    rw [hIds st] at hNoted
    exact .inl hNoted
  noted _ _ _ hMust := nomatch hMust

theorem pure (val : α) : Uses site id Clear false false (Pure.pure val) := .of_eq (fun _ => rfl) fun _ => rfl

theorem get : Uses site id Clear false false MonadState.get := .of_eq (fun _ => rfl) fun _ => rfl

theorem look (ctx : LowerContext) (ask : Site → Recall α) : Uses site id Clear false false (look ctx ask) :=
  .of_eq (fun _ => rfl) fun _ => rfl

theorem gather {change : Gathered → Gathered} (hIds : ∀ gathered, (change gathered).ids = gathered.ids) :
    Uses site id Clear false false (gather change) :=
  .of_eq (fun _ => rfl) fun st => hIds st.gathered

theorem mono (hAction : Uses site id Clear may must action)
    (hMay : Clear → site.shows id.source = true → may = true → may' = true)
    (hMust : site.shows id.source = true → must' = true → must = true) : Uses site id Clear may' must' action where
  stays := hAction.stays
  keeps := hAction.keeps
  bounded hClear st hSt hNoted :=
    (hAction.bounded hClear st hSt hNoted).imp_right fun ⟨hShows, hBound⟩ => ⟨hShows, hMay hClear hShows hBound⟩
  noted st hSt hShows hBound := hAction.noted st hSt hShows (hMust hShows hBound)

theorem bind (hFirst : Uses site id Clear may must first) (hNext : ∀ val, Uses site id Clear may' must' (next val)) :
    Uses site id Clear (may || may') (must || must') (first >>= next) where
  stays st hSt := (hNext _).stays _ (hFirst.stays st hSt)
  keeps st hSt hNoted := (hNext _).keeps _ (hFirst.stays st hSt) (hFirst.keeps st hSt hNoted)
  bounded hClear st hSt hNoted := by
    rcases (hNext _).bounded hClear _ (hFirst.stays st hSt) hNoted with hMiddle | ⟨hShows, hBound⟩
    · refine (hFirst.bounded hClear st hSt hMiddle).imp_right fun ⟨hShows, hBound⟩ => ⟨hShows, ?_⟩
      rw [hBound, Bool.true_or]
    · exact .inr ⟨hShows, by rw [hBound, Bool.or_true]⟩
  noted st hSt hShows hBound := by
    rcases Bool.or_eq_true_iff.mp hBound with hThis | hThat
    · exact (hNext _).keeps _ (hFirst.stays st hSt) (hFirst.noted st hSt hShows hThis)
    · exact (hNext _).noted _ (hFirst.stays st hSt) hShows hThat

/-- An action that notes nothing comes first. -/
theorem after (hFirst : Uses site id Clear false false first)
    (hNext : ∀ val, Uses site id Clear may must (next val)) : Uses site id Clear may must (first >>= next) :=
  hFirst.bind hNext

/-- An action that notes nothing comes last. -/
theorem before (hFirst : Uses site id Clear may must first)
    (hNext : ∀ val, Uses site id Clear false false (next val)) : Uses site id Clear may must (first >>= next) := by
  have hBoth := hFirst.bind hNext
  rwa [Bool.or_false, Bool.or_false] at hBoth

theorem map {result : α → β} (hFirst : Uses site id Clear may must first) :
    Uses site id Clear may must (do let val ← first; Pure.pure (result val)) :=
  hFirst.before fun _ => .pure _

theorem ite {test : Prop} [Decidable test] {second : Lower α} (hFirst : Uses site id Clear may must first)
    (hSecond : Uses site id Clear may must second) : Uses site id Clear may must (if test then first else second) := by
  split
  · exact hFirst
  · exact hSecond

/-- What notes nothing does so anywhere. -/
theorem elsewhere (hAction : Uses other id Clear false false action) (hScope : other.scope = site.scope) :
    Uses site id Clear false false action where
  stays st hSt := (hAction.stays st (hSt.trans hScope.symm)).trans hScope
  keeps st hSt := hAction.keeps st (hSt.trans hScope.symm)
  bounded hClear st hSt hNoted :=
    .inl ((hAction.bounded hClear st (hSt.trans hScope.symm) hNoted).resolve_right nofun)
  noted _ _ _ hMust := nomatch hMust

/-- What notes nothing does so in a scope of its own. -/
theorem within (hAction : Uses other id Clear false false action) :
    Uses site id Clear false false (within (fun _ => other.scope) action) where
  stays _ hSt := hSt
  keeps st _ := hAction.keeps { st with scope := other.scope } rfl
  bounded hClear st _ hNoted :=
    .inl ((hAction.bounded hClear { st with scope := other.scope } rfl hNoted).resolve_right nofun)
  noted _ _ _ hMust := nomatch hMust

theorem of_has {meant : Bool} (hScope : ∀ st, (action st).2.scope = st.scope)
    (hHas : ∀ st, (action st).2.gathered.ids.has id = (st.gathered.ids.has id || meant))
    (hShows : meant = true → site.shows id.source = true) : Uses site id Clear meant meant action where
  stays st hSt := (hScope st).trans hSt
  keeps st _ hNoted := by
    unfold Noted at hNoted ⊢
    rw [hHas st, hNoted, Bool.true_or]
  bounded _ st _ hNoted := by
    unfold Noted at hNoted
    rw [hHas st] at hNoted
    exact (Bool.or_eq_true_iff.mp hNoted).imp_right fun hMeant => ⟨hShows hMeant, hMeant⟩
  noted st _ _ hMeant := by
    unfold Noted
    rw [hHas st, hMeant, Bool.or_true]

end Uses

/-! ## Coordinates -/

variable {name : String} {info : DispatchInfo}

theorem eq_name_of_ofName? (hInfo : DispatchInfo.ofName? name = some info) : name = info.name := by
  have hMem : (name, info) ∈ DispatchInfo.table := mem_of_lookup hInfo
  simp only [DispatchInfo.table, mem_cons, Prod.mk.injEq, not_mem_nil, or_false] at hMem
  rcases hMem with ⟨rfl, rfl⟩ | ⟨rfl, rfl⟩ | ⟨rfl, rfl⟩ | ⟨rfl, rfl⟩ | ⟨rfl, rfl⟩ <;> rfl

/-- Writing coordinates as a whole notes those that are meant by their name. -/
theorem has_dispatchValue (kind : ShaderKind) (hInfo : DispatchInfo.ofName? name = some info) (id : SpecialId)
    (st : Tracked Gathered) :
    (dispatchValue kind info st).2.gathered.ids.has id = (st.gathered.ids.has id || id.isMeant name none) := by
  rw [eq_name_of_ofName? hInfo]
  cases info with
  | threadIds | groupSize | dispatchSize => cases id <;> exact (Bool.or_false _).symm
  | groupIds =>
    cases id with
    | groupThreadIds => exact (Bool.or_true _).symm
    | groupIndex | gridIds => exact (Bool.or_false _).symm
  | gridIds =>
    cases id with
    | gridIds => exact (Bool.or_true _).symm
    | groupThreadIds | groupIndex => exact (Bool.or_false _).symm

/-- Writing a property of coordinates notes those that are meant by their name and the property. -/
theorem has_dispatchMember (kind : ShaderKind) (hInfo : DispatchInfo.ofName? name = some info) (property : String)
    (id : SpecialId) (st : Tracked Gathered) :
    (dispatchMember kind info property st).2.gathered.ids.has id =
      (st.gathered.ids.has id || id.isMeant name (some property)) := by
  rw [eq_name_of_ofName? hInfo]
  cases info with
  | threadIds =>
    unfold dispatchMember
    dsimp only
    split <;> cases id <;> exact (Bool.or_false _).symm
  | groupSize | dispatchSize => cases id <;> exact (Bool.or_false _).symm
  | groupIds =>
    by_cases hIdx : property = "Index"
    · subst hIdx
      cases id with
      | groupIndex => exact (Bool.or_true _).symm
      | groupThreadIds | gridIds => exact (Bool.or_false _).symm
    · have hOther : (property == "Index") = false := beq_false_of_ne hIdx
      have hSome : (some property == some "Index") = false := hOther
      unfold dispatchMember SpecialId.isMeant
      dsimp only
      rw [hOther, bne, hSome]
      cases id with
      | groupThreadIds => exact (Bool.or_true _).symm
      | groupIndex | gridIds => exact (Bool.or_false _).symm
  | gridIds =>
    cases id with
    | gridIds => exact (Bool.or_true _).symm
    | groupThreadIds | groupIndex => exact (Bool.or_false _).symm

/-! ## Expressions -/

section Expressions

variable {site : Site} {id : SpecialId} {Clear : Prop}

/-- Actions that note nothing can be put together. -/
theorem Uses.chained : Chained (First (Uses site id Clear false false)) where
  of_imp hFirst _ := hFirst
  pure := .pure
  bind := .bind
  struct _ := .gather fun _ => rfl

def siteIn (context : LowerContext) (scope : Scope) : Site := ⟨context.program, context.owner, scope⟩

/-- The values that lowering can pull in, with the types whose fields they can name: those of initial values are the
types that declare the fields, and default values are written where the call stands. -/
inductive PullsIn (program : Program) : String → Expr → Prop
  | default {owner : String} {value : Expr} : IsDefault program value → PullsIn program owner value
  | static {owner name : String} {value : Expr} :
      fieldInit? program owner name = some value → PullsIn program owner value
  | ownStatic {name : String} {value : Expr} :
      shaderInit? program name = some value → PullsIn program program.shader.name value

/-- Values that are pulled in note nothing, wherever that is done. -/
def PullsNothing (context : LowerContext) (id : SpecialId) (Clear : Prop) (pull : Pull) : Prop :=
  ∀ (owner : String) (hint : Option ValueType) (value : Expr), PullsIn context.program owner value →
    ∀ site : Site, Uses site id Clear false false (pull { context with owner } hint value)

variable {ctx : LowerContext} {scope : Scope} {pull : Pull} {may must : Bool}

/-- An action looks at its site first. -/
theorem Uses.atSite {α : Type} {next : Site → Lower α}
    (hNext : Uses (siteIn ctx scope) id Clear may must (next (siteIn ctx scope))) :
    Uses (siteIn ctx scope) id Clear may must (Lower.site ctx >>= next) := by
  have hRun : ∀ st : Tracked Gathered, st.scope = scope →
      (Lower.site ctx >>= next) st = next (siteIn ctx scope) st := by
    rintro st rfl
    rfl
  refine ⟨fun st hSt => ?_, fun st hSt => ?_, fun hClear st hSt => ?_, fun st hSt => ?_⟩ <;> rw [hRun st hSt]
  · exact hNext.stays st hSt
  · exact hNext.keeps st hSt
  · exact hNext.bounded hClear st hSt
  · exact hNext.noted st hSt

theorem uses_externalStatic (hPull : PullsNothing ctx id Clear pull) (owner name : String) :
    Uses site id Clear false false (externalStatic pull ctx owner name) := by
  have hDeclare : First (Uses site id Clear false false) True (declareStatic pull ctx owner name)
      (declareStatic pull (ctx.under (.standard, false, none)) owner name) := by
    refine Uses.chained.declareStatic owner name (fun _ => .gather fun _ => rfl) fun type init hInit => ?_
    have hStart : Uses (siteIn ctx .empty) id Clear false false
        (staticInit (pull { ctx with owner } (some type)) init) :=
      First.twice (Uses.chained.staticInit fun val hVal _ =>
        hPull owner (some type) val (.static (hInit ▸ hVal)) _)
    exact .within hStart
  exact .after .get fun _ => .ite (.pure _) (.after (.gather fun _ => rfl) fun _ => hDeclare)

theorem uses_ident (hPull : PullsNothing ctx id Clear pull) (span : Span) (name : String) :
    Uses (siteIn ctx scope) id Clear (id.isMeant name none) (id.isMeant name none)
      (ident pull ctx (.ident span name) name) := by
  -- Where the name refers to no coordinates it is not one that is meant and not hidden.
  have hNothing : ∀ {action : Lower OutExpr}, (siteIn ctx scope).dispatchInfo? (.ident span name) = none →
      Uses (siteIn ctx scope) id Clear false false action →
        Uses (siteIn ctx scope) id Clear (id.isMeant name none) (id.isMeant name none) action :=
    fun hNone hAction => hAction.mono (fun _ _ hMay => nomatch hMay) fun hShows hMeant =>
      absurd hMeant (Site.not_isMeant_of_dispatchInfo? hNone hShows)
  unfold ident
  refine .atSite ?_
  split
  · rename_i hScope
    refine hNothing ?_ (.pure _)
    simp [Site.dispatchInfo?, Expr.ident?, hScope]
  · split
    · rename_i info hInfo
      exact .of_has (fun _ => by cases info <;> rfl)
        (has_dispatchValue _ (Site.dispatchInfo?_ident_eq_some_iff.mp hInfo).2 id) (Site.shows_of_dispatchInfo? hInfo)
    · rename_i hInfo
      refine hNothing hInfo ?_
      split
      · exact .ite (uses_externalStatic hPull _ name) (.pure _)
      · exact .pure _

theorem uses_staticMember (hPull : PullsNothing ctx id Clear pull) (path name : String) :
    Uses site id Clear false false (staticMember pull ctx path name) := by
  unfold staticMember
  split
  · exact .pure _
  · exact .pure _
  · split
    · exact .ite (.ite (.pure _) (uses_externalStatic hPull _ name)) (.pure _)
    · exact .pure _

variable {write : Lower OutExpr} {typed : Bool} {prog : Program} {hint : Option ValueType}

theorem uses_property (target : Expr) (name : String) (hWrite : Uses site id Clear may must write) :
    Uses site id Clear may must (property ctx target name write) :=
  .after (.look ctx _) fun _ => .map hWrite

/-- A member of what is no name of coordinates: what stands before it is written unless it is a path. -/
theorem uses_plainMember (hPull : PullsNothing ctx id Clear pull) {target : Expr} (name : String)
    (hWrite : Uses (siteIn ctx scope) id Clear may must write) (hPath : ∀ path, target.path? = some path → (siteIn
      ctx scope).startsAtVariable path = true → (siteIn ctx scope).shows id.source = true → may = false) :
    Uses (siteIn ctx scope) id Clear (target.path?.isNone && may) (target.path?.isNone && must)
      (plainMember pull ctx target name write) := by
  unfold plainMember
  refine .atSite ?_
  cases hTarget : target.path? with
  | none => exact uses_property target name hWrite
  | some path =>
    dsimp only
    split
    · exact uses_staticMember hPull path name
    · rename_i hVariable
      have hStarts : (siteIn ctx scope).startsAtVariable path = true := by simpa using hVariable
      split
      · exact .after (.gather fun _ => rfl) fun _ => .pure _
      · refine (uses_property target name hWrite).mono (fun _ hShows hMay => ?_) fun _ hMust => nomatch hMust
        rw [hPath path hTarget hStarts hShows] at hMay
        cases hMay

theorem uses_member (hPull : PullsNothing ctx id Clear pull) (span : Span) (target : Expr) (name : String)
    (conditional : Bool) (hWrite : Uses (siteIn ctx scope) id Clear (target.uses ctx.program id true true)
      (target.uses ctx.program id false false) write) : Uses (siteIn ctx scope) id Clear
      ((Expr.member span target name conditional).uses ctx.program id true true)
      ((Expr.member span target name conditional).uses ctx.program id false typed)
      (member pull ctx target name write) := by
  unfold member Expr.uses
  refine .atSite ?_
  cases target with
  | ident start whole =>
    cases hInfo : (siteIn ctx scope).dispatchInfo? (.ident start whole) with
    | some info =>
      have hScope : ∀ st : Tracked Gathered,
          (dispatchMember ctx.program.kind info name st).2.scope = st.scope := by
        intro st
        cases info with
        | threadIds | groupIds =>
          unfold dispatchMember
          dsimp only
          split <;> rfl
        | gridIds | groupSize | dispatchSize => rfl
      exact .of_has hScope (has_dispatchMember _ (Site.dispatchInfo?_ident_eq_some_iff.mp hInfo).2 name id)
        (Site.shows_of_dispatchInfo? hInfo)
    | none =>
      refine .mono (uses_plainMember hPull name hWrite fun _ _ _ hShows => ?_) (fun _ _ hMay => nomatch hMay)
        fun hShows hMeant => absurd hMeant (Site.not_isMeant_of_dispatchInfo? hInfo hShows)
      unfold Expr.uses
      exact Bool.not_eq_true _ |>.mp (Site.not_isMeant_of_dispatchInfo? hInfo hShows)
  | selfRef => exact .pure _
  | _ =>
    refine uses_plainMember hPull name hWrite fun path hPath hStarts hShows => Bool.not_eq_true _ |>.mp fun hMay => ?_
    rw [Expr.startsAtVariable_eq_false hPath rfl hMay hShows] at hStarts
    cases hStarts

theorem usesArgs_eq_false_of_matrixElements? {loose : Bool} {args : List Argument} {elements : String}
    (hElements : matrixElements? args = some elements) : usesArgs prog id loose args = false := by
  have hAll : ∀ (args : List Argument) places, (args.mapM fun arg => Swizzle.index? arg.value) = some places →
      usesArgs prog id loose args = false := by
    intro args
    induction args with
    | nil => exact fun _ _ => by rw [usesArgs]
    | cons arg rest ih =>
      intro places hPlaces
      rw [mapM_cons] at hPlaces
      obtain ⟨place, hPlace, hRest⟩ := Option.bind_eq_some_iff.mp hPlaces
      obtain ⟨others, hOthers, -⟩ := Option.bind_eq_some_iff.mp hRest
      have hVal : (Swizzle.index? arg.value).isSome = true := by
        rw [hPlace]
        rfl
      match arg with
      | ⟨_, _, val⟩ => rw [usesArgs, Expr.uses_eq_false_of_index? hVal, ih others hOthers, Bool.or_false]
  unfold matrixElements? at hElements
  split at hElements
  · cases hElements
  · rename_i hPlaces
    exact hAll args _ hPlaces
  · cases hElements

theorem uses_index (span : Span) (target : Expr) (args : List Argument) {indices : Lower (List OutExpr)} (hWrite : Uses
      (siteIn ctx scope) id Clear (target.uses ctx.program id true true) (target.uses ctx.program id false
      false) write) (hIndices : Uses (siteIn ctx scope) id Clear (usesArgs ctx.program id true args) (usesArgs
      ctx.program id false args) indices) :
    Uses (siteIn ctx scope) id Clear ((Expr.index span target args).uses ctx.program id true true)
      ((Expr.index span target args).uses ctx.program id false typed) (index ctx target args write indices) := by
  have hPlain : Uses (siteIn ctx scope) id Clear
      (target.uses ctx.program id true true || usesArgs ctx.program id true args)
      (target.uses ctx.program id false false || usesArgs ctx.program id false args)
      (plainIndex ctx target args write indices) := by
    unfold plainIndex
    refine .after (.look ctx _) fun type => ?_
    split
    · rename_i hElements
      rw [usesArgs_eq_false_of_matrixElements? hElements, usesArgs_eq_false_of_matrixElements? hElements, Bool.or_false,
        Bool.or_false]
      exact .map hWrite
    · exact .bind hWrite fun _ => .map hIndices
  unfold index Expr.uses
  refine .atSite ?_
  split
  · -- The name of a resource is not that of coordinates unless it hides them.
    rename_i name res hRes
    obtain ⟨whole, hTarget, hFound⟩ := Option.bind_eq_some_iff.mp hRes
    obtain ⟨_, hField, hPair⟩ := Option.map_eq_some_iff.mp hFound
    have hNever : (siteIn ctx scope).shows id.source = true →
        target.uses ctx.program id false false = false := by
      intro hShows
      refine Bool.not_eq_true _ |>.mp fun hUses => ?_
      cases target with
      | ident =>
        unfold Expr.uses at hUses
        cases hTarget
        rw [SpecialId.eq_source_of_isMeant hUses, Site.resource?, Site.field?_eq_none_of_shows hShows] at hField
        cases hField
      | _ => cases hTarget
    refine .mono (.before hIndices fun _ => .ite (.pure _) (.pure _)) (fun _ _ hMay => ?_) fun hShows hMust => ?_
    · rw [hMay, Bool.or_true]
    · rwa [hNever hShows, Bool.false_or] at hMust
  · exact hPlain

theorem uses_call (hPull : PullsNothing ctx id Clear pull) (args : List Argument) (callee : Callee)
    {write : List (Option ValueType) → Lower (List OutExpr)}
    (hWrite : ∀ hints, Uses site id Clear may must (write hints)) :
    Uses site id Clear may must (call pull ctx args callee write) := by
  cases callee with
  | source key =>
    simp only [call]
    split
    · rename_i method hMethod
      refine .before (hWrite _) fun values => .map (.map (First.twice (Uses.chained.fillDefaults _ ?_)))
      intro entry hEntry val hVal
      have hDefault : IsDefault ctx.program val := ⟨key, method, entry.2, hMethod, (of_mem_zip hEntry).2, hVal⟩
      exact hPull ctx.owner none val (.default hDefault) site
    · exact .map (hWrite _)
  | intrinsic | localFunction | resourceMember | unknown | ambiguous => exact .map (hWrite _)

theorem writtenOr_eq_none_iff {type : Option TypeExpr} :
    writtenOr prog type hint = none ↔ (type.bind prog.valueType?).isSome = false ∧ hint = none := by
  unfold writtenOr
  cases type.bind prog.valueType? <;> simp

theorem untyped (hint : Option ValueType) : false = true → hint ≠ none := nofun

variable (hPull : PullsNothing ctx id Clear pull) (scope)

include hPull

set_option linter.unusedSectionVars false

mutual

/-- Writing an expression notes the coordinates that it uses, at the least as `typed` says and at most as if a type
were expected everywhere. -/
theorem uses_exprWith {hint : Option ValueType} {typed : Bool} (hTyped : typed = true → hint ≠ none) (val : Expr) :
    Uses (siteIn ctx scope) id Clear (val.uses ctx.program id true true)
      (val.uses ctx.program id false typed) (exprWith pull ctx hint val) := by
  cases val with
  | ident span name =>
    unfold exprWith Expr.uses
    exact uses_ident hPull span name
  | member span target name conditional =>
    unfold exprWith
    exact uses_member hPull span target name conditional (uses_exprWith (untyped none) target)
  | index span target args =>
    unfold exprWith
    exact uses_index span target args (uses_exprWith (untyped none) target) (uses_argsWith [] args)
  | call span callee types args =>
    unfold exprWith Expr.uses
    exact .after (.of_eq (fun _ => rfl) fun _ => rfl) fun found =>
      uses_call hPull args found fun hints => uses_argsWith hints args
  | unary _ _ operand =>
    unfold exprWith Expr.uses
    exact .map (uses_exprWith (untyped none) operand)
  | post _ op operand =>
    unfold exprWith Expr.uses
    have hOperand := uses_exprWith (untyped none) operand
    cases op with
    | nullForgiving => exact hOperand
    | inc | dec => exact .map hOperand
  | binary _ _ lhs rhs =>
    unfold exprWith Expr.uses
    exact .bind (uses_exprWith (untyped none) lhs) fun _ => .map (uses_exprWith (untyped none) rhs)
  | assign _ _ target val =>
    unfold exprWith Expr.uses
    exact .after (.look ctx _) fun expected => .bind (uses_exprWith (untyped none) target) fun _ =>
      .map (uses_exprWith (untyped _) val)
  | conditional _ cond thenExpr elseExpr =>
    unfold exprWith Expr.uses
    exact .bind (uses_exprWith (untyped none) cond) fun _ =>
      .bind (uses_exprWith hTyped thenExpr) fun _ => .map (uses_exprWith hTyped elseExpr)
  | cast _ type operand =>
    unfold exprWith Expr.uses
    exact .after (Uses.chained.spellWritten _ type).alone fun _ => .map (uses_exprWith (untyped none) operand)
  | asType _ operand | checked _ _ operand =>
    unfold exprWith Expr.uses
    exact uses_exprWith (untyped none) operand
  | paren _ inner =>
    unfold exprWith Expr.uses
    exact .map (uses_exprWith hTyped inner)
  | construct _ type args =>
    unfold exprWith Expr.uses
    have hArgs := uses_argsWith [] args
    split
    · split
      · rename_i hEmpty
        rw [List.isEmpty_iff] at hEmpty
        subst hEmpty
        unfold usesArgs
        exact .mono (Uses.chained.zero _).alone (fun _ _ hMay => nomatch hMay) fun _ hMust => by simp at hMust
      · exact .mono (.after (Uses.chained.spell _).alone fun _ => .map hArgs) (fun _ _ hMay => by simp [hMay]) fun _ hMust =>
          (and_eq_true_iff.mp hMust).2
    · rename_i hNone
      obtain ⟨hWritten, hHint⟩ := writtenOr_eq_none_iff.mp hNone
      refine .mono (.pure _) (fun _ _ hMay => nomatch hMay) fun _ hMust => ?_
      rw [hWritten, Bool.false_or] at hMust
      exact absurd hHint (hTyped (and_eq_true_iff.mp hMust).1)
  | newArray _ _ _ init =>
    unfold exprWith Expr.uses
    cases init with
    | none => exact .pure _
    | some items => exact .map (uses_itemsWith _ items)
  | arrayInit _ items =>
    unfold exprWith Expr.uses
    exact .map (uses_itemsWith _ items)
  | defaultOf _ type =>
    unfold exprWith Expr.uses
    exact (Uses.chained.zero _).alone
  | isPattern _ operand pattern =>
    unfold exprWith Expr.uses
    exact .bind (uses_exprWith (untyped none) operand) fun subject => uses_patternWith subject pattern
  | literal | selfRef | typeWord | anonymous | sizeOfType | typeOfType | stackAlloc | await | throwing | refTo | range
    | tuple | query =>
      unfold exprWith Expr.uses
      exact .pure _

theorem uses_argsWith (hints : List (Option ValueType)) (args : List Argument) :
    Uses (siteIn ctx scope) id Clear (usesArgs ctx.program id true args)
      (usesArgs ctx.program id false args) (argsWith pull ctx hints args) := by
  unfold argsWith usesArgs
  match args with
  | [] => exact .pure _
  | ⟨_, _, val⟩ :: rest =>
    exact .bind (uses_exprWith (untyped _) val) fun _ => .map (uses_argsWith _ rest)

theorem uses_itemsWith (hint : Option ValueType) (items : List Expr) :
    Uses (siteIn ctx scope) id Clear (usesItems ctx.program id true items)
      (usesItems ctx.program id false items) (itemsWith pull ctx hint items) := by
  unfold itemsWith usesItems
  cases items with
  | nil => exact .pure _
  | cons item rest =>
    exact .bind (uses_exprWith (untyped hint) item) fun _ => .map (uses_itemsWith hint rest)

theorem uses_patternWith (subject : OutExpr) (pattern : Pattern) :
    Uses (siteIn ctx scope) id Clear (pattern.uses ctx.program id true) (pattern.uses ctx.program id false)
      (patternWith pull ctx subject pattern) := by
  unfold patternWith Pattern.uses
  cases pattern with
  | constant val | relational _ _ val => exact .map (uses_exprWith (untyped none) val)
  | not inner => exact .map (uses_patternWith subject inner)
  | and lhs rhs | or lhs rhs =>
    exact .bind (uses_patternWith subject lhs) fun _ => .map (uses_patternWith subject rhs)
  | discard | var | recursive | declaration => exact .pure _

end

omit hPull

/-- No value that can be pulled in uses coordinates, unless a field hides them. -/
def SparesPulled (program : Program) (id : SpecialId) : Prop :=
  ∀ owner value, PullsIn program owner value → program.fieldType? owner id.source = none →
    value.uses program id true true = false

theorem pullsNothing_exprOn (hClear : Clear → SparesPulled ctx.program id) (fuel : Nat) :
    PullsNothing ctx id Clear (exprOn fuel) := by
  induction fuel generalizing ctx with
  | zero => exact fun _ _ _ _ _ => .pure _
  | succ fuel ih =>
    intro owner hint val hPulls site
    have hPull : PullsNothing { ctx with owner } id Clear (exprOn fuel) := ih hClear
    have hUses := uses_exprWith site.scope hPull (untyped hint) val
    refine .elsewhere (hUses.mono (fun hAll hShows hMay => ?_) fun _ hMust => nomatch hMust) rfl
    rw [hClear hAll owner val hPulls (Site.shows_iff.mp hShows).2] at hMay
    cases hMay

theorem uses_hinted (hClear : Clear → SparesPulled ctx.program id) (scope : Scope)
    (hTyped : typed = true → hint ≠ none) (val : Expr) :
    Uses (siteIn ctx scope) id Clear (val.uses ctx.program id true true)
      (val.uses ctx.program id false typed) (hinted ctx hint val) :=
  .map (uses_exprWith scope (pullsNothing_exprOn hClear _) hTyped val)

end Expressions

end Lower

end Shaderlift
