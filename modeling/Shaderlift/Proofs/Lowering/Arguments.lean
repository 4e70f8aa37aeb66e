import Mathlib.Data.List.Nodup
import Shaderlift.Lowering.Expr

/-!
# Arguments land on their parameters

A positional argument is bound to the parameter at its own position and a named one to the parameter of its name; this
is how a call is matched with the methods that could take it. A call is written by another count, of the positional
arguments alone. The two agree exactly if no positional argument stands after a named one (`argSlots_eq_bindings_iff`),
and an argument that is written lands on the parameter that the count gives it (`exprWith_call_lands`).

A call of a local function is written with its arguments as they stand: neither names nor defaults are looked at.
-/

namespace Shaderlift

open List

namespace Lower

/-- The position of the parameter that an argument is bound to. -/
def binding? (method : MethodDecl) (position : Nat) (arg : Argument) : Option Nat :=
  match arg.name with
  | some name => method.params.findIdx? fun param => param.name == name
  | none => if position < method.params.length then some position else none

def bindings (method : MethodDecl) (first : Nat) (args : List Argument) : List (Option Nat) :=
  (args.zipIdx first).map fun entry => binding? method entry.2 entry.1

/-- The rules of a call: every argument has a parameter, no two have the same, and a parameter without argument has a
default value. -/
structure Binds (method : MethodDecl) (slots : List (Option Nat)) : Prop where
  bound : ∀ slot ∈ slots, ∃ j < method.params.length, slot = some j
  once : slots.Nodup
  filled : ∀ j (hj : j < method.params.length), some j ∉ slots → method.params[j].default.isSome = true

instance (method : MethodDecl) (slots : List (Option Nat)) : Decidable (Binds method slots) :=
  decidable_of_iff
    ((∀ slot ∈ slots, ∃ j < method.params.length, slot = some j) ∧ slots.Nodup ∧
      ∀ j (hj : j < method.params.length), some j ∉ slots → method.params[j].default.isSome = true)
    ⟨fun hRules => ⟨hRules.1, hRules.2.1, hRules.2.2⟩, fun hBinds => ⟨hBinds.bound, hBinds.once, hBinds.filled⟩⟩

/-- No positional argument stands after a named one. -/
def PositionalFirst (args : List Argument) : Prop :=
  args.Pairwise fun earlier later => later.name = none → earlier.name = none

/-- The parameters of a method, each with the value of the argument that has its position. -/
def landing (method : MethodDecl) (slots : List (Option Nat)) (values : List OutExpr) : List (Option OutExpr × Param) :=
  method.params.mapIdx fun j param => ((slots.zip values).lookup (some j), param)

/-- Texts that land on parameters: one for each in order, the value that it was given or else its default value, which
is written when it is reached. -/
inductive Lands (write : Expr → Lower OutExpr) :
    List (Option OutExpr × Param) → Tracked Gathered → List OutExpr → Tracked Gathered → Prop
  | nil (state : Tracked Gathered) : Lands write [] state [] state
  | given {rest : List (Option OutExpr × Param)} {state after : Tracked Gathered} {texts : List OutExpr} (value : OutExpr)
      (param : Param) (hRest : Lands write rest state texts after) :
      Lands write ((some value, param) :: rest) state (value :: texts) after
  | filled {rest : List (Option OutExpr × Param)} {state after : Tracked Gathered} {texts : List OutExpr} {param : Param}
      {value : Expr} (hValue : param.default = some value) (hRest : Lands write rest (write value state).2 texts after) :
      Lands write ((none, param) :: rest) state ((write value state).1 :: texts) after

variable {entries : List (Option OutExpr × Param)} {values : List OutExpr}

theorem Lands.length_eq {write : Expr → Lower OutExpr}
    {st after : Tracked Gathered} {texts : List OutExpr} (hLands : Lands write entries st texts after) :
    texts.length = entries.length := by
  induction hLands with
  | nil => rfl
  | given val param hRest ih => simp [ih]
  | filled hVal hRest ih => simp [ih]

/-! ## Two counts of positions -/

variable (method : MethodDecl)

theorem bindings_cons (pos : Nat) (arg : Argument) (rest : List Argument) :
    bindings method pos (arg :: rest) = binding? method pos arg :: bindings method (pos + 1) rest := rfl

/-- The choice among methods looks at the parameter that an argument is bound to. -/
theorem paramFor?_eq_binding? (pos : Nat) (arg : Argument) (type : Option ValueType) :
    Program.paramFor? method pos ⟨arg.name, type⟩ = (binding? method pos arg).bind (method.params[·]?) := by
  unfold Program.paramFor? binding?
  cases arg.name with
  | some name => exact List.find?_eq_bind_findIdx?_getElem?
  | none =>
    dsimp only
    split
    · rfl
    · rename_i hLast
      exact List.getElem?_eq_none (Nat.le_of_not_lt hLast)

/-- Behind a named argument the counts differ, so they agree on named arguments alone. -/
theorem argSlots_eq_bindings_of_lt {count pos : Nat} (hLess : count < pos) (args : List Argument) :
    argSlots method count args = bindings method pos args ↔ ∀ arg ∈ args, arg.name ≠ none := by
  induction args generalizing count pos with
  | nil => simp [argSlots, bindings]
  | cons arg rest ih =>
    rw [bindings_cons, forall_mem_cons, argSlots, binding?]
    cases hName : arg.name with
    | some name => simp [ih (Nat.lt_succ_of_lt hLess)]
    | none =>
      have hNe : (if pos < method.params.length then some pos else none) ≠ some count := by
        split
        · simp only [ne_eq, Option.some.injEq]; omega
        · simp
      simp [hNe.symm]

variable {method}

theorem argSlots_eq_bindings_iff {pos : Nat} {args : List Argument}
    (hBound : ∀ slot ∈ bindings method pos args, ∃ j < method.params.length, slot = some j) :
    argSlots method pos args = bindings method pos args ↔ PositionalFirst args := by
  induction args generalizing pos with
  | nil => simp [argSlots, bindings, PositionalFirst]
  | cons arg rest ih =>
    have hNext := argSlots_eq_bindings_of_lt method (Nat.lt_succ_self pos) rest
    rw [bindings_cons] at hBound ⊢
    obtain ⟨⟨j, hj, hSlot⟩, hRest⟩ := forall_mem_cons.mp hBound
    unfold PositionalFirst at ih ⊢
    rw [pairwise_cons, argSlots]
    unfold binding? at hSlot ⊢
    cases hName : arg.name with
    | some name =>
      -- From here on no argument may be positional, and then the rest is ordered.
      simp only [List.cons.injEq, true_and, reduceCtorEq, imp_false]
      refine ⟨fun hSame => ⟨hNext.mp hSame, ?_⟩, fun hFirst => hNext.mpr hFirst.1⟩
      exact pairwise_of_forall_mem_list fun _ _ later hLater hNone => absurd hNone (hNext.mp hSame later hLater)
    | none =>
      have hPos : pos < method.params.length := by
        by_contra hLast
        simp [hName, hLast] at hSlot
      simpa [hPos] using ih hRest

/-! ## Placing and filling -/

theorem placeArgs_of_nodup {filled : List (Option OutExpr)} (extra : List OutExpr) {entries : List (Option Nat × OutExpr)}
    (hBound : ∀ entry ∈ entries, ∃ j < filled.length, entry.1 = some j) (hOnce : (entries.map Prod.fst).Nodup) :
    placeArgs filled extra entries = (filled.mapIdx fun j old => (entries.lookup (some j)).or old, extra) := by
  induction entries generalizing filled with
  | nil => simp [placeArgs, mapIdx_eq_zipIdx_map]
  | cons entry rest ih =>
    obtain ⟨slot, val⟩ := entry
    obtain ⟨⟨p, hp, hSlot⟩, hRest⟩ := forall_mem_cons.mp hBound
    obtain ⟨hNew, hOthers⟩ := nodup_cons.mp hOnce
    dsimp only at hSlot
    subst hSlot
    rw [placeArgs, if_pos hp, ih (by simpa using hRest) hOthers]
    congr 1
    apply ext_getElem (by simp)
    intro j hj _
    simp only [getElem_mapIdx, getElem_set, lookup_cons]
    by_cases hSame : p = j
    · subst hSame
      have hNone : rest.lookup (some p) = none := by
        rw [lookup_eq_none_iff]
        intro other hOther
        simpa using fun hKey => hNew (mem_map.mpr ⟨other, hOther, hKey.symm⟩)
      simp [hNone]
    · have hOther : (some j == some p) = false := by simpa using fun hKey => hSame hKey.symm
      simp [hSame, hOther]

theorem fillDefaults_lands (write : Expr → Lower OutExpr)
    (hFilled : ∀ entry ∈ entries, entry.1 = none → entry.2.default.isSome = true) (st : Tracked Gathered) :
    Lands write entries st (fillDefaults write entries st).1 (fillDefaults write entries st).2 := by
  induction entries generalizing st with
  | nil => exact .nil st
  | cons entry rest ih =>
    obtain ⟨hEntry, hRest⟩ := forall_mem_cons.mp hFilled
    obtain ⟨given, param⟩ := entry
    cases given with
    | some val => exact .given val param (ih hRest st)
    | none =>
      obtain ⟨val, hVal⟩ := Option.isSome_iff_exists.mp (hEntry rfl)
      have hFill : fillDefaults write ((none, param) :: rest) =
          (do let written ← write val; pure (written :: (← fillDefaults write rest))) := by
        rw [fillDefaults, hVal]
      rw [hFill]
      exact .filled hVal (ih hRest (write val st).2)

/-- The values of a call, with positions by its rules, are put on the parameters of the method. -/
theorem methodArgs_lands (pull : Pull) (ctx : LowerContext) {slots : List (Option Nat)}
    (hLength : values.length = slots.length) (hBinds : Binds method slots) (st : Tracked Gathered) :
    Lands (pull ctx none) (landing method slots values) st
      (methodArgs pull ctx method slots values st).1 (methodArgs pull ctx method slots values st).2 := by
  have hKeys : (slots.zip values).map Prod.fst = slots := map_fst_zip (Nat.le_of_eq hLength.symm)
  have hPlaced : placeArgs (method.params.map fun _ => none) [] (slots.zip values) =
      (method.params.mapIdx fun j _ => (slots.zip values).lookup (some j), []) := by
    rw [placeArgs_of_nodup [] _ (hKeys.symm ▸ hBinds.once)]
    · rw [Prod.mk.injEq]
      exact ⟨ext_getElem (by simp) (by simp), rfl⟩
    · intro entry hEntry
      simpa using hBinds.bound entry.1 (hKeys ▸ mem_map_of_mem hEntry)
  have hZip : (method.params.mapIdx fun j _ => (slots.zip values).lookup (some j)).zip method.params =
      landing method slots values :=
    ext_getElem (by simp [landing]) (by simp [landing])
  have hFilled : ∀ entry ∈ landing method slots values, entry.1 = none → entry.2.default.isSome = true := by
    intro entry hEntry hNone
    obtain ⟨j, hj, rfl⟩ := mem_mapIdx.mp hEntry
    refine hBinds.filled j hj fun hMem => ?_
    rw [← hKeys] at hMem
    obtain ⟨other, hOther, hKey⟩ := mem_map.mp hMem
    simpa [hKey] using lookup_eq_none_iff.mp hNone other hOther
  have hRun : methodArgs pull ctx method slots values =
      (do pure ((← fillDefaults (pull ctx none) (landing method slots values)) ++ [])) := by
    unfold methodArgs
    rw [hPlaced]
    dsimp only
    rw [hZip]
  have hAll := fillDefaults_lands (pull ctx none) hFilled st
  rw [hRun]
  simpa using hAll

theorem length_argsWith (pull : Pull) (ctx : LowerContext) (hints : List (Option ValueType)) (args : List Argument)
    (st : Tracked Gathered) : (argsWith pull ctx hints args st).1.length = args.length := by
  induction args generalizing hints st with
  | nil => rfl
  | cons arg rest ih =>
    obtain ⟨name, passing, val⟩ := arg
    exact congrArg (· + 1) (ih hints.tail (exprWith pull ctx hints.head?.join val st).2)

theorem length_argSlots (pos : Nat) (args : List Argument) : (argSlots method pos args).length = args.length := by
  induction args generalizing pos with
  | nil => rfl
  | cons arg rest ih =>
    rw [argSlots]
    split <;> simp [ih]

theorem lookup_zip_range (values : List OutExpr) (first j : Nat) :
    (((List.range' first values.length).map some).zip values).lookup (some (first + j)) = values[j]? := by
  induction values generalizing first j with
  | nil => rfl
  | cons val rest ih =>
    rw [length_cons, List.range'_succ, map_cons, zip_cons_cons, lookup_cons]
    cases j with
    | zero => simp
    | succ j =>
      have hNext := ih (first + 1) j
      rw [show first + 1 + j = first + (j + 1) by omega] at hNext
      have hOther : (some (first + (j + 1)) == some first) = false := by simp
      simpa only [hOther, List.getElem?_cons_succ] using hNext

/-- Values that stand in the order of the parameters land on them as they are. -/
theorem lands_of_in_order (write : Expr → Lower OutExpr)
    (hLength : values.length = method.params.length) (st : Tracked Gathered) :
    Lands write (landing method ((List.range method.params.length).map some) values) st values st := by
  have hGiven : ∀ (entries : List (Option OutExpr × Param)) (given : List OutExpr),
      entries.map Prod.fst = given.map some → Lands write entries st given st := by
    intro entries
    induction entries with
    | nil =>
      intro given hNone
      rw [map_eq_nil_iff.mp hNone.symm]
      exact .nil st
    | cons entry rest ih =>
      intro given hSome
      cases given with
      | nil => cases hSome
      | cons val others =>
        obtain ⟨hVal, hRest⟩ := List.cons.inj hSome
        obtain ⟨found, param⟩ := entry
        dsimp only at hVal
        subst hVal
        exact .given val param (ih others hRest)
  apply hGiven
  apply ext_getElem (by simp [landing, hLength])
  intro j hj hj'
  have hLookup := lookup_zip_range values 0 j
  rw [Nat.zero_add, hLength, ← range_eq_range'] at hLookup
  simp only [length_map] at hj'
  simp [landing, hLookup, List.getElem?_eq_getElem hj']

/-! ## Calls -/

open Track

/-- A call of a method of the program, by its rules, is written with one argument for each parameter, the one that is
bound to it or its default value, if no positional argument stands after a named one. In any case the arguments land
by the count of positional arguments. The arguments of a local function stay as they are, so they land on its
parameters if they are in order and none is left out. -/
theorem exprWith_call_lands (pull : Pull) (context : LowerContext) (hint : Option ValueType) (span : Span) (callee : Expr)
    (types : List TypeExpr) (args : List Argument) (state : Tracked Gathered)
    (hBinds : Binds method (bindings method 0 args)) :
    let source := Expr.call span callee types args
    let found := meet context.program context.owner source callee args state
    let written := exprWith pull context hint source state
    let bound := bindings method 0 args
    let counted := argSlots method 0 args
    (∀ position arg, args[position]? = some arg → ∀ type,
      Program.paramFor? method position ⟨arg.name, type⟩ = bound[position]?.join.bind (method.params[·]?)) ∧
    (counted = bound ↔ PositionalFirst args) ∧
    (∀ key, found.1 = .source key → context.program.method? key = some method →
      let values := argsWith pull context (counted.map (slotHint context.program method)) args found.2
      ∃ texts, written.1 = .call (.ident (methodName context.program key)) texts ∧
        (PositionalFirst args → texts.length = method.params.length ∧
          Lands (pull context none) (landing method bound values.1) values.2 texts written.2) ∧
        (Binds method counted → Lands (pull context none) (landing method counted values.1) values.2 texts written.2)) ∧
    ∀ name, found.1 = .localFunction name →
      let values := argsWith pull context [] args found.2
      written = (.call (sourceName name) values.1, values.2) ∧ values.1.length = args.length ∧
        (bound = (List.range method.params.length).map some →
          Lands (pull context none) (landing method bound values.1) values.2 values.1 written.2) := by
  intro source found written bound counted
  have hWritten : written = call pull context args found.1 (fun hints => argsWith pull context hints args) found.2 := by
    simp only [written, source, exprWith]
    rfl
  have hCounted : counted = bound ↔ PositionalFirst args := argSlots_eq_bindings_iff hBinds.bound
  refine ⟨?_, hCounted, ?_, ?_⟩
  · intro position arg hArg type
    rw [paramFor?_eq_binding? method position arg type]
    simp [bound, bindings, hArg]
  · intro key hKey hMethod values
    have hLength : values.1.length = counted.length := (length_argsWith ..).trans (length_argSlots ..).symm
    have hCall : written = (.call (.ident (methodName context.program key))
        (methodArgs pull context method counted values.1 values.2).1,
          (methodArgs pull context method counted values.1 values.2).2) := by
      rw [hWritten, hKey, call]
      dsimp only
      rw [hMethod]
      rfl
    rw [hCall]
    have hLands := fun hRules : Binds method counted => methodArgs_lands pull context hLength hRules values.2
    refine ⟨_, rfl, fun hFirst => ?_, hLands⟩
    rw [← hCounted.mpr hFirst]
    have hOrder := hLands (hCounted.mpr hFirst ▸ hBinds)
    exact ⟨hOrder.length_eq.trans (by simp [landing]), hOrder⟩
  · intro name hName values
    have hCall : written = (.call (sourceName name) values.1, values.2) := by
      rw [hWritten, hName]
      rfl
    have hLength : values.1.length = args.length := length_argsWith ..
    refine ⟨hCall, hLength, fun hOrder => ?_⟩
    have hSame : args.length = method.params.length := by
      simpa [bound, bindings] using congrArg List.length hOrder
    rw [hCall, hOrder]
    exact lands_of_in_order _ (hLength.trans hSame) values.2

/-- A method with a parameter `x` and a parameter `y`. -/
def pairMethod : MethodDecl :=
  let number : TypeExpr := .named Span.origin "float" []
  ⟨⟨[], [.isStatic], number, none, "F", [],
    [⟨[], none, number, "x", none, Span.origin⟩, ⟨[], none, number, "y", none, Span.origin⟩], Span.origin⟩, none⟩

def pairContext : LowerContext :=
  let shader : TypeDecl := ⟨⟨[], [], .struct, "S", [], [], none, Span.origin⟩, [.method pairMethod]⟩
  { program :=
      { shader, kind := .compute, pixelType := none, entry := none, table := .empty, index := ⟨[⟨shader, []⟩]⟩,
        staticUsings := [] }
    model := default
    blank := .standard
    owner := "S"
    inEntry := true
    returnType := none }

/-- The arguments of a call with two arguments, the first of which has a name or not, and so the second. -/
def pairArgs (first second : Option String) : List Argument :=
  [⟨first, none, .literal Span.origin (.int "1" 1 .none)⟩, ⟨second, none, .literal Span.origin (.int "2" 2 .none)⟩]

def pairCall (first second : Option String) : Expr :=
  .call Span.origin (.ident Span.origin "F") [] (pairArgs first second)

/-- Named arguments are put in order. A positional argument after a named one takes its place, and it is lost. -/
theorem exprWith_call_lands_pairCall :
    let write := fun first second =>
      exprWith (exprOn 0) pairContext none (pairCall first second) (.start .empty .empty)
    (write (some "y") (some "x")).1.text = "F(2, 1)" ∧
    (Binds pairMethod (bindings pairMethod 0 (pairArgs (some "y") (some "x"))) ∧
      ∃ texts, (write (some "y") (some "x")).1 = .call (.ident "F") texts ∧ texts.length = 2) ∧
    (Binds pairMethod (bindings pairMethod 0 (pairArgs (some "x") none)) ∧
      argSlots pairMethod 0 (pairArgs (some "x") none) ≠ bindings pairMethod 0 (pairArgs (some "x") none) ∧
        (write (some "x") none).1.text = "F(2)") := by
  intro write
  have hSwapped : Binds pairMethod (bindings pairMethod 0 (pairArgs (some "y") (some "x"))) := by decide
  have hCall := (exprWith_call_lands (exprOn 0) pairContext none Span.origin (.ident Span.origin "F") []
    (pairArgs (some "y") (some "x")) (.start .empty .empty) hSwapped).2.2.1 ⟨"S", "F", 0⟩ rfl rfl
  obtain ⟨texts, hTexts, hLands, -⟩ := hCall
  have hFirst : PositionalFirst (pairArgs (some "y") (some "x")) := by simp [PositionalFirst, pairArgs]
  exact ⟨by decide, ⟨hSwapped, texts, hTexts, (hLands hFirst).1⟩, by decide, by decide, by decide⟩

end Lower

end Shaderlift
