import Mathlib.Data.List.Basic
import Shaderlift.Call.Callee

/-!
# The choice among methods of one name

What a call goes to is told from the declarations that take its arguments, without their places (`chosen?`). Being the
only one of some does not depend on their order, so the order in which a type declares its methods is of no account
(`choice_reordered`).
-/

namespace Shaderlift

open List

/-- The only item of a list. -/
def only? {α : Type} : List α → Option α
  | [item] => some item
  | _ => none

section Only

variable {α β : Type} {list other : List α} {item : α}

theorem only?_eq_some : only? list = some item ↔ list = [item] := by
  rcases list with _ | ⟨first, _ | ⟨second, rest⟩⟩ <;> simp [only?]

theorem only?_map (f : α → β) : only? (list.map f) = (only? list).map f := by
  rcases list with _ | ⟨first, _ | ⟨second, rest⟩⟩ <;> rfl

theorem only?_perm (hPerm : list.Perm other) : only? list = only? other := by
  ext item
  rw [only?_eq_some, only?_eq_some, ← perm_singleton, ← perm_singleton]
  exact ⟨hPerm.symm.trans, hPerm.trans⟩

end Only

namespace Program

variable {prog before after : Program} {owner name : String} {args : List CallArg} {index : Nat}
  {α : Type} {method : α → MethodDecl} {list other : List α}

/-- Keep what takes the arguments exactly or, if nothing does, up to the component type. -/
def taking (program : Program) (args : List CallArg) (method : α → MethodDecl) (list : List α) : List α :=
  let fitting (fits : ValueType → ValueType → Bool) := list.filter fun item => program.takes fits (method item) args
  if (fitting fitsExactly).isEmpty then fitting fitsShape else fitting fitsExactly

/-- Choose the only item, else the only one that takes the arguments, else the only one of these without default
values. -/
def chosen? (program : Program) (args : List CallArg) (method : α → MethodDecl) (list : List α) : Option α :=
  let found := program.taking args method list
  (only? list).or ((only? found).or (only? (found.filter fun item => (method item).params.length == args.length)))

theorem chosen?_map : (prog.chosen? args method list).map method = prog.chosen? args id (list.map method) := by
  have hTaking : prog.taking args id (list.map method) = (prog.taking args method list).map method := by
    simp only [taking, filter_map, isEmpty_map, Function.comp_def, id]
    split <;> rfl
  simp only [chosen?, hTaking, filter_map, only?_map, Option.map_or, Function.comp_def, id]

theorem chosen?_perm (hPerm : list.Perm other) : prog.chosen? args method list = prog.chosen? args method other := by
  have hTaking : (prog.taking args method list).Perm (prog.taking args method other) := by
    have hExact := hPerm.filter fun item => prog.takes fitsExactly (method item) args
    simp only [taking, hExact.isEmpty_eq]
    split
    · exact hPerm.filter _
    · exact hExact
  rw [chosen?, chosen?, only?_perm hPerm, only?_perm hTaking, only?_perm (hTaking.filter _)]

theorem mem_of_chosen? {item : α} (hChosen : prog.chosen? args method list = some item) : item ∈ list := by
  have hTaking : ∀ other ∈ prog.taking args method list, other ∈ list := by
    unfold taking
    dsimp only
    split <;> exact fun _ => mem_of_mem_filter
  simp only [chosen?, Option.or_eq_some_iff, only?_eq_some] at hChosen
  rcases hChosen with rfl | ⟨-, hOnly | ⟨-, hOnly⟩⟩
  · exact mem_singleton_self item
  · exact hTaking item (hOnly ▸ mem_singleton_self item)
  · exact hTaking item (mem_of_mem_filter (hOnly ▸ mem_singleton_self item))

theorem chooseAmong_eq (arity : Nat) (list : List (Nat × MethodDecl)) : chooseAmong arity list =
    ((only? list).or (only? (list.filter fun item => item.2.params.length == arity))).map Prod.fst := by
  unfold chooseAmong only?
  split
  · rfl
  · generalize list.filter _ = full
    rcases full with _ | ⟨first, _ | ⟨second, rest⟩⟩ <;> simp_all

theorem selectOverload_eq {list : List (Nat × MethodDecl)} (hMany : only? list = none) :
    prog.selectOverload list args = (prog.chosen? args Prod.snd list).map Prod.fst := by
  rw [chosen?, hMany, Option.none_or, ← chooseAmong_eq]
  unfold selectOverload taking
  dsimp only
  by_cases hExact : (list.filter fun item => prog.takes fitsExactly item.2 args) = []
  · by_cases hShape : (list.filter fun item => prog.takes fitsShape item.2 args) = []
    · simp [hExact, hShape, chooseAmong]
    · simp [hExact, hShape]
  · simp [hExact]

theorem sourceMethod?_eq : prog.sourceMethod? owner name args =
    let list := prog.overloads owner name args.length
    if list = [] then none
    else some (((prog.chosen? args Prod.snd list).map fun item => Callee.source ⟨owner, name, item.1⟩).getD
      (.ambiguous (Text.dotted owner name))) := by
  unfold sourceMethod?
  rcases prog.overloads owner name args.length with _ | ⟨first, _ | ⟨second, rest⟩⟩
  · rfl
  · rfl
  · dsimp only
    rw [selectOverload_eq rfl]
    cases prog.chosen? args Prod.snd (first :: second :: rest) <;> rfl

/-! ## What a call goes to -/

/-- The methods of a type that have a name and take a number of arguments, without their places. -/
def candidates (program : Program) (owner name : String) (arity : Nat) : List MethodDecl :=
  (program.methodsOf owner).filter (accepts · name arity)

/-- What a call goes to: nothing, one of several methods that cannot be told apart, or a declaration. -/
def choice (program : Program) (owner name : String) (args : List CallArg) : Option (Option MethodDecl) :=
  (program.sourceMethod? owner name args).map fun callee =>
    match callee with
    | .source key => program.method? key
    | _ => none

theorem map_snd_overloads (arity : Nat) :
    (prog.overloads owner name arity).map Prod.snd = prog.candidates owner name arity := by
  unfold candidates overloads
  rw [map_filterMap, ← filterMap_eq_filter]
  conv_rhs => rw [← zipIdx_map_fst 0 (prog.methodsOf owner), filterMap_map]
  congr 1
  funext place
  by_cases hAccepts : accepts place.1 name arity <;> simp [hAccepts, Option.guard]

theorem method?_of_mem_overloads {arity : Nat} {method : MethodDecl}
    (hMem : (index, method) ∈ prog.overloads owner name arity) : prog.method? ⟨owner, name, index⟩ = some method := by
  unfold overloads at hMem
  obtain ⟨⟨found, place⟩, hPlace, hAccepts⟩ := mem_filterMap.mp hMem
  have hFound : (prog.methodsOf owner)[place]? = some found := mem_zipIdx_iff_getElem?.mp hPlace
  simp only [accepts, Option.ite_none_right_eq_some, Bool.and_eq_true, Option.some.injEq, Prod.mk.injEq] at hAccepts
  obtain ⟨⟨⟨hName, -⟩, -⟩, rfl, rfl⟩ := hAccepts
  simp [method?, hFound, hName]

/-- A method wins among several: of those that take the arguments exactly, or up to the component type if none does,
it is the only one or the only one without default values. -/
def Wins (program : Program) (args : List CallArg) (methods : List MethodDecl) (method : MethodDecl) : Prop :=
  ∃ fits, (fits = fitsExactly ∨ fits = fitsShape ∧ ∀ other ∈ methods, program.takes fitsExactly other args = false) ∧
    program.takes fits method args = true ∧
    (methods.filter (program.takes fits · args) = [method] ∨
      (methods.filter (program.takes fits · args)).filter (·.params.length == args.length) = [method])

theorem wins_of_chosen? {methods : List MethodDecl} {method : MethodDecl} (hMany : 1 < methods.length)
    (hChosen : prog.chosen? args id methods = some method) : prog.Wins args methods method := by
  have hWins : ∀ fits, (methods.filter (prog.takes fits · args) = [method] ∨
      (methods.filter (prog.takes fits · args)).filter (·.params.length == args.length) = [method]) →
        prog.takes fits method args = true := by
    rintro fits (hOnly | hOnly)
    · have hMem := hOnly ▸ mem_singleton_self method
      exact (mem_filter.mp hMem).2
    · have hMem := hOnly ▸ mem_singleton_self method
      exact (mem_filter.mp (mem_of_mem_filter hMem)).2
  have hNot : methods ≠ [method] := by
    rintro rfl
    simp at hMany
  simp only [chosen?, Option.or_eq_some_iff, only?_eq_some, hNot, false_or] at hChosen
  have hFound := hChosen.2.imp_right And.right
  unfold taking at hFound
  dsimp only [id] at hFound
  split at hFound
  · rename_i hNone
    refine ⟨fitsShape, .inr ⟨rfl, fun other hOther => ?_⟩, hWins _ hFound, hFound⟩
    exact Bool.eq_false_iff.mpr (filter_eq_nil_iff.mp (List.isEmpty_iff.mp hNone) other hOther)
  · exact ⟨fitsExactly, .inl rfl, hWins _ hFound, hFound⟩

theorem typed_of_takes {fits : ValueType → ValueType → Bool} {method : MethodDecl}
    (hTakes : prog.takes fits method args = true) {arg : CallArg} (hArg : arg ∈ args) : arg.type.isSome = true := by
  obtain ⟨pos, hLt, hAt⟩ := getElem_of_mem hArg
  have hTest := all_eq_true.mp hTakes (arg, pos) (mem_zipIdx_iff_getElem?.mpr (by simp [← hAt]))
  dsimp only at hTest
  split at hTest
  · rename_i hType
    simp [hType]
  · cases hTest

/-- A call goes to the declaration that is chosen among the candidates. -/
theorem exists_of_sourceMethod? {key : MethodKey} (hKey : prog.sourceMethod? owner name args = some (.source key)) :
    ∃ index method, key = ⟨owner, name, index⟩ ∧ (index, method) ∈ prog.overloads owner name args.length ∧
      prog.chosen? args id (prog.candidates owner name args.length) = some method := by
  rw [sourceMethod?_eq] at hKey
  dsimp only at hKey
  split at hKey
  · cases hKey
  · rw [← map_snd_overloads, ← chosen?_map]
    cases hChosen : prog.chosen? args Prod.snd (prog.overloads owner name args.length) with
    | none =>
      rw [hChosen] at hKey
      cases hKey
    | some item =>
      rw [hChosen] at hKey
      cases hKey
      exact ⟨item.1, item.2, rfl, mem_of_chosen? hChosen, rfl⟩

theorem choice_eq : prog.choice owner name args =
    if prog.candidates owner name args.length = [] then none
    else some (prog.chosen? args id (prog.candidates owner name args.length)) := by
  rw [choice, sourceMethod?_eq, ← map_snd_overloads, ← chosen?_map]
  simp only [map_eq_nil_iff]
  split
  · rfl
  · cases hChosen : prog.chosen? args Prod.snd (prog.overloads owner name args.length) with
    | none => rfl
    | some item => exact congrArg some (method?_of_mem_overloads (mem_of_chosen? hChosen))

/-! ## The order of the methods -/

/-- The methods of a type stand in another order, and all types mean the same. -/
structure Reordered (owner : String) (before after : Program) : Prop where
  table : after.table = before.table
  methods : (after.methodsOf owner).Perm (before.methodsOf owner)

/-- The order in which the methods of a type are declared is of no account for what a call goes to. If this is a method,
then it is a candidate, and among several it wins by the types of the arguments, which are all known. -/
theorem choice_reordered (h : Reordered owner before after) (name : String) (args : List CallArg) :
    after.choice owner name args = before.choice owner name args ∧
      ∀ key, before.sourceMethod? owner name args = some (.source key) →
        ∃ method ∈ before.candidates owner name args.length, before.method? key = some method ∧
          (1 < (before.candidates owner name args.length).length →
            (∀ arg ∈ args, arg.type.isSome = true) ∧
              before.Wins args (before.candidates owner name args.length) method) := by
  constructor
  · have hPerm : (after.candidates owner name args.length).Perm (before.candidates owner name args.length) :=
      h.methods.filter _
    have hTakes : after.takes = before.takes := by
      funext fits method args
      unfold takes valueType? meaning
      rw [h.table]
    have hChosen : after.chosen? args id = before.chosen? args (id : MethodDecl → MethodDecl) := by
      unfold chosen? taking
      rw [hTakes]
    simp only [choice_eq, hChosen, chosen?_perm hPerm, ← List.isEmpty_iff, hPerm.isEmpty_eq]
  · intro key hKey
    obtain ⟨index, method, rfl, hMem, hChosen⟩ := exists_of_sourceMethod? hKey
    refine ⟨method, mem_of_chosen? hChosen, method?_of_mem_overloads hMem, fun hMany => ?_⟩
    obtain ⟨fits, hFits, hTakes, hOnly⟩ := wins_of_chosen? hMany hChosen
    exact ⟨fun arg hArg => typed_of_takes hTakes hArg, fits, hFits, hTakes, hOnly⟩

/-- A shader with a method `F` for each of some types. -/
def overloading (types : List String) : Program :=
  let method (type : String) : Member :=
    .method ⟨⟨[], [], .word "int" default, none, "F", [], [⟨[], none, .word type default, "x", none, default⟩], default⟩,
      none⟩
  let shader : TypeDecl := ⟨⟨[], [], .struct, "S", [], [], none, default⟩, types.map method⟩
  { shader, kind := .compute, pixelType := none, entry := none, table := .empty, index := ⟨[⟨shader, []⟩]⟩,
    staticUsings := [] }

/-- A call of `F` with an `int` goes to the method for `int`, wherever it stands. -/
theorem choice_reordered_swapped :
    Reordered "S" (overloading ["float", "int"]) (overloading ["int", "float"]) ∧
      (overloading ["float", "int"]).sourceMethod? "S" "F" [⟨none, some .int⟩] = some (.source ⟨"S", "F", 1⟩) ∧
      (overloading ["int", "float"]).sourceMethod? "S" "F" [⟨none, some .int⟩] = some (.source ⟨"S", "F", 0⟩) ∧
      (overloading ["int", "float"]).choice "S" "F" [⟨none, some .int⟩] =
        (overloading ["float", "int"]).choice "S" "F" [⟨none, some .int⟩] := by
  have hSwap : Reordered "S" (overloading ["float", "int"]) (overloading ["int", "float"]) := ⟨rfl, .swap _ _ _⟩
  exact ⟨hSwap, by decide, by decide, (choice_reordered hSwap "F" [⟨none, some .int⟩]).1⟩

end Program

end Shaderlift
