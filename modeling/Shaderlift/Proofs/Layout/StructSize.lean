import Shaderlift.Proofs.Layout.Alignment
import Shaderlift.Proofs.Program.Containment

/-!
# The size of a struct does not depend on where it is measured

The size of a struct is measured on a number of levels that may still be entered, and is remembered for
all later fields. Beside it stands the plain recursion over structs, which has neither levels nor a memo
and is total because no struct holds itself. Both agree on structs that are nested no deeper than the
levels reach: the invariant is that every remembered size is the plain one (`SoundSizes`), and it is kept
because a struct is measured with at least as many levels left as it is deep.

Beyond that depth they differ, and a size that was cut short is remembered as well, so that even a struct
that is nested less deep can come out wrong after another field.
-/

namespace Shaderlift

open List
open String (ofList)

/-- A struct is the outermost of at most a number of structs that are nested in one another. -/
def StructEnv.NestedWithin (env : StructEnv) : Nat → String → Prop
  | 0, _ => False
  | levels + 1, name => ∀ inner, env.Holds inner name → env.NestedWithin levels inner

/-! ## The plain recursion -/

def ValueType.sizeBy : (type : ValueType) → ((name : String) → type.struct? = some name → Nat) → Nat
  | .void, _ => 0
  | .scalar kind, _ => kind.size
  | .vector kind width, _ => kind.size * width
  | .matrix kind rows cols, _ => matrixSize kind rows cols
  | .struct name, measure => measure name rfl
  | .array element length, measure => arraySize (element.sizeBy measure) length

def Packing.placePlain (size : ValueType → Nat) (packing : Packing) (types : List ValueType) : Packing :=
  types.foldl (fun packing type => (packing.place type (size type)).2) packing

/-- The end of the fields of a struct, placed one after the other. -/
def plainStructSize (env : StructEnv) (hAcyclic : env.Acyclic) (name : String) : Nat :=
  let place (packing : Packing) (entry : { field // field ∈ (env name).getD [] }) : Packing :=
    (packing.place entry.1.type
      (entry.1.type.sizeBy fun inner _ => plainStructSize env hAcyclic inner)).2
  (((env name).getD []).attach.foldl place Packing.start).stop
termination_by hAcyclic.wrap name
decreasing_by exact ⟨entry.1, entry.2, by assumption⟩

/-- Measure a type by plain recursion over the structs that it is made of. -/
def plainSize (env : StructEnv) (hAcyclic : env.Acyclic) (type : ValueType) : Nat :=
  type.sizeBy fun name _ => plainStructSize env hAcyclic name

theorem plainStructSize_eq (env : StructEnv) (hAcyclic : env.Acyclic) (name : String) :
    plainStructSize env hAcyclic name =
      (Packing.start.placePlain (plainSize env hAcyclic) (((env name).getD []).map StructField.type)).stop := by
  rw [plainStructSize, Packing.placePlain, foldl_map]
  let place (packing : Packing) (field : StructField) : Packing :=
    (packing.place field.type (plainSize env hAcyclic field.type)).2
  exact congrArg Packing.stop (foldl_attach (l := (env name).getD []) (f := place) (b := .start))

namespace Layout

/-- Place fields in order, given their sizes; return where the last one ends as well. -/
def placePlain (size : ValueType → Nat) : Packing → List StructField → List FieldLayout × Nat
  | packing, [] => ([], packing.stop)
  | packing, field :: rest =>
    let (offset, next) := packing.place field.type (size field.type)
    let (others, stop) := placePlain size next rest
    (⟨field.name, field.type, offset, size field.type⟩ :: others, stop)

/-- Lay fields out in order by plain recursion over structs. -/
def plain (env : StructEnv) (hAcyclic : env.Acyclic) (fields : List StructField) : Layout :=
  let (placed, stop) := placePlain (plainSize env hAcyclic) .start fields
  ⟨placed, stop⟩

end Layout

/-! ## Remembered sizes -/

section Measuring

variable {env : StructEnv} {hAcyclic : env.Acyclic}

/-- Every remembered size is the plain one. -/
def SoundSizes (env : StructEnv) (hAcyclic : env.Acyclic) (known : List (String × Nat)) : Prop :=
  ∀ name size, known.lookup name = some size → size = plainStructSize env hAcyclic name

theorem soundSizes_nil : SoundSizes env hAcyclic [] := by
  intro name size hLookup
  simp at hLookup

variable {known : List (String × Nat)} {name : String}

theorem SoundSizes.cons (hKnown : SoundSizes env hAcyclic known) (name : String) :
    SoundSizes env hAcyclic ((name, plainStructSize env hAcyclic name) :: known) := by
  intro other size hLookup
  rw [lookup_cons] at hLookup
  split at hLookup
  · rename_i hSame
    obtain rfl : other = name := by simpa using hSame
    exact (Option.some.inj hLookup).symm
  · exact hKnown other size hLookup

/-- An action measures what the plain recursion gives and remembers nothing else. -/
def Measures (env : StructEnv) (hAcyclic : env.Acyclic) (action : Sizing Nat) (size : Nat) : Prop :=
  ∀ known, SoundSizes env hAcyclic known →
    (action known).1 = size ∧ SoundSizes env hAcyclic (action known).2

/-- A type is measured right if the struct that it is made of is. -/
theorem measures_sizeWith (measure : String → Sizing Nat) (type : ValueType)
    (hStruct : ∀ name, type.struct? = some name →
      Measures env hAcyclic (measure name) (plainStructSize env hAcyclic name)) :
    Measures env hAcyclic (sizeWith measure type) (plainSize env hAcyclic type) := by
  intro known hKnown
  induction type with
  | void | scalar | vector | matrix => exact ⟨rfl, hKnown⟩
  | struct name => exact hStruct name rfl known hKnown
  | array element length ih =>
    obtain ⟨hSize, hAfter⟩ := ih hStruct
    exact ⟨congrArg (fun size => arraySize size length) hSize, hAfter⟩

/-- Values are placed right if each of their types is measured right. -/
theorem placeAll_spec (measure : ValueType → Sizing Nat) (types : List ValueType) (packing : Packing)
    (known : List (String × Nat)) (hKnown : SoundSizes env hAcyclic known)
    (hTypes : ∀ type ∈ types, Measures env hAcyclic (measure type) (plainSize env hAcyclic type)) :
    (Packing.placeAll measure packing types known).1 = packing.placePlain (plainSize env hAcyclic) types ∧
      SoundSizes env hAcyclic (Packing.placeAll measure packing types known).2 := by
  induction types generalizing packing known with
  | nil => exact ⟨rfl, hKnown⟩
  | cons type rest ih =>
    obtain ⟨hType, hOthers⟩ := forall_mem_cons.mp hTypes
    obtain ⟨hSize, hAfter⟩ := hType known hKnown
    have hRest := ih (packing.place type (measure type known).1).2 (measure type known).2 hAfter hOthers
    rw [hSize] at hRest
    have hRun : Packing.placeAll measure packing (type :: rest) known =
        Packing.placeAll measure (packing.place type (measure type known).1).2 rest
          (measure type known).2 := rfl
    rw [hRun, hSize]
    exact hRest

omit hAcyclic in
theorem get_bind {α : Type} (next : List (String × Nat) → Sizing α) (known : List (String × Nat)) :
    (get >>= next) known = next known known :=
  rfl

/-- A struct that has been measured is not measured again. -/
theorem structSize_of_known {size : Nat} (levels : Nat) (hLookup : known.lookup name = some size) :
    structSize env (levels + 1) name known = (size, known) := by
  rw [structSize, get_bind, hLookup]
  rfl

/-- A struct that has not been measured is packed on one level less and remembered. -/
theorem structSize_of_new (levels : Nat) (hLookup : known.lookup name = none) :
    structSize env (levels + 1) name known =
      let packed := Packing.placeAll (sizeWith (structSize env levels)) .start
        (((env name).getD []).map StructField.type) known
      (packed.1.stop, (name, packed.1.stop) :: packed.2) := by
  rw [structSize, get_bind, hLookup]
  rfl

/-- A struct that is nested no deeper than the levels reach is measured right on them, whatever has been
measured before. -/
theorem measures_structSize (levels : Nat) (name : String) (hDepth : env.NestedWithin levels name) :
    Measures env hAcyclic (structSize env levels name) (plainStructSize env hAcyclic name) := by
  induction levels generalizing name with
  | zero => exact hDepth.elim
  | succ levels ih =>
    intro known hKnown
    cases hLookup : known.lookup name with
    | some size =>
      rw [structSize_of_known levels hLookup]
      exact ⟨hKnown name size hLookup, hKnown⟩
    | none =>
      -- The fields hold structs that are nested one level less deep.
      have hFields : ∀ type ∈ ((env name).getD []).map StructField.type,
          Measures env hAcyclic (sizeWith (structSize env levels) type)
            (plainSize env hAcyclic type) := by
        refine forall_mem_map.mpr fun field hField => measures_sizeWith _ _ fun inner hInner => ?_
        exact ih inner (hDepth inner ⟨field, hField, hInner⟩)
      obtain ⟨hPacked, hAfter⟩ := placeAll_spec (sizeWith (structSize env levels))
        (((env name).getD []).map StructField.type) .start known hKnown hFields
      rw [structSize_of_new levels hLookup]
      dsimp only
      rw [hPacked, ← plainStructSize_eq]
      exact ⟨rfl, hAfter.cons name⟩

/-- A type whose struct is nested within the depth that is followed is measured right. -/
theorem measures_sizeOf (type : ValueType)
    (hDepth : ∀ name, type.struct? = some name → env.NestedWithin maxStructDepth name) :
    Measures env hAcyclic (sizeOf env type) (plainSize env hAcyclic type) :=
  measures_sizeWith (structSize env maxStructDepth) type fun name hName =>
    measures_structSize maxStructDepth name (hDepth name hName)

/-- Fields are placed as by plain recursion, and the sizes remembered at the end are the plain ones. -/
theorem placeFields_eq_plain (fields : List StructField) (packing : Packing) (known : List (String × Nat))
    (hKnown : SoundSizes env hAcyclic known) (hDepth : ∀ field ∈ fields, ∀ name, field.type.struct? = some name →
      env.NestedWithin maxStructDepth name) : (Layout.placeFields env packing fields known).1 =
        Layout.placePlain (plainSize env hAcyclic) packing fields ∧
      SoundSizes env hAcyclic (Layout.placeFields env packing fields known).2 := by
  induction fields generalizing packing known with
  | nil => exact ⟨rfl, hKnown⟩
  | cons field rest ih =>
    obtain ⟨hField, hOthers⟩ := forall_mem_cons.mp hDepth
    obtain ⟨hSize, hAfter⟩ := measures_sizeOf field.type hField known hKnown
    obtain ⟨hRest, hLast⟩ := ih (packing.place field.type (sizeOf env field.type known).1).2
      (sizeOf env field.type known).2 hAfter hOthers
    rw [Layout.placeFields_cons]
    dsimp only
    refine ⟨?_, hLast⟩
    rw [hRest, hSize]
    rfl

/-- Fields that are placed first are placed the same whatever comes after them. -/
theorem placeFields_append (fields rest : List StructField) (packing : Packing) (known : List (String × Nat)) :
    (Layout.placeFields env packing (fields ++ rest) known).1.1.take fields.length =
      (Layout.placeFields env packing fields known).1.1 := by
  induction fields generalizing packing known with
  | nil => rfl
  | cons field more ih =>
    exact congrArg (List.cons _)
      (ih (packing.place field.type (sizeOf env field.type known).1).2 (sizeOf env field.type known).2)

end Measuring

/-- Structs that are named by their depth: each holds the one whose name is shorter by a letter, and the
last holds a number. -/
def nestedChain : StructEnv := fun name =>
  match name.toList with
  | [] => none
  | [_] => some [⟨"value", .float⟩]
  | _ :: rest => some [⟨"inner", .struct (ofList rest)⟩]

theorem length_lt_of_holds_nestedChain {inner outer : String} (hHolds : nestedChain.Holds inner outer) :
    inner.length + 1 = outer.length ∧ inner ≠ "" := by
  obtain ⟨field, hField, hStruct⟩ := hHolds
  unfold nestedChain at hField
  split at hField
  · cases hField
  · obtain rfl : field = ⟨"value", .float⟩ := by simpa using hField
    cases hStruct
  · rename_i first rest hLong hName
    obtain rfl : field = ⟨"inner", .struct (ofList rest)⟩ := by simpa using hField
    obtain rfl : ofList rest = inner := Option.some.inj hStruct
    rw [← String.length_toList, ← String.length_toList, hName]
    refine ⟨by simp, fun hEmpty => ?_⟩
    have hRest : rest = [] := by simpa using congrArg String.toList hEmpty
    exact hLong hRest

theorem acyclic_nestedChain : nestedChain.Acyclic := by
  have hShorter : Subrelation nestedChain.Holds (InvImage (· < ·) String.length) := by
    intro inner outer hHolds
    have hLength := (length_lt_of_holds_nestedChain hHolds).1
    show inner.length < outer.length
    omega
  exact hShorter.wf (InvImage.wf String.length Nat.lt_wfRel.wf)

theorem nestedWithin_nestedChain (levels : Nat) (name : String) (hName : name ≠ "")
    (hLength : name.length ≤ levels) : nestedChain.NestedWithin levels name := by
  induction levels generalizing name with
  | zero =>
    have hEmpty : name.toList = [] := eq_nil_of_length_eq_zero (by simpa using hLength)
    exact absurd (String.toList_inj.mp hEmpty) hName
  | succ levels ih =>
    intro inner hHolds
    obtain ⟨hShorter, hInner⟩ := length_lt_of_holds_nestedChain hHolds
    exact ih inner hInner (by omega)

theorem nestedChain_cons (first second : Char) (rest : List Char) :
    nestedChain (ofList (first :: second :: rest)) =
      some [⟨"inner", .struct (ofList (second :: rest))⟩] := by
  simp only [nestedChain, String.toList_ofList]

/-- A chain that is longer than the levels reach is measured as empty. -/
theorem structSize_nestedChain (levels : Nat) (letters : List Char) (hLength : levels < letters.length) :
    (structSize nestedChain levels (ofList letters) []).1 = 0 := by
  induction levels generalizing letters with
  | zero => rfl
  | succ levels ih =>
    match letters, hLength with
    | first :: second :: rest, hLength =>
      have hInner := ih (second :: rest) (by simpa using hLength)
      rw [structSize_of_new levels rfl, nestedChain_cons]
      have hRun : (Packing.placeAll (sizeWith (structSize nestedChain levels)) .start
          [.struct (ofList (second :: rest))] []).1 =
        (Packing.start.place (.struct (ofList (second :: rest)))
          (structSize nestedChain levels (ofList (second :: rest)) []).1).2 := rfl
      rw [hInner] at hRun
      exact congrArg Packing.stop hRun

/-- Every struct of the chain is as large as the number in the last one. -/
theorem plainStructSize_nestedChain (first : Char) (rest : List Char) :
    plainStructSize nestedChain acyclic_nestedChain (ofList (first :: rest)) = 4 := by
  induction rest generalizing first with
  | nil =>
    rw [plainStructSize_eq]
    simp only [nestedChain, String.toList_ofList]
    rfl
  | cons second more ih =>
    rw [plainStructSize_eq, nestedChain_cons]
    simp only [Option.getD_some, map_cons, map_nil, Packing.placePlain, foldl_cons,
      foldl_nil, plainSize, ValueType.sizeBy, ih second]
    rfl

/-- A buffer of one struct ends where the struct ends. -/
theorem size_build_struct (env : StructEnv) (label name : String) :
    (Layout.build [⟨label, .struct name⟩] env).size = addSize 0 (structSize env maxStructDepth name []).1 :=
  rfl

theorem size_plain_struct (env : StructEnv) (hAcyclic : env.Acyclic) (label name : String) :
    (Layout.plain env hAcyclic [⟨label, .struct name⟩]).size = addSize 0 (plainStructSize env hAcyclic name) :=
  rfl

/-- A struct with a struct inside, and a shader beside them. -/
def nestedPair : SourceUnit :=
  let struct (name : String) (bases : List String) (fields : List (String × String)) : TypeDecl :=
    ⟨⟨[], [], .struct, name, [], bases.map fun base => .word base default, none, default⟩,
      fields.map fun (type, label) =>
        .field ⟨[], [], .word type default, [⟨label, none, none, default⟩], default⟩⟩
  ⟨[], [struct "Outer" [] [("Inner", "inner"), ("float", "weight")], struct "Inner" [] [("float", "value")],
    struct "Shader" ["IComputeShader"] []]⟩

end Shaderlift
