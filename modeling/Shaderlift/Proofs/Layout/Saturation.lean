import Shaderlift.Proofs.Accepted.Accounts
import Shaderlift.Proofs.Layout.StructSize

/-!
# Sizes that saturate

Sizes saturate at the greatest word, and rounding takes a saturated size down again, to the start of the last register.
Beside them stand the sizes without bounds (`exactSize`). Both agree below the last register, and neither comes back
from it (`Near`): every step of packing keeps this, whatever it is given.
-/

namespace Shaderlift

open List

/-! ## Exact sizes -/

def roundUp (value align : Nat) : Nat := (value + (align - 1)) / align * align

namespace Packing

/-- Find where a scalar or vector starts without bounds on places. -/
def exactStart (cursor component size : Nat) : Nat :=
  let offset := roundUp cursor component
  if offset % 16 + size > 16 then roundUp offset 16 else offset

/-- Place a value without bounds on places. -/
def placeExact (packing : Packing) (type : ValueType) (size : Nat) : Packing :=
  match type with
  | .scalar kind | .vector kind _ =>
    let stop := exactStart packing.cursor kind.size size + size
    ⟨stop, stop⟩
  | .struct _ =>
    let stop := roundUp packing.cursor 16 + size
    ⟨stop, roundUp stop 16⟩
  | _ =>
    let stop := roundUp packing.cursor 16 + size
    ⟨stop, stop⟩

end Packing

/-- Measure a type without bounds on sizes, given the sizes of structs. -/
def exactSizeWith (structSize : String → Nat) : ValueType → Nat
  | .void => 0
  | .scalar kind => kind.size
  | .vector kind width => kind.size * width
  | .matrix kind rows cols => roundUp (kind.size * cols) 16 * (rows - 1) + kind.size * cols
  | .struct name => structSize name
  | .array _ none | .array _ (some 0) => 0
  | .array element (some (more + 1)) =>
    roundUp (exactSizeWith structSize element) 16 * more + exactSizeWith structSize element

def exactEnd (size : ValueType → Nat) (types : List ValueType) : Nat :=
  (types.foldl (fun packing type => packing.placeExact type (size type)) Packing.start).stop

/-- Measure a struct without bounds on sizes, on a number of levels that may still be entered. -/
def exactStructSize (env : StructEnv) : Nat → String → Nat
  | 0, _ => 0
  | levels + 1, name =>
    exactEnd (exactSizeWith (exactStructSize env levels)) (((env name).getD []).map StructField.type)

/-- Measure a buffer of some fields without bounds on sizes. -/
def exactSize (env : StructEnv) (fields : List StructField) : Nat :=
  exactEnd (exactSizeWith (exactStructSize env maxStructDepth)) (fields.map StructField.type)

/-! ## Sizes near each other -/

/-- A saturated size and an exact one agree, or both have come to the last register. -/
def Near (size exact : Nat) : Prop := min size (maxSize - 15) = min exact (maxSize - 15)

namespace Near

variable {size exact : Nat} (hSize : Near size exact)

include hSize

theorem add {more exactMore : Nat} (hMore : Near more exactMore) : Near (addSize size more) (exact + exactMore) := by
  unfold Near addSize maxSize UInt32.size at *
  omega

theorem alignUp {align : Nat} (hAlign : align = 4 ∨ align = 8 ∨ align = 16) :
    Near (Shaderlift.alignUp size align) (roundUp exact align) := by
  unfold Near Shaderlift.alignUp roundUp addSize maxSize UInt32.size at *
  rcases hAlign with rfl | rfl | rfl <;> omega

theorem alignRegister : Near (Shaderlift.alignRegister size) (roundUp exact 16) := hSize.alignUp (.inr (.inr rfl))

theorem mul (count : Nat) : Near (mulSize size count) (exact * count) := by
  unfold Near mulSize maxSize UInt32.size at *
  cases count with
  | zero => simp
  | succ count =>
    have hLeft : size * 1 ≤ size * (count + 1) := Nat.mul_le_mul_left size (by omega)
    have hRight : exact * 1 ≤ exact * (count + 1) := Nat.mul_le_mul_left exact (by omega)
    by_cases hSame : size = exact
    · rw [hSame]
      omega
    · omega

theorem startOf (kind : Scalar) (width : Nat) :
    Near (Packing.startOf size kind.size width) (Packing.exactStart exact kind.size width) := by
  have hOffset := hSize.alignUp (kind.size_eq_four_or_eight.imp_right .inl)
  have hRegister := hOffset.alignRegister
  unfold Packing.startOf Packing.exactStart Limits.registerBytes
  generalize Shaderlift.alignUp size kind.size = offset, roundUp exact kind.size = exactOffset at *
  have hUp : exactOffset ≤ roundUp exactOffset 16 := by
    unfold roundUp
    omega
  -- Below the last register both take the same branch, and beyond it each branch stays there.
  unfold Near at *
  dsimp only
  split <;> split <;> omega

end Near

/-- Two ways to fill a buffer, with bounds on places and without, are near each other. -/
structure Packing.Near (packing exact : Packing) : Prop where
  stop : Shaderlift.Near packing.stop exact.stop
  cursor : Shaderlift.Near packing.cursor exact.cursor

/-! ## Types and structs -/

/-- The sums and products for a type that do not saturate are within a word. -/
def ValueType.InWords : ValueType → Prop
  | .scalar kind => Limits.registerBytes + kind.size ≤ maxSize
  | .vector kind width => Limits.registerBytes + kind.size * width ≤ maxSize
  | .matrix kind rows cols => 1 ≤ rows ∧ matrixSize kind rows cols ≤ maxSize
  | .array element _ => element.InWords
  | .void | .struct _ => True

/-- A row of at most four components is at most two registers long. -/
theorem row_le (kind : Scalar) {count : Nat} (hCount : count ≤ 4) : kind.size * count ≤ 32 := by
  have hRow := Nat.mul_le_mul_left kind.size hCount
  rcases kind.size_eq_four_or_eight with hKind | hKind <;> omega

theorem alignRegister_row (kind : Scalar) {count : Nat} (hCount : count ≤ 4) :
    alignRegister (kind.size * count) = roundUp (kind.size * count) 16 :=
  alignRegister_eq (Nat.le_trans (Nat.add_le_add_right (row_le kind hCount) 15) (by decide))

theorem ValueType.Proper.inWords {type : ValueType} (hProper : type.Proper) : type.InWords := by
  have hMax : maxSize = 4294967295 := rfl
  induction type with
  | void | struct => trivial
  | scalar kind =>
    have hRow := @row_le kind 1 (by decide)
    unfold InWords Limits.registerBytes
    omega
  | vector kind width =>
    have hRow := row_le kind hProper.2
    unfold InWords Limits.registerBytes
    omega
  | matrix kind rows cols =>
    have hRow := row_le kind hProper.2.2
    have hRegisters : alignRegister (kind.size * cols) ≤ 32 := by
      rw [alignRegister_row kind hProper.2.2, roundUp]
      omega
    have hRows := Nat.mul_le_mul hRegisters (Nat.sub_le_sub_right hProper.1.2 1)
    refine ⟨hProper.1.1, ?_⟩
    dsimp only [matrixSize]
    omega
  | array element length ih => exact ih hProper

section Structs

variable {env : StructEnv} {hAcyclic : env.Acyclic} {structSize : String → Nat}

theorem near_plainSize {type : ValueType} (hProper : type.Proper)
    (hStruct : ∀ name, type.struct? = some name → Near (plainStructSize env hAcyclic name) (structSize name)) :
    Near (plainSize env hAcyclic type) (exactSizeWith structSize type) := by
  induction type with
  | void | scalar | vector => rfl
  | matrix kind rows cols =>
    simp only [plainSize, ValueType.sizeBy, matrixSize, exactSizeWith, alignRegister_row kind hProper.2.2]
    rfl
  | struct name => exact hStruct name rfl
  | array element length ih =>
    have hElement := ih hProper hStruct
    rcases length with _ | _ | more
    · rfl
    · rfl
    · exact (hElement.alignRegister.mul more).add hElement

theorem near_place {type : ValueType} {packing exact : Packing} (hNear : packing.Near exact)
    (hSize : Near (plainSize env hAcyclic type) (exactSizeWith structSize type)) :
    (packing.place type (plainSize env hAcyclic type)).2.Near (exact.placeExact type (exactSizeWith structSize type)) := by
  have hRegister := hNear.cursor.alignRegister.add hSize
  have hStart := fun kind => (hNear.cursor.startOf kind (plainSize env hAcyclic type)).add hSize
  cases type with
  | scalar kind | vector kind => exact ⟨hStart kind, hStart kind⟩
  | struct => exact ⟨hRegister, hRegister.alignRegister⟩
  | void | matrix | array => exact ⟨hRegister, hRegister⟩

theorem near_placePlain {types : List ValueType} (hTypes : ∀ type ∈ types, type.Proper ∧
      ∀ name, type.struct? = some name → Near (plainStructSize env hAcyclic name) (structSize name)) :
    Near (Packing.start.placePlain (plainSize env hAcyclic) types).stop (exactEnd (exactSizeWith structSize) types) := by
  refine (foldl_rel (r := Packing.Near) ⟨rfl, rfl⟩ fun type hType _ _ hNear => ?_).stop
  exact near_place hNear (near_plainSize (hTypes type hType).1 (hTypes type hType).2)

theorem near_structSize (hProper : ∀ name, ∀ field ∈ (env name).getD [], field.type.Proper) (levels : Nat)
    (name : String) (hDepth : env.NestedWithin levels name) :
    Near (plainStructSize env hAcyclic name) (exactStructSize env levels name) := by
  induction levels generalizing name with
  | zero => exact hDepth.elim
  | succ levels ih =>
    rw [plainStructSize_eq]
    refine near_placePlain (forall_mem_map.mpr fun field hField => ⟨hProper name field hField, fun inner hInner => ?_⟩)
    exact ih inner (hDepth inner ⟨field, hField, hInner⟩)

theorem acyclic_of_nestedWithin (hDepth : ∀ name, env.NestedWithin maxStructDepth name) : env.Acyclic := by
  have hAcc : ∀ levels name, env.NestedWithin levels name → Acc env.Holds name := by
    intro levels
    induction levels with
    | zero => exact fun _ hNever => hNever.elim
    | succ levels ih => exact fun name hName => ⟨name, fun inner hHolds => ih inner (hName inner hHolds)⟩
  exact ⟨fun name => hAcc _ name (hDepth name)⟩

theorem stop_placePlain (size : ValueType → Nat) (packing : Packing) (fields : List StructField) :
    (Layout.placePlain size packing fields).2 = (packing.placePlain size (fields.map StructField.type)).stop := by
  induction fields generalizing packing with
  | nil => rfl
  | cons field rest ih => exact ih _

theorem stop_placePlain_le (size : ValueType → Nat) (types : List ValueType) :
    (Packing.start.placePlain size types).stop ≤ maxSize := by
  induction types using reverseRecOn with
  | nil => exact Nat.zero_le _
  | append_singleton => simp [Packing.placePlain, addSize]

theorem near_build {fields : List StructField} (hDepth : ∀ name, env.NestedWithin maxStructDepth name)
    (hProper : ∀ name, ∀ field ∈ (env name).getD [], field.type.Proper) (hTypes : ∀ field ∈ fields, field.type.Proper) :
    (Layout.build fields env).size ≤ maxSize ∧ Near (Layout.build fields env).size (exactSize env fields) := by
  have hAcyclic := acyclic_of_nestedWithin hDepth
  have hPlain : (Layout.build fields env).size =
      (Packing.start.placePlain (plainSize env hAcyclic) (fields.map StructField.type)).stop := by
    rw [← stop_placePlain, ← (placeFields_eq_plain fields .start [] soundSizes_nil fun _ _ name _ => hDepth name).1]
    rfl
  rw [hPlain]
  refine ⟨stop_placePlain_le _ _, near_placePlain (forall_mem_map.mpr fun field hField => ⟨hTypes field hField, ?_⟩)⟩
  exact fun name _ => near_structSize hProper _ name (hDepth name)

end Structs

/-- The fields that a model captures, with their types. -/
def ShaderModel.captured (model : ShaderModel) : List StructField :=
  model.fields.filterMap fun field =>
    match field.role, field.type with
    | .plainData, .value type => some ⟨field.name, type⟩
    | _, _ => none

/-- Packing that saturates is exact up to the last register and stays there beyond it, what does not saturate is within
a word, and so a shader that captures too much is reported. -/
theorem size_build_exact :
    (∀ (env : StructEnv) (fields : List StructField), (∀ name, env.NestedWithin maxStructDepth name) →
      (∀ name, ∀ field ∈ (env name).getD [], field.type.Proper) → (∀ field ∈ fields, field.type.Proper) →
        (Layout.build fields env).size ≤ 2 ^ 32 - 1 ∧
        (exactSize env fields < 2 ^ 32 - 16 → (Layout.build fields env).size = exactSize env fields) ∧
        (2 ^ 32 - 16 ≤ exactSize env fields → 2 ^ 32 - 16 ≤ (Layout.build fields env).size)) ∧
    (∀ type : ValueType, type.Proper → type.InWords) ∧ (∀ value align, alignUp value align ≤ 2 ^ 32 - 1) ∧
    ∀ (program : Program) (config : Config) (memo : CallMemo),
      (∀ name, StructEnv.NestedWithin program.structFields? maxStructDepth name) →
      let model := (ShaderModel.build program config memo).1.1
      model.dataLimit < exactSize program.structFields? model.captured →
        ∃ diagnostic ∈ (ShaderModel.build program config memo).1.2, diagnostic.rule = .dispatchDataSizeExceeded := by
  have hMax : maxSize = 2 ^ 32 - 1 := rfl
  refine ⟨fun env fields hDepth hProper hTypes => ?_, fun _ => ValueType.Proper.inWords, fun value align => ?_, ?_⟩
  · obtain ⟨hBound, hNear⟩ := near_build hDepth hProper hTypes
    unfold Near at hNear
    omega
  · exact (Nat.div_mul_le_self _ _).trans (Nat.min_le_right _ _)
  · intro program config memo hDepth model hLimit
    have hTypes : ∀ field ∈ model.captured, field.type.Proper := by
      intro field hField
      obtain ⟨info, hInfo, hCaptured⟩ := mem_filterMap.mp hField
      split at hCaptured
      · cases hCaptured
        exact program.proper_fieldInfos config _ hInfo ‹_›
      · cases hCaptured
    have hNear : Near model.layout.size _ := (near_build hDepth program.proper_structFields? hTypes).2
    have hSmall : model.dataLimit ≤ 65536 := by
      unfold ShaderModel.dataLimit
      split <;> decide
    have hLarge : model.layout.size > model.dataLimit := by
      unfold Near at hNear
      omega
    have hWhole : program.complainHere .dispatchDataSizeExceeded
        [toString model.layout.size, toString model.dataLimit] ∈ ShaderModel.checkWhole program model := by
      rw [ShaderModel.checkWhole, if_pos hLarge]
      exact mem_append_left _ (mem_singleton_self _)
    exact ⟨_, mem_append_right _ hWhole, rfl⟩

theorem size_build_exact_long :
    2 ^ 32 - 16 ≤ (Layout.build [⟨"a", .array .float (some (2 ^ 28))⟩] fun _ => none).size := by
  refine (size_build_exact.1 _ _ ?_ (fun _ => forall_mem_nil _) (forall_mem_singleton.mpr ?_)).2.2 (by decide)
  · rintro name inner ⟨field, hNone, -⟩
    cases hNone
  · trivial

end Shaderlift
