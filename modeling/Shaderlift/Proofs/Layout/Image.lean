import Mathlib.Data.List.Induction
import Mathlib.Data.List.Nodup
import Mathlib.Data.List.Pairwise
import Shaderlift.Layout.Image
import Shaderlift.Proofs.Layout.Alignment

/-!
# What a constant buffer holds after any calls

A value lies in a buffer in rows of one length, the starts of which are a stride apart: a matrix in as many rows as it
has, all else in one. Writing spreads a value over its rows and reading gathers them again. Rows of one field do not
overlap because the stride is at least a row, and rows of two fields do not because the fields do not; both rest on a
layout that fits a constant buffer, where rounding is exact.

`BufferImage.Shows` says what an image holds for each field. One successful write changes it at one field, and a
run of calls, failed ones among them, is the induction over that step.
-/

namespace Shaderlift

open List

/-! ## Laying bytes over others -/

namespace Patch

/-- A patch lies within so many bytes. -/
def Within (patch : Patch) (size : Nat) : Prop := patch.offset + patch.bytes.length ≤ size

theorem length_apply {patch : Patch} {under : List UInt8} (hWithin : patch.Within under.length) :
    (patch.apply under).length = under.length := by
  unfold Within at hWithin
  simp only [apply, length_append, length_take, length_drop]
  omega

/-- A patch shows where it lies, and what is under it shows elsewhere. -/
theorem getElem?_apply {patch : Patch} {under : List UInt8} (hWithin : patch.Within under.length) (pos : Nat) :
    (patch.apply under)[pos]? =
      if patch.offset ≤ pos ∧ pos < patch.offset + patch.bytes.length then
        patch.bytes[pos - patch.offset]?
      else under[pos]? := by
  unfold Within at hWithin
  have hTake : (under.take patch.offset).length = patch.offset := by
    rw [length_take]
    omega
  unfold apply
  rcases Nat.lt_or_ge pos patch.offset with hBefore | hFrom
  · rw [if_neg (by omega), append_assoc, List.getElem?_append_left (by omega), List.getElem?_take_of_lt hBefore]
  · rcases Nat.lt_or_ge pos (patch.offset + patch.bytes.length) with hOn | hAfter
    · rw [if_pos ⟨hFrom, hOn⟩, append_assoc, List.getElem?_append_right (by omega), hTake,
        List.getElem?_append_left (by omega)]
    · rw [if_neg (by omega), List.getElem?_append_right (by rw [length_append]; omega), length_append, hTake,
        List.getElem?_drop]
      congr 1
      omega

end Patch

/-- How a value lies in a buffer: a number of rows of one length, the starts of which are a stride apart. -/
structure RowShape where
  count : Nat
  length : Nat
  stride : Nat

namespace RowShape

/-- A place lies in a row of a value that starts at an offset. -/
def Covers (shape : RowShape) (offset position : Nat) : Prop :=
  ∃ row < shape.count, ∃ column < shape.length, position = offset + row * shape.stride + column

def gather (shape : RowShape) (offset : Nat) (bytes : List UInt8) : List UInt8 :=
  (List.range shape.count).flatMap fun row => (bytes.drop (offset + row * shape.stride)).take shape.length

def scatter (shape : RowShape) (offset : Nat) (value : List UInt8) : List Patch :=
  Patch.rows shape.length shape.stride shape.count offset value

/-- The rows of a value that starts at an offset lie within so many bytes. -/
def Within (shape : RowShape) (offset size : Nat) : Prop :=
  ∀ row < shape.count, offset + row * shape.stride + shape.length ≤ size

theorem gather_succ (count length stride offset : Nat) (bytes : List UInt8) :
    gather ⟨count + 1, length, stride⟩ offset bytes =
      gather ⟨count, length, stride⟩ offset bytes ++ (bytes.drop (offset + count * stride)).take length := by
  simp [gather, range_succ]

variable {shape : RowShape} {offset : Nat} {bytes val under : List UInt8}

theorem length_gather (hWithin : shape.Within offset bytes.length) :
    (shape.gather offset bytes).length = shape.count * shape.length := by
  obtain ⟨count, length, stride⟩ := shape
  induction count with
  | zero => simp [gather]
  | succ count ih =>
    have hLast : offset + count * stride + length ≤ bytes.length := hWithin count (Nat.lt_succ_self count)
    rw [gather_succ, length_append, ih fun row hRow => hWithin row (Nat.lt_succ_of_lt hRow), length_take,
      length_drop, Nat.min_eq_left (by omega)]
    exact (Nat.succ_mul count length).symm

theorem getElem?_gather (hWithin : shape.Within offset bytes.length) {row column : Nat} (hRow : row < shape.count)
    (hColumn : column < shape.length) :
    (shape.gather offset bytes)[row * shape.length + column]? = bytes[offset + row * shape.stride + column]? := by
  obtain ⟨count, length, stride⟩ := shape
  simp only at hRow hColumn ⊢
  induction count with
  | zero => cases hRow
  | succ count ih =>
    have hBefore : RowShape.Within ⟨count, length, stride⟩ offset bytes.length :=
      fun row hRow => hWithin row (Nat.lt_succ_of_lt hRow)
    have hLength : (gather ⟨count, length, stride⟩ offset bytes).length = count * length := length_gather hBefore
    rw [gather_succ]
    rcases Nat.lt_succ_iff_lt_or_eq.mp hRow with hEarlier | rfl
    · have hRows : (row + 1) * length ≤ count * length := Nat.mul_le_mul_right length hEarlier
      rw [Nat.succ_mul] at hRows
      rw [List.getElem?_append_left (by omega)]
      exact ih hBefore hEarlier
    · rw [List.getElem?_append_right (by omega), hLength, Nat.add_sub_cancel_left,
        List.getElem?_take_of_lt hColumn, List.getElem?_drop]

theorem exists_row_column {place : Nat} (hPlace : place < shape.count * shape.length) :
    ∃ row < shape.count, ∃ column < shape.length, place = row * shape.length + column := by
  have hPos : 0 < shape.length := Nat.pos_of_ne_zero fun hZero => by simp [hZero] at hPlace
  refine ⟨place / shape.length, (Nat.div_lt_iff_lt_mul hPos).mpr hPlace, place % shape.length,
    Nat.mod_lt place hPos, ?_⟩
  rw [Nat.mul_comm]
  exact (Nat.div_add_mod place shape.length).symm

/-- A value is gathered if its bytes lie in the rows. -/
theorem gather_eq (hWithin : shape.Within offset bytes.length) (hVal : val.length = shape.count * shape.length)
    (hSame : ∀ row < shape.count, ∀ column < shape.length,
      bytes[offset + row * shape.stride + column]? = val[row * shape.length + column]?) :
    shape.gather offset bytes = val := by
  apply ext_getElem?
  intro place
  rcases Nat.lt_or_ge place (shape.count * shape.length) with hPlace | hPast
  · obtain ⟨row, hRow, column, hColumn, rfl⟩ := exists_row_column hPlace
    rw [getElem?_gather hWithin hRow hColumn, hSame row hRow column hColumn]
  · rw [List.getElem?_eq_none (by rw [length_gather hWithin]; exact hPast), List.getElem?_eq_none (by omega)]

theorem gather_congr {others : List UInt8} (hWithin : shape.Within offset bytes.length)
    (hLength : others.length = bytes.length)
    (hSame : ∀ pos, shape.Covers offset pos → others[pos]? = bytes[pos]?) :
    shape.gather offset others = shape.gather offset bytes :=
  gather_eq (hLength ▸ hWithin) (length_gather hWithin) fun row hRow column hColumn =>
    (hSame _ ⟨row, hRow, column, hColumn, rfl⟩).trans (getElem?_gather hWithin hRow hColumn).symm

/-- What spreading a value over rows does to the bytes under it. -/
structure Spread (shape : RowShape) (offset : Nat) (value under result : List UInt8) : Prop where
  length : result.length = under.length
  covered : ∀ row < shape.count, ∀ column < shape.length,
    result[offset + row * shape.stride + column]? = value[row * shape.length + column]?
  other : ∀ position, ¬ shape.Covers offset position → result[position]? = under[position]?

theorem spread_scatter (hStride : shape.length ≤ shape.stride) (hVal : val.length = shape.count * shape.length)
    (hWithin : shape.Within offset under.length) : (∀ patch ∈ shape.scatter offset val, patch.Within under.length) ∧
      shape.Spread offset val under ((shape.scatter offset val).foldl (fun under patch => patch.apply under) under) := by
  obtain ⟨count, length, stride⟩ := shape
  simp only at hStride hVal
  induction count generalizing offset val under with
  | zero =>
    refine ⟨by simp [scatter, Patch.rows], rfl, fun row hRow => ?_, fun pos _ => rfl⟩
    cases hRow
  | succ count ih =>
    have hFirstLength : (val.take length).length = length := by
      rw [Nat.succ_mul] at hVal
      rw [length_take]
      omega
    have hFirst : Patch.Within ⟨offset, val.take length⟩ under.length := by
      have hRow := hWithin 0 (Nat.succ_pos count)
      simp only [Nat.zero_mul] at hRow
      simp only [Patch.Within, hFirstLength]
      omega
    generalize hMiddle : Patch.apply ⟨offset, val.take length⟩ under = middle
    have hMiddleLength : middle.length = under.length := hMiddle ▸ Patch.length_apply hFirst
    obtain ⟨hPatches, hRest⟩ := @ih (offset + stride) (val.drop length) middle
      (by rw [length_drop, hVal, Nat.succ_mul, Nat.add_sub_cancel])
      (by
        intro row hRow
        have hNext := hWithin (row + 1) (Nat.succ_lt_succ hRow)
        simp only [Nat.succ_mul] at hNext ⊢
        omega)
    have hScatter : scatter ⟨count + 1, length, stride⟩ offset val =
        ⟨offset, val.take length⟩ :: scatter ⟨count, length, stride⟩ (offset + stride) (val.drop length) := rfl
    rw [hScatter, foldl_cons, hMiddle]
    refine ⟨?_, hRest.length.trans hMiddleLength, ?_, ?_⟩
    · exact forall_mem_cons.mpr ⟨hFirst, hMiddleLength ▸ hPatches⟩
    · intro row hRow column hColumn
      replace hColumn : column < length := hColumn
      cases row with
      | zero =>
        -- The later rows start a stride further on, past the end of this one.
        have hApart : ¬ Covers ⟨count, length, stride⟩ (offset + stride) (offset + 0 * stride + column) := by
          rintro ⟨row, -, other, -, hPlace⟩
          simp only at hPlace
          omega
        rw [hRest.other _ hApart, ← hMiddle, Patch.getElem?_apply hFirst, if_pos (by simp only [hFirstLength]; omega)]
        simp only [Nat.zero_mul, Nat.add_zero, Nat.zero_add, Nat.add_sub_cancel_left]
        exact List.getElem?_take_of_lt hColumn
      | succ row =>
        have hLater := hRest.covered row (Nat.lt_of_succ_lt_succ hRow) column hColumn
        rw [List.getElem?_drop] at hLater
        simp only [Nat.succ_mul] at hLater ⊢
        rw [show offset + (row * stride + stride) + column = offset + stride + row * stride + column by omega, hLater]
        congr 1
        omega
    · intro pos hFree
      have hApart : ¬ Covers ⟨count, length, stride⟩ (offset + stride) pos := by
        rintro ⟨row, hRow, column, hColumn, rfl⟩
        refine hFree ⟨row + 1, Nat.succ_lt_succ hRow, column, hColumn, ?_⟩
        simp only [Nat.succ_mul]
        omega
      have hOff : ¬ (offset ≤ pos ∧ pos < offset + length) := by
        rintro ⟨hFrom, hTo⟩
        refine hFree ⟨0, Nat.succ_pos count, pos - offset, ?_, ?_⟩
        · simp only
          omega
        · simp only [Nat.zero_mul]
          omega
      rw [hRest.other pos hApart, ← hMiddle, Patch.getElem?_apply hFirst]
      exact if_neg (by simpa only [hFirstLength] using hOff)

end RowShape

/-! ## The rows of a field -/

namespace FieldLayout

/-- A matrix lies in its rows, each at the start of a register; all else is one row. -/
def shape (field : FieldLayout) : RowShape :=
  match field.type with
  | .matrix kind rows cols => ⟨rows, kind.size * cols, alignRegister (kind.size * cols)⟩
  | _ => ⟨1, field.size, field.size⟩

/-- Read the value of a field, the rows of a matrix tightly. -/
def read (field : FieldLayout) (bytes : List UInt8) : List UInt8 := field.shape.gather field.offset bytes

/-- A place belongs to the value of a field: it is not between the rows of a matrix. -/
def Covers (field : FieldLayout) (position : Nat) : Prop := field.shape.Covers field.offset position

theorem hostSize_eq (field : FieldLayout) : field.hostSize = field.shape.count * field.shape.length := by
  unfold hostSize shape
  cases field.type with
  | matrix kind rows cols => exact (Nat.mul_assoc rows cols kind.size).trans (congrArg _ (Nat.mul_comm cols kind.size))
  | void | scalar | vector | struct | array => exact (Nat.one_mul field.size).symm

variable {field : FieldLayout}

theorem patchesFor_eq {val : List UInt8} (hLength : val.length = field.hostSize) :
    BufferImage.patchesFor field val = field.shape.scatter field.offset val := by
  unfold BufferImage.patchesFor shape
  unfold hostSize at hLength
  cases hType : field.type with
  | matrix kind rows cols => rfl
  | void | scalar | vector | struct | array =>
    rw [hType] at hLength
    simp only [RowShape.scatter, Patch.rows]
    rw [take_of_length_le (Nat.le_of_eq hLength)]

/-- The rows of a field lie in it and do not overlap. -/
structure RowsFit (field : FieldLayout) : Prop where
  stride : field.shape.length ≤ field.shape.stride
  within : field.shape.Within field.offset field.stop

theorem Covers.bounds (hFit : field.RowsFit) {pos : Nat} (hCovers : field.Covers pos) :
    field.offset ≤ pos ∧ pos < field.stop := by
  obtain ⟨row, hRow, column, hColumn, rfl⟩ := hCovers
  have hEnd := hFit.within row hRow
  omega

/-- The rows of a matrix of the size of one fit, as far as a constant buffer goes. -/
theorem rowsFit_of_size (hSize : field.size ≤ Limits.constantBufferBytes)
    (hMatrix : ∀ kind rows cols, field.type = .matrix kind rows cols → field.size = matrixSize kind rows cols) :
    field.RowsFit := by
  cases hType : field.type with
  | matrix kind rows cols =>
    have hShape : field.shape = ⟨rows, kind.size * cols, alignRegister (kind.size * cols)⟩ := by
      rw [shape, hType]
    have hWhole : field.size = alignRegister (kind.size * cols) * (rows - 1) + kind.size * cols :=
      hMatrix kind rows cols hType
    have hRound : alignRegister (kind.size * cols) = (kind.size * cols + 15) / 16 * 16 := by
      apply alignRegister_eq
      unfold Limits.constantBufferBytes at hSize
      unfold maxSize UInt32.size
      omega
    refine ⟨?_, fun row hRow => ?_⟩
    · rw [hShape]
      dsimp only
      omega
    · rw [hShape] at hRow ⊢
      have hRows : row * alignRegister (kind.size * cols) ≤ (rows - 1) * alignRegister (kind.size * cols) :=
        Nat.mul_le_mul_right _ (Nat.le_sub_one_of_lt hRow)
      rw [Nat.mul_comm (rows - 1)] at hRows
      dsimp only
      unfold stop
      omega
  | void | scalar | vector | struct | array =>
    have hShape : field.shape = ⟨1, field.size, field.size⟩ := by rw [shape, hType]
    refine ⟨by simp [hShape], fun row hRow => ?_⟩
    rw [hShape] at hRow ⊢
    obtain rfl : row = 0 := Nat.lt_one_iff.mp hRow
    simp [stop]

end FieldLayout

namespace Layout

/-- The matrices of a layout have the sizes of matrices. -/
theorem size_of_matrix (env : StructEnv) (fields : List StructField) (packing : Packing) (known : List (String × Nat)) :
    ∀ field ∈ (placeFields env packing fields known).1.1, ∀ kind rows cols,
      field.type = .matrix kind rows cols → field.size = matrixSize kind rows cols := by
  induction fields generalizing packing known with
  | nil => simp [placeFields_nil]
  | cons first rest ih =>
    rw [placeFields_cons]
    refine forall_mem_cons.mpr ⟨fun kind rows cols (hType : first.type = _) => ?_, ih _ _⟩
    simp only [hType]
    rfl

/-- The fields of a layout can be told apart and lie apart, within the layout and with their rows in them. -/
structure Separate (layout : Layout) : Prop where
  names : (layout.fields.map FieldLayout.name).Nodup
  rows : ∀ field ∈ layout.fields, field.RowsFit
  within : ∀ field ∈ layout.fields, field.stop ≤ layout.size
  apart : ∀ field ∈ layout.fields, ∀ other ∈ layout.fields, field ≠ other →
    field.stop ≤ other.offset ∨ other.stop ≤ field.offset

/-- Fields that follow each other lie apart, and none ends after the last. -/
theorem apart_of_chain {fields : List FieldLayout} (hChain : fields.IsChain FieldLayout.Precedes) :
    (fields.Pairwise fun earlier later => earlier.stop ≤ later.offset) ∧
      ∀ field ∈ fields, field.stop ≤ (fields.getLast?.map FieldLayout.stop).getD 0 := by
  induction fields with
  | nil => simp
  | cons first rest ih =>
    cases rest with
    | nil => simp
    | cons second more =>
      obtain ⟨hStep, hMore⟩ := isChain_cons_cons.mp hChain
      obtain ⟨hApart, hEnd⟩ := ih hMore
      have hNext : first.stop ≤ second.offset := hStep.stop_le
      have hSecond : second.offset ≤ second.stop := Nat.le_add_right _ _
      rw [List.getLast?_cons_cons]
      constructor
      · refine pairwise_cons.mpr ⟨forall_mem_cons.mpr ⟨hNext, fun later hFurther => ?_⟩, hApart⟩
        have hAfter := (pairwise_cons.mp hApart).1 later hFurther
        omega
      · refine forall_mem_cons.mpr ⟨?_, hEnd⟩
        have hLast := hEnd second mem_cons_self
        omega

theorem separate_build (fields : List StructField) (env : StructEnv) (hNames : (fields.map StructField.name).Nodup)
    (hFits : (Layout.build fields env).size ≤ Limits.constantBufferBytes) : (Layout.build fields env).Separate := by
  have hPlaced := placed_placeFields env fields .start [] Packing.start_ready hFits
  obtain ⟨hApart, hEnd⟩ := apart_of_chain hPlaced.chained
  have hWithin : ∀ field ∈ (Layout.build fields env).fields, field.stop ≤ (Layout.build fields env).size := by
    intro field hField
    exact Nat.le_trans (hEnd field hField) (Nat.le_of_eq hPlaced.stop_eq.symm)
  refine ⟨?_, fun field hField => ?_, hWithin, fun field hField other hOther hNe => ?_⟩
  · have hMap := congrArg (List.map StructField.name) (map_placeFields env fields .start [])
    rw [map_map] at hMap
    exact hMap ▸ hNames
  · apply FieldLayout.rowsFit_of_size
    · have hStop := hWithin field hField
      unfold FieldLayout.stop at hStop
      omega
    · exact size_of_matrix env fields .start [] field hField
  · have hEither : (Layout.build fields env).fields.Pairwise fun field other =>
        field.stop ≤ other.offset ∨ other.stop ≤ field.offset := hApart.imp Or.inl
    have : Std.Symm fun field other : FieldLayout =>
        field.stop ≤ other.offset ∨ other.stop ≤ field.offset := ⟨fun _ _ => Or.symm⟩
    exact hEither.forall hField hOther hNe

variable {layout : Layout} {field : FieldLayout}

theorem Separate.field?_eq (hSeparate : layout.Separate) (hField : field ∈ layout.fields) :
    layout.field? field.name = some field := by
  unfold field?
  cases hFound : layout.fields.find? fun other => other.name == field.name with
  | none => exact absurd (beq_self_eq_true field.name) (List.find?_eq_none.mp hFound field hField)
  | some other =>
    have hName : other.name = field.name := by simpa using List.find?_some hFound
    exact congrArg some (inj_on_of_nodup_map hSeparate.names (mem_of_find?_eq_some hFound) hField hName)

theorem Separate.rows_within (hSeparate : layout.Separate) (hField : field ∈ layout.fields) :
    field.shape.Within field.offset layout.size :=
  fun row hRow => Nat.le_trans ((hSeparate.rows field hField).within row hRow) (hSeparate.within field hField)

/-- No place belongs to two fields. -/
theorem Separate.not_covers (hSeparate : layout.Separate) {other : FieldLayout} (hField : field ∈ layout.fields)
    (hOther : other ∈ layout.fields) (hNe : field ≠ other) {pos : Nat} (hCovers : other.Covers pos) :
    ¬ field.Covers pos := by
  intro hAlso
  have hHere := hCovers.bounds (hSeparate.rows other hOther)
  have hThere := hAlso.bounds (hSeparate.rows field hField)
  rcases hSeparate.apart field hField other hOther hNe with hBefore | hAfter
  · omega
  · omega

end Layout

/-! ## Images -/

namespace BufferImage

/-- What an image holds: its bytes, in its own length, read as a value for each field, and are zero outside of the
fields; and no patch of it lies outside. -/
structure Shows (image : BufferImage) (values : FieldLayout → List UInt8) : Prop where
  length : image.bytes.length = image.layout.size
  within : ∀ patch ∈ image.patches, patch.Within image.layout.size
  reads : ∀ field ∈ image.layout.fields, field.read image.bytes = values field
  blank : ∀ position < image.layout.size, (∀ field ∈ image.layout.fields, ¬ field.Covers position) →
    image.bytes[position]? = some 0

/-- Make a call; a failed one leaves the image as it is. -/
def call (image : BufferImage) (name : String) (value : List UInt8) : BufferImage :=
  (image.write name value).toOption.getD image

variable {image : BufferImage} {name : String} {val : List UInt8} {values : FieldLayout → List UInt8}

theorem call_of_ok {next : BufferImage} (hWrite : image.write name val = .ok next) : image.call name val = next := by
  rw [call, hWrite]
  rfl

theorem call_of_error {error : LayoutError} (hWrite : image.write name val = .error error) :
    image.call name val = image := by
  rw [call, hWrite]
  rfl

def after (layout : Layout) (calls : List (String × List UInt8)) : BufferImage :=
  calls.foldl (fun image call => image.call call.1 call.2) (zero layout)

theorem write_eq_ok_iff (image : BufferImage) (name : String) (val : List UInt8) (next : BufferImage) :
    image.write name val = .ok next ↔ ∃ field, image.layout.field? name = some field ∧ val.length = field.hostSize ∧
        next = ⟨image.layout, image.patches ++ patchesFor field val⟩ := by
  unfold write
  cases image.layout.field? name with
  | none => simp
  | some field =>
    by_cases hLength : val.length = field.hostSize
    · simp [hLength, eq_comm]
    · simp [hLength]

section Step

variable {image next : BufferImage} {values : FieldLayout → List UInt8} {name : String} {val : List UInt8}
  (hSeparate : image.layout.Separate) (hShows : image.Shows values) (hWrite : image.write name val = .ok next)

include hSeparate hShows hWrite

/-- What a write does to the bytes: it spreads the value over the rows of its field. -/
theorem spread_of_write : ∃ field ∈ image.layout.fields, field.name = name ∧ val.length = field.hostSize ∧
    next.layout = image.layout ∧ (∀ patch ∈ next.patches, patch.Within image.layout.size) ∧
    field.shape.Spread field.offset val image.bytes next.bytes := by
  obtain ⟨field, hFound, hLength, rfl⟩ := (write_eq_ok_iff image name val next).mp hWrite
  have hField : field ∈ image.layout.fields := mem_of_find?_eq_some hFound
  have hName : field.name = name := by simpa using List.find?_some hFound
  obtain ⟨hPatches, hSpread⟩ := RowShape.spread_scatter (hSeparate.rows field hField).stride
    (hLength.trans field.hostSize_eq) (hShows.length ▸ hSeparate.rows_within hField)
  rw [← FieldLayout.patchesFor_eq hLength] at hPatches hSpread
  refine ⟨field, hField, hName, hLength, rfl, ?_, ?_⟩
  · exact forall_mem_append.mpr ⟨hShows.within, hShows.length ▸ hPatches⟩
  · unfold bytes
    rw [foldl_append]
    exact hSpread

theorem shows_write : ∃ field ∈ image.layout.fields, field.name = name ∧ val.length = field.hostSize ∧
    next.layout = image.layout ∧ next.Shows fun other => if other = field then val else values other := by
  obtain ⟨field, hField, hName, hLength, hLayout, hPatches, hSpread⟩ := spread_of_write hSeparate hShows hWrite
  have hWithin : field.shape.Within field.offset image.bytes.length := hShows.length ▸ hSeparate.rows_within hField
  refine ⟨field, hField, hName, hLength, hLayout, ?_, ?_, ?_, ?_⟩
  · rw [hLayout]
    exact hSpread.length.trans hShows.length
  · rw [hLayout]
    exact hPatches
  · rw [hLayout]
    intro other hOther
    by_cases hSame : other = field
    · rw [if_pos hSame, hSame]
      exact RowShape.gather_eq (hSpread.length ▸ hWithin) (hLength.trans field.hostSize_eq) hSpread.covered
    · rw [if_neg hSame, ← hShows.reads other hOther]
      apply RowShape.gather_congr (hShows.length ▸ hSeparate.rows_within hOther) hSpread.length
      exact fun pos hCovers =>
        hSpread.other pos (hSeparate.not_covers hField hOther (Ne.symm hSame) hCovers)
  · rw [hLayout]
    intro pos hPosition hFree
    rw [hSpread.other pos (hFree field hField)]
    exact hShows.blank pos hPosition hFree

end Step

theorem Shows.congr {others : FieldLayout → List UInt8} (hShows : image.Shows values)
    (hSame : ∀ field ∈ image.layout.fields, values field = others field) : image.Shows others :=
  ⟨hShows.length, hShows.within, fun field hField => (hShows.reads field hField).trans (hSame field hField),
    hShows.blank⟩

theorem Shows.bytes_eq {other : BufferImage} (hSeparate : image.layout.Separate) (hLayout : other.layout = image.layout)
    (hImage : image.Shows values) (hOther : other.Shows values) : other.bytes = image.bytes := by
  have hLength : other.bytes.length = image.bytes.length := by rw [hOther.length, hImage.length, hLayout]
  apply ext_getElem?
  intro pos
  by_cases hCovered : ∃ field ∈ image.layout.fields, field.Covers pos
  · obtain ⟨field, hField, row, hRow, column, hColumn, rfl⟩ := hCovered
    have hWithin : field.shape.Within field.offset image.bytes.length := hImage.length ▸ hSeparate.rows_within hField
    rw [← RowShape.getElem?_gather hWithin hRow hColumn, ← RowShape.getElem?_gather (hLength ▸ hWithin) hRow hColumn]
    have hReads : field.read other.bytes = field.read image.bytes :=
      (hOther.reads field (hLayout ▸ hField)).trans (hImage.reads field hField).symm
    exact congrArg (fun val => val[row * field.shape.length + column]?) hReads
  · rw [not_exists] at hCovered
    have hFree : ∀ field ∈ image.layout.fields, ¬ field.Covers pos :=
      fun field hField hCovers => hCovered field ⟨hField, hCovers⟩
    rcases Nat.lt_or_ge pos image.layout.size with hPosition | hPast
    · rw [hImage.blank pos hPosition hFree]
      exact hOther.blank pos (hLayout ▸ hPosition) (hLayout ▸ hFree)
    · rw [List.getElem?_eq_none (by rw [hLength, hImage.length]; exact hPast),
        List.getElem?_eq_none (by rw [hImage.length]; exact hPast)]

theorem shows_zero {layout : Layout} (hSeparate : layout.Separate) :
    (zero layout).Shows fun field => List.replicate field.hostSize 0 := by
  have hBytes : (zero layout).bytes = List.replicate layout.size 0 := rfl
  have hZero : ∀ pos < layout.size, (zero layout).bytes[pos]? = some 0 := by
    intro pos hPosition
    rw [hBytes, List.getElem?_replicate, if_pos hPosition]
  have hLength : (zero layout).bytes.length = layout.size := by rw [hBytes, length_replicate]
  refine ⟨hLength, by simp [zero], fun field hField => ?_, fun pos hPosition _ => hZero pos hPosition⟩
  have hWithin : field.shape.Within field.offset (zero layout).bytes.length :=
    hLength ▸ hSeparate.rows_within hField
  refine RowShape.gather_eq hWithin (by rw [length_replicate, field.hostSize_eq]) fun row hRow column hColumn => ?_
  have hIn := hSeparate.rows_within hField row hRow
  have hRows : row * field.shape.length + column < field.hostSize := by
    have hNext := Nat.mul_le_mul_right field.shape.length hRow
    rw [Nat.succ_mul] at hNext
    rw [field.hostSize_eq]
    omega
  rw [hZero _ (by omega), List.getElem?_replicate, if_pos hRows]

end BufferImage

/-! ## Runs of calls -/

def FieldLayout.lastValue (field : FieldLayout) (calls : List (String × List UInt8)) : List UInt8 :=
  ((calls.filter fun call => call.1 == field.name && call.2.length == field.hostSize).getLast?.map Prod.snd).getD
    (List.replicate field.hostSize 0)

theorem FieldLayout.lastValue_append (field : FieldLayout) (calls : List (String × List UInt8))
    (call : String × List UInt8) :
    field.lastValue (calls ++ [call]) =
      if call.1 = field.name ∧ call.2.length = field.hostSize then call.2 else field.lastValue calls := by
  unfold lastValue
  rw [filter_append]
  by_cases hMatch : call.1 = field.name ∧ call.2.length = field.hostSize
  · rw [if_pos hMatch]
    simp [hMatch.1, hMatch.2]
  · rw [if_neg hMatch]
    have hOut : [call].filter (fun call => call.1 == field.name && call.2.length == field.hostSize) = [] := by
      simpa using hMatch
    rw [hOut, append_nil]

namespace BufferImage

variable {image : BufferImage} {values : FieldLayout → List UInt8}

theorem write_succeeds_iff (hSeparate : image.layout.Separate) (name : String) (val : List UInt8) :
    (∃ next, image.write name val = .ok next) ↔
      ∃ field ∈ image.layout.fields, field.name = name ∧ val.length = field.hostSize := by
  simp only [write_eq_ok_iff]
  constructor
  · rintro ⟨-, field, hFound, hLength, -⟩
    exact ⟨field, mem_of_find?_eq_some hFound, by simpa using List.find?_some hFound, hLength⟩
  · rintro ⟨field, hField, rfl, hLength⟩
    exact ⟨_, field, hSeparate.field?_eq hField, hLength, rfl⟩

/-- After any calls an image shows the last value that each field was given. -/
theorem shows_after {layout : Layout} (hSeparate : layout.Separate) (calls : List (String × List UInt8)) :
    (after layout calls).layout = layout ∧ (after layout calls).Shows fun field => field.lastValue calls := by
  induction calls using List.reverseRecOn with
  | nil => exact ⟨rfl, shows_zero hSeparate⟩
  | append_singleton calls call ih =>
    obtain ⟨hLayout, hShows⟩ := ih
    have hLast : after layout (calls ++ [call]) = (after layout calls).call call.1 call.2 := by
      simp [after]
    rw [hLast]
    have hOwn : (after layout calls).layout.Separate := hLayout.symm ▸ hSeparate
    cases hWrite : (after layout calls).write call.1 call.2 with
    | error error =>
      rw [call_of_error hWrite]
      refine ⟨hLayout, hShows.congr fun field hField => ?_⟩
      rw [FieldLayout.lastValue_append, if_neg]
      rintro ⟨hName, hLength⟩
      obtain ⟨next, hNext⟩ := (write_succeeds_iff hOwn call.1 call.2).mpr ⟨field, hField, hName.symm, hLength⟩
      rw [hWrite] at hNext
      cases hNext
    | ok next =>
      rw [call_of_ok hWrite]
      obtain ⟨field, hField, hName, hLength, hSame, hNext⟩ := shows_write hOwn hShows hWrite
      refine ⟨hSame.trans hLayout, hNext.congr fun other hOther => ?_⟩
      rw [hSame] at hOther
      rw [FieldLayout.lastValue_append]
      by_cases hEq : other = field
      · subst hEq
        rw [if_pos rfl, if_pos ⟨hName.symm, hLength⟩]
      · rw [if_neg hEq, if_neg]
        rintro ⟨hAlso, -⟩
        exact hEq (inj_on_of_nodup_map hOwn.names hOther hField (hAlso.symm.trans hName.symm))

/-- What one more write does to an image. -/
structure WriteLaw (image : BufferImage) (name : String) (value : List UInt8) : Prop where
  succeeds_iff : (∃ next, image.write name value = .ok next) ↔
    ∃ field ∈ image.layout.fields, field.name = name ∧ value.length = field.hostSize
  unknown : (∀ field ∈ image.layout.fields, field.name ≠ name) →
    image.write name value = .error (.unknownField name)
  mismatch : ∀ field ∈ image.layout.fields, field.name = name → value.length ≠ field.hostSize →
    image.write name value = .error (.sizeMismatch name field.hostSize value.length)
  failed : ∀ error, image.write name value = .error error → (image.call name value).bytes = image.bytes
  within : ∀ patch ∈ (image.call name value).patches, patch.Within image.layout.size
  readsBack : ∀ field ∈ image.layout.fields, field.name = name → value.length = field.hostSize →
    field.read (image.call name value).bytes = value
  others : ∀ field ∈ image.layout.fields, field.name ≠ name →
    field.read (image.call name value).bytes = field.read image.bytes

/-- What copying an image to the front of other bytes does. -/
structure LoadLaw (image : BufferImage) (target : List UInt8) : Prop where
  copies : image.layout.size ≤ target.length → ∃ result, image.load target = .ok (image.layout.size, result) ∧
    result.length = target.length ∧ result.take image.layout.size = image.bytes ∧
      result.drop image.layout.size = target.drop image.layout.size
  fails : target.length < image.layout.size →
    image.load target = .error (.destinationTooSmall image.layout.size target.length)

theorem writeLaw_of_shows (hSeparate : image.layout.Separate) (hShows : image.Shows values) (name : String)
    (val : List UInt8) : image.WriteLaw name val where
  succeeds_iff := write_succeeds_iff hSeparate name val
  unknown := by
    intro hNone
    have hFound : image.layout.field? name = none :=
      List.find?_eq_none.mpr fun field hField => by simpa using hNone field hField
    rw [write, hFound]
  mismatch := by
    rintro field hField rfl hLength
    rw [write, hSeparate.field?_eq hField]
    exact if_pos (by simpa using hLength)
  failed := by
    intro error hWrite
    rw [call_of_error hWrite]
  within := by
    cases hWrite : image.write name val with
    | error error =>
      rw [call_of_error hWrite]
      exact hShows.within
    | ok next =>
      obtain ⟨field, -, -, -, hLayout, hNext⟩ := shows_write hSeparate hShows hWrite
      rw [call_of_ok hWrite, ← hLayout]
      exact hNext.within
  readsBack := by
    intro field hField hName hLength
    obtain ⟨next, hWrite⟩ := (write_succeeds_iff hSeparate name val).mpr ⟨field, hField, hName, hLength⟩
    obtain ⟨other, hOther, hAlso, -, hLayout, hNext⟩ := shows_write hSeparate hShows hWrite
    obtain rfl : field = other :=
      inj_on_of_nodup_map hSeparate.names hField hOther (hName.trans hAlso.symm)
    rw [call_of_ok hWrite, hNext.reads field (hLayout.symm ▸ hField), if_pos rfl]
  others := by
    intro field hField hName
    cases hWrite : image.write name val with
    | error error => rw [call_of_error hWrite]
    | ok next =>
      obtain ⟨other, -, hOther, -, hLayout, hNext⟩ := shows_write hSeparate hShows hWrite
      have hNe : field ≠ other := by
        rintro rfl
        exact hName hOther
      rw [call_of_ok hWrite, hNext.reads field (hLayout.symm ▸ hField), if_neg hNe, hShows.reads field hField]

theorem loadLaw_of_shows (hShows : image.Shows values) (target : List UInt8) : image.LoadLaw target where
  copies := by
    intro hRoom
    refine ⟨image.bytes ++ target.drop image.layout.size, ?_, ?_, ?_, ?_⟩
    · rw [load, if_neg (Nat.not_lt.mpr hRoom)]
    · rw [length_append, length_drop, hShows.length]
      omega
    · exact take_left' hShows.length
    · exact drop_left' hShows.length
  fails := by
    intro hShort
    rw [load, if_pos hShort]

/-- A constant buffer of at most the greatest size with distinct field names, after any calls: each field reads as the
last value of its size that it was given, all else is zero and no patch lies outside; so the bytes depend on these last
values alone. One more write and copying the buffer keep their laws. -/
theorem after_lawful (fields : List StructField) (env : StructEnv) (hNames : (fields.map StructField.name).Nodup)
    (hFits : (Layout.build fields env).size ≤ Limits.constantBufferBytes) (calls : List (String × List UInt8)) :
    let layout := Layout.build fields env
    let image := after layout calls
    image.layout = layout ∧ (image.Shows fun field => field.lastValue calls) ∧
      (∀ others, (∀ field ∈ layout.fields, field.lastValue others = field.lastValue calls) →
        (after layout others).bytes = image.bytes) ∧
      (∀ name value, image.WriteLaw name value) ∧ ∀ target, image.LoadLaw target := by
  intro layout image
  have hSeparate : layout.Separate := Layout.separate_build fields env hNames hFits
  obtain ⟨hLayout, hShows⟩ := shows_after hSeparate calls
  have hOwn : image.layout.Separate := hLayout.symm ▸ hSeparate
  refine ⟨hLayout, hShows, fun others hSame => ?_, writeLaw_of_shows hOwn hShows, loadLaw_of_shows hShows⟩
  obtain ⟨hOther, hOtherShows⟩ := shows_after hSeparate others
  refine hShows.bytes_eq hOwn (hOther.trans hLayout.symm) (hOtherShows.congr fun field hField => ?_)
  rw [hOther] at hField
  exact hSame field hField

/-- A scalar, a matrix of three rows with gaps between them and a vector, after calls of which one names no field, one
gives a value of another size and one is made good by a later one. -/
theorem after_lawful_spread :
    let fields : List StructField := [⟨"near", .float⟩, ⟨"turn", .matrix .float 3 2⟩, ⟨"at", .vector .float 2⟩]
    let layout := Layout.build fields fun _ => none
    let calls : List (String × List UInt8) :=
      [("turn", List.replicate 24 1), ("far", [1, 2, 3, 4]), ("near", [9, 9]), ("turn", List.replicate 24 7),
       ("near", [1, 2, 3, 4])]
    (fields.map StructField.name).Nodup ∧ layout.size ≤ Limits.constantBufferBytes ∧
      ((BufferImage.after layout calls).Shows fun field => field.lastValue calls) ∧
      (BufferImage.after layout calls).bytes =
        [1, 2, 3, 4] ++ List.replicate 12 0 ++ List.replicate 8 7 ++ List.replicate 8 0 ++ List.replicate 8 7 ++
          List.replicate 8 0 ++ List.replicate 8 7 ++ List.replicate 8 0 := by
  intro fields layout calls
  have hNames : (fields.map StructField.name).Nodup := by decide
  have hFits : layout.size ≤ Limits.constantBufferBytes := by decide
  exact ⟨hNames, hFits, (after_lawful fields (fun _ => none) hNames hFits calls).2.1, by decide⟩

end BufferImage

end Shaderlift
