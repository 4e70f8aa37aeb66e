import Mathlib.Data.List.Basic
import Shaderlift.Layout.Packing

/-!
# The layout of a constant buffer keeps to registers

Sizes are words that saturate, so rounding up near the greatest word goes down. A layout that fits a
constant buffer never comes near it: no step takes the end of the buffer back by more than a register, so
the end of the whole layout bounds the end after every field (`Layout.min_stop_le`). Below that bound
rounding is exact, and one lemma on placing a single value (`Packing.place_spec`) gives the invariant of
the whole run by induction on the fields.

The text that names the place of a field is read back by `FieldLayout.readOffset?`, which knows nothing of
the field's type.
-/

namespace Shaderlift

open List Limits

/-! ## Rounding -/

theorem Scalar.size_eq_four_or_eight (kind : Scalar) : kind.size = 4 ∨ kind.size = 8 := by
  cases kind <;> simp [Scalar.size]

/-- Rounding gives a multiple, saturated or not. -/
theorem dvd_alignUp (val align : Nat) : align ∣ alignUp val align :=
  Nat.dvd_mul_left align _

/-- Rounding is exact as long as the sum that it starts with does not saturate. -/
theorem alignUp_eq (val align : Nat) (hFits : val + (align - 1) ≤ maxSize) :
    alignUp val align = (val + (align - 1)) / align * align := by
  rw [alignUp, addSize, Nat.min_eq_left hFits]

/-- Rounding to a component goes down by less than a register, whatever the value. -/
theorem min_le_alignUp_size (val : Nat) (kind : Scalar) : min val (maxSize - 15) ≤ alignUp val kind.size := by
  unfold alignUp addSize maxSize UInt32.size
  rcases kind.size_eq_four_or_eight with hSize | hSize
  · rw [hSize]
    omega
  · rw [hSize]
    omega

/-- Rounding to a register goes down by less than a register, whatever the value. -/
theorem min_le_alignRegister (val : Nat) : min val (maxSize - 15) ≤ alignRegister val := by
  unfold alignRegister alignUp addSize maxSize UInt32.size registerBytes
  omega

theorem alignRegister_eq {val : Nat} (hFits : val + 15 ≤ maxSize) :
    alignRegister val = (val + 15) / 16 * 16 :=
  alignUp_eq val registerBytes hFits

/-! ## Placing one value -/

namespace Packing

/-- No value starts more than a register before the place where it may start. -/
theorem min_cursor_le_offsetOf (packing : Packing) (type : ValueType) (size : Nat) :
    min packing.cursor (maxSize - 15) ≤ packing.offsetOf type size := by
  have hStart : ∀ kind : Scalar,
      min packing.cursor (maxSize - 15) ≤ startOf packing.cursor kind.size size := by
    intro kind
    have hComponent := min_le_alignUp_size packing.cursor kind
    have hRegister := min_le_alignRegister (alignUp packing.cursor kind.size)
    simp only [startOf]
    split <;> omega
  cases type with
  | scalar kind | vector kind => exact hStart kind
  | void | matrix | struct | array => exact min_le_alignRegister packing.cursor

/-- The next value may start no more than a register before the end of the last one. -/
def Ahead (packing : Packing) : Prop := min packing.stop (maxSize - 15) ≤ packing.cursor

/-- Placing a value keeps the next start near the end. -/
theorem place_ahead (packing : Packing) (type : ValueType) (size : Nat) : (packing.place type size).2.Ahead := by
  unfold Ahead
  cases type with
  | struct => exact min_le_alignRegister _
  | void | scalar | vector | matrix | array => exact Nat.min_le_left _ _

@[simp] theorem place_offset (packing : Packing) (type : ValueType) (size : Nat) :
    (packing.place type size).1 = packing.offsetOf type size := by
  cases type <;> rfl

@[simp] theorem place_stop (packing : Packing) (type : ValueType) (size : Nat) :
    (packing.place type size).2.stop = addSize (packing.offsetOf type size) size := by
  cases type <;> rfl

/-- Placing a value takes the end back by less than a register. -/
theorem min_stop_le_place (packing : Packing) (hAhead : packing.Ahead) (type : ValueType) (size : Nat) :
    min packing.stop (maxSize - 15) ≤ (packing.place type size).2.stop := by
  have hOffset := min_cursor_le_offsetOf packing type size
  rw [place_stop]
  unfold Ahead at hAhead
  unfold addSize
  omega

/-- Where a scalar or vector starts: at a multiple of its component, no register later than needed, and
across no register unless it is wider than one. -/
theorem startOf_spec (cur : Nat) (kind : Scalar) (size : Nat)
    (hFits : cur ≤ constantBufferBytes + 16) :
    let offset := startOf cur kind.size size
    cur ≤ offset ∧ kind.size ∣ offset ∧ offset ≤ (cur + 15) / 16 * 16 ∧
      (size ≤ 16 → offset % 16 + size ≤ 16) ∧ (16 < size → 16 ∣ offset) := by
  have hRange : cur ≤ 65552 := hFits
  have hComponent : alignUp cur kind.size = (cur + (kind.size - 1)) / kind.size * kind.size := by
    apply alignUp_eq
    unfold maxSize UInt32.size
    rcases kind.size_eq_four_or_eight with hSize | hSize <;> rw [hSize] <;> omega
  have hRegister : alignRegister (alignUp cur kind.size) =
      (alignUp cur kind.size + 15) / 16 * 16 := by
    apply alignRegister_eq
    rw [hComponent]
    unfold maxSize UInt32.size
    rcases kind.size_eq_four_or_eight with hSize | hSize <;> rw [hSize] <;> omega
  intro offset
  have hOffset : offset =
      if alignUp cur kind.size % 16 + size > 16 then alignRegister (alignUp cur kind.size)
      else alignUp cur kind.size := rfl
  rw [hRegister, hComponent] at hOffset
  -- Both component sizes divide a register, which is what keeps the second rounding within it.
  rcases kind.size_eq_four_or_eight with hSize | hSize
  · rw [hSize] at hOffset ⊢
    split at hOffset <;> omega
  · rw [hSize] at hOffset ⊢
    split at hOffset <;> omega

/-- A buffer that is filled as far as a constant buffer goes: the next value may start at the end of the
last one, or less than a register after it. -/
structure Ready (packing : Packing) : Prop where
  fits : packing.stop ≤ constantBufferBytes
  stop_le : packing.stop ≤ packing.cursor
  cursor_le : packing.cursor ≤ (packing.stop + 15) / 16 * 16

theorem start_ready : start.Ready := by
  constructor <;> simp [start]

end Packing

def FieldLayout.stop (field : FieldLayout) : Nat := field.offset + field.size

/-- A field keeps to registers: scalars and vectors lie at a multiple of their component and cross no
register unless they are wider than one, which makes them start one; all else starts a register. -/
def FieldLayout.Aligned (field : FieldLayout) : Prop :=
  match field.type with
  | .scalar kind =>
    field.size = kind.size ∧ kind.size ∣ field.offset ∧ field.offset % 16 + field.size ≤ 16
  | .vector kind width =>
    field.size = kind.size * width ∧ kind.size ∣ field.offset ∧
      (field.size ≤ 16 → field.offset % 16 + field.size ≤ 16) ∧ (16 < field.size → 16 ∣ field.offset)
  | _ => 16 ∣ field.offset

namespace Packing

variable {packing : Packing}

theorem cursor_le_of_ready (hReady : packing.Ready) : packing.cursor ≤ constantBufferBytes + 16 := by
  have hFits := hReady.fits
  have hCur := hReady.cursor_le
  unfold constantBufferBytes at *
  omega

/-- Where a value starts in a buffer that is filled as far as a constant buffer goes: at or after the
place where it may start and less than a register after the end, and there at once if that is the start
of a register. -/
theorem offsetOf_spec (hReady : packing.Ready) (type : ValueType) (size : Nat) :
    packing.cursor ≤ packing.offsetOf type size ∧ packing.offsetOf type size ≤ (packing.stop + 15) / 16 * 16 ∧
      (16 ∣ packing.cursor → 16 ∣ packing.offsetOf type size) := by
  have hStop := hReady.stop_le
  have hCur := hReady.cursor_le
  have hRegister := alignRegister_eq (Nat.le_trans (Nat.add_le_add_right (cursor_le_of_ready hReady) 15) (by decide))
  have hStart : ∀ kind : Scalar,
      packing.cursor ≤ startOf packing.cursor kind.size size ∧
        startOf packing.cursor kind.size size ≤ (packing.stop + 15) / 16 * 16 ∧
        (16 ∣ packing.cursor → 16 ∣ startOf packing.cursor kind.size size) := by
    intro kind
    obtain ⟨hLow, -, hHigh, -, -⟩ := startOf_spec packing.cursor kind size (cursor_le_of_ready hReady)
    omega
  cases type with
  | scalar kind | vector kind => exact hStart kind
  | void | matrix | struct | array =>
    simp only [offsetOf]
    omega

theorem aligned_offsetOf (hReady : packing.Ready) (name : String) (type : ValueType) (size : Nat)
    (hScalar : ∀ kind, type = .scalar kind → size = kind.size)
    (hVector : ∀ kind width, type = .vector kind width → size = kind.size * width) :
    (⟨name, type, packing.offsetOf type size, size⟩ : FieldLayout).Aligned := by
  have hRange := cursor_le_of_ready hReady
  cases type with
  | scalar kind =>
    have hSize := hScalar kind rfl
    obtain ⟨-, hDvd, -, hNarrow, -⟩ := startOf_spec packing.cursor kind size hRange
    refine ⟨hSize, hDvd, hNarrow ?_⟩
    rcases kind.size_eq_four_or_eight with hKind | hKind <;> omega
  | vector kind width =>
    obtain ⟨-, hDvd, -, hNarrow, hWide⟩ := startOf_spec packing.cursor kind size hRange
    exact ⟨hVector kind width rfl, hDvd, hNarrow, hWide⟩
  | void | matrix | struct | array => exact dvd_alignUp packing.cursor 16

/-- Placing a value that ends within a constant buffer keeps the buffer ready for the next one, which
after a struct starts a register. -/
theorem place_ready (type : ValueType) (size : Nat)
    (hStop : (packing.place type size).2.stop ≤ constantBufferBytes) : (packing.place type size).2.Ready ∧
      (packing.place type size).2.stop = packing.offsetOf type size + size ∧
      (∀ name, type = .struct name → 16 ∣ (packing.place type size).2.cursor) := by
  have hEnd : (packing.place type size).2.stop = packing.offsetOf type size + size := by
    rw [place_stop] at hStop ⊢
    unfold addSize maxSize UInt32.size constantBufferBytes at *
    omega
  cases type with
  | struct name =>
    have hRange : (packing.place (.struct name) size).2.stop + 15 ≤ maxSize := by
      unfold maxSize UInt32.size
      unfold constantBufferBytes at hStop
      omega
    have hCur : (packing.place (.struct name) size).2.cursor =
        ((packing.place (.struct name) size).2.stop + 15) / 16 * 16 := alignRegister_eq hRange
    refine ⟨⟨hStop, ?_, ?_⟩, hEnd, fun _ _ => dvd_alignUp _ 16⟩
    · rw [hCur]
      omega
    · exact Nat.le_of_eq hCur
  | void | scalar | vector | matrix | array =>
    refine ⟨⟨hStop, Nat.le_refl _, ?_⟩, hEnd, fun _ hType => by cases hType⟩
    simp only [place]
    omega

end Packing

/-! ## Placing the fields in order -/

/-- A field follows another: it starts at or after the end, less than a register after it, and at the
start of a register if the other is a struct. -/
structure FieldLayout.Precedes (earlier later : FieldLayout) : Prop where
  stop_le : earlier.stop ≤ later.offset
  padding : later.offset - earlier.stop < 16
  afterStruct : ∀ name, earlier.type = .struct name → 16 ∣ later.offset

/-- Scalars and vectors are as wide as their components together, whatever has been measured before. -/
theorem sizeOf_scalar_vector (env : StructEnv) (type : ValueType) (known : List (String × Nat)) :
    (∀ kind, type = .scalar kind → (sizeOf env type known).1 = kind.size) ∧
      ∀ kind width, type = .vector kind width → (sizeOf env type known).1 = kind.size * width := by
  constructor
  · rintro kind rfl
    rfl
  · rintro kind width rfl
    rfl

namespace Layout

theorem placeFields_nil (env : StructEnv) (packing : Packing) (known : List (String × Nat)) :
    placeFields env packing [] known = (([], packing.stop), known) :=
  rfl

/-- Placing fields goes through one field at a time, and what is measured for one is known to the next. -/
theorem placeFields_cons (env : StructEnv) (packing : Packing) (field : StructField)
    (rest : List StructField) (known : List (String × Nat)) :
    placeFields env packing (field :: rest) known =
      let measured := sizeOf env field.type known
      let placed := packing.place field.type measured.1
      let others := placeFields env placed.2 rest measured.2
      ((⟨field.name, field.type, placed.1, measured.1⟩ :: others.1.1, others.1.2), others.2) := rfl

/-- The end of the whole layout bounds the end before every field, up to saturation. -/
theorem min_stop_le (env : StructEnv) (fields : List StructField) (packing : Packing)
    (known : List (String × Nat)) (hAhead : packing.Ahead) :
    min packing.stop (maxSize - 15) ≤ (placeFields env packing fields known).1.2 := by
  induction fields generalizing packing known with
  | nil => exact Nat.min_le_left _ _
  | cons field rest ih =>
    rw [placeFields_cons]
    have hStep := packing.min_stop_le_place hAhead field.type (sizeOf env field.type known).1
    have hRest := ih (packing.place field.type (sizeOf env field.type known).1).2
      (sizeOf env field.type known).2 (packing.place_ahead _ _)
    dsimp only
    omega

/-- The fields placed after a packing keep to registers, follow each other, and the first follows what
was there before. -/
structure Placed (packing : Packing) (fields : List FieldLayout) (stop : Nat) : Prop where
  aligned : ∀ field ∈ fields, field.Aligned
  chained : fields.IsChain FieldLayout.Precedes
  first : ∀ field ∈ fields.head?,
    packing.cursor ≤ field.offset ∧ field.offset ≤ (packing.stop + 15) / 16 * 16 ∧
      (16 ∣ packing.cursor → 16 ∣ field.offset)
  stop_eq : stop = (fields.getLast?.map FieldLayout.stop).getD packing.stop

theorem Placed.cons {packing next : Packing} {field : FieldLayout} {fields : List FieldLayout} {stop : Nat}
    (hPlaced : Placed next fields stop) (hAligned : field.Aligned) (hNext : next.Ready)
    (hStop : next.stop = field.stop) (hStruct : ∀ name, field.type = .struct name → 16 ∣ next.cursor)
    (hFirst : packing.cursor ≤ field.offset ∧ field.offset ≤ (packing.stop + 15) / 16 * 16 ∧
      (16 ∣ packing.cursor → 16 ∣ field.offset)) :
    Placed packing (field :: fields) stop where
  aligned := forall_mem_cons.mpr ⟨hAligned, hPlaced.aligned⟩
  chained := by
    cases fields with
    | nil => exact .singleton field
    | cons second rest =>
      obtain ⟨hLow, hHigh, hRegister⟩ := hPlaced.first second rfl
      have hEnd := hNext.stop_le
      refine .cons_cons ⟨?_, ?_, ?_⟩ hPlaced.chained
      · omega
      · omega
      · intro name hType
        exact hRegister (hStruct name hType)
  first := by
    intro other hOther
    obtain rfl : field = other := by simpa using hOther
    exact hFirst
  stop_eq := by
    have hEnd := hPlaced.stop_eq
    rw [hStop] at hEnd
    cases fields with
    | nil => simpa using hEnd
    | cons second rest =>
      rw [List.getLast?_cons_cons]
      rw [List.getLast?_cons] at hEnd ⊢
      exact hEnd

/-- Every run that ends within a constant buffer places its fields well. -/
theorem placed_placeFields (env : StructEnv) (fields : List StructField) (packing : Packing)
    (known : List (String × Nat)) (hReady : packing.Ready)
    (hFits : (placeFields env packing fields known).1.2 ≤ constantBufferBytes) :
    Placed packing (placeFields env packing fields known).1.1 (placeFields env packing fields known).1.2 := by
  induction fields generalizing packing known with
  | nil =>
    rw [placeFields_nil]
    exact ⟨by simp, .nil, by simp, rfl⟩
  | cons field rest ih =>
    rw [placeFields_cons] at hFits ⊢
    dsimp only at hFits ⊢
    generalize hSize : sizeOf env field.type known = measured at hFits ⊢
    generalize hNext : packing.place field.type measured.1 = placed at hFits ⊢
    have hWidth := sizeOf_scalar_vector env field.type known
    rw [hSize] at hWidth
    -- The end of the run bounds the end after this field, so nothing has saturated so far.
    have hStop : placed.2.stop ≤ constantBufferBytes := by
      have hAhead : placed.2.Ahead := hNext ▸ packing.place_ahead field.type measured.1
      have hBound := min_stop_le env rest placed.2 measured.2 hAhead
      unfold maxSize UInt32.size at hBound
      unfold constantBufferBytes at hFits ⊢
      omega
    obtain ⟨hPlacedReady, hEnd, hStruct⟩ : placed.2.Ready ∧
        placed.2.stop = packing.offsetOf field.type measured.1 + measured.1 ∧
        (∀ name, field.type = .struct name → 16 ∣ placed.2.cursor) := by
      rw [← hNext] at hStop ⊢
      exact Packing.place_ready field.type measured.1 hStop
    have hOffset : placed.1 = packing.offsetOf field.type measured.1 := by
      rw [← hNext, Packing.place_offset]
    rw [hOffset]
    exact (ih placed.2 measured.2 hPlacedReady hFits).cons
      (Packing.aligned_offsetOf hReady field.name field.type measured.1 hWidth.1 hWidth.2)
      hPlacedReady hEnd hStruct (Packing.offsetOf_spec hReady field.type measured.1)

end Layout

/-! ## Reading the place of a field -/

namespace FieldLayout

def componentIndex? : Char → Option Nat
  | 'x' => some 0
  | 'y' => some 1
  | 'z' => some 2
  | 'w' => some 3
  | _ => none

/-- Read a place in a buffer: a register, and perhaps a component of it. -/
def readOffset? (text : String) : Option Nat :=
  match text.toList with
  | 'c' :: rest =>
    let register := Nat.ofDigitChars 10 (rest.takeWhile Char.isDigit) 0
    match rest.dropWhile Char.isDigit with
    | [] => some (16 * register)
    | ['.', component] => (componentIndex? component).map fun i => 16 * register + 4 * i
    | _ => none
  | _ => none

/-- The digits of a register end where the register ends. -/
theorem span_digits (n : Nat) (rest : List Char) (hRest : ∀ c ∈ rest.head?, c.isDigit = false) :
    (Nat.toDigits 10 n ++ rest).takeWhile Char.isDigit = Nat.toDigits 10 n ∧
      (Nat.toDigits 10 n ++ rest).dropWhile Char.isDigit = rest := by
  have hDigits : ∀ c ∈ Nat.toDigits 10 n, c.isDigit = true := fun c hc =>
    Nat.isDigit_of_mem_toDigits (by decide) (by decide) hc
  constructor
  · rw [takeWhile_append_of_pos hDigits]
    cases rest with
    | nil => simp
    | cons c rest => simp [hRest c rfl]
  · rw [dropWhile_append_of_pos hDigits]
    cases rest with
    | nil => rfl
    | cons c rest => simp [hRest c rfl]

/-- A register alone reads back as its first byte. -/
theorem readOffset?_register (n : Nat) : readOffset? ("c" ++ toString n) = some (16 * n) := by
  have hSpan := span_digits n [] (by simp)
  rw [append_nil] at hSpan
  have hText : ("c" ++ toString n).toList = 'c' :: Nat.toDigits 10 n := by
    simp [toString, Nat.toList_repr]
  simp only [readOffset?, hText, hSpan.1, hSpan.2, Nat.ofDigitChars_ten_toDigits]

/-- A register with a component reads back as the first byte of the component. -/
theorem readOffset?_component (n i : Nat) (hi : i < 4) :
    readOffset? ("c" ++ toString n ++ "." ++ ["x", "y", "z", "w"].getD i "") = some (16 * n + 4 * i) := by
  obtain ⟨c, hText, hIdx⟩ : ∃ c, (["x", "y", "z", "w"].getD i "").toList = [c] ∧
      componentIndex? c = some i := by
    match i, hi with
    | 0, _ => exact ⟨'x', rfl, rfl⟩
    | 1, _ => exact ⟨'y', rfl, rfl⟩
    | 2, _ => exact ⟨'z', rfl, rfl⟩
    | 3, _ => exact ⟨'w', rfl, rfl⟩
  have hSpan := span_digits n ['.', c] (by simp [Char.isDigit])
  have hWhole : ("c" ++ toString n ++ "." ++ ["x", "y", "z", "w"].getD i "").toList =
      'c' :: (Nat.toDigits 10 n ++ ['.', c]) := by
    simp only [String.toList_append, hText]
    simp [toString, Nat.toList_repr]
  simp only [readOffset?, hWhole, hSpan.1, hSpan.2, Nat.ofDigitChars_ten_toDigits, hIdx, Option.map_some]

/-- The text of the place of a field that keeps to registers reads back as its offset. -/
theorem readOffset?_packOffset {field : FieldLayout} (hAligned : field.Aligned) :
    readOffset? field.packOffset = some field.offset := by
  have hComponent : ∀ kind : Scalar, kind.size ∣ field.offset →
      readOffset? ("c" ++ toString field.register ++ "." ++ field.component) = some field.offset := by
    intro kind hDvd
    have hWord : 4 ∣ field.offset := by
      rcases kind.size_eq_four_or_eight with hSize | hSize
      · exact hSize ▸ hDvd
      · exact Nat.dvd_trans (by decide) (hSize ▸ hDvd)
    unfold component register registerBytes
    rw [readOffset?_component _ _ (by omega)]
    congr 1
    omega
  have hRegister : 16 ∣ field.offset → readOffset? ("c" ++ toString field.register) = some field.offset := by
    intro hDvd
    rw [readOffset?_register]
    unfold register registerBytes
    congr 1
    omega
  unfold Aligned at hAligned
  unfold packOffset
  cases hType : field.type with
  | scalar kind | vector kind =>
    rw [hType] at hAligned
    exact hComponent kind hAligned.2.1
  | void | matrix | struct | array =>
    rw [hType] at hAligned
    exact hRegister hAligned

end FieldLayout

/-! ## The layout as a whole -/

/-- A layout keeps to registers: its first field starts it, each field follows the one before, the last
one ends it, and the text of each place can be read back. -/
structure Layout.WellPacked (layout : Layout) : Prop where
  first : ∀ field ∈ layout.fields.head?, field.offset = 0
  chained : layout.fields.IsChain FieldLayout.Precedes
  size_eq : layout.size = (layout.fields.getLast?.map FieldLayout.stop).getD 0
  aligned : ∀ field ∈ layout.fields, field.Aligned
  readable : ∀ field ∈ layout.fields, FieldLayout.readOffset? field.packOffset = some field.offset

/-- A layout has the names and types that were to be laid out, in order. -/
theorem Layout.map_placeFields (env : StructEnv) (fields : List StructField) (packing : Packing)
    (known : List (String × Nat)) :
    (placeFields env packing fields known).1.1.map (fun field => (⟨field.name, field.type⟩ : StructField)) =
      fields := by
  induction fields generalizing packing known with
  | nil => rfl
  | cons field rest ih =>
    rw [placeFields_cons]
    simp [ih]

/-- Every layout that fits a constant buffer keeps to registers, whatever the types of its fields and the
structs that they are made of. -/
theorem Layout.wellPacked_build (fields : List StructField) (env : StructEnv)
    (hFits : (Layout.build fields env).size ≤ Limits.constantBufferBytes) :
    (Layout.build fields env).WellPacked ∧
      (Layout.build fields env).fields.map (fun field => (⟨field.name, field.type⟩ : StructField)) =
        fields := by
  have hPlaced := placed_placeFields env fields .start [] Packing.start_ready hFits
  refine ⟨⟨?_, hPlaced.chained, hPlaced.stop_eq, hPlaced.aligned, ?_⟩, map_placeFields env fields .start []⟩
  · intro field hField
    obtain ⟨-, hHigh, -⟩ := hPlaced.first field hField
    exact Nat.le_zero.mp hHigh
  · intro field hField
    exact FieldLayout.readOffset?_packOffset (hPlaced.aligned field hField)

/-- A buffer in which every rule moves a field: a double after a word, a vector wider than a register, a
struct that does not fill its last register, an array of structs. -/
theorem Layout.wellPacked_build_mixed :
    let env : StructEnv := fun name =>
      if name = "Light" then some [⟨"at", .vector .float 3⟩, ⟨"on", .bool⟩, ⟨"far", .scalar .double⟩] else none
    let fields : List StructField :=
      [⟨"a", .float⟩, ⟨"b", .scalar .double⟩, ⟨"c", .vector .double 3⟩, ⟨"d", .struct "Light"⟩,
       ⟨"e", .vector .float 2⟩, ⟨"f", .array (.struct "Light") (some 3)⟩, ⟨"g", .matrix .float 3 2⟩]
    (Layout.build fields env).size ≤ Limits.constantBufferBytes ∧ (Layout.build fields env).WellPacked := by
  intro env fields
  have hFits : (Layout.build fields env).size ≤ Limits.constantBufferBytes := by decide
  exact ⟨hFits, (Layout.wellPacked_build fields env hFits).1⟩

end Shaderlift
