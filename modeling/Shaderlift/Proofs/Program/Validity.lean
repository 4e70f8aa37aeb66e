import Shaderlift.Proofs.Program.Containment

/-!
# Which structs a shader can hold

The table of a source text is made in two steps: structs on a cycle are put out, then structs with a field that may
not be, round after round. A round looks types up in the table that it changes. Still the result can be said
without rounds: a struct is in exactly when everything that can be reached from it through instance fields is well
formed and on no cycle, where types are looked up as if all declared structs were in.

One direction is that the last table is a fixed point: what is in holds only what is in, so all that is reached
is in. The other is an invariant of the rounds: what is well formed with all that it reaches is never put out.
-/

namespace Shaderlift

open List

/-! ## Well formed structs -/

/-- A field may be in a struct as far as a table tells: it is not a raw truth value, has no fixed size, and its type
is numeric or a struct. -/
structure FieldDecl.WellFormed (field : FieldDecl) (table : TypeTable) : Prop where
  notRaw : field.type.isRawBool = false
  unsized : ∀ declarator ∈ field.declarators, declarator.fixedSize = none
  valued : ∃ type, field.type.meaning table = .value type ∧ (type.isNumeric = true ∨ ∃ name, type = .struct name)

def TypeIndex.valueTypes (index : TypeIndex) : List TypeEntry := index.entries.filter TypeEntry.isValueType

/-- A declared value type has another as the type of one of its instance fields, as far as a table tells. -/
structure TypeIndex.Contains (index : TypeIndex) (table : TypeTable) (outer inner : TypeEntry) : Prop where
  outer_mem : outer ∈ index.valueTypes
  inner_mem : inner ∈ index.valueTypes
  field : ∃ field ∈ outer.decl.instanceFields, field.type.meaning table = .value (.struct inner.name)

/-- Everything that a value type contains, itself included, has well formed fields only and does not contain
itself. -/
def TypeIndex.WellFormed (index : TypeIndex) (table : TypeTable) (entry : TypeEntry) : Prop :=
  ∀ inner, Relation.ReflTransGen (index.Contains table) entry inner →
    (∀ field ∈ inner.decl.instanceFields, field.WellFormed table) ∧
      ¬ Relation.TransGen (index.Contains table) inner inner

namespace TypeTable

/-- A table says that a shader can hold a value type. -/
def Admits (table : TypeTable) (entry : TypeEntry) : Prop := table.structs.lookup entry.name = some true

theorem allowsField_iff (table : TypeTable) (field : FieldDecl) :
    table.allowsField field = true ↔ field.WellFormed table := by
  have hParts : field.WellFormed table ↔
      (field.type.isRawBool = false ∧ ∀ declarator ∈ field.declarators, declarator.fixedSize = none) ∧
        ∃ type, field.type.meaning table = .value type ∧ (type.isNumeric = true ∨ ∃ name, type = .struct name) :=
    ⟨fun hField => ⟨⟨hField.notRaw, hField.unsized⟩, hField.valued⟩, fun hAll => ⟨hAll.1.1, hAll.1.2, hAll.2⟩⟩
  rw [hParts, allowsField, Bool.and_eq_true, Bool.and_eq_true]
  refine and_congr (by simp) ?_
  cases field.type.meaning table with
  | resource | managed | unsupported | forbidden => simp
  | value type => cases type <;> simp [ValueType.isNumeric, ValueType.scalar?]

/-! ## What the search for cycles finds -/

variable {name : String} {index : TypeIndex}

/-- Whatever is found is held by something that was there at the start. -/
theorem reaches_of_mem_heldBy {embedding : Embedding} (rounds : Nat) (found : List String)
    (hMem : name ∈ heldBy embedding rounds found) :
    ∃ start ∈ found, Relation.ReflTransGen embedding.Edge start name := by
  induction rounds generalizing found with
  | zero => exact ⟨name, hMem, .refl⟩
  | succ rounds ih =>
    obtain ⟨start, hStart, hReach⟩ := ih _ hMem
    rw [mem_eraseDups, mem_append, mem_flatMap] at hStart
    rcases hStart with hOld | ⟨holder, hHolder, hHeld⟩
    · exact ⟨start, hOld, hReach⟩
    · exact ⟨holder, hHolder, hReach.head hHeld⟩

/-- The search finds exactly the structs that hold themselves. -/
theorem containsItself_iff (embedding : Embedding) (name : String) :
    containsItself embedding name = true ↔ Relation.TransGen embedding.Edge name name := by
  refine ⟨fun hFound => ?_, containsItself_of_cycle⟩
  obtain ⟨start, hStart, hReach⟩ := reaches_of_mem_heldBy _ _ (contains_iff_mem.mp hFound)
  exact Relation.TransGen.head'_iff.mpr ⟨start, hStart, hReach⟩

theorem mem_embedded_iff (table : TypeTable) (decl : TypeDecl) (name : String) : name ∈ table.embedded decl ↔
      ∃ field ∈ decl.instanceFields, field.type.meaning table = .value (.struct name) := by
  unfold embedded
  rw [mem_filterMap]
  refine exists_congr fun field => and_congr_right fun _ => ?_
  split
  · rename_i hMeaning
    simp [hMeaning]
  · rename_i hOther
    exact iff_of_false (by simp) (hOther name)

theorem exists_entry_of_meaning {unit : SourceUnit} {type : TypeExpr}
    (hMeaning : type.meaning (declared unit index) = .value (.struct name)) :
    ∃ entry ∈ index.valueTypes, entry.name = name := by
  obtain ⟨-, hIn⟩ := (TypeExpr.meaningOn_eq_value_iff (.refl (declared unit index)) _ _ _ _).mp hMeaning
  obtain ⟨entry, hEntry, hVal, hName⟩ := exists_entry_of_declared (hIn name rfl).1
  exact ⟨entry, mem_filter.mpr ⟨hEntry, hVal⟩, hName⟩

theorem admits_declared (unit : SourceUnit) {entry : TypeEntry} (hEntry : entry ∈ index.valueTypes) :
    (declared unit index).Admits entry := by
  have hMem : (entry.name, true) ∈ index.valueTypes.map fun entry => (entry.name, true) :=
    mem_map.mpr ⟨entry, hEntry, rfl⟩
  unfold Admits
  rw [declared_structs]
  cases hLookup : (index.valueTypes.map fun entry => (entry.name, true)).lookup entry.name with
  | none => simpa using lookup_eq_none_iff.mp hLookup _ hMem
  | some isIn =>
    obtain ⟨other, -, hPair⟩ := mem_map.mp (mem_of_lookup hLookup)
    obtain rfl : true = isIn := congrArg Prod.snd hPair
    exact hLookup

section Declared

variable {unit : SourceUnit} {index : TypeIndex} (hNodup : (index.entries.map TypeEntry.name).Nodup)

include hNodup

variable {outer entry : TypeEntry}

theorem edge_iff (table : TypeTable) (hOuter : outer ∈ index.valueTypes) (name : String) :
    (table.embedding index).Edge outer.name name ↔
      ∃ field ∈ outer.decl.instanceFields, field.type.meaning table = .value (.struct name) := by
  obtain ⟨hMem, hVal⟩ := mem_filter.mp hOuter
  rw [Embedding.Edge, lookup_embedding table hNodup hMem hVal, Option.getD_some, mem_embedded_iff]

/-- Whatever the edges lead to is a declared value type that is contained. -/
theorem exists_contains_of_reaches (hOuter : outer ∈ index.valueTypes) {name : String}
    (hReach : Relation.TransGen ((declared unit index).embedding index).Edge outer.name name) :
    ∃ inner ∈ index.valueTypes, inner.name = name ∧
      Relation.TransGen (index.Contains (declared unit index)) outer inner := by
  have hStep : ∀ holder ∈ index.valueTypes, ∀ held,
      ((declared unit index).embedding index).Edge holder.name held →
        ∃ inner ∈ index.valueTypes, inner.name = held ∧ index.Contains (declared unit index) holder inner := by
    intro holder hHolder held hEdge
    obtain ⟨field, hField, hMeaning⟩ := (edge_iff hNodup _ hHolder held).mp hEdge
    obtain ⟨inner, hInner, rfl⟩ := exists_entry_of_meaning hMeaning
    exact ⟨inner, hInner, rfl, hHolder, hInner, field, hField, hMeaning⟩
  induction hReach with
  | single hEdge =>
    obtain ⟨inner, hInner, hName, hContains⟩ := hStep outer hOuter _ hEdge
    exact ⟨inner, hInner, hName, .single hContains⟩
  | tail _ hEdge ih =>
    obtain ⟨middle, hMiddle, rfl, hBefore⟩ := ih
    obtain ⟨inner, hInner, hName, hContains⟩ := hStep middle hMiddle _ hEdge
    exact ⟨inner, hInner, hName, hBefore.tail hContains⟩

/-- The search on the declared structs finds exactly those that contain themselves. -/
theorem containsItself_embedding_iff (hEntry : entry ∈ index.valueTypes) :
    containsItself ((declared unit index).embedding index) entry.name = true ↔
      Relation.TransGen (index.Contains (declared unit index)) entry entry := by
  rw [containsItself_iff]
  constructor
  · intro hCycle
    obtain ⟨other, hOther, hName, hContains⟩ := exists_contains_of_reaches hNodup hEntry hCycle
    obtain rfl : other = entry := inj_on_of_nodup_map hNodup (mem_of_mem_filter hOther)
      (mem_of_mem_filter hEntry) hName
    exact hContains
  · intro hCycle
    have hEdge : ∀ outer inner, index.Contains (declared unit index) outer inner →
        ((declared unit index).embedding index).Edge outer.name inner.name :=
      fun outer inner hContains => (edge_iff hNodup _ hContains.outer_mem _).mpr hContains.field
    exact hCycle.lift TypeEntry.name hEdge

/-- A struct may stay exactly when its instance fields are well formed. -/
theorem allowsStruct_iff (table : TypeTable) (hEntry : entry ∈ index.valueTypes) :
    table.allowsStruct index entry.name = true ↔ ∀ field ∈ entry.decl.instanceFields, field.WellFormed table := by
  unfold allowsStruct
  rw [TypeIndex.find?_of_mem hNodup (mem_of_mem_filter hEntry)]
  simp only [all_eq_true, allowsField_iff]

end Declared

/-! ## The structs that stay -/

/-- The search for cycles puts out the structs that contain themselves, entry by entry. -/
theorem lookup_foldl_withoutCycles (embedding entries : Embedding) (table : TypeTable) (name : String) :
    (entries.foldl
      (fun result entry =>
        if containsItself embedding entry.1 then result.withStruct entry.1 false else result)
      table).structs.lookup name =
      (table.structs.lookup name).map fun old =>
        old && !((entries.map Prod.fst).contains name && containsItself embedding name) := by
  induction entries generalizing table with
  | nil => simp
  | cons entry rest ih =>
    rw [foldl_cons, ih, map_cons, contains_cons]
    by_cases hName : name = entry.1
    · subst hName
      cases containsItself embedding entry.1 with
      | false => simp
      | true => simp [lookup_withStruct, Function.comp_def]
    · have hOther : (name == entry.1) = false := by simpa using hName
      cases containsItself embedding entry.1 with
      | false => simp [hOther]
      | true => simp [lookup_withStruct, hOther]

/-- What each round keeps, the rounds together keep. -/
theorem settled_induction {motive : TypeTable → Prop} (hRound : ∀ table, motive table → motive (table.pruned index))
    (rounds : Nat) {table : TypeTable} (hStart : motive table) : motive (settled index rounds table) := by
  induction rounds generalizing table with
  | zero => exact hStart
  | succ rounds ih =>
    simp only [settled]
    split
    · exact hStart
    · exact ih (hRound table hStart)

/-- A round that changes something leaves fewer structs in. -/
theorem countP_and_lt (stays : String → Bool) (entries : List (String × Bool))
    (hChange : (entries.map fun entry => (entry.1, entry.2 && stays entry.1)) ≠ entries) :
    (entries.map fun entry => (entry.1, entry.2 && stays entry.1)).countP Prod.snd < entries.countP Prod.snd := by
  induction entries with
  | nil => exact absurd rfl hChange
  | cons entry rest ih =>
    rw [map_cons] at hChange ⊢
    rw [countP_cons, countP_cons]
    by_cases hSame : (entry.1, entry.2 && stays entry.1) = entry
    · have hRest := ih fun hEq => hChange (by rw [hSame, hEq])
      rw [hSame]
      omega
    · -- The first struct is put out; of the others no more are in than before.
      have hRest : (rest.map fun entry => (entry.1, entry.2 && stays entry.1)).countP Prod.snd ≤
          rest.countP Prod.snd := by
        rw [countP_map]
        exact countP_mono_left fun other _ hIn => (Bool.and_eq_true_iff.mp hIn).1
      obtain ⟨name, isIn⟩ := entry
      cases isIn with
      | false => exact absurd rfl hSame
      | true =>
        have hOut : stays name = false := by simpa using hSame
        simp only [hOut, Bool.and_false, if_true, Bool.false_eq_true, if_false]
        omega

/-- Enough rounds end because nothing changes any more. -/
theorem pruned_settled (index : TypeIndex) (rounds : Nat) (table : TypeTable)
    (hRounds : table.structs.countP Prod.snd < rounds) :
    ((settled index rounds table).pruned index).structs = (settled index rounds table).structs := by
  induction rounds generalizing table with
  | zero => omega
  | succ rounds ih =>
    simp only [settled]
    split
    · rename_i hSame
      exact hSame
    · rename_i hChange
      have hFewer : (table.pruned index).structs.countP Prod.snd < table.structs.countP Prod.snd :=
        countP_and_lt (table.allowsStruct index) table.structs hChange
      exact ih (table.pruned index) (by omega)

theorem pruned_build (unit : SourceUnit) (index : TypeIndex) : (build unit index).pruned index = build unit index := by
  have hStructs := pruned_settled index _ ((declared unit index).withoutCycles index)
    (Nat.lt_succ_of_le countP_le_length)
  exact congrArg (fun structs => { build unit index with structs := structs }) hStructs

/-- A table with fewer structs lets a field be exactly when the other does and, if the field is a struct, that struct
is in. -/
theorem wellFormed_iff_of_within {after before : TypeTable} (hWithin : after.Within before) (field : FieldDecl) :
    field.WellFormed after ↔ field.WellFormed before ∧
      ∀ name, field.type.meaning before = .value (.struct name) → after.structs.lookup name = some true := by
  have hMeaning := TypeExpr.meaningOn_eq_value_iff hWithin (TypeExpr.maxAliasDepth + 1) 0 field.type
  constructor
  · rintro ⟨hRaw, hUnsized, type, hType, hShape⟩
    obtain ⟨hBefore, hIn⟩ := (hMeaning type).mp hType
    refine ⟨⟨hRaw, hUnsized, type, hBefore, hShape⟩, fun name hName => (hIn name ?_).1⟩
    rw [Meaning.value.inj (hBefore.symm.trans hName), ValueType.struct?]
  · rintro ⟨⟨hRaw, hUnsized, type, hType, hShape⟩, hIn⟩
    refine ⟨hRaw, hUnsized, type, (hMeaning type).mpr ⟨hType, fun name hName => ?_⟩, hShape⟩
    obtain ⟨-, hPlain, rfl⟩ := ((TypeExpr.meaningOn_eq_value_iff (.refl before) _ _ _ _).mp hType).2 name hName
    exact ⟨hIn name hType, hPlain, rfl⟩

/-- Only structs that are not well formed have been put out. -/
structure Spares (table : TypeTable) (index : TypeIndex) (all : TypeTable) : Prop where
  within : table.Within all
  listed : ∀ entry ∈ index.valueTypes, (table.structs.lookup entry.name).isSome = true
  admits : ∀ entry ∈ index.valueTypes, index.WellFormed all entry → table.Admits entry

section Build

variable {unit : SourceUnit} {index : TypeIndex} (hNodup : (index.entries.map TypeEntry.name).Nodup)

include hNodup

/-- A round puts out no struct that is well formed: what such a struct contains is well formed, hence still in. -/
theorem Spares.pruned {table : TypeTable} (hSpares : table.Spares index (declared unit index)) :
    (table.pruned index).Spares index (declared unit index) := by
  refine ⟨(within_pruned table index).trans hSpares.within, fun entry hEntry => ?_, fun entry hEntry hFormed => ?_⟩
  · rw [lookup_pruned, Option.isSome_map]
    exact hSpares.listed entry hEntry
  · have hFields : table.allowsStruct index entry.name = true := by
      rw [allowsStruct_iff hNodup table hEntry]
      intro field hField
      refine (wellFormed_iff_of_within hSpares.within field).mpr ⟨(hFormed entry .refl).1 field hField, ?_⟩
      intro name hMeaning
      obtain ⟨inner, hInner, rfl⟩ := exists_entry_of_meaning hMeaning
      exact hSpares.admits inner hInner
        fun deeper hReach => hFormed deeper (hReach.head ⟨hEntry, hInner, field, hField, hMeaning⟩)
    have hIn : table.structs.lookup entry.name = some true := hSpares.admits entry hEntry hFormed
    unfold Admits
    rw [lookup_pruned, hIn, Option.map_some, hFields, Bool.and_self]

theorem spares_build (unit : SourceUnit) : (build unit index).Spares index (declared unit index) := by
  refine settled_induction (motive := fun table => table.Spares index (declared unit index))
    (fun table hSpares => Spares.pruned hNodup hSpares) _ ?_
  refine ⟨(foldl_withoutCycles _ _ _).1, fun entry hEntry => ?_, fun entry hEntry hFormed => ?_⟩
  · rw [withoutCycles, lookup_foldl_withoutCycles, Option.isSome_map, admits_declared unit hEntry, Option.isSome_some]
  · have hFree : containsItself ((declared unit index).embedding index) entry.name = false := by
      rw [Bool.eq_false_iff, Ne, containsItself_embedding_iff hNodup hEntry]
      exact (hFormed entry .refl).2
    rw [Admits, withoutCycles, lookup_foldl_withoutCycles, admits_declared unit hEntry, hFree]
    simp

section Admitted

variable {entry : TypeEntry} (hEntry : entry ∈ index.valueTypes) (hIn : (build unit index).Admits entry)

include hEntry hIn

variable {field : FieldDecl}

/-- The fields of a struct that is in at the end are well formed as the table stands. -/
theorem wellFormed_of_admits (hField : field ∈ entry.decl.instanceFields) : field.WellFormed (build unit index) := by
  have hAgain : ((build unit index).pruned index).Admits entry := by
    rw [pruned_build]
    exact hIn
  rw [Admits, lookup_pruned, hIn] at hAgain
  have hFields : (build unit index).allowsStruct index entry.name = true := by simpa using hAgain
  exact (allowsStruct_iff hNodup _ hEntry).mp hFields field hField

/-- What a struct that is in at the end contains is in at the end. -/
theorem admits_of_contains {inner : TypeEntry} (hContains : index.Contains (declared unit index) entry inner) :
    (build unit index).Admits inner := by
  obtain ⟨field, hField, hMeaning⟩ := hContains.field
  have hFormed := wellFormed_of_admits hNodup hEntry hIn hField
  exact ((wellFormed_iff_of_within (within_build unit index) field).mp hFormed).2 inner.name hMeaning

/-- A struct that is in at the end does not contain itself. -/
theorem not_contains_of_admits : ¬ Relation.TransGen (index.Contains (declared unit index)) entry entry := by
  have hKey : entry.name ∈ ((declared unit index).embedding index).map Prod.fst :=
    mem_map.mpr ⟨_, mem_map.mpr ⟨entry, hEntry, rfl⟩, rfl⟩
  rw [← containsItself_embedding_iff hNodup hEntry, containsItself_of_build hKey hIn]
  exact Bool.false_ne_true

theorem wellFormed_of_build : index.WellFormed (declared unit index) entry := by
  intro inner hReach
  have hInner : inner ∈ index.valueTypes ∧ (build unit index).Admits inner := by
    induction hReach with
    | refl => exact ⟨hEntry, hIn⟩
    | tail _ hContains ih => exact ⟨hContains.inner_mem, admits_of_contains hNodup ih.1 ih.2 hContains⟩
  refine ⟨fun field hField => ?_, not_contains_of_admits hNodup hInner.1 hInner.2⟩
  have hFormed := wellFormed_of_admits hNodup hInner.1 hInner.2 hField
  exact ((wellFormed_iff_of_within (within_build unit index) field).mp hFormed).1

/-- An instance field of a struct that is in at the end is a number, or another struct that is in. -/
theorem meaning_of_admits (hField : field ∈ entry.decl.instanceFields) :
    ∃ type, field.type.meaning (build unit index) = .value type ∧ (type.isNumeric = true ∨
        ∃ inner ∈ index.valueTypes, type = .struct inner.name ∧ (build unit index).Admits inner ∧ inner ≠ entry) := by
  obtain ⟨-, -, type, hType, hShape⟩ := wellFormed_of_admits hNodup hEntry hIn hField
  refine ⟨type, hType, hShape.imp_right ?_⟩
  rintro ⟨name, rfl⟩
  obtain ⟨hBefore, hStructs⟩ := (TypeExpr.meaningOn_eq_value_iff (within_build unit index) _ _ _ _).mp hType
  obtain ⟨inner, hMem, rfl⟩ := exists_entry_of_meaning hBefore
  refine ⟨inner, hMem, rfl, (hStructs _ rfl).1, ?_⟩
  rintro rfl
  exact not_contains_of_admits hNodup hEntry hIn (.single ⟨hEntry, hEntry, field, hField, hBefore⟩)

end Admitted

/-- Among the structs that are in at the end, containment ends. -/
theorem wellFounded_contains (unit : SourceUnit) :
    WellFounded fun inner outer : { entry // entry ∈ index.valueTypes ∧ (build unit index).Admits entry } =>
      index.Contains (declared unit index) outer.1 inner.1 := by
  let Kept := { entry // entry ∈ index.valueTypes ∧ (build unit index).Admits entry }
  let inside (inner outer : Kept) : Prop := index.Contains (declared unit index) outer.1 inner.1
  have hFinite : Finite Kept := (finite_toSet index.valueTypes).subset fun entry hKept => hKept.1
  have hIrrefl : ∀ kept : Kept, ¬ Relation.TransGen inside kept kept := by
    intro kept hCycle
    have hBack : Relation.TransGen (Function.swap (index.Contains (declared unit index))) kept.1 kept.1 :=
      hCycle.lift Subtype.val fun _ _ hContains => hContains
    exact not_contains_of_admits hNodup kept.2.1 kept.2.2 (Relation.transGen_swap.mp hBack)
  have : Std.Irrefl (Relation.TransGen inside) := ⟨hIrrefl⟩
  have hWell : WellFounded (Relation.TransGen inside) := Finite.wellFounded_of_trans_of_irrefl _
  exact Subrelation.wf (q := inside) Relation.TransGen.single hWell

end Build

/-- Which structs a shader can hold. The rounds that put structs out end because nothing changes any more. A declared
value type is then in exactly when everything that it contains has well formed fields and does not contain itself;
among the types that are in, containment ends, and each of their instance fields is a number or another of them. -/
theorem build_admits_iff (unit : SourceUnit) :
    let index := TypeIndex.build unit
    let table := build unit index
    table.pruned index = table ∧
      (∀ entry ∈ index.valueTypes, ∃ isIn, table.structs.lookup entry.name = some isIn ∧
        (isIn = true ↔ index.WellFormed (declared unit index) entry)) ∧
      (WellFounded fun inner outer : { entry // entry ∈ index.valueTypes ∧ table.Admits entry } =>
        index.Contains (declared unit index) outer.1 inner.1) ∧
      ∀ entry ∈ index.valueTypes, table.Admits entry → ∀ field ∈ entry.decl.instanceFields,
        ∃ type, field.type.meaning table = .value type ∧
          (type.isNumeric = true ∨
            ∃ inner ∈ index.valueTypes, type = .struct inner.name ∧ table.Admits inner ∧ inner ≠ entry) := by
  have hNodup := TypeIndex.nodup_build unit
  have hSpares := spares_build hNodup unit
  refine ⟨pruned_build unit _, fun entry hEntry => ?_, wellFounded_contains hNodup unit,
    fun entry hEntry hIn field hField => meaning_of_admits hNodup hEntry hIn hField⟩
  obtain ⟨isIn, hLookup⟩ := Option.isSome_iff_exists.mp (hSpares.listed entry hEntry)
  refine ⟨isIn, hLookup, fun hTrue => ?_, fun hFormed => ?_⟩
  · exact wellFormed_of_build hNodup hEntry (hLookup.trans (congrArg some hTrue))
  · exact Option.some.inj (hLookup.symm.trans (hSpares.admits entry hEntry hFormed))

end TypeTable

end Shaderlift
