import Mathlib.Data.Fintype.Card
import Mathlib.Data.List.Chain
import Mathlib.Data.List.Nodup
import Mathlib.Data.List.TakeWhile
import Mathlib.Data.Set.Finite.List
import Shaderlift.Layout.Packing
import Shaderlift.Program.Static

/-!
# No struct of a program holds itself

The search for structs that contain themselves runs a fixed number of rounds. A cycle can be shortened
until no struct occurs twice on it, so it is no longer than the number of structs and the search finds it.
What the table of a program keeps is therefore free of cycles: a struct that is still in at the end was in
at the start (`Within`), where the search did not find it on a cycle.
-/

namespace Shaderlift

open List
open Option (map_eq_some_iff bind_eq_some_iff)
open Text (lastSegment)

namespace StructEnv

/-- A struct holds another in one of its fields, as a value or as the element of an array. -/
def Holds (env : StructEnv) (inner outer : String) : Prop :=
  ∃ field ∈ (env outer).getD [], field.type.struct? = some inner

/-- No struct holds itself, directly or through others. -/
def Acyclic (env : StructEnv) : Prop := WellFounded env.Holds

end StructEnv

/-! ## The search for cycles -/

/-- Whatever can be reached can be reached without passing a point twice. -/
theorem exists_simple_chain {α : Type} [DecidableEq α] {r : α → α → Prop} {a b : α}
    (hReach : Relation.ReflTransGen r a b) :
    ∃ path, (a :: path).IsChain r ∧ (a :: path).Nodup ∧ (a :: path).getLast? = some b := by
  induction hReach using Relation.ReflTransGen.head_induction_on with
  | refl => exact ⟨[], by simp, by simp, rfl⟩
  | @head a c hStep _ ih =>
    obtain ⟨path, hChain, hNodup, hLast⟩ := ih
    by_cases hMem : a ∈ c :: path
    · -- The path from `c` comes back to `a`: keep what follows.
      obtain ⟨before, after, hSplit⟩ := append_of_mem hMem
      rw [hSplit] at hChain hNodup hLast
      refine ⟨after, hChain.right_of_append, (nodup_append.mp hNodup).2.1, ?_⟩
      rwa [List.getLast?_append_of_ne_nil _ (by simp)] at hLast
    · refine ⟨c :: path, ?_, nodup_cons.mpr ⟨hMem, hNodup⟩, ?_⟩
      · exact isChain_cons_cons.mpr ⟨hStep, hChain⟩
      · rwa [List.getLast?_cons_cons]

/-- If something follows the last point of a chain, something follows each of its points. -/
theorem exists_step_of_mem_chain {α : Type} {r : α → α → Prop} {b c : α} (hNext : r b c) (path : List α)
    (hChain : path.IsChain r) (hLast : path.getLast? = some b) : ∀ x ∈ path, ∃ y, r x y := by
  induction path with
  | nil => simp
  | cons a rest ih =>
    intro x hx
    cases rest with
    | nil =>
      obtain rfl : a = b := by simpa using hLast
      obtain rfl : x = a := by simpa using hx
      exact ⟨c, hNext⟩
    | cons next more =>
      rw [isChain_cons_cons] at hChain
      rw [List.getLast?_cons_cons] at hLast
      rcases mem_cons.mp hx with rfl | hRest
      · exact ⟨next, hChain.1⟩
      · exact ih hChain.2 hLast x hRest

namespace TypeTable

/-- A struct holds another directly. -/
def Embedding.Edge (embedding : Embedding) (outer inner : String) : Prop :=
  inner ∈ (embedding.lookup outer).getD []

variable {embedding : Embedding} {name : String}

theorem Embedding.Edge.mem_keys {outer inner : String} (hEdge : embedding.Edge outer inner) :
    outer ∈ embedding.map Prod.fst := by
  cases hLookup : embedding.lookup outer with
  | none => simp [Embedding.Edge, hLookup] at hEdge
  | some held => exact mem_map_of_mem (mem_of_lookup hLookup)

theorem mem_heldBy_of_mem (rounds : Nat) {found : List String} (hMem : name ∈ found) :
    name ∈ heldBy embedding rounds found := by
  induction rounds generalizing found with
  | zero => exact hMem
  | succ rounds ih => exact ih (by simp [hMem])

/-- What a chain of structs leads to is found in as many rounds as the chain has steps. -/
theorem mem_heldBy_of_chain (rounds : Nat) (path : List String) (start : String) (found : List String)
    (hChain : (start :: path).IsChain embedding.Edge) (hLast : (start :: path).getLast? = some name)
    (hLength : path.length ≤ rounds) (hStart : start ∈ found) : name ∈ heldBy embedding rounds found := by
  induction rounds generalizing path start found with
  | zero =>
    obtain rfl : path = [] := eq_nil_of_length_eq_zero (Nat.le_zero.mp hLength)
    obtain rfl : start = name := by simpa using hLast
    exact hStart
  | succ rounds ih =>
    cases path with
    | nil =>
      obtain rfl : start = name := by simpa using hLast
      exact mem_heldBy_of_mem (rounds + 1) hStart
    | cons next more =>
      rw [isChain_cons_cons] at hChain
      rw [List.getLast?_cons_cons] at hLast
      apply ih more next _ hChain.2 hLast (by simpa using hLength)
      rw [mem_eraseDups, mem_append, mem_flatMap]
      exact .inr ⟨start, hStart, hChain.1⟩

/-- A struct that holds itself through others is found. -/
theorem containsItself_of_cycle (hCycle : Relation.TransGen embedding.Edge name name) :
    containsItself embedding name = true := by
  obtain ⟨next, hStep, hBack⟩ := Relation.TransGen.head'_iff.mp hCycle
  obtain ⟨path, hChain, hNodup, hLast⟩ := exists_simple_chain hBack
  have hKeys : next :: path ⊆ embedding.map Prod.fst := by
    intro x hx
    obtain ⟨y, hEdge⟩ := exists_step_of_mem_chain hStep (next :: path) hChain hLast x hx
    exact hEdge.mem_keys
  have hLength : (next :: path).length ≤ embedding.length := by
    simpa using (subperm_of_subset hNodup hKeys).length_le
  have hFound : name ∈ heldBy embedding embedding.length ((embedding.lookup name).getD []) :=
    mem_heldBy_of_chain embedding.length path next _ hChain hLast
      (by rw [length_cons] at hLength; omega) hStep
  exact contains_iff_mem.mpr hFound

/-! ## Tables with fewer structs -/

/-- A value that is changed by its key alone is changed where it is looked up. -/
theorem lookup_map_values {α β : Type} (f : String → α → β) (entries : List (String × α)) (key : String) :
    (entries.map fun entry => (entry.1, f entry.1 entry.2)).lookup key = (entries.lookup key).map (f key) := by
  induction entries with
  | nil => rfl
  | cons entry rest ih =>
    rw [map_cons, lookup_cons, lookup_cons]
    cases hKey : key == entry.1 with
    | true =>
      obtain rfl : key = entry.1 := by simpa using hKey
      rfl
    | false => exact ih

theorem lookup_withStruct (table : TypeTable) (name key : String) (isValid : Bool) :
    (table.withStruct name isValid).structs.lookup key =
      (table.structs.lookup key).map fun old => if key == name then isValid else old := by
  rw [← lookup_map_values fun key old => if key == name then isValid else old]
  apply congrArg (List.lookup key)
  apply map_congr_left
  intro entry _
  by_cases hName : entry.1 = name
  · simp [hName]
  · simp [hName]

theorem lookup_pruned (table : TypeTable) (index : TypeIndex) (key : String) :
    (table.pruned index).structs.lookup key =
      (table.structs.lookup key).map fun old => old && table.allowsStruct index key :=
  lookup_map_values (fun key old => old && table.allowsStruct index key) table.structs key

/-- A table has the aliases of another, and no struct is in that is not in there. -/
structure Within (after before : TypeTable) : Prop where
  aliases : after.aliases = before.aliases
  structs : ∀ name, after.structs.lookup name = some true → before.structs.lookup name = some true

namespace Within

theorem refl (table : TypeTable) : Within table table := ⟨rfl, fun _ hName => hName⟩

theorem trans {first second third : TypeTable} (hFirst : Within first second)
    (hSecond : Within second third) : Within first third :=
  ⟨hFirst.aliases.trans hSecond.aliases, fun name hName => hSecond.structs name (hFirst.structs name hName)⟩

end Within

theorem within_withStruct_false (table : TypeTable) (name : String) : Within (table.withStruct name false) table := by
  refine ⟨rfl, fun key hKey => ?_⟩
  rw [lookup_withStruct, map_eq_some_iff] at hKey
  obtain ⟨old, hOld, hTrue⟩ := hKey
  by_cases hName : key = name
  · simp [hName] at hTrue
  · simp only [beq_iff_eq, hName, if_false] at hTrue
    rw [hOld, hTrue]

theorem within_pruned (table : TypeTable) (index : TypeIndex) : Within (table.pruned index) table := by
  refine ⟨rfl, fun key hKey => ?_⟩
  rw [lookup_pruned, map_eq_some_iff] at hKey
  obtain ⟨old, hOld, hTrue⟩ := hKey
  rw [hOld, (Bool.and_eq_true_iff.mp hTrue).1]

theorem within_settled (index : TypeIndex) (rounds : Nat) (table : TypeTable) :
    Within (settled index rounds table) table := by
  induction rounds generalizing table with
  | zero => exact .refl table
  | succ rounds ih =>
    simp only [settled]
    split
    · exact .refl table
    · exact (ih (table.pruned index)).trans (within_pruned table index)

/-- Putting out the structs on cycles, entry by entry. -/
theorem foldl_withoutCycles (embedding : Embedding) (entries : Embedding) (table : TypeTable) :
    let result := entries.foldl
      (fun result entry =>
        if containsItself embedding entry.1 then result.withStruct entry.1 false else result) table
    Within result table ∧
      ∀ name ∈ entries.map Prod.fst, result.structs.lookup name = some true →
        containsItself embedding name = false := by
  induction entries generalizing table with
  | nil => exact ⟨.refl table, by simp⟩
  | cons entry rest ih =>
    rw [foldl_cons]
    cases hCycle : containsItself embedding entry.1 with
    | false =>
      obtain ⟨hWithin, hRest⟩ := ih table
      exact ⟨hWithin, forall_mem_cons.mpr ⟨fun _ => hCycle, hRest⟩⟩
    | true =>
      obtain ⟨hWithin, hRest⟩ := ih (table.withStruct entry.1 false)
      refine ⟨hWithin.trans (within_withStruct_false table entry.1), forall_mem_cons.mpr ⟨fun hIn => ?_, hRest⟩⟩
      -- The entry has just been put out, and nothing puts it in again.
      have hStill := hWithin.structs _ hIn
      rw [lookup_withStruct, map_eq_some_iff] at hStill
      obtain ⟨old, -, hFalse⟩ := hStill
      simp at hFalse

/-- What a table was before structs were put out. -/
theorem within_build (unit : SourceUnit) (index : TypeIndex) :
    Within (build unit index) (declared unit index) :=
  (within_settled index _ _).trans (foldl_withoutCycles _ _ _).1

theorem containsItself_of_build {unit : SourceUnit} {index : TypeIndex}
    (hKey : name ∈ ((declared unit index).embedding index).map Prod.fst)
    (hIn : (build unit index).structs.lookup name = some true) :
    containsItself ((declared unit index).embedding index) name = false :=
  (foldl_withoutCycles _ _ _).2 name hKey ((within_settled index _ _).structs name hIn)

end TypeTable

/-! ## What names a struct -/

theorem ValueType.struct?_of_ofName? {name : String} {type : ValueType}
    (hName : ValueType.ofName? name = some type) : type.struct? = none := by
  unfold ofName? at hName
  split at hName
  · rename_i found hLookup
    have hPlain : ∀ entry ∈ plainNames, entry.2.struct? = none := by decide
    obtain rfl : found = type := Option.some.inj hName
    exact hPlain _ (mem_of_lookup hLookup)
  · obtain ⟨⟨start, kind⟩, -, hShaped⟩ := exists_of_findSome?_eq_some hName
    obtain ⟨rest, -, hShape⟩ := bind_eq_some_iff.mp hShaped
    unfold shaped? at hShape
    split at hShape
    · obtain ⟨width, -, rfl⟩ := map_eq_some_iff.mp hShape
      rfl
    · simp only [bind, bind_eq_some_iff] at hShape
      obtain ⟨rows, -, cols, -, hType⟩ := hShape
      obtain rfl := Option.some.inj hType
      rfl
    · exact absurd hShape (by simp)

theorem Text.lastSegment_lastSegment (name : String) :
    lastSegment (lastSegment name) = lastSegment name := by
  simp only [lastSegment, String.toList_ofList, reverse_reverse]
  rw [takeWhile_idem]

namespace TypeExpr

theorem foreign_ne_value (table : TypeTable) (type : TypeExpr) (simple : String) (val : ValueType) :
    foreign table type simple ≠ .value val := by
  unfold foreign
  split <;> simp

theorem appliedMeaning_ne_value (table : TypeTable) (type : TypeExpr) (name : String) (arity : Nat)
    (first : TypeExpr) (meaning : Meaning) (val : ValueType) :
    appliedMeaning table type name arity first meaning ≠ .value val := by
  unfold appliedMeaning
  dsimp only
  split
  · simp
  · simp
  · exact foreign_ne_value table type _ val

/-- A name that is neither an alias nor built in means a value exactly when it is that of a struct that is in. -/
theorem wordMeaning_eq_value_iff {table : TypeTable} {follow : Nat → TypeExpr → Meaning} {depth : Nat}
    {type : TypeExpr} {name : String} (hAlias : table.aliases.lookup name = none)
    (hBuiltIn : ValueType.ofName? (lastSegment name) = none) (val : ValueType) :
    wordMeaning table follow depth type name = .value val ↔
      table.structs.lookup (lastSegment name) = some true ∧ val = .struct (lastSegment name) := by
  simp only [wordMeaning, hAlias, hBuiltIn]
  cases table.structs.lookup (lastSegment name) with
  | none => simp [foreign_ne_value]
  | some isIn =>
    cases isIn with
    | false => simp
    | true => simp [eq_comm]

/-- A table with fewer structs sees the values that the other sees, but for the structs that are out. -/
theorem meaningOn_eq_value_iff {after before : TypeTable} (hWithin : after.Within before) (fuel depth : Nat)
    (type : TypeExpr) (val : ValueType) : meaningOn after fuel depth type = .value val ↔
      meaningOn before fuel depth type = .value val ∧ ∀ name, val.struct? = some name →
        after.structs.lookup name = some true ∧ lastSegment name = name ∧ val = .struct name := by
  induction fuel generalizing depth type with
  | zero => simp [meaningOn]
  | succ fuel ih =>
    cases type with
    | pointer | functionPointer | tuple | byRef | array | nullable => simp [meaningOn, meaningWith]
    | named span written args =>
      cases args with
      | cons first rest => simp [meaningOn, meaningWith, appliedMeaning_ne_value]
      | nil =>
        simp only [meaningOn, meaningWith]
        cases hAlias : before.aliases.lookup written with
        | some target =>
          simp only [wordMeaning, hWithin.aliases, hAlias]
          split
          · simp
          · exact ih (depth + 1) target
        | none =>
          cases hBuiltIn : ValueType.ofName? (lastSegment written) with
          | some found =>
            simp only [wordMeaning, hWithin.aliases, hAlias, hBuiltIn]
            refine ⟨fun hVal => ⟨hVal, fun name hName => ?_⟩, fun hBoth => hBoth.1⟩
            cases hVal
            rw [ValueType.struct?_of_ofName? hBuiltIn] at hName
            cases hName
          | none =>
            rw [wordMeaning_eq_value_iff (hWithin.aliases ▸ hAlias) hBuiltIn,
              wordMeaning_eq_value_iff hAlias hBuiltIn]
            constructor
            · rintro ⟨hIn, rfl⟩
              refine ⟨⟨hWithin.structs _ hIn, rfl⟩, fun name hName => ?_⟩
              cases hName
              exact ⟨hIn, Text.lastSegment_lastSegment written, rfl⟩
            · rintro ⟨⟨-, rfl⟩, hIn⟩
              exact ⟨(hIn _ rfl).1, rfl⟩

end TypeExpr

/-! ## One type for each name -/

namespace TypeIndex

theorem nodup_firstOfEach (entries : List TypeEntry) : ((firstOfEach entries).map TypeEntry.name).Nodup := by
  have hStep : ∀ (rest kept : List TypeEntry), (kept.map TypeEntry.name).Nodup →
      ((rest.foldl (fun kept entry =>
        if kept.any fun other => other.name == entry.name then kept else kept ++ [entry]) kept).map
          TypeEntry.name).Nodup := by
    intro rest
    induction rest with
    | nil => exact fun kept hKept => hKept
    | cons entry rest ih =>
      intro kept hKept
      rw [foldl_cons]
      apply ih
      split
      · exact hKept
      · rename_i hNew
        rw [map_append, nodup_append]
        refine ⟨hKept, by simp, fun name hName other hOther => ?_⟩
        obtain ⟨found, hFound, rfl⟩ := mem_map.mp hName
        obtain rfl : other = entry.name := by simpa using hOther
        intro hSame
        exact hNew (any_eq_true.mpr ⟨found, hFound, by simpa using hSame⟩)
  exact hStep entries [] nodup_nil

theorem insertByName_perm (entry : TypeEntry) (entries : List TypeEntry) :
    (insertByName entry entries).Perm (entry :: entries) := by
  induction entries with
  | nil => exact .refl _
  | cons other rest ih =>
    simp only [insertByName]
    split
    · exact (ih.cons other).trans (.swap entry other rest)
    · exact .refl _

theorem orderByName_perm (entries : List TypeEntry) : (orderByName entries).Perm entries := by
  induction entries with
  | nil => exact .refl _
  | cons entry rest ih => exact (insertByName_perm entry (orderByName rest)).trans (ih.cons entry)

theorem nodup_build (unit : SourceUnit) : ((build unit).entries.map TypeEntry.name).Nodup :=
  ((orderByName_perm _).map TypeEntry.name).nodup_iff.mpr (nodup_firstOfEach _)

variable {entry : TypeEntry} {index : TypeIndex}

theorem find?_of_mem (hNodup : (index.entries.map TypeEntry.name).Nodup) (hMem : entry ∈ index.entries) :
    (index.entries.find? fun other => other.name == entry.name) = some entry := by
  cases hFound : index.entries.find? fun other => other.name == entry.name with
  | none =>
    rw [List.find?_eq_none] at hFound
    exact absurd (beq_self_eq_true entry.name) (hFound entry hMem)
  | some other =>
    have hName : other.name = entry.name := by simpa using List.find?_some hFound
    exact congrArg some (inj_on_of_nodup_map hNodup (mem_of_find?_eq_some hFound) hMem hName)

theorem get?_of_mem (hNodup : (index.entries.map TypeEntry.name).Nodup) (hMem : entry ∈ index.entries)
    (hPlain : lastSegment entry.name = entry.name) : index.get? entry.name = some entry := by
  unfold get?
  rw [hPlain]
  exact find?_of_mem hNodup hMem

end TypeIndex

namespace TypeTable

/-- Steps that leave the structs alone leave them alone together. -/
theorem structs_foldl {step : TypeTable → UsingDirective → TypeTable}
    (hStep : ∀ table directive, (step table directive).structs = table.structs)
    (usings : List UsingDirective) (table : TypeTable) : (usings.foldl step table).structs = table.structs := by
  induction usings generalizing table with
  | nil => rfl
  | cons directive rest ih => rw [foldl_cons, ih, hStep]

theorem declared_structs (unit : SourceUnit) (index : TypeIndex) : (declared unit index).structs =
      (index.entries.filter TypeEntry.isValueType).map fun entry => (entry.name, true) := by
  refine structs_foldl (fun table directive => ?_) unit.usings _
  split
  · rfl
  · rfl

theorem exists_entry_of_declared {unit : SourceUnit} {index : TypeIndex} {name : String}
    (hIn : (declared unit index).structs.lookup name = some true) :
    ∃ entry ∈ index.entries, entry.isValueType = true ∧ entry.name = name := by
  rw [declared_structs] at hIn
  obtain ⟨entry, hEntry, hPair⟩ := mem_map.mp (mem_of_lookup hIn)
  obtain ⟨hEntries, hVal⟩ := mem_filter.mp hEntry
  exact ⟨entry, hEntries, hVal, congrArg Prod.fst hPair⟩

/-- What a declared value type holds is listed under its name. -/
theorem lookup_embedding (table : TypeTable) {index : TypeIndex}
    (hNodup : (index.entries.map TypeEntry.name).Nodup) {entry : TypeEntry} (hMem : entry ∈ index.entries)
    (hVal : entry.isValueType = true) :
    (table.embedding index).lookup entry.name = some (table.embedded entry.decl) := by
  have hKey : (entry.name, table.embedded entry.decl) ∈ table.embedding index :=
    mem_map.mpr ⟨entry, mem_filter.mpr ⟨hMem, hVal⟩, rfl⟩
  cases hLookup : (table.embedding index).lookup entry.name with
  | none =>
    rw [lookup_eq_none_iff] at hLookup
    simpa using hLookup _ hKey
  | some held =>
    obtain ⟨other, hFiltered, hPair⟩ := mem_map.mp (mem_of_lookup hLookup)
    obtain rfl : other = entry := inj_on_of_nodup_map hNodup
      (mem_of_mem_filter hFiltered) hMem (congrArg Prod.fst hPair)
    exact congrArg some (congrArg Prod.snd hPair).symm

end TypeTable

/-! ## The structs of a program -/

namespace Program

theorem parts_of_build {unit : SourceUnit} {shader : TypeDecl} {prog : Program} {report : Report}
    (hBuild : build unit shader = (some prog, report)) : prog.index = TypeIndex.build unit ∧
      prog.table = TypeTable.build unit (TypeIndex.build unit) ∧ prog.shader = shader ∧
      prog.entry = findEntry shader := by
  unfold build at hBuild
  dsimp only at hBuild
  split at hBuild
  · cases hBuild
  · cases hBuild
    exact ⟨rfl, rfl, rfl, rfl⟩

variable {prog : Program} {fields : List FieldDecl} {resolved : List StructField}

/-- A resolved struct has a field for each declared name, of the type of its declaration. -/
theorem types_resolveFields (hResolved : prog.resolveFields fields = some resolved) :
    resolved.map (fun known => some known.type) =
      fields.flatMap fun field => field.declarators.map fun _ => prog.valueType? field.type := by
  induction fields generalizing resolved with
  | nil =>
    cases hResolved
    rfl
  | cons field rest ih =>
    simp only [resolveFields, bind, bind_eq_some_iff] at hResolved
    obtain ⟨type, hType, others, hOthers, hAll⟩ := hResolved
    cases hAll
    rw [map_append, ih hOthers, flatMap_cons, map_map, hType]
    rfl

theorem exists_decl_of_mem_resolveFields (hResolved : prog.resolveFields fields = some resolved) {known : StructField}
    (hKnown : known ∈ resolved) : ∃ decl ∈ fields, prog.valueType? decl.type = some known.type := by
  have hType : some known.type ∈ resolved.map fun known => some known.type := mem_map.mpr ⟨known, hKnown, rfl⟩
  rw [types_resolveFields hResolved] at hType
  obtain ⟨decl, hDecl, hVal⟩ := mem_flatMap.mp hType
  obtain ⟨-, -, hSame⟩ := mem_map.mp hVal
  exact ⟨decl, hDecl, hSame⟩

section Built

variable {unit : SourceUnit} {shader : TypeDecl} {report : Report}
  (hBuild : build unit shader = (some prog, report))

include hBuild

variable {inner outer : String}

/-- What a struct holds is a struct that is in, and a type of its declaration meant it from the start. -/
theorem holds_cases (hHolds : StructEnv.Holds prog.structFields? inner outer) :
    prog.table.structs.lookup inner = some true ∧ lastSegment inner = inner ∧
      ∃ decl, prog.typeDecl? outer = some decl ∧ inner ∈ (TypeTable.declared unit prog.index).embedded decl := by
  obtain ⟨hIdx, hTable, -⟩ := parts_of_build hBuild
  obtain ⟨field, hField, hStruct⟩ := hHolds
  cases hFields : prog.structFields? outer with
  | none => simp [hFields] at hField
  | some fields =>
    rw [hFields, Option.getD_some] at hField
    simp only [structFields?, bind, bind_eq_some_iff] at hFields
    obtain ⟨decl, hDecl, hResolved⟩ := hFields
    obtain ⟨src, hSrc, hType⟩ := exists_decl_of_mem_resolveFields hResolved hField
    have hMeaning : src.type.meaning prog.table = .value field.type := by
      unfold valueType? meaning Meaning.value? at hType
      split at hType
      · rename_i hVal
        rw [hVal, Option.some.inj hType]
      · cases hType
    rw [hTable] at hMeaning
    obtain ⟨hBefore, hStructs⟩ := (TypeExpr.meaningOn_eq_value_iff
      (TypeTable.within_build unit (TypeIndex.build unit)) _ _ _ _).mp hMeaning
    obtain ⟨hIn, hPlain, hVal⟩ := hStructs inner hStruct
    rw [hVal] at hBefore
    refine ⟨hTable ▸ hIn, hPlain, decl, hDecl, ?_⟩
    rw [hIdx]
    refine mem_filterMap.mpr ⟨src, hSrc, ?_⟩
    rw [show src.type.meaning (TypeTable.declared unit (TypeIndex.build unit)) =
      .value (.struct inner) from hBefore]

/-- A struct that is in holds its structs along the edges that the search for cycles follows. -/
theorem edge_of_holds (hIn : prog.table.structs.lookup outer = some true) (hPlain : lastSegment outer = outer)
    (hHolds : StructEnv.Holds prog.structFields? inner outer) :
    ((TypeTable.declared unit prog.index).embedding prog.index).Edge outer inner := by
  obtain ⟨hIdx, hTable, -⟩ := parts_of_build hBuild
  obtain ⟨-, -, decl, hDecl, hMem⟩ := holds_cases hBuild hHolds
  have hNodup : (prog.index.entries.map TypeEntry.name).Nodup := hIdx ▸ TypeIndex.nodup_build unit
  rw [hTable, ← hIdx] at hIn
  obtain ⟨entry, hEntry, hVal, rfl⟩ := TypeTable.exists_entry_of_declared
    ((TypeTable.within_build unit prog.index).structs outer hIn)
  unfold typeDecl? at hDecl
  rw [TypeIndex.get?_of_mem hNodup hEntry hPlain] at hDecl
  obtain rfl : entry.decl = decl := Option.some.inj hDecl
  unfold TypeTable.Embedding.Edge
  rw [TypeTable.lookup_embedding _ hNodup hEntry hVal]
  exact hMem

/-- No struct of a program holds itself, directly or through others. -/
theorem acyclic_structFields? : StructEnv.Acyclic prog.structFields? := by
  obtain ⟨hIdx, hTable, -⟩ := parts_of_build hBuild
  -- The structs that can be held at all are finitely many, and on them the relation has no cycle.
  let Held := { name : String //
    prog.table.structs.lookup name = some true ∧ lastSegment name = name }
  let inside (inner outer : Held) : Prop := StructEnv.Holds prog.structFields? inner.1 outer.1
  let edge := ((TypeTable.declared unit prog.index).embedding prog.index).Edge
  have hEdge : ∀ inner outer : Held, inside inner outer → edge outer.1 inner.1 :=
    fun inner outer hHolds => edge_of_holds hBuild outer.2.1 outer.2.2 hHolds
  have hEdges : ∀ inner outer : Held, Relation.TransGen inside inner outer →
      Relation.TransGen edge outer.1 inner.1 := by
    intro inner outer hInside
    induction hInside with
    | single hHolds => exact .single (hEdge _ _ hHolds)
    | tail _ hHolds ih => exact .head (hEdge _ _ hHolds) ih
  have hIrrefl : ∀ held : Held, ¬Relation.TransGen inside held held := by
    intro held hCycle
    obtain ⟨next, hStep, -⟩ := Relation.TransGen.head'_iff.mp (hEdges held held hCycle)
    have hFree : TypeTable.containsItself
        ((TypeTable.declared unit prog.index).embedding prog.index) held.1 = false :=
      TypeTable.containsItself_of_build hStep.mem_keys (by rw [hIdx, ← hTable]; exact held.2.1)
    rw [TypeTable.containsItself_of_cycle (hEdges held held hCycle)] at hFree
    cases hFree
  have hFinite : Finite Held := by
    apply Set.Finite.subset (finite_toSet (prog.table.structs.map Prod.fst))
    exact fun name hName => mem_map.mpr ⟨_, mem_of_lookup hName.1, rfl⟩
  have : Std.Irrefl (Relation.TransGen inside) := ⟨hIrrefl⟩
  have hWell : WellFounded (Relation.TransGen inside) := Finite.wellFounded_of_trans_of_irrefl _
  have hHeld : ∀ held : Held, Acc (StructEnv.Holds prog.structFields?) held.1 := by
    intro held
    induction held using hWell.induction with
    | h held ih =>
      refine ⟨_, fun inner hHolds => ?_⟩
      obtain ⟨hIn, hPlain, -⟩ := holds_cases hBuild hHolds
      exact ih ⟨inner, hIn, hPlain⟩ (.single hHolds)
  refine ⟨fun outer => ⟨_, fun inner hHolds => ?_⟩⟩
  obtain ⟨hIn, hPlain, -⟩ := holds_cases hBuild hHolds
  exact hHeld ⟨inner, hIn, hPlain⟩

end Built

end Program

end Shaderlift
