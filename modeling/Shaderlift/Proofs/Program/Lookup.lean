import Shaderlift.Proofs.Reading.Declared

/-!
# Finding a type by its full name

The index keeps one type for each simple name, the first in source order, and a search by a qualified name goes
through the entry of its last segment. A type is therefore found by its full name exactly when no type before it
has its simple name, wherever that other type is declared. If one has, the answer is nothing, or that other type
where the full name reads like a shorter name of it.
-/

namespace Shaderlift

open List

/-- Return the full name of a type: its namespace, the types around it and its own name. -/
def TypeEntry.fullName (entry : TypeEntry) : String :=
  match entry.namespace? with
  | some space => Text.dotted space entry.nestedName
  | none => entry.nestedName

namespace SourceUnit

/-- List the types of a source text in source order, an outer type before those inside it. -/
def typeEntries (unit : SourceUnit) : List TypeEntry := unit.types.flatMap (TypeIndex.entriesOf [])

/-- A type is declared in a source text, inside the given types, the outermost first. -/
inductive Declares (unit : SourceUnit) : List TypeDecl → TypeDecl → Prop
  | outside {decl : TypeDecl} (hDecl : decl ∈ unit.types) : Declares unit [] decl
  | inside {enclosing : List TypeDecl} {outer decl : TypeDecl} (hOuter : Declares unit enclosing outer)
      (hDecl : decl ∈ outer.nested) : Declares unit (enclosing ++ [outer]) decl

end SourceUnit

/-! ## The types of a source text -/

namespace TypeIndex

variable {decl inner : TypeDecl} {enclosing : List TypeDecl} {entry : TypeEntry} {unit : SourceUnit}

theorem mem_nested : inner ∈ decl.nested ↔ Member.type inner ∈ decl.members := by
  rw [TypeDecl.nested, mem_filterMap]
  constructor
  · rintro ⟨member, hMember, hInner⟩
    cases member with
    | type other => cases hInner; exact hMember
    | field | method | property | constructor => cases hInner
  · exact fun hMember => ⟨_, hMember, rfl⟩

theorem mem_entriesOf_self (enclosing : List TypeDecl) (decl : TypeDecl) :
    (⟨decl, enclosing⟩ : TypeEntry) ∈ entriesOf enclosing decl := by
  cases decl
  simp [entriesOf]

theorem mem_entriesOf_of_nested (hInner : inner ∈ decl.nested) (hEntry : entry ∈ entriesOf (enclosing ++ [decl]) inner) :
    entry ∈ entriesOf enclosing decl := by
  obtain ⟨header, members⟩ := decl
  rw [entriesOf]
  exact mem_cons_of_mem _ (mem_entriesOfMembers.mpr ⟨_, mem_nested.mp hInner, hEntry⟩)

mutual

theorem declares_of_mem {unit : SourceUnit} {enclosing : List TypeDecl} {entry : TypeEntry} :
    ∀ decl, unit.Declares enclosing decl → entry ∈ entriesOf enclosing decl → unit.Declares entry.enclosing entry.decl
  | ⟨header, members⟩, hDecl, hEntry => by
    rw [entriesOf] at hEntry
    rcases mem_cons.mp hEntry with rfl | hInner
    · exact hDecl
    · exact declares_of_mem_members members hDecl (fun _ hMember => hMember) hInner

theorem declares_of_mem_members {unit : SourceUnit} {enclosing : List TypeDecl} {outer : TypeDecl} {entry : TypeEntry} :
    ∀ members, unit.Declares enclosing outer → (∀ member ∈ members, member ∈ outer.members) →
      entry ∈ entriesOfMembers (enclosing ++ [outer]) members → unit.Declares entry.enclosing entry.decl
  | [], _, _, hEntry => by rw [entriesOfMembers] at hEntry; cases hEntry
  | member :: rest, hOuter, hMembers, hEntry => by
    rw [entriesOfMembers] at hEntry
    rcases mem_append.mp hEntry with hHere | hRest
    · exact declares_of_mem_member member hOuter (hMembers _ mem_cons_self) hHere
    · exact declares_of_mem_members rest hOuter (fun _ hMember => hMembers _ (mem_cons_of_mem _ hMember)) hRest

theorem declares_of_mem_member {unit : SourceUnit} {enclosing : List TypeDecl} {outer : TypeDecl} {entry : TypeEntry} :
    ∀ member, unit.Declares enclosing outer → member ∈ outer.members →
      entry ∈ entriesOfMember (enclosing ++ [outer]) member → unit.Declares entry.enclosing entry.decl
  | .type decl, hOuter, hMember, hEntry => by
    rw [entriesOfMember] at hEntry
    exact declares_of_mem decl (.inside hOuter (mem_nested.mpr hMember)) hEntry
  | .field _, _, _, hEntry | .method _, _, _, hEntry | .property _, _, _, hEntry | .constructor _, _, _, hEntry => by
    rw [entriesOfMember] at hEntry
    cases hEntry

end

/-- Some type outside all others lists what a declared type lists. -/
theorem exists_mem_of_declares (hDeclares : unit.Declares enclosing decl) :
    ∀ entry ∈ entriesOf enclosing decl, ∃ outermost ∈ unit.types, entry ∈ entriesOf [] outermost := by
  induction hDeclares with
  | outside hDecl => exact fun entry hEntry => ⟨_, hDecl, hEntry⟩
  | inside _ hInner ih => exact fun entry hEntry => ih entry (mem_entriesOf_of_nested hInner hEntry)

theorem mem_typeEntries_iff : entry ∈ unit.typeEntries ↔ unit.Declares entry.enclosing entry.decl := by
  rw [SourceUnit.typeEntries, mem_flatMap]
  constructor
  · rintro ⟨decl, hDecl, hEntry⟩
    exact declares_of_mem decl (.outside hDecl) hEntry
  · intro hDeclares
    exact exists_mem_of_declares hDeclares entry (mem_entriesOf_self _ _)

/-! ## One type for each name -/

def named (name : String) (entry : TypeEntry) : Bool := entry.name == name

theorem find?_firstOfEach (name : String) (entries : List TypeEntry) :
    (firstOfEach entries).find? (named name) = entries.find? (named name) := by
  -- What is kept so far is searched first.
  suffices hKept : ∀ kept : List TypeEntry,
      (entries.foldl (fun kept entry =>
        if kept.any fun other => other.name == entry.name then kept else kept ++ [entry]) kept).find? (named name) =
        (kept.find? (named name)).or (entries.find? (named name)) by
    exact hKept []
  induction entries with
  | nil => simp
  | cons entry rest ih =>
    intro kept
    rw [foldl_cons, ih]
    by_cases hAny : (kept.any fun other => other.name == entry.name) = true
    · rw [if_pos hAny]
      by_cases hName : named name entry = true
      · -- The name is that of an entry which is kept already, so the search ends there.
        have hFound : (kept.find? (named name)).isSome = true := by
          obtain ⟨other, hOther, hSame⟩ := any_eq_true.mp hAny
          refine List.find?_isSome.mpr ⟨other, hOther, ?_⟩
          simp only [named, beq_iff_eq] at hName hSame ⊢
          rw [hSame, hName]
        obtain ⟨found, hFound⟩ := Option.isSome_iff_exists.mp hFound
        rw [hFound, Option.some_or, Option.some_or]
      · rw [List.find?_cons_of_neg hName]
    · rw [if_neg hAny, List.find?_append, Option.or_assoc, ← List.find?_append, singleton_append]

theorem find?_insertByName (name : String) (entry : TypeEntry) (entries : List TypeEntry) :
    (insertByName entry entries).find? (named name) = (entry :: entries).find? (named name) := by
  induction entries with
  | nil => rfl
  | cons other rest ih =>
    rw [insertByName]
    split
    next hAfter =>
      -- An entry that is passed has another name.
      have hOther : entry.name ≠ other.name := by
        intro hSame
        rw [hSame, Std.compare_self] at hAfter
        cases hAfter
      rw [List.find?_cons, ih]
      by_cases hName : named name entry = true
      · have hNot : named name other = false := by
          simp only [named, beq_iff_eq, beq_eq_false_iff_ne] at hName ⊢
          exact fun hSame => hOther (hName.trans hSame.symm)
        rw [hNot, List.find?_cons_of_pos hName, List.find?_cons_of_pos hName]
      · rw [List.find?_cons_of_neg hName, List.find?_cons_of_neg hName, List.find?_cons]
    · rfl

theorem find?_orderByName (name : String) (entries : List TypeEntry) :
    (orderByName entries).find? (named name) = entries.find? (named name) := by
  induction entries with
  | nil => rfl
  | cons entry rest ih =>
    rw [orderByName, foldr_cons, ← orderByName, find?_insertByName, List.find?_cons, ih, List.find?_cons]

/-- The index answers with the first type of the simple name. -/
theorem get?_build (unit : SourceUnit) (name : String) :
    (build unit).get? name = unit.typeEntries.find? (named (Text.lastSegment name)) := by
  calc (build unit).get? name
      = (orderByName (firstOfEach unit.typeEntries)).find? (named (Text.lastSegment name)) := rfl
    _ = unit.typeEntries.find? (named (Text.lastSegment name)) := by rw [find?_orderByName, find?_firstOfEach]

/-- A search by a name takes the entry of its last segment if the name is one of those that it goes by. -/
theorem find?_eq_filter (index : TypeIndex) (name : String) :
    index.find? name = (index.get? name).filter fun entry =>
      name == entry.name || name == entry.nestedName || name == entry.fullName := by
  rw [find?]
  cases index.get? name with
  | none => rfl
  | some entry =>
    -- Without a namespace the full name is the nested one.
    have hFull : (name = entry.nestedName ∨ entry.namespace?.map (Text.dotted · entry.nestedName) = some name) ↔
        (name = entry.nestedName ∨ name = entry.fullName) := by
      unfold TypeEntry.fullName
      split
      next space hSpace =>
        rw [hSpace]
        exact or_congr_right ⟨fun hSome => (Option.some.inj hSome).symm, fun hEq => congrArg some hEq.symm⟩
      next hSpace => simp [hSpace]
    simp only [Option.filter, Bool.or_eq_true, beq_iff_eq, or_assoc, hFull]

end TypeIndex

/-! ## Full names -/

namespace Text

theorem lastSegment_dotted (qualifier name : String) : lastSegment (dotted qualifier name) = lastSegment name := by
  simp only [lastSegment, dotted, String.toList_append, reverse_append, append_assoc]
  rw [takeWhile_append]
  split
  next hAll =>
    have hWhole : name.toList.reverse.takeWhile (· != '.') = name.toList.reverse :=
      ( takeWhile_prefix _).eq_of_length hAll
    rw [hWhole]
    simp
  · rfl

theorem lastSegment_of_dotFree {name : String} (hName : DotFree name) : lastSegment name = name := by
  have hWhole : name.toList.reverse.takeWhile (· != '.') = name.toList.reverse := by
    refine takeWhile_eq_self_iff.mpr fun c hc => ?_
    simp only [bne_iff_ne]
    rintro rfl
    exact hName (mem_reverse.mp hc)
  rw [lastSegment, hWhole, reverse_reverse, String.ofList_toList]

theorem lastSegment_joinWith (names : List String) (name : String) :
    lastSegment (joinWith "." (names ++ [name])) = lastSegment name := by
  induction names with
  | nil => rfl
  | cons first rest ih =>
    have hJoin : joinWith "." (first :: rest ++ [name]) = dotted first (joinWith "." (rest ++ [name])) := by
      cases rest <;> rfl
    rw [hJoin, lastSegment_dotted, ih]

end Text

theorem TypeEntry.lastSegment_fullName {entry : TypeEntry} (hName : Text.DotFree entry.name) :
    Text.lastSegment entry.fullName = entry.name := by
  have hNested : Text.lastSegment entry.nestedName = entry.name := by
    rw [nestedName, Text.lastSegment_joinWith, Text.lastSegment_of_dotFree hName]
  unfold fullName
  split
  · rw [Text.lastSegment_dotted, hNested]
  · exact hNested

/-- A type is found by its full name exactly when no type before it has its simple name. -/
theorem find?_fullName {source : String} {unit : SourceUnit} (hParse : SourceUnit.parse source = .ok unit)
    (before after : List TypeEntry) (entry : TypeEntry) (hEntries : unit.typeEntries = before ++ entry :: after)
    (hUnique : ∀ other ∈ before ++ after, other.fullName ≠ entry.fullName) :
    (∀ other, other ∈ unit.typeEntries ↔ unit.Declares other.enclosing other.decl) ∧
      ((TypeIndex.build unit).find? entry.fullName = some entry ↔ ∀ other ∈ before, other.name ≠ entry.name) ∧
      ∀ first, before.find? (·.name == entry.name) = some first →
        (TypeIndex.build unit).find? entry.fullName =
          if entry.fullName = first.name ∨ entry.fullName = first.nestedName then some first else none := by
  have hName : Text.DotFree entry.name := by
    obtain ⟨decl, hDecl, hEntry⟩ := mem_flatMap.mp (show entry ∈ unit.typeEntries by simp [hEntries])
    exact undotted_of_parse hParse decl hDecl [] entry hEntry
  have hGet : (TypeIndex.build unit).get? entry.fullName =
      (before.find? (TypeIndex.named entry.name)).or (some entry) := by
    rw [TypeIndex.get?_build, TypeEntry.lastSegment_fullName hName, hEntries, List.find?_append,
      List.find?_cons_of_pos (by simp [TypeIndex.named])]
  have hFirst : ∀ first, before.find? (TypeIndex.named entry.name) = some first →
      (TypeIndex.build unit).find? entry.fullName =
        if entry.fullName = first.name ∨ entry.fullName = first.nestedName then some first else none := by
    intro first hFound
    have hOther : entry.fullName ≠ first.fullName :=
      (hUnique first (mem_append_left _ (mem_of_find?_eq_some hFound))).symm
    rw [TypeIndex.find?_eq_filter, hGet, hFound]
    simp [Option.filter, hOther]
  refine ⟨fun _ => TypeIndex.mem_typeEntries_iff, ⟨fun hFind => ?_, fun hNew => ?_⟩, hFirst⟩
  · -- If an earlier type had the simple name, the answer could only be that type, whose full name is another.
    intro other hOther hSame
    have hSome : (before.find? (TypeIndex.named entry.name)).isSome = true :=
      List.find?_isSome.mpr ⟨other, hOther, by simpa [TypeIndex.named] using hSame⟩
    obtain ⟨first, hFound⟩ := Option.isSome_iff_exists.mp hSome
    rw [hFirst first hFound] at hFind
    split at hFind
    · obtain rfl := Option.some.inj hFind
      exact hUnique first (mem_append_left _ (mem_of_find?_eq_some hFound)) rfl
    · cases hFind
  · have hNone : before.find? (TypeIndex.named entry.name) = none :=
      List.find?_eq_none.mpr fun other hOther => by simpa [TypeIndex.named] using hNew other hOther
    rw [TypeIndex.find?_eq_filter, hGet, hNone]
    simp [Option.filter]

/-- Two types with one simple name. -/
def namesakes : String :=
  "namespace A \x7b struct T \x7b struct U \x7b \x7d \x7d \x7d namespace B.C \x7b struct T \x7b \x7d \x7d"

def TypeEntry.names (entry : TypeEntry) : String × String × String := (entry.name, entry.nestedName, entry.fullName)

set_option maxRecDepth 100000 in
theorem names_namesakes : (SourceUnit.parse namesakes).toOption.map (fun unit => unit.typeEntries.map TypeEntry.names) =
      some [("T", "T", "A.T"), ("U", "T.U", "A.T.U"), ("T", "T", "B.C.T")] := by
  decide +kernel

/-- The later one of two namesakes is not found by its full name; the type inside the first one is. -/
theorem find?_fullName_namesakes : ∃ unit outer inner later, SourceUnit.parse namesakes = .ok unit ∧
    unit.typeEntries = [outer, inner, later] ∧ inner.fullName = "A.T.U" ∧ later.fullName = "B.C.T" ∧
    (TypeIndex.build unit).find? "A.T.U" = some inner ∧ (TypeIndex.build unit).find? "B.C.T" = none := by
  have hNames := names_namesakes
  cases hParse : SourceUnit.parse namesakes with
  | error error =>
    rw [hParse] at hNames
    cases hNames
  | ok unit =>
    rw [hParse] at hNames
    obtain ⟨outer, rest, hEntries, hOuter, hRest⟩ := map_eq_cons_iff.mp (Option.some.inj hNames)
    obtain ⟨inner, rest, rfl, hInner, hRest⟩ := map_eq_cons_iff.mp hRest
    obtain ⟨later, rest, rfl, hLater, hRest⟩ := map_eq_cons_iff.mp hRest
    obtain rfl := map_eq_nil_iff.mp hRest
    simp only [TypeEntry.names, Prod.mk.injEq] at hOuter hInner hLater
    refine ⟨unit, outer, inner, later, rfl, hEntries, hInner.2.2, hLater.2.2, ?_, ?_⟩
    · have hFound := find?_fullName hParse [outer] [later] inner hEntries (by simp [hOuter, hInner, hLater])
      rw [← hInner.2.2]
      exact hFound.2.1.mpr (by simp [hOuter, hInner])
    · have hFound := find?_fullName hParse [outer, inner] [] later hEntries (by simp [hOuter, hInner, hLater])
      rw [← hLater.2.2, hFound.2.2 outer (by simp [hOuter, hLater])]
      simp [hOuter, hLater]

end Shaderlift
