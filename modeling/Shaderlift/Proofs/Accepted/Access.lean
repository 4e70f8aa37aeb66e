import Mathlib.Logic.Relation
import Shaderlift.Proofs.Accepted.Accounts

/-!
# Fields that can be seen from outside

A field of a shader is reported if the search from its type meets a struct that cannot be seen from outside.  The search
enters each struct once, so it ends with all of them seen unless it has found one.  Structs go by their simple names:
of namesakes the first one is looked at, wherever the field names another.
-/

namespace Shaderlift

open List

/-- A declaration inside some others can be seen from outside them. -/
def TypeDecl.Visible (outer : List TypeDecl) (decl : TypeDecl) : Prop :=
  .isFile ∉ decl.header.modifiers ∧
    (.isPublic ∈ decl.header.modifiers ∨ .isInternal ∈ decl.header.modifiers ∨
      outer = [] ∧ .isPrivate ∉ decl.header.modifiers ∧ .isProtected ∉ decl.header.modifiers)

namespace TypeEntry

/-- A type and all types around it can be seen. -/
def Accessible (entry : TypeEntry) : Prop :=
  ∀ outer decl inner, entry.enclosing ++ [entry.decl] = outer ++ decl :: inner → decl.Visible outer

theorem isVisible_iff {outer : List TypeDecl} {decl : TypeDecl} :
    isVisible (!outer.isEmpty) decl = true ↔ decl.Visible outer := by
  unfold isVisible TypeDecl.Visible
  grind

theorem isAccessible_iff {entry : TypeEntry} : entry.isAccessible = true ↔ entry.Accessible := by
  unfold isAccessible Accessible
  generalize entry.enclosing ++ [entry.decl] = chain
  cases chain with
  | nil => simp
  | cons outermost inner =>
    simp only [Bool.and_eq_true, all_eq_true]
    constructor
    · rintro ⟨hFirst, hRest⟩ outer decl others hSplit
      rw [← isVisible_iff]
      cases outer with
      | nil =>
        cases hSplit
        exact hFirst
      | cons first outer =>
        cases hSplit
        exact hRest decl (by simp)
    · intro hAll
      refine ⟨isVisible_iff.mpr (hAll [] outermost inner rfl), fun decl hDecl => ?_⟩
      obtain ⟨before, after, rfl⟩ := append_of_mem hDecl
      exact isVisible_iff.mpr (hAll (outermost :: before) decl after rfl)

end TypeEntry

namespace ShaderModel

variable {prog : Program} {fuel : Nat} {visited pending : List String} {name : String}

/-- A struct holds another. -/
def Leads (program : Program) (outer inner : String) : Prop := StructEnv.Holds program.structFields? inner outer

/-- The struct of a name cannot be seen from outside. -/
def Hidden (program : Program) (name : String) : Prop :=
  ∃ entry, program.index.get? name = some entry ∧ ¬entry.Accessible

/-- A struct is part of a type: the type or its elements are that struct, or a struct of the type holds it. -/
def Reaches (program : Program) (type : ValueType) (name : String) : Prop :=
  ∃ root, type.struct? = some root ∧ Relation.ReflTransGen (Leads program) root name

theorem hidden_iff : ((prog.index.get? name).any fun entry => !entry.isAccessible) = true ↔ Hidden prog name := by
  simp [Hidden, Option.any_eq_true, ← TypeEntry.isAccessible_iff]

theorem mem_heldStructs {inner : String} : inner ∈ heldStructs prog name ↔ Leads prog name inner := by
  simp [heldStructs, Leads, StructEnv.Holds]

theorem lastSegment_of_leads {inner : String} (hLeads : Leads prog name inner) : Text.lastSegment inner = inner := by
  obtain ⟨field, hField, hStruct⟩ := hLeads
  exact (prog.proper_structFields? name field hField).lastSegment_eq hStruct

theorem reaches_of_hidden? (hFound : hidden? prog fuel visited pending = some name) :
    Hidden prog name ∧ ∃ root ∈ pending, Relation.ReflTransGen (Leads prog) root name := by
  fun_induction hidden? prog fuel visited pending with
  | case1 | case2 => cases hFound
  | case3 fuel visited first pending hSeen ih =>
    obtain ⟨hHidden, root, hRoot, hPath⟩ := ih hFound
    exact ⟨hHidden, root, mem_cons_of_mem first hRoot, hPath⟩
  | case4 fuel visited first pending hNew hHidden =>
    cases hFound
    exact ⟨hidden_iff.mp hHidden, name, mem_cons_self, .refl⟩
  | case5 fuel visited first pending hNew hShown ih =>
    obtain ⟨hHidden, root, hRoot, hPath⟩ := ih hFound
    refine ⟨hHidden, ?_⟩
    rcases mem_append.mp hRoot with hHeld | hPending
    · exact ⟨first, mem_cons_self, .head (mem_heldStructs.mp hHeld) hPath⟩
    · exact ⟨root, mem_cons_of_mem first hPending, hPath⟩

/-! ## Fuel -/

/-- Count the fields of types that a search has not entered. -/
def unseen (visited : List String) (entries : List TypeEntry) : Nat :=
  ((entries.filter fun entry => !visited.contains entry.name).flatMap fun entry =>
    entry.decl.fields.flatMap FieldDecl.declarators).length

theorem length_heldStructs_le {entry : TypeEntry} (hEntry : prog.index.get? name = some entry) :
    (heldStructs prog name).length ≤ (entry.decl.fields.flatMap FieldDecl.declarators).length := by
  rw [heldStructs, length_reverse]
  refine (length_filterMap_le _ _).trans ?_
  rw [Program.structFields?, Program.typeDecl?, hEntry]
  dsimp only [Option.map_some, bind, Option.bind_some]
  cases hResolved : prog.resolveFields entry.decl.instanceFields with
  | none => simp
  | some resolved =>
    have hLength := congrArg length (Program.types_resolveFields hResolved)
    rw [length_map] at hLength
    rw [Option.getD_some, hLength]
    simpa [length_flatMap, TypeDecl.instanceFields] using
      (filter_sublist.flatMap FieldDecl.declarators).length_le

/-- What entering a struct adds to the search is no more than what it takes from the fields ahead. -/
theorem unseen_cons (hNew : name ∉ visited) (hPlain : Text.lastSegment name = name) :
    (heldStructs prog name).length + unseen (name :: visited) prog.index.entries ≤ unseen visited prog.index.entries := by
  have hMore : ∀ entries, unseen (name :: visited) entries ≤ unseen visited entries := by
    intro entries
    induction entries with
    | nil => exact Nat.le_refl 0
    | cons entry rest ih => grind [unseen]
  cases hEntry : prog.index.get? name with
  | none =>
    have hNone : heldStructs prog name = [] := by
      simp [heldStructs, Program.structFields?, Program.typeDecl?, hEntry]
    rw [hNone, length_nil, Nat.zero_add]
    exact hMore _
  | some entry =>
    have hName : entry.name = name := by
      have hFound := List.find?_some hEntry
      rwa [beq_iff_eq, hPlain] at hFound
    obtain ⟨before, after, hSplit⟩ := append_of_mem (mem_of_find?_eq_some hEntry)
    have hHeld := length_heldStructs_le hEntry
    have hBefore := hMore before
    have hAfter := hMore after
    simp only [unseen, hSplit, filter_append, filter_cons, hName, contains_eq_mem, mem_cons_self, hNew, decide_true,
      decide_false, Bool.not_true, Bool.not_false, Bool.false_eq_true, if_true, if_false, flatMap_append, flatMap_cons,
      length_append] at hBefore hAfter ⊢
    omega

theorem closed_of_hidden? (hNone : hidden? prog fuel visited pending = none)
    (hFuel : pending.length + unseen visited prog.index.entries < fuel)
    (hPlain : ∀ other ∈ pending, Text.lastSegment other = other)
    (hVisited : ∀ other ∈ visited, ¬Hidden prog other ∧
      ∀ inner, Leads prog other inner → inner ∈ visited ∨ inner ∈ pending) :
    ∃ closed : List String, (∀ other, other ∈ visited ∨ other ∈ pending → other ∈ closed) ∧
      ∀ other ∈ closed, ¬Hidden prog other ∧ ∀ inner, Leads prog other inner → inner ∈ closed := by
  fun_induction hidden? prog fuel visited pending with
  | case1 => omega
  | case2 fuel visited => exact ⟨visited, by simp, by simpa using hVisited⟩
  | case3 fuel visited first pending hSeen ih =>
    have hFirst : first ∈ visited := contains_iff_mem.mp hSeen
    rw [length_cons] at hFuel
    obtain ⟨closed, hIn, hClosed⟩ := ih hNone (by omega) (by grind) (by grind)
    exact ⟨closed, by grind, hClosed⟩
  | case4 => cases hNone
  | case5 fuel visited first pending hNew hShown ih =>
    have hFirst : first ∉ visited := by simpa using hNew
    have hUnseen := @unseen_cons prog visited first hFirst (hPlain first mem_cons_self)
    have hEnough : (heldStructs prog first ++ pending).length + unseen (first :: visited) prog.index.entries < fuel := by
      rw [length_append]
      rw [length_cons] at hFuel
      omega
    have hNames : ∀ other ∈ heldStructs prog first, Text.lastSegment other = other :=
      fun _ hHeld => lastSegment_of_leads (mem_heldStructs.mp hHeld)
    have hOpen : ¬Hidden prog first := fun hHidden => hShown (hidden_iff.mpr hHidden)
    have hHeld : ∀ inner, Leads prog first inner → inner ∈ heldStructs prog first :=
      fun _ hLeads => mem_heldStructs.mpr hLeads
    obtain ⟨closed, hIn, hClosed⟩ := ih hNone hEnough (by grind) (by grind)
    exact ⟨closed, by grind, hClosed⟩

/-- A search that finds nothing has seen all structs of a type. -/
theorem not_hidden_of_reaches {type : ValueType} (hProper : type.Proper)
    (hNone : hidden? prog (prog.allDeclarators.length + 2) [] type.struct?.toList = none)
    (hReaches : Reaches prog type name) : ¬Hidden prog name := by
  obtain ⟨root, hRoot, hPath⟩ := hReaches
  have hAll : unseen [] prog.index.entries = prog.allDeclarators.length := by
    simp [unseen, Program.allDeclarators, length_flatMap]
  rw [hRoot] at hNone
  have hFuel : [root].length + unseen [] prog.index.entries < prog.allDeclarators.length + 2 := by
    rw [hAll, length_singleton]
    omega
  obtain ⟨closed, hRoots, hClosed⟩ := closed_of_hidden? hNone hFuel
    (by simpa using hProper.lastSegment_eq hRoot) (by simp)
  have hIn : name ∈ closed := by
    induction hPath with
    | refl => exact hRoots _ (.inr mem_cons_self)
    | tail _ hStep ih => exact (hClosed _ ih).2 _ hStep
  exact (hClosed name hIn).1

/-- With descriptors on, a field of a shader gets one report, about a struct of its type that cannot be seen from
outside, or none if all of them can. -/
theorem checkField_exact {cfg : Config} {memo : CallMemo} {field : FieldInfo} (hOn : cfg.generateDescriptor = true)
    (hField : field ∈ (ShaderModel.build prog cfg memo).1.1.fields) :
    checkField prog field = [] ∧ (∀ name, Reaches prog field.elementType name → ¬Hidden prog name) ∨
    ∃ name diagnostic, Reaches prog field.elementType name ∧ Hidden prog name ∧
      checkField prog field = [diagnostic] ∧ diagnostic ∈ (ShaderModel.build prog cfg memo).1.2 ∧
      diagnostic = prog.complain .inaccessibleFieldType field.span [field.name, name] := by
  have hProper : field.elementType.Proper := prog.proper_elementType cfg _ hField
  have hReport : ∀ diagnostic ∈ checkField prog field, diagnostic ∈ (ShaderModel.build prog cfg memo).1.2 := by
    intro diagnostic hMem
    have hAccess : diagnostic ∈ checkAccess prog cfg (ShaderModel.build prog cfg memo).1.1.fields := by
      rw [checkAccess, hOn]
      exact mem_append_right _ (mem_flatMap.mpr ⟨field, hField, hMem⟩)
    exact mem_append_left _ (mem_append_left _ (mem_append_right _ hAccess))
  cases hFound : hidden? prog (prog.allDeclarators.length + 2) [] field.elementType.struct?.toList with
  | none => exact .inl ⟨by rw [checkField, hFound], fun name => not_hidden_of_reaches hProper hFound⟩
  | some name =>
    have hCheck : checkField prog field = [prog.complain .inaccessibleFieldType field.span [field.name, name]] := by
      rw [checkField, hFound]
    obtain ⟨hHidden, root, hRoot, hPath⟩ := reaches_of_hidden? hFound
    exact .inr ⟨name, _, ⟨root, Option.mem_toList.mp hRoot, hPath⟩, hHidden, hCheck,
      hReport _ (hCheck ▸ mem_singleton_self _), rfl⟩

/-- A shader with a field of a struct that only its file can see. -/
def fileLocal : Program :=
  let struct (name : String) (modifiers : List Modifier) (types : List String) : TypeDecl :=
    ⟨⟨[], modifiers, .struct, name, [], [], none, default⟩,
      types.map fun type => .field ⟨[], [], .word type default, [⟨"part", none, none, default⟩], default⟩⟩
  { shader := struct "S" [] ["P"], kind := .compute, pixelType := none, entry := none
    table := { TypeTable.empty with structs := [("P", true)] }
    index := ⟨[⟨struct "P" [.isFile] ["float"], []⟩]⟩, staticUsings := [] }

theorem checkField_exact_fileLocal : ∃ field name diagnostic, Reaches fileLocal field.elementType name ∧
    Hidden fileLocal name ∧ checkField fileLocal field = [diagnostic] := by
  have hField : ⟨"part", .value (.struct "P"), .plainData, default⟩ ∈
      (ShaderModel.build fileLocal .unspecified .empty).1.1.fields := by decide +kernel
  rcases checkField_exact rfl hField with ⟨hNone, -⟩ | ⟨name, diagnostic, hReaches, hHidden, hCheck, -⟩
  · exact absurd hNone (by decide +kernel)
  · exact ⟨_, name, diagnostic, hReaches, hHidden, hCheck⟩

end ShaderModel

end Shaderlift
