import Shaderlift.Proofs.Analysis.Reach

/-!
# Which methods a shader needs

The search lists the methods that the entry point leads to by one call or more, the entry point itself left out: each
once, and after one that calls it. A call counts if it is found with the calls that are classified at the end of the
search, and what the search has found on its way is found again then.
-/

namespace Shaderlift

open List

/-- The program of a source text, seen from the type of a name. -/
def programOf? (source name : String) : Option Program :=
  match findShader source name with
  | .ok (unit, decl) => (Program.build unit decl).1
  | .error _ => none

namespace Program

/-- A method calls another: its source text holds the call, given the calls that have been classified. -/
def Calls (program : Program) (memo : CallMemo) (caller callee : MethodKey) : Prop :=
  ∃ method, program.method? caller = some method ∧ callee ∈ (program.callsOf caller.owner method memo).1

/-- Each method of a list is called by one before it, or by the one that leads to the list. -/
def Leads (program : Program) (memo : CallMemo) (start : MethodKey) (order : List MethodKey) : Prop :=
  ∀ before key after, order = before ++ key :: after → ∃ caller ∈ start :: before, program.Calls memo caller key

def entryKey (program : Program) (position : Nat) : MethodKey := ⟨program.shader.name, entryPoint, position⟩

variable {program : Program} {last memo : CallMemo} {start key : MethodKey} {order : List MethodKey} {position : Nat}
  {entry : MethodDecl}

/-! ## Every method is called by one before it -/

theorem Leads.nil : program.Leads last start [] := fun _ _ _ hNone => by simp at hNone

theorem Leads.snoc (hLeads : program.Leads last start order) {caller : MethodKey} (hCaller : caller ∈ start :: order)
    (hCalls : program.Calls last caller key) : program.Leads last start (order ++ [key]) := by
  intro before other after hSplit
  rcases eq_nil_or_concat after with rfl | ⟨middle, final, rfl⟩
  · obtain ⟨rfl, hLast⟩ := append_inj' hSplit rfl
    obtain rfl : key = other := by simpa using hLast
    exact ⟨caller, hCaller, hCalls⟩
  · have hSame : order ++ [key] = (before ++ other :: middle) ++ [final] := by simpa using hSplit
    exact hLeads before other middle (append_inj' hSame rfl).1

theorem Leads.of_snoc (hLeads : program.Leads last start (order ++ [key])) : program.Leads last start order :=
  fun before other after hSplit => hLeads before other (after ++ [key]) (by simp [hSplit])

/-- Whatever is listed can be reached by calls. -/
theorem Leads.reachable (hLeads : program.Leads last start order) :
    ∀ key ∈ order, Relation.TransGen (program.Calls last) start key := by
  induction order using List.reverseRecOn with
  | nil => exact forall_mem_nil _
  | append_singleton order next ih =>
    have hBefore := ih hLeads.of_snoc
    obtain ⟨caller, hCaller, hCalls⟩ := hLeads order next [] rfl
    refine forall_mem_append.mpr ⟨hBefore, forall_mem_singleton.mpr ?_⟩
    rcases mem_cons.mp hCaller with rfl | hEarlier
    · exact .single hCalls
    · exact (hBefore caller hEarlier).tail hCalls

/-! ## The entry point -/

variable {source name : String}

/-- The entry point is found under its key, and nothing else is. -/
theorem entry_of_programOf? (hProgram : programOf? source name = some program)
    (hEntry : program.entry = some (position, entry)) :
    program.IsSeen ∧ program.method? (program.entryKey position) = some entry ∧
      ∀ key, program.isEntry key = true ↔ key = program.entryKey position := by
  unfold programOf? at hProgram
  split at hProgram
  · rename_i unit decl hFound
    have hBuild : build unit decl = (some program, (build unit decl).2) := Prod.ext hProgram rfl
    have hSeen := isSeen_of_found hFound hBuild
    obtain ⟨-, -, hShader, hFind⟩ := parts_of_build hBuild
    rw [hFind, ← hShader] at hEntry
    obtain ⟨⟨method, place⟩, hFirst, hPair⟩ := Option.map_eq_some_iff.mp hEntry
    cases hPair
    have hPlace : program.shader.methods[position]? = some entry :=
      mem_zipIdx_iff_getElem?.mp (mem_of_find?_eq_some hFirst)
    have hName : entry.name = entryPoint := by
      have hTest := List.find?_some hFirst
      simp only [MethodDecl.isEntryPoint, Bool.and_eq_true, beq_iff_eq] at hTest
      exact hTest.1.1
    have hMethod : program.method? (program.entryKey position) = some entry := by
      simp [method?, entryKey, methodsOf, hSeen.shader, hPlace, hName]
    refine ⟨hSeen, hMethod, fun key => ⟨fun hIs => ?_, ?_⟩⟩
    · rw [isEntry, hFind, ← hShader, hEntry] at hIs
      simp only [Bool.and_eq_true, beq_iff_eq] at hIs
      obtain ⟨⟨hOwner, hIdx⟩, hSome⟩ := hIs
      obtain ⟨found, hKey⟩ := Option.isSome_iff_exists.mp hSome
      obtain ⟨-, -, -, hKeyName⟩ := exists_entry_of_method? hKey
      have hSame := hSeen.getElem?_methods hOwner hKey
      rw [hIdx, hPlace] at hSame
      rw [← Option.some.inj hSame, hName] at hKeyName
      obtain ⟨owner, name, index⟩ := key
      simp only at hOwner hIdx hKeyName
      rw [entryKey, hOwner, hIdx, hKeyName]
    · rintro rfl
      rw [isEntry, hFind, ← hShader, hEntry, hMethod]
      simp [entryKey]
  · cases hProgram

/-- The methods that a shader needs are those that its entry point leads to by one call or more, apart from the entry
point; each is listed once, after one that calls it. -/
theorem reachableMethods_exact (hProgram : programOf? source name = some program)
    (hEntry : program.entry = some (position, entry)) (hSound : memo.Sound program) :
    let start := program.entryKey position
    let order := (program.reachableMethods memo).1
    let last := (program.reachableMethods memo).2
    order.Nodup ∧ program.Leads last start order ∧
      ∀ key, key ∈ order ↔ key ≠ start ∧ Relation.TransGen (program.Calls last) start key := by
  intro start order last
  obtain ⟨hSeen, hMethod, hIs⟩ := entry_of_programOf? hProgram hEntry
  have hKept : (program.reachableMethods memo).2.Kept program last := .refl _
  have hOrder : (program.reachableMethods last).1 = order := by
    rw [program.stable_reachableMethods.replay memo last hKept]
  obtain ⟨-, hFirst, hOthers⟩ := reachableMethods_closed hSeen.lastSegment_name hEntry hSound hKept hOrder
  have hLeads : program.Leads last start order := by
    refine reachableMethods_order .nil memo fun order key hBefore _ _ ⟨waiting, hAwaited, hCall⟩ => ?_
    rcases hAwaited with ⟨hOwner, hFirst⟩ | ⟨caller, hCaller, hOwner, hFound⟩
    · rw [hEntry, Option.map_some, Option.some.injEq] at hFirst
      exact hBefore.snoc mem_cons_self ⟨waiting.method, hFirst ▸ hMethod, by rwa [hOwner] at hCall⟩
    · exact hBefore.snoc (mem_cons_of_mem start hCaller) ⟨waiting.method, hFound, by rwa [hOwner]⟩
  refine ⟨nodup_reachableMethods memo, hLeads, fun key => ⟨fun hKey => ?_, fun ⟨hOther, hReach⟩ => ?_⟩⟩
  · refine ⟨fun hStart => ?_, hLeads.reachable key hKey⟩
    have hNot := isEntry_eq_false_of_reachable hKey
    rw [(hIs key).mpr hStart] at hNot
    cases hNot
  · -- Whatever is reached is the entry point or listed, since what these call is.
    have hAll : ∀ key, Relation.TransGen (program.Calls last) start key → key = start ∨ key ∈ order := by
      intro key hReach
      have hStep : ∀ caller, caller = start ∨ caller ∈ order → ∀ key, program.Calls last caller key →
          key = start ∨ key ∈ order := by
        rintro caller (rfl | hListed) key ⟨method, hFound, hCall⟩
        · obtain rfl := Option.some.inj (hMethod.symm.trans hFound)
          exact (hFirst key hCall).imp_left (hIs key).mp
        · exact (hOthers caller hListed method hFound key hCall).imp_left (hIs key).mp
      induction hReach with
      | single hCall => exact hStep start (.inl rfl) _ hCall
      | tail _ hCall ih => exact hStep _ ih _ hCall
    exact (hAll key hReach).resolve_left hOther

end Program

/-- A shader with methods that call each other, the entry point included, and an optional parameter. -/
def circularShader : String :=
  "struct S : IComputeShader \x7b ReadWriteBuffer<float> b; static float F(float x) => G(x) + P.H(x); " ++
    "static float G(float x, float y = 1) => x < 1 ? F(x) : G(x, 2); void Execute() \x7b b[0] = F(1); \x7d \x7d " ++
    "struct P \x7b public static float H(float x) => x; public static float U(float x) => H(x); \x7d"

set_option maxRecDepth 100000 in
theorem needed_circularShader : (programOf? circularShader "S").map (fun program =>
      (program.entry.map Prod.fst, (program.reachableMethods .empty).1.map fun key => (key.owner, key.name))) =
        some (some 2, [("S", "F"), ("S", "G"), ("P", "H")]) := by
  decide +kernel

/-- Three methods are listed for it. -/
theorem reachableMethods_exact_circularShader :
    ∃ program, programOf? circularShader "S" = some program ∧
      (program.reachableMethods .empty).1.map MethodKey.name = ["F", "G", "H"] ∧
      ∀ key, key ∈ (program.reachableMethods .empty).1 ↔ key ≠ program.entryKey 2 ∧
        Relation.TransGen (program.Calls (program.reachableMethods .empty).2) (program.entryKey 2) key := by
  obtain ⟨program, hProgram, hPair⟩ := Option.map_eq_some_iff.mp needed_circularShader
  simp only [Prod.mk.injEq] at hPair
  obtain ⟨hPosition, hNames⟩ := hPair
  obtain ⟨⟨position, entry⟩, hEntry, hPlace⟩ := Option.map_eq_some_iff.mp hPosition
  obtain rfl : position = 2 := hPlace
  refine ⟨program, hProgram, ?_, ?_⟩
  · have hLast := congrArg (List.map Prod.snd) hNames
    simpa [map_map, Function.comp_def] using hLast
  · exact (Program.reachableMethods_exact hProgram hEntry fun _ _ hNone => by cases hNone).2.2

end Shaderlift
