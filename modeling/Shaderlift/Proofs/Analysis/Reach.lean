import Mathlib.Data.List.Nodup
import Shaderlift.Proofs.Analysis.Agreement
import Shaderlift.Proofs.Call.Overloads
import Shaderlift.Proofs.Gate

/-!
# The methods that a shader needs are closed under calls

The search for the methods that a shader needs runs a fixed number of rounds. Every call that a pass remembers
means a method that exists under the own name of its type (`CallMemo.Sound`), each such method waits at most
once, and there are no more of them than the search has rounds. So no method is left waiting at the end, and
what the found methods call has been found.
-/

namespace Shaderlift

open List
open Text (lastSegment)

/-! ## Methods that exist -/

namespace Program

/-- A method exists under the own name of its type. -/
structure Declares (program : Program) (key : MethodKey) : Prop where
  owner : lastSegment key.owner = key.owner
  found : (program.method? key).isSome = true

variable {prog : Program}

variable {owner name : String} {arity index : Nat} {args : List CallArg} {key : MethodKey}

theorem declares_of_sourceMethod? (hOwner : lastSegment owner = owner)
    (hSrc : prog.sourceMethod? owner name args = some (.source key)) : prog.Declares key := by
  obtain ⟨index, method, rfl, hMem, -⟩ := exists_of_sourceMethod? hSrc
  exact ⟨hOwner, by rw [method?_of_mem_overloads hMem, Option.isSome_some]⟩

theorem name_eq_of_get? {index : TypeIndex} {entry : TypeEntry} (hEntry : index.get? name = some entry) :
    entry.name = lastSegment name := by
  simpa using List.find?_some hEntry

/-- What a call means by itself, if it is a method of the source, exists: calls of bare names and on the shader
itself are made from a type under its own name. -/
theorem declares_of_meaning {call : CallKey} {form : CallForm}
    (hOwner : form = .onType ∨ lastSegment call.owner = call.owner)
    (hSrc : form.meaning prog call = .source key) : prog.Declares key := by
  rcases form.meaning_cases prog call with ⟨intrinsic, hMeaning⟩ | ⟨text, hMeaning⟩ | ⟨owner, hFound, hCases⟩
  · cases hMeaning.symm.trans hSrc
  · cases hMeaning.symm.trans hSrc
  · refine declares_of_sourceMethod? ?_ (hSrc ▸ hFound)
    rcases hCases with ⟨hForm, rfl⟩ | ⟨target, rfl⟩ | ⟨path, entry, hEntry, rfl⟩
    · exact hOwner.resolve_left hForm
    · exact Text.lastSegment_lastSegment target
    · exact (name_eq_of_get? (TypeIndex.get?_of_find? hEntry)).symm

end Program

/-! ## Passes remember methods that exist -/

/-- All methods that calls are remembered to mean exist. -/
def CallMemo.Sound (program : Program) (memo : CallMemo) : Prop :=
  ∀ call key, memo.entries.lookup call = some (.source key) → program.Declares key

/-- Classifying calls and telling types from a type under its own name remembers methods that exist. -/
theorem Recall.closed_sound {prog : Program} {owner : String} (hOwner : lastSegment owner = owner) :
    Recall.Closed prog owner (Recall.Carries (CallMemo.Sound prog)) where
  pure _ := ⟨fun _ hSound => hSound⟩
  bind hFirst hNext := ⟨fun memo hSound => (hNext _).holds _ (hFirst.holds memo hSound)⟩
  remember call form hForm := by
    refine ⟨fun memo hSound other key hLookup => ?_⟩
    have hMeaning : form = .onType ∨ lastSegment call.owner = call.owner :=
      hForm.imp_right fun hSame => by rw [hSame, hOwner]
    cases hKnown : memo.entries.lookup call with
    | some known =>
      rw [CallMemo.remember_of_known _ hKnown] at hLookup
      exact hSound other key hLookup
    | none =>
      rw [CallMemo.remember_of_new _ hKnown, lookup_cons] at hLookup
      split at hLookup
      · exact Program.declares_of_meaning hMeaning (Option.some.inj hLookup)
      · exact hSound other key hLookup

/-- All methods that a pass remembers or has met exist. -/
structure Tracked.Sound {ρ : Type} (program : Program) (state : Tracked ρ) : Prop where
  memo : state.memo.Sound program
  met : ∀ met ∈ state.met, ∀ key, met.callee = .source key → program.Declares key

namespace Track

variable {ρ α β : Type} {prog : Program} {owner : String}

/-- An action of a pass remembers and meets only methods that exist. -/
def Sounds (program : Program) (action : Track ρ α) : Prop :=
  ∀ state : Tracked ρ, state.Sound program → (action state).2.Sound program

namespace Sounds

theorem of_eq {action : Track ρ α} (hMemo : ∀ st, (action st).2.memo = st.memo)
    (hMet : ∀ st, (action st).2.met = st.met) : Sounds prog action :=
  fun st hSound => ⟨(hMemo st).symm ▸ hSound.memo, (hMet st).symm ▸ hSound.met⟩

theorem pure (val : α) : Sounds prog (Pure.pure val : Track ρ α) := .of_eq (fun _ => rfl) fun _ => rfl

theorem get : Sounds prog (MonadState.get : Track ρ (Tracked ρ)) := .of_eq (fun _ => rfl) fun _ => rfl

theorem gather (change : ρ → ρ) : Sounds prog (Track.gather change) := .of_eq (fun _ => rfl) fun _ => rfl

theorem recalling (ask : Site → Recall α)
    (hAsk : ∀ scope, Recall.Carries (CallMemo.Sound prog) (ask ⟨prog, owner, scope⟩)) :
    Sounds prog (Track.recalling prog owner ask : Track ρ α) :=
  fun st hSound => ⟨(hAsk st.scope).holds st.memo hSound.memo, hSound.met⟩

theorem bind {first : Track ρ α} {next : α → Track ρ β} (hFirst : Sounds prog first)
    (hNext : ∀ val, Sounds prog (next val)) : Sounds prog (first >>= next) :=
  fun st hSound => hNext _ _ (hFirst st hSound)

theorem within {action : Track ρ α} (change : Scope → Scope) (hAction : Sounds prog action) :
    Sounds prog (Track.within change action) := by
  intro st hSound
  have hInner := hAction { st with scope := change st.scope } ⟨hSound.memo, hSound.met⟩
  exact ⟨hInner.memo, hInner.met⟩

variable (hOwner : lastSegment owner = owner)

include hOwner

theorem meet (call callee : Expr) (args : List Argument) :
    Sounds prog (Track.meet prog owner call callee args : Track ρ Callee) := by
  intro st hSound
  rw [meet_eq]
  have hCall := @Site.closed_resolveCall ⟨prog, owner, st.scope⟩ _ (Recall.closed_sound hOwner) callee args
  have hMemo := hCall.holds st.memo hSound.memo
  refine ⟨hMemo, fun met hMem key hSrc => ?_⟩
  rcases mem_cons.mp hMem with rfl | hBefore
  · obtain ⟨known, hKnown⟩ :=
      Site.records_resolveCall ⟨prog, owner, st.scope⟩ callee args st.memo key hSrc
    exact hMemo known key hKnown
  · exact hSound.met met hBefore key hSrc

theorem tracks : Tracks prog owner fun {α} (action : Track ρ α) => Sounds prog action where
  pure := .pure
  bind := .bind
  type type init := .recalling (·.declaredType type init) fun scope =>
    @Site.closed_declaredType ⟨prog, owner, scope⟩ _ (Recall.closed_sound hOwner) type init
  declare _ _ := .of_eq (fun _ => rfl) fun _ => rfl
  within change _ hAction := hAction.within change
  meet := .meet hOwner

end Sounds

end Track

open Track

namespace Legality

section Sound

variable {prog : Program} {owner : String} {α : Type} (hOwner : lastSegment owner = owner)

include hOwner

variable (prog)

theorem sounds_checkCall (call callee : Expr) (args : List Argument) :
    Sounds prog (checkCall prog owner call callee args) := by
  intro st hSound
  obtain ⟨hMemo, -, hMet⟩ := state_checkCall prog owner call callee args st
  have hFound : ((meet prog owner call callee args : Check Callee) st).2.Sound prog :=
    Sounds.meet hOwner call callee args st hSound
  rw [meet_eq] at hFound
  exact ⟨hMemo ▸ hFound.memo, hMet ▸ hFound.met⟩

theorem walks_sounds : Walks prog owner (Sounds prog) where
  pure := .pure
  bind := .bind
  get := .get
  report _ _ _ := .gather _
  infer expr := .recalling (·.infer expr) fun scope =>
    @Site.closed_infer _ ⟨prog, owner, scope⟩ (Recall.closed_sound hOwner) expr
  call := sounds_checkCall prog hOwner
  note _ := .gather _
  within change _ hWalk := hWalk.within change
  declare := (Sounds.tracks hOwner).declareAll

end Sound

end Legality

/-! ## The search -/

namespace Program

def allKeys (program : Program) : List MethodKey :=
  program.index.entries.flatMap fun entry =>
    entry.decl.methods.zipIdx.map fun (method, place) => ⟨entry.name, method.name, place⟩

variable {prog : Program} {last : CallMemo}

theorem length_allKeys (prog : Program) : prog.allKeys.length = prog.allMethods.length := by
  simp only [allKeys, allMethods, length_flatMap, length_map, length_zipIdx]

variable {key : MethodKey} {frontier : Frontier} {memo : CallMemo} {pos : Nat} {entry : MethodDecl}
  {order : List MethodKey}

theorem Declares.mem_allKeys (hDeclared : prog.Declares key) : key ∈ prog.allKeys := by
  obtain ⟨method, hMethod⟩ := Option.isSome_iff_exists.mp hDeclared.found
  obtain ⟨entry, hEntry, hFound, hName⟩ := exists_entry_of_method? hMethod
  have hOwner : entry.name = key.owner := (name_eq_of_get? hEntry).trans hDeclared.owner
  refine mem_flatMap.mpr ⟨entry, mem_of_find?_eq_some hEntry, mem_map.mpr ?_⟩
  refine ⟨(method, key.index), mem_zipIdx_iff_getElem?.mpr hFound, ?_⟩
  show (⟨entry.name, method.name, key.index⟩ : MethodKey) = key
  rw [hOwner, hName]

/-- Methods met by a search exist and are met once, and those that wait do so under the own name of their
type. -/
structure Frontier.Valid (program : Program) (frontier : Frontier) : Prop where
  nodup : frontier.order.Nodup
  declared : ∀ key ∈ frontier.order, program.Declares key
  owners : ∀ waiting ∈ frontier.queue, lastSegment waiting.owner = waiting.owner

theorem Frontier.Valid.length_le (hValid : frontier.Valid prog) : frontier.order.length ≤ prog.allMethods.length := by
  rw [← length_allKeys]
  exact hValid.nodup.length_le_of_subset fun key hKey => (hValid.declared key hKey).mem_allKeys

/-- A search has gone on: every method met since then waits. -/
structure Frontier.Extends (program : Program) (before after : Frontier) : Prop where
  order : before.order ⊆ after.order
  queue : before.queue ⊆ after.queue
  waits : ∀ key ∈ after.order, key ∈ before.order ∨
    ∃ method, program.method? key = some method ∧ ⟨key.owner, method⟩ ∈ after.queue
  length : after.queue.length + before.order.length = before.queue.length + after.order.length

namespace Frontier

theorem Extends.refl (frontier : Frontier) : frontier.Extends prog frontier :=
  ⟨List.Subset.refl _, List.Subset.refl _, fun _ => .inl, rfl⟩

theorem Extends.trans {first second third : Frontier} (hFirst : first.Extends prog second)
    (hSecond : second.Extends prog third) : first.Extends prog third where
  order := List.Subset.trans hFirst.order hSecond.order
  queue := List.Subset.trans hFirst.queue hSecond.queue
  waits key hKey := by
    rcases hSecond.waits key hKey with hBefore | hWaits
    · rcases hFirst.waits key hBefore with hEarlier | ⟨method, hMethod, hQueue⟩
      · exact .inl hEarlier
      · exact .inr ⟨method, hMethod, hSecond.queue hQueue⟩
    · exact .inr hWaits
  length := by
    have hLeft := hFirst.length
    have hRight := hSecond.length
    omega

/-- One called method is added to the search, unless it is the entry point or has been met. -/
theorem add_step {frontier : Frontier} (hValid : frontier.Valid prog) {key : MethodKey}
    (hDeclared : prog.Declares key) :
    (frontier.add prog key).Valid prog ∧ frontier.Extends prog (frontier.add prog key) ∧
      (prog.isEntry key = true ∨ key ∈ (frontier.add prog key).order) := by
  obtain ⟨method, hMethod⟩ := Option.isSome_iff_exists.mp hDeclared.found
  unfold add
  rw [hMethod]
  dsimp only
  split
  · rename_i hKnown
    refine ⟨hValid, .refl frontier, ?_⟩
    simpa using hKnown
  · rename_i hNew
    have hFresh : key ∉ frontier.order := by
      intro hMem
      exact hNew (by simp [hMem])
    refine ⟨⟨?_, ?_, ?_⟩, ⟨?_, ?_, ?_, ?_⟩, .inr (by simp)⟩
    · rw [← concat_eq_append]
      exact hValid.nodup.concat hFresh
    · exact forall_mem_append.mpr ⟨hValid.declared, forall_mem_singleton.mpr hDeclared⟩
    · exact forall_mem_append.mpr ⟨hValid.owners, forall_mem_singleton.mpr hDeclared.owner⟩
    · exact subset_append_left _ _
    · exact subset_append_left _ _
    · exact forall_mem_append.mpr ⟨fun _ => .inl, forall_mem_singleton.mpr (.inr ⟨method, hMethod, by simp⟩)⟩
    · simp only [length_append, length_singleton]
      omega

theorem foldl_add (found : List MethodKey) {frontier : Frontier} (hValid : frontier.Valid prog)
    (hDeclared : ∀ key ∈ found, prog.Declares key) :
    let after := found.foldl (Frontier.add prog) frontier
    after.Valid prog ∧ frontier.Extends prog after ∧
      ∀ key ∈ found, prog.isEntry key = true ∨ key ∈ after.order := by
  induction found generalizing frontier with
  | nil => exact ⟨hValid, .refl frontier, forall_mem_nil _⟩
  | cons first rest ih =>
    obtain ⟨hOne, hOthers⟩ := forall_mem_cons.mp hDeclared
    obtain ⟨hNext, hStep, hFirst⟩ := add_step hValid hOne
    obtain ⟨hEnd, hMore, hRest⟩ := ih hNext hOthers
    exact ⟨hEnd, hStep.trans hMore, forall_mem_cons.mpr ⟨hFirst.imp_right fun hMem => hMore.order hMem, hRest⟩⟩

end Frontier

theorem sound_callsOf {owner : String} (hOwner : lastSegment owner = owner) (method : MethodDecl)
    (hSound : memo.Sound prog) : (prog.callsOf owner method memo).2.Sound prog ∧
      ∀ key ∈ (prog.callsOf owner method memo).1, prog.Declares key := by
  have hSt := (Sounds.tracks hOwner).visitor.visitMethod method (.start memo ())
    ⟨hSound, forall_mem_nil _⟩
  refine ⟨hSt.memo, fun key hKey => ?_⟩
  obtain ⟨met, hMem, hCallee⟩ := mem_filterMap.mp hKey
  refine hSt.met met (mem_reverse.mp hMem) key ?_
  unfold MetCall.key? at hCallee
  split at hCallee
  · rename_i found hFound
    cases hCallee
    exact hFound
  · cases hCallee

/-- What a method calls at the end of a run is the entry point or among some methods. -/
def CallsWithin (program : Program) (last : CallMemo) (order : List MethodKey) (owner : String)
    (method : MethodDecl) : Prop :=
  ∀ key ∈ (program.callsOf owner method last).1, program.isEntry key = true ∨ key ∈ order

/-- A search with enough rounds left ends with the calls of all methods that wait now or come to wait. -/
theorem explore_closed (fuel : Nat) (hValid : frontier.Valid prog) (hSound : memo.Sound prog)
    (hFuel : frontier.queue.length + prog.allMethods.length < fuel + frontier.order.length)
    (hKept : (prog.explore fuel frontier memo).2.Kept prog last) :
    let order := (prog.explore fuel frontier memo).1
    (∀ key ∈ order, prog.Declares key) ∧ frontier.order ⊆ order ∧
      (∀ waiting ∈ frontier.queue, prog.CallsWithin last order waiting.owner waiting.method) ∧
      ∀ key ∈ order, key ∈ frontier.order ∨
        ∀ method, prog.method? key = some method → prog.CallsWithin last order key.owner method := by
  induction fuel generalizing frontier memo with
  | zero =>
    have hRoom := hValid.length_le
    omega
  | succ fuel ih =>
    obtain ⟨met, queue⟩ := frontier
    cases queue with
    | nil => exact ⟨hValid.declared, List.Subset.refl _, forall_mem_nil _, fun _ => .inl⟩
    | cons next rest =>
      let found := prog.callsOf next.owner next.method memo
      let after := found.1.foldl (Frontier.add prog) ⟨met, rest⟩
      have hStep : prog.explore (fuel + 1) ⟨met, next :: rest⟩ memo = prog.explore fuel after found.2 := rfl
      rw [hStep] at hKept ⊢
      obtain ⟨hMemo, hFound⟩ := sound_callsOf (hValid.owners next mem_cons_self) next.method hSound
      have hRestValid : Frontier.Valid prog ⟨met, rest⟩ :=
        ⟨hValid.nodup, hValid.declared, (forall_mem_cons.mp hValid.owners).2⟩
      obtain ⟨hAfter, hExtends, hAdded⟩ := Frontier.foldl_add found.1 hRestValid hFound
      have hLength : after.queue.length + met.length = rest.length + after.order.length := hExtends.length
      have hRoom : after.queue.length + prog.allMethods.length < fuel + after.order.length := by
        simp only [length_cons] at hFuel
        omega
      obtain ⟨hDeclared, hOrder, hQueue, hClosed⟩ := ih hAfter hMemo hRoom hKept
      -- Collecting the calls of the next method once more gives what has been added.
      have hAgain := (prog.stable_callsOf next.owner next.method).replay memo last
        (((prog.stable_explore fuel after).kept found.2).trans hKept)
      refine ⟨hDeclared, List.Subset.trans hExtends.order hOrder, fun waiting hWaiting => ?_, fun key hKey => ?_⟩
      · rcases mem_cons.mp hWaiting with rfl | hLater
        · intro key hKey
          rw [hAgain] at hKey
          exact (hAdded key hKey).imp_right fun hMem => hOrder hMem
        · exact hQueue waiting (hExtends.queue hLater)
      · rcases hClosed key hKey with hBefore | hCalls
        · rcases hExtends.waits key hBefore with hMet | ⟨method, hMethod, hWaits⟩
          · exact .inl hMet
          · refine .inr fun other hOther => ?_
            have hSame : method = other := Option.some.inj (hMethod.symm.trans hOther)
            exact hSame ▸ hQueue ⟨key.owner, method⟩ hWaits
        · exact .inr hCalls

theorem reachableMethods_eq (hEntry : prog.entry = some (pos, entry)) : prog.reachableMethods =
      prog.explore (prog.allMethods.length + 2) ⟨[], [⟨prog.shader.name, entry⟩]⟩ := by
  rw [reachableMethods, hEntry]

/-- The methods that a shader needs exist, and they are closed under calls. -/
theorem reachableMethods_closed (hShader : lastSegment prog.shader.name = prog.shader.name)
    (hEntry : prog.entry = some (pos, entry)) (hSound : memo.Sound prog)
    (hKept : (prog.reachableMethods memo).2.Kept prog last) (hOrder : (prog.reachableMethods last).1 = order) :
    (∀ key ∈ order, prog.Declares key) ∧ prog.CallsWithin last order prog.shader.name entry ∧
      ∀ key ∈ order, ∀ method, prog.method? key = some method → prog.CallsWithin last order key.owner method := by
  rw [prog.stable_reachableMethods.replay memo last hKept, reachableMethods_eq hEntry] at hOrder
  rw [reachableMethods_eq hEntry] at hKept
  have hValid : Frontier.Valid prog ⟨[], [⟨prog.shader.name, entry⟩]⟩ :=
    ⟨nodup_nil, forall_mem_nil _, forall_mem_singleton.mpr hShader⟩
  have hFuel : 1 + prog.allMethods.length < prog.allMethods.length + 2 + 0 := by omega
  have hClosed := explore_closed (prog.allMethods.length + 2) hValid hSound hFuel hKept
  dsimp only at hClosed hOrder
  rw [hOrder] at hClosed
  obtain ⟨hDeclared, -, hQueue, hKeys⟩ := hClosed
  refine ⟨hDeclared, hQueue ⟨prog.shader.name, entry⟩ (mem_singleton_self _), fun key hKey => ?_⟩
  exact (hKeys key hKey).resolve_left not_mem_nil

theorem IsSeen.lastSegment_name (hSeen : prog.IsSeen) : lastSegment prog.shader.name = prog.shader.name := by
  obtain ⟨entry, hEntry, hDecl⟩ := Option.map_eq_some_iff.mp hSeen.shader
  have hName : entry.name = prog.shader.name := congrArg TypeDecl.name hDecl
  rw [← name_eq_of_get? hEntry, hName]

/-- A waiting method is the entry point, or belongs to one that has been met. -/
def Awaited (program : Program) (order : List MethodKey) (waiting : Waiting) : Prop :=
  (waiting.owner = program.shader.name ∧ program.entry.map Prod.snd = some waiting.method) ∨
    ∃ caller ∈ order, caller.owner = waiting.owner ∧ program.method? caller = some waiting.method

theorem Awaited.mono {waiting : Waiting} (hAwaited : prog.Awaited order waiting) {later : List MethodKey}
    (hLater : order ⊆ later) : prog.Awaited later waiting :=
  hAwaited.imp_right fun ⟨caller, hCaller, hSame⟩ => ⟨caller, hLater hCaller, hSame⟩

variable {P : List MethodKey → Prop}

/-- What holds of the methods that a search has met, whenever one more is met that is new and is not the entry point,
and that a waiting method calls, holds of all methods that it meets. -/
theorem explore_order (hAdd : ∀ order key, P order → prog.isEntry key = false → key ∉ order →
      (∃ waiting, prog.Awaited order waiting ∧ key ∈ (prog.callsOf waiting.owner waiting.method last).1) →
        P (order ++ [key])) (fuel : Nat) (hOrder : P frontier.order)
    (hQueue : ∀ waiting ∈ frontier.queue, prog.Awaited frontier.order waiting)
    (hKept : (prog.explore fuel frontier memo).2.Kept prog last) : P (prog.explore fuel frontier memo).1 := by
  have hFold : ∀ (next : Waiting) (found : List MethodKey),
      (∀ key ∈ found, key ∈ (prog.callsOf next.owner next.method last).1) → ∀ frontier : Frontier,
      P frontier.order → prog.Awaited frontier.order next →
      (∀ waiting ∈ frontier.queue, prog.Awaited frontier.order waiting) →
      let after := found.foldl (Frontier.add prog) frontier
      P after.order ∧ ∀ waiting ∈ after.queue, prog.Awaited after.order waiting := by
    intro next found
    induction found with
    | nil => exact fun _ _ hBefore _ hWaits => ⟨hBefore, hWaits⟩
    | cons key rest ih =>
      intro hFound frontier hBefore hNext hWaits
      have hRest := ih fun other hOther => hFound other (mem_cons_of_mem key hOther)
      rw [foldl_cons]
      unfold Frontier.add
      split
      · exact hRest frontier hBefore hNext hWaits
      · rename_i hNew
        simp only [Bool.or_eq_true, contains_iff_mem, not_or, Bool.not_eq_true] at hNew
        split
        · rename_i method hMethod
          have hGrows : frontier.order ⊆ frontier.order ++ [key] := subset_append_left _ _
          refine hRest _ (hAdd frontier.order key hBefore hNew.1 hNew.2 ⟨next, hNext, hFound key mem_cons_self⟩)
            (hNext.mono hGrows) (forall_mem_append.mpr ⟨fun waiting hOld => (hWaits waiting hOld).mono hGrows, ?_⟩)
          exact forall_mem_singleton.mpr (.inr ⟨key, by simp, rfl, hMethod⟩)
        · exact hRest frontier hBefore hNext hWaits
  induction fuel generalizing frontier memo with
  | zero => exact hOrder
  | succ fuel ih =>
    obtain ⟨order, queue⟩ := frontier
    cases queue with
    | nil => exact hOrder
    | cons next rest =>
      let found := prog.callsOf next.owner next.method memo
      -- What is found now is found again at the end.
      have hAgain := (prog.stable_callsOf next.owner next.method).replay memo last
        (((prog.stable_explore fuel _).kept found.2).trans hKept)
      obtain ⟨hAfter, hWaits⟩ := hFold next found.1 (fun key hKey => hAgain ▸ hKey) ⟨order, rest⟩ hOrder
        (hQueue next mem_cons_self) fun waiting hWaiting => hQueue waiting (mem_cons_of_mem next hWaiting)
      exact ih hAfter hWaits hKept

theorem reachableMethods_order (hNone : P []) (memo : CallMemo)
    (hAdd : ∀ order key, P order → prog.isEntry key = false → key ∉ order → (∃ waiting, prog.Awaited order waiting ∧
        key ∈ (prog.callsOf waiting.owner waiting.method (prog.reachableMethods memo).2).1) →
          P (order ++ [key])) : P (prog.reachableMethods memo).1 := by
  cases hEntry : prog.entry with
  | none =>
    rw [reachableMethods, hEntry]
    exact hNone
  | some found =>
    rw [reachableMethods_eq hEntry] at hAdd ⊢
    refine explore_order hAdd _ hNone (forall_mem_singleton.mpr (.inl ⟨rfl, ?_⟩)) (.refl _)
    rw [hEntry, Option.map_some]

/-- The entry point is not among the methods that it needs. -/
theorem isEntry_eq_false_of_reachable (hKey : key ∈ (prog.reachableMethods memo).1) : prog.isEntry key = false := by
  refine reachableMethods_order (P := fun order => ∀ key ∈ order, prog.isEntry key = false) (forall_mem_nil _) memo
    (fun order key hOrder hEntry _ _ => ?_) key hKey
  exact forall_mem_append.mpr ⟨hOrder, forall_mem_singleton.mpr hEntry⟩

theorem nodup_reachableMethods (memo : CallMemo) : (prog.reachableMethods memo).1.Nodup := by
  refine reachableMethods_order nodup_nil memo fun order key hOrder _ hFresh _ => ?_
  rw [← concat_eq_append]
  exact hOrder.concat hFresh

/-- A method of the shader that is not the entry point stands at another position. -/
theorem fst_entry_ne {method : MethodDecl} (hEntry : prog.isEntry key = false)
    (hOwner : key.owner = prog.shader.name) (hMethod : prog.method? key = some method) :
    (prog.entry.map Prod.fst == some key.index) = false := by
  unfold isEntry at hEntry
  cases hFound : prog.entry with
  | none => rfl
  | some found =>
    rw [hFound, hOwner, hMethod] at hEntry
    simp only [beq_self_eq_true, Bool.true_and, Option.isSome_some, Bool.and_true, beq_eq_false_iff_ne] at hEntry
    rw [Option.map_some, beq_eq_false_iff_ne, ne_eq, Option.some.injEq]
    exact hEntry.symm

/-- After the rules have walked a shader, the methods that it needs are closed under calls. -/
theorem legality_closed (hSeen : prog.IsSeen) (hEntry : prog.entry = some (pos, entry))
    (hKept : (prog.legality .empty).2.Kept prog last) (hOrder : (prog.reachableMethods last).1 = order) :
    (∀ key ∈ order, prog.Declares key) ∧ prog.CallsWithin last order prog.shader.name entry ∧
      ∀ key ∈ order, ∀ method, prog.method? key = some method → prog.CallsWithin last order key.owner method := by
  obtain ⟨start, hMemo, -, hMet, -, hAll⟩ := Legality.checkAll_eq prog (.start .empty ⟨"", false, []⟩)
  let members := (Legality.checkMembers prog 0 prog.shader.members start).2
  let helpers := prog.reachableMethods members.memo
  have hEnd : (prog.legality .empty).2 =
      (Legality.checkHelpers prog helpers.1 { members with memo := helpers.2 }).2.memo := congrArg Tracked.memo hAll
  rw [hEnd] at hKept
  have hStart : start.Sound prog := by
    refine ⟨?_, ?_⟩
    · rw [hMemo]
      exact fun _ _ hLookup => by cases hLookup
    · rw [hMet]
      exact forall_mem_nil _
  have hMembers : members.Sound prog :=
    (Legality.walks_sounds prog hSeen.lastSegment_name).checkMembers 0 prog.shader.members start hStart
  have hHelpers := (Legality.passes_checkHelpers (Legality.visitor_respects prog) helpers.1).keeps.memo
    { members with memo := helpers.2 }
  exact reachableMethods_closed hSeen.lastSegment_name hEntry hMembers.memo (hHelpers.trans hKept) hOrder

end Program

end Shaderlift
