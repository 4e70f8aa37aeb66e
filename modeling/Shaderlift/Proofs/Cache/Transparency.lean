import Mathlib.Data.List.Dedup
import Mathlib.Data.List.Induction
import Shaderlift.Cache
import Shaderlift.Proofs.Gate

/-!
# Caching is transparent

Whatever was looked up before, a cache gives for a request what transpiling gives, an error included. A shader comes
from memory exactly if the same request has succeeded since the cache was last cleared, and the cache holds one shader
for each such request. All of this needs the requests of a history to have keys of their own (`DistinctKeys`): a
digest of 32 bytes cannot tell all texts apart.
-/

namespace Shaderlift

open List

namespace Request

def succeeds (request : Request) : Bool := request.transpile.toBool

theorem succeeds_iff {request : Request} : request.succeeds = true ↔ ∃ shader, request.transpile = .ok shader := by
  unfold succeeds
  cases request.transpile with
  | ok shader => simp [Except.toBool]
  | error error => simp [Except.toBool]

end Request

/-- What is done with a cache. -/
inductive CacheStep where
  | lookup (request : Request)
  | clear

namespace CacheStep

def requests (steps : List CacheStep) : List Request :=
  steps.filterMap fun step =>
    match step with
    | .lookup request => some request
    | .clear => none

/-- List the requests since the last time that the cache was cleared, the latest first. -/
def sinceClear (steps : List CacheStep) : List Request :=
  steps.foldl (fun recent step => match step with | .lookup request => request :: recent | .clear => []) []

/-- List the requests that have succeeded since the last time that the cache was cleared, each once. -/
def kept (steps : List CacheStep) : List Request := ((sinceClear steps).filter Request.succeeds).dedup

variable {steps : List CacheStep} {request : Request}

theorem mem_kept : request ∈ kept steps ↔ request ∈ sinceClear steps ∧ request.succeeds = true := by
  simp [kept]

theorem mem_requests_of_mem_sinceClear (hRequest : request ∈ sinceClear steps) : request ∈ requests steps := by
  induction steps using List.reverseRecOn with
  | nil => cases hRequest
  | append_singleton steps step ih =>
    unfold requests
    rw [filterMap_append]
    unfold sinceClear at hRequest
    rw [foldl_append] at hRequest
    cases step with
    | clear => cases hRequest
    | lookup latest =>
      rcases mem_cons.mp hRequest with rfl | hBefore
      · simp
      · exact mem_append_left _ (ih hBefore)

/-- A request that succeeds is kept after a lookup, unless it is there already. -/
theorem kept_lookup (steps : List CacheStep) (request : Request) :
    kept (steps ++ [.lookup request]) =
      if request.succeeds && !(kept steps).contains request then request :: kept steps else kept steps := by
  have hRecent : sinceClear (steps ++ [.lookup request]) = request :: sinceClear steps := by
    simp [sinceClear, foldl_append]
  unfold kept
  rw [hRecent]
  by_cases hSucceeds : request.succeeds = true
  · rw [filter_cons_of_pos hSucceeds]
    by_cases hMem : request ∈ (sinceClear steps).filter Request.succeeds
    · rw [dedup_cons_of_mem hMem]
      simp_all
    · rw [dedup_cons_of_notMem hMem]
      simp_all
  · rw [filter_cons_of_neg hSucceeds]
    simp [hSucceeds]

theorem kept_clear (steps : List CacheStep) : kept (steps ++ [.clear]) = [] := by
  simp [kept, sinceClear, foldl_append]

end CacheStep

def DistinctKeys (requests : List Request) : Prop :=
  ∀ first ∈ requests, ∀ second ∈ requests, first.key = second.key → first = second

/-- The requests before a lookup are told apart, and none that is kept has the key of another. -/
theorem DistinctKeys.before {steps : List CacheStep} {step : CacheStep}
    (hKeys : DistinctKeys (CacheStep.requests (steps ++ [step]))) :
    DistinctKeys (CacheStep.requests steps) ∧ ∀ request, step = .lookup request →
      ∀ other ∈ CacheStep.kept steps, other.key = request.key → other = request := by
  have hParts : CacheStep.requests (steps ++ [step]) = CacheStep.requests steps ++ CacheStep.requests [step] :=
    filterMap_append
  rw [hParts] at hKeys
  refine ⟨fun first hFirst second hSecond => ?_, fun request hStep other hOther => ?_⟩
  · exact hKeys first (mem_append_left _ hFirst) second (mem_append_left _ hSecond)
  · have hBefore := CacheStep.mem_requests_of_mem_sinceClear (CacheStep.mem_kept.mp hOther).1
    exact hKeys other (mem_append_left _ hBefore) request (by simp [CacheStep.requests, hStep])

namespace Cache

/-- Find the shader of a request in a cache of one's own or in one that callers share. -/
def find (isShared : Bool) (cache : Cache) (request : Request) : Except TranspileError (Transpiled × Origin) × Cache :=
  if isShared then cache.getOrTranspileShared request else cache.getOrTranspile request

def after (isShared : Bool) (cache : Cache) : CacheStep → Cache
  | .lookup request => (cache.find isShared request).2
  | .clear => .empty

def history (isShared : Bool) (steps : List CacheStep) : Cache := steps.foldl (after isShared) .empty

theorem history_append (isShared : Bool) (steps : List CacheStep) (step : CacheStep) :
    history isShared (steps ++ [step]) = (history isShared steps).after isShared step := by
  simp [history, foldl_append]

/-- Among callers that take turns nobody else can be first, so sharing makes no difference. -/
theorem find_eq (isShared : Bool) (cache : Cache) (request : Request) :
    cache.find isShared request = cache.getOrTranspile request := by
  cases isShared with
  | false => rfl
  | true =>
    show cache.getOrTranspileShared request = _
    unfold getOrTranspileShared getOrTranspile
    cases hGet : cache.get? request.key with
    | some shader => rfl
    | none =>
      dsimp only
      cases request.transpile with
      | error error => rfl
      | ok shader => simp only [keepFirst, hGet]

/-- A cache holds the shaders of requests, each under the key of its own. -/
def Holds (cache : Cache) (requests : List Request) : Prop :=
  List.Forall₂ (fun entry request => entry.1 = request.key ∧ request.transpile = .ok entry.2) cache.entries requests

/-- What a cache finds is the shader of the request, and it finds one if it holds the request. -/
theorem Holds.get? {cache : Cache} {requests : List Request} (hHolds : cache.Holds requests) {request : Request}
    (hKeys : ∀ other ∈ requests, other.key = request.key → other = request) :
    (request ∈ requests → ∃ shader, cache.get? request.key = some shader ∧ request.transpile = .ok shader) ∧
      (request ∉ requests → cache.get? request.key = none) := by
  obtain ⟨entries⟩ := cache
  unfold Cache.get?
  unfold Holds at hHolds
  dsimp only at hHolds ⊢
  induction hHolds with
  | nil => exact ⟨fun hMem => (not_mem_nil hMem).elim, fun _ => rfl⟩
  | @cons entry other entries others hEntry hRest ih =>
    obtain ⟨key, shader⟩ := entry
    obtain ⟨hKey, hShader⟩ := hEntry
    dsimp only at hKey hShader
    have hOthers := ih (forall_mem_cons.mp hKeys).2
    rw [lookup_cons]
    by_cases hSame : request.key = key
    · -- Only the request itself has its key.
      have hThis : other = request := hKeys other mem_cons_self (hKey.symm.trans hSame.symm)
      subst hThis
      rw [beq_iff_eq.mpr hSame]
      exact ⟨fun _ => ⟨shader, rfl, hShader⟩, fun hNot => (hNot mem_cons_self).elim⟩
    · have hOther : request ≠ other := fun hThis => hSame (hThis ▸ hKey.symm)
      rw [beq_false_of_ne hSame]
      refine ⟨fun hMem => hOthers.1 ((mem_cons.mp hMem).resolve_left hOther), fun hNot => hOthers.2 ?_⟩
      exact fun hMem => hNot (mem_cons_of_mem _ hMem)

/-- What a lookup does, by whether the request is held and whether it succeeds. -/
theorem Holds.getOrTranspile {cache : Cache} {requests : List Request} (hHolds : cache.Holds requests)
    {request : Request} (hKeys : ∀ other ∈ requests, other.key = request.key → other = request) :
    (∃ error, request.transpile = .error error ∧ cache.getOrTranspile request = (.error error, cache) ∧
      request ∉ requests) ∨ ∃ shader, request.transpile = .ok shader ∧
      (request ∈ requests ∧ cache.getOrTranspile request = (.ok (shader, .memory), cache) ∨ request ∉ requests ∧
          cache.getOrTranspile request = (.ok (shader, .transpiled), ⟨(request.key, shader) :: cache.entries⟩)) := by
  obtain ⟨hThere, hMissing⟩ := hHolds.get? hKeys
  by_cases hMem : request ∈ requests
  · obtain ⟨shader, hGet, hShader⟩ := hThere hMem
    exact .inr ⟨shader, hShader, .inl ⟨hMem, by simp [Cache.getOrTranspile, hGet]⟩⟩
  · have hGet := hMissing hMem
    cases hShader : request.transpile with
    | error error => exact .inl ⟨error, rfl, by simp [Cache.getOrTranspile, hGet, hShader], hMem⟩
    | ok shader => exact .inr ⟨shader, rfl, .inr ⟨hMem, by simp [Cache.getOrTranspile, hGet, hShader]⟩⟩

open CacheStep

/-- After any history a cache holds what has succeeded since the last time that it was cleared. -/
theorem holds_history (isShared : Bool) {steps : List CacheStep} (hKeys : DistinctKeys (requests steps)) :
    (history isShared steps).Holds (kept steps) := by
  induction steps using List.reverseRecOn with
  | nil => exact .nil
  | append_singleton steps step ih =>
    obtain ⟨hBefore, hOwn⟩ := hKeys.before
    have hHolds := ih hBefore
    rw [history_append]
    cases step with
    | clear =>
      rw [kept_clear]
      exact .nil
    | lookup request =>
      rw [kept_lookup]
      show Holds (Cache.find isShared _ request).2 _
      rw [find_eq]
      obtain ⟨error, hError, hFound, hMem⟩ | ⟨shader, hShader, ⟨hMem, hFound⟩ | ⟨hMem, hFound⟩⟩ :=
        hHolds.getOrTranspile (hOwn request rfl)
      · rw [hFound]
        simpa [Request.succeeds, hError, Except.toBool] using hHolds
      · rw [hFound]
        simpa [hMem] using hHolds
      · rw [hFound]
        have hSucceeds := Request.succeeds_iff.mpr ⟨shader, hShader⟩
        simp only [hSucceeds, contains_eq_mem, hMem, decide_false, Bool.not_false, Bool.and_true, if_true]
        exact .cons ⟨rfl, hShader⟩ hHolds

/-- A lookup after any history gives what transpiling gives. The shader comes from memory exactly if the request has
succeeded since the last time that the cache was cleared, a lookup that fails leaves the cache as it is, and the cache
holds as many shaders as different requests have succeeded since then. -/
theorem find_transparent (isShared : Bool) (steps : List CacheStep) (request : Request)
    (hKeys : DistinctKeys (requests (steps ++ [.lookup request]))) :
    let cache := history isShared steps
    let result := cache.find isShared request
    result.1.map Prod.fst = request.transpile ∧
      (∀ shader origin, result.1 = .ok (shader, origin) →
        (origin = .memory ↔ request ∈ sinceClear steps ∧ request.succeeds = true)) ∧
      (result.1.toBool = false → result.2 = cache) ∧
      cache.size = ((sinceClear steps).filter Request.succeeds).dedup.length := by
  obtain ⟨hBefore, hOwn⟩ := hKeys.before
  have hHolds := holds_history isShared hBefore
  have hSize : (history isShared steps).size = (kept steps).length := hHolds.length_eq
  dsimp only
  rw [find_eq, ← mem_kept]
  obtain ⟨error, hError, hFound, -⟩ | ⟨shader, hShader, ⟨hMem, hFound⟩ | ⟨hMem, hFound⟩⟩ :=
    hHolds.getOrTranspile (hOwn request rfl)
  · rw [hFound, hError]
    refine ⟨rfl, fun _ _ hOk => ?_, fun _ => rfl, hSize⟩
    cases hOk
  · rw [hFound, hShader]
    refine ⟨rfl, fun _ _ hOk => ?_, fun hFails => ?_, hSize⟩
    · cases hOk
      exact ⟨fun _ => hMem, fun _ => rfl⟩
    · cases hFails
  · rw [hFound, hShader]
    refine ⟨rfl, fun _ _ hOk => ?_, fun hFails => ?_, hSize⟩
    · cases hOk
      refine ⟨fun hMemory => ?_, fun hThere => (hMem hThere).elim⟩
      cases hMemory
    · cases hFails

/-- A request that is looked up twice after the cache was cleared. -/
def repeatedSteps (request : Request) : List CacheStep := [.lookup request, .clear, .lookup request, .lookup request]

/-- One more lookup is answered from memory, and one shader is held. -/
theorem find_transparent_repeatedSteps :
    let request : Request := ⟨"S", borrowingShader, .unspecified⟩
    let cache := history true (repeatedSteps request)
    DistinctKeys (requests (repeatedSteps request ++ [.lookup request])) ∧ cache.size = 1 ∧
      ∃ shader, request.transpile = .ok shader ∧ (cache.find true request).1 = .ok (shader, .memory) := by
  intro request cache
  have hKeys : DistinctKeys (requests (repeatedSteps request ++ [.lookup request])) := by
    intro first hFirst second hSecond _
    have hAll : requests (repeatedSteps request ++ [.lookup request]) = List.replicate 4 request := rfl
    rw [hAll] at hFirst hSecond
    rw [eq_of_mem_replicate hFirst, eq_of_mem_replicate hSecond]
  have hSucceeds : request.succeeds = true := isOk_borrowingShader
  have hRecent : sinceClear (repeatedSteps request) = [request, request] := rfl
  obtain ⟨shader, hShader⟩ := Request.succeeds_iff.mp hSucceeds
  obtain ⟨hFound, hMemory, -, hSize⟩ := find_transparent true (repeatedSteps request) request hKeys
  rw [hRecent] at hMemory hSize
  refine ⟨hKeys, ?_, shader, hShader, ?_⟩
  · rw [hSize]
    simp [hSucceeds]
  · rw [hShader] at hFound
    cases hResult : (cache.find true request).1 with
    | error error =>
      rw [hResult] at hFound
      cases hFound
    | ok pair =>
      rw [hResult] at hFound
      have hMem : request ∈ [request, request] ∧ request.succeeds = true := ⟨mem_cons_self, hSucceeds⟩
      have hOrigin := (hMemory pair.1 pair.2 hResult).mpr hMem
      cases hFound
      rw [← hOrigin]

end Cache

end Shaderlift
