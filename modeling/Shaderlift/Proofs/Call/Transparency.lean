import Shaderlift.Proofs.Call.Memo

/-!
# When the memo of calls shows

A call is remembered by its owner, its name and its arguments, whichever way it is written. A bare call, a
call on the shader itself and a call on a type can therefore share a key, and the first of them answers for
all. The main result says when this shows: calls that are put in a row get the answers that each of them
would get alone exactly when no two calls that share a key are written in ways with different meanings. A
bare call and a call on the shader itself differ exactly where the owner has no such method, and a call on a
type differs from neither where the type is no owner of built-in functions and has the method.
-/

namespace Shaderlift

open List

/-- A call that is put to the classification: the owner of the method that makes it, what is called, its
arguments, and the scope. -/
structure CallQuery where
  owner : String
  callee : Expr
  args : List CallArg
  scope : Scope

/-- The way in which a call is written and what it is remembered by, unless its answer depends on the scope
or it cannot be classified. -/
def CallQuery.remembered? (program : Program) (query : CallQuery) : Option (CallForm × CallKey) :=
  match query.callee with
  | .ident _ name =>
    if (query.scope.function? name).isSome then none else some (.bare, ⟨query.owner, name, query.args⟩)
  | .member _ (.selfRef _) name false => some (.onSelf, ⟨query.owner, name, query.args⟩)
  | .member _ target name false =>
    match target.path? with
    | none => none
    | some path =>
      if program.isVariable query.owner (Text.firstSegment path) query.scope then none
      else some (.onType, ⟨path, name, query.args⟩)
  | _ => none

namespace Program

def ask (program : Program) (query : CallQuery) : Recall Callee :=
  program.callee query.owner query.callee query.args query.scope

def freshAnswer (program : Program) (query : CallQuery) : Callee := (program.ask query .empty).1

def askAll (program : Program) : List CallQuery → Recall (List Callee)
  | [] => pure []
  | query :: rest => do
    let answer ← program.ask query
    let others ← program.askAll rest
    pure (answer :: others)

/-- Two calls are coherent if they do not share a key, or mean the same in the ways in which they are
written. -/
def Coherent (program : Program) (earlier later : CallQuery) : Prop :=
  ∀ key form form', earlier.remembered? program = some (form, key) →
    later.remembered? program = some (form', key) → form.meaning program key = form'.meaning program key

/-- A call is coherent with a memo if the answer that is remembered for it, if any, is its own meaning. -/
def CoherentWith (program : Program) (memo : CallMemo) (query : CallQuery) : Prop :=
  ∀ form key known, query.remembered? program = some (form, key) → memo.entries.lookup key = some known →
    known = form.meaning program key

variable {prog : Program}

/-! ## One call -/

/-- A call that has a key is answered through the memo, the others are answered without it. -/
theorem ask_cases (prog : Program) (query : CallQuery) : (∃ form key, query.remembered? prog = some (form, key) ∧
      prog.ask query = CallMemo.remember key (form.meaning prog key)) ∨
    (query.remembered? prog = none ∧ ∃ answer, prog.ask query = pure answer) := by
  obtain ⟨owner, callee, args, scope⟩ := query
  unfold ask Program.callee CallQuery.remembered?
  cases callee with
  | ident _ name =>
    by_cases hFn : (scope.function? name).isSome
    · exact .inr ⟨if_pos hFn, _, if_pos hFn⟩
    · exact .inl ⟨.bare, _, if_neg hFn, if_neg hFn⟩
  | member _ target name conditional =>
    cases conditional with
    | true => exact .inr ⟨by cases target <;> rfl, .unknown "<expression>", by cases target <;> rfl⟩
    | false =>
      generalize hPath : target.path? = found
      cases target with
      | selfRef _ => exact .inl ⟨.onSelf, _, rfl, rfl⟩
      | _ =>
        cases found with
        | none => exact .inr ⟨by simp only [hPath], .unknown name, by simp only [hPath]⟩
        | some path =>
          simp only [hPath]
          by_cases hVariable : prog.isVariable owner (Text.firstSegment path) scope
          · exact .inr ⟨if_pos hVariable, _, if_pos hVariable⟩
          · exact .inl ⟨.onType, _, if_neg hVariable, if_neg hVariable⟩
  | _ => exact .inr ⟨rfl, _, rfl⟩

/-- A call is answered as it would be alone exactly if it is coherent with the memo. -/
theorem ask_eq_fresh_iff (query : CallQuery) (memo : CallMemo) :
    (prog.ask query memo).1 = prog.freshAnswer query ↔ prog.CoherentWith memo query := by
  obtain ⟨form, key, hKey, hAsk⟩ | ⟨hKey, answer, hAsk⟩ := prog.ask_cases query
  · have hEmpty : CallMemo.empty.entries.lookup key = none := rfl
    rw [freshAnswer, hAsk, CallMemo.remember_of_new _ hEmpty]
    have hOwn : prog.CoherentWith memo query ↔
        ∀ known, memo.entries.lookup key = some known → known = form.meaning prog key := by
      unfold CoherentWith
      rw [hKey]
      constructor
      · exact fun hAll known hLookup => hAll form key known rfl hLookup
      · rintro hOwn _ _ known ⟨⟩ hLookup
        exact hOwn known hLookup
    cases hLookup : memo.entries.lookup key with
    | none =>
      rw [CallMemo.remember_of_new _ hLookup, hOwn, hLookup]
      simp
    | some known =>
      rw [CallMemo.remember_of_known _ hLookup, hOwn, hLookup]
      simp
  · have hCoherent : prog.CoherentWith memo query := by
      intro form key known hSome
      rw [hKey] at hSome
      cases hSome
    simp only [freshAnswer, hAsk, hCoherent, iff_true]
    rfl

/-- After a call that is answered as it would be alone, a later call is coherent with the memo exactly if it
was so before and is coherent with that call. -/
theorem coherentWith_ask_iff {query later : CallQuery} {memo : CallMemo} (hQuery : prog.CoherentWith memo query) :
    prog.CoherentWith (prog.ask query memo).2 later ↔ prog.CoherentWith memo later ∧ prog.Coherent query later := by
  obtain ⟨form, key, hKey, hAsk⟩ | ⟨hKey, answer, hAsk⟩ := prog.ask_cases query
  · rw [hAsk]
    cases hLookup : memo.entries.lookup key with
    | some known =>
      rw [CallMemo.remember_of_known _ hLookup]
      have hKnown : known = form.meaning prog key := hQuery form key known hKey hLookup
      refine ⟨fun hLater => ⟨hLater, ?_⟩, And.left⟩
      intro other first second hFirst hSecond
      rw [hKey] at hFirst
      cases hFirst
      rw [← hKnown]
      exact hLater second key known hSecond hLookup
    | none =>
      rw [CallMemo.remember_of_new _ hLookup]
      constructor
      · intro hLater
        constructor
        · intro second other known hSecond hOther
          have hDifferent : other ≠ key := by
            rintro rfl
            rw [hLookup] at hOther
            cases hOther
          apply hLater second other known hSecond
          rw [lookup_cons, beq_false_of_ne hDifferent]
          exact hOther
        · intro other first second hFirst hSecond
          rw [hKey] at hFirst
          cases hFirst
          exact hLater second key _ hSecond lookup_cons_self
      · rintro ⟨hBefore, hPair⟩ second other known hSecond hOther
        by_cases hSame : other = key
        · subst hSame
          rw [lookup_cons_self] at hOther
          cases hOther
          exact hPair other form second hKey hSecond
        · rw [lookup_cons, beq_false_of_ne hSame] at hOther
          exact hBefore second other known hSecond hOther
  · rw [hAsk]
    refine ⟨fun hLater => ⟨hLater, ?_⟩, And.left⟩
    intro other first second hFirst
    rw [hKey] at hFirst
    cases hFirst

/-! ## Calls in a row -/

/-- From any memo: calls in a row are answered as they would be alone exactly if each is coherent with the
memo and with every call before it. -/
theorem askAll_eq_fresh_iff (queries : List CallQuery) (memo : CallMemo) :
    (prog.askAll queries memo).1 = queries.map prog.freshAnswer ↔
      (∀ query ∈ queries, prog.CoherentWith memo query) ∧ queries.Pairwise prog.Coherent := by
  induction queries generalizing memo with
  | nil =>
    simp only [not_mem_nil, false_implies, implies_true, List.Pairwise.nil, and_self, iff_true]
    rfl
  | cons query rest ih =>
    change (prog.ask query memo).1 :: (prog.askAll rest (prog.ask query memo).2).1 = _ ↔ _
    rw [map_cons, List.cons.injEq, ask_eq_fresh_iff, ih, pairwise_cons,
      forall_mem_cons]
    -- The memo after the first call stands for the old memo and that call.
    have hStep (hQuery : prog.CoherentWith memo query) :
        (∀ later ∈ rest, prog.CoherentWith (prog.ask query memo).2 later) ↔
          (∀ later ∈ rest, prog.CoherentWith memo later) ∧
            ∀ later ∈ rest, prog.Coherent query later := by
      simp only [coherentWith_ask_iff hQuery, forall_and]
    constructor
    · rintro ⟨hQuery, hRest, hPairs⟩
      obtain ⟨hBefore, hFirst⟩ := (hStep hQuery).mp hRest
      exact ⟨⟨hQuery, hBefore⟩, hFirst, hPairs⟩
    · rintro ⟨⟨hQuery, hBefore⟩, hFirst, hPairs⟩
      exact ⟨hQuery, (hStep hQuery).mpr ⟨hBefore, hFirst⟩, hPairs⟩

/-! ## The ways to write a call -/

/-- Through types that are used without being named a call is never unknown. -/
theorem calleeThrough_ne_unknown {target name text : String} {args : List CallArg} :
    prog.calleeThrough? target name args ≠ some (.unknown text) := by
  unfold calleeThrough? sourceMethod?
  split
  · simp
  · split
    · simp
    · simp
    · split <;> simp

/-- A bare call means a call on the shader itself exactly if the owner has the method. -/
theorem bare_eq_onSelf_iff (key : CallKey) : CallForm.bare.meaning prog key = CallForm.onSelf.meaning prog key ↔
      (prog.sourceMethod? key.owner key.name key.args).isSome := by
  show prog.unqualifiedCallee key.owner key.name key.args =
    prog.selfCallee key.owner key.name key.args ↔ _
  unfold unqualifiedCallee selfCallee
  cases prog.sourceMethod? key.owner key.name key.args with
  | some callee => simp
  | none =>
    simp only [Option.getD_none, Option.isSome_none, Bool.false_eq_true, iff_false]
    cases hFound : prog.staticUsings.findSome? fun target =>
        prog.calleeThrough? target key.name key.args with
    | some callee =>
      obtain ⟨target, _, hTarget⟩ := exists_of_findSome?_eq_some hFound
      rintro rfl
      exact calleeThrough_ne_unknown hTarget
    | none =>
      intro hSame
      -- The text of the second is longer by `this.`.
      have hText : key.name = Text.dotted "this" key.name := by simpa using hSame
      have hLength := congrArg String.length hText
      simp [Text.dotted] at hLength

/-- A call on a type means the bare call if the type owns no built-in functions, goes by its own name and
has the method. -/
theorem onType_eq_bare {key : CallKey} {entry : TypeEntry} (hOwner : Intrinsic.owner? key.owner = none)
    (hEntry : prog.index.find? key.owner = some entry) (hName : entry.name = key.owner)
    (hMethod : (prog.sourceMethod? key.owner key.name key.args).isSome) :
    CallForm.onType.meaning prog key = CallForm.bare.meaning prog key := by
  obtain ⟨callee, hCallee⟩ := Option.isSome_iff_exists.mp hMethod
  show prog.qualifiedCallee key.owner key.name key.args =
    prog.unqualifiedCallee key.owner key.name key.args
  simp only [qualifiedCallee, unqualifiedCallee, hOwner, hEntry, hName, hCallee, Option.getD_some]

end Program

/-- Calls that are put in a row, from the empty memo, get the answers that each would get alone exactly when
any two of them with the same key mean the same in the ways in which they are written; a bare call and one
on the shader itself do so exactly if the owner has the method. -/
theorem askAll_transparent_iff (program : Program) (queries : List CallQuery) :
    ((program.askAll queries .empty).1 = queries.map program.freshAnswer ↔
      queries.Pairwise program.Coherent) ∧
    (∀ key : CallKey, CallForm.bare.meaning program key = CallForm.onSelf.meaning program key ↔
      (program.sourceMethod? key.owner key.name key.args).isSome) ∧
    ∀ (key : CallKey) (entry : TypeEntry), Intrinsic.owner? key.owner = none →
      program.index.find? key.owner = some entry → entry.name = key.owner →
      (program.sourceMethod? key.owner key.name key.args).isSome →
      CallForm.onType.meaning program key = CallForm.bare.meaning program key := by
  refine ⟨?_, Program.bare_eq_onSelf_iff, fun _ _ => Program.onType_eq_bare⟩
  rw [Program.askAll_eq_fresh_iff]
  have hEmpty : ∀ query ∈ queries, program.CoherentWith .empty query := by
    intro query _ form key known _ hLookup
    cases hLookup
  exact ⟨And.right, fun hPairs => ⟨hEmpty, hPairs⟩⟩

end Shaderlift
