import Shaderlift.Proofs.Accepted.ControlFlow
import Shaderlift.Proofs.Lowering.Returns

/-!
# Shaders that are run for each pixel

An accepted shader that is run for each pixel writes the values that its entry point returns to the output
texture, and nothing else in it does. It is dispatched over two extents: the guard around the entry point looks
at two, and no coordinates are written with the third.
-/

namespace Shaderlift

open List

open Lower

/-! ## The third extent -/

def Mentions (text part : String) : Prop := part.toList <:+: text.toList

instance (text part : String) : Decidable (Mentions text part) :=
  inferInstanceAs (Decidable (part.toList <:+: text.toList))

def thirdExtent : String := "__z"

theorem not_mentions_of_not_mem {text part : String} {c : Char} (hPart : c ∈ part.toList) (hText : c ∉ text.toList) :
    ¬ Mentions text part := fun hMentions => hText (hMentions.subset hPart)

/-- A part that does not hold a separator lies on one side of it. -/
theorem infix_of_separated {first second part : List Char} {separator : Char} (hPart : separator ∉ part)
    (hInfix : part <:+: first ++ separator :: second) : part <:+: first ∨ part <:+: second := by
  obtain ⟨before, after, hText⟩ := hInfix
  rw [append_assoc] at hText
  rcases append_eq_append_iff.mp hText with ⟨rest, hFirst, hRest⟩ | ⟨rest, -, hRest⟩
  · -- The part begins before the separator, so it also ends there.
    rcases append_eq_append_iff.mp hRest with ⟨others, hInside, -⟩ | ⟨others, hSplit, hMark⟩
    · exact .inl ⟨before, others, by rw [hFirst, hInside, append_assoc]⟩
    · cases others with
      | nil => exact .inl ⟨before, [], by rw [hFirst, hSplit, append_nil, append_nil]⟩
      | cons c others =>
        rw [cons_append, List.cons.injEq] at hMark
        exact absurd (hSplit ▸ mem_append_right rest (hMark.1 ▸ mem_cons_self)) hPart
  · cases rest with
    | nil =>
      cases part with
      | nil => exact .inl ⟨[], first, rfl⟩
      | cons c others =>
        rw [nil_append, cons_append, List.cons.injEq] at hRest
        exact absurd (hRest.1 ▸ mem_cons_self) hPart
    | cons c rest =>
      rw [cons_append, List.cons.injEq] at hRest
      exact .inr ⟨rest, after, by rw [hRest.2, append_assoc]⟩

/-- A part without dots of a dotted name is part of one of its halves. -/
theorem mentions_dotted {first second part : String} (hPart : '.' ∉ part.toList)
    (hMentions : Mentions (Text.dotted first second) part) : Mentions first part ∨ Mentions second part := by
  have hDotted : (Text.dotted first second).toList = first.toList ++ '.' :: second.toList := by
    simp [Text.dotted, String.toList_append]
  rw [Mentions, hDotted] at hMentions
  exact infix_of_separated hPart hMentions

theorem toList_joinWith_subset (separator : String) (texts : List String) {c : Char}
    (hMem : c ∈ (Text.joinWith separator texts).toList) : c ∈ separator.toList ∨ ∃ text ∈ texts, c ∈ text.toList := by
  induction texts with
  | nil => cases hMem
  | cons text rest ih =>
    cases rest with
    | nil => exact .inr ⟨text, mem_singleton_self text, hMem⟩
    | cons second others =>
      simp only [Text.joinWith, String.toList_append, mem_append] at hMem
      rcases hMem with (hText | hSeparator) | hRest
      · exact .inr ⟨text, mem_cons_self, hText⟩
      · exact .inl hSeparator
      · rcases ih hRest with hSeparator | ⟨other, hOther, hText⟩
        · exact .inl hSeparator
        · exact .inr ⟨other, mem_cons_of_mem text hOther, hText⟩

theorem underscore_not_mem_swizzle {name swizzle : String} {width : Nat}
    (hSwizzle : Swizzle.ofName? name width = some swizzle) : '_' ∉ swizzle.toList := by
  have hLetters : ∀ letters name, Swizzle.within letters width name = true → '_' ∈ name → '_' ∈ letters := by
    intro letters name hWithin hMem
    have hIdx := all_eq_true.mp hWithin '_' hMem
    split at hIdx
    · rename_i hFound
      exact (isSome_idxOf?.mp (by rw [hFound]; rfl))
    · cases hIdx
  unfold Swizzle.ofName? at hSwizzle
  dsimp only at hSwizzle
  split at hSwizzle
  · cases hSwizzle
  · split at hSwizzle
    · rename_i hWithin
      cases hSwizzle
      rw [String.toList_ofList]
      intro hMem
      rcases Bool.or_eq_true_iff.mp hWithin with hFirst | hSecond
      · exact absurd (hLetters _ _ hFirst hMem) (by decide)
      · exact absurd (hLetters _ _ hSecond hMem) (by decide)
    · cases hSwizzle

theorem mentions_dispatchSwizzle {base name : String} (hBase : ¬ Mentions base thirdExtent)
    (hMentions : Mentions (dispatchSwizzle base name).text thirdExtent) : Mentions name thirdExtent := by
  rcases mentions_dotted (by decide) hMentions with hFirst | hSecond
  · exact absurd hFirst hBase
  · cases hSwizzle : Swizzle.ofName? name 3 with
    | none => rwa [hSwizzle] at hSecond
    | some swizzle =>
      rw [hSwizzle] at hSecond
      exact absurd hSecond (not_mentions_of_not_mem (by decide) (underscore_not_mem_swizzle hSwizzle))

/-- The components of the size of a dispatch over two extents. -/
theorem z_not_mem_extentComponent (c : Char) : 'z' ∉ (extentComponent .pixel c).text.toList := by
  unfold extentComponent
  split
  · decide
  · split
    · decide
    · decide

theorem z_not_mem_call {count : Nat} {args : List OutExpr} (hArgs : ∀ arg ∈ args, 'z' ∉ arg.text.toList) :
    'z' ∉ (OutExpr.call (.ident ("uint" ++ toString count)) args).text.toList := by
  have hCount : 'z' ∉ (toString count).toList := by
    intro hMem
    have hDigit : 'z' ∈ Nat.toDigits 10 count := by simpa [toString, Nat.repr] using hMem
    exact absurd (Nat.isDigit_of_mem_toDigits (by decide) (by decide) hDigit) (by decide)
  have hTexts : ∀ text ∈ OutExpr.texts args, 'z' ∉ text.toList := by
    induction args with
    | nil => exact forall_mem_nil _
    | cons arg rest ih =>
      obtain ⟨hArg, hRest⟩ := forall_mem_cons.mp hArgs
      exact forall_mem_cons.mpr ⟨hArg, ih hRest⟩
  have hJoined : 'z' ∉ (Text.joinWith ", " (OutExpr.texts args)).toList := by
    intro hMem
    rcases toList_joinWith_subset _ _ hMem with hSeparator | ⟨text, hText, hInside⟩
    · exact absurd hSeparator (by decide)
    · exact hTexts text hText hInside
  simp only [OutExpr.text, OutExpr.ident, TokenKind.spelling, String.toList_append, mem_append, hCount, hJoined,
    or_false]
  decide

theorem mentions_extentSwizzle {name : String} (hMentions : Mentions (extentSwizzle .pixel name).text thirdExtent) :
    Mentions name thirdExtent := by
  unfold extentSwizzle at hMentions
  split at hMentions
  · rcases mentions_dotted (by decide) hMentions with hFirst | hSecond
    · exact absurd hFirst (by decide)
    · exact hSecond
  · rename_i swizzle _
    have hComponents : ∀ component ∈ swizzle.toList.map (extentComponent .pixel), 'z' ∉ component.text.toList :=
      forall_mem_map.mpr fun c _ => z_not_mem_extentComponent c
    refine absurd hMentions (@not_mentions_of_not_mem _ thirdExtent 'z' (by decide) ?_)
    split
    · rename_i single hSingle
      exact hComponents single (hSingle ▸ mem_singleton_self single)
    · exact z_not_mem_call hComponents

/-- Coordinates as a whole are written without the third extent. -/
theorem gives_dispatchValue (info : DispatchInfo) :
    Gives (fun out => ¬ Mentions out.text thirdExtent) (dispatchValue .pixel info) := by
  cases info with
  | threadIds | dispatchSize => exact .pure (by decide)
  | groupIds | gridIds | groupSize => exact .after fun _ => .pure (by decide)

/-- No property of coordinates is written with the third extent unless the name of the property has it. -/
theorem gives_dispatchMember (info : DispatchInfo) (name : String) :
    Gives (fun out => Mentions out.text thirdExtent → Mentions name thirdExtent) (dispatchMember .pixel info name) := by
  have hNever : ∀ out : OutExpr, ¬ Mentions out.text thirdExtent →
      (Mentions out.text thirdExtent → Mentions name thirdExtent) := fun _ hOut hMentions => absurd hMentions hOut
  cases info with
  | threadIds => exact .ite (.pure (hNever _ (by decide))) (.pure (mentions_dispatchSwizzle (by decide)))
  | groupIds =>
    exact .ite (.after fun _ => .pure (hNever _ (by decide)))
      (.after fun _ => .pure (mentions_dispatchSwizzle (by decide)))
  | gridIds => exact .after fun _ => .pure (mentions_dispatchSwizzle (by decide))
  | groupSize =>
    refine .after fun _ => .pure ?_
    split
    · exact hNever _ (by decide)
    · exact mentions_dispatchSwizzle (by decide)
  | dispatchSize =>
    refine .pure ?_
    split
    · exact hNever _ (by decide)
    · exact mentions_extentSwizzle

/-! ## Entry points -/

/-- The entry point of a lowered shader writes the values that its method returns. `plain` is its body with the
values still returned; it has the control flow of the method. The body is guarded by two extents and redirected,
so that it returns no value and writes one for each return site, besides what `plain` writes itself. -/
structure WritesPixels (entry : MethodDecl) (plain : List OutStmt) (lowered : LoweredUnit) : Prop where
  mirrors : MirrorsBody false entry plain
  body : lowered.entry.body =
    [.ifElse "ThreadIds.x < __x && ThreadIds.y < __y" (.block (redirectStmts plain)) none]
  sites : valueReturns plain = entry.returnSites
  valueless : valueReturns lowered.entry.body = 0
  writes : writes lowered.entry.body = entry.returnSites + writes plain

theorem Accepted.writesPixels {cfg : Config} {out : Transpiled} {run : LoweringRun}
    (hAccepted : Accepted cfg out run) (hPixel : out.model.kind = .pixel) : WritesPixels run.entry
      (plainEntry run.program (run.program.modelOf cfg) run.entry (run.program.startOf cfg)).1.body
      (run.program.loweredOf cfg run.entry) := by
  have hKind : run.program.kind = .pixel := by
    rw [hAccepted.model] at hPixel
    exact hPixel
  have hMirrors := (hAccepted.follows.standsFor_plainEntry hAccepted.fair hKind).mirrorsMethod.body
  have hSites := valueReturns_of_mirrors hMirrors
  have hBody : (run.program.loweredOf cfg run.entry).entry.body = run.program.kind.guarded (redirectStmts
      (plainEntry run.program (run.program.modelOf cfg) run.entry (run.program.startOf cfg)).1.body) := by
    have hEntry := entry_eq_redirect hKind (run.program.modelOf cfg) run.entry
    have hWritten := congrArg (fun action => (action (run.program.startOf cfg)).1.body) hEntry
    exact (body_entryPointOf _ _ _).trans (congrArg run.program.kind.guarded hWritten)
  rw [hKind] at hBody
  exact
    { mirrors := hMirrors
      body := hBody
      sites := hSites
      valueless := by
        rw [hBody]
        exact valueReturns_redirectStmts _
      writes := by
        rw [hBody, ← hSites]
        exact writes_redirectStmts _ }

/-- A shader that returns a value at two sites, and has a local function that returns one. -/
def shadedShader : String :=
  "struct S : IComputeShader<float4> \x7b float t; float4 Execute() \x7b float G() => t; " ++
    "if (t > 1) return G(); return 0; \x7d \x7d"

set_option maxRecDepth 100000 in
theorem sites_shadedShader :
    (transpile shadedShader "S" .unspecified).toOption.map (fun out => out.model.kind) = some .pixel ∧
      (loweringRun? shadedShader "S" .unspecified).map (fun run => run.entry.returnSites) = some 2 := by
  decide +kernel

/-- A shader that is run for each pixel and returns nothing: its body is an expression. -/
def colourlessShader : String :=
  "struct S : IComputeShader<float4> \x7b ReadWriteBuffer<float> b; void Execute() => b[0] = 1; \x7d"

def MethodDecl.isExpr (method : MethodDecl) : Bool :=
  match method.body with
  | some (.expr _) => true
  | _ => false

end Shaderlift
