import Shaderlift.Proofs.Accepted.Basic
import Shaderlift.Proofs.Layout.Alignment
import Shaderlift.Proofs.Model.Indices

/-!
# Linking and complex inputs

An image effect with a complex input cannot be linked. The output defines every input below the count as complex
that is not listed as simple, while the options look at the list of complex inputs alone, whether they are given
or not. The two views agree for the inputs that are listed; an effect that can be linked and still defines a
complex input is one that leaves an input unlisted.

What the output defines is read off its text: the lines before the first empty one.
-/

namespace Shaderlift

open List

/-! ## The first lines of a text -/

namespace Text

def firstParagraph (text : String) : List String :=
  ((splitAt '\n' text.toList).map String.ofList).takeWhile fun line => !line.isEmpty

/-- The lines before the first empty one are read back from their text, whatever follows. -/
theorem firstParagraph_text {head : Lines} (hHead : ∀ line ∈ head, line ≠ "" ∧ '\n' ∉ line.toList) (rest : Lines) :
    firstParagraph (Lines.text (head ++ "" :: rest)) = head := by
  have hText : ∀ (line : String) (others : Lines),
      (Lines.text (line :: others)).toList = line.toList ++ '\n' :: (Lines.text others).toList := by
    intro line others
    simp [Lines.text]
  unfold firstParagraph
  induction head with
  | nil =>
    rw [nil_append, hText, splitAt_append (by simp)]
    simp
  | cons line head ih =>
    obtain ⟨⟨hSome, hPlain⟩, hOthers⟩ := forall_mem_cons.mp hHead
    rw [cons_append, hText, splitAt_append hPlain, map_cons, takeWhile_cons_of_pos, ih hOthers,
      String.ofList_toList]
    simpa using hSome

end Text

/-! ## What an image effect says of its inputs -/

namespace OutUnit

def modeText (isSimple : Bool) : String := if isSimple then "SIMPLE" else "COMPLEX"

def inputLine (index : Nat) (isSimple : Bool) : String :=
  "#define D2D_INPUT" ++ toString index ++ "_" ++ modeText isSimple

/-- The lines that an image effect begins with, up to the first empty one. -/
def defineLines (inputs : Inputs) (requiresScenePosition : Bool) : Lines :=
  ["#define D2D_INPUT_COUNT " ++ toString inputs.count] ++
    (List.range inputs.count).map (fun index => inputLine index (inputs.simple.contains index)) ++
    (if requiresScenePosition then ["#define D2D_REQUIRES_SCENE_POSITION"] else [])

/-- The first empty line of an image effect follows what it defines. -/
theorem exists_lines_effect {model : ShaderModel} (hKind : model.kind = .effect) (prog : Program)
    (unit : LoweredUnit) (bindings : List Binding) : ∃ rest, lines prog model unit bindings =
      defineLines model.inputs model.requiresScenePosition ++ "" :: rest := by
  have hEffect : effectLines model = defineLines model.inputs model.requiresScenePosition ++
      "" :: ["#include \"d2d1effecthelpers.hlsli\"", ""] := rfl
  rw [lines, hKind, if_pos (show ShaderKind.effect.isEffect = true from rfl), hEffect]
  simp only [append_assoc, cons_append]
  exact ⟨_, rfl⟩

theorem toList_toString (n : Nat) : (toString n).toList = Nat.toDigits 10 n := by
  simp [toString, Nat.toList_repr]

theorem newline_not_mem_toDigits (n : Nat) : '\n' ∉ Nat.toDigits 10 n := by
  intro hNewline
  have hDigit := Nat.isDigit_of_mem_toDigits (by decide) (by decide) hNewline
  exact absurd hDigit (by decide)

theorem toList_inputLine (index : Nat) (isSimple : Bool) : (inputLine index isSimple).toList =
      "#define D2D_INPUT".toList ++ (Nat.toDigits 10 index ++ '_' :: (modeText isSimple).toList) := by
  have hJoin : ∀ a b c d : String,
      (a ++ b ++ c ++ d).toList = a.toList ++ (b.toList ++ (c.toList ++ d.toList)) := by simp
  rw [← toList_toString]
  exact hJoin "#define D2D_INPUT" (toString index) "_" (modeText isSimple)

theorem toList_countLine (count : Nat) : ("#define D2D_INPUT_COUNT " ++ toString count).toList =
      "#define D2D_INPUT".toList ++ ("_COUNT ".toList ++ Nat.toDigits 10 count) := by
  rw [String.toList_append, toList_toString, ← append_assoc]
  rfl

/-- The lines that an image effect begins with are lines, and none is empty. -/
theorem plain_defineLines (inputs : Inputs) (requiresScenePosition : Bool) :
    ∀ line ∈ defineLines inputs requiresScenePosition, line ≠ "" ∧ '\n' ∉ line.toList := by
  have hPlain : ∀ (line : String) (rest : List Char), line.toList = "#define D2D_INPUT".toList ++ rest →
      '\n' ∉ rest → line ≠ "" ∧ '\n' ∉ line.toList := by
    intro line rest hList hRest
    refine ⟨?_, ?_⟩
    · rintro rfl
      cases hList
    · rw [hList, mem_append, not_or]
      exact ⟨by decide, hRest⟩
  refine forall_mem_append.mpr ⟨forall_mem_append.mpr ⟨forall_mem_singleton.mpr ?_, ?_⟩, ?_⟩
  · refine hPlain _ _ (toList_countLine inputs.count) ?_
    rw [mem_append, not_or]
    exact ⟨by decide, newline_not_mem_toDigits inputs.count⟩
  · refine forall_mem_map.mpr fun index _ => hPlain _ _ (toList_inputLine index _) ?_
    rw [mem_append, not_or]
    refine ⟨newline_not_mem_toDigits index, ?_⟩
    cases inputs.simple.contains index <;> decide
  · split
    · exact forall_mem_singleton.mpr ⟨by decide, by decide⟩
    · exact forall_mem_nil _

theorem inputLine_inj {first second : Nat} {firstMode secondMode : Bool}
    (hLine : inputLine first firstMode = inputLine second secondMode) : first = second ∧ firstMode = secondMode := by
  have hChars := congrArg String.toList hLine
  rw [toList_inputLine, toList_inputLine, append_cancel_left_eq] at hChars
  have hFirst := FieldLayout.span_digits first ('_' :: (modeText firstMode).toList) (by simp [Char.isDigit])
  have hSecond := FieldLayout.span_digits second ('_' :: (modeText secondMode).toList) (by simp [Char.isDigit])
  rw [hChars] at hFirst
  have hDigits := hFirst.1.symm.trans hSecond.1
  have hModes := hFirst.2.symm.trans hSecond.2
  constructor
  · have hNumbers := congrArg (Nat.ofDigitChars 10 · 0) hDigits
    simpa only [Nat.ofDigitChars_ten_toDigits] using hNumbers
  · revert hModes
    cases firstMode <;> cases secondMode <;> decide

/-- The line of a complex input is there exactly when the input is below the count and not listed as simple. -/
theorem inputLine_mem_defineLines (inputs : Inputs) (requiresScenePosition : Bool) (index : Nat) :
    inputLine index false ∈ defineLines inputs requiresScenePosition ↔
      index < inputs.count ∧ index ∉ inputs.simple := by
  have hCount : inputLine index false ≠ "#define D2D_INPUT_COUNT " ++ toString inputs.count := by
    intro hSame
    have hChars := congrArg String.toList hSame
    rw [toList_inputLine, toList_countLine, append_cancel_left_eq] at hChars
    -- A number starts with a digit.
    have hSpan := FieldLayout.span_digits index ('_' :: (modeText false).toList) (by simp [Char.isDigit])
    rw [hChars] at hSpan
    exact absurd hSpan.1.symm (Nat.toDigits_ne_nil)
  have hScene : inputLine index false ≠ "#define D2D_REQUIRES_SCENE_POSITION" := by
    intro hSame
    have hChars := congrArg String.toList hSame
    rw [toList_inputLine] at hChars
    have hStart := congrArg (List.take 13) hChars
    rw [take_append_of_le_length (by decide)] at hStart
    exact absurd hStart (by decide)
  unfold defineLines
  rw [mem_append, mem_append, mem_singleton, mem_map]
  constructor
  · rintro ((hSame | ⟨other, hOther, hSame⟩) | hLast)
    · exact absurd hSame hCount
    · obtain ⟨rfl, hMode⟩ := inputLine_inj hSame
      exact ⟨mem_range.mp hOther, by simpa using hMode⟩
    · split at hLast
      · exact absurd (mem_singleton.mp hLast) hScene
      · cases hLast
  · rintro ⟨hBelow, hComplex⟩
    refine .inl (.inr ⟨index, mem_range.mpr hBelow, ?_⟩)
    rw [show inputs.simple.contains index = false by simpa using hComplex]

end OutUnit

/-! ## Options and modes -/

/-- An input is listed neither as simple nor as complex. -/
def Config.Unlisted (config : Config) (index : Nat) : Prop :=
  index ∉ config.simpleInputs.map UInt32.toNat ∧ index ∉ config.complexInputs.map UInt32.toNat

/-- An output defines an input as complex before its first empty line. -/
def Transpiled.DefinesComplex (out : Transpiled) (index : Nat) : Prop :=
  "#define D2D_INPUT" ++ toString index ++ "_COMPLEX" ∈ Text.firstParagraph out.hlsl

namespace Program

open Report

variable {prog : Program} {cfg : Config} {memo : CallMemo}

/-- If nothing is wrong with the options, then they do not enable linking beside an input that is listed as
complex. -/
theorem complexInputs_of_linking (hQuiet : hasErrors (ShaderModel.checkOptions prog cfg) = false)
    (hLinking : (cfg.optionsFor prog.kind).linking = true) : cfg.complexInputs = [] := by
  unfold ShaderModel.checkOptions at hQuiet
  dsimp only at hQuiet
  rw [hasErrors_append, hLinking, Bool.true_and] at hQuiet
  cases hComplex : cfg.complexInputs with
  | nil => rfl
  | cons index rest =>
    have hHas : cfg.hasComplexInputs = true := by
      rw [Config.hasComplexInputs, hComplex]
      rfl
    rw [hHas, if_pos rfl] at hQuiet
    cases hQuiet.2.symm.trans (hasErrors_complain rfl _ _)

/-- If nothing is wrong with the model of an image effect, then its inputs are as many as the configuration says,
and linking is not enabled beside an input that is listed as complex. -/
theorem inputs_of_quiet (hKind : prog.kind.isEffect = true)
    (hQuiet : hasErrors (ShaderModel.build prog cfg memo).1.2 = false) :
    let model := (ShaderModel.build prog cfg memo).1.1
    ∃ count, cfg.inputCount = some count ∧ model.inputs.count = count.toNat ∧
      (∀ index, index ∈ model.inputs.simple ↔ index ∈ cfg.simpleInputs.map UInt32.toNat) ∧
      (model.compileOptions.linking = true → cfg.complexInputs = []) := by
  intro model
  have hSpares := sparesIndices_of_quiet hQuiet
  rw [ShaderModel.report_build] at hQuiet hSpares
  simp only [hasErrors_append, and_assoc] at hQuiet
  simp only [sparesIndices_append, and_assoc] at hSpares
  obtain ⟨-, -, -, -, -, -, -, hOptions, -⟩ := hQuiet
  obtain ⟨-, -, -, -, hInputs, -⟩ := hSpares
  obtain ⟨count, hCount, hSmall, -⟩ := (Inputs.sparesIndices_build hKind).mp hInputs
  refine ⟨count, hCount, Inputs.count_build hKind hCount hSmall, fun index => ?_, complexInputs_of_linking hOptions⟩
  have hSimple : model.inputs.simple = Inputs.ordered (cfg.simpleInputs.map UInt32.toNat) := by
    change (Inputs.build prog cfg).1.simple = _
    rw [Inputs.build, hKind, if_neg (by simp)]
  rw [hSimple, Inputs.mem_ordered]

end Program

/-- The output of an accepted image effect defines an input as complex exactly when the input is below the count
and not listed as simple. -/
theorem Accepted.definesComplex_iff {cfg : Config} {out : Transpiled} {run : LoweringRun}
    (hAccepted : Accepted cfg out run) (hKind : out.model.kind = .effect) (index : Nat) :
    out.DefinesComplex index ↔ index < out.model.inputs.count ∧ index ∉ out.model.inputs.simple := by
  obtain ⟨rest, hLines⟩ := OutUnit.exists_lines_effect hKind run.program
    (run.program.loweredOf cfg run.entry) out.bindings
  have hLine : "#define D2D_INPUT" ++ toString index ++ "_COMPLEX" = OutUnit.inputLine index false := by
    rw [show "_COMPLEX" = "_" ++ "COMPLEX" by decide, ← String.append_assoc]
    rfl
  rw [Transpiled.DefinesComplex, hLine, hAccepted.hlsl, OutUnit.render, hLines,
    Text.firstParagraph_text (OutUnit.plain_defineLines _ _)]
  exact OutUnit.inputLine_mem_defineLines _ _ index

/-- An accepted image effect defines no complex input beside options that enable linking, given or not, exactly
when options that enable linking leave no input unlisted. -/
theorem transpile_linking_iff (source name : String) (config : Config) (out : Transpiled)
    (hOk : transpile source name config = .ok out) (hKind : out.model.kind = .effect) :
    ∃ count, config.inputCount = some count ∧ out.model.compileOptions = config.optionsFor .effect ∧
      (out.model.compileOptions.linking = true → config.complexInputs = []) ∧
      (∀ index, out.DefinesComplex index ↔
        index < count.toNat ∧ index ∉ config.simpleInputs.map UInt32.toNat) ∧
      (((∃ index, out.DefinesComplex index) → out.model.compileOptions.linking = false) ↔
        (out.model.compileOptions.linking = true → ∀ index < count.toNat, ¬ config.Unlisted index)) := by
  obtain ⟨run, -, hAccepted⟩ := accepted_of_ok hOk
  have hProgram : run.program.kind = .effect := by rw [← hKind, hAccepted.model]; rfl
  have hOptions : out.model.compileOptions = config.optionsFor .effect := by
    rw [hAccepted.model, ← hProgram]
    rfl
  obtain ⟨count, hCount, hInputs, hSimple, hLinking⟩ :=
    Program.inputs_of_quiet (by rw [hProgram]; rfl) hAccepted.modelQuiet
  change (run.program.modelOf config).inputs.count = _ at hInputs
  have hDefines : ∀ index, out.DefinesComplex index ↔
      index < count.toNat ∧ index ∉ config.simpleInputs.map UInt32.toNat := by
    intro index
    rw [hAccepted.definesComplex_iff hKind, hAccepted.model, hInputs]
    exact and_congr_right fun _ => not_congr (hSimple index)
  have hListed : out.model.compileOptions.linking = true → config.complexInputs = [] := by
    rw [hAccepted.model]
    exact hLinking
  refine ⟨count, hCount, hOptions, hListed, hDefines, ?_⟩
  constructor
  · intro hAgree hOn index hBelow hUnlisted
    have hOff := hAgree ⟨index, (hDefines index).mpr ⟨hBelow, hUnlisted.1⟩⟩
    exact Bool.false_ne_true (hOff.symm.trans hOn)
  · rintro hAll ⟨index, hComplex⟩
    obtain ⟨hBelow, hOther⟩ := (hDefines index).mp hComplex
    refine Bool.eq_false_iff.mpr fun hOn => hAll hOn index hBelow ⟨hOther, ?_⟩
    rw [hListed hOn]
    exact not_mem_nil

/-! ## An effect that leaves an input unlisted -/

def tintShader : String := "struct S : ID2D1PixelShader \x7b float4 Execute() \x7b return 1; \x7d \x7d"

/-- Two inputs, of which only the first is listed; the options are left to the defaults. -/
def halfListedConfig : Config := { Config.unspecified with inputCount := some 2, simpleInputs := [0] }

set_option maxRecDepth 100000 in
theorem links_tintShader :
    (transpile tintShader "S" halfListedConfig).toOption.any (fun out =>
      out.model.kind == .effect && out.model.compileOptions.linking) = true := by decide +kernel

/-- The effect is accepted, can be linked, and defines its second input as complex all the same. -/
theorem transpile_linking_iff_tintShader :
    ∃ out, transpile tintShader "S" halfListedConfig = .ok out ∧ out.model.kind = .effect ∧
      out.model.compileOptions.linking = true ∧ out.DefinesComplex 1 ∧ ¬ out.DefinesComplex 0 := by
  have hLinks := links_tintShader
  cases hOut : transpile tintShader "S" halfListedConfig with
  | error => simp [hOut, Except.toOption] at hLinks
  | ok out =>
    simp only [hOut, Except.toOption, Option.any_some, Bool.and_eq_true, beq_iff_eq] at hLinks
    obtain ⟨count, hCount, -, -, hDefines, -⟩ := transpile_linking_iff _ _ _ out hOut hLinks.1
    obtain rfl : 2 = count := Option.some.inj hCount
    refine ⟨out, rfl, hLinks.1, hLinks.2, (hDefines 1).mpr (by decide), fun hZero => ?_⟩
    exact ((hDefines 0).mp hZero).2 (by decide)

end Shaderlift
