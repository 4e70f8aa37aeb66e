import Shaderlift.Diagnostic.Report

/-!
# What reports say

Reports are put together, and what is said of a whole is said of its parts: whether it holds an error, and
whether it says anything about the numbering of inputs and textures.
-/

namespace Shaderlift

open List

/-- Decide whether a rule is on the numbering of the inputs and textures of an image effect. -/
def Rule.isOnIndices : Rule → Bool
  | .missingD2DInputCount | .invalidD2DInputCount | .repeatedD2DSimpleInputIndex | .repeatedD2DComplexInputIndex
  | .overlappingD2DInputIndex | .d2dInputIndexOutOfRange | .d2dInputDescriptionIndexOutOfRange
  | .repeatedD2DInputDescriptionIndex | .resourceTextureIndexOutOfRange | .resourceTextureIndexOverlapsInput
  | .repeatedResourceTextureIndex | .missingResourceTextureIndex | .resourceTextureIndexOnInvalidField => true
  | _ => false

namespace Report

variable {first second : Report}

theorem hasErrors_append :
    hasErrors (first ++ second) = false ↔ hasErrors first = false ∧ hasErrors second = false := by
  simp only [hasErrors, any_append, Bool.or_eq_false_iff]

/-- A report says nothing about the numbering of inputs and textures. -/
def SparesIndices (report : Report) : Prop := ∀ diagnostic ∈ report, diagnostic.rule.isOnIndices = false

theorem sparesIndices_nil : SparesIndices [] := nofun

theorem sparesIndices_append :
    SparesIndices (first ++ second) ↔ SparesIndices first ∧ SparesIndices second := forall_mem_append

theorem sparesIndices_of_quiet {report : Report} (hQuiet : report.hasErrors = false) : SparesIndices report := by
  intro diagnostic hDiagnostic
  have hWarning : diagnostic.isError = false := by
    simpa using any_eq_false.mp hQuiet diagnostic hDiagnostic
  unfold Diagnostic.isError Diagnostic.severity at hWarning
  cases hRule : diagnostic.rule with
  | missingShaderResources => rfl
  | _ => simp [hRule, Rule.severity] at hWarning

end Report

end Shaderlift
