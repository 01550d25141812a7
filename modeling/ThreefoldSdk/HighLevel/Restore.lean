import ThreefoldSdk.HighLevel.Originals

/-! When the rollback gives every contract its own deployment back. The kept deployments are taken
from the end of their list while the updated contracts are gone through from the front. -/

namespace ThreefoldSdk.HighLevel
open Staged Zos Primitives TfChain Frame

section
variable {S : Type} {env : HandlerEnv S}

end

/-- A test of what `handle` works on once its first batch went through. -/
def createdWith {S : Type} (env : HandlerEnv S) (ts : List TwinDeployment) (w : World S)
    (test : Plan → List Contract → World S → Bool) : Bool :=
  match (do
      let plan ← prepare env ts
      let results ← create env plan
      return (plan, results) : M S (Plan × List Contract)) w with
  | .ok (plan, results) w => test plan results w
  | .error _ _ => false

theorem exists_of_createdWith {S : Type} {env : HandlerEnv S} {ts : List TwinDeployment}
    {w : World S} {test : Plan → List Contract → World S → Bool}
    (h : createdWith env ts w test = true) :
    ∃ plan w₁ results w₂, prepare env ts w = .ok plan w₁ ∧ create env plan w₁ = .ok results w₂ ∧
      test plan results w₂ = true := by
  unfold createdWith at h
  split at h
  · rename_i plan results w₂ hrun
    obtain ⟨p, w₁, hplan, hrun⟩ := bind_eq_ok.mp hrun
    obtain ⟨rs, w₃, hresults, hrun⟩ := bind_eq_ok.mp hrun
    cases hrun
    exact ⟨_, w₁, _, _, hplan, hresults, h⟩
  · cases h

end ThreefoldSdk.HighLevel
