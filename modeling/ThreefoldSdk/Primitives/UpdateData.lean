import ThreefoldSdk.Primitives.RequestedUpdate

/-! `UpdateDeployment` as a way back: when it brings the workloads of one deployment to those of
another. -/

namespace ThreefoldSdk.Primitives
open Zos

/-- The same names with the same data; versions and results do not count. -/
def SameData (xs ys : List Workload) : Prop :=
  ∀ n d, (∃ x ∈ xs, x.name = n ∧ x.data = d) ↔ ∃ y ∈ ys, y.name = n ∧ y.data = d

theorem SameData.refl (xs : List Workload) : SameData xs xs := fun _ _ => Iff.rfl

def networks (ws : List Workload) : List Workload := ws.filter (·.isNetwork)

section
variable {current original : Deployment}

end

end ThreefoldSdk.Primitives
