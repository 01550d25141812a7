import ThreefoldSdk.HighLevel.FailedHandle
import ThreefoldSdk.Primitives.UpdateData

/-! The deployments that `handle` keeps while it sends, and which of them its rollback takes for
which contract. -/

namespace ThreefoldSdk.HighLevel
open Staged Zos Primitives TfChain Frame

/-- Every deployment a node holds for a contract carries the id of the contract. -/
def HeldUnder {S : Type} (w : World S) : Prop :=
  ∀ id d, w.held id = some d → d.contractId = some id

/-- The contracts of the updates, in order. -/
def updateIds (ts : List TwinDeployment) : List (Option Nat) :=
  (ts.filter fun t => decide (t.operation = .update)).map (·.contractId)

section
variable {S : Type} {env : HandlerEnv S}

/-! Sending one deployment. -/

def HasHash (env : HandlerEnv S) (t : TwinDeployment) (c : Contract) : Prop :=
  ∃ n, c.nodeContract = some n ∧ n.deploymentHash = t.deployment.challengeHash env.md5

/-- No new deployment is sent under the contract. -/
def NotDeployed (env : HandlerEnv S) (results : List Contract) (ts : List TwinDeployment)
    (id : Nat) : Prop :=
  ∀ t ∈ ts, t.operation = .deploy → t.contractId ≠ some id ∧
    ∀ c ∈ results, HasHash env t c → c.contractId ≠ id

/-- What sending `ts` leaves: the deployments `os` are kept for as many updates, each as it was
held, and nothing else changes under a contract that is not deployed anew. -/
structure Sends (env : HandlerEnv S) (results : List Contract) (ts : List TwinDeployment)
    (w w' : World S) (os : List Deployment) : Prop where
  originals : w'.originalDeployments = w.originalDeployments ++ os
  ids : os.map (·.contractId) <+: updateIds ts
  heldUnder : HeldUnder w'
  frame : ∀ id, NotDeployed env results ts id → some id ∉ os.map (·.contractId) →
    w'.held id = w.held id
  own : ∀ o ∈ os, ∀ id, o.contractId = some id → NotDeployed env results ts id →
    ∃ d, w.held id = some d ∧ fromObj env.validators d = .ok o

theorem updateIds_cons (t : TwinDeployment) (ts : List TwinDeployment) :
    updateIds (t :: ts) = updateIds [t] ++ updateIds ts := by
  unfold updateIds
  by_cases hop : t.operation = .update <;> simp [hop]

/-- Rounds that went through, then more of them. -/
theorem Sends.append {results : List Contract} {t : TwinDeployment} {ts : List TwinDeployment}
    {w w₁ w' : World S} {os os' : List Deployment} (h : Sends env results [t] w w₁ os)
    (hall : os.map (·.contractId) = updateIds [t]) (h' : Sends env results ts w₁ w' os')
    (hnodup : (updateIds (t :: ts)).Nodup) : Sends env results (t :: ts) w w' (os ++ os') := by
  have hhead : ∀ {id}, NotDeployed env results (t :: ts) id → NotDeployed env results [t] id := by
    intro id hid x hx
    rw [List.mem_singleton.mp hx]
    exact hid t List.mem_cons_self
  have htail : ∀ {id}, NotDeployed env results (t :: ts) id → NotDeployed env results ts id :=
    fun hid x hx => hid x (List.mem_cons_of_mem _ hx)
  refine ⟨?_, ?_, h'.heldUnder, ?_, ?_⟩
  · rw [h'.originals, h.originals, List.append_assoc]
  · rw [List.map_append, hall, updateIds_cons t ts]
    exact (List.prefix_append_right_inj _).mpr h'.ids
  · intro id hid hnot
    rw [List.map_append, List.mem_append, not_or] at hnot
    rw [h'.frame id (htail hid) hnot.2, h.frame id (hhead hid) hnot.1]
  · intro o ho id hoid hid
    rcases List.mem_append.mp ho with ho | ho
    · exact h.own o ho id hoid (hhead hid)
    · obtain ⟨d, hd, hfrom⟩ := h'.own o ho id hoid (htail hid)
      -- an update further on is of another contract
      have hlate : some id ∈ updateIds ts := by
        rw [← hoid]
        exact h'.ids.subset (List.mem_map_of_mem ho)
      have hnot : some id ∉ os.map (·.contractId) := by
        rw [hall]
        rw [updateIds_cons] at hnodup
        exact fun hin => (List.nodup_append.mp hnodup).2.2 _ hin _ hlate rfl
      rw [h.frame id (hhead hid) hnot] at hd
      exact ⟨d, hd, hfrom⟩

/-- The originals the rollback takes for the updated contracts: the last one kept for the first
contract. -/
def taken (updated : List Contract) (originals : List Deployment) :
    List (Contract × Deployment) := updated.zip originals.reverse

end

end ThreefoldSdk.HighLevel
