import ThreefoldSdk.HighLevel.VmOutline
import ThreefoldSdk.Primitives.LightExtend

/-! What `VMHL.create` does to the network of its machine when that is a light one: the branches on
`network instanceof Network` are left out. -/

namespace ThreefoldSdk.HighLevel
open Zos Primitives Ipv4 Frame

section
variable (env : VmNetworkEnv) (o : VmNetworkOptions) (randomSeed : String)

/-- `userIPsubnet`. The free subnet that may be asked for next changes nothing. -/
def lightUserSubnet (n : ZNetworkLight) : Except GridError (String × ZNetworkLight) :=
  if o.ip = "" then .ok ("", n)
  else do
    let ip ← addr o.ip
    let (subnet, n) ← n.validateFreeSubnet (ip.mask 24).toText
    if .wireguard ∈ env.features then
      let _ ← n.getFreeSubnet
    return (subnet, n)

def lightMyceliumOperation (n : ZNetworkLight) :
    Except GridError (List NetworkOperation × ZNetworkLight) :=
  if n.nodeExists o.nodeId then do
    let (d, n) ← n.checkMycelium env.validators randomSeed o.nodeId o.myceliumSeeds o.mycelium
    return ((d.map fun d => ⟨d, .update, 0, none⟩).toList, n)
  else .ok ([], n)

def lightMachineIp (n : ZNetworkLight) : Except GridError (Option String × ZNetworkLight) :=
  if o.ip = "" then do
    let (ip, n) ← n.getFreeIP o.nodeId ""
    return (some ip, n)
  else n.validateUserIP o.nodeId o.ip

/-- The part of `VMHL.create` on a `ZNetworkLight`. -/
def vmLightNetwork (n : ZNetworkLight) :
    Except GridError (List NetworkOperation × Option String × ZNetworkLight) := do
  let (userIPsubnet, n) ← lightUserSubnet env o n
  let (mycelium, n) ← lightMyceliumOperation env o randomSeed n
  let (znet, n) ← n.addNode randomSeed o.nodeId o.mycelium o.description userIPsubnet
    o.myceliumSeeds
  let joined := (znet.map fun w => deployNetwork env o o.nodeId w n.name).toList
  let (ip, n) ← lightMachineIp o n
  return (mycelium ++ joined, ip, n)

end

/-! What is emitted. -/

/-- The nodes that count as nodes of the network, and the outlines of its deployments. -/
def lightOutline (n : ZNetworkLight) :
    Option (List Nat) × List (Nat × Option Nat × List WorkloadTypes) :=
  (n.nodeIds, n.deployments.map deploymentOutline)

/-- The machine's own node, if it is new, got a contract; the rest are updates. -/
structure LightExtended (env : VmNetworkEnv) (o : VmNetworkOptions) (n n' : ZNetworkLight)
    (ops : List NetworkOperation) : Prop where
  outline : lightOutline n' = lightOutline n
  operations : ∀ op ∈ ops, (op.operation = .update ∧ ∃ nodeId,
      (nodeId, op.deployment.contractId, op.deployment.workloads.map (·.type)) ∈
        n.deployments.map deploymentOutline) ∨
    DeploysOn env o .networklight (· = o.nodeId) op
  own : n.nodeExists o.nodeId = false → ∃ op ∈ ops, DeploysOn env o .networklight (· = o.nodeId) op

section
variable {env : VmNetworkEnv} {o : VmNetworkOptions} {randomSeed : String} {n n' : ZNetworkLight}

theorem lightUserSubnet_ok {t : String} (h : lightUserSubnet env o n = .ok (t, n')) :
    lightOutline n' = lightOutline n := by
  unfold lightUserSubnet at h
  split at h
  · cases h
    rfl
  · obtain ⟨ip, -, h⟩ := exceptBind_eq_ok.mp h
    obtain ⟨⟨t', n₁⟩, hvalid, h⟩ := exceptBind_eq_ok.mp h
    have hreserved : lightOutline n₁ = lightOutline n := by
      obtain ⟨n₂, hnoted, hvalid⟩ := exceptBind_eq_ok.mp hvalid
      have hsame : lightOutline n₂ = lightOutline n := by
        unfold ZNetworkLight.getReservedSubnets at hnoted
        split at hnoted
        · cases hnoted
          rfl
        · cases hnoted
      dsimp only at hvalid
      split at hvalid
      · cases hvalid
      · cases hvalid
        exact hsame
    dsimp only at h
    split at h
    · obtain ⟨free, -, h⟩ := exceptBind_eq_ok.mp h
      cases h
      exact hreserved
    · cases h
      exact hreserved

theorem types_replaceLight (net : NetworkLight) (ws : List Workload) :
    (replaceLight net ws).map (·.type) = ws.map (·.type) := by
  induction ws with
  | nil => rfl
  | cons w ws ih =>
    unfold replaceLight
    split
    · rfl
    · rw [List.map_cons, List.map_cons, ih]

theorem lightOutline_update (net : NetworkLight) (n : ZNetworkLight) :
    lightOutline (n.updateNetworkDeployments net) = lightOutline n := by
  unfold lightOutline ZNetworkLight.updateNetworkDeployments
  rw [List.map_map]
  congr 1
  apply List.map_congr_left
  intro d _
  unfold deploymentOutline
  rw [Function.comp_apply, types_replaceLight]

theorem lightMyceliumOperation_ok {ops : List NetworkOperation}
    (h : lightMyceliumOperation env o randomSeed n = .ok (ops, n')) :
    lightOutline n' = lightOutline n ∧ ∀ op ∈ ops, op.operation = .update ∧ ∃ nodeId,
      (nodeId, op.deployment.contractId, op.deployment.workloads.map (·.type)) ∈
        n.deployments.map deploymentOutline := by
  unfold lightMyceliumOperation at h
  split at h
  · obtain ⟨⟨d, n₁⟩, hcheck, h⟩ := exceptBind_eq_ok.mp h
    cases h
    have hadded : lightOutline n' = lightOutline n ∧ ∀ x, d = some x →
        (o.nodeId, x.contractId, x.workloads.map (·.type)) ∈ n.deployments.map deploymentOutline := by
      have hnone : ∀ {m : ZNetworkLight}, (none, n) = (d, m) → lightOutline m = lightOutline n ∧
          ∀ x, d = some x → (o.nodeId, x.contractId, x.workloads.map (·.type)) ∈
            n.deployments.map deploymentOutline := by
        intro m heq
        cases heq
        exact ⟨rfl, nofun⟩
      unfold ZNetworkLight.checkMycelium at hcheck
      split at hcheck
      · exact hnone (Except.ok.inj hcheck)
      · split at hcheck
        · split at hcheck
          · cases hcheck
          · exact hnone (Except.ok.inj hcheck)
        · unfold ZNetworkLight.addMycelium at hcheck
          split at hcheck
          · exact hnone (Except.ok.inj hcheck)
          · rename_i net hnet
            obtain ⟨seed, -, hcheck⟩ := exceptBind_eq_ok.mp hcheck
            obtain ⟨found, hupdate, hcheck⟩ := exceptBind_eq_ok.mp hcheck
            cases hcheck
            have hsame := lightOutline_update { net with mycelium := some ⟨seed, some []⟩ }
              { n with network := some { net with mycelium := some ⟨seed, some []⟩ } }
            refine ⟨hsame, ?_⟩
            rintro x rfl
            have hin := myceliumUpdate_ok hupdate
            have hdeployments := congrArg Prod.snd hsame
            change _ = n.deployments.map deploymentOutline at hdeployments
            rw [← hdeployments]
            exact hin
    refine ⟨hadded.1, fun op hop => ?_⟩
    obtain ⟨x, hx, rfl⟩ := Option.map_eq_some_iff.mp (Option.mem_toList.mp hop)
    exact ⟨rfl, o.nodeId, hadded.2 x hx⟩
  · cases h
    exact ⟨rfl, nofun⟩

theorem lightAddNode_ok {nodeId : Nat} {mycelium : Bool} {description subnet : String}
    {seeds : List MyceliumNetworkModel} {w : Option Workload}
    (h : n.addNode randomSeed nodeId mycelium description subnet seeds = .ok (w, n')) :
    lightOutline n' = lightOutline n ∧ (∀ w', w = some w' → w'.type = .networklight) ∧
      (n.nodeExists nodeId = false → w ≠ none) := by
  unfold ZNetworkLight.addNode at h
  split at h
  · rename_i hexists
    obtain ⟨rfl, rfl⟩ := Prod.mk.inj (Except.ok.inj h)
    refine ⟨rfl, fun w' hw' => ?_, fun hnew => ?_⟩
    · cases hw'
    · rw [hnew] at hexists
      cases hexists
  · obtain ⟨t, -, h⟩ := exceptBind_eq_ok.mp h
    obtain ⟨m, -, h⟩ := exceptBind_eq_ok.mp h
    obtain ⟨rfl, rfl⟩ := Prod.mk.inj (Except.ok.inj h)
    let net : NetworkLight := ⟨t, m, some nodeId, some n.ipRange⟩
    have hupdated : lightOutline ({ n with network := some net }.updateNetworkDeployments net) =
        lightOutline n := lightOutline_update net { n with network := some net }
    refine ⟨hupdated, fun w' hw' => ?_, fun _ => Option.some_ne_none _⟩
    rw [← Option.some.inj hw']

theorem reserve_ok {nodeId : Nat} {ip : String} {r : Option ZNetworkLight}
    (h : n.reserve nodeId ip = .ok r) : ∀ m, r = some m → lightOutline m = lightOutline n := by
  unfold ZNetworkLight.reserve at h
  split at h
  · cases h
  · split at h
    · cases h
      rintro m hm
      cases hm
      rfl
    · cases h
      exact nofun

theorem lightMachineIp_ok {ip : Option String} (h : lightMachineIp o n = .ok (ip, n')) :
    lightOutline n' = lightOutline n := by
  unfold lightMachineIp at h
  split at h
  · obtain ⟨⟨text, n₁⟩, hfree, h⟩ := exceptBind_eq_ok.mp h
    obtain ⟨a, -, hfree⟩ := exceptBind_eq_ok.mp hfree
    obtain ⟨r, hreserve, hfree⟩ := exceptBind_eq_ok.mp hfree
    cases r with
    | none => exact absurd hfree nofun
    | some m =>
      obtain ⟨rfl, rfl⟩ := Prod.mk.inj (Except.ok.inj hfree)
      obtain ⟨-, rfl⟩ := Prod.mk.inj (Except.ok.inj h)
      exact reserve_ok hreserve _ rfl
  · obtain ⟨t, -, h⟩ := exceptBind_eq_ok.mp h
    obtain ⟨a, -, h⟩ := exceptBind_eq_ok.mp h
    obtain ⟨text, -, h⟩ := exceptBind_eq_ok.mp h
    obtain ⟨net, -, h⟩ := exceptBind_eq_ok.mp h
    dsimp only at h
    split at h
    · cases h
    · obtain ⟨r, hreserve, h⟩ := exceptBind_eq_ok.mp h
      cases r with
      | none =>
        obtain ⟨-, rfl⟩ := Prod.mk.inj (Except.ok.inj h)
        rfl
      | some m =>
        obtain ⟨-, rfl⟩ := Prod.mk.inj (Except.ok.inj h)
        exact reserve_ok hreserve _ rfl

/-- What the part of `create` on a light network emits. -/
theorem vmLightNetwork_extended {ops : List NetworkOperation} {ip : Option String}
    (h : vmLightNetwork env o randomSeed n = .ok (ops, ip, n')) : LightExtended env o n n' ops := by
  obtain ⟨⟨t, n₁⟩, hsubnet, h⟩ := exceptBind_eq_ok.mp h
  obtain ⟨⟨mycelium, n₂⟩, hmycelium, h⟩ := exceptBind_eq_ok.mp h
  obtain ⟨⟨znet, n₃⟩, hadd, h⟩ := exceptBind_eq_ok.mp h
  obtain ⟨⟨ip', n₄⟩, hip, h⟩ := exceptBind_eq_ok.mp h
  cases h
  have h₁ : lightOutline n₁ = lightOutline n := lightUserSubnet_ok hsubnet
  obtain ⟨h₂, hupdates⟩ := lightMyceliumOperation_ok hmycelium
  obtain ⟨h₃, htype, hnew⟩ := lightAddNode_ok hadd
  have hdeployments : n₁.deployments.map deploymentOutline = n.deployments.map deploymentOutline :=
    congrArg Prod.snd h₁
  have hids : n₂.nodeIds = n.nodeIds := congrArg Prod.fst (h₂.trans h₁)
  rw [hdeployments] at hupdates
  refine ⟨(lightMachineIp_ok hip).trans (h₃.trans (h₂.trans h₁)), fun op hop => ?_, fun hown => ?_⟩
  · rcases List.mem_append.mp hop with hop | hop
    · exact Or.inl (hupdates op hop)
    · obtain ⟨w, hw, rfl⟩ := Option.map_eq_some_iff.mp (Option.mem_toList.mp hop)
      exact Or.inr ⟨o.nodeId, w, _, rfl, htype w hw, rfl⟩
  · have hown₂ : n₂.nodeExists o.nodeId = false := by
      unfold ZNetworkLight.nodeExists
      rw [hids]
      exact hown
    obtain ⟨w, rfl⟩ := Option.ne_none_iff_exists'.mp (hnew hown₂)
    refine ⟨_, List.mem_append_right _ (List.mem_singleton_self _), o.nodeId, w, _, rfl,
      htype w rfl, rfl⟩

end

end ThreefoldSdk.HighLevel
