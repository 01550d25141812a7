import ThreefoldSdk.Primitives.PrivateIps

/-! The private ips of the node of a light network (`ZNetworkLight.getFreeIP`, `validateUserIP`). -/

namespace ThreefoldSdk.Primitives
open Zos Ipv4

section
variable [AddrReader]

namespace ZNetworkLight

def getNodeSubnet (n : ZNetworkLight) (nodeId : Nat) : Except GridError (Option String) :=
  match n.network with
  | none => .error .typeError
  | some net => .ok (if net.nodeId = some nodeId then some net.subnet else none)

/-- The node once an ip is reserved on it, when it has the id. -/
def reserve (n : ZNetworkLight) (nodeId : Nat) (ip : String) :
    Except GridError (Option ZNetworkLight) :=
  match n.node with
  | none => .error .typeError
  | some node =>
    if node.nodeId = some nodeId then
      .ok (some { n with node := some { node with reservedIps := node.reservedIps ++ [ip] } })
    else .ok none

/-- The address that `getFreeIP` picks; it does not look at the reserved ones. -/
def freeAddress (n : ZNetworkLight) (nodeId : Nat) (subnet : String) : Except GridError Addr :=
  match n.network with
  | none => .error .typeError
  | some net =>
    if net.nodeId ≠ some nodeId ∧ subnet ≠ "" then do
      let a ← addr subnet
      firstHost a
    else if net.nodeId = some nodeId then do
      let a ← addr net.subnet
      firstHost a
    else .error (.validation "node_id or subnet must be specified.")

def getFreeIP (n : ZNetworkLight) (nodeId : Nat) (subnet : String) :
    Except GridError (String × ZNetworkLight) := do
  let a ← n.freeAddress nodeId subnet
  let ip := plainText a
  match ← n.reserve nodeId ip with
  | some n => return (ip, n)
  | none => throw (.validation "node_id is not in the network. Please add it first.")

def validateUserIP (n : ZNetworkLight) (nodeId : Nat) (ipAddress : String) :
    Except GridError (Option String × ZNetworkLight) := do
  let nodeSubnet ← n.getNodeSubnet nodeId
  let ip ← addr ipAddress
  let text ← notNull nodeSubnet
  let net ← addr text
  if !net.contains ip then
    throw (.validation s!"Selected ip is not available in node subnet, node subnet: {text}")
  match ← n.reserve nodeId ipAddress with
  | some n => return (some ipAddress, n)
  | none => return (none, n)

end ZNetworkLight

inductive LightIpCall where
  | getFreeIP (nodeId : Nat) (subnet : String)
  | validateUserIP (nodeId : Nat) (ipAddress : String)

/-- The ip that a call hands out or accepts, and what it leaves. -/
def lightIpCall (n : ZNetworkLight) : LightIpCall → Option String × ZNetworkLight
  | .getFreeIP nodeId subnet =>
    match n.getFreeIP nodeId subnet with
    | .ok (ip, n) => (some ip, n)
    | .error _ => (none, n)
  | .validateUserIP nodeId ipAddress =>
    match n.validateUserIP nodeId ipAddress with
    | .ok r => r
    | .error _ => (none, n)

def reservedOn (n : ZNetworkLight) : List String := n.node.elim [] (·.reservedIps)

/-- The ip is an address of the subnet that no reserved ip denotes. -/
def FreshIn (net : Addr) (ips : List String) (ip : String) : Prop :=
  ∃ a, readAddr ip = some a ∧ a.len = 32 ∧ net.contains a = true ∧ some a ∉ ips.map readAddr

/-- The call hands out or accepts no ip but a fresh one. -/
def GivesFresh (net : Addr) (n : ZNetworkLight) (c : LightIpCall) : Prop :=
  ∀ ip, (lightIpCall n c).1 = some ip → FreshIn net (reservedOn n) ip

/-- The third address of the subnet is in it and not reserved; the address the user picks is one,
and not reserved. -/
def LightIpCall.Meets (current : Nat) (net : Addr) (ips : List String) : LightIpCall → Prop
  | .getFreeIP nodeId _ => nodeId = current → ∀ a : Addr, a.len = 32 → a.base = net.base + 2 →
      net.contains a = true ∧ some a ∉ ips.map readAddr
  | .validateUserIP nodeId ipAddress => nodeId = current → ∀ a, readAddr ipAddress = some a →
      net.contains a = true → a.len = 32 ∧ some a ∉ ips.map readAddr

/-- The current node of the network, with its subnet. -/
structure OnLightNode (current : Nat) (net : Addr) (n : ZNetworkLight) : Prop where
  node : ∃ node, n.node = some node ∧ node.nodeId = some current
  network : ∃ z, n.network = some z ∧ z.nodeId = some current ∧ readAddr z.subnet = some net

section
variable {current : Nat} {net : Addr} {n : ZNetworkLight}

theorem OnLightNode.reserve (h : OnLightNode current net n) (ip : String) :
    ∃ n', (∀ nodeId, n.reserve nodeId ip = .ok (if nodeId = current then some n' else none)) ∧
      OnLightNode current net n' := by
  obtain ⟨node, hnode, hid⟩ := h.node
  refine ⟨{ n with node := some { node with reservedIps := node.reservedIps ++ [ip] } }, ?_,
    ⟨_, rfl, hid⟩, h.network⟩
  intro nodeId
  simp only [ZNetworkLight.reserve, hnode, hid, Option.some.injEq, eq_comm (a := nodeId)]
  split <;> rfl

/-- On the current node, `getFreeIP` hands out the third address; on another one it throws. -/
theorem lightIpCall_getFreeIP (h : OnLightNode current net n) (nodeId : Nat) (subnet : String) :
    ∃ n', OnLightNode current net n' ∧ lightIpCall n (.getFreeIP nodeId subnet) =
      ((if nodeId = current then
        match firstHost net with
        | .ok a => some (plainText a)
        | .error _ => none
      else none), n') := by
  obtain ⟨z, hz, hzid, hparse⟩ := h.network
  by_cases hid : nodeId = current
  · subst hid
    have hpick : n.freeAddress nodeId subnet = firstHost net := by
      simp only [ZNetworkLight.freeAddress, hz, hzid, ne_eq, not_true_eq_false, false_and,
        ↓reduceIte, addr, hparse]
      rfl
    cases hfirst : firstHost net with
    | error e =>
      refine ⟨n, h, ?_⟩
      have hrun : n.getFreeIP nodeId subnet = .error e := by
        rw [ZNetworkLight.getFreeIP, hpick, hfirst]
        rfl
      simp only [lightIpCall, hrun, ite_self]
    | ok a =>
      obtain ⟨n', hreserve, hon⟩ := h.reserve (plainText a)
      refine ⟨n', hon, ?_⟩
      have hrun : n.getFreeIP nodeId subnet = .ok (plainText a, n') := by
        rw [ZNetworkLight.getFreeIP, hpick, hfirst]
        simp only [bind, Except.bind, hreserve, ↓reduceIte]
        rfl
      simp only [lightIpCall, hrun, ↓reduceIte]
  · refine ⟨n, h, ?_⟩
    have hrun : ∃ e, n.getFreeIP nodeId subnet = .error e := by
      unfold ZNetworkLight.getFreeIP
      cases hpick : n.freeAddress nodeId subnet with
      | error e => exact ⟨e, rfl⟩
      | ok a =>
        obtain ⟨n', hreserve, -⟩ := h.reserve (plainText a)
        simp only [bind, Except.bind, hreserve, hid, ↓reduceIte]
        exact ⟨_, rfl⟩
    obtain ⟨e, he⟩ := hrun
    simp only [lightIpCall, he, hid, ↓reduceIte]

/-- On the current node, `validateUserIP` accepts what is in the subnet; on another one nothing. -/
theorem lightIpCall_validateUserIP (h : OnLightNode current net n) (nodeId : Nat) (ip : String) :
    ∃ n', OnLightNode current net n' ∧ lightIpCall n (.validateUserIP nodeId ip) =
      ((if nodeId = current ∧ ∃ a, readAddr ip = some a ∧ net.contains a = true then some ip
      else none), n') := by
  obtain ⟨z, hz, hzid, hparse⟩ := h.network
  by_cases hid : nodeId = current
  · subst hid
    have hsubnet : n.getNodeSubnet nodeId = .ok (some z.subnet) := by
      simp only [ZNetworkLight.getNodeSubnet, hz, hzid, ↓reduceIte]
    obtain ⟨n', hreserve, hon⟩ := h.reserve ip
    cases ha : readAddr ip with
    | none =>
      refine ⟨n, h, ?_⟩
      simp [lightIpCall, ZNetworkLight.validateUserIP, hsubnet, addr, ha, bind, Except.bind]
    | some a =>
      cases hcontains : net.contains a with
      | false =>
        refine ⟨n, h, ?_⟩
        have hrun : ∃ e, n.validateUserIP nodeId ip = .error e := by
          simp only [ZNetworkLight.validateUserIP, hsubnet, addr, ha, notNull, hparse, bind,
            Except.bind, hcontains]
          exact ⟨_, rfl⟩
        obtain ⟨e, he⟩ := hrun
        simp [lightIpCall, he, hcontains]
      | true =>
        refine ⟨n', hon, ?_⟩
        have hrun : n.validateUserIP nodeId ip = .ok (some ip, n') := by
          simp only [ZNetworkLight.validateUserIP, hsubnet, addr, ha, notNull, hparse, bind,
            Except.bind, hcontains, hreserve, ↓reduceIte]
          rfl
        simp [lightIpCall, hrun, hcontains]
  · refine ⟨n, h, ?_⟩
    have hsubnet : n.getNodeSubnet nodeId = .ok none := by
      have hne : ¬ z.nodeId = some nodeId := by
        rw [hzid]
        exact fun heq => hid (Option.some.inj heq).symm
      simp only [ZNetworkLight.getNodeSubnet, hz, if_neg hne]
    have hrun : ∃ e, n.validateUserIP nodeId ip = .error e := by
      unfold ZNetworkLight.validateUserIP
      rw [hsubnet]
      cases hip : addr ip with
      | error e => exact ⟨e, rfl⟩
      | ok a => exact ⟨_, rfl⟩
    obtain ⟨e, he⟩ := hrun
    simp only [lightIpCall, he, hid, false_and, ↓reduceIte]

theorem lightIpCall_onLightNode (h : OnLightNode current net n) (c : LightIpCall) :
    OnLightNode current net (lightIpCall n c).2 := by
  cases c with
  | getFreeIP nodeId subnet =>
    obtain ⟨n', hon, hcall⟩ := lightIpCall_getFreeIP h nodeId subnet
    rw [hcall]
    exact hon
  | validateUserIP nodeId ip =>
    obtain ⟨n', hon, hcall⟩ := lightIpCall_validateUserIP h nodeId ip
    rw [hcall]
    exact hon

/-- What a call gives is fresh exactly when the call meets its condition. -/
theorem givesFresh_iff (h : OnLightNode current net n) (c : LightIpCall) :
    GivesFresh net n c ↔ c.Meets current net (reservedOn n) := by
  cases c with
  | getFreeIP nodeId subnet =>
    obtain ⟨n', -, hcall⟩ := lightIpCall_getFreeIP h nodeId subnet
    unfold GivesFresh LightIpCall.Meets
    rw [hcall]
    by_cases hid : nodeId = current
    · simp only [hid, ↓reduceIte, true_implies]
      constructor
      · intro hgives a hlen hbase
        have hfirst := firstHost_ok_iff.mpr ⟨hlen, hbase⟩
        obtain ⟨b, hb, -, hin, hnew⟩ := hgives (plainText a) (by rw [hfirst])
        obtain rfl : a = b := Option.some.inj ((readAddr_plainText hlen).symm.trans hb)
        exact ⟨hin, hnew⟩
      · intro hmeets ip hip
        cases hfirst : firstHost net with
        | error e =>
          rw [hfirst] at hip
          cases hip
        | ok a =>
          rw [hfirst] at hip
          simp only [Option.some.injEq] at hip
          obtain ⟨hlen, hbase⟩ := firstHost_ok_iff.mp hfirst
          obtain ⟨hin, hnew⟩ := hmeets a hlen hbase
          rw [← hip]
          exact ⟨a, readAddr_plainText hlen, hlen, hin, hnew⟩
    · simp only [hid, ↓reduceIte, reduceCtorEq, false_implies, implies_true]
  | validateUserIP nodeId ip =>
    obtain ⟨n', -, hcall⟩ := lightIpCall_validateUserIP h nodeId ip
    unfold GivesFresh LightIpCall.Meets
    rw [hcall]
    constructor
    · intro hgives hid a ha hin
      obtain ⟨b, hb, hlen, -, hnew⟩ := hgives ip (if_pos ⟨hid, a, ha, hin⟩)
      obtain rfl : a = b := Option.some.inj (ha.symm.trans hb)
      exact ⟨hlen, hnew⟩
    · intro hmeets ip' hip'
      split_ifs at hip' with hcond
      cases hip'
      obtain ⟨hid, a, ha, hin⟩ := hcond
      obtain ⟨hlen, hnew⟩ := hmeets hid a ha hin
      exact ⟨a, ha, hlen, hin, hnew⟩

/-- Over any calls, every ip given is fresh exactly when every call meets its condition. -/
theorem lightIps_fresh_iff {node : Node} {z : NetworkLight} (hnode : n.node = some node)
    (hid : node.nodeId = some current) (hz : n.network = some z) (hzid : z.nodeId = some current)
    (hnet : readAddr z.subnet = some net) (calls : List LightIpCall) :
    Runs.EachMeets (fun n c => (lightIpCall n c).2) (GivesFresh net) n calls ↔
      Runs.EachMeets (fun n c => (lightIpCall n c).2)
        (fun n c => c.Meets current net (reservedOn n)) n calls :=
  Runs.eachMeets_congr (P := OnLightNode current net) (fun _ c h _ => lightIpCall_onLightNode h c)
    (fun _ c h => givesFresh_iff h c) ⟨⟨node, hnode, hid⟩, z, hz, hzid, hnet⟩ calls

end

end

/-- A light network on node 11, with a machine that has the address 9. -/
def lightNode : ZNetworkLight where
  name := "net"
  ipRange := "10.1.0.0/16"
  node := some ⟨some 11, some 1, ["10.1.2.9"]⟩
  nodeIds := some [11]
  deployments := []
  network := some ⟨"10.1.2.0/24", none, some 11, none⟩
  reservedSubnets := []

/-- One address that is picked and one that the user picks. -/
theorem lightNode_ips_fresh :
    Runs.EachMeets (fun n c => (lightIpCall n c).2) (GivesFresh sampleSubnet) lightNode
      [.getFreeIP 11 "", .validateUserIP 11 "10.1.2.7"] := by
  refine (lightIps_fresh_iff (z := ⟨"10.1.2.0/24", none, some 11, none⟩) rfl rfl rfl rfl
    readAddr_sampleSubnet _).mpr ?_
  have hips : reservedOn (lightIpCall lightNode (.getFreeIP 11 "")).2 = ["10.1.2.9", "10.1.2.2"] := by
    decide +kernel
  have hparse : parse "10.1.2.7" = some (host 167838215 (by decide)) := by decide +kernel
  refine Runs.eachMeets_cons.mpr ⟨?_, Runs.eachMeets_cons.mpr ⟨?_, Runs.eachMeets_nil⟩⟩
  · intro _ a hlen hbase
    have hthird : sampleSubnet.base + 2 = 167838210 := by norm_num [sampleSubnet]
    obtain rfl : a = host 167838210 (by decide) := Addr.ext (hbase.trans hthird) hlen
    exact ⟨by decide, by decide +kernel⟩
  · rw [hips]
    intro _ a ha _
    obtain rfl : host 167838215 (by decide) = a := Option.some.inj (hparse.symm.trans ha)
    exact ⟨rfl, by decide +kernel⟩

/-- The second address that is picked is the first one again. -/
theorem second_ip_not_fresh :
    ¬ Runs.EachMeets (fun n c => (lightIpCall n c).2) (GivesFresh sampleSubnet) lightNode
      [.getFreeIP 11 "", .getFreeIP 11 ""] := by
  intro h
  have hsecond := h [.getFreeIP 11 ""] (.getFreeIP 11 "") (List.prefix_refl _)
  have hips : reservedOn (lightIpCall lightNode (.getFreeIP 11 "")).2 = ["10.1.2.9", "10.1.2.2"] := by
    decide +kernel
  have hcall : (lightIpCall (lightIpCall lightNode (.getFreeIP 11 "")).2 (.getFreeIP 11 "")).1 =
      some "10.1.2.2" := by
    decide +kernel
  obtain ⟨a, ha, -, -, hnew⟩ := hsecond "10.1.2.2" hcall
  simp only [List.foldl_cons, List.foldl_nil, hips] at hnew
  apply hnew
  rw [← ha]
  exact List.mem_map_of_mem (by simp)

end ThreefoldSdk.Primitives
