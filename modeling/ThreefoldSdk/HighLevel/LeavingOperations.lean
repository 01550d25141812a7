import ThreefoldSdk.HighLevel.Delete

/-! The operations of a deletion after which the node of the machines is not in the network: they
are on the contracts of the machines and of the nodes that leave. -/

namespace ThreefoldSdk.HighLevel
open Zos Primitives Frame

/-- One other node is in the network, with no ip reserved: it leaves too. -/
def lastLeaves (net : Network) (nodeId : Nat) : Bool :=
  match net.nodes.filter fun node => node.nodeId ≠ some nodeId with
  | [last] => last.reservedIps.isEmpty
  | _ => false

/-- The nodes that are in the network afterwards. -/
def stayingNodes (net : Network) (nodeId : Nat) : List Node :=
  if lastLeaves net nodeId then [] else net.nodes.filter fun node => node.nodeId ≠ some nodeId

/-- Where an operation is: on the deployment of the machines, of which nothing remains; on another
contract, to take a node out; or on no contract. -/
inductive Concerns (net : Network) (nodeId : Nat) (deployment : Deployment)
    (remaining : List Workload) (op : Deployment × Operations) : Prop where
  | machines (h : op = (deployment, .delete)) (hnil : remaining = [])
  | leaver (gone : Node) (hin : gone ∈ net.nodes) (hgone : gone ∉ stayingNodes net nodeId)
      (hother : gone.contractId ≠ deployment.contractId) (h : TakesOut net.name gone.contractId op)
  | nowhere (h : op.1.contractId = some 0)

/-- The node has left, and perhaps the last one. -/
structure Settled (net : Network) (deployment : Deployment) (node : Node) (nodeId : Nat)
    (remaining : List Workload) (st : Release) : Prop where
  network : ∃ n, st.network = some (.network n) ∧ Without net node n ∧
    n.nodes = stayingNodes net nodeId
  operations : ∀ op ∈ st.operations, Concerns net nodeId deployment st.remaining op
  taken : ∀ gone ∈ net.nodes, gone ∉ stayingNodes net nodeId →
    gone.contractId ≠ deployment.contractId → ∃ op ∈ st.operations, op.1.contractId = gone.contractId
  own : node.contractId = deployment.contractId → (∀ w ∈ st.remaining, w.name ≠ net.name) ∧
    (st.remaining = [] → (deployment, .delete) ∈ st.operations)
  sublist : st.remaining.Sublist remaining

/-- Of each node of the network the operations take the workload out, or leave it alone. -/
structure TakenOut (net : Network) (nodeId : Nat) (deployment : Deployment)
    (ts : List TwinDeployment) : Prop where
  staying : ∀ node ∈ stayingNodes net nodeId, ∀ t ∈ ts, t.deployment.contractId ≠ node.contractId
  leaving : ∀ node ∈ net.nodes, node ∉ stayingNodes net nodeId →
    (∃ t ∈ ts, t.deployment.contractId = node.contractId) ∧
      ∀ t ∈ ts, t.deployment.contractId = node.contractId →
        TakesOut net.name node.contractId (t.deployment, t.operation)
  contracts : ∀ t ∈ ts, t.deployment.contractId = deployment.contractId ∨
    t.deployment.contractId = some 0 ∨ ∃ node ∈ net.nodes, t.deployment.contractId = node.contractId

section
variable {v : Validators} {net n n' : Network} {deployment : Deployment} {node : Node} {nodeId : Nat}
  {remaining : List Workload} {st st' : Release}

theorem Concerns.mono {op : Deployment × Operations} {ws : List Workload}
    (h : Concerns net nodeId deployment remaining op) (hsub : ws.Sublist remaining) :
    Concerns net nodeId deployment ws op := by
  cases h with
  | machines h hnil =>
    rw [hnil] at hsub
    exact .machines h (List.sublist_nil.mp hsub)
  | leaver gone hin hgone hother h => exact .leaver gone hin hgone hother h
  | nowhere h => exact .nowhere h

/-! The nodes. -/

theorem stayingNodes_sublist : (stayingNodes net nodeId).Sublist net.nodes := by
  unfold stayingNodes
  split
  · exact List.nil_sublist _
  · exact List.filter_sublist

theorem nodeId_of_staying {x : Node} (h : x ∈ stayingNodes net nodeId) : x.nodeId ≠ some nodeId := by
  unfold stayingNodes at h
  split at h
  · cases h
  · exact of_decide_eq_true (List.mem_filter.mp h).2

/-- Releasing ips on a node changes no other node. -/
theorem filter_releaseIps (ips : List String) :
    ((releaseIps nodeId net ips).nodes.filter fun node => node.nodeId ≠ some nodeId) =
      net.nodes.filter fun node => node.nodeId ≠ some nodeId := by
  induction ips generalizing net with
  | nil => rfl
  | cons ip ips ih =>
    rw [show releaseIps nodeId net (ip :: ips) = releaseIps nodeId (net.deleteReservedIp nodeId ip) ips
      from rfl, ih]
    unfold Network.deleteReservedIp
    dsimp only
    induction net.nodes with
    | nil => rfl
    | cons x xs ih =>
      rw [List.map_cons, List.filter_cons, List.filter_cons, ih]
      by_cases hx : x.nodeId = some nodeId
      · rw [if_pos hx]
        simp [hx]
      · rw [if_neg hx]

theorem deleteReservedIp_of_absent (ip : String) (h : ∀ x ∈ n.nodes, x.nodeId ≠ some nodeId) :
    n.deleteReservedIp nodeId ip = n := by
  have hsame : (n.nodes.map fun node => if node.nodeId = some nodeId then
      { node with reservedIps := node.reservedIps.filter (· ≠ ip) } else node) = n.nodes := by
    conv_rhs => rw [← List.map_id n.nodes]
    apply List.map_congr_left
    intro x hx
    rw [if_neg (h x hx)]
    rfl
  unfold Network.deleteReservedIp
  rw [hsame]

/-! The parts of a round. -/

theorem leaveOperations_takeOut {name : String} {contractId : Option Nat}
    {ds : List NetworkDeployment} {ops : List (Deployment × Operations)}
    (h : leaveOperations v name contractId ds = .ok ops) :
    (∀ op ∈ ops, TakesOut name contractId op) ∧
      ((∃ d ∈ ds, d.deployment.contractId = contractId) →
        ∃ op ∈ ops, op.1.contractId = contractId) := by
  induction ds generalizing ops with
  | nil =>
    cases h
    refine ⟨fun op hop => absurd hop List.not_mem_nil, fun hin => ?_⟩
    obtain ⟨d, hd, -⟩ := hin
    exact absurd hd List.not_mem_nil
  | cons d ds ih =>
    obtain ⟨o, ho, hrest⟩ := exceptBind_eq_ok.mp h
    obtain ⟨ops', hops', hrest⟩ := exceptBind_eq_ok.mp hrest
    obtain ⟨htakes, hheld⟩ := ih hops'
    have hcontract : o.contractId = d.deployment.contractId := by rw [(fromObj_eq ho).1]
    by_cases hother : o.contractId ≠ contractId
    · rw [if_pos hother] at hrest
      cases hrest
      refine ⟨htakes, fun hin => hheld ?_⟩
      obtain ⟨x, hx, hid⟩ := hin
      rcases List.mem_cons.mp hx with rfl | hx
      · exact absurd (hcontract.trans hid) hother
      · exact ⟨x, hx, hid⟩
    · have hsame : o.contractId = contractId := not_not.mp hother
      rw [if_neg hother] at hrest
      split_ifs at hrest
      · cases hrest
        exact ⟨List.forall_mem_cons.mpr ⟨⟨hsame, Or.inl rfl⟩, htakes⟩,
          fun _ => ⟨_, List.mem_cons_self, hsame⟩⟩
      · cases hrest
        refine ⟨List.forall_mem_cons.mpr ⟨⟨hsame, Or.inr ⟨rfl, fun w hw => ?_⟩⟩, htakes⟩,
          fun _ => ⟨_, List.mem_cons_self, hsame⟩⟩
        exact of_decide_eq_true (List.mem_filter.mp hw).2

/-- What the last step of a round emits takes out the last node. -/
structure LastTaken (net : Network) (node : Node) (nodeId : Nat) (n' : Network)
    (ops : List (Deployment × Operations)) : Prop where
  without : Without net node n'
  nodes : n'.nodes = stayingNodes net nodeId
  operations : ∀ op ∈ ops, ∃ last ∈ net.nodes, last ∉ stayingNodes net nodeId ∧
    last.nodeId ≠ some nodeId ∧ TakesOut net.name last.contractId op
  taken : ∀ last ∈ net.nodes, last.nodeId ≠ some nodeId → last ∉ stayingNodes net nodeId →
    ∃ op ∈ ops, op.1.contractId = last.contractId

/-- Nobody leaves after the node. -/
theorem lastTaken_nil (hwithout : Without net node n)
    (hnodes : n.nodes = net.nodes.filter fun node => node.nodeId ≠ some nodeId)
    (hnot : lastLeaves net nodeId = false) : LastTaken net node nodeId n [] := by
  have hstaying : n.nodes = stayingNodes net nodeId := by
    unfold stayingNodes
    rw [hnot, hnodes]
    rfl
  refine ⟨hwithout, hstaying, fun op hop => absurd hop List.not_mem_nil, ?_⟩
  intro last hlast hid hgone
  rw [← hstaying, hnodes] at hgone
  exact absurd (List.mem_filter.mpr ⟨hlast, decide_eq_true hid⟩) hgone

/-- The last node is deleted, and its contract with it. -/
theorem deleteNode_last {last : Node} {id : Nat} (hfree : n.reservedSubnets = [])
    (hnodes : n.nodes = [last]) (hid : last.nodeId = some id) {contractId : Option Nat}
    (h : n.deleteNode true id = .ok (contractId, n')) :
    contractId = last.contractId ∧ n'.nodes = [] := by
  unfold Network.deleteNode at h
  rw [if_neg (by decide), if_pos (List.isEmpty_iff.mpr hfree), hnodes] at h
  cases h
  simp [hid]

theorem leaveLastNode_taken (hloaded : FreshlyLoaded v net) (hids : ∀ x ∈ net.nodes, x.nodeId ≠ none)
    (hwithout : Without net node n)
    (hnodes : n.nodes = net.nodes.filter fun node => node.nodeId ≠ some nodeId)
    {m : AnyNetwork} {ops : List (Deployment × Operations)}
    (h : leaveLastNode v true (.network n) = .ok (m, ops)) :
    ∃ n', m = .network n' ∧ LastTaken net node nodeId n' ops := by
  unfold leaveLastNode at h
  dsimp only at h
  split at h
  · rename_i last hlast
    have hothers : (net.nodes.filter fun node => node.nodeId ≠ some nodeId) = [last] :=
      hnodes.symm.trans hlast
    have hin : last ∈ net.nodes.filter fun node => node.nodeId ≠ some nodeId := by
      rw [hothers]
      exact List.mem_singleton_self _
    obtain ⟨hmem, hidne⟩ := List.mem_filter.mp hin
    obtain ⟨id, hid⟩ := Option.ne_none_iff_exists'.mp (hids last hmem)
    have hreserved : n.getNodeReservedIps (last.nodeId.getD 0) = last.reservedIps := by
      unfold Network.getNodeReservedIps
      rw [hlast, hid, Option.getD_some]
      simp [hid]
    rw [hreserved] at h
    split at h
    · rename_i hnone
      have hleaves : lastLeaves net nodeId = true := by
        unfold lastLeaves
        rw [hothers]
        exact List.isEmpty_iff.mpr (List.length_eq_zero_iff.mp hnone)
      have hstaying : stayingNodes net nodeId = [] := if_pos hleaves
      obtain ⟨⟨contractId, n'⟩, hdelete, h⟩ := exceptBind_eq_ok.mp h
      obtain ⟨ops', hops', h⟩ := exceptBind_eq_ok.mp h
      cases h
      rw [hid, Option.getD_some] at hdelete
      obtain ⟨rfl, hempty⟩ := deleteNode_last hwithout.unreserved hlast hid hdelete
      obtain ⟨contractId', n₁, hsame, hname, hdeployments, hfree, -⟩ :=
        deleteNode_ok hwithout.unreserved id
      obtain ⟨-, rfl⟩ := Prod.mk.inj (Except.ok.inj (hdelete.symm.trans hsame))
      obtain ⟨htakes, hheld⟩ := leaveOperations_takeOut hops'
      rw [hname.trans hwithout.name] at htakes
      refine ⟨n', rfl, ⟨hname.trans hwithout.name, hdeployments.trans hwithout.deployments, hfree,
        fun other hother => ?_⟩, hempty.trans hstaying.symm, fun op hop => ?_, fun x hx hxid _ => ?_⟩
      · rw [hempty] at hother
        cases hother
      · exact ⟨last, hmem, hstaying ▸ List.not_mem_nil, of_decide_eq_true hidne, htakes op hop⟩
      · have hxin : x ∈ net.nodes.filter fun node => node.nodeId ≠ some nodeId :=
          List.mem_filter.mpr ⟨hx, decide_eq_true hxid⟩
        rw [hothers, List.mem_singleton] at hxin
        subst hxin
        apply hheld
        rw [hdeployments, hwithout.deployments]
        exact hloaded.held x hx
    · rename_i hsome
      cases h
      refine ⟨n, rfl, lastTaken_nil hwithout hnodes ?_⟩
      unfold lastLeaves
      rw [hothers]
      exact Bool.eq_false_iff.mpr fun hempty =>
        hsome (List.length_eq_zero_iff.mpr (List.isEmpty_iff.mp hempty))
  · rename_i hnot
    cases h
    refine ⟨n, rfl, lastTaken_nil hwithout hnodes ?_⟩
    unfold lastLeaves
    split
    · rename_i last hlast
      exact absurd (hnodes.trans hlast) (hnot last)
    · rfl

/-- After that no node is left to leave. -/
theorem leaveLastNode_settled (hids : ∀ x ∈ net.nodes, x.nodeId ≠ none)
    (hnodes : n.nodes = stayingNodes net nodeId) :
    leaveLastNode v true (.network n) = .ok (.network n, []) := by
  unfold leaveLastNode
  dsimp only
  split
  · rename_i last hlast
    have hstaying : stayingNodes net nodeId = [last] := hnodes.symm.trans hlast
    have hmem : last ∈ net.nodes := by
      apply stayingNodes_sublist.subset
      rw [hstaying]
      exact List.mem_singleton_self _
    obtain ⟨id, hid⟩ := Option.ne_none_iff_exists'.mp (hids last hmem)
    rw [if_neg]
    intro hnone
    unfold Network.getNodeReservedIps at hnone
    rw [hlast, hid, Option.getD_some] at hnone
    have hempty : last.reservedIps = [] := by simpa [hid] using hnone
    unfold stayingNodes at hstaying
    cases hleaves : lastLeaves net nodeId with
    | true =>
      rw [hleaves, if_pos rfl] at hstaying
      cases hstaying
    | false =>
      rw [hleaves, if_neg Bool.false_ne_true] at hstaying
      unfold lastLeaves at hleaves
      rw [hstaying] at hleaves
      exact absurd (List.isEmpty_iff.mpr hempty) (Bool.eq_false_iff.mp hleaves)
  · rfl

/-! The rounds. -/

/-- The end of a round in which the node is deleted, of the contract `contractId`. -/
theorem releaseOn_deleted {m : Workload} {iface : ZNetworkInterface}
    (hiface : m.data.firstInterface = some iface)
    (hleaves : staysInNetwork nodeId (.network (n.deleteReservedIp nodeId iface.ip)) = false)
    {contractId : Option Nat} {n₁ : Network}
    (hdelete : (n.deleteReservedIp nodeId iface.ip).deleteNode true nodeId = .ok (contractId, n₁))
    (h : releaseOn v true deployment nodeId (.network n) st m = .ok st') :
    ∃ st₁ n₂ ops, leaveNode v deployment nodeId iface.ip (.network n₁) contractId
        (st.start deployment (n.deleteReservedIp nodeId iface.ip)) = .ok st₁ ∧
      leaveLastNode v true (.network n₁) = .ok (n₂, ops) ∧
      st' = { st₁ with network := some n₂, operations := st₁.operations ++ ops } := by
  have hany : (AnyNetwork.network (n.deleteReservedIp nodeId iface.ip)).deleteNode true nodeId =
      .ok (contractId, .network n₁) := by
    show Except.map _ ((n.deleteReservedIp nodeId iface.ip).deleteNode true nodeId) = _
    rw [hdelete]
    rfl
  rw [releaseOn_eq hiface, hleaves, if_neg Bool.false_ne_true] at h
  obtain ⟨r, hr, h⟩ := exceptBind_eq_ok.mp h
  obtain rfl := Except.ok.inj (hany.symm.trans hr)
  obtain ⟨st₁, hst₁, h⟩ := exceptBind_eq_ok.mp h
  obtain ⟨⟨n₂, ops⟩, hlast, h⟩ := exceptBind_eq_ok.mp h
  exact ⟨st₁, n₂, ops, hst₁, hlast, (Except.ok.inj h).symm⟩

theorem start_operations {op : Deployment × Operations}
    (hop : op ∈ (st.start deployment n).operations) :
    op ∈ st.operations ∨ op = (deployment, .delete) ∧ st.remaining = [] := by
  have hop : op ∈ if st.remaining.length = 0 then st.operations ++ [(deployment, .delete)]
    else st.operations := hop
  split_ifs at hop with hnil
  · rcases List.mem_append.mp hop with hop | hop
    · exact Or.inl hop
    · exact Or.inr ⟨List.mem_singleton.mp hop, List.length_eq_zero_iff.mp hnil⟩
  · exact Or.inl hop

/-- What `leaveNode` adds for the contract of the node. -/
structure NodeTaken (net : Network) (deployment : Deployment) (contractId : Option Nat)
    (st st' : Release) : Prop where
  sublist : st'.remaining.Sublist st.remaining
  operations : ∀ op ∈ st'.operations, op ∈ st.operations ∨
    (op = (deployment, .delete) ∧ st'.remaining = []) ∨
    (contractId ≠ deployment.contractId ∧ TakesOut net.name contractId op)
  kept : st.operations ⊆ st'.operations
  taken : contractId ≠ deployment.contractId →
    (∃ d ∈ net.deployments, d.deployment.contractId = contractId) →
      ∃ op ∈ st'.operations, op.1.contractId = contractId

theorem leaveNode_taken {ip : String} {contractId : Option Nat} (hwithout : Without net node n)
    (h : leaveNode v deployment nodeId ip (.network n) contractId st = .ok st') :
    NodeTaken net deployment contractId st st' := by
  unfold leaveNode at h
  split_ifs at h with hown hlength
  · cases h
    refine ⟨List.nil_sublist _, fun op hop => ?_, List.subset_append_left _ _,
      fun hother => absurd hown hother⟩
    rcases List.mem_append.mp hop with hop | hop
    · exact Or.inl hop
    · exact Or.inr (Or.inl ⟨List.mem_singleton.mp hop, rfl⟩)
  · cases h
    exact ⟨List.filter_sublist, fun op hop => Or.inl hop, List.Subset.refl _,
      fun hother => absurd hown hother⟩
  · obtain ⟨ops, hops, h⟩ := exceptBind_eq_ok.mp h
    cases h
    obtain ⟨htakes, hheld⟩ := leaveOperations_takeOut hops
    refine ⟨List.Sublist.refl _, fun op hop => ?_, List.subset_append_left _ _, fun _ hin => ?_⟩
    · rcases List.mem_append.mp hop with hop | hop
      · exact Or.inl hop
      · have htake : TakesOut n.name contractId op := htakes op hop
        rw [hwithout.name] at htake
        exact Or.inr (Or.inr ⟨hown, htake⟩)
    · rw [← hwithout.deployments] at hin
      obtain ⟨op, hop, hid⟩ := hheld hin
      exact ⟨op, List.mem_append_right _ hop, hid⟩

/-- The round in which the node leaves. -/
theorem releaseOn_settles (hloaded : FreshlyLoaded v net)
    (hplaced : Placed net deployment remaining node) (hid : node.nodeId = some nodeId)
    (hids : ∀ x ∈ net.nodes, x.nodeId ≠ none) {ips : List String}
    (hremaining : st.remaining = remaining)
    (hoperations : ∀ op ∈ st.operations, op = (deployment, .delete) ∧ remaining = [])
    {m : Workload} {iface : ZNetworkInterface} (hiface : m.data.firstInterface = some iface)
    (hnothing : NothingNeeds net nodeId (ips ++ [iface.ip]))
    (h : releaseOn v true deployment nodeId (.network (releaseIps nodeId net ips)) st m = .ok st') :
    Settled net deployment node nodeId remaining st' := by
  have hrelease : (releaseIps nodeId net ips).deleteReservedIp nodeId iface.ip =
      releaseIps nodeId net (ips ++ [iface.ip]) := by
    rw [releaseIps_append]
    rfl
  have hsame : ReleasedFrom net (releaseIps nodeId net (ips ++ [iface.ip])) :=
    releasedFrom_release _
  have hleaves := (staysInNetwork_eq_false_iff (ips ++ [iface.ip])).mpr hnothing
  obtain ⟨n₀, hany, -⟩ := deleteNode_released hloaded hplaced hid (ips ++ [iface.ip])
  obtain ⟨contractId, n₁, hdelete, hname, hdeployments, hfree, hnodes, -⟩ :=
    deleteNode_ok (n := releaseIps nodeId net (ips ++ [iface.ip]))
      (hsame.reservedSubnets.trans hloaded.unreserved) nodeId
  have hcontract : contractId = node.contractId := by
    change Except.map _ ((releaseIps nodeId net (ips ++ [iface.ip])).deleteNode true nodeId) = _ at hany
    rw [hdelete] at hany
    exact congrArg Prod.fst (Except.ok.inj hany)
  subst hcontract
  rw [filter_releaseIps] at hnodes
  have hwithout : Without net node n₁ := by
    refine ⟨hname.trans hsame.name, hdeployments.trans hsame.deployments, hfree, fun x hx => ?_⟩
    rw [hnodes] at hx
    rw [hid]
    exact of_decide_eq_true (List.mem_filter.mp hx).2
  rw [← hrelease] at hleaves hdelete
  obtain ⟨st₁, m', ops, hleave, hlast, rfl⟩ := releaseOn_deleted hiface hleaves hdelete h
  obtain ⟨n₂, rfl, hlastTaken⟩ := leaveLastNode_taken hloaded hids hwithout hnodes hlast
  have htaken := leaveNode_taken hwithout hleave
  have hgone : node ∉ stayingNodes net nodeId := fun hin => nodeId_of_staying hin hid
  have hunique : ∀ x ∈ net.nodes, x.nodeId = some nodeId → x = node := fun x hx hxid =>
    List.inj_on_of_nodup_map hloaded.nodes hx hplaced.member (hxid.trans hid.symm)
  have hother : ∀ x ∈ net.nodes, x.nodeId ≠ some nodeId → x.contractId ≠ deployment.contractId :=
    fun x hx hxid hcontract => hxid ((hplaced.own x hx hcontract).trans hid)
  refine ⟨⟨n₂, rfl, hlastTaken.without, hlastTaken.nodes⟩, fun op hop => ?_, ?_, ?_, ?_⟩
  · rcases List.mem_append.mp hop with hop | hop
    · rcases htaken.operations op hop with hop | ⟨hop, hnil⟩ | ⟨hne, htakes⟩
      · have hsub : st₁.remaining.Sublist remaining := hremaining ▸ htaken.sublist
        rcases start_operations hop with hop | ⟨hop, hnil⟩
        · obtain ⟨hop, hnil⟩ := hoperations op hop
          exact .machines hop (List.sublist_nil.mp (hnil ▸ hsub))
        · rw [hremaining] at hnil
          exact .machines hop (List.sublist_nil.mp (hnil ▸ hsub))
      · exact .machines hop hnil
      · exact .leaver node hplaced.member hgone hne htakes
    · obtain ⟨last, hin, hnot, hlastid, htakes⟩ := hlastTaken.operations op hop
      exact .leaver last hin hnot (hother last hin hlastid) htakes
  · intro gone hin hnot hne
    by_cases hgoneid : gone.nodeId = some nodeId
    · obtain rfl := hunique gone hin hgoneid
      obtain ⟨op, hop, hopid⟩ := htaken.taken hne (hloaded.held gone hin)
      exact ⟨op, List.mem_append_left _ hop, hopid⟩
    · obtain ⟨op, hop, hopid⟩ := hlastTaken.taken gone hin hgoneid hnot
      exact ⟨op, List.mem_append_right _ hop, hopid⟩
  · intro hown
    obtain ⟨st₂, hst₂, hremoved⟩ := @leaveNode_ok v net deployment node nodeId remaining hloaded
      hplaced n₁ hwithout (st.start deployment ((releaseIps nodeId net ips).deleteReservedIp nodeId
        iface.ip)) hremaining iface.ip
    obtain rfl := Except.ok.inj (hst₂.symm.trans hleave)
    rcases hremoved with ⟨-, hnone, hdeleted⟩ | ⟨hne, -⟩
    · refine ⟨hnone, fun hnil => List.mem_append_left _ ?_⟩
      obtain ⟨op, hop, hopid, hopdelete⟩ := hdeleted hnil
      rcases htaken.operations op hop with hop' | ⟨hop', -⟩ | ⟨hne, -⟩
      · rcases start_operations hop' with hop' | ⟨hop', -⟩
        · rw [← (hoperations op hop').1]
          exact hop
        · rw [← hop']
          exact hop
      · rw [← hop']
        exact hop
      · exact absurd hown hne
    · exact absurd hown.symm hne
  · rw [← hremaining]
    exact htaken.sublist

/-- The rounds after that. -/
theorem releaseMachine_settled {load : Bool → String → String → Except GridError AnyNetwork}
    (hreal : deployment.contractId ≠ some 0) (hid : node.nodeId = some nodeId)
    (hids : ∀ x ∈ net.nodes, x.nodeId ≠ none) (hst : Settled net deployment node nodeId remaining st)
    {m : Workload} (h : releaseMachine v load true deployment nodeId st m = .ok st') :
    Settled net deployment node nodeId remaining st' := by
  obtain ⟨n, hn, hwithout, hnodes⟩ := hst.network
  have habsent : ∀ x ∈ n.nodes, x.nodeId ≠ some nodeId := fun x hx => hid ▸ hwithout.gone x hx
  have hrun : releaseOn v true deployment nodeId (.network n) st m = .ok st' := by
    unfold releaseMachine at h
    rw [hn] at h
    exact h
  have hstart : Settled net deployment node nodeId remaining (st.start deployment n) := by
    refine ⟨⟨n, rfl, hwithout, hnodes⟩, fun op hop => ?_, fun gone hin hnot hne => ?_, fun hown => ?_,
      hst.sublist⟩
    · rcases start_operations hop with hop | ⟨hop, hnil⟩
      · exact hst.operations op hop
      · exact .machines hop hnil
    · obtain ⟨op, hop, hopid⟩ := hst.taken gone hin hnot hne
      exact ⟨op, subset_start n st hop, hopid⟩
    · exact ⟨(hst.own hown).1, fun hnil => subset_start n st ((hst.own hown).2 hnil)⟩
  obtain ⟨iface, hiface, -⟩ := exceptBind_eq_ok.mp hrun
  have hiface : m.data.firstInterface = some iface := by
    unfold notNull at hiface
    split at hiface
    · rename_i hsome
      rw [hsome, Except.ok.inj hiface]
    · cases hiface
  have hreleased : n.deleteReservedIp nodeId iface.ip = n := deleteReservedIp_of_absent _ habsent
  by_cases hstays : staysInNetwork nodeId (.network n) = true
  · rw [releaseOn_eq hiface, hreleased, if_pos hstays] at hrun
    obtain rfl := Except.ok.inj hrun
    exact ⟨hstart.network, hstart.operations, hstart.taken, hstart.own, hstart.sublist⟩
  · obtain ⟨contractId, n₁, hdelete, hname, hdeployments, hfree, hfilter, hnone⟩ :=
      deleteNode_ok hwithout.unreserved nodeId
    -- the node is not there any more, so the call finds no contract
    obtain rfl := hnone habsent
    have hnodes₁ : n₁.nodes = stayingNodes net nodeId := by
      rw [hfilter, List.filter_eq_self.mpr fun x hx => decide_eq_true (habsent x hx), hnodes]
    have hwithout₁ : Without net node n₁ := by
      refine ⟨hname.trans hwithout.name, hdeployments.trans hwithout.deployments, hfree, fun x hx => ?_⟩
      rw [hnodes₁, ← hnodes] at hx
      exact hwithout.gone x hx
    rw [← hreleased] at hstays hdelete
    obtain ⟨st₁, m', ops, hleave, hlast, rfl⟩ :=
      releaseOn_deleted hiface (Bool.eq_false_iff.mpr hstays) hdelete hrun
    rw [leaveLastNode_settled hids hnodes₁] at hlast
    cases hlast
    have htaken := leaveNode_taken hwithout₁ hleave
    rw [hreleased] at htaken
    have hremaining : st₁.remaining = st.remaining := by
      unfold leaveNode at hleave
      rw [if_neg hreal.symm] at hleave
      obtain ⟨ops, -, hleave⟩ := exceptBind_eq_ok.mp hleave
      cases hleave
      rfl
    refine ⟨⟨n₁, rfl, hwithout₁, hnodes₁⟩, fun op hop => ?_, fun gone hin hnot hne => ?_,
      fun hown => ?_, htaken.sublist.trans hstart.sublist⟩
    · rw [List.append_nil] at hop
      rcases htaken.operations op hop with hop | ⟨hop, hnil⟩ | ⟨-, htakes⟩
      · exact (hstart.operations op hop).mono htaken.sublist
      · exact .machines hop hnil
      · exact .nowhere htakes.1
    · obtain ⟨op, hop, hopid⟩ := hstart.taken gone hin hnot hne
      exact ⟨op, List.mem_append_left _ (htaken.kept hop), hopid⟩
    · show (∀ w ∈ st₁.remaining, w.name ≠ net.name) ∧ (st₁.remaining = [] → _)
      rw [hremaining]
      exact ⟨(hst.own hown).1, fun hnil =>
        List.mem_append_left _ (htaken.kept (subset_start n st ((hst.own hown).2 hnil)))⟩

theorem releaseAll_settled {load : Bool → String → String → Except GridError AnyNetwork}
    (hreal : deployment.contractId ≠ some 0) (hid : node.nodeId = some nodeId)
    (hids : ∀ x ∈ net.nodes, x.nodeId ≠ none) {machines : List Workload}
    (hst : Settled net deployment node nodeId remaining st)
    (h : machines.foldlM (releaseMachine v load true deployment nodeId) st = .ok st') :
    Settled net deployment node nodeId remaining st' := by
  induction machines generalizing st with
  | nil =>
    cases h
    exact hst
  | cons m machines ih =>
    rw [List.foldlM_cons] at h
    obtain ⟨st₁, hone, hrest⟩ := exceptBind_eq_ok.mp h
    exact ih (releaseMachine_settled hreal hid hids hst hone) hrest

theorem firstInterface_of_run {isKnown : Bool} {n : AnyNetwork} {m : Workload}
    (h : releaseOn v isKnown deployment nodeId n st m = .ok st') :
    ∃ iface, m.data.firstInterface = some iface := by
  obtain ⟨iface, hiface, -⟩ := exceptBind_eq_ok.mp h
  cases hsome : m.data.firstInterface with
  | none =>
    rw [hsome] at hiface
    cases hiface
  | some iface => exact ⟨iface, rfl⟩

/-- The first machine, or one before which something needed the node. -/
theorem releaseRest_settles {load : Bool → String → String → Except GridError AnyNetwork}
    (hloaded : FreshlyLoaded v net) (hplaced : Placed net deployment remaining node)
    (hid : node.nodeId = some nodeId) (hids : ∀ x ∈ net.nodes, x.nodeId ≠ none) {ips : List String}
    (hremaining : st.remaining = remaining)
    (hoperations : ∀ op ∈ st.operations, op = (deployment, .delete) ∧ remaining = [])
    {m : Workload} {machines : List Workload} {st₁ : Release}
    (hone : releaseOn v true deployment nodeId (.network (releaseIps nodeId net ips)) st m = .ok st₁)
    (hrest : machines.foldlM (releaseMachine v load true deployment nodeId) st₁ = .ok st')
    (hnothing : NothingNeeds net nodeId (ips ++ machineIps (m :: machines))) :
    Settled net deployment node nodeId remaining st' := by
  induction machines generalizing st st₁ m ips with
  | nil =>
    obtain ⟨iface, hiface⟩ := firstInterface_of_run hone
    rw [machineIps_cons hiface] at hnothing
    cases hrest
    exact releaseOn_settles hloaded hplaced hid hids hremaining hoperations hiface hnothing hone
  | cons m' machines ih =>
    obtain ⟨iface, hiface⟩ := firstInterface_of_run hone
    rw [machineIps_cons hiface, List.append_cons] at hnothing
    by_cases hnow : NothingNeeds net nodeId (ips ++ [iface.ip])
    · exact releaseAll_settled hplaced.real hid hids
        (releaseOn_settles hloaded hplaced hid hids hremaining hoperations hiface hnow hone) hrest
    · obtain ⟨st₂, hst₂, -, hwaiting⟩ :=
        releaseOn_ok hloaded hplaced hid hremaining hoperations hiface
      obtain rfl := Except.ok.inj (hst₂.symm.trans hone)
      obtain ⟨hnetwork, hkept, hops, -⟩ := hwaiting hnow
      rw [List.foldlM_cons] at hrest
      obtain ⟨st₃, hnext, hrest⟩ := exceptBind_eq_ok.mp hrest
      unfold releaseMachine at hnext
      rw [hnetwork] at hnext
      exact ih hkept hops hnext hrest hnothing

theorem deleteMachineNetwork_settles
    {load : Bool → String → String → Except GridError AnyNetwork} (hloaded : FreshlyLoaded v net)
    (hplaced : Placed net deployment remaining node) (hid : node.nodeId = some nodeId)
    (hids : ∀ x ∈ net.nodes, x.nodeId ≠ none) {first : Workload} {rest : List Workload}
    (hload : loadNetwork load first = .ok (.network net))
    (hnothing : NothingNeeds net nodeId (machineIps (first :: rest))) {r : MachineNetwork}
    (h : deleteMachineNetwork v load true deployment nodeId remaining (first :: rest) = .ok r) :
    ∃ st, Settled net deployment node nodeId remaining st ∧ r.operations = st.operations ∧
      r.remaining = st.remaining ∧ r.network = st.network := by
  obtain ⟨st, hst, h⟩ := exceptBind_eq_ok.mp h
  cases h
  refine ⟨st, ?_, ?_, rfl, rfl⟩
  · rw [List.foldlM_cons] at hst
    obtain ⟨st₁, hone, hrest⟩ := exceptBind_eq_ok.mp hst
    obtain ⟨n, hn, hone⟩ := exceptBind_eq_ok.mp hone
    obtain rfl := Except.ok.inj (hload.symm.trans hn)
    change releaseOn v true deployment nodeId (.network (releaseIps nodeId net [])) _ first = _ at hone
    exact releaseRest_settles hloaded hplaced hid hids rfl
      (fun op hop => absurd hop List.not_mem_nil) hone hrest hnothing
  · unfold MachineNetwork.operations
    rw [List.map_map]
    exact List.map_id _

/-! The whole deletion. -/

/-- The operations, with the update of what remains of the machines' deployment. -/
def settledOperations (d : Deployment) (numberOfWorkloads : Nat) (st : Release) :
    List (Deployment × Operations) :=
  st.operations ++ if st.remaining.length ≠ 0 ∧ st.remaining.length < numberOfWorkloads then
    [({ d with workloads := st.remaining }, .update)] else []

theorem lastUpdate_operations {isKnown : Bool} {numberOfWorkloads : Nat} {r : MachineNetwork}
    {ts : List TwinDeployment} (hnetwork : r.network = some (.network n))
    (h : lastUpdate isKnown nodeId numberOfWorkloads deployment r = .ok ts) :
    ts.map (fun t => (t.deployment, t.operation)) = r.operations ++
      if r.remaining.length ≠ 0 ∧ r.remaining.length < numberOfWorkloads then
        [({ deployment with workloads := r.remaining }, .update)] else [] := by
  unfold lastUpdate at h
  rw [hnetwork] at h
  dsimp only at h
  split_ifs at h with hsome
  · obtain ⟨n', -, h⟩ := exceptBind_eq_ok.mp h
    cases h
    rw [if_pos hsome, List.map_append, List.map_map]
    rfl
  · cases h
    rw [if_neg hsome, List.append_nil]
    rfl

/-- Of the deployment of the machines something goes, the network workload at least. -/
theorem Settled.remaining_length {d : Deployment} (h : Settled net d node nodeId remaining st)
    (hplaced : Placed net d remaining node) (hown : node.contractId = d.contractId) :
    st.remaining.length < remaining.length := by
  obtain ⟨w, hw, hname⟩ := hplaced.kept hown.symm
  refine lt_of_le_of_ne h.sublist.length_le fun hlength => ?_
  rw [← h.sublist.eq_of_length hlength] at hw
  exact (h.own hown).1 w hw hname

theorem filterWorkloads_sublist {d : Deployment} {names : List String} {types : List WorkloadTypes}
    {machines : List Workload} (h : filterWorkloads d names types = .ok (remaining, machines)) :
    remaining.Sublist d.workloads := by
  unfold filterWorkloads at h
  split_ifs at h with hnil
  · cases h
    exact List.filter_sublist
  · obtain ⟨collected, -, hok⟩ := exceptBind_eq_ok.mp h
    cases hok
    exact List.filter_sublist

theorem Settled.takenOut {d : Deployment} {k : Nat} {ts : List TwinDeployment}
    (h : Settled net d node nodeId remaining st) (hnodes : (net.nodes.map (·.nodeId)).Nodup)
    (hcontracts : (net.nodes.map (·.contractId)).Nodup)
    (hsome : ∀ x ∈ net.nodes, x.contractId ≠ some 0) (hplaced : Placed net d remaining node)
    (hid : node.nodeId = some nodeId) (hk : remaining.length ≤ k)
    (hts : ts.map (fun t => (t.deployment, t.operation)) = settledOperations d k st) :
    TakenOut net nodeId d ts := by
  have hops : ∀ t ∈ ts, Concerns net nodeId d st.remaining (t.deployment, t.operation) ∨
      (t.deployment, t.operation) = ({ d with workloads := st.remaining }, .update) := by
    intro t ht
    have hin : (t.deployment, t.operation) ∈ settledOperations d k st :=
      hts ▸ List.mem_map_of_mem (f := fun t => (t.deployment, t.operation)) ht
    rcases List.mem_append.mp hin with hin | hin
    · exact Or.inl (h.operations _ hin)
    · split_ifs at hin
      · exact Or.inr (List.mem_singleton.mp hin)
      · cases hin
  have hemitted : ∀ op ∈ settledOperations d k st,
      ∃ t ∈ ts, t.deployment.contractId = op.1.contractId := by
    intro op hop
    rw [← hts] at hop
    obtain ⟨t, ht, rfl⟩ := List.mem_map.mp hop
    exact ⟨t, ht, rfl⟩
  have hown : ∀ x ∈ net.nodes, x.contractId = d.contractId → x = node := fun x hx hxd =>
    List.inj_on_of_nodup_map hnodes hx hplaced.member (hplaced.own x hx hxd)
  have hsame : ∀ x ∈ net.nodes, ∀ y ∈ net.nodes, x.contractId = y.contractId → x = y :=
    fun x hx y hy => List.inj_on_of_nodup_map hcontracts hx hy
  have hgone : node ∉ stayingNodes net nodeId := fun hin => nodeId_of_staying hin hid
  refine ⟨fun x hx t ht hcontract => ?_, fun x hx hnot => ⟨?_, fun t ht hcontract => ?_⟩,
    fun t ht => ?_⟩
  · have hmem := stayingNodes_sublist.subset hx
    have hnotOwn : d.contractId ≠ x.contractId := fun heq => hgone (hown x hmem heq.symm ▸ hx)
    rcases hops t ht with hop | hop
    · cases hop with
      | machines hop _ => exact hnotOwn ((congrArg (·.1.contractId) hop).symm.trans hcontract)
      | leaver gone hin hleft _ hop =>
        exact hleft (hsame gone hin x hmem (hop.1.symm.trans hcontract) ▸ hx)
      | nowhere hop => exact hsome x hmem (hcontract.symm.trans hop)
    · exact hnotOwn ((congrArg (·.1.contractId) hop).symm.trans hcontract)
  · by_cases hxd : x.contractId = d.contractId
    · obtain rfl := hown x hx hxd
      have hlength : st.remaining.length < k :=
        lt_of_lt_of_le (h.remaining_length hplaced hxd) hk
      by_cases hnil : st.remaining = []
      · obtain ⟨t, ht, hcontract⟩ := hemitted _ (List.mem_append_left _ ((h.own hxd).2 hnil))
        exact ⟨t, ht, hcontract.trans hxd.symm⟩
      · have hupdate : ({ d with workloads := st.remaining }, Operations.update) ∈
            settledOperations d k st := by
          apply List.mem_append_right
          rw [if_pos ⟨fun hzero => hnil (List.length_eq_zero_iff.mp hzero), hlength⟩]
          exact List.mem_singleton_self _
        obtain ⟨t, ht, hcontract⟩ := hemitted _ hupdate
        exact ⟨t, ht, hcontract.trans hxd.symm⟩
    · obtain ⟨op, hop, hopid⟩ := h.taken x hx hnot hxd
      obtain ⟨t, ht, hcontract⟩ := hemitted op (List.mem_append_left _ hop)
      exact ⟨t, ht, hcontract.trans hopid⟩
  · refine ⟨hcontract, ?_⟩
    rcases hops t ht with hop | hop
    · cases hop with
      | machines hop _ => exact Or.inl (congrArg Prod.snd hop)
      | leaver gone hin _ _ hop =>
        obtain rfl := hsame gone hin x hx (hop.1.symm.trans hcontract)
        exact hop.2
      | nowhere hop => exact absurd (hcontract.symm.trans hop) (hsome x hx)
    · have hxd : x.contractId = d.contractId :=
        hcontract.symm.trans (congrArg (·.1.contractId) hop)
      obtain rfl := hown x hx hxd
      refine Or.inr ⟨congrArg Prod.snd hop, ?_⟩
      show ∀ w ∈ t.deployment.workloads, w.name ≠ net.name
      rw [show t.deployment = { d with workloads := st.remaining } from congrArg Prod.fst hop]
      exact (h.own hxd).1
  · rcases hops t ht with hop | hop
    · cases hop with
      | machines hop _ => exact Or.inl (congrArg (·.1.contractId) hop)
      | leaver gone hin _ _ hop => exact Or.inr (Or.inr ⟨gone, hin, hop.1⟩)
      | nowhere hop => exact Or.inr (Or.inl hop)
    · exact Or.inl (congrArg (·.1.contractId) hop)

/-- What `_delete` emits when the node of the machines leaves: of the nodes that leave, the network
workload is taken out, and no other node of the network is concerned. -/
theorem delete_takenOut {load : Bool → String → String → Except GridError AnyNetwork}
    {d : Deployment} {names : List String} {types : List WorkloadTypes}
    {first : Workload} {rest : List Workload} {ts : List TwinDeployment}
    (hloaded : FreshlyLoaded v net) (hids : ∀ x ∈ net.nodes, x.nodeId ≠ none)
    (hcontracts : (net.nodes.map (·.contractId)).Nodup)
    (hsome : ∀ x ∈ net.nodes, x.contractId ≠ some 0)
    (hplaced : Placed net d remaining node) (hid : node.nodeId = some nodeId)
    (hdecoded : fromObj v deployment = .ok d)
    (hfilter : filterWorkloads d names types = .ok (remaining, first :: rest))
    (hload : loadNetwork load first = .ok (.network net))
    (hnothing : NothingNeeds net nodeId (machineIps (first :: rest)))
    (h : delete v load true (.ok nodeId) deployment names types = .ok ts) :
    TakenOut net nodeId d ts := by
  unfold delete at h
  split_ifs at h
  · cases h
  obtain ⟨id, hnodeId, h⟩ := exceptBind_eq_ok.mp h
  obtain rfl := Except.ok.inj hnodeId
  obtain ⟨d', hd', h⟩ := exceptBind_eq_ok.mp h
  obtain rfl := Except.ok.inj (hdecoded.symm.trans hd')
  obtain ⟨⟨remaining', machines⟩, hfilter', h⟩ := exceptBind_eq_ok.mp h
  cases hfilter.symm.trans hfilter'
  obtain ⟨r, hr, h⟩ := exceptBind_eq_ok.mp h
  obtain ⟨last, hlast, h⟩ := exceptBind_eq_ok.mp h
  cases h
  obtain ⟨st, hst, hops, hremaining, hnetwork⟩ :=
    deleteMachineNetwork_settles hloaded hplaced hid hids hload hnothing hr
  obtain ⟨n, hn, -⟩ := hst.network
  have hemitted := lastUpdate_operations (hnetwork.trans hn) hlast
  rw [hops, hremaining] at hemitted
  have hlength : remaining.length ≤ deployment.workloads.length := by
    refine (filterWorkloads_sublist hfilter).length_le.trans (le_of_eq ?_)
    rw [(fromObj_eq hdecoded).1, List.length_map]
  refine hst.takenOut hloaded.nodes hcontracts hsome hplaced hid hlength ?_
  rw [if_neg (fun hnone => absurd hnone.2 (Nat.succ_ne_zero _)), List.nil_append]
  exact hemitted

end

end ThreefoldSdk.HighLevel
