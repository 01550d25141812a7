import ThreefoldSdk.HighLevel.VmOutline

/-! The ips that users ask for: when `VMHL.create` accepts exactly those that are usable. -/

namespace ThreefoldSdk.HighLevel
open Zos Primitives Ipv4 FirstFree Frame

/-- Whether `create` accepts the ip that is asked for, by the checks of its subnet and of the ip;
nothing when another part fails between them. -/
def verdict (env : VmNetworkEnv) (o : VmNetworkOptions) (s : Session) : Option Bool :=
  match userSubnet o s with
  | .error _ _ => some false
  | .ok subnet s₁ =>
    match joinNetwork env o subnet s₁ with
    | .error _ _ => none
    | .ok _ s₂ => some (returned (machineIp o s₂))

/-- The network is in the range. -/
def InRange (n : Network) (net : Addr) : Prop :=
  ∃ range, parse n.ipRange = some range ∧ range.contains net = true

/-- The subnet of the node contains the address. -/
def InSubnet (n : Network) (nodeId : Nat) (a : Addr) : Prop :=
  ∃ text net, n.getNodeSubnet nodeId = some text ∧ parse text = some net ∧ net.contains a = true

/-- The address is of the node's subnet and not reserved there; or, for a node that is not in the
network, its `/24` is in the range and held by no node or access point. -/
def Usable (n : Network) (nodeId : Nat) (a : Addr) : Prop :=
  if n.nodeExists nodeId = true then
    InSubnet n nodeId a ∧ plainText a ∉ n.getNodeReservedIps nodeId
  else InRange n (a.mask 24) ∧ some (a.mask 24) ∉ n.held.map parse

/-- The ip is accepted exactly when it is usable, and then it is in the subnet of its node. -/
structure RightlyJudged (env : VmNetworkEnv) (o : VmNetworkOptions) (a : Addr) (s : Session) :
    Prop where
  accepted_iff : verdict env o s = some true ↔ Usable s.network o.nodeId a
  contained : verdict env o s = some true →
    InSubnet (after (vmNetwork env o) s).network o.nodeId a

/-- The subnets are plainly written networks of length 24, and every node has one. -/
structure PlainSubnets (n : Network) : Prop where
  subnets : ∀ t ∈ n.held, ∃ a : Addr, a.len = 24 ∧ t = a.toText
  nodes : ∀ node ∈ n.nodes, ∀ nodeId, node.nodeId = some nodeId → n.nodeExists nodeId = true

/-- The access nodes that are offered, without one in the network, let the random choice fall on
the node of the machine. -/
def DrawnAsAccessNode (env : VmNetworkEnv) (o : VmNetworkOptions) (s : Session) : Prop :=
  .wireguard ∈ env.features ∧ o.addAccess = true ∧ o.accessNodeId = 0 ∧
    ∃ offered, env.network.accessNodes s.clock = .ok offered ∧
      (∀ p ∈ offered, s.network.nodeExists p.1 = false) ∧
      let filtered := (offered.filter fun p => p.2.ipv4 ≠ "").map Prod.fst
      filtered[env.network.random (s.clock + 1) % filtered.length]? = some o.nodeId

/-- In the network already, the node may not have the address; otherwise the `/24` is held, or it
is in the range exactly when it is not reserved and the node does not become the access node. -/
def SubnetDecides (env : VmNetworkEnv) (o : VmNetworkOptions) (a : Addr) (s : Session) : Prop :=
  if s.network.nodeExists o.nodeId = true then ¬Usable s.network o.nodeId a
  else (a.mask 24).toText ∈ s.network.held ∨
    (InRange s.network (a.mask 24) ↔
      (a.mask 24).toText ∉ s.network.reservedSubnets ∧ ¬DrawnAsAccessNode env o s)

/-! The place of a node, and what leaves it. -/

/-- The subnet of the node in the network, and its entry among the nodes. -/
def place (nodeId : Nat) (n : Network) : Option String × Option Node :=
  ((networkOutline n).subnetOf nodeId,
    (networkOutline n).nodes.find? fun node => node.nodeId = some nodeId)

theorem place_of_outline {nodeId : Nat} {n n' : Network} (h : networkOutline n' = networkOutline n) :
    place nodeId n' = place nodeId n := by
  unfold place
  rw [h]

theorem getNodeSubnet_of_place {nodeId : Nat} {n n' : Network}
    (h : place nodeId n' = place nodeId n) :
    n'.getNodeSubnet nodeId = n.getNodeSubnet nodeId := by
  rw [getNodeSubnet_outline, getNodeSubnet_outline]
  exact congrArg Prod.fst h

theorem nodeExists_of_place {nodeId : Nat} {n n' : Network}
    (h : place nodeId n' = place nodeId n) : n'.nodeExists nodeId = n.nodeExists nodeId := by
  rw [nodeExists_outline, nodeExists_outline, ← getNodeSubnet_outline, ← getNodeSubnet_outline,
    getNodeSubnet_of_place h]

/-- A node that is not there yet gets its place at the end. -/
theorem place_push {nodeId k : Nat} {t : String} {n n' : Network}
    (h : networkOutline n' = (networkOutline n).push k t) :
    place nodeId n' = if k = nodeId then
      ((place nodeId n).1.or (some t), (place nodeId n).2.or (some (Node.fresh (some k))))
    else place nodeId n := by
  unfold place
  rw [h]
  unfold Outline.push Outline.subnetOf
  dsimp only
  rw [List.find?_append, List.find?_append, Option.map_or]
  by_cases hk : k = nodeId
  · rw [if_pos hk, List.find?_cons_of_pos (by simp [hk]),
      List.find?_cons_of_pos (by simp [Node.fresh, hk])]
    rfl
  · rw [if_neg hk, List.find?_cons_of_neg (by simp [hk]),
      List.find?_cons_of_neg (by simp [Node.fresh, hk]), List.find?_nil, List.find?_nil,
      Option.map_none, Option.or_none, Option.or_none]

/-! The parts of `create`. -/

section
variable {env : VmNetworkEnv} {o : VmNetworkOptions} {a : Addr} {n : Network} {s s' : Session}

/-- The session once a subnet is reserved. -/
def reservedIn (t : String) (s : Session) : Session :=
  { s with network :=
    { s.network with reservedSubnets := s.network.reservedSubnetsOf ++ [t] } }

theorem toText_ne_empty (a : Addr) : a.toText ≠ "" := ne_empty_of_parse (parse_toText a)

theorem toText_reserved_iff (a : Addr) :
    a.toText ∈ n.reservedSubnetsOf ↔ a.toText ∈ n.taken :=
  ⟨mem_reservedSubnetsOf, fun h => reservedSubnetsOf_of_mem h (toText_ne_empty a)⟩

theorem plainText_ne_empty (ha : a.len = 32) : plainText a ≠ "" :=
  ne_empty_of_parse (readAddr_plainText ha)

/-- The `/24` is refused exactly when it is taken. -/
theorem userSubnet_eq (ha : a.len = 32) (hip : o.ip = plainText a) (s : Session) :
    ((a.mask 24).toText ∈ s.network.taken ∧ ∃ e, userSubnet o s = .error e (noted s)) ∨
      ((a.mask 24).toText ∉ s.network.taken ∧
        userSubnet o s = .ok (a.mask 24).toText (reservedIn (a.mask 24).toText s)) := by
  have hstart : userSubnet o s = validateFreeSubnet (a.mask 24).toText s := by
    unfold userSubnet
    rw [hip, if_neg (plainText_ne_empty ha), addr, readAddr_plainText ha]
    rfl
  have hcheck : validateFreeSubnet (a.mask 24).toText s =
      (if (a.mask 24).toText ∈ s.network.reservedSubnetsOf then
        throw (.validation s!"subnet {(a.mask 24).toText} is not free.")
      else do
        reserveSubnet (a.mask 24).toText
        return (a.mask 24).toText : NetM String) (noted s) := by
    unfold validateFreeSubnet
    rw [bind_of_ok (getReservedSubnets_eq s)]
    split <;> rfl
  rw [hstart, hcheck]
  by_cases htaken : (a.mask 24).toText ∈ s.network.taken
  · rw [if_pos ((toText_reserved_iff _).mpr htaken)]
    exact Or.inl ⟨htaken, _, rfl⟩
  · rw [if_neg ((toText_reserved_iff _).not.mpr htaken)]
    exact Or.inr ⟨htaken, rfl⟩

/-- A free subnet has length 24 and is not taken. -/
theorem freeSubnet_ok {b : Addr} (h : n.freeSubnet = .ok b) : b.len = 24 ∧ b.toText ∉ n.taken := by
  obtain ⟨range, -, h⟩ := exceptBind_eq_ok.mp h
  obtain ⟨first, hfirst, h⟩ := exceptBind_eq_ok.mp h
  cases hsearch : search Addr.nextSibling (fun a => decide (a.toText ∈ n.reservedSubnetsOf))
      (n.reservedSubnetsOf.length + 1) first with
  | none =>
    rw [hsearch] at h
    cases h
  | some c =>
    rw [hsearch] at h
    obtain rfl : c = b := Except.ok.inj h
    obtain ⟨k, -, hfollow, hfree, -⟩ := search_eq_some_iff.mp hsearch
    refine ⟨?_, (toText_reserved_iff _).not.mp (of_decide_eq_false hfree)⟩
    rw [(follow_eq_some_iff.mp hfollow).1]
    -- the first subnet is the second one after the first /24 of the range
    unfold firstSubnet at hfirst
    cases hnext : (range.mask 24).nextSibling.bind Addr.nextSibling with
    | none =>
      rw [hnext] at hfirst
      cases hfirst
    | some x =>
      rw [hnext] at hfirst
      cases hfirst
      obtain ⟨y, hy, hx⟩ := Option.bind_eq_some_iff.mp hnext
      rw [(nextSibling_eq_some_iff.mp hx).1, (nextSibling_eq_some_iff.mp hy).1]
      rfl

theorem accessSubnet_ok {u : String} (hip : o.ip ≠ "") (h : accessSubnet env o s = .ok u s') :
    unreserved s' = unreserved s ∧ s'.clock = s.clock ∧
      (.wireguard ∈ env.features → ∃ b : Addr, b.len = 24 ∧ u = b.toText ∧ u ∉ s.network.taken) := by
  unfold accessSubnet at h
  by_cases hwireguard : .wireguard ∈ env.features
  · rw [if_pos ⟨hip, hwireguard⟩, getFreeSubnet_eq] at h
    obtain ⟨b, s₁, hpick, h⟩ := bind_eq_ok.mp h
    obtain ⟨hfree, rfl⟩ := pureStep_eq_ok.mp hpick
    cases h
    obtain ⟨hlen, hnew⟩ := freeSubnet_ok hfree
    exact ⟨rfl, rfl, fun _ => ⟨b, hlen, rfl, hnew⟩⟩
  · rw [if_neg fun hboth => hwireguard hboth.2] at h
    cases h
    exact ⟨rfl, rfl, fun h => absurd h hwireguard⟩

/-- The choice depends on the networks and the number of the request only. -/
theorem drawn_congr (hclock : s'.clock = s.clock)
    (hnetworks : s'.network.networks = s.network.networks) :
    DrawnAsAccessNode env o s' ↔ DrawnAsAccessNode env o s := by
  unfold DrawnAsAccessNode Network.nodeExists
  rw [hclock, hnetworks]

/-- The access node that is needed is the machine's own node exactly when the choice falls on it. -/
theorem neededAccessNode_ok {k : Option Nat} {hasAccessNode : Bool}
    (h : neededAccessNode env o s = .ok (k, hasAccessNode) s') :
    (k = some o.nodeId ↔ DrawnAsAccessNode env o s) ∧ (k ≠ none → .wireguard ∈ env.features) := by
  unfold neededAccessNode at h
  by_cases hasked : .wireguard ∈ env.features ∧ o.addAccess = true
  · refine ⟨?_, fun _ => hasked.1⟩
    rw [if_pos hasked] at h
    obtain ⟨offered, s₁, hoffered, h⟩ := bind_eq_ok.mp h
    obtain ⟨hanswer, rfl⟩ := capacityAccessNodes_ok hoffered
    obtain ⟨_, s₂, hget, h⟩ := bind_eq_ok.mp h
    cases hget
    -- without an access node in the network, and a node that was not given as one
    by_cases hneeded : (offered.any fun p => s.network.nodeExists p.1) = true ∨
        (o.nodeId ∈ offered.map Prod.fst ∧ o.accessNodeId ≠ 0 ∧ o.nodeId = o.accessNodeId)
    · rw [if_pos hneeded] at h
      cases h
      refine iff_of_false (by simp) ?_
      rintro ⟨-, -, hnone, offered', hanswer', hnew, hdrawn⟩
      obtain rfl : offered = offered' := Except.ok.inj (hanswer.symm.trans hanswer')
      rcases hneeded with hany | ⟨-, hgiven, -⟩
      · obtain ⟨p, hp, hexists⟩ := List.any_eq_true.mp hany
        rw [hnew p hp] at hexists
        cases hexists
      · exact hgiven hnone
    · rw [if_neg hneeded] at h
      obtain ⟨picked, s₃, hpick, h⟩ := bind_eq_ok.mp h
      cases h
      rw [not_or] at hneeded
      have hnew : ∀ p ∈ offered, s.network.nodeExists p.1 = false := by
        intro p hp
        by_contra hexists
        exact hneeded.1 (List.any_eq_true.mpr ⟨p, hp, Bool.not_eq_false _ ▸ hexists⟩)
      constructor
      · intro hk
        obtain rfl := Option.some.inj hk
        rcases pickAccessNode_ok hpick with ⟨hnone, hdrawn⟩ | ⟨hne, hgiven, hin⟩
        · exact ⟨hasked.1, hasked.2, hnone, offered, hanswer, hnew, hdrawn⟩
        · obtain ⟨p, hp, hid⟩ := List.mem_map.mp hin
          have hoffered : o.nodeId ∈ offered.map Prod.fst :=
            List.mem_map.mpr ⟨p, (List.mem_filter.mp hp).1, hid⟩
          exact absurd ⟨hoffered, hne, hgiven⟩ hneeded.2
      · rintro ⟨-, -, hnone, offered', hanswer', -, hdrawn⟩
        obtain rfl : offered = offered' := Except.ok.inj (hanswer.symm.trans hanswer')
        rcases pickAccessNode_ok hpick with ⟨-, hdrawn'⟩ | ⟨hgiven, -⟩
        · exact hdrawn'.symm.trans hdrawn
        · exact absurd hnone hgiven
  · rw [if_neg hasked] at h
    cases h
    refine ⟨iff_of_false (by simp) fun hdrawn => hasked ⟨hdrawn.1, hdrawn.2.1⟩, ?_⟩
    exact fun hne => absurd rfl hne

/-- What adding a node leaves of a place. -/
structure Joins (nodeId k : Nat) (subnet : String) (n n' : Network) : Prop where
  kept : n.nodeExists k = true ∨ k ≠ nodeId → place nodeId n' = place nodeId n
  joined : place nodeId n = (none, none) → k = nodeId → subnet ≠ "" →
    place nodeId n' = (some subnet, some (Node.fresh (some nodeId)))

theorem joins_addNode {env : NetworkEnv} {nodeId k : Nat} {mycelium : Bool}
    {description subnet : String} {seeds : List MyceliumNetworkModel} {w : Option Workload}
    (h : addNode env k mycelium description subnet seeds s = .ok w s') :
    Joins nodeId k subnet s.network s'.network := by
  rcases outline_addNode h with ⟨hexists, -, rfl⟩ | ⟨hnew, -, t, hgiven, houtline⟩
  · refine ⟨fun _ => rfl, fun hnone hk _ => ?_⟩
    have hsubnet : (networkOutline s'.network).subnetOf nodeId = none := congrArg Prod.fst hnone
    rw [nodeExists_outline, hk, hsubnet] at hexists
    cases hexists
  · have hplace := @place_push nodeId _ _ _ _ houtline
    constructor
    · rintro (hexists | hk)
      · rw [hexists] at hnew
        cases hnew
      · rw [hplace, if_neg hk]
    · intro hnone hk hne
      rw [hplace, if_pos hk, hnone, hgiven hne, hk]
      rfl

theorem joins_addAccessNode {k : Nat} {subnet : String} {nodeId : Nat}
    {r : Option (Nat × Workload) × String} (h : addAccessNode env o subnet (some k) s = .ok r s') :
    Joins nodeId k subnet s.network s'.network := by
  obtain ⟨w, s₁, hadd, h⟩ := bind_eq_ok.mp h
  obtain ⟨text, s₂, haccess, h⟩ := bind_eq_ok.mp h
  cases h
  obtain ⟨hkept, hjoined⟩ : Joins nodeId k subnet s.network s₁.network := joins_addNode hadd
  rw [← place_of_outline (outline_addAccess haccess)] at hkept hjoined
  exact ⟨hkept, hjoined⟩

/-- A node of the network keeps its place; another one gets the subnet of the user, unless it was
drawn as access node. -/
theorem joinNetwork_place {t : String} {r : List NetworkOperation × String} (hip : o.ip ≠ "")
    (ht : t ≠ "") (h : joinNetwork env o t s = .ok r s') :
    (s.network.nodeExists o.nodeId = true →
      s'.network.getNodeSubnet o.nodeId = s.network.getNodeSubnet o.nodeId) ∧
    (place o.nodeId s.network = (none, none) → ∃ u,
      place o.nodeId s'.network = (some u, some (Node.fresh (some o.nodeId))) ∧
      (¬DrawnAsAccessNode env o s → u = t) ∧
      (DrawnAsAccessNode env o s → ∃ b : Addr, b.len = 24 ∧ u = b.toText ∧ u ∉ s.network.taken)) := by
  obtain ⟨u, s₁, hsubnet, h⟩ := bind_eq_ok.mp h
  obtain ⟨hunreserved, hclock, hu⟩ := accessSubnet_ok hip hsubnet
  obtain ⟨⟨k, hasAccessNode⟩, s₂, hneeded, h⟩ := bind_eq_ok.mp h
  have hnetwork : s₂.network = s₁.network := keeps_neededAccessNode.of_ok hneeded
  obtain ⟨hdrawn, hwireguard⟩ := neededAccessNode_ok hneeded
  have hnetworks : (unreserved s₁).networks = (unreserved s).networks := by rw [hunreserved]
  rw [drawn_congr hclock hnetworks] at hdrawn
  have hbefore : place o.nodeId s₂.network = place o.nodeId s.network := by
    have hplace : place o.nodeId (unreserved s₁) = place o.nodeId (unreserved s) := by
      rw [hunreserved]
    rw [hnetwork]
    exact hplace
  obtain ⟨⟨accessWorkload, wgConfig⟩, s₃, haccess, h⟩ := bind_eq_ok.mp h
  obtain ⟨mycelium, s₄, hmycelium, h⟩ := bind_eq_ok.mp h
  obtain ⟨znet, s₅, hadd, h⟩ := bind_eq_ok.mp h
  obtain ⟨clock, s₆, hrequest, h⟩ := bind_eq_ok.mp h
  obtain ⟨⟨joined, wgConfig'⟩, s₇, hjoined, h⟩ := bind_eq_ok.mp h
  obtain ⟨access, s₈, hdeploy, h⟩ := bind_eq_ok.mp h
  cases h
  have hmiddle : place o.nodeId s₄.network = place o.nodeId s₃.network :=
    place_of_outline (keeps_outline_myceliumOperation.of_ok hmycelium)
  -- nothing after the node is added changes its place
  have hrest : place o.nodeId s'.network = place o.nodeId s₅.network := by
    have h₈ : s'.network = s₇.network := (keeps_deployAccessNode _).of_ok hdeploy
    have h₆ : s₆.network = s₅.network := (keeps_request.comp Session.network).of_ok hrequest
    rw [h₈, place_of_outline (outline_addedOperations hjoined), h₆]
  obtain ⟨hkept, hnew⟩ := (joins_addNode hadd : Joins o.nodeId _ _ _ _)
  have haccessKept : s.network.nodeExists o.nodeId = true ∨ k ≠ some o.nodeId →
      place o.nodeId s₄.network = place o.nodeId s.network := by
    intro hor
    rw [hmiddle, ← hbefore]
    cases k with
    | none =>
      cases haccess
      rfl
    | some i =>
      obtain ⟨hkept', -⟩ := (joins_addAccessNode haccess : Joins o.nodeId _ _ _ _)
      apply hkept'
      by_cases hi : i = o.nodeId
      · left
        rw [hi, nodeExists_of_place hbefore]
        exact hor.resolve_right fun hne => hne (congrArg some hi)
      · exact Or.inr hi
  constructor
  · intro hexists
    have h₄ := haccessKept (Or.inl hexists)
    have h₅ : place o.nodeId s₅.network = place o.nodeId s₄.network := by
      apply hkept
      rw [nodeExists_of_place h₄]
      exact Or.inl hexists
    exact getNodeSubnet_of_place (hrest.trans (h₅.trans h₄))
  · intro hnone
    rw [hrest]
    by_cases hdraw : DrawnAsAccessNode env o s
    · obtain rfl := hdrawn.mpr hdraw
      obtain ⟨b, hlen, rfl, hfree⟩ := hu (hwireguard (by simp))
      obtain ⟨-, hjoined'⟩ := (joins_addAccessNode haccess : Joins o.nodeId _ _ _ _)
      have h₃ := hjoined' (hbefore.trans hnone) rfl (toText_ne_empty b)
      have hexists : s₄.network.nodeExists o.nodeId = true := by
        rw [nodeExists_outline]
        exact congrArg (fun p => p.1.isSome) (hmiddle.trans h₃)
      refine ⟨b.toText, ?_, fun hnot => absurd hdraw hnot, fun _ => ⟨b, hlen, rfl, hfree⟩⟩
      rw [hkept (Or.inl hexists), hmiddle, h₃]
    · have h₄ := haccessKept (Or.inr (hdrawn.not.mpr hdraw))
      exact ⟨t, hnew (h₄.trans hnone) rfl ht, fun _ => rfl, fun h => absurd h hdraw⟩

/-- `validateUserIP` accepts an address of the node's subnet that is not reserved there. -/
theorem validateUserIP_ok_iff {nodeId : Nat} (ha : a.len = 32) :
    (∃ r, n.validateUserIP nodeId (plainText a) = .ok r) ↔
      plainText a ∉ n.getNodeReservedIps nodeId ∧ InSubnet n nodeId a := by
  unfold Network.validateUserIP
  by_cases hreserved : plainText a ∈ n.getNodeReservedIps nodeId
  · rw [if_pos hreserved]
    exact iff_of_false (fun ⟨r, hr⟩ => nomatch hr) fun h => h.1 hreserved
  · rw [if_neg hreserved, addr, readAddr_plainText ha]
    constructor
    · rintro ⟨r, hr⟩
      obtain ⟨a', ha', hr⟩ := exceptBind_eq_ok.mp hr
      cases ha'
      obtain ⟨text, htext, hr⟩ := exceptBind_eq_ok.mp hr
      obtain ⟨net, hnet, hr⟩ := exceptBind_eq_ok.mp hr
      refine ⟨hreserved, text, net, ?_, ?_, ?_⟩
      · cases hsubnet : n.getNodeSubnet nodeId with
        | none =>
          rw [hsubnet] at htext
          cases htext
        | some t =>
          rw [hsubnet] at htext
          cases htext
          rfl
      · unfold addr at hnet
        split at hnet
        · rename_i b hb
          cases hnet
          exact hb
        · cases hnet
      · by_contra hout
        rw [Bool.eq_false_iff.mpr hout] at hr
        cases hr
    · rintro ⟨-, text, net, htext, hnet, hin⟩
      rw [htext]
      simp only [notNull, addr, readAddr_eq_parse, hnet, hin, bind, Except.bind]
      cases reserveOn nodeId (plainText a) n.nodes with
      | none => exact ⟨_, rfl⟩
      | some nodes => exact ⟨_, rfl⟩

/-- The ip of the machine is taken exactly when it may be, and the subnets stay. -/
theorem machineIp_returned (ha : a.len = 32) (hip : o.ip = plainText a) (s : Session) :
    (returned (machineIp o s) = true ↔
      plainText a ∉ s.network.getNodeReservedIps o.nodeId ∧ InSubnet s.network o.nodeId a) ∧
    (after (machineIp o) s).network.networks = s.network.networks := by
  have hget : (get : NetM Session) s = .ok s s := rfl
  have hne : o.ip ≠ "" := by
    rw [hip]
    exact plainText_ne_empty ha
  rw [← validateUserIP_ok_iff ha]
  unfold machineIp
  rw [bind_of_ok hget, after_bind_of_ok hget, if_neg hne, hip]
  cases hcheck : s.network.validateUserIP o.nodeId (plainText a) with
  | error e => exact ⟨iff_of_false Bool.false_ne_true (fun ⟨r, hr⟩ => nomatch hr), rfl⟩
  | ok r =>
    obtain ⟨nodes, hnodes⟩ := validateUserIP_ok hcheck
    refine ⟨iff_of_true rfl ⟨r, rfl⟩, ?_⟩
    change r.2.networks = _
    rw [hnodes]

/-- A `/24` that contains the address is its mask. -/
theorem eq_mask_of_contains {b : Addr} (hb : b.len = 24) (h : b.contains a = true) :
    b = a.mask 24 := by
  have hin := of_decide_eq_true h
  rw [Addr.size_of_subnet hb] at hin
  obtain ⟨k, hk⟩ := b.aligned
  rw [hb] at hk
  have hmask : (a.mask 24).base = a.base / 2 ^ 8 * 2 ^ 8 := rfl
  refine Addr.ext ?_ hb
  rw [hmask]
  omega

theorem contains_mask (ha : a.len = 32) : (a.mask 24).contains a = true := by
  have hmask : (a.mask 24).base = a.base / 2 ^ 8 * 2 ^ 8 := rfl
  have hlen : (a.mask 24).len = 24 := rfl
  refine decide_eq_true ⟨by omega, by omega, ?_⟩
  rw [Addr.size_of_subnet hlen]
  omega

/-! What is accepted. -/

theorem inSubnet_congr {n' : Network} {nodeId : Nat}
    (h : n'.getNodeSubnet nodeId = n.getNodeSubnet nodeId) :
    InSubnet n' nodeId a ↔ InSubnet n nodeId a := by
  unfold InSubnet
  rw [h]

theorem verdict_eq_true_iff (ha : a.len = 32) (hip : o.ip = plainText a) :
    verdict env o s = some true ↔ (a.mask 24).toText ∉ s.network.taken ∧ ∃ r s₂,
      joinNetwork env o (a.mask 24).toText (reservedIn (a.mask 24).toText s) = .ok r s₂ ∧
      plainText a ∉ s₂.network.getNodeReservedIps o.nodeId ∧ InSubnet s₂.network o.nodeId a := by
  unfold verdict
  rcases userSubnet_eq ha hip s with ⟨htaken, e, herror⟩ | ⟨hfree, hok⟩
  · rw [herror]
    exact iff_of_false (by simp) fun h => h.1 htaken
  · rw [hok]
    dsimp only
    cases hjoin : joinNetwork env o (a.mask 24).toText (reservedIn (a.mask 24).toText s) with
    | error e s₂ => exact iff_of_false (by simp) fun ⟨_, _, _, hr, _⟩ => nomatch hr
    | ok r s₂ =>
      dsimp only
      rw [Option.some.injEq, (machineIp_returned ha hip s₂).1]
      constructor
      · intro hip
        exact ⟨hfree, r, s₂, rfl, hip⟩
      · rintro ⟨-, r', s₂', heq, hip⟩
        cases heq
        exact hip

/-- A verdict is given when the subnet is refused, or the nodes were added. -/
theorem joined_of_verdict (ha : a.len = 32) (hip : o.ip = plainText a)
    (hfree : (a.mask 24).toText ∉ s.network.taken) (hv : verdict env o s ≠ none) :
    ∃ r s₂, joinNetwork env o (a.mask 24).toText (reservedIn (a.mask 24).toText s) = .ok r s₂ := by
  rcases userSubnet_eq ha hip s with ⟨htaken, -⟩ | ⟨-, hok⟩
  · exact absurd htaken hfree
  · unfold verdict at hv
    rw [hok] at hv
    dsimp only at hv
    cases hjoin : joinNetwork env o (a.mask 24).toText (reservedIn (a.mask 24).toText s) with
    | error e s₂ =>
      rw [hjoin] at hv
      exact absurd rfl hv
    | ok r s₂ => exact ⟨r, s₂, rfl⟩

theorem contained_of_accepted (ha : a.len = 32) (hip : o.ip = plainText a)
    (h : verdict env o s = some true) :
    InSubnet (after (vmNetwork env o) s).network o.nodeId a := by
  obtain ⟨hfree, ⟨ops, wgConfig⟩, s₂, hjoin, -, hin⟩ := (verdict_eq_true_iff ha hip).mp h
  rcases userSubnet_eq ha hip s with ⟨htaken, -⟩ | ⟨-, hok⟩
  · exact absurd htaken hfree
  · unfold vmNetwork
    rw [after_bind_of_ok hok, after_bind_of_ok hjoin, after_bind_pure]
    refine (inSubnet_congr ?_).mpr hin
    unfold Network.getNodeSubnet
    rw [(machineIp_returned ha hip s₂).2]

theorem PlainSubnets.mem_held_iff (h : PlainSubnets n) {b : Addr} :
    some b ∈ n.held.map parse ↔ b.toText ∈ n.held := by
  constructor
  · intro hin
    obtain ⟨t, ht, hparse⟩ := List.mem_map.mp hin
    obtain ⟨c, -, rfl⟩ := h.subnets t ht
    rw [parse_toText, Option.some.injEq] at hparse
    rw [← hparse]
    exact ht
  · intro hin
    exact List.mem_map.mpr ⟨_, hin, parse_toText b⟩

theorem mem_held_of_getNodeSubnet {nodeId : Nat} {t : String}
    (h : n.getNodeSubnet nodeId = some t) : t ∈ n.held := by
  obtain ⟨z, hz, rfl⟩ := Option.map_eq_some_iff.mp h
  exact List.mem_append_left _ (List.mem_map_of_mem (List.mem_of_find?_eq_some hz))

/-- A node of the network has the `/24` of each address in its subnet, so no ip passes there. -/
theorem not_accepted_of_exists (h : PlainSubnets s.network) (ha : a.len = 32)
    (hip : o.ip = plainText a) (hexists : s.network.nodeExists o.nodeId = true) :
    verdict env o s ≠ some true := by
  intro hv
  obtain ⟨hfree, r, s₂, hjoin, -, hin⟩ := (verdict_eq_true_iff ha hip).mp hv
  have hne : o.ip ≠ "" := by
    rw [hip]
    exact plainText_ne_empty ha
  have hsame := (joinNetwork_place hne (toText_ne_empty _) hjoin).1 hexists
  obtain ⟨t, net, ht, hnet, hcontains⟩ := (inSubnet_congr hsame).mp hin
  have hheld : t ∈ s.network.held := mem_held_of_getNodeSubnet ht
  obtain ⟨b, hlen, rfl⟩ := h.subnets t hheld
  rw [parse_toText, Option.some.injEq] at hnet
  rw [hnet] at hlen hheld
  rw [eq_mask_of_contains hlen hcontains] at hheld
  exact hfree (List.mem_append_left _ hheld)

/-- A node that is not in the network has no place there. -/
theorem PlainSubnets.no_place (h : PlainSubnets n) {nodeId : Nat} (hnew : n.nodeExists nodeId = false) :
    place nodeId n = (none, none) := by
  have hsubnet : (networkOutline n).subnetOf nodeId = none := by
    rw [nodeExists_outline] at hnew
    exact Option.isNone_iff_eq_none.mp (Option.isSome_eq_false_iff.mp hnew)
  have hnode : (networkOutline n).nodes.find? (fun node => node.nodeId = some nodeId) = none := by
    refine List.find?_eq_none.mpr fun node hnode hid => ?_
    rw [h.nodes node hnode nodeId (of_decide_eq_true hid)] at hnew
    cases hnew
  rw [place, hsubnet, hnode]

/-- On another node an ip passes when its `/24` is not taken, and the node keeps it. -/
theorem accepted_iff_of_new (h : PlainSubnets s.network) (ha : a.len = 32)
    (hip : o.ip = plainText a) (hnew : s.network.nodeExists o.nodeId = false)
    (hv : verdict env o s ≠ none) :
    verdict env o s = some true ↔
      (a.mask 24).toText ∉ s.network.taken ∧ ¬DrawnAsAccessNode env o s := by
  have hne : o.ip ≠ "" := by
    rw [hip]
    exact plainText_ne_empty ha
  have hplace : place o.nodeId (reservedIn (a.mask 24).toText s).network = (none, none) :=
    h.no_place hnew
  have hdrawn : DrawnAsAccessNode env o (reservedIn (a.mask 24).toText s) ↔
      DrawnAsAccessNode env o s := drawn_congr rfl rfl
  have hreserved : (a.mask 24).toText ∈ (reservedIn (a.mask 24).toText s).network.taken :=
    List.mem_append_right _ (List.mem_append_right _ (List.mem_singleton_self _))
  rw [verdict_eq_true_iff ha hip]
  refine and_congr_right fun hfree => ?_
  obtain ⟨r, s₂, hjoin⟩ := joined_of_verdict ha hip hfree hv
  obtain ⟨-, hjoined⟩ := joinNetwork_place hne (toText_ne_empty _) hjoin
  obtain ⟨u, hu, hown, haccess⟩ := hjoined hplace
  rw [hdrawn] at hown haccess
  have hsubnet : s₂.network.getNodeSubnet o.nodeId = some u := by
    rw [getNodeSubnet_outline]
    exact congrArg Prod.fst hu
  constructor
  · rintro ⟨r', s₂', hjoin', -, hin⟩ hdraw
    obtain ⟨-, rfl⟩ : r = r' ∧ s₂ = s₂' := by
      have heq := hjoin.symm.trans hjoin'
      exact ⟨by injection heq, by injection heq⟩
    -- the subnet of the access node was picked once the /24 was reserved
    obtain ⟨b, hlen, rfl, hfresh⟩ := haccess hdraw
    obtain ⟨t, net, ht, hnet, hcontains⟩ := hin
    obtain rfl := Option.some.inj (hsubnet.symm.trans ht)
    rw [parse_toText, Option.some.injEq] at hnet
    rw [← hnet] at hcontains
    rw [eq_mask_of_contains hlen hcontains] at hfresh
    exact hfresh hreserved
  · intro hdraw
    obtain rfl := hown hdraw
    have hnode : s₂.network.nodes.find? (fun node => node.nodeId = some o.nodeId) =
        some (Node.fresh (some o.nodeId)) := congrArg Prod.snd hu
    refine ⟨r, s₂, hjoin, ?_, _, a.mask 24, hsubnet, parse_toText _, contains_mask ha⟩
    unfold Network.getNodeReservedIps
    rw [hnode]
    exact List.not_mem_nil

/-- The ips that users ask for are judged rightly exactly when the check of the subnet decides. -/
theorem rightlyJudged_iff (h : PlainSubnets s.network) (ha : a.len = 32) (hip : o.ip = plainText a)
    (hv : verdict env o s ≠ none) : RightlyJudged env o a s ↔ SubnetDecides env o a s := by
  have hcontained : verdict env o s = some true →
      InSubnet (after (vmNetwork env o) s).network o.nodeId a := contained_of_accepted ha hip
  have hjudged : RightlyJudged env o a s ↔
      (verdict env o s = some true ↔ Usable s.network o.nodeId a) :=
    ⟨fun hj => hj.accepted_iff, fun hiff => ⟨hiff, hcontained⟩⟩
  rw [hjudged]
  unfold SubnetDecides
  by_cases hexists : s.network.nodeExists o.nodeId = true
  · rw [if_pos hexists]
    have hnot : verdict env o s ≠ some true := not_accepted_of_exists h ha hip hexists
    exact ⟨fun hiff husable => hnot (hiff.mpr husable), fun husable => iff_of_false hnot husable⟩
  · have hnew := Bool.eq_false_iff.mpr hexists
    rw [if_neg hexists, accepted_iff_of_new h ha hip hnew hv]
    unfold Usable
    rw [if_neg hexists, h.mem_held_iff, Network.taken, List.mem_append]
    by_cases hheld : (a.mask 24).toText ∈ s.network.held
    · exact iff_of_true (iff_of_false (fun hfree => hfree.1 (.inl hheld)) fun hfree => hfree.2 hheld)
        (.inl hheld)
    · simp only [hheld, false_or, not_false_eq_true, and_true]
      exact Iff.comm

end

def sampleVmEnv : VmNetworkEnv where
  network := sampleNetworkEnv
  validators := anyText
  isKnown := true
  twinId := 7
  projectName := ""
  features := [.wireguard, .network, .zmachine]

/-- A machine on the node asks for the ip. -/
def askFor (nodeId : Nat) (ip : String) : VmNetworkOptions :=
  ⟨nodeId, false, [], "", false, 0, ip, none⟩

def oneNodeSession : Session := ⟨oneNode, [], [], 0⟩

theorem oneNode_plain : PlainSubnets oneNode where
  subnets t ht := by
    rw [List.mem_singleton.mp ht]
    exact ⟨sampleSubnet, rfl, by decide +kernel⟩
  nodes node hnode nodeId hid := by
    rw [List.mem_singleton.mp hnode] at hid
    obtain rfl := Option.some.inj hid
    decide

/-- `10.1.2.7`, on the node of the network. -/
def usedSubnetIp : Addr := host 167838215 (by decide)

/-- `10.1.5.7`. -/
def newSubnetIp : Addr := host 167838983 (by decide)

/-- A node that joins gets the `/24` of the ip that is asked for. -/
theorem newSubnetIp_judged :
    RightlyJudged sampleVmEnv (askFor 13 "10.1.5.7") newSubnetIp oneNodeSession := by
  refine (rightlyJudged_iff oneNode_plain rfl (by decide +kernel) (by decide +kernel)).mpr ?_
  have hnew : oneNodeSession.network.nodeExists (askFor 13 "10.1.5.7").nodeId = false := by decide
  unfold SubnetDecides
  rw [if_neg (Bool.eq_false_iff.mp hnew)]
  refine Or.inr (iff_of_true ⟨sampleRange, parse_sampleRange, by decide +kernel⟩
    ⟨List.not_mem_nil, fun hdraw => ?_⟩)
  exact absurd hdraw.2.1 (by decide)

/-- A second machine on the node may not choose a free address there. -/
theorem usedSubnetIp_refused : ¬∀ (env : VmNetworkEnv) (o : VmNetworkOptions) (a : Addr)
    (s : Session), PlainSubnets s.network → a.len = 32 → o.ip = plainText a →
      verdict env o s ≠ none → RightlyJudged env o a s := by
  intro h
  have hrefused : verdict sampleVmEnv (askFor 11 "10.1.2.7") oneNodeSession = some false := by
    decide +kernel
  have hjudged := h sampleVmEnv (askFor 11 "10.1.2.7") usedSubnetIp oneNodeSession oneNode_plain rfl
    (by decide +kernel) (by rw [hrefused]; exact nofun)
  have husable : Usable oneNodeSession.network 11 usedSubnetIp := by
    have hexists : oneNodeSession.network.nodeExists 11 = true := by decide
    unfold Usable
    rw [if_pos hexists]
    exact ⟨⟨"10.1.2.0/24", sampleSubnet, rfl, readAddr_sampleSubnet, by decide +kernel⟩,
      List.not_mem_nil⟩
  have haccepted := hjudged.accepted_iff.mpr husable
  rw [hrefused] at haccepted
  cases haccepted

end ThreefoldSdk.HighLevel
