import ThreefoldSdk.Lib.Ipv4
import ThreefoldSdk.Lib.Runs
import ThreefoldSdk.Primitives.Network

/-! The private ips of a node of a network: those the network picks, those the user picks and those
that are given back (`Network.getFreeIP`, `validateUserIP`, `deleteReservedIp`). The texts of addresses are those of any
reader. -/

namespace ThreefoldSdk.Primitives
open Zos Ipv4 FirstFree

/-- A property read of `null` throws. -/
def notNull {α : Type} : Option α → Except GridError α
  | some a => .ok a
  | none => .error .typeError

/-- `.mask(32).increment().increment()`. -/
def firstHost (subnet : Addr) : Except GridError Addr :=
  notNull ((subnet.mask 32).increment.bind Addr.increment)

/-- `ip.toString().split("/")[0]`. -/
def plainText (a : Addr) : String := beforeSlash a.toText

/-- The loop over the nodes that reserves an ip on the first one with the id. -/
def reserveOn (nodeId : Nat) (ip : String) : List Node → Option (List Node)
  | [] => none
  | node :: nodes =>
    if node.nodeId = some nodeId then
      some ({ node with reservedIps := node.reservedIps ++ [ip] } :: nodes)
    else (reserveOn nodeId ip nodes).map (node :: ·)

/-- An address that a machine of the subnet may have. -/
structure IsHost (net a : Addr) : Prop where
  single : a.len = 32
  inside : net.contains a = true
  not_network : a.base ≠ net.base
  not_gateway : a.base ≠ net.base + 1
  not_broadcast : a.base ≠ net.base + 255

section
variable {nodeId : Nat} {net : Addr}

/-- Reserving an ip changes the ips of the node, and not its id. -/
theorem reserveOn_of_mem {nodes : List Node} (h : ∃ node ∈ nodes, node.nodeId = some nodeId)
    (ip : String) : ∃ nodes' node, reserveOn nodeId ip nodes = some nodes' ∧
      nodes.find? (fun node => node.nodeId = some nodeId) = some node ∧
      nodes'.find? (fun node => node.nodeId = some nodeId) =
        some { node with reservedIps := node.reservedIps ++ [ip] } := by
  induction nodes with
  | nil =>
    obtain ⟨node, hnode, -⟩ := h
    cases hnode
  | cons x nodes ih =>
    by_cases hx : x.nodeId = some nodeId
    · refine ⟨_, x, by rw [reserveOn, if_pos hx], ?_, ?_⟩
      · exact List.find?_cons_of_pos (by simpa using hx)
      · exact List.find?_cons_of_pos (by simpa using hx)
    · have htail : ∃ node ∈ nodes, node.nodeId = some nodeId := by
        obtain ⟨node, hnode, hid⟩ := h
        rcases List.mem_cons.mp hnode with rfl | hnode
        · exact absurd hid hx
        · exact ⟨node, hnode, hid⟩
      obtain ⟨nodes', node, hreserve, hfind, hfind'⟩ := ih htail
      refine ⟨x :: nodes', node, by rw [reserveOn, if_neg hx, hreserve]; rfl, ?_, ?_⟩
      · rw [List.find?_cons_of_neg (by simpa using hx), hfind]
      · rw [List.find?_cons_of_neg (by simpa using hx), hfind']

/-! What the search finds. -/

theorem base_add_lt (hlen : net.len = 24) : net.base + 255 < 2 ^ 32 := by
  have haligned := net.aligned
  have hlt := net.base_lt
  rw [hlen] at haligned
  obtain ⟨k, hk⟩ := haligned
  omega

theorem isHost_iff (hlen : net.len = 24) {a : Addr} : IsHost net a ↔
    a.len = 32 ∧ net.base + 2 ≤ a.base ∧ a.base ≤ net.base + 254 := by
  have hsize : net.size = 256 := Addr.size_of_subnet hlen
  constructor
  · rintro ⟨hsingle, hinside, h0, h1, h255⟩
    have hin := of_decide_eq_true hinside
    rw [hsize] at hin
    omega
  · rintro ⟨hsingle, hlow, hhigh⟩
    refine ⟨hsingle, decide_eq_true ⟨by omega, by omega, ?_⟩, by omega, by omega, by omega⟩
    rw [hsize]
    omega

theorem firstHost_ok_iff {first : Addr} : firstHost net = .ok first ↔
    first.len = 32 ∧ first.base = net.base + 2 := by
  have hmask : (net.mask 32).len = 32 ∧ (net.mask 32).base = net.base := by
    refine ⟨rfl, ?_⟩
    change net.base / 2 ^ 0 * 2 ^ 0 = net.base
    rw [pow_zero, Nat.div_one, Nat.mul_one]
  have hfollow : follow Addr.nextSibling 2 (net.mask 32) = some first ↔
      first.len = 32 ∧ first.base = net.base + 2 := by
    rw [follow_eq_some_iff, Addr.size_of_host hmask.1, hmask.1, hmask.2]
  have hsteps : follow Addr.nextSibling 2 (net.mask 32) =
      (net.mask 32).increment.bind Addr.increment := by
    simp only [follow, Option.bind_fun_some]
    rfl
  rw [← hfollow, hsteps, firstHost]
  cases (net.mask 32).increment.bind Addr.increment <;> simp [notNull]

theorem plainText_eq (a : Addr) : plainText a = addressText a.base := beforeSlash_toText a

/-- Addresses one after the other have different plain texts. -/
theorem distinct_plainText {a : Addr} (h : a.len = 32) : Distinct Addr.increment plainText a := by
  intro i j b c hb hc heq
  rw [plainText_eq, plainText_eq] at heq
  have hbase := addressText_injOn b.base_lt c.base_lt heq
  have hi := (follow_eq_some_iff.mp hb).2
  have hj := (follow_eq_some_iff.mp hc).2
  rw [Addr.size_of_host h] at hi hj
  omega

end

section
variable [AddrReader]

/-- `Addr(s)`. -/
def addr (s : String) : Except GridError Addr :=
  match readAddr s with
  | some a => .ok a
  | none => .error (.other "Error" "invalid address")

namespace Network

/-- The address that `getFreeIP` picks. -/
def freeAddress (n : Network) (nodeId : Nat) (subnet : String) : Except GridError Addr :=
  if !n.nodeExists nodeId && subnet != "" then do
    let net ← addr subnet
    firstHost net
  else if n.nodeExists nodeId then do
    let text ← notNull (n.getNodeSubnet nodeId)
    let net ← addr text
    let first ← firstHost net
    let reservedIps := n.getNodeReservedIps nodeId
    notNull (search Addr.increment (fun a => decide (plainText a ∈ reservedIps))
      (reservedIps.length + 1) first)
  else .error (.validation "node_id or subnet must be specified.")

def getFreeIP (n : Network) (nodeId : Nat) (subnet : String) :
    Except GridError (String × Network) := do
  let a ← n.freeAddress nodeId subnet
  let ip := plainText a
  match reserveOn nodeId ip n.nodes with
  | some nodes => return (ip, { n with nodes := nodes })
  | none => throw (.validation "node_id is not in the network. Please add it first.")

/-- There is no result for a node that is in the networks only. -/
def validateUserIP (n : Network) (nodeId : Nat) (ipAddress : String) :
    Except GridError (Option String × Network) :=
  if ipAddress ∈ n.getNodeReservedIps nodeId then
    .error (.validation s!"private ip {ipAddress} is being used please select another ip or leave it empty.")
  else do
    let ip ← addr ipAddress
    let nodeSubnet ← notNull (n.getNodeSubnet nodeId)
    let net ← addr nodeSubnet
    if !net.contains ip then
      throw (.validation
        s!"Selected ip is not available in node subnet, node subnet: {nodeSubnet}")
    match reserveOn nodeId ipAddress n.nodes with
    | some nodes => return (some ipAddress, { n with nodes := nodes })
    | none => return (none, n)

end Network

/-! Calls on one node. -/

inductive IpCall where
  | getFreeIP (subnet : String)
  | validateUserIP (ipAddress : String)
  | deleteReservedIp (ip : String)

/-- What a call leaves; one that throws leaves the network as it was. -/
def afterIpCall (nodeId : Nat) (n : Network) : IpCall → Network
  | .getFreeIP subnet =>
    match n.getFreeIP nodeId subnet with
    | .ok r => r.2
    | .error _ => n
  | .validateUserIP ipAddress =>
    match n.validateUserIP nodeId ipAddress with
    | .ok r => r.2
    | .error _ => n
  | .deleteReservedIp ip => n.deleteReservedIp nodeId ip

/-- The reserved ips denote pairwise distinct addresses for machines of the subnet. -/
structure IpsSound (net : Addr) (ips : List String) : Prop where
  hosts : ∀ ip ∈ ips, ∃ a, readAddr ip = some a ∧ IsHost net a
  distinct : (ips.map readAddr).Nodup

/-- The call keeps the ips sound: there is a free address for machines, and all lower ones are
reserved by their plain texts; an address that is accepted is one for machines, and not reserved
under another text. -/
def IpCall.Meets (net : Addr) (ips : List String) : IpCall → Prop
  | .getFreeIP _ => ∃ a, IsHost net a ∧ some a ∉ ips.map readAddr ∧
      ∀ b, IsHost net b → b.base < a.base → addressText b.base ∈ ips
  | .validateUserIP ipAddress => ∀ a, readAddr ipAddress = some a → ipAddress ∉ ips →
      net.contains a = true → IsHost net a ∧ some a ∉ ips.map readAddr
  | .deleteReservedIp _ => True

/-- The node is in both lists of the network, with a subnet of length 24. -/
structure OnNode (nodeId : Nat) (net : Addr) (n : Network) : Prop where
  node : ∃ node ∈ n.nodes, node.nodeId = some nodeId
  subnet : ∃ text, n.getNodeSubnet nodeId = some text ∧ readAddr text = some net

section
variable {n : Network} {nodeId : Nat} {net : Addr}

theorem OnNode.nodeExists (h : OnNode nodeId net n) : n.nodeExists nodeId = true := by
  obtain ⟨text, htext, -⟩ := h.subnet
  obtain ⟨z, hz, -⟩ := Option.map_eq_some_iff.mp htext
  refine List.any_eq_true.mpr ⟨z, List.mem_of_find?_eq_some hz, ?_⟩
  have hfound := List.find?_some hz
  simpa using hfound

theorem OnNode.reserve (h : OnNode nodeId net n) (ip : String) :
    ∃ nodes', reserveOn nodeId ip n.nodes = some nodes' ∧
      OnNode nodeId net { n with nodes := nodes' } ∧
      Network.getNodeReservedIps { n with nodes := nodes' } nodeId =
        n.getNodeReservedIps nodeId ++ [ip] := by
  obtain ⟨nodes', node, hreserve, hfind, hfind'⟩ := reserveOn_of_mem h.node ip
  have hid : node.nodeId = some nodeId := by simpa using List.find?_some hfind
  refine ⟨nodes', hreserve, ⟨⟨_, List.mem_of_find?_eq_some hfind', hid⟩, h.subnet⟩, ?_⟩
  simp only [Network.getNodeReservedIps, hfind, hfind']

theorem OnNode.deleteReservedIp (h : OnNode nodeId net n) (ip : String) :
    OnNode nodeId net (n.deleteReservedIp nodeId ip) ∧
      (n.deleteReservedIp nodeId ip).getNodeReservedIps nodeId =
        (n.getNodeReservedIps nodeId).filter (· ≠ ip) := by
  obtain ⟨node, hnode, hid⟩ := h.node
  refine ⟨⟨⟨_, List.mem_map_of_mem hnode, ?_⟩, h.subnet⟩, ?_⟩
  · rw [if_pos hid]
    exact hid
  · simp only [Network.getNodeReservedIps, Network.deleteReservedIp, List.find?_map]
    have hsame : ((fun node : Node => decide (node.nodeId = some nodeId)) ∘ fun node : Node =>
        if node.nodeId = some nodeId then
          { node with reservedIps := node.reservedIps.filter (· ≠ ip) }
        else node) = fun node => decide (node.nodeId = some nodeId) := by
      funext x
      simp only [Function.comp]
      split <;> rfl
    rw [hsame]
    cases hfind : n.nodes.find? fun node => decide (node.nodeId = some nodeId) with
    | none => rfl
    | some x =>
      have hx : x.nodeId = some nodeId := by simpa using List.find?_some hfind
      simp only [Option.map_some, hx, ↓reduceIte]

theorem readAddr_plainText {a : Addr} (h : a.len = 32) : readAddr (plainText a) = some a := by
  rw [plainText_eq, readAddr_addressText a.base_lt, Option.some.injEq]
  exact Addr.ext rfl h.symm

theorem getFreeIP_ok (h : OnNode nodeId net n) (hlen : net.len = 24)
    (hsound : IpsSound net (n.getNodeReservedIps nodeId)) (subnet : String) :
    ∃ (b : Addr) (n' : Network), n.getFreeIP nodeId subnet = .ok (addressText b.base, n') ∧
      OnNode nodeId net n' ∧
      n'.getNodeReservedIps nodeId = n.getNodeReservedIps nodeId ++ [addressText b.base] ∧
      b.len = 32 ∧ net.base + 2 ≤ b.base ∧ b.base ≤ net.base + 255 ∧
      addressText b.base ∉ n.getNodeReservedIps nodeId ∧
      ∀ c, net.base + 2 ≤ c → c < b.base → addressText c ∈ n.getNodeReservedIps nodeId := by
  have hend := base_add_lt hlen
  obtain ⟨text, htext, hparse⟩ := h.subnet
  let first : Addr := host (net.base + 2) (by omega)
  have hflen : first.len = 32 := rfl
  have hfbase : first.base = net.base + 2 := rfl
  have hfirst : firstHost net = .ok first := firstHost_ok_iff.mpr ⟨hflen, hfbase⟩
  have hsize : first.size = 1 := Addr.size_of_host hflen
  let ips := n.getNodeReservedIps nodeId
  -- the broadcast address is never reserved, so the search ends there at the latest
  have hbroadcast : addressText (net.base + 255) ∉ ips := by
    intro hin
    obtain ⟨a, ha, hhost⟩ := hsound.hosts _ hin
    rw [readAddr_addressText (by omega), Option.some.injEq] at ha
    have hle := ((isHost_iff hlen).mp hhost).2.2
    rw [← ha] at hle
    change net.base + 255 ≤ net.base + 254 at hle
    omega
  have hfollow : follow Addr.increment 253 first = some (host (net.base + 255) (by omega)) := by
    refine follow_eq_some_iff.mpr ⟨hflen.symm, ?_⟩
    rw [hfbase, hsize]
    rfl
  obtain ⟨k, hk, b, hfree⟩ := @exists_free_of_follow _ _ (fun a => decide (plainText a ∈ ips)) _ _ _
    hfollow (decide_eq_false (by rw [plainText_eq]; exact hbroadcast))
  have hsearch := (search_eq_some_iff_free (distinct_plainText hflen)).mpr ⟨k, hfree⟩
  obtain ⟨hreach, hnot, hbefore⟩ := hfree
  obtain ⟨hblen, hbbase⟩ := follow_eq_some_iff.mp hreach
  rw [hfbase, hsize] at hbbase
  have hpick : n.freeAddress nodeId subnet = .ok b := by
    unfold Network.freeAddress
    simp only [h.nodeExists, Bool.not_true, Bool.false_and, Bool.false_eq_true, ↓reduceIte,
      htext, notNull, addr, hparse, hfirst, bind, Except.bind]
    change notNull (search Addr.increment _ (ips.length + 1) first) = _
    rw [hsearch]
    rfl
  obtain ⟨nodes', hreserve, hon, hips⟩ := h.reserve (addressText b.base)
  refine ⟨b, { n with nodes := nodes' }, ?_, hon, hips, hblen.trans hflen, by omega, by omega, ?_,
    fun c hlow hc => ?_⟩
  · unfold Network.getFreeIP
    simp only [hpick, plainText_eq, bind, Except.bind, hreserve]
    rfl
  · have hfalse := of_decide_eq_false hnot
    rw [plainText_eq] at hfalse
    exact hfalse
  · have hclt : c < 2 ^ 32 := lt_trans hc b.base_lt
    have hfollowc : follow Addr.increment (c - (net.base + 2)) first = some (host c hclt) := by
      refine follow_eq_some_iff.mpr ⟨hflen.symm, ?_⟩
      rw [hfbase, hsize]
      change c = _
      omega
    have htaken := of_decide_eq_true (hbefore (c - (net.base + 2)) (by omega) _ hfollowc)
    rw [plainText_eq] at htaken
    exact htaken

/-! The invariant over calls. -/

theorem ipsSound_append_iff {ips : List String} {ip : String} (hips : IpsSound net ips) :
    IpsSound net (ips ++ [ip]) ↔
      ∃ a, readAddr ip = some a ∧ IsHost net a ∧ some a ∉ ips.map readAddr := by
  constructor
  · rintro ⟨hhosts, hdistinct⟩
    obtain ⟨a, ha, hhost⟩ := hhosts ip (by simp)
    refine ⟨a, ha, hhost, fun hin => ?_⟩
    rw [List.map_append, List.map_singleton, ha] at hdistinct
    exact (List.nodup_append.mp hdistinct).2.2 _ hin _ (List.mem_singleton_self _) rfl
  · rintro ⟨a, ha, hhost, hnew⟩
    constructor
    · intro x hx
      rcases List.mem_append.mp hx with hx | hx
      · exact hips.hosts x hx
      · rw [List.mem_singleton.mp hx]
        exact ⟨a, ha, hhost⟩
    · rw [List.map_append, List.map_singleton, ha]
      refine List.nodup_append.mpr ⟨hips.distinct, List.nodup_singleton _, ?_⟩
      rintro x hx y hy rfl
      rw [List.mem_singleton.mp hy] at hx
      exact hnew hx

theorem IpsSound.sublist {ips ips' : List String} (h : IpsSound net ips)
    (hsub : ips'.Sublist ips) : IpsSound net ips' :=
  ⟨fun ip hip => h.hosts ip (hsub.subset hip), h.distinct.sublist (hsub.map readAddr)⟩

/-- An address that no text denotes is not reserved by its plain text. -/
theorem plain_not_mem {ips : List String} {a : Addr} (hlen : a.len = 32)
    (h : some a ∉ ips.map readAddr) : addressText a.base ∉ ips := by
  intro hin
  apply h
  rw [← plainText_eq] at hin
  exact List.mem_map.mpr ⟨_, hin, readAddr_plainText hlen⟩

theorem afterGetFreeIP_iff (h : OnNode nodeId net n) (hlen : net.len = 24)
    (hsound : IpsSound net (n.getNodeReservedIps nodeId)) (subnet : String) :
    OnNode nodeId net (afterIpCall nodeId n (.getFreeIP subnet)) ∧
      (IpsSound net ((afterIpCall nodeId n (.getFreeIP subnet)).getNodeReservedIps nodeId) ↔
        (IpCall.getFreeIP subnet).Meets net (n.getNodeReservedIps nodeId)) := by
  obtain ⟨b, n', hok, hon, hips, hblen, hlow, -, hnot, hbefore⟩ := getFreeIP_ok h hlen hsound subnet
  have hafter : afterIpCall nodeId n (.getFreeIP subnet) = n' := by
    simp only [afterIpCall, hok]
  rw [hafter, hips, ipsSound_append_iff hsound]
  refine ⟨hon, ?_⟩
  have hparse : readAddr (addressText b.base) = some b := plainText_eq b ▸ readAddr_plainText hblen
  constructor
  · rintro ⟨a, ha, hhost, hnew⟩
    obtain rfl : b = a := Option.some.inj (hparse.symm.trans ha)
    refine ⟨b, hhost, hnew, fun c hc hcb => ?_⟩
    exact hbefore c.base ((isHost_iff hlen).mp hc).2.1 hcb
  · rintro ⟨a, hhost, hnew, hall⟩
    obtain ⟨halen, halow, hahigh⟩ := (isHost_iff hlen).mp hhost
    have hle : b.base ≤ a.base := by
      by_contra hgt
      exact plain_not_mem halen hnew (hbefore a.base halow (by omega))
    have heq : b.base = a.base := by
      by_contra hne
      refine hnot (hall b ((isHost_iff hlen).mpr ⟨hblen, hlow, ?_⟩) ?_)
      · omega
      · omega
    obtain rfl : b = a := Addr.ext heq (hblen.trans halen.symm)
    exact ⟨b, hparse, hhost, hnew⟩

theorem afterValidateUserIP_iff (h : OnNode nodeId net n)
    (hsound : IpsSound net (n.getNodeReservedIps nodeId)) (ip : String) :
    OnNode nodeId net (afterIpCall nodeId n (.validateUserIP ip)) ∧
      (IpsSound net ((afterIpCall nodeId n (.validateUserIP ip)).getNodeReservedIps nodeId) ↔
        (IpCall.validateUserIP ip).Meets net (n.getNodeReservedIps nodeId)) := by
  obtain ⟨text, htext, hnet⟩ := h.subnet
  -- a call that throws changes nothing
  have hthrow : ∀ e, n.validateUserIP nodeId ip = .error e →
      afterIpCall nodeId n (.validateUserIP ip) = n := by
    intro e he
    simp only [afterIpCall, he]
  by_cases hin : ip ∈ n.getNodeReservedIps nodeId
  · have hrun := hthrow _ (by rw [Network.validateUserIP, if_pos hin])
    rw [hrun]
    exact ⟨h, iff_of_true hsound fun _ _ hnot => absurd hin hnot⟩
  cases hparse : readAddr ip with
  | none =>
    have hrun := hthrow (.other "Error" "invalid address") (by
      rw [Network.validateUserIP, if_neg hin, addr, hparse]
      rfl)
    rw [hrun]
    refine ⟨h, iff_of_true hsound fun a ha => ?_⟩
    rw [hparse] at ha
    cases ha
  | some a =>
    have hstart : n.validateUserIP nodeId ip = (do
        if !net.contains a then
          throw (.validation s!"Selected ip is not available in node subnet, node subnet: {text}")
        match reserveOn nodeId ip n.nodes with
        | some nodes => return (some ip, { n with nodes := nodes })
        | none => return (none, n)) := by
      rw [Network.validateUserIP, if_neg hin]
      simp only [addr, hparse, htext, notNull, hnet, bind, Except.bind]
    cases hcontains : net.contains a with
    | false =>
      have hrun := hthrow _ (by rw [hstart, hcontains]; rfl)
      rw [hrun]
      refine ⟨h, iff_of_true hsound fun a' ha' _ hc => ?_⟩
      obtain rfl : a = a' := Option.some.inj (hparse.symm.trans ha')
      rw [hcontains] at hc
      cases hc
    | true =>
      obtain ⟨nodes', hreserve, hon, hips⟩ := h.reserve ip
      have hrun : afterIpCall nodeId n (.validateUserIP ip) = { n with nodes := nodes' } := by
        have hok : n.validateUserIP nodeId ip = .ok (some ip, { n with nodes := nodes' }) := by
          rw [hstart, hcontains, hreserve]
          rfl
        simp only [afterIpCall, hok]
      rw [hrun, hips, ipsSound_append_iff hsound]
      refine ⟨hon, ?_⟩
      constructor
      · rintro ⟨a', ha', hboth⟩ a'' ha'' - -
        obtain rfl : a' = a'' := Option.some.inj (ha'.symm.trans ha'')
        exact hboth
      · intro hmeets
        exact ⟨a, hparse, hmeets a hparse hin hcontains⟩

/-- One call keeps the ips of the node sound exactly when it meets its condition. -/
theorem afterIpCall_iff (h : OnNode nodeId net n) (hlen : net.len = 24)
    (hsound : IpsSound net (n.getNodeReservedIps nodeId)) (c : IpCall) :
    OnNode nodeId net (afterIpCall nodeId n c) ∧
      (IpsSound net ((afterIpCall nodeId n c).getNodeReservedIps nodeId) ↔
        c.Meets net (n.getNodeReservedIps nodeId)) := by
  cases c with
  | getFreeIP subnet => exact afterGetFreeIP_iff h hlen hsound subnet
  | validateUserIP ip => exact afterValidateUserIP_iff h hsound ip
  | deleteReservedIp ip =>
    obtain ⟨hon, hips⟩ := h.deleteReservedIp ip
    refine ⟨hon, iff_of_true ?_ trivial⟩
    change IpsSound net ((n.deleteReservedIp nodeId ip).getNodeReservedIps nodeId)
    rw [hips]
    exact hsound.sublist List.filter_sublist

/-- Over any calls on a node, its ips are sound in every state exactly when every call meets its
condition; in particular `getFreeIP` has to find an address left. -/
theorem privateIps_sound_iff {text : String} (hnode : ∃ node ∈ n.nodes, node.nodeId = some nodeId)
    (htext : n.getNodeSubnet nodeId = some text) (hnet : readAddr text = some net)
    (hlen : net.len = 24) (hsound : IpsSound net (n.getNodeReservedIps nodeId))
    (calls : List IpCall) :
    Runs.Always (afterIpCall nodeId) (fun n => IpsSound net (n.getNodeReservedIps nodeId)) n calls ↔
      Runs.EachMeets (afterIpCall nodeId)
        (fun n c => c.Meets net (n.getNodeReservedIps nodeId)) n calls := by
  have hstart : OnNode nodeId net n := ⟨hnode, text, htext, hnet⟩
  apply Runs.always_iff_eachMeets (P := OnNode nodeId net) _ _ hstart hsound
  · intro n c hon hsound
    exact (afterIpCall_iff hon hlen hsound c).1
  · intro n c hon hsound
    exact (afterIpCall_iff hon hlen hsound c).2

end

end

def sampleZnet (nodeId : Nat) (subnet : String) : Znet :=
  ⟨subnet, "10.1.0.0/16", "", 0, [], none, some nodeId⟩

/-- A network with the node 11, which has no machine. -/
def oneNode : Network where
  name := "net"
  ipRange := "10.1.0.0/16"
  nodes := [.fresh (some 11)]
  deployments := []
  reservedSubnets := []
  networks := [sampleZnet 11 "10.1.2.0/24"]
  accessPoints := []
  userAccesses := []

theorem ipsSound_nil (net : Addr) : IpsSound net [] := ⟨by simp, by simp⟩

/-- `10.1.2.0/24`. -/
def sampleSubnet : Addr := ⟨167838208, 24, by decide, by decide, by decide⟩

theorem readAddr_sampleSubnet : readAddr "10.1.2.0/24" = some sampleSubnet := by decide +kernel

/-- An address that is picked, one the user picks, and the first one given back. -/
theorem oneNode_ips_sound :
    Runs.Always (afterIpCall 11) (fun n => IpsSound sampleSubnet (n.getNodeReservedIps 11)) oneNode
      [.getFreeIP "", .validateUserIP "10.1.2.7", .deleteReservedIp "10.1.2.2"] := by
  refine (privateIps_sound_iff (by decide) rfl readAddr_sampleSubnet rfl (ipsSound_nil _) _).mpr ?_
  have hfirst : (afterIpCall 11 oneNode (.getFreeIP "")).getNodeReservedIps 11 = ["10.1.2.2"] := by
    decide +kernel
  have hparse : parse "10.1.2.7" = some (host 167838215 (by decide)) := by decide +kernel
  refine Runs.eachMeets_cons.mpr ⟨?_, Runs.eachMeets_cons.mpr ⟨?_,
    Runs.eachMeets_cons.mpr ⟨trivial, Runs.eachMeets_nil⟩⟩⟩
  · refine ⟨host 167838210 (by decide), (isHost_iff rfl).mpr (by decide), by decide, ?_⟩
    intro b hb hlt
    have hlow : 167838208 + 2 ≤ b.base := ((isHost_iff rfl).mp hb).2.1
    change b.base < 167838210 at hlt
    omega
  · rw [hfirst]
    intro a ha _ _
    obtain rfl : host 167838215 (by decide) = a := Option.some.inj (hparse.symm.trans ha)
    exact ⟨(isHost_iff rfl).mpr (by decide), by decide +kernel⟩

/-- The user may pick the gateway. -/
theorem gateway_reserved :
    ¬ Runs.Always (afterIpCall 11) (fun n => IpsSound sampleSubnet (n.getNodeReservedIps 11)) oneNode
      [.validateUserIP "10.1.2.1"] := by
  intro h
  have hlast := h [.validateUserIP "10.1.2.1"] (List.prefix_refl _)
  have hips : (afterIpCall 11 oneNode (.validateUserIP "10.1.2.1")).getNodeReservedIps 11 =
      ["10.1.2.1"] := by decide +kernel
  have hparse : parse "10.1.2.1" = some (host 167838209 (by decide)) := by decide +kernel
  simp only [List.foldl_cons, List.foldl_nil, hips] at hlast
  obtain ⟨a, ha, hhost⟩ := hlast.hosts "10.1.2.1" (List.mem_singleton_self _)
  obtain rfl : host 167838209 (by decide) = a := Option.some.inj (hparse.symm.trans ha)
  exact hhost.not_gateway rfl

end ThreefoldSdk.Primitives
