import ThreefoldSdk.Lib.Forall2
import ThreefoldSdk.Primitives.AllowedIps

/-! What `generatePeers` leaves when it returns: the endpoints it found, the hidden nodes with their
access nodes, and the peers of every node. -/

namespace ThreefoldSdk.Primitives
open Zos Ipv4 Frame

/-- Whether the node of a network was found without an endpoint. -/
def isHidden (s : Session) (z : Znet) : Bool :=
  match s.endpoints.lookup (z.nodeId.getD 0) with
  | some endpoint => (present endpoint).isNone
  | none => false

/-- What is cached stays. -/
structure Remembers (s s' : Session) : Prop where
  endpoints : ∀ id e, s.endpoints.lookup id = some e → s'.endpoints.lookup id = some e
  accessNodes : s.accessNodes ≠ [] → s'.accessNodes = s.accessNodes

theorem Remembers.of_eq {s s' : Session} (h : s'.endpoints = s.endpoints)
    (h' : s'.accessNodes = s.accessNodes) : Remembers s s' := by
  refine ⟨fun id e he => ?_, fun _ => h'⟩
  rw [h]
  exact he

theorem Remembers.trans {s₁ s₂ s₃ : Session} (h : Remembers s₁ s₂) (h' : Remembers s₂ s₃) :
    Remembers s₁ s₃ := by
  refine ⟨fun id e he => h'.endpoints id e (h.endpoints id e he), fun hne => ?_⟩
  rw [h'.accessNodes (by rw [h.accessNodes hne]; exact hne), h.accessNodes hne]

instance : Std.Refl Remembers := ⟨fun _ => .of_eq rfl rfl⟩

instance : IsTrans Session Remembers := ⟨fun _ _ _ => Remembers.trans⟩

section
variable {env : NetworkEnv} {α : Type}

theorem remembers_of_keeps {x : NetM α} (h : Keeps unclocked x) : Relates Remembers x := by
  intro s
  have hs := h s
  exact .of_eq (congrArg (·.endpoints) hs) (congrArg (·.accessNodes) hs)

theorem remembers_getNodeEndpoint (nodeId : Nat) :
    Relates Remembers (getNodeEndpoint env nodeId) := by
  intro s
  unfold getNodeEndpoint
  have hget : (get : NetM Session) s = .ok s s := rfl
  rw [after_bind_of_ok hget]
  split
  · exact Std.Refl.refl s
  · rename_i hnone
    refine (?_ : Remembers s _)
    cases hx : lookupEndpoint env nodeId s with
    | error e s' =>
      rw [after_bind_of_error hx]
      exact (remembers_of_keeps (keeps_lookupEndpoint nodeId)).of_error hx
    | ok e s' =>
      have hkeeps := @keeps_lookupEndpoint env nodeId
      have hend : s'.endpoints = s.endpoints := (hkeeps.comp Session.endpoints).of_ok hx
      rw [after_bind_of_ok hx]
      refine ⟨fun id e' he => ?_, fun _ => (hkeeps.comp Session.accessNodes).of_ok hx⟩
      change ((nodeId, e) :: s'.endpoints).lookup id = some e'
      have hne : (id == nodeId) = false := by
        rw [beq_eq_false_iff_ne]
        rintro rfl
        rw [hnone] at he
        cases he
      rw [List.lookup_cons, hne, hend]
      exact he

theorem getNodeEndpoint_ok {nodeId : Nat} {s s' : Session} {e : Option String}
    (h : getNodeEndpoint env nodeId s = .ok e s') :
    ∃ e₀, s'.endpoints.lookup nodeId = some e₀ ∧ e = present e₀ := by
  unfold getNodeEndpoint at h
  obtain ⟨s₁, s₂, hget, h⟩ := bind_eq_ok.mp h
  cases hget
  cases hs : s.endpoints.lookup nodeId with
  | some e₀ =>
    rw [hs] at h
    cases h
    exact ⟨e₀, hs, rfl⟩
  | none =>
    rw [hs] at h
    obtain ⟨e₀, s₃, -, h⟩ := bind_eq_ok.mp h
    cases h
    exact ⟨e₀, List.lookup_cons_self, rfl⟩

theorem remembers_getAccessNodes : Relates Remembers (getAccessNodes env) := by
  intro s
  unfold getAccessNodes
  have hget : (get : NetM Session) s = .ok s s := rfl
  rw [after_bind_of_ok hget]
  split
  · exact Std.Refl.refl s
  · rename_i hempty
    cases hall : capacityAccessNodes env s with
    | error e s' =>
      rw [after_bind_of_error hall]
      exact (remembers_of_keeps keeps_capacityAccessNodes).of_error hall
    | ok all s' =>
      rw [after_bind_of_ok hall]
      have hend : s'.endpoints = s.endpoints :=
        (keeps_capacityAccessNodes.comp Session.endpoints).of_ok hall
      refine ⟨fun id e he => ?_, fun hne => absurd hne hempty⟩
      change s'.endpoints.lookup id = some e
      rw [hend]
      exact he

theorem getAccessNodes_ok {s s' : Session} {nodes : List Nat}
    (h : getAccessNodes env s = .ok nodes s') : s'.accessNodes = nodes := by
  unfold getAccessNodes at h
  obtain ⟨s₁, s₂, hget, h⟩ := bind_eq_ok.mp h
  cases hget
  split at h
  · cases h
    rfl
  · obtain ⟨all, s₃, -, h⟩ := bind_eq_ok.mp h
    cases h
    rfl

theorem pureStep_eq_ok {x : Except GridError α} {s s' : Session} {a : α} :
    pureStep x s = .ok a s' ↔ x = .ok a ∧ s' = s := by
  cases x with
  | ok b =>
    change EStateM.Result.ok b s = .ok a s' ↔ _
    simp [eq_comm]
  | error e =>
    change EStateM.Result.error e s = .ok a s' ↔ _
    simp

theorem remembers_hiddenNodeOf (net : Znet) : Relates Remembers (hiddenNodeOf env net) := by
  refine (remembers_getNodeEndpoint _).bind fun endpoint => ?_
  split
  · exact relates_pure _ _
  · refine remembers_getAccessNodes.bind fun accessNodes => ?_
    split
    · exact (relates_get _).bind fun _ => relates_throw _ _
    · exact (remembers_of_keeps (keeps_randomChoice _)).bind fun _ =>
        (remembers_of_keeps (keeps_pureStep _ _)).bind fun _ => relates_pure _ _

theorem remembers_hiddenNodesOf (nets : List Znet) :
    Relates Remembers (hiddenNodesOf env nets) := by
  induction nets with
  | nil => exact relates_pure _ _
  | cons net nets ih =>
    exact (remembers_hiddenNodeOf net).bind fun _ => ih.bind fun _ => relates_pure _ _

theorem Remembers.isHidden_eq {s s' : Session} (h : Remembers s s') {z : Znet} {e : Option String}
    (hz : s.endpoints.lookup (z.nodeId.getD 0) = some e) :
    isHidden s' z = (present e).isNone := by
  rw [isHidden, h.endpoints _ _ hz]

/-- A network gets an access node exactly when its node was found hidden; the access node is among
those the network keeps. -/
theorem hiddenNodeOf_ok {net : Znet} {s s' s'' : Session} {hidden : Option AccessPoint}
    (h : hiddenNodeOf env net s = .ok hidden s') (hlater : Remembers s' s'') :
    hidden.isSome = isHidden s'' net ∧
      ∀ a ∈ hidden, a.subnet = net.subnet ∧ a.nodeId ∈ s''.accessNodes := by
  unfold hiddenNodeOf at h
  obtain ⟨e, s₁, hend, h⟩ := bind_eq_ok.mp h
  obtain ⟨e₀, hcached, rfl⟩ := getNodeEndpoint_ok hend
  cases hpresent : present e₀ with
  | some endpoint =>
    rw [hpresent] at h
    cases h
    rw [hlater.isHidden_eq hcached, hpresent]
    exact ⟨rfl, fun a ha => nomatch ha⟩
  | none =>
    rw [hpresent] at h
    obtain ⟨nodes, s₂, hnodes, h⟩ := bind_eq_ok.mp h
    have hs₂ := getAccessNodes_ok hnodes
    split at h
    · obtain ⟨s₃, s₄, -, h⟩ := bind_eq_ok.mp h
      cases h
    · rename_i hne
      obtain ⟨accessNode, s₃, hchoice, h⟩ := bind_eq_ok.mp h
      obtain ⟨key, s₄, hkey, h⟩ := bind_eq_ok.mp h
      cases h
      have hr₂ := (remembers_of_keeps (keeps_randomChoice _)).of_ok hchoice
      have hr₃ := (remembers_of_keeps (keeps_pureStep _ _)).of_ok hkey
      have hr₁ := remembers_getAccessNodes.of_ok hnodes
      have hr := (hr₂.trans hr₃).trans hlater
      rw [(hr₁.trans hr).isHidden_eq hcached, hpresent]
      refine ⟨rfl, fun a ha => ?_⟩
      obtain rfl := Option.some.inj (Option.mem_def.mp ha)
      refine ⟨rfl, ?_⟩
      have hnonempty : s₂.accessNodes ≠ [] := by
        rw [hs₂]
        exact List.ne_nil_of_length_pos (Nat.pos_of_ne_zero hne)
      rw [hr.accessNodes hnonempty, hs₂]
      unfold randomChoice at hchoice
      obtain ⟨clock, s₅, -, hpick⟩ := bind_eq_ok.mp hchoice
      obtain ⟨hpick, -⟩ := pureStep_eq_ok.mp hpick
      unfold notNull at hpick
      split at hpick
      · rename_i id hid
        cases hpick
        exact List.mem_of_getElem? hid
      · cases hpick

theorem hiddenNodesOf_ok {nets : List Znet} {s s' s'' : Session}
    {hidden : List (Option Nat × AccessPoint)} (h : hiddenNodesOf env nets s = .ok hidden s')
    (hlater : Remembers s' s'') :
    hidden.map (fun p => (p.1, p.2.subnet)) =
        (nets.filter (isHidden s'')).map (fun z => (z.nodeId, z.subnet)) ∧
      ∀ p ∈ hidden, p.2.nodeId ∈ s''.accessNodes := by
  induction nets generalizing s hidden with
  | nil =>
    cases h
    exact ⟨rfl, fun p hp => nomatch hp⟩
  | cons net nets ih =>
    obtain ⟨own, s₁, hown, h⟩ := bind_eq_ok.mp h
    obtain ⟨rest, s₂, hrest, h⟩ := bind_eq_ok.mp h
    cases h
    obtain ⟨hmap, hmem⟩ := ih hrest
    obtain ⟨hsome, hall⟩ := hiddenNodeOf_ok hown
      (((remembers_hiddenNodesOf nets).of_ok hrest).trans hlater)
    cases own with
    | none =>
      rw [List.filter_cons_of_neg (by rw [← hsome]; decide)]
      exact ⟨hmap, hmem⟩
    | some a =>
      obtain ⟨hsubnet, hnode⟩ := hall a rfl
      rw [List.filter_cons_of_pos (by rw [← hsome]; rfl)]
      refine ⟨?_, fun p hp => ?_⟩
      · change (net.nodeId, a.subnet) :: rest.map _ = _
        rw [hmap, hsubnet, List.map_cons]
      · rcases List.mem_cons.mp hp with rfl | hp
        · exact hnode
        · exact hmem p hp

end

/-! The peers of the nodes. -/

section
variable {env : NetworkEnv} {hidden : List (Option Nat × AccessPoint)} {points : List AccessPoint}

theorem remembers_getReservedSubnets : Relates Remembers getReservedSubnets :=
  fun _ => .of_eq rfl rfl

theorem remembers_sentToAccess (access : Option Nat) (n net : Znet) :
    Relates Remembers (sentToAccess access n net) := by
  unfold sentToAccess
  split
  · exact remembers_getReservedSubnets.bind fun _ => relates_pure _ _
  · exact relates_pure _ _

theorem remembers_peerFor (n net : Znet) : Relates Remembers (peerFor env hidden points n net) := by
  unfold peerFor
  dsimp only
  split
  · exact relates_pure _ _
  · refine (remembers_sentToAccess _ n net).bind fun others =>
      (remembers_of_keeps (keeps_pureStep _ _)).bind fun allowedIps =>
        (remembers_getNodeEndpoint _).bind fun endpoint => ?_
    split
    · exact relates_pure _ _
    · exact (remembers_of_keeps (keeps_pureStep _ _)).bind fun _ => relates_pure _ _

theorem remembers_setPeers (k : Nat) (f : List Peer → List Peer) :
    Relates Remembers (setPeers k f) := fun _ => .of_eq rfl rfl

theorem remembers_pushNodePeers (k : Nat) (n : Znet) (nets : List Znet) :
    Relates Remembers (pushNodePeers env hidden points k n nets) := by
  induction nets with
  | nil => exact relates_pure _ _
  | cons net nets ih =>
    exact (remembers_peerFor n net).bind fun _ => (remembers_setPeers k _).bind fun _ => ih

theorem remembers_pushAccessPeers (k : Nat) (own : List AccessPoint) :
    Relates Remembers (pushAccessPeers k own) := by
  induction own with
  | nil => exact relates_pure _ _
  | cons a own ih =>
    exact (remembers_of_keeps (keeps_pureStep _ _)).bind fun _ =>
      (remembers_setPeers k _).bind fun _ => ih

theorem remembers_rebuildAll (networks : List Znet) (k : Nat) (nets : List Znet) :
    Relates Remembers (rebuildAll env hidden points networks k nets) := by
  induction nets generalizing k with
  | nil => exact relates_pure _ _
  | cons n nets ih =>
    refine Relates.bind ?_ fun _ => ih (k + 1)
    exact (remembers_setPeers k _).bind fun _ => (remembers_pushNodePeers k n networks).bind fun _ =>
      remembers_pushAccessPeers k _

theorem keeps_networks_peerFor (n net : Znet) :
    Keeps (fun s => s.network.networks) (peerFor env hidden points n net) := by
  unfold peerFor
  dsimp only
  split
  · exact keeps_pure _ _
  · refine Keeps.bind ?_ fun others => (keeps_pureStep _ _).bind fun allowedIps =>
      ((keeps_getNodeEndpoint _).comp Network.networks).bind fun endpoint => ?_
    · unfold sentToAccess
      split
      · exact Keeps.bind (fun _ => rfl) fun _ => keeps_pure _ _
      · exact keeps_pure _ _
    · split
      · exact keeps_pure _ _
      · exact (keeps_pureStep _ _).bind fun _ => keeps_pure _ _

/-- The network `net` gets no peer on the node of `n`. -/
def Skipped (s : Session) (hidden : List (Option Nat × AccessPoint)) (n net : Znet) : Prop :=
  n.nodeId = net.nodeId ∨
    ((accessNodeOf hidden n.nodeId).isSome = true ∧ net.nodeId ≠ accessNodeOf hidden n.nodeId) ∨
    isHidden s net = true

/-- A peer for `net` on the node of `n`: its allowed ips are those of the subnet and of the access
points of `net`, and those of all the subnets that a hidden node sends to its access node. -/
structure PeerOf (s : Session) (hidden : List (Option Nat × AccessPoint))
    (points : List AccessPoint) (held : List String) (n net : Znet) (p : Option Peer) : Prop where
  isSome_iff : p.isSome = true ↔ ¬ Skipped s hidden n net
  allowed : ∀ peer ∈ p, ∃ others,
    (∀ t, t ∈ peer.allowedIps ↔
      ∃ u ∈ others ++ net.subnet :: (pointsOf points net.nodeId).map (·.subnet), InPair u t) ∧
    (accessNodeOf hidden n.nodeId = none → others = []) ∧
    ((accessNodeOf hidden n.nodeId).isSome = true →
      ∀ u ∈ held, u ≠ "" → u ≠ n.subnet → u ≠ net.subnet → u ∈ others)

theorem sentToAccess_ok {access : Option Nat} {n net : Znet} {s s' : Session} {others : List String}
    (h : sentToAccess access n net s = .ok others s') :
    (access = none → others = []) ∧ (access.isSome = true →
      ∀ u ∈ s.network.held, u ≠ "" → u ≠ n.subnet → u ≠ net.subnet → u ∈ others) := by
  unfold sentToAccess at h
  split at h
  · rename_i haccess
    cases h
    refine ⟨fun hnone => ?_, fun _ u hu hne hn hnet => ?_⟩
    · rw [hnone] at haccess
      cases haccess
    · refine List.mem_filter.mpr ⟨?_, by simpa using ⟨hn, hnet⟩⟩
      exact reservedSubnetsOf_of_mem (List.mem_append_left _ hu) hne
  · rename_i haccess
    cases h
    exact ⟨fun _ => rfl, fun hsome => absurd hsome haccess⟩

/-- A peer that is made is of the other node, and is reached at an address of it. -/
theorem peerFor_made {n net : Znet} {s s' : Session} {p : Option Peer}
    (h : peerFor env hidden points n net s = .ok p s') : ∀ peer ∈ p, peer.subnet = net.subnet ∧
      ∃ accessIP,
        peer.endpoint = bracketed accessIP ++ ":" ++ toString net.wireguardListenPort := by
  unfold peerFor at h
  split at h
  · cases h
    exact fun peer hp => nomatch hp
  · obtain ⟨others, s₁, -, h⟩ := bind_eq_ok.mp h
    obtain ⟨ips, s₂, -, h⟩ := bind_eq_ok.mp h
    obtain ⟨endpoint, s₃, -, h⟩ := bind_eq_ok.mp h
    split at h
    · cases h
      exact fun peer hp => nomatch hp
    · rename_i accessIP
      obtain ⟨key, s₄, -, h⟩ := bind_eq_ok.mp h
      cases h
      intro peer hp
      obtain rfl := Option.some.inj (Option.mem_def.mp hp)
      exact ⟨rfl, accessIP, rfl⟩

theorem peerFor_ok {n net : Znet} {s s' s'' : Session} {p : Option Peer}
    (hsubnets : ∀ a ∈ points, ∃ b, parse a.subnet = some b ∧ b.len = 24)
    (h : peerFor env hidden points n net s = .ok p s') (hlater : Remembers s' s'') :
    PeerOf s'' hidden points s.network.held n net p := by
  unfold peerFor at h
  split at h
  · rename_i hskip
    cases h
    refine ⟨iff_of_false (fun hsome => nomatch hsome) fun hnot => hnot ?_, fun peer hp => nomatch hp⟩
    rcases hskip with hown | hother
    · exact Or.inl hown
    · exact Or.inr (Or.inl hother)
  · rename_i hskip
    rw [not_or] at hskip
    obtain ⟨others, s₁, hothers, h⟩ := bind_eq_ok.mp h
    obtain ⟨ips, s₂, hips, h⟩ := bind_eq_ok.mp h
    obtain ⟨endpoint, s₃, hend, h⟩ := bind_eq_ok.mp h
    obtain ⟨e₀, hcached, rfl⟩ := getNodeEndpoint_ok hend
    obtain ⟨hips, -⟩ := pureStep_eq_ok.mp hips
    cases hpresent : present e₀ with
    | none =>
      rw [hpresent] at h
      cases h
      have hhidden : isHidden s'' net = true := by
        rw [hlater.isHidden_eq hcached, hpresent]
        rfl
      exact ⟨iff_of_false (fun hsome => nomatch hsome) fun hnot => hnot (Or.inr (Or.inr hhidden)),
        fun peer hp => nomatch hp⟩
    | some accessIP =>
      rw [hpresent] at h
      obtain ⟨key, s₄, hkey, h⟩ := bind_eq_ok.mp h
      cases h
      have hhidden : isHidden s'' net = false := by
        have hr := (remembers_of_keeps (keeps_pureStep _ _)).of_ok hkey
        rw [(hr.trans hlater).isHidden_eq hcached, hpresent]
        rfl
      refine ⟨iff_of_true rfl ?_, fun peer hp => ?_⟩
      · rintro (hown | hother | htrue)
        · exact hskip.1 hown
        · exact hskip.2 hother
        · rw [hhidden] at htrue
          cases htrue
      · obtain rfl := Option.some.inj (Option.mem_def.mp hp)
        exact ⟨others, mem_allowedIpsOf hsubnets hips, sentToAccess_ok hothers⟩

theorem modify_length {α : Type*} (front rest : List α) (a : α) (f : α → α) :
    (front ++ a :: rest).modify front.length f = front ++ f a :: rest := by
  induction front with
  | nil => rfl
  | cons b front ih => simpa using ih

/-- The networks of a session once the peers of the one behind `front` are changed. -/
theorem setPeers_at {front rest : List Znet} {z : Znet} {s : Session} (f : List Peer → List Peer)
    (h : s.network.networks = front ++ z :: rest) : ∃ s', setPeers front.length f s = .ok ⟨⟩ s' ∧
      s'.network.networks = front ++ { z with peers := f z.peers } :: rest := by
  refine ⟨_, rfl, ?_⟩
  change s.network.networks.modify front.length _ = _
  rw [h, modify_length]

section
variable {Q : Znet → Znet → Option Peer → Prop} {R : AccessPoint → Peer → Prop}
  {held : List String}

/-- The peers of the other nodes are what `peerFor` returns in states that remember what it
found. -/
theorem pushNodePeers_ok {n z : Znet} {nets front rest : List Znet} {s s' s'' : Session}
    (hpeer : ∀ net s p s', peerFor env hidden points n net s = .ok p s' → s.network.held = held →
      Remembers s' s'' → Q n net p)
    (h : pushNodePeers env hidden points front.length n nets s = .ok ⟨⟩ s')
    (hlater : Remembers s' s'') (hheld : s.network.held = held)
    (hs : s.network.networks = front ++ z :: rest) :
    ∃ opts, List.Forall₂ (Q n) nets opts ∧
      s'.network.networks = front ++ { z with peers := z.peers ++ opts.reduceOption } :: rest := by
  induction nets generalizing s z with
  | nil =>
    cases h
    refine ⟨[], .nil, ?_⟩
    rw [hs, List.reduceOption_nil, List.append_nil]
  | cons net nets ih =>
    obtain ⟨p, s₁, hone, h⟩ := bind_eq_ok.mp h
    have hs₁ : s₁.network.networks = front ++ z :: rest :=
      ((keeps_networks_peerFor n net).of_ok hone).trans hs
    obtain ⟨s₂, hset, hs₂⟩ := setPeers_at (· ++ p.toList) hs₁
    rw [bind_of_ok hset] at h
    have hheld₂ : s₂.network.held = s.network.held :=
      ((sameSubnets_setPeers _ _).of_ok hset).held.trans ((sameSubnets_peerFor n net).of_ok hone).held
    have hrest := ((remembers_pushNodePeers _ n nets).of_ok h).trans hlater
    obtain ⟨opts, hopts, hs'⟩ := ih h (hheld₂.trans hheld) hs₂
    refine ⟨p :: opts, .cons ?_ hopts, ?_⟩
    · exact hpeer net s p s₁ hone hheld (((remembers_setPeers _ _).of_ok hset).trans hrest)
    · rw [hs']
      cases p with
      | none => simp only [Option.toList_none, List.append_nil, List.reduceOption_cons_of_none]
      | some peer =>
        simp only [Option.toList_some, List.append_assoc, List.singleton_append,
          List.reduceOption_cons_of_some]

theorem pushAccessPeers_ok {z : Znet} {own : List AccessPoint} {front rest : List Znet}
    {s s' : Session} (hpoint : ∀ a p, accessPointPeer a = .ok p → R a p)
    (h : pushAccessPeers front.length own s = .ok ⟨⟩ s')
    (hs : s.network.networks = front ++ z :: rest) :
    ∃ peers, List.Forall₂ R own peers ∧
      s'.network.networks = front ++ { z with peers := z.peers ++ peers } :: rest := by
  induction own generalizing s z with
  | nil =>
    cases h
    refine ⟨[], .nil, ?_⟩
    rw [hs, List.append_nil]
  | cons a own ih =>
    obtain ⟨p, s₁, hstep, hrest⟩ := bind_eq_ok.mp h
    obtain ⟨hpeer, rfl⟩ := pureStep_eq_ok.mp hstep
    obtain ⟨s₂, hset, hs₂⟩ := setPeers_at (· ++ [p]) hs
    rw [bind_of_ok hset] at hrest
    obtain ⟨peers, hpeers, hs'⟩ := ih hrest hs₂
    refine ⟨p :: peers, .cons (hpoint a p hpeer) hpeers, ?_⟩
    rw [hs', List.append_assoc, List.singleton_append]

/-- A network with the peers that were made for it, of the other nodes and of its access points. -/
def MadeFrom (Q : Znet → Znet → Option Peer → Prop) (R : AccessPoint → Peer → Prop)
    (points : List AccessPoint) (networks : List Znet) (n z : Znet) : Prop :=
  ∃ opts peers, List.Forall₂ (Q n) networks opts ∧
    List.Forall₂ R (pointsOf points n.nodeId) peers ∧ z =
      { n with peers := opts.reduceOption ++ peers }

theorem rebuildPeers_ok {n : Znet} {networks front rest : List Znet} {s s' s'' : Session}
    (hpeer : ∀ net s p s', peerFor env hidden points n net s = .ok p s' → s.network.held = held →
      Remembers s' s'' → Q n net p) (hpoint : ∀ a p, accessPointPeer a = .ok p → R a p)
    (h : rebuildPeers env hidden points networks front.length n s = .ok ⟨⟩ s')
    (hlater : Remembers s' s'') (hheld : s.network.held = held)
    (hs : s.network.networks = front ++ n :: rest) :
    ∃ z, MadeFrom Q R points networks n z ∧ s'.network.networks = front ++ z :: rest := by
  unfold rebuildPeers at h
  obtain ⟨s₁, hset, hs₁⟩ := setPeers_at (fun _ => []) hs
  rw [bind_of_ok hset] at h
  obtain ⟨_, s₂, hnodes, h⟩ := bind_eq_ok.mp h
  have hheld₁ := ((sameSubnets_setPeers front.length fun _ => []).of_ok hset).held
  obtain ⟨opts, hopts, hs₂⟩ := pushNodePeers_ok hpeer hnodes
    (((remembers_pushAccessPeers _ _).of_ok h).trans hlater) (hheld₁.trans hheld) hs₁
  obtain ⟨peers, hpeers, hs'⟩ := pushAccessPeers_ok hpoint h hs₂
  exact ⟨_, ⟨opts, peers, hopts, hpeers, rfl⟩, by rw [hs', List.nil_append]⟩

theorem sameSubnets_rebuildPeers (networks : List Znet) (k : Nat) (n : Znet) :
    Relates SameSubnets (rebuildPeers env hidden points networks k n) :=
  (sameSubnets_setPeers k _).bind fun _ => (sameSubnets_pushNodePeers k n networks).bind fun _ =>
    sameSubnets_pushAccessPeers k _

theorem rebuildAll_ok (front : List Znet) {nets networks : List Znet} {s s' s'' : Session}
    (hpeer : ∀ n net s p s', peerFor env hidden points n net s = .ok p s' →
      s.network.held = held → Remembers s' s'' → Q n net p)
    (hpoint : ∀ a p, accessPointPeer a = .ok p → R a p)
    (h : rebuildAll env hidden points networks front.length nets s = .ok ⟨⟩ s')
    (hlater : Remembers s' s'') (hheld : s.network.held = held)
    (hs : s.network.networks = front ++ nets) :
    ∃ nets', List.Forall₂ (MadeFrom Q R points networks) nets nets' ∧
      s'.network.networks = front ++ nets' := by
  induction nets generalizing s front with
  | nil =>
    cases h
    exact ⟨[], .nil, hs⟩
  | cons n nets ih =>
    obtain ⟨_, s₁, hone, h⟩ := bind_eq_ok.mp h
    obtain ⟨z, hz, hs₁⟩ := rebuildPeers_ok (hpeer n) hpoint hone
      (((remembers_rebuildAll networks _ nets).of_ok h).trans hlater) hheld hs
    have hlen : front.length + 1 = (front ++ [z]).length := by
      rw [List.length_append, List.length_singleton]
    rw [hlen] at h
    have hheld₁ := ((sameSubnets_rebuildPeers networks _ n).of_ok hone).held
    obtain ⟨nets', hnets, hs'⟩ := ih (front ++ [z]) h (hheld₁.trans hheld)
      (by rw [hs₁, List.append_assoc, List.singleton_append])
    refine ⟨z :: nets', .cons hz hnets, ?_⟩
    rw [hs', List.append_assoc, List.singleton_append]

end

/-- A network with the peers that were made for it. -/
def RebuiltAs (s : Session) (hidden : List (Option Nat × AccessPoint)) (points : List AccessPoint)
    (held : List String) (networks : List Znet) (n z : Znet) : Prop :=
  ∃ opts peers, List.Forall₂ (PeerOf s hidden points held n) networks opts ∧
    List.Forall₂ (fun (a : AccessPoint) (p : Peer) => ∀ t, t ∈ p.allowedIps ↔ InPair a.subnet t)
      (pointsOf points n.nodeId) peers ∧ z = { n with peers := opts.reduceOption ++ peers }

theorem accessPointPeer_ok {a : AccessPoint} {p : Peer} (h : accessPointPeer a = .ok p) :
    p.subnet = a.subnet ∧ p.wireguardPublicKey = a.wireguardPublicKey ∧ p.endpoint = "" ∧
      ∀ t, t ∈ p.allowedIps ↔ InPair a.subnet t := by
  obtain ⟨ips, hips, h⟩ := exceptBind_eq_ok.mp h
  cases h
  exact ⟨rfl, rfl, rfl, fun t => mem_allowed hips⟩

/-- What peers and reservations do not concern. -/
def unrouted (s : Session) : Network := { s.network with networks := [], reservedSubnets := [] }

theorem keeps_unrouted_of_network {α : Type} {x : NetM α} (h : Keeps Session.network x) :
    Keeps unrouted x := h.comp fun n => { n with networks := [], reservedSubnets := [] }

theorem keeps_unrouted_peerFor (n net : Znet) :
    Keeps unrouted (peerFor env hidden points n net) := by
  unfold peerFor
  dsimp only
  split
  · exact keeps_pure _ _
  · refine Keeps.bind ?_ fun others => (keeps_pureStep _ _).bind fun allowedIps =>
      (keeps_unrouted_of_network (keeps_getNodeEndpoint _)).bind fun endpoint => ?_
    · unfold sentToAccess
      split
      · exact Keeps.bind (fun _ => rfl) fun _ => keeps_pure _ _
      · exact keeps_pure _ _
    · split
      · exact keeps_pure _ _
      · exact (keeps_pureStep _ _).bind fun _ => keeps_pure _ _

theorem keeps_unrouted_setPeers (k : Nat) (f : List Peer → List Peer) :
    Keeps unrouted (setPeers k f) := fun _ => rfl

theorem keeps_unrouted_rebuildAll (networks : List Znet) (k : Nat) (nets : List Znet) :
    Keeps unrouted (rebuildAll env hidden points networks k nets) := by
  have hnodes : ∀ k n nets, Keeps unrouted (pushNodePeers env hidden points k n nets) := by
    intro k n nets
    induction nets with
    | nil => exact keeps_pure _ _
    | cons net nets ih =>
      exact (keeps_unrouted_peerFor n net).bind fun _ => (keeps_unrouted_setPeers k _).bind fun _ => ih
  have hpoints : ∀ k own, Keeps unrouted (pushAccessPeers k own) := by
    intro k own
    induction own with
    | nil => exact keeps_pure _ _
    | cons a own ih =>
      exact (keeps_pureStep _ _).bind fun _ => (keeps_unrouted_setPeers k _).bind fun _ => ih
  induction nets generalizing k with
  | nil => exact keeps_pure _ _
  | cons n nets ih =>
    refine Keeps.bind ?_ fun _ => ih (k + 1)
    exact (keeps_unrouted_setPeers k _).bind fun _ => (hnodes k n networks).bind fun _ => hpoints k _

theorem keeps_unrouted_generatePeers : Keeps unrouted (generatePeers env) := by
  refine (keeps_get _).bind fun s => ?_
  dsimp only
  refine Keeps.bind ?_ fun hidden => keeps_unrouted_rebuildAll _ _ _
  unfold hiddenNodes
  split
  · exact keeps_pure _ _
  · exact keeps_unrouted_of_network (keeps_hiddenNodesOf _)

end

/-- The hidden nodes of a network with their access nodes, by what was found of the endpoints. -/
structure HiddenNodes (s s' : Session) (hidden : List (Option Nat × AccessPoint)) : Prop where
  alone : s.network.networks.length = 1 → hidden = []
  listed : s.network.networks.length ≠ 1 → hidden.map (fun p => (p.1, p.2.subnet)) =
    (s.network.networks.filter (isHidden s')).map fun z => (z.nodeId, z.subnet)
  accessNodes : ∀ p ∈ hidden, p.2.nodeId ∈ s'.accessNodes

theorem HiddenNodes.sublist {s s' : Session} {hidden : List (Option Nat × AccessPoint)}
    (h : HiddenNodes s s' hidden) : (hidden.map (fun p => (p.1, p.2.subnet))).Sublist
      ((s.network.networks.filter (isHidden s')).map fun z => (z.nodeId, z.subnet)) := by
  by_cases hone : s.network.networks.length = 1
  · rw [h.alone hone, List.map_nil]
    exact List.nil_sublist _
  · rw [h.listed hone]

theorem HiddenNodes.sublist_subnets {s s' : Session} {hidden : List (Option Nat × AccessPoint)}
    (h : HiddenNodes s s' hidden) : ((hidden.map Prod.snd).map (·.subnet)).Sublist
      ((s.network.networks.filter (isHidden s')).map (·.subnet)) := by
  have hmap := h.sublist.map Prod.snd
  rw [List.map_map, List.map_map] at hmap
  rw [List.map_map]
  exact hmap

/-- The two halves of `generatePeers`: the access nodes are found, then the peers are made. -/
theorem generatePeers_split {env : NetworkEnv} {s s' : Session}
    (h : generatePeers env s = .ok ⟨⟩ s') :
    ∃ hidden s₁, hiddenNodes env s.network.networks s = .ok hidden s₁ ∧ s₁.network = s.network ∧
      rebuildAll env hidden (s.network.accessPoints ++ hidden.map Prod.snd) s.network.networks 0
        s.network.networks s₁ = .ok ⟨⟩ s' ∧ HiddenNodes s s' hidden := by
  unfold generatePeers at h
  obtain ⟨s₁, s₂, hget, h⟩ := bind_eq_ok.mp h
  cases hget
  obtain ⟨hidden, s₁, hhidden, h⟩ := bind_eq_ok.mp h
  have hlater := (remembers_rebuildAll _ _ _).of_ok h
  have hsame : s₁.network = s.network ∧ HiddenNodes s s' hidden := by
    have hrun := hhidden
    unfold hiddenNodes at hrun
    split at hrun
    · rename_i hone
      cases hrun
      exact ⟨rfl, fun _ => rfl, fun hne => absurd hone hne, fun p hp => nomatch hp⟩
    · rename_i hone
      obtain ⟨hmap, hmem⟩ := hiddenNodesOf_ok hrun hlater
      exact ⟨(keeps_hiddenNodesOf _).of_ok hrun, fun heq => absurd heq hone, fun _ => hmap, hmem⟩
  exact ⟨hidden, s₁, hhidden, hsame.1, h, hsame.2⟩

/-- The networks with their peers, by the access nodes that were drawn. -/
theorem generatePeers_drawn {env : NetworkEnv} {s s₁ s' : Session}
    {hidden : List (Option Nat × AccessPoint)}
    (hheld : ∀ u ∈ s.network.held, ∃ a, parse u = some a ∧ a.len = 24)
    (hdrawn : hiddenNodes env s.network.networks s = .ok hidden s₁)
    (h : generatePeers env s = .ok ⟨⟩ s') :
    HiddenNodes s s' hidden ∧ List.Forall₂ (RebuiltAs s' hidden
        (s.network.accessPoints ++ hidden.map Prod.snd) s.network.held s.network.networks)
      s.network.networks s'.network.networks := by
  obtain ⟨hidden', s₁', hdrawn', hsame, hall, hspec⟩ := generatePeers_split h
  cases hdrawn.symm.trans hdrawn'
  have hsubnets : ∀ a ∈ s.network.accessPoints ++ hidden.map Prod.snd,
      ∃ b, parse a.subnet = some b ∧ b.len = 24 := by
    intro a ha
    apply hheld
    rcases List.mem_append.mp ha with ha | ha
    · exact List.mem_append_right _ (List.mem_map_of_mem ha)
    · have hin := hspec.sublist_subnets.subset (List.mem_map_of_mem ha)
      obtain ⟨z, hz, heq⟩ := List.mem_map.mp hin
      exact List.mem_append_left _ (List.mem_map.mpr ⟨z, (List.mem_filter.mp hz).1, heq⟩)
  obtain ⟨nets', hnets, hs'⟩ : ∃ nets', List.Forall₂ (RebuiltAs s' hidden
        (s.network.accessPoints ++ hidden.map Prod.snd) s.network.held s.network.networks)
      s.network.networks nets' ∧ s'.network.networks = [] ++ nets' :=
    rebuildAll_ok [] (fun n net s₁ p s₂ hp (hheld₁ : s₁.network.held = s.network.held) hlater =>
        hheld₁ ▸ peerFor_ok hsubnets hp hlater)
      (fun a p hp => (accessPointPeer_ok hp).2.2.2) hall (Std.Refl.refl s')
      (congrArg Network.held hsame) (by rw [hsame, List.nil_append])
  refine ⟨hspec, ?_⟩
  rw [hs', List.nil_append]
  exact hnets

theorem generatePeers_ok {env : NetworkEnv} {s s' : Session}
    (hheld : ∀ u ∈ s.network.held, ∃ a, parse u = some a ∧ a.len = 24)
    (h : generatePeers env s = .ok ⟨⟩ s') :
    ∃ hidden, HiddenNodes s s' hidden ∧ List.Forall₂ (RebuiltAs s' hidden
        (s.network.accessPoints ++ hidden.map Prod.snd) s.network.held s.network.networks)
      s.network.networks s'.network.networks := by
  obtain ⟨hidden, s₁, hdrawn, -, -, -⟩ := generatePeers_split h
  exact ⟨hidden, generatePeers_drawn hheld hdrawn h⟩

end ThreefoldSdk.Primitives
