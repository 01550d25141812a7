import ThreefoldSdk.Primitives.Subnets

/-! Runs of calls on a network, and the subnets in all the states they go through. -/

namespace ThreefoldSdk.Primitives
open Zos Ipv4 FirstFree Frame

inductive SubnetCall where
  | addNode (nodeId : Nat) (mycelium : Bool) (description subnet : String)
      (seeds : List MyceliumNetworkModel)
  | addAccess (nodeId : Nat) (ipv4 : Bool)
  | getFreeSubnet
  | validateFreeSubnet (subnet : String)

/-- What a call leaves, whether it returns or throws. -/
def afterSubnetCall (env : NetworkEnv) (s : Session) : SubnetCall → Session
  | .addNode nodeId mycelium description subnet seeds =>
    after (addNode env nodeId mycelium description subnet seeds) s
  | .addAccess nodeId ipv4 => after (addAccess env nodeId ipv4) s
  | .getFreeSubnet => after getFreeSubnet s
  | .validateFreeSubnet subnet => after (validateFreeSubnet subnet) s

/-- A call that picks a subnet finds one left in the range; one that the user picks is a new subnet
of the range, or, for a node, one that was reserved for it. -/
def SubnetCall.Meets (env : NetworkEnv) (range : Addr) (s : Session) : SubnetCall → Prop
  | .addNode nodeId mycelium _ subnet seeds => s.network.nodeExists nodeId = false →
      if subnet = "" then FreeLeft range s.network
      else returned (newZnet env nodeId mycelium subnet seeds s) = true →
        Joins range s.network subnet
  | .addAccess nodeId ipv4 => returned (accessKeys env nodeId ipv4 s) = true →
      FreeLeft range s.network
  | .getFreeSubnet => FreeLeft range s.network
  | .validateFreeSubnet subnet => subnet ∉ s.network.taken → NewSubnet range s.network subnet

section
variable {env : NetworkEnv} {range : Addr} {s : Session}

theorem taken_noted_iff (s : Session) (t : String) :
    t ∈ (noted s).network.taken ↔ t ∈ s.network.taken := by
  constructor
  · intro h
    rcases List.mem_append.mp h with h | h
    · exact List.mem_append_left _ h
    · exact mem_reservedSubnetsOf h
  · intro h
    rcases List.mem_append.mp h with h | h
    · exact List.mem_append_left _ h
    · exact List.mem_append_right _ ((sameSubnets_noted s).reserved t h)

theorem newSubnet_noted_iff (s : Session) (t : String) :
    NewSubnet range (noted s).network t ↔ NewSubnet range s.network t := by
  have hmap : ∀ a, some a ∈ (noted s).network.taken.map parse ↔
      some a ∈ s.network.taken.map parse := by
    intro a
    simp only [List.mem_map, taken_noted_iff]
  simp only [NewSubnet, hmap]

/-- A subnet is handed out and reserved, or the call fails for want of one. -/
theorem getFreeSubnet_spec (hrange : parse s.network.ipRange = some range) (hlen : range.len = 16)
    (h : SubnetsSound range s.network) :
    (∃ e, getFreeSubnet s = .error e (noted s) ∧ FreeLeft range s.network) ∨
      ∃ t s', getFreeSubnet s = .ok t s' ∧ s'.network.ipRange = s.network.ipRange ∧
        s'.network.reservedSubnets.Nodup ∧ t ∈ s'.network.reservedSubnets ∧
        t ∉ s'.network.held ∧ (SubnetsSound range s'.network ↔ FreeLeft range s.network) := by
  obtain ⟨first, hfirst, hflen, hfbase⟩ := firstSubnet_ok hlen
  have hstart : getFreeSubnet s = (do
      let subnet ← pureStep (notNull (search Addr.nextSibling
        (fun a => decide (a.toText ∈ s.network.reservedSubnetsOf))
        (s.network.reservedSubnetsOf.length + 1) first))
      reserveSubnet subnet.toText
      return subnet.toText : NetM String) (noted s) := by
    unfold getFreeSubnet
    rw [bind_of_ok (getReservedSubnets_eq s)]
    have hget : (get : NetM Session) (noted s) = .ok (noted s) (noted s) := rfl
    rw [bind_of_ok hget]
    have haddr : pureStep (addr (noted s).network.ipRange) (noted s) = .ok range (noted s) := by
      change pureStep (addr s.network.ipRange) (noted s) = _
      rw [addr, readAddr_eq_parse, hrange]
      rfl
    have hpick : pureStep (firstSubnet range) (noted s) = .ok first (noted s) := by
      rw [hfirst]
      rfl
    rw [bind_of_ok haddr, bind_of_ok hpick]
  rcases search_free hlen h hflen hfbase with ⟨hsearch, hleft⟩ | ⟨b, hsearch, hnot, hiff⟩
  · refine Or.inl ⟨.typeError, ?_, hleft⟩
    rw [hstart, hsearch]
    rfl
  · refine Or.inr ⟨b.toText, { noted s with network := { (noted s).network with
      reservedSubnets := (noted s).network.reservedSubnets ++ [b.toText] } }, ?_, rfl, ?_, ?_, ?_, ?_⟩
    · rw [hstart, hsearch]
      rfl
    · refine List.nodup_append.mpr ⟨(sameSubnets_noted s).nodup h.reserved_nodup,
        List.nodup_singleton _, ?_⟩
      rintro u hu v hv rfl
      rw [List.mem_singleton.mp hv] at hu
      exact hnot (mem_reservedSubnetsOf hu)
    · exact List.mem_append_right _ (List.mem_singleton_self _)
    · exact fun hin => hnot (List.mem_append_left _ hin)
    · have hnoted : SubnetsSound range (noted s).network :=
        (soundIn_iff_of_same (sameSubnets_noted s) h.reserved_nodup).mpr h
      have hnot' : b.toText ∉ (noted s).network.taken := (taken_noted_iff s _).not.mpr hnot
      rw [sound_reserve_iff hnoted hnot', newSubnet_noted_iff, ← hiff]
      constructor
      · rintro ⟨a, ha, hsub, hnew⟩
        rw [parse_toText, Option.some.injEq] at ha
        rw [ha]
        exact ⟨hsub, hnew⟩
      · rintro ⟨hsub, hnew⟩
        exact ⟨b, parse_toText b, hsub, hnew⟩

theorem afterGetFreeSubnet_iff (hrange : parse s.network.ipRange = some range)
    (hlen : range.len = 16) (h : SubnetsSound range s.network) :
    (after getFreeSubnet s).network.ipRange = s.network.ipRange ∧
      (SubnetsSound range (after getFreeSubnet s).network ↔ FreeLeft range s.network) := by
  rcases getFreeSubnet_spec hrange hlen h with ⟨e, herror, hleft⟩ | ⟨t, s', hok, hip, -, -, -, hiff⟩
  · rw [after_of_error herror]
    have hnoted := (soundIn_iff_of_same (sameSubnets_noted s) h.reserved_nodup).mpr h
    exact ⟨rfl, iff_of_true hnoted hleft⟩
  · rw [after_of_ok hok]
    exact ⟨hip, hiff⟩

theorem afterValidateFreeSubnet_iff (h : SubnetsSound range s.network) (t : String) :
    (after (validateFreeSubnet t) s).network.ipRange = s.network.ipRange ∧
      (SubnetsSound range (after (validateFreeSubnet t) s).network ↔
        (t ∉ s.network.taken → NewSubnet range s.network t)) := by
  have hnoted : SubnetsSound range (noted s).network :=
    (soundIn_iff_of_same (sameSubnets_noted s) h.reserved_nodup).mpr h
  have hstart : validateFreeSubnet t s = (if t ∈ s.network.reservedSubnetsOf then
      throw (.validation s!"subnet {t} is not free.")
    else do
      reserveSubnet t
      return t : NetM String) (noted s) := by
    unfold validateFreeSubnet
    rw [bind_of_ok (getReservedSubnets_eq s)]
    split <;> rfl
  by_cases hin : t ∈ s.network.taken
  · have hrun : validateFreeSubnet t s =
        .error (.validation s!"subnet {t} is not free.") (noted s) := by
      rw [hstart, if_pos ((mem_reservedSubnetsOf_iff h).mpr hin)]
      rfl
    rw [after_of_error hrun]
    exact ⟨rfl, iff_of_true hnoted fun hnot => absurd hin hnot⟩
  · have hrun : validateFreeSubnet t s = .ok t { noted s with network := { (noted s).network with
        reservedSubnets := (noted s).network.reservedSubnets ++ [t] } } := by
      rw [hstart, if_neg ((mem_reservedSubnetsOf_iff h).not.mpr hin)]
      rfl
    rw [after_of_ok hrun]
    refine ⟨rfl, ?_⟩
    rw [sound_reserve_iff hnoted ((taken_noted_iff s t).not.mpr hin), newSubnet_noted_iff]
    exact ⟨fun hnew _ => hnew, fun hmeets => hmeets hin⟩

/-! Calls that add a node or an access point. -/

/-- The session once a network is pushed. -/
def pushed (z : Znet) (s : Session) : Session :=
  { s with network := { s.network with networks := s.network.networks ++ [z] } }

theorem sameSubnets_joinNode (nodeId : Nat) (description : String) (z : Znet) (s : Session) :
    SameSubnets (pushed z s) (after (joinNode env nodeId description z) s) := by
  have hpush : modifyNetwork (fun n => { n with networks := n.networks ++ [z] }) s =
      .ok ⟨⟩ (pushed z s) := rfl
  unfold joinNode
  rw [after_bind_of_ok hpush]
  refine Relates.bind sameSubnets_generatePeers (fun _ => ?_) (pushed z s)
  refine Relates.bind (relates_modify fun _ => .of_eq rfl rfl rfl) fun _ => ?_
  refine Relates.bind (relates_get _) fun s => ?_
  exact Relates.bind (relates_modify fun _ => .of_eq rfl rfl rfl) fun _ => relates_pure _ _

/-- The session once an access point is pushed. -/
def pushedAccess (a : AccessPoint) (s : Session) : Session :=
  { s with network := { s.network with accessPoints := s.network.accessPoints ++ [a] } }

theorem sameSubnets_joinAccess (nodeId : Nat) (subnet endpoint : String) (key : Option String)
    (keys : WireGuardKeys) (s : Session) :
    SameSubnets (pushedAccess ⟨subnet, keys.publicKey, nodeId⟩ s)
      (after (joinAccess env nodeId subnet endpoint key keys) s) := by
  have hpush : modifyNetwork (fun n =>
      { n with accessPoints := n.accessPoints ++ [⟨subnet, keys.publicKey, nodeId⟩] }) s =
      .ok ⟨⟩ (pushedAccess ⟨subnet, keys.publicKey, nodeId⟩ s) := rfl
  unfold joinAccess
  rw [after_bind_of_ok hpush]
  refine Relates.bind sameSubnets_generatePeers (fun _ => ?_) (pushedAccess _ s)
  refine Relates.bind (relates_modify fun _ => .of_eq rfl rfl rfl) fun _ => ?_
  refine Relates.bind (relates_modify fun _ => .of_eq rfl rfl rfl) fun _ => ?_
  exact Relates.bind (relates_get _) fun s => sameSubnets_of_keeps (keeps_pureStep _ _)

theorem znetOn_subnet {nodeId : Nat} {mycelium : Bool} {seeds : List MyceliumNetworkModel}
    {keys : WireGuardKeys} {subnet : String} {s s' : Session} {z : Znet}
    (h : znetOn env nodeId mycelium seeds keys subnet s = .ok z s') : z.subnet = subnet := by
  obtain ⟨s₁, s₂, -, h⟩ := bind_eq_ok.mp h
  obtain ⟨port, s₃, -, h⟩ := bind_eq_ok.mp h
  obtain ⟨m, s₄, -, h⟩ := bind_eq_ok.mp h
  cases h
  rfl

theorem addNode_of_exists {nodeId : Nat} (mycelium : Bool) (description subnet : String)
    (seeds : List MyceliumNetworkModel) (h : s.network.nodeExists nodeId = true) :
    after (addNode env nodeId mycelium description subnet seeds) s = s := by
  unfold addNode
  have hget : (get : NetM Session) s = .ok s s := rfl
  rw [after_bind_of_ok hget, if_pos h]
  rfl

theorem addNode_of_new {nodeId : Nat} (mycelium : Bool) (description subnet : String)
    (seeds : List MyceliumNetworkModel) (h : s.network.nodeExists nodeId = false) :
    after (addNode env nodeId mycelium description subnet seeds) s =
      after (newZnet env nodeId mycelium subnet seeds >>= joinNode env nodeId description) s := by
  unfold addNode
  have hget : (get : NetM Session) s = .ok s s := rfl
  rw [after_bind_of_ok hget, if_neg (by rw [h]; decide)]
  cases hz : newZnet env nodeId mycelium subnet seeds s with
  | error e s' => rw [after_bind_of_error hz, after_bind_of_error hz]
  | ok z s' =>
    rw [after_bind_of_ok hz, after_bind_of_ok hz]
    exact after_bind_pure _ _ _

theorem newZnet_bind {β : Type} (nodeId : Nat) (mycelium : Bool) (subnet : String)
    (seeds : List MyceliumNetworkModel) (f : Znet → NetM β) (s : Session) :
    (newZnet env nodeId mycelium subnet seeds >>= f) s =
      (chooseSubnet subnet >>= fun t =>
        znetOn env nodeId mycelium seeds (env.keypair s.clock) t >>= f)
        { s with clock := s.clock + 1 } := by
  have hkeys : generateWireguardKeypair env s =
      .ok (env.keypair s.clock) { s with clock := s.clock + 1 } := rfl
  unfold newZnet
  rw [bind_assoc, bind_of_ok hkeys, bind_assoc]

/-- What follows once a subnet is chosen: the call fails, or the subnet joins. -/
theorem afterJoin_iff (env : NetworkEnv) (range : Addr) (nodeId : Nat) (mycelium : Bool)
    (description subnet : String) (seeds : List MyceliumNetworkModel) (keys : WireGuardKeys)
    (hn : s.network.reservedSubnets.Nodup) :
    (after (znetOn env nodeId mycelium seeds keys subnet >>= joinNode env nodeId description)
        s).network.ipRange = s.network.ipRange ∧
      (SubnetsSound range (after (znetOn env nodeId mycelium seeds keys subnet >>=
          joinNode env nodeId description) s).network ↔
        if returned (znetOn env nodeId mycelium seeds keys subnet s) = true then
          ∃ n', Holds s.network n' subnet ∧ SubnetsSound range n'
        else SubnetsSound range s.network) := by
  cases hz : znetOn env nodeId mycelium seeds keys subnet s with
  | error e s' =>
    have hsame : s'.network = s.network :=
      ((keeps_znetOn nodeId mycelium seeds keys subnet).comp Session.network).of_error hz
    rw [after_bind_of_error hz, hsame]
    exact ⟨rfl, Iff.rfl⟩
  | ok z s' =>
    have hsame : s'.network = s.network :=
      ((keeps_znetOn nodeId mycelium seeds keys subnet).comp Session.network).of_ok hz
    have hjoin := @sameSubnets_joinNode env nodeId description z s'
    have hnodup : (pushed z s').network.reservedSubnets.Nodup := by
      change s'.network.reservedSubnets.Nodup
      rw [hsame]
      exact hn
    have hholds := holds_network s'.network z
    rw [znetOn_subnet hz, hsame] at hholds
    rw [after_bind_of_ok hz, soundIn_iff_of_same hjoin hnodup]
    refine ⟨hjoin.ipRange.trans (by rw [pushed, hsame]), ?_⟩
    have hpushed : (pushed z s').network =
        { s.network with networks := s.network.networks ++ [z] } := by
      rw [pushed, hsame]
    simp only [returned, ↓reduceIte, hpushed]
    constructor
    · intro hs
      exact ⟨_, hholds, hs⟩
    · rintro ⟨n', hholds', hs⟩
      have hsound := hholds'.sound_of_sound hs
      exact (hholds.sound_iff hsound).mpr ((hholds'.sound_iff hsound).mp hs)

theorem afterAddNode_iff (hrange : parse s.network.ipRange = some range) (hlen : range.len = 16)
    (h : SubnetsSound range s.network) (nodeId : Nat) (mycelium : Bool)
    (description subnet : String) (seeds : List MyceliumNetworkModel) :
    (after (addNode env nodeId mycelium description subnet seeds) s).network.ipRange =
        s.network.ipRange ∧
      (SubnetsSound range (after (addNode env nodeId mycelium description subnet seeds) s).network ↔
        (SubnetCall.addNode nodeId mycelium description subnet seeds).Meets env range s) := by
  cases hexists : s.network.nodeExists nodeId with
  | true =>
    rw [addNode_of_exists _ _ _ _ hexists]
    refine ⟨rfl, iff_of_true h fun hnot => ?_⟩
    rw [hexists] at hnot
    cases hnot
  | false =>
    let s₁ : Session := { s with clock := s.clock + 1 }
    let keys := env.keypair s.clock
    have hstart : after (newZnet env nodeId mycelium subnet seeds >>= joinNode env nodeId description)
        s = after (chooseSubnet subnet >>= fun t =>
          znetOn env nodeId mycelium seeds keys t >>= joinNode env nodeId description) s₁ := by
      unfold after
      rw [newZnet_bind]
    rw [addNode_of_new _ _ _ _ hexists, hstart]
    by_cases hsubnet : subnet = ""
    · -- the subnet is picked
      have hmeets : (SubnetCall.addNode nodeId mycelium description subnet seeds).Meets env range s ↔
          FreeLeft range s.network := by
        simp only [SubnetCall.Meets, hexists, hsubnet, ↓reduceIte, true_implies]
      rw [hmeets]
      have hchoose : chooseSubnet subnet = getFreeSubnet := if_pos hsubnet
      rw [hchoose]
      rcases getFreeSubnet_spec (s := s₁) hrange hlen h with
        ⟨e, herror, hleft⟩ | ⟨t, s₂, hok, hip, hnodup, hres, hheld, hiff⟩
      · rw [after_bind_of_error herror]
        have hnoted := (soundIn_iff_of_same (sameSubnets_noted s₁) h.reserved_nodup).mpr h
        exact ⟨rfl, iff_of_true hnoted hleft⟩
      · obtain ⟨hip', hsound⟩ := afterJoin_iff env range nodeId mycelium description t seeds keys
          hnodup
        rw [after_bind_of_ok hok]
        refine ⟨hip'.trans hip, ?_⟩
        rw [hsound, ← hiff]
        split
        · constructor
          · rintro ⟨n', hholds, hs⟩
            exact hholds.sound_of_sound hs
          · intro hs
            have hholds := holds_network s₂.network ⟨t, "", "", 0, [], none, none⟩
            exact ⟨_, hholds, (hholds.sound_iff_of_reserved hres hheld).mpr hs⟩
        · rfl
    · -- the subnet is the user's
      have hreturned : returned (newZnet env nodeId mycelium subnet seeds s) =
          returned (znetOn env nodeId mycelium seeds keys subnet s₁) := by
        have hkeys : generateWireguardKeypair env s = .ok keys s₁ := rfl
        have hchoose : chooseSubnet subnet s₁ = .ok subnet s₁ := by
          rw [chooseSubnet, if_neg hsubnet]
          rfl
        unfold newZnet
        rw [bind_of_ok hkeys, bind_of_ok hchoose]
      have hchoose : chooseSubnet subnet s₁ = .ok subnet s₁ := by
        rw [chooseSubnet, if_neg hsubnet]
        rfl
      obtain ⟨hip, hsound⟩ := afterJoin_iff (s := s₁) env range nodeId mycelium description subnet
        seeds keys h.reserved_nodup
      rw [after_bind_of_ok hchoose]
      refine ⟨hip, ?_⟩
      rw [hsound]
      simp only [SubnetCall.Meets, hexists, hsubnet, ↓reduceIte, true_implies, hreturned]
      split
      · rename_i hret
        constructor
        · rintro ⟨n', hholds, hs⟩ -
          exact (hholds.sound_iff h).mp hs
        · intro hjoins
          have hholds := holds_network s.network ⟨subnet, "", "", 0, [], none, none⟩
          exact ⟨_, hholds, (hholds.sound_iff h).mpr (hjoins hret)⟩
      · rename_i hret
        exact iff_of_true h fun hret' => absurd hret' hret

theorem keeps_getAccessNodeEndpoint (nodeId : Nat) (ipv4 : Bool) :
    Keeps unclocked (getAccessNodeEndpoint env nodeId ipv4) := by
  refine keeps_capacityAccessNodes.bind fun accessNodes => (keeps_get _).bind fun s => ?_
  dsimp only
  split
  · exact keeps_throw _ _
  · split_ifs <;> first | exact keeps_pure _ _ | exact keeps_throw _ _

theorem keeps_accessKeys (nodeId : Nat) (ipv4 : Bool) :
    Keeps unclocked (accessKeys env nodeId ipv4) := by
  refine (keeps_get _).bind fun s => ?_
  split
  · refine (keeps_getAccessNodeEndpoint nodeId ipv4).bind fun _ => Keeps.bind ?_ fun _ =>
      Keeps.bind (fun _ => rfl) fun _ => keeps_pure _ _
    refine (keeps_get _).bind fun s => ?_
    split
    · exact (keeps_pureStep _ _).bind fun _ => keeps_pure _ _
    · exact keeps_pure _ _
  · exact keeps_throw _ _

theorem afterAddAccess_iff (hrange : parse s.network.ipRange = some range) (hlen : range.len = 16)
    (h : SubnetsSound range s.network) (nodeId : Nat) (ipv4 : Bool) :
    (after (addAccess env nodeId ipv4) s).network.ipRange = s.network.ipRange ∧
      (SubnetsSound range (after (addAccess env nodeId ipv4) s).network ↔
        (SubnetCall.addAccess nodeId ipv4).Meets env range s) := by
  have hmeets : (SubnetCall.addAccess nodeId ipv4).Meets env range s ↔
      (returned (accessKeys env nodeId ipv4 s) = true → FreeLeft range s.network) := Iff.rfl
  rw [hmeets]
  unfold addAccess
  cases hkeys : accessKeys env nodeId ipv4 s with
  | error e s₁ =>
    have hsame : s₁.network = s.network :=
      ((keeps_accessKeys nodeId ipv4).comp Session.network).of_error hkeys
    rw [after_bind_of_error hkeys, hsame]
    refine ⟨rfl, iff_of_true h fun hret => ?_⟩
    cases hret
  | ok r s₁ =>
    obtain ⟨endpoint, key, keys⟩ := r
    have hsame : s₁.network = s.network :=
      ((keeps_accessKeys nodeId ipv4).comp Session.network).of_ok hkeys
    rw [← hsame] at hrange h
    have hreturned : returned (EStateM.Result.ok (endpoint, key, keys) s₁ :
        EStateM.Result GridError _ _) = true := rfl
    rw [after_bind_of_ok hkeys, hreturned, ← hsame]
    simp only [true_implies]
    rcases getFreeSubnet_spec hrange hlen h with
      ⟨e, herror, hleft⟩ | ⟨t, s₂, hok, hip, hnodup, hres, hheld, hiff⟩
    · rw [after_bind_of_error herror]
      have hnoted := (soundIn_iff_of_same (sameSubnets_noted s₁) h.reserved_nodup).mpr h
      exact ⟨rfl, iff_of_true hnoted hleft⟩
    · have hjoin := @sameSubnets_joinAccess env nodeId t endpoint key keys s₂
      have hholds := holds_accessPoint s₂.network ⟨t, keys.publicKey, nodeId⟩
      rw [after_bind_of_ok hok]
      refine ⟨hjoin.ipRange.trans hip, ?_⟩
      rw [soundIn_iff_of_same hjoin hnodup, ← hiff]
      exact hholds.sound_iff_of_reserved hres hheld

/-- One call keeps the subnets sound exactly when it meets its condition. -/
theorem afterSubnetCall_iff (hrange : parse s.network.ipRange = some range)
    (hlen : range.len = 16) (h : SubnetsSound range s.network) (c : SubnetCall) :
    (afterSubnetCall env s c).network.ipRange = s.network.ipRange ∧
      (SubnetsSound range (afterSubnetCall env s c).network ↔ c.Meets env range s) := by
  cases c with
  | addNode nodeId mycelium description subnet seeds =>
    exact afterAddNode_iff hrange hlen h nodeId mycelium description subnet seeds
  | addAccess nodeId ipv4 => exact afterAddAccess_iff hrange hlen h nodeId ipv4
  | getFreeSubnet => exact afterGetFreeSubnet_iff hrange hlen h
  | validateFreeSubnet t => exact afterValidateFreeSubnet_iff h t

/-- Over any calls on a network, its subnets are sound in every state exactly when every call meets
its condition. -/
theorem subnets_sound_iff (hrange : parse s.network.ipRange = some range) (hlen : range.len = 16)
    (h : SubnetsSound range s.network) (calls : List SubnetCall) :
    Runs.Always (afterSubnetCall env) (fun s => SubnetsSound range s.network) s calls ↔
      Runs.EachMeets (afterSubnetCall env) (fun s c => c.Meets env range s) s calls := by
  refine @Runs.always_iff_eachMeets Session SubnetCall (afterSubnetCall env)
    (fun s => SubnetsSound range s.network) (fun s c => c.Meets env range s)
    (fun s => parse s.network.ipRange = some range) ?_ ?_ s hrange h calls
  · intro s c hrange hsound
    rw [(afterSubnetCall_iff hrange hlen hsound c).1]
    exact hrange
  · intro s c hrange hsound
    exact (afterSubnetCall_iff hrange hlen hsound c).2

end

/-- Node 11 has a public config and is an access node; all other nodes are hidden. -/
def sampleNetworkEnv : NetworkEnv where
  fails _ := none
  accessNodes _ := .ok [(11, ⟨"185.206.122.31/24", ""⟩)]
  publicConfig _ nodeId := if nodeId = 11 then some ⟨"185.206.122.31/24", ""⟩ else none
  interfaces _ _ := []
  wgPorts _ _ := []
  random _ := 0
  port clock _ := 2000 + clock
  keypair clock := ⟨s!"private{clock}", s!"public{clock}"⟩
  randomSeed _ := ""
  publicKey key := some ("public of " ++ key)
  isPrivateIp ip := ip.toList.take 3 = ['1', '0', '.']

def sampleRange : Addr := ⟨167837696, 16, by decide, by decide, by decide⟩

theorem parse_sampleRange : parse "10.1.0.0/16" = some sampleRange := by decide +kernel

def emptySession : Session := ⟨⟨"net", "10.1.0.0/16", [], [], [], [], [], []⟩, [], [], 0⟩

theorem subnetsSound_empty : SubnetsSound sampleRange emptySession.network where
  inside _ ht := absurd ht List.not_mem_nil
  distinct _ ht := absurd ht List.not_mem_nil
  held_nodup := List.nodup_nil
  reserved_nodup := List.nodup_nil

theorem emptySession_sound :
    Runs.Always (afterSubnetCall sampleNetworkEnv) (fun s => SubnetsSound sampleRange s.network)
      emptySession [.getFreeSubnet, .validateFreeSubnet "10.1.5.0/24",
        .addNode 11 false "" "10.1.5.0/24" []] := by
  refine (subnets_sound_iff (s := emptySession) parse_sampleRange rfl subnetsSound_empty _).mpr ?_
  let subnet : Addr := ⟨167838976, 24, by decide, by decide, by decide⟩
  have hparse : parse "10.1.5.0/24" = some subnet := by decide +kernel
  refine Runs.eachMeets_cons.mpr ⟨?_, Runs.eachMeets_cons.mpr ⟨?_,
    Runs.eachMeets_cons.mpr ⟨?_, Runs.eachMeets_nil⟩⟩⟩
  · refine Or.inl ⟨⟨167838208, 24, by decide, by decide, by decide⟩, ?_, by decide, by decide, ?_⟩
    · exact (isSubnet_iff rfl).mpr (by decide)
    · intro b _ hlow hlt
      change 167837696 + 512 ≤ b.base at hlow
      change b.base < 167838208 at hlt
      omega
  · intro _
    exact ⟨subnet, hparse, (isSubnet_iff rfl).mpr (by decide), by decide +kernel⟩
  · intro _
    rw [if_neg (by decide)]
    intro _
    exact ⟨by decide +kernel, subnet, hparse, (isSubnet_iff rfl).mpr (by decide), by decide +kernel⟩

/-- The user may reserve a subnet of another network. -/
theorem foreign_subnet_reserved : SubnetsSound sampleRange emptySession.network ∧
    ¬ Runs.Always (afterSubnetCall sampleNetworkEnv) (fun s => SubnetsSound sampleRange s.network)
      emptySession [.validateFreeSubnet "192.168.7.0/24"] := by
  refine ⟨subnetsSound_empty, fun h => ?_⟩
  have hlast := h [.validateFreeSubnet "192.168.7.0/24"] (List.prefix_refl _)
  have hparse : parse "192.168.7.0/24" =
      some ⟨3232237312, 24, by decide, by decide, by decide⟩ := by decide +kernel
  obtain ⟨a, ha, hsub⟩ := hlast.inside "192.168.7.0/24" (by decide +kernel)
  rw [hparse, Option.some.injEq] at ha
  have hlt := ((isSubnet_iff rfl).mp hsub).2.2
  rw [← ha] at hlt
  exact absurd hlt (by decide)

end ThreefoldSdk.Primitives
