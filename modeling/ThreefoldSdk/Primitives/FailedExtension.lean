import ThreefoldSdk.Primitives.SubnetRuns

/-! What a call of `addNode` or `addAccess` leaves of the lists of the network when it throws. -/

namespace ThreefoldSdk.Primitives
open Zos Ipv4 FirstFree Frame

namespace Network

/-- The lists that `addNode` and `addAccess` extend. -/
def lists (n : Network) :
    List Node × List Znet × List AccessPoint × List UserAccess × List String :=
  (n.nodes, n.networks, n.accessPoints, n.userAccesses, n.reservedSubnets)

/-- The subnet that `getFreeSubnet` picks. -/
def freeSubnet (n : Network) : Except GridError Addr := do
  let range ← addr n.ipRange
  let first ← firstSubnet range
  notNull (search Addr.nextSibling (fun a => decide (a.toText ∈ n.reservedSubnetsOf))
    (n.reservedSubnetsOf.length + 1) first)

/-- No subnet can be picked, and all subnets held are reserved already. -/
def NoneLeft (n : Network) : Prop :=
  (∃ e, n.freeSubnet = .error e) ∧ n.reservedSubnetsOf = n.reservedSubnets

end Network

inductive Extension where
  | addNode (nodeId : Nat) (mycelium : Bool) (description subnet : String)
      (seeds : List MyceliumNetworkModel)
  | addAccess (nodeId : Nat) (ipv4 : Bool)

section
variable (env : NetworkEnv)

def Extension.run : Extension → NetM Unit
  | .addNode nodeId mycelium description subnet seeds =>
    Primitives.addNode env nodeId mycelium description subnet seeds >>= fun _ => pure ⟨⟩
  | .addAccess nodeId ipv4 => Primitives.addAccess env nodeId ipv4 >>= fun _ => pure ⟨⟩

/-- One of the two requests for the ports of a node fails. -/
def PortLookupFails (clock : Nat) : Prop :=
  (env.fails clock).isSome = true ∨ (env.fails (clock + 1)).isSome = true

/-- The seed that was given for the node is no seed. -/
def SeedRefused (nodeId : Nat) (mycelium : Bool) (seeds : List MyceliumNetworkModel) : Prop :=
  mycelium = true ∧
    ∃ seed, present ((seeds.find? fun m => m.nodeId = nodeId).bind (·.seed)) = some seed ∧
      isHexSeed 32 seed = false

/-- The node cannot be an access node. -/
def EndpointRefused (clock nodeId : Nat) (ipv4 : Bool) : Prop :=
  (env.fails clock).isSome = true ∨
    match env.accessNodes clock with
    | .error _ => True
    | .ok accessNodes => ∀ config ∈ accessNodes.lookup nodeId,
        config.ipv4 = "" ∧ (ipv4 = true ∨ config.ipv6 = "")

/-- The private key of the node is no key. -/
def KeyRefused (n : Network) (nodeId : Nat) : Prop :=
  ∃ net ∈ n.networks.find? (fun net => net.nodeId = some nodeId),
    env.publicKey net.wireguardPrivateKey = none

/-- A call that is refused before it reserves a subnet. -/
def Extension.FailsEarly (s : Session) : Extension → Prop
  | .addNode nodeId mycelium _ subnet seeds =>
    if subnet = "" then s.network.NoneLeft
    else PortLookupFails env (s.clock + 1) ∨ SeedRefused nodeId mycelium seeds
  | .addAccess nodeId ipv4 => s.network.nodeExists nodeId = false ∨
      EndpointRefused env s.clock nodeId ipv4 ∨ KeyRefused env s.network nodeId ∨
      s.network.NoneLeft

end

section
variable {env : NetworkEnv} {s : Session}

theorem getFreeSubnet_eq (s : Session) : getFreeSubnet s = (do
    let subnet ← pureStep s.network.freeSubnet
    reserveSubnet subnet.toText
    return subnet.toText : NetM String) (noted s) := by
  have hget : (get : NetM Session) (noted s) = .ok (noted s) (noted s) := rfl
  unfold getFreeSubnet Network.freeSubnet
  rw [bind_of_ok (getReservedSubnets_eq s), bind_of_ok hget]
  change (pureStep (addr s.network.ipRange) >>= _) (noted s) = _
  cases addr s.network.ipRange with
  | error e => rfl
  | ok range =>
    change (pureStep (firstSubnet range) >>= _) (noted s) = _
    cases hfirst : firstSubnet range with
    | error e =>
      change _ = (pureStep (firstSubnet range >>= _) >>= _) (noted s)
      rw [hfirst]
      rfl
    | ok first =>
      change _ = (pureStep (firstSubnet range >>= _) >>= _) (noted s)
      rw [hfirst]
      rfl

theorem getFreeSubnet_of_error {e : GridError} (h : s.network.freeSubnet = .error e) :
    getFreeSubnet s = .error e (noted s) := by
  rw [getFreeSubnet_eq, h]
  rfl

theorem getFreeSubnet_of_ok {a : Addr} (h : s.network.freeSubnet = .ok a) :
    ∃ s', getFreeSubnet s = .ok a.toText s' ∧ s'.clock = s.clock ∧
      s'.network.held = s.network.held ∧
      s'.network.reservedSubnets = s.network.reservedSubnetsOf ++ [a.toText] := by
  rw [getFreeSubnet_eq, h]
  exact ⟨_, rfl, rfl, rfl, rfl⟩

theorem request_of_fails (h : (env.fails s.clock).isSome = true) :
    ∃ e, request env s = .error e { s with clock := s.clock + 1 } := by
  obtain ⟨e, he⟩ := Option.isSome_iff_exists.mp h
  refine ⟨e, ?_⟩
  have htick : tick s = .ok s.clock { s with clock := s.clock + 1 } := rfl
  unfold request
  rw [bind_of_ok htick, he]
  rfl

theorem request_of_answer (h : (env.fails s.clock).isSome = false) :
    request env s = .ok s.clock { s with clock := s.clock + 1 } := by
  have htick : tick s = .ok s.clock { s with clock := s.clock + 1 } := rfl
  unfold request
  rw [bind_of_ok htick, Option.isSome_eq_false_iff.mp h |> Option.isNone_iff_eq_none.mp]
  rfl

theorem getFreePort_returned (nodeId : Nat) (s : Session) :
    returned (getFreePort env nodeId s) = false ↔ PortLookupFails env s.clock := by
  unfold PortLookupFails getFreePort
  cases hfirst : (env.fails s.clock).isSome with
  | true =>
    obtain ⟨e, he⟩ := request_of_fails hfirst
    rw [returned_bind_of_error he]
    simp
  | false =>
    rw [returned_bind_of_ok (request_of_answer hfirst)]
    cases hsecond : (env.fails (s.clock + 1)).isSome with
    | true =>
      obtain ⟨e, he⟩ := @request_of_fails env { s with clock := s.clock + 1 } hsecond
      refine iff_of_true ?_ (Or.inr rfl)
      exact returned_bind_of_error (tryCatch_of_error he)
    | false =>
      have hok := @request_of_answer env { s with clock := s.clock + 1 } hsecond
      refine iff_of_false ?_ (by simp)
      rw [returned_bind_of_ok (tryCatch_of_ok hok), Bool.not_eq_false]
      rfl

theorem myceliumOf_returned (nodeId : Nat) (mycelium : Bool) (seeds : List MyceliumNetworkModel)
    (s : Session) :
    returned (myceliumOf env nodeId mycelium seeds s) = false ↔ SeedRefused nodeId mycelium seeds := by
  unfold myceliumOf SeedRefused
  cases mycelium with
  | false => exact iff_of_false (fun h => nomatch h) fun h => nomatch h.1
  | true =>
    have htick : tick s = .ok s.clock { s with clock := s.clock + 1 } := rfl
    rw [if_pos rfl, returned_bind_of_ok htick]
    cases present ((seeds.find? fun m => m.nodeId = nodeId).bind (·.seed)) with
    | none => exact iff_of_false (fun h => nomatch h) fun ⟨_, seed, hseed, _⟩ => nomatch hseed
    | some seed =>
      have hvalid : validateHexSeed seed 32 = if isHexSeed 32 seed then .ok () else
          .error (.validation s!"Invalid seed. It should be a {32}-character hexadecimal string.") :=
        rfl
      simp only [hvalid, Option.some.injEq, exists_eq_left', true_and]
      cases isHexSeed 32 seed with
      | true => exact iff_of_false (fun h => nomatch h) fun h => nomatch h
      | false => exact iff_of_true rfl rfl

theorem znetOn_returned (nodeId : Nat) (mycelium : Bool) (seeds : List MyceliumNetworkModel)
    (keys : WireGuardKeys) (subnet : String) (s : Session) :
    returned (znetOn env nodeId mycelium seeds keys subnet s) = false ↔
      PortLookupFails env s.clock ∨ SeedRefused nodeId mycelium seeds := by
  have hget : (get : NetM Session) s = .ok s s := rfl
  rw [← getFreePort_returned nodeId s]
  unfold znetOn
  rw [returned_bind_of_ok hget]
  cases hport : getFreePort env nodeId s with
  | error e s' =>
    rw [returned_bind_of_error hport]
    simp only [returned, true_or]
  | ok port s' =>
    rw [← myceliumOf_returned nodeId mycelium seeds s', returned_bind_of_ok hport]
    cases hmycelium : myceliumOf env nodeId mycelium seeds s' with
    | error e s'' =>
      rw [returned_bind_of_error hmycelium]
      simp only [returned, or_true]
    | ok m s'' =>
      rw [returned_bind_of_ok hmycelium]
      exact iff_of_false (fun h : true = false => Bool.noConfusion h) (by simp [returned])

theorem getAccessNodeEndpoint_returned (nodeId : Nat) (ipv4 : Bool) (s : Session) :
    returned (getAccessNodeEndpoint env nodeId ipv4 s) = false ↔
      EndpointRefused env s.clock nodeId ipv4 := by
  unfold getAccessNodeEndpoint EndpointRefused capacityAccessNodes
  rw [bind_assoc]
  cases hfails : (env.fails s.clock).isSome with
  | true =>
    obtain ⟨e, he⟩ := request_of_fails hfails
    rw [returned_bind_of_error he]
    exact iff_of_true rfl (Or.inl rfl)
  | false =>
    rw [returned_bind_of_ok (request_of_answer hfails)]
    simp only [Bool.false_eq_true, false_or]
    cases env.accessNodes s.clock with
    | error e => exact iff_of_true rfl trivial
    | ok accessNodes =>
      let s₁ : Session := { s with clock := s.clock + 1 }
      have hnodes : pureStep (.ok accessNodes) s₁ = .ok accessNodes s₁ := rfl
      have hget : (get : NetM Session) s₁ = .ok s₁ s₁ := rfl
      rw [returned_bind_of_ok hnodes, returned_bind_of_ok hget]
      dsimp only
      cases accessNodes.lookup nodeId with
      | none => exact iff_of_true rfl fun config hconfig => nomatch hconfig
      | some config =>
        simp only [Option.mem_some_iff, forall_eq']
        split_ifs with hrefused hipv4 hipv6
        · exact iff_of_true rfl ⟨hrefused.2, Or.inl hrefused.1⟩
        · exact iff_of_false (fun h => nomatch h) fun h => hipv4 h.1
        · refine iff_of_false (fun h => nomatch h) ?_
          rintro ⟨hempty, hflag | hempty6⟩
          · exact hrefused ⟨hflag, hempty⟩
          · exact hipv6 hempty6
        · exact iff_of_true rfl ⟨not_not.mp hipv4, Or.inr (not_not.mp hipv6)⟩

theorem getNodeWGPublicKey_returned (nodeId : Nat) (s : Session) :
    returned (getNodeWGPublicKey env nodeId s) = false ↔ KeyRefused env s.network nodeId := by
  have hget : (get : NetM Session) s = .ok s s := rfl
  unfold getNodeWGPublicKey KeyRefused
  rw [returned_bind_of_ok hget]
  cases s.network.networks.find? fun net => net.nodeId = some nodeId with
  | none => exact iff_of_false (fun h => nomatch h) fun ⟨_, hnet, _⟩ => nomatch hnet
  | some net =>
    simp only [Option.mem_some_iff, exists_eq_left', getPublicKey]
    cases env.publicKey net.wireguardPrivateKey with
    | none => exact iff_of_true rfl rfl
    | some key => exact iff_of_false (fun h => nomatch h) fun h => nomatch h

theorem keeps_getAccessNodeEndpoint_network (nodeId : Nat) (ipv4 : Bool) :
    Keeps Session.network (getAccessNodeEndpoint env nodeId ipv4) :=
  (keeps_getAccessNodeEndpoint nodeId ipv4).comp Session.network

theorem accessKeys_returned (nodeId : Nat) (ipv4 : Bool) (s : Session) :
    returned (accessKeys env nodeId ipv4 s) = false ↔ s.network.nodeExists nodeId = false ∨
      EndpointRefused env s.clock nodeId ipv4 ∨ KeyRefused env s.network nodeId := by
  have hget : (get : NetM Session) s = .ok s s := rfl
  unfold accessKeys
  rw [returned_bind_of_ok hget]
  cases hexists : s.network.nodeExists nodeId with
  | false =>
    rw [if_neg (by decide)]
    exact iff_of_true rfl (Or.inl rfl)
  | true =>
    rw [if_pos rfl, ← getAccessNodeEndpoint_returned nodeId ipv4 s]
    cases hend : getAccessNodeEndpoint env nodeId ipv4 s with
    | error e s' =>
      rw [returned_bind_of_error hend]
      exact iff_of_true rfl (Or.inr (Or.inl rfl))
    | ok endpoint s' =>
      rw [← (keeps_getAccessNodeEndpoint_network nodeId ipv4).of_ok hend,
        ← getNodeWGPublicKey_returned nodeId s', returned_bind_of_ok hend]
      cases hkey : getNodeWGPublicKey env nodeId s' with
      | error e s'' =>
        rw [returned_bind_of_error hkey]
        exact iff_of_true rfl (Or.inr (Or.inr rfl))
      | ok key s'' =>
        rw [returned_bind_of_ok hkey]
        refine iff_of_false (fun h => nomatch h) ?_
        rintro (h | h | h) <;> cases h

/-- Lists that hold one subnet more are not the same. -/
theorem lists_ne_of_held {n n' : Network} (h : n'.held.length = n.held.length + 1) :
    n'.lists ≠ n.lists := by
  intro heq
  have hnetworks : n'.networks = n.networks := congrArg (fun l => l.2.1) heq
  have hpoints : n'.accessPoints = n.accessPoints := congrArg (fun l => l.2.2.1) heq
  rw [Network.held, hnetworks, hpoints] at h
  exact absurd h (Nat.ne_of_lt (Nat.lt_succ_self _))

theorem length_le_foldl_pushNew (xs ys : List String) : xs.length ≤ (ys.foldl pushNew xs).length := by
  induction ys generalizing xs with
  | nil => exact le_rfl
  | cons y ys ih =>
    refine le_trans ?_ (ih (pushNew xs y))
    unfold pushNew
    split
    · exact le_rfl
    · rw [List.length_append]
      exact Nat.le_add_right _ _

/-- Lists with a subnet more that is reserved are not the same. -/
theorem lists_ne_of_reserved {n n' : Network} {t : String}
    (h : n'.reservedSubnets = n.reservedSubnetsOf ++ [t]) : n'.lists ≠ n.lists := by
  intro heq
  have hreserved : n'.reservedSubnets = n.reservedSubnets := congrArg (fun l => l.2.2.2.2) heq
  have hle : n.reservedSubnets.length ≤ n.reservedSubnetsOf.length := length_le_foldl_pushNew _ _
  rw [h] at hreserved
  have hlen := congrArg List.length hreserved
  rw [List.length_append, List.length_singleton] at hlen
  omega

theorem lists_noted_iff (s : Session) : (noted s).network.lists = s.network.lists ↔
    s.network.reservedSubnetsOf = s.network.reservedSubnets := by
  constructor
  · intro heq
    exact congrArg (fun l => l.2.2.2.2) heq
  · intro heq
    change (s.network.nodes, s.network.networks, s.network.accessPoints, s.network.userAccesses,
      s.network.reservedSubnetsOf) = _
    rw [heq]
    rfl

theorem held_joinNode (nodeId : Nat) (description : String) (z : Znet) (s : Session) :
    (after (joinNode env nodeId description z) s).network.held.length =
      s.network.held.length + 1 := by
  rw [(sameSubnets_joinNode nodeId description z s).held]
  exact (holds_network s.network z).held.length_eq

theorem held_joinAccess (nodeId : Nat) (subnet endpoint : String) (key : Option String)
    (keys : WireGuardKeys) (s : Session) :
    (after (joinAccess env nodeId subnet endpoint key keys) s).network.held.length =
      s.network.held.length + 1 := by
  rw [(sameSubnets_joinAccess nodeId subnet endpoint key keys s).held]
  exact (holds_accessPoint s.network ⟨subnet, keys.publicKey, nodeId⟩).held.length_eq

theorem afterAddNode_lists_iff {nodeId : Nat} (mycelium : Bool) (description subnet : String)
    (seeds : List MyceliumNetworkModel) (hnew : s.network.nodeExists nodeId = false) :
    (after (addNode env nodeId mycelium description subnet seeds) s).network.lists =
        s.network.lists ↔
      (Extension.addNode nodeId mycelium description subnet seeds).FailsEarly env s := by
  let s₁ : Session := { s with clock := s.clock + 1 }
  have hstart : after (addNode env nodeId mycelium description subnet seeds) s =
      after (chooseSubnet subnet >>= fun t => znetOn env nodeId mycelium seeds
        (env.keypair s.clock) t >>= joinNode env nodeId description) s₁ := by
    rw [addNode_of_new _ _ _ _ hnew]
    unfold after
    rw [newZnet_bind]
  rw [hstart]
  by_cases hsubnet : subnet = ""
  · have hearly : (Extension.addNode nodeId mycelium description subnet seeds).FailsEarly env s ↔
        s.network.NoneLeft := by
      simp only [Extension.FailsEarly, hsubnet, ↓reduceIte]
    rw [hearly, chooseSubnet, if_pos hsubnet]
    cases hfree : s.network.freeSubnet with
    | error e =>
      rw [after_bind_of_error (@getFreeSubnet_of_error s₁ e hfree), lists_noted_iff]
      exact ⟨fun heq => ⟨⟨e, hfree⟩, heq⟩, fun hnone => hnone.2⟩
    | ok a =>
      have hsome : ¬ s.network.NoneLeft := by
        rintro ⟨⟨e, he⟩, -⟩
        rw [hfree] at he
        cases he
      refine iff_of_false ?_ hsome
      obtain ⟨s₂, hok, -, hheld, hreserved⟩ := @getFreeSubnet_of_ok s₁ a hfree
      rw [after_bind_of_ok hok]
      cases hz : znetOn env nodeId mycelium seeds (env.keypair s.clock) a.toText s₂ with
      | error e s₃ =>
        have hsame : s₃.network = s₂.network :=
          ((keeps_znetOn nodeId mycelium seeds _ _).comp Session.network).of_error hz
        rw [after_bind_of_error hz, hsame]
        exact lists_ne_of_reserved hreserved
      | ok z s₃ =>
        have hsame : s₃.network = s₂.network :=
          ((keeps_znetOn nodeId mycelium seeds _ _).comp Session.network).of_ok hz
        rw [after_bind_of_ok hz]
        apply lists_ne_of_held
        rw [held_joinNode, hsame, hheld]
  · have hearly : (Extension.addNode nodeId mycelium description subnet seeds).FailsEarly env s ↔
        PortLookupFails env s₁.clock ∨ SeedRefused nodeId mycelium seeds := by
      simp only [Extension.FailsEarly, hsubnet, ↓reduceIte, s₁]
    have hchoose : chooseSubnet subnet s₁ = .ok subnet s₁ := by
      rw [chooseSubnet, if_neg hsubnet]
      rfl
    rw [hearly, after_bind_of_ok hchoose,
      ← znetOn_returned nodeId mycelium seeds (env.keypair s.clock) subnet s₁]
    have hkeeps : Keeps Session.network
        (znetOn env nodeId mycelium seeds (env.keypair s.clock) subnet) :=
      (keeps_znetOn nodeId mycelium seeds (env.keypair s.clock) subnet).comp Session.network
    cases hz : znetOn env nodeId mycelium seeds (env.keypair s.clock) subnet s₁ with
    | error e s₂ =>
      have hsame := hkeeps.of_error hz
      rw [after_bind_of_error hz, hsame]
      exact iff_of_true rfl rfl
    | ok z s₂ =>
      have hsame := hkeeps.of_ok hz
      rw [after_bind_of_ok hz]
      refine iff_of_false ?_ fun h : true = false => Bool.noConfusion h
      apply lists_ne_of_held
      rw [held_joinNode, hsame]

theorem afterAddAccess_lists_iff (nodeId : Nat) (ipv4 : Bool) (s : Session) :
    (after (addAccess env nodeId ipv4) s).network.lists = s.network.lists ↔
      (Extension.addAccess nodeId ipv4).FailsEarly env s := by
  have hearly : (Extension.addAccess nodeId ipv4).FailsEarly env s ↔
      returned (accessKeys env nodeId ipv4 s) = false ∨ s.network.NoneLeft := by
    rw [accessKeys_returned, or_assoc, or_assoc]
    exact Iff.rfl
  rw [hearly]
  unfold addAccess
  cases hkeys : accessKeys env nodeId ipv4 s with
  | error e s₁ =>
    have hsame : s₁.network = s.network :=
      ((keeps_accessKeys nodeId ipv4).comp Session.network).of_error hkeys
    rw [after_bind_of_error hkeys, hsame]
    exact iff_of_true rfl (Or.inl rfl)
  | ok r s₁ =>
    obtain ⟨endpoint, key, keys⟩ := r
    have hsame : s₁.network = s.network :=
      ((keeps_accessKeys nodeId ipv4).comp Session.network).of_ok hkeys
    rw [after_bind_of_ok hkeys, ← hsame]
    have hreturned : returned (EStateM.Result.ok (endpoint, key, keys) s₁ :
        EStateM.Result GridError _ _) ≠ false := fun h => nomatch h
    rw [or_iff_right hreturned]
    cases hfree : s₁.network.freeSubnet with
    | error e =>
      rw [after_bind_of_error (getFreeSubnet_of_error hfree), lists_noted_iff]
      exact ⟨fun heq => ⟨⟨e, hfree⟩, heq⟩, fun hnone => hnone.2⟩
    | ok a =>
      have hsome : ¬ s₁.network.NoneLeft := by
        rintro ⟨⟨e, he⟩, -⟩
        rw [hfree] at he
        cases he
      obtain ⟨s₂, hok, -, hheld, -⟩ := getFreeSubnet_of_ok hfree
      refine iff_of_false ?_ hsome
      rw [after_bind_of_ok hok]
      apply lists_ne_of_held
      rw [held_joinAccess, hheld]

/-- A call that throws leaves the lists of the network alone exactly when it is refused before it
reserves a subnet. -/
theorem failedExtension_unchanged_iff (c : Extension) (h : returned (c.run env s) = false) :
    (after (c.run env) s).network.lists = s.network.lists ↔ c.FailsEarly env s := by
  cases c with
  | addNode nodeId mycelium description subnet seeds =>
    cases hexists : s.network.nodeExists nodeId with
    | true =>
      have hget : (get : NetM Session) s = .ok s s := rfl
      have hok : addNode env nodeId mycelium description subnet seeds s = .ok none s := by
        unfold addNode
        rw [bind_of_ok hget, if_pos hexists]
        rfl
      unfold Extension.run at h
      rw [returned_bind_of_ok hok] at h
      cases h
    | false =>
      unfold Extension.run
      rw [after_bind_pure]
      exact afterAddNode_lists_iff mycelium description subnet seeds hexists
  | addAccess nodeId ipv4 =>
    unfold Extension.run
    rw [after_bind_pure]
    exact afterAddAccess_lists_iff nodeId ipv4 s

end

/-- A port lookup that fails. -/
def silentEnv : NetworkEnv :=
    { sampleNetworkEnv with fails := fun _ => some (.other "Error" "no answer") }

theorem portLookup_unchanged :
    returned ((Extension.addNode 12 false "" "10.1.5.0/24" []).run silentEnv emptySession) = false ∧
      (after ((Extension.addNode 12 false "" "10.1.5.0/24" []).run silentEnv)
        emptySession).network.lists = emptySession.network.lists := by
  have hthrows : returned ((Extension.addNode 12 false "" "10.1.5.0/24" []).run silentEnv
      emptySession) = false := by decide +kernel
  refine ⟨hthrows, (failedExtension_unchanged_iff _ hthrows).mpr ?_⟩
  have hgiven : ("10.1.5.0/24" : String) ≠ "" := by decide
  simp only [Extension.FailsEarly, if_neg hgiven]
  exact Or.inl (Or.inl rfl)

/-- Two hidden nodes without an access node: the second one is refused and stays. -/
theorem hiddenNode_stays :
    let s : Session := { emptySession with network :=
      { emptySession.network with networks := [sampleZnet 12 "10.1.2.0/24"] } }
    let call : Extension := .addNode 13 false "" "10.1.5.0/24" []
    returned (call.run sampleNetworkEnv s) = false ∧
      (after (call.run sampleNetworkEnv) s).network.lists ≠ s.network.lists := by
  decide +kernel

end ThreefoldSdk.Primitives
