import ThreefoldSdk.Primitives.Extend

/-! What the calls on a network leave of its subnets: those it holds, and those it took note of. -/

namespace ThreefoldSdk.Primitives
open Zos Ipv4 Frame

namespace Network

/-- The subnets of the nodes and of the access points. -/
def held (n : Network) : List String :=
  n.networks.map (·.subnet) ++ n.accessPoints.map (·.subnet)

/-- The subnets held or reserved. -/
def taken (n : Network) : List String := n.held ++ n.reservedSubnets

end Network

/-- The same subnets are held, and at most those are reserved in addition. -/
structure SameSubnets (s s' : Session) : Prop where
  ipRange : s'.network.ipRange = s.network.ipRange
  held : s'.network.held = s.network.held
  reserved : ∀ t ∈ s.network.reservedSubnets, t ∈ s'.network.reservedSubnets
  taken : ∀ t ∈ s'.network.reservedSubnets, t ∈ s.network.taken
  nodup : s.network.reservedSubnets.Nodup → s'.network.reservedSubnets.Nodup

theorem SameSubnets.refl (s : Session) : SameSubnets s s :=
  ⟨rfl, rfl, fun _ h => h, fun _ h => List.mem_append_right _ h, id⟩

theorem SameSubnets.of_eq {s s' : Session} (hrange : s'.network.ipRange = s.network.ipRange)
    (hheld : s'.network.held = s.network.held)
    (hreserved : s'.network.reservedSubnets = s.network.reservedSubnets) : SameSubnets s s' := by
  refine ⟨hrange, hheld, fun t h => ?_, fun t h => ?_, fun h => ?_⟩
  · rw [hreserved]
    exact h
  · rw [hreserved] at h
    exact List.mem_append_right _ h
  · rw [hreserved]
    exact h

theorem SameSubnets.of_network {s s' : Session} (h : s'.network = s.network) : SameSubnets s s' :=
  .of_eq (by rw [h]) (by rw [h]) (by rw [h])

theorem SameSubnets.trans {s₁ s₂ s₃ : Session} (h : SameSubnets s₁ s₂) (h' : SameSubnets s₂ s₃) :
    SameSubnets s₁ s₃ := by
  refine ⟨h'.ipRange.trans h.ipRange, h'.held.trans h.held,
    fun t ht => h'.reserved t (h.reserved t ht), fun t ht => ?_, fun hn => h'.nodup (h.nodup hn)⟩
  rcases List.mem_append.mp (h'.taken t ht) with hin | hin
  · rw [h.held] at hin
    exact List.mem_append_left _ hin
  · exact h.taken t hin

instance : Std.Refl SameSubnets := ⟨SameSubnets.refl⟩

instance : IsTrans Session SameSubnets := ⟨fun _ _ _ => SameSubnets.trans⟩

section
variable {env : NetworkEnv} {α β : Type}

theorem keeps_pureStep {γ : Type*} (p : Session → γ) (x : Except GridError α) :
    Keeps p (pureStep x) := by
  cases x with
  | ok a => exact keeps_pure _ _
  | error e => exact keeps_throw _ _

/-- The part of a session that requests leave alone. -/
def unclocked (s : Session) : Session := { s with clock := 0 }

theorem keeps_tick : Keeps unclocked tick := fun _ => rfl

theorem keeps_request : Keeps unclocked (request env) := by
  refine keeps_tick.bind fun clock => ?_
  split
  · exact keeps_throw _ _
  · exact keeps_pure _ _

theorem keeps_lookupEndpoint (nodeId : Nat) : Keeps unclocked (lookupEndpoint env nodeId) := by
  refine keeps_request.bind fun _ => Keeps.bind ?_ fun config => ?_
  · exact (keeps_request.bind fun _ => keeps_pure _ _).tryCatch fun _ => keeps_pure _ _
  · dsimp only
    split
    · exact keeps_pure _ _
    · refine Keeps.bind ?_ fun _ => keeps_pure _ _
      exact (keeps_request.bind fun _ => keeps_pure _ _).tryCatch fun _ => keeps_throw _ _

theorem keeps_capacityAccessNodes : Keeps unclocked (capacityAccessNodes env) :=
  keeps_request.bind fun _ => keeps_pureStep _ _

theorem keeps_randomChoice (choices : List Nat) : Keeps unclocked (randomChoice env choices) :=
  keeps_tick.bind fun _ => keeps_pureStep _ _

theorem keeps_getNodeEndpoint (nodeId : Nat) :
    Keeps Session.network (getNodeEndpoint env nodeId) := by
  refine (keeps_get _).bind fun s => ?_
  split
  · exact keeps_pure _ _
  · exact ((keeps_lookupEndpoint nodeId).comp Session.network).bind fun endpoint =>
      Keeps.bind (fun _ => rfl) fun _ => keeps_pure _ _

theorem keeps_getAccessNodes : Keeps Session.network (getAccessNodes env) := by
  intro s
  unfold getAccessNodes
  have hget : (get : NetM Session) s = .ok s s := rfl
  rw [after_bind_of_ok hget]
  split
  · rfl
  · cases hall : capacityAccessNodes env s with
    | error e s' =>
      rw [after_bind_of_error hall]
      exact (keeps_capacityAccessNodes.comp Session.network).of_error hall
    | ok all s' =>
      rw [after_bind_of_ok hall]
      change s'.network = s.network
      exact (keeps_capacityAccessNodes.comp Session.network).of_ok hall

theorem keeps_hiddenNodeOf (net : Znet) : Keeps Session.network (hiddenNodeOf env net) := by
  refine (keeps_getNodeEndpoint _).bind fun endpoint => ?_
  split
  · exact keeps_pure _ _
  · refine keeps_getAccessNodes.bind fun accessNodes => ?_
    split
    · exact (keeps_get _).bind fun _ => keeps_throw _ _
    · exact ((keeps_randomChoice _).comp Session.network).bind fun _ =>
        (keeps_pureStep _ _).bind fun _ => keeps_pure _ _

theorem keeps_hiddenNodesOf (nets : List Znet) :
    Keeps Session.network (hiddenNodesOf env nets) := by
  induction nets with
  | nil => exact keeps_pure _ _
  | cons net nets ih =>
    exact (keeps_hiddenNodeOf net).bind fun _ => ih.bind fun _ => keeps_pure _ _

theorem sameSubnets_of_keeps {x : NetM α} (h : Keeps Session.network x) :
    Relates SameSubnets x := h.relates.mono fun _ _ hs => .of_network hs

theorem mem_foldl_pushNew {xs ys : List String} {t : String} :
    t ∈ ys.foldl pushNew xs ↔ t ∈ xs ∨ t ∈ ys := by
  induction ys generalizing xs with
  | nil => simp
  | cons y ys ih =>
    have hpush : t ∈ pushNew xs y ↔ t ∈ xs ∨ t = y := by
      unfold pushNew
      split
      · rename_i hy
        exact ⟨Or.inl, fun h => h.elim id fun heq => heq ▸ hy⟩
      · simp
    rw [List.foldl_cons, ih, hpush, List.mem_cons, or_assoc]

theorem nodup_foldl_pushNew {xs : List String} (ys : List String) (h : xs.Nodup) :
    (ys.foldl pushNew xs).Nodup := by
  induction ys generalizing xs with
  | nil => exact h
  | cons y ys ih =>
    apply ih
    unfold pushNew
    split
    · exact h
    · rename_i hy
      exact List.nodup_append.mpr ⟨h, List.nodup_singleton y, by
        rintro a ha b hb rfl
        rw [List.mem_singleton.mp hb] at ha
        exact hy ha⟩

theorem mem_reservedSubnetsOf {n : Network} {t : String} (h : t ∈ n.reservedSubnetsOf) :
    t ∈ n.taken := by
  unfold Network.reservedSubnetsOf at h
  simp only [mem_foldl_pushNew, List.mem_append, List.mem_filter, List.mem_filterMap] at h
  simp only [Network.taken, Network.held, List.mem_append]
  rcases h with h | (⟨⟨node, -, hnet⟩, -⟩ | ⟨h, -⟩) | h
  · exact Or.inr h
  · obtain ⟨net, hfind, rfl⟩ := Option.map_eq_some_iff.mp hnet
    exact Or.inl (Or.inl (List.mem_map_of_mem (List.mem_of_find?_eq_some hfind)))
  · exact Or.inl (Or.inr h)
  · exact Or.inl (Or.inl h)

theorem reservedSubnetsOf_of_mem {n : Network} {t : String} (h : t ∈ n.taken) (ht : t ≠ "") :
    t ∈ n.reservedSubnetsOf := by
  unfold Network.reservedSubnetsOf
  simp only [mem_foldl_pushNew, List.mem_append, List.mem_filter]
  simp only [Network.taken, Network.held, List.mem_append] at h
  rcases h with (h | h) | h
  · exact Or.inr (Or.inr h)
  · exact Or.inr (Or.inl (Or.inr ⟨h, by simpa using ht⟩))
  · exact Or.inl h

/-- A session whose network has taken note of its subnets. -/
def noted (s : Session) : Session :=
  { s with network := { s.network with reservedSubnets := s.network.reservedSubnetsOf } }

theorem getReservedSubnets_eq (s : Session) :
    getReservedSubnets s = .ok s.network.reservedSubnetsOf (noted s) := rfl

theorem sameSubnets_noted (s : Session) : SameSubnets s (noted s) where
  ipRange := rfl
  held := rfl
  reserved _ ht := mem_foldl_pushNew.mpr (Or.inl ht)
  taken _ ht := mem_reservedSubnetsOf ht
  nodup h := nodup_foldl_pushNew _ h

theorem sameSubnets_getReservedSubnets : Relates SameSubnets getReservedSubnets := by
  intro s
  rw [after_of_ok (getReservedSubnets_eq s)]
  exact sameSubnets_noted s

theorem held_modify {n : Network} (k : Nat) {f : Znet → Znet} (hf : ∀ z, (f z).subnet = z.subnet) :
    Network.held { n with networks := n.networks.modify k f } = n.held := by
  have hmap : (n.networks.modify k f).map (·.subnet) = n.networks.map (·.subnet) := by
    apply List.ext_getElem?
    intro i
    rw [List.getElem?_map, List.getElem?_map, List.getElem?_modify]
    cases n.networks[i]? with
    | none => rfl
    | some z =>
      split
      · simp [hf]
      · rfl
  simp only [Network.held, hmap]

theorem sameSubnets_setPeers (k : Nat) (f : List Peer → List Peer) :
    Relates SameSubnets (setPeers k f) :=
  relates_modify fun _ => .of_eq rfl (held_modify k fun _ => rfl) rfl

variable {hidden : List (Option Nat × AccessPoint)} {accessPoints : List AccessPoint}

theorem sameSubnets_peerFor (n net : Znet) :
    Relates SameSubnets (peerFor env hidden accessPoints n net) := by
  unfold peerFor
  dsimp only
  split
  · exact relates_pure _ _
  · refine Relates.bind ?_ fun others =>
      (sameSubnets_of_keeps (keeps_pureStep _ _)).bind fun allowedIps =>
        (sameSubnets_of_keeps (keeps_getNodeEndpoint _)).bind fun endpoint => ?_
    · unfold sentToAccess
      split
      · exact sameSubnets_getReservedSubnets.bind fun _ => relates_pure _ _
      · exact relates_pure _ _
    · split
      · exact relates_pure _ _
      · exact (sameSubnets_of_keeps (keeps_pureStep _ _)).bind fun _ => relates_pure _ _

theorem sameSubnets_pushNodePeers (k : Nat) (n : Znet) (nets : List Znet) :
    Relates SameSubnets (pushNodePeers env hidden accessPoints k n nets) := by
  induction nets with
  | nil => exact relates_pure _ _
  | cons net nets ih =>
    exact (sameSubnets_peerFor n net).bind fun _ =>
      (sameSubnets_setPeers k _).bind fun _ => ih

theorem sameSubnets_pushAccessPeers (k : Nat) (points : List AccessPoint) :
    Relates SameSubnets (pushAccessPeers k points) := by
  induction points with
  | nil => exact relates_pure _ _
  | cons a points ih =>
    exact (sameSubnets_of_keeps (keeps_pureStep _ _)).bind fun _ =>
      (sameSubnets_setPeers k _).bind fun _ => ih

theorem sameSubnets_rebuildAll (networks : List Znet) (k : Nat) (nets : List Znet) :
    Relates SameSubnets (rebuildAll env hidden accessPoints networks k nets) := by
  induction nets generalizing k with
  | nil => exact relates_pure _ _
  | cons n nets ih =>
    refine Relates.bind ?_ fun _ => ih (k + 1)
    exact (sameSubnets_setPeers k _).bind fun _ =>
      (sameSubnets_pushNodePeers k n networks).bind fun _ =>
        sameSubnets_pushAccessPeers k _

theorem sameSubnets_generatePeers : Relates SameSubnets (generatePeers env) := by
  refine (relates_get _).bind fun s => ?_
  dsimp only
  refine Relates.bind ?_ fun hidden => sameSubnets_rebuildAll _ _ _
  unfold hiddenNodes
  split
  · exact relates_pure _ _
  · exact sameSubnets_of_keeps (keeps_hiddenNodesOf _)

theorem keeps_getFreePort (nodeId : Nat) : Keeps unclocked (getFreePort env nodeId) :=
  keeps_request.bind fun _ => Keeps.bind
    (keeps_request.tryCatch fun _ => keeps_throw _ _) fun _ => keeps_pure _ _

theorem keeps_myceliumOf (nodeId : Nat) (mycelium : Bool) (seeds : List MyceliumNetworkModel) :
    Keeps unclocked (myceliumOf env nodeId mycelium seeds) := by
  unfold myceliumOf
  split
  · refine keeps_tick.bind fun clock => ?_
    split
    · exact (keeps_pureStep _ _).bind fun _ => keeps_pure _ _
    · exact keeps_pure _ _
  · exact keeps_pure _ _

theorem keeps_znetOn (nodeId : Nat) (mycelium : Bool) (seeds : List MyceliumNetworkModel)
    (keys : WireGuardKeys) (subnet : String) :
    Keeps unclocked (znetOn env nodeId mycelium seeds keys subnet) :=
  (keeps_get _).bind fun _ => (keeps_getFreePort nodeId).bind fun _ =>
    (keeps_myceliumOf nodeId mycelium seeds).bind fun _ => keeps_pure _ _

end

end ThreefoldSdk.Primitives
