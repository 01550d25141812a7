import ThreefoldSdk.Zos.ChallengeLayout

/-! What two workloads with the same challenge have in common. -/

namespace ThreefoldSdk.Zos
open Unseparated Unseparated.Doc

theorem text_inj {s t : String} : text s = text t ↔ s = t := by simp

theorem map_doc_inj {α : Type*} {f : α → Doc} (hf : ∀ {a b}, f a = f b → a = b) {xs ys : List α}
    (h : xs.map f = ys.map f) : xs = ys := List.map_injective_iff.mpr (fun _ _ he => hf he) h

theorem ComputeCapacity.doc_inj {a b : ComputeCapacity} (h : a.doc = b.doc) : a = b := by
  cases a
  cases b
  simpa [doc, text_inj, toString_nat_inj] using h

theorem ZNetworkInterface.doc_inj {a b : ZNetworkInterface} (h : a.doc = b.doc) : a = b := by
  cases a
  cases b
  simpa [doc] using h

theorem Mount.doc_inj {a b : Mount} (h : a.doc = b.doc) : a = b := by
  cases a
  cases b
  simpa [doc] using h

theorem Peer.doc_inj {a b : Peer} (h : a.doc = b.doc) : a = b := by
  cases a
  cases b
  simp only [doc, listing_inj, List.cons.injEq, text_inj, and_true] at h
  obtain ⟨hkey, hend, hsub, hips⟩ := h
  simp only [hkey, hend, hsub, textsDoc_inj hips]

theorem Zmount.doc_inj {a b : Zmount} (h : a.doc = b.doc) : a = b := by
  cases a
  cases b
  simpa [doc, toString_nat_inj] using h

theorem Zdb.doc_inj {a b : Zdb} (h : a.doc = b.doc) : a = b := by
  cases a
  cases b
  simpa [doc, toString_nat_inj, toString_bool_inj, ZdbModes.toText_inj] using h

theorem PublicIP.doc_inj {a b : PublicIP} (h : a.doc = b.doc) : a = b := by
  cases a
  cases b
  simpa [doc, toString_bool_inj] using h

theorem Encryption.doc_inj {a b : Encryption} (h : a.doc = b.doc) : a = b := by
  cases a
  cases b
  simpa [doc] using h

theorem ZdbBackend.doc_inj {a b : ZdbBackend} (h : a.doc = b.doc) : a = b := by
  cases a
  cases b
  simpa [doc] using h

theorem QuantumSafeConfig.doc_inj {a b : QuantumSafeConfig} (h : a.doc = b.doc) : a = b := by
  cases a
  cases b
  simp only [doc, listing_inj, List.cons.injEq, text_inj, and_true] at h
  obtain ⟨hpre, henc, hback⟩ := h
  simp only [hpre, Encryption.doc_inj henc, map_doc_inj ZdbBackend.doc_inj hback]

theorem QuantumSafeMeta.doc_inj {a b : QuantumSafeMeta} (h : a.doc = b.doc) : a = b := by
  cases a
  cases b
  simp only [doc, listing_inj, List.cons.injEq, text_inj, and_true] at h
  simp only [h.1, QuantumSafeConfig.doc_inj h.2]

theorem ZdbGroup.doc_inj {a b : ZdbGroup} (h : a.doc = b.doc) : a = b := by
  cases a
  cases b
  exact congrArg ZdbGroup.mk (map_doc_inj ZdbBackend.doc_inj (listing_inj.mp h))

theorem QuantumSafeFSConfig.doc_inj {a b : QuantumSafeFSConfig} (h : a.doc = b.doc) : a = b := by
  rcases a with ⟨_, _, _, _, _, _, _, _, ⟨_⟩⟩
  rcases b with ⟨_, _, _, _, _, _, _, _, ⟨_⟩⟩
  simp only [doc, listing_inj, List.cons.injEq, text_inj, toString_nat_inj, and_true] at h
  obtain ⟨hmin, hexp, hgroups, hnodes, hsize, henc, hmeta, hgs, hcomp⟩ := h
  simp only [hmin, hexp, hgroups, hnodes, hsize, hcomp, Encryption.doc_inj henc,
    QuantumSafeMeta.doc_inj hmeta, map_doc_inj ZdbGroup.doc_inj hgs]

theorem QuantumSafeFS.doc_inj {a b : QuantumSafeFS} (h : a.doc = b.doc) : a = b := by
  cases a
  cases b
  simp only [doc, listing_inj, List.cons.injEq, text_inj, toString_nat_inj, and_true] at h
  simp only [h.1, QuantumSafeFSConfig.doc_inj h.2]

theorem SignatureRequest.doc_inj {a b : SignatureRequest} (h : a.doc = b.doc) : a = b := by
  cases a
  cases b
  simpa [doc, toString_nat_inj, toString_bool_inj] using h

theorem sizeText_inj {m n : Nat} (h : sizeText m = sizeText n) : m = n := by
  have hzero : ∀ k : Nat, sizeText k = toString k := by
    intro k
    unfold sizeText
    split_ifs with hk
    · rw [hk]
      rfl
    · rfl
  rw [hzero, hzero] at h
  exact toString_nat_inj.mp h

/-- A validated mycelium address has a network, so its absence shows in the text. -/
theorem myceliumIpDoc_inj {a b : Option MyceliumIP} (ha : a.all MyceliumIP.valid)
    (hb : b.all MyceliumIP.valid) (h : myceliumIpDoc a = myceliumIpDoc b) : a = b := by
  simp only [myceliumIpDoc, listing_inj, List.cons.injEq, text_inj, and_true] at h
  rcases a with _ | ⟨na, sa⟩ <;> rcases b with _ | ⟨nb, sb⟩ <;>
    simp_all [MyceliumIP.valid, isNotEmpty]

theorem ZmachineNetwork.doc_inj {v : Validators} {a b : ZmachineNetwork} (ha : a.valid v)
    (hb : b.valid v) (h : a.doc = b.doc) : a = b := by
  cases a
  cases b
  simp only [valid, Bool.and_eq_true] at ha hb
  simp only [doc, listing_inj, List.cons.injEq, text_inj, toString_bool_inj, and_true] at h
  obtain ⟨hip, hplan, hifs, hmyc⟩ := h
  simp only [hip, hplan, map_doc_inj ZNetworkInterface.doc_inj hifs,
    myceliumIpDoc_inj ha.2 hb.2 hmyc]

theorem ZmachineLightNetwork.doc_inj {v : Validators} {a b : ZmachineLightNetwork}
    (ha : a.valid v) (hb : b.valid v) (h : a.doc = b.doc) : a = b := by
  cases a
  cases b
  simp only [valid, Bool.and_eq_true] at ha hb
  simp only [doc, listing_inj, List.cons.injEq, and_true] at h
  simp only [map_doc_inj ZNetworkInterface.doc_inj h.1,
    myceliumIpDoc_inj ha.2 hb.2 h.2]

/-- The environment as the challenge reads it. -/
def Env.texts (env : Env) : List (String × String) := env.sorted.map fun e => (e.1, e.2.toText)

theorem envDoc_inj {a b : Env} {g g' : Option (List String)} (h : envDoc a g = envDoc b g') :
    a.texts = b.texts := by
  unfold envDoc at h
  unfold Env.texts
  generalize a.sorted = xs at h ⊢
  generalize b.sorted = ys at h ⊢
  induction xs generalizing ys with
  | nil => cases ys <;> simp_all
  | cons x xs ih =>
    cases ys with
    | nil => simp at h
    | cons y ys =>
      simp only [List.map_cons, listing_inj, List.cons.injEq] at h ih ⊢
      obtain ⟨hentry, hrest⟩ := h
      simp only [envEntryDoc, listing_inj, List.cons.injEq, text_inj, true_and, and_true] at hentry
      exact ⟨by rw [hentry.1, hentry.2.1], ih ys hrest⟩

/-- The gpus that the challenge reads: its loop over them is inside the one over the environment. -/
def gpusRead (env : Env) (gpu : Option (List String)) : List String :=
  if env.sorted = [] then [] else gpu.getD []

theorem envDoc_gpus {a b : Env} {g g' : Option (List String)} (h : envDoc a g = envDoc b g') :
    gpusRead a g = gpusRead b g' := by
  unfold envDoc at h
  unfold gpusRead
  cases hx : a.sorted with
  | nil =>
    cases hy : b.sorted with
    | nil => rfl
    | cons y ys =>
      rw [hx, hy] at h
      simp at h
  | cons x xs =>
    cases hy : b.sorted with
    | nil =>
      rw [hx, hy] at h
      simp at h
    | cons y ys =>
      rw [hx, hy] at h
      simp only [List.map_cons, listing_inj, List.cons.injEq, envEntryDoc, text_inj, and_true] at h
      have hgpus : textsDoc (g.getD []) = textsDoc (g'.getD []) := h.1.2.2.2
      simpa using textsDoc_inj hgpus

/-- Equal in every field that the two challenges read; the class is the same. Left out are `corex`,
which no challenge reads, the gpus of a machine without environment, the difference between a value of
the environment and its text, and that between an optional text that is absent and the one written for
it. -/
def WorkloadData.SameChallenged : WorkloadData → WorkloadData → Prop
  | zmount a, zmount b => a = b
  | volume a, volume b => a = b
  | network a, network b =>
    a.subnet = b.subnet ∧ a.ipRange = b.ipRange ∧ a.wireguardPrivateKey = b.wireguardPrivateKey ∧
      a.wireguardListenPort = b.wireguardListenPort ∧ a.peers = b.peers ∧
      a.mycelium.map (·.hexKey) = b.mycelium.map (·.hexKey) ∧
      myceliumPeers a.mycelium = myceliumPeers b.mycelium
  | zmachine a, zmachine b =>
    a.flist = b.flist ∧ a.network = b.network ∧ a.size = b.size ∧
      a.computeCapacity = b.computeCapacity ∧ a.mounts = b.mounts ∧ a.entrypoint = b.entrypoint ∧
      a.env.texts = b.env.texts ∧ gpusRead a.env a.gpu = gpusRead b.env b.gpu
  | zdb a, zdb b => a = b
  | ip a, ip b => a = b
  | ipv4, ipv4 => True
  | gatewayfqdnproxy a, gatewayfqdnproxy b =>
    a.fqdn = b.fqdn ∧ a.tlsPassthrough = b.tlsPassthrough ∧ a.backends = b.backends ∧
      a.network.getD "" = b.network.getD ""
  | gatewaynameproxy a, gatewaynameproxy b =>
    a.name = b.name ∧ a.tlsPassthrough = b.tlsPassthrough ∧ a.backends = b.backends ∧
      a.network.getD "" = b.network.getD ""
  | qsfs a, qsfs b => a = b
  | zlogs a, zlogs b => zlogsTexts a = zlogsTexts b
  | networklight a, networklight b =>
    a.subnet = b.subnet ∧ a.mycelium.map (·.hexKey) = b.mycelium.map (·.hexKey) ∧
      myceliumPeers a.mycelium = myceliumPeers b.mycelium
  | zmachinelight a, zmachinelight b =>
    a.flist = b.flist ∧ a.network = b.network ∧ a.size = b.size ∧
      a.computeCapacity = b.computeCapacity ∧ a.mounts = b.mounts ∧ a.entrypoint = b.entrypoint ∧
      a.env.texts = b.env.texts ∧ gpusRead a.env a.gpu = gpusRead b.env b.gpu
  | _, _ => False

theorem myceliumDoc_inj {a b : Option Mycelium} (ha : a.all Mycelium.valid)
    (hb : b.all Mycelium.valid) (h : myceliumDoc a = myceliumDoc b) :
    a.map (·.hexKey) = b.map (·.hexKey) ∧ myceliumPeers a = myceliumPeers b := by
  simp only [myceliumDoc, listing_inj, List.cons.injEq, text_inj, and_true] at h
  refine ⟨?_, textsDoc_inj h.2⟩
  rcases a with _ | a <;> rcases b with _ | b <;>
    simp_all [Mycelium.valid, isNotEmpty]

theorem Zmachine.sameChallenged {v : Validators} {a b : Zmachine} (ha : a.valid v)
    (hb : b.valid v) (h : a.doc = b.doc) :
    (WorkloadData.zmachine a).SameChallenged (WorkloadData.zmachine b) := by
  simp only [valid, Bool.and_eq_true] at ha hb
  simp only [doc, listing_inj, List.cons.injEq, text_inj, and_true] at h
  obtain ⟨hflist, hnet, hsize, hcap, hmounts, hentry, henv⟩ := h
  exact ⟨hflist, ZmachineNetwork.doc_inj ha.1.1.1.2 hb.1.1.1.2 hnet, sizeText_inj hsize,
    ComputeCapacity.doc_inj hcap, map_doc_inj Mount.doc_inj hmounts, hentry,
    envDoc_inj henv, envDoc_gpus henv⟩

theorem ZmachineLight.sameChallenged {v : Validators} {a b : ZmachineLight} (ha : a.valid v)
    (hb : b.valid v) (h : a.doc = b.doc) :
    (WorkloadData.zmachinelight a).SameChallenged (WorkloadData.zmachinelight b) := by
  simp only [valid, Bool.and_eq_true] at ha hb
  simp only [doc, listing_inj, List.cons.injEq, text_inj, and_true] at h
  obtain ⟨hflist, hnet, hsize, hcap, hmounts, hentry, henv⟩ := h
  exact ⟨hflist, ZmachineLightNetwork.doc_inj ha.1.1.1.2 hb.1.1.1.2 hnet, sizeText_inj hsize,
    ComputeCapacity.doc_inj hcap, map_doc_inj Mount.doc_inj hmounts, hentry,
    envDoc_inj henv, envDoc_gpus henv⟩

theorem Znet.sameChallenged {a b : Znet} (ha : a.valid) (hb : b.valid) (h : a.doc = b.doc) :
    (WorkloadData.network a).SameChallenged (WorkloadData.network b) := by
  simp only [valid, Bool.and_eq_true] at ha hb
  simp only [doc, listing_inj, List.cons.injEq, text_inj, toString_int_inj, and_true] at h
  obtain ⟨hrange, hsub, hkey, hport, hpeers, hmyc⟩ := h
  exact ⟨hsub, hrange, hkey, hport, map_doc_inj Peer.doc_inj hpeers,
    myceliumDoc_inj ha.2 hb.2 hmyc⟩

theorem NetworkLight.sameChallenged {a b : NetworkLight} (ha : a.valid) (hb : b.valid)
    (h : a.doc = b.doc) :
    (WorkloadData.networklight a).SameChallenged (WorkloadData.networklight b) := by
  simp only [valid, Bool.and_eq_true] at ha hb
  simp only [doc, listing_inj, List.cons.injEq, text_inj, and_true] at h
  exact ⟨h.1, myceliumDoc_inj ha.2 hb.2 h.2⟩

/-- One case for each class; the type, which both texts carry, rules out the mixed ones. -/
theorem WorkloadData.sameChallenged {v : Validators} {a b : WorkloadData} (ha : a.valid v)
    (hb : b.valid v) (ht : a.type = b.type) (h : a.doc = b.doc) : a.SameChallenged b := by
  cases a <;> cases b <;> cases ht
  case zmount.zmount => exact Zmount.doc_inj h
  case volume.volume => exact Zmount.doc_inj h
  case network.network => exact Znet.sameChallenged ha hb h
  case zmachine.zmachine => exact Zmachine.sameChallenged ha hb h
  case zdb.zdb => exact Zdb.doc_inj h
  case ip.ip => exact PublicIP.doc_inj h
  case ipv4.ipv4 => trivial
  case gatewayfqdnproxy.gatewayfqdnproxy =>
    simp only [doc, GatewayFQDNProxy.doc, listing_inj, List.cons.injEq, text_inj,
      toString_bool_inj, and_true] at h
    exact ⟨h.1, h.2.1, textsDoc_inj h.2.2.1, h.2.2.2⟩
  case gatewaynameproxy.gatewaynameproxy =>
    simp only [doc, GatewayNameProxy.doc, listing_inj, List.cons.injEq, text_inj,
      toString_bool_inj, and_true] at h
    exact ⟨h.1, h.2.1, textsDoc_inj h.2.2.1, h.2.2.2⟩
  case qsfs.qsfs => exact QuantumSafeFS.doc_inj h
  case zlogs.zlogs =>
    simp only [doc, Zlogs.doc, listing_inj, List.cons.injEq, text_inj, and_true] at h
    exact Prod.ext h.1 h.2
  case networklight.networklight => exact NetworkLight.sameChallenged ha hb h
  case zmachinelight.zmachinelight => exact ZmachineLight.sameChallenged ha hb h

structure Workload.SameChallenged (a b : Workload) : Prop where
  version : a.version = b.version
  name : a.name = b.name
  type : a.type = b.type
  metadata : a.metadata = b.metadata
  description : a.description = b.description
  data : a.data.SameChallenged b.data

theorem Workload.sameChallenged_of_doc_eq {v : Validators} {a b : Workload} (ha : a.valid v)
    (hb : b.valid v) (h : a.doc = b.doc) : a.SameChallenged b := by
  simp only [valid, Bool.and_eq_true, decide_eq_true_eq] at ha hb
  simp only [doc, listing_inj, List.cons.injEq, text_inj, toString_nat_inj,
    WorkloadTypes.toText_inj, and_true] at h
  obtain ⟨hver, hname, htype, hmeta, hdesc, hdata⟩ := h
  refine ⟨hver, hname, htype, hmeta, hdesc, WorkloadData.sameChallenged ha.2 hb.2 ?_ hdata⟩
  rw [← ha.1.2, ← hb.1.2, htype]

/-- Equal in what the signature of a deployment covers. -/
structure Deployment.SameChallenged (a b : Deployment) : Prop where
  version : a.version = b.version
  twinId : a.twinId = b.twinId
  metadata : a.metadata = b.metadata
  description : a.description = b.description
  expiration : a.expiration = b.expiration
  workloads : List.Forall₂ Workload.SameChallenged a.workloads b.workloads
  requests : a.signatureRequirement.requests = b.signatureRequirement.requests
  weightRequired : a.signatureRequirement.weightRequired = b.signatureRequirement.weightRequired

theorem Workload.forall₂_sameChallenged {v : Validators} {as bs : List Workload}
    (ha : ∀ w ∈ as, w.valid v) (hb : ∀ w ∈ bs, w.valid v) (h : as.map doc = bs.map doc) :
    List.Forall₂ SameChallenged as bs := by
  induction as generalizing bs with
  | nil =>
    cases bs with
    | nil => exact List.Forall₂.nil
    | cons b bs => simp at h
  | cons a as ih =>
    cases bs with
    | nil => simp at h
    | cons b bs =>
      simp only [List.map_cons, List.cons.injEq] at h
      exact List.Forall₂.cons
        (sameChallenged_of_doc_eq (ha a List.mem_cons_self) (hb b List.mem_cons_self) h.1)
        (ih (fun w hw => ha w (List.mem_cons_of_mem _ hw))
          (fun w hw => hb w (List.mem_cons_of_mem _ hw)) h.2)

theorem Deployment.sameChallenged_of_doc_eq {v : Validators} {a b : Deployment}
    (ha : ∀ w ∈ a.workloads, w.valid v) (hb : ∀ w ∈ b.workloads, w.valid v)
    (h : a.doc = b.doc) : a.SameChallenged b := by
  simp only [doc, SignatureRequirement.doc, listing_inj, List.cons.injEq, text_inj,
    toString_nat_inj, toString_int_inj, and_true] at h
  obtain ⟨hver, htwin, hmeta, hdesc, hexp, hws, hreq, hweight⟩ := h
  exact ⟨hver, htwin, hmeta, hdesc, hexp, Workload.forall₂_sameChallenged ha hb hws,
    map_doc_inj SignatureRequest.doc_inj hreq, hweight⟩

/-- Equal challenges of validated workloads, or deployments, whose pieces correspond and have, all
but at most one, the same lengths. -/
theorem challenge_covers (v : Validators) :
    (∀ a b : Workload, a.valid v → b.valid v → a.doc.Aligned b.doc → a.doc.shifts b.doc ≤ 1 →
      a.challenge = b.challenge → a.SameChallenged b) ∧
    (∀ a b : Deployment, (∀ w ∈ a.workloads, w.valid v) → (∀ w ∈ b.workloads, w.valid v) →
      a.doc.Aligned b.doc → a.doc.shifts b.doc ≤ 1 →
      a.challenge = b.challenge → a.SameChallenged b) := by
  constructor
  · intro a b ha hb hal hsh hc
    apply Workload.sameChallenged_of_doc_eq ha hb
    apply eq_of_render_eq hal hsh
    rw [Workload.doc_render, Workload.doc_render, hc]
  · intro a b ha hb hal hsh hc
    apply Deployment.sameChallenged_of_doc_eq ha hb
    apply eq_of_render_eq hal hsh
    rw [Deployment.doc_render, Deployment.doc_render, hc]

/-- The checks on the texts of `smallMachine`. -/
def smallMachineChecks : Validators where
  isUrl s := s == "https://hub.grid.tf/a.flist"
  isIp s := s == "10.20.2.2"
  isFqdn _ := false

def smallMachine (cpu memory : Nat) (corex : Bool) : Workload where
  version := 0
  name := "vm"
  type := .zmachine
  data := .zmachine
    { flist := "https://hub.grid.tf/a.flist"
      network := ⟨"", [⟨"net", "10.20.2.2"⟩], false, none⟩
      size := 0
      computeCapacity := ⟨cpu, memory⟩
      mounts := []
      entrypoint := ""
      env := ⟨[], List.nodup_nil⟩
      corex := corex
      gpu := none }
  metadata := ""
  description := ""
  result := none

def smallDeployment (w : Workload) : Deployment where
  version := 0
  twinId := 1
  contractId := none
  expiration := 0
  metadata := ""
  description := ""
  workloads := [w]
  signatureRequirement := ⟨[⟨1, false, 1⟩], 1, []⟩

theorem smallMachine_challenge (cpu memory : Nat) (corex : Bool) :
    (smallMachine cpu memory corex).challenge =
      "0vmzmachinehttps://hub.grid.tf/a.flistfalsenet10.20.2.20" ++
        (toString cpu ++ toString memory) := by
  have hnil : Env.sorted ⟨[], List.nodup_nil⟩ = [] := rfl
  simp only [smallMachine, Workload.challenge, WorkloadData.challenge, Zmachine.challenge,
    ZmachineNetwork.challenge, ComputeCapacity.challenge, envChallenge, hnil, List.map_cons,
    List.map_nil, String.join_cons, String.join_nil, if_true, Option.elim_none,
    String.append_empty, ← String.append_assoc]
  rfl

theorem smallMachine_challenge_covers :
    (smallMachine 1 268435456 true).SameChallenged (smallMachine 1 268435456 false) ∧
    (smallDeployment (smallMachine 1 268435456 true)).SameChallenged
      (smallDeployment (smallMachine 1 268435456 false)) := by
  refine ⟨(challenge_covers smallMachineChecks).1 _ _ (by decide) (by decide)
    (Aligned.refl _) ((shifts_self _).trans_le (Nat.zero_le _)) rfl,
    (challenge_covers smallMachineChecks).2 _ _ ?_ ?_ (Aligned.refl _)
      ((shifts_self _).trans_le (Nat.zero_le _)) rfl⟩ <;>
  · intro w hw
    obtain rfl := List.mem_singleton.mp hw
    decide

/-- Next to each other, the cpu count and the memory of two machines can trade a digit. -/
theorem challenge_not_injective :
    ¬ ∀ (v : Validators) (a b : Workload), a.valid v → b.valid v → a.type = b.type →
      a.challenge = b.challenge →
      a.name = b.name ∧ a.metadata = b.metadata ∧ a.description = b.description ∧
        a.data = b.data := by
  intro h
  have htrade : toString 1 ++ toString 1268435456 = toString 11 ++ toString 268435456 := by decide
  have hsame := h smallMachineChecks (smallMachine 1 1268435456 false)
    (smallMachine 11 268435456 false) (by decide) (by decide) rfl
    (by rw [smallMachine_challenge, smallMachine_challenge, htrade])
  exact absurd hsame.2.2.2 (by decide)

end ThreefoldSdk.Zos
