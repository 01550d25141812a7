import ThreefoldSdk.Lib.Unseparated
import ThreefoldSdk.Zos.Workload

/-! The pieces a challenge is made of. Every `challenge` is an unseparated text, so it fixes the
data only together with the boundaries of its pieces; `SameChallenged` lists what it fixes then. -/

namespace ThreefoldSdk.Zos
open Unseparated Unseparated.Doc

theorem toString_nat_inj {m n : Nat} : toString m = toString n ↔ m = n := Nat.repr_inj

theorem toString_int_inj {m n : Int} : toString m = toString n ↔ m = n := Int.repr_inj

theorem toString_bool_inj {a b : Bool} : toString a = toString b ↔ a = b := by
  cases a <;> cases b <;> decide

theorem ZdbModes.toText_inj {a b : ZdbModes} : a.toText = b.toText ↔ a = b := by
  cases a <;> cases b <;> decide

theorem WorkloadTypes.toText_inj {a b : WorkloadTypes} : a.toText = b.toText ↔ a = b :=
  toText_injective.eq_iff

def textsDoc (ss : List String) : Doc := listing (ss.map text)

theorem textsDoc_render (ss : List String) : (textsDoc ss).render = String.join ss := by
  simp only [textsDoc, render_listing, List.map_map, Function.comp_def, render_text, List.map_id']

theorem textsDoc_inj {ss ts : List String} (h : textsDoc ss = textsDoc ts) : ss = ts :=
  (listing_map_inj fun _ _ he => by injection he).mp h

/-! Rendering a listing of parts is concatenating what the parts render to. -/

theorem render_listing_map {α : Type*} {f : α → Doc} {g : α → String}
    (h : ∀ a, (f a).render = g a) (xs : List α) :
    (listing (xs.map f)).render = String.join (xs.map g) := by
  rw [render_listing, List.map_map]
  exact congrArg String.join (List.map_congr_left fun a _ => h a)

def ComputeCapacity.doc (c : ComputeCapacity) : Doc :=
  listing [text (toString c.cpu), text (toString c.memory)]

def ZNetworkInterface.doc (i : ZNetworkInterface) : Doc := listing [text i.network, text i.ip]

def Mount.doc (m : Mount) : Doc := listing [text m.name, text m.mountpoint]

def myceliumIpDoc (m : Option MyceliumIP) : Doc :=
  listing [text (m.elim "" (·.network)), text (m.elim "" (·.hexSeed))]

def ZmachineNetwork.doc (n : ZmachineNetwork) : Doc :=
  listing [text n.publicIp, text (toString n.planetary),
    listing (n.interfaces.map ZNetworkInterface.doc), myceliumIpDoc n.mycelium]

def ZmachineLightNetwork.doc (n : ZmachineLightNetwork) : Doc :=
  listing [listing (n.interfaces.map ZNetworkInterface.doc), myceliumIpDoc n.mycelium]

def envEntryDoc (gpu : Option (List String)) (e : String × EnvValue) : Doc :=
  listing [text e.1, text "=", text e.2.toText, textsDoc (gpu.getD [])]

def envDoc (env : Env) (gpu : Option (List String)) : Doc :=
  listing (env.sorted.map (envEntryDoc gpu))

def sizeText (size : Nat) : String := if size = 0 then "0" else toString size

def Zmachine.doc (z : Zmachine) : Doc :=
  listing [text z.flist, z.network.doc, text (sizeText z.size), z.computeCapacity.doc,
    listing (z.mounts.map Mount.doc), text z.entrypoint, envDoc z.env z.gpu]

def ZmachineLight.doc (z : ZmachineLight) : Doc :=
  listing [text z.flist, z.network.doc, text (sizeText z.size), z.computeCapacity.doc,
    listing (z.mounts.map Mount.doc), text z.entrypoint, envDoc z.env z.gpu]

def Zmount.doc (z : Zmount) : Doc := text (toString z.size)

def Peer.doc (p : Peer) : Doc :=
  listing [text p.wireguardPublicKey, text p.endpoint, text p.subnet, textsDoc p.allowedIps]

def myceliumPeers (m : Option Mycelium) : List String := (m.bind (·.peers)).getD []

def myceliumDoc (m : Option Mycelium) : Doc :=
  listing [text (m.elim "" (·.hexKey)), textsDoc (myceliumPeers m)]

def Znet.doc (z : Znet) : Doc :=
  listing [text z.ipRange, text z.subnet, text z.wireguardPrivateKey,
    text (toString z.wireguardListenPort), listing (z.peers.map Peer.doc), myceliumDoc z.mycelium]

def NetworkLight.doc (n : NetworkLight) : Doc := listing [text n.subnet, myceliumDoc n.mycelium]

def GatewayFQDNProxy.doc (g : GatewayFQDNProxy) : Doc :=
  listing [text g.fqdn, text (toString g.tlsPassthrough), textsDoc g.backends,
    text (g.network.getD "")]

def GatewayNameProxy.doc (g : GatewayNameProxy) : Doc :=
  listing [text g.name, text (toString g.tlsPassthrough), textsDoc g.backends,
    text (g.network.getD "")]

def Zdb.doc (z : Zdb) : Doc :=
  listing [text (toString z.size), text z.mode.toText, text z.password, text (toString z.isPublic)]

def Encryption.doc (e : Encryption) : Doc := listing [text e.algorithm, text e.key]

def ZdbBackend.doc (b : ZdbBackend) : Doc :=
  listing [text b.address, text b.namespace, text b.password]

def QuantumSafeConfig.doc (c : QuantumSafeConfig) : Doc :=
  listing [text c.keyPrefix, c.encryption.doc, listing (c.backends.map ZdbBackend.doc)]

def QuantumSafeMeta.doc (m : QuantumSafeMeta) : Doc := listing [text m.type, m.config.doc]

def ZdbGroup.doc (g : ZdbGroup) : Doc := listing (g.backends.map ZdbBackend.doc)

def QuantumSafeFSConfig.doc (c : QuantumSafeFSConfig) : Doc :=
  listing [text (toString c.minimalShards), text (toString c.expectedShards),
    text (toString c.redundantGroups), text (toString c.redundantNodes),
    text (toString c.maxZdbDataDirSize), c.encryption.doc, c.meta.doc,
    listing (c.groups.map ZdbGroup.doc), text c.compression.algorithm]

def QuantumSafeFS.doc (q : QuantumSafeFS) : Doc := listing [text (toString q.cache), q.config.doc]

def zlogsTexts (z : Zlogs) : String × String :=
  (z.zmachine.getD "undefined", z.output.getD "undefined")

def Zlogs.doc (z : Zlogs) : Doc := listing [text (zlogsTexts z).1, text (zlogsTexts z).2]

def PublicIP.doc (p : PublicIP) : Doc := listing [text (toString p.v4), text (toString p.v6)]

def WorkloadData.doc : WorkloadData → Doc
  | zmount d => d.doc
  | volume d => d.doc
  | network d => d.doc
  | zmachine d => d.doc
  | zdb d => d.doc
  | ip d => d.doc
  | ipv4 => empty
  | gatewayfqdnproxy d => d.doc
  | gatewaynameproxy d => d.doc
  | qsfs d => d.doc
  | zlogs d => d.doc
  | networklight d => d.doc
  | zmachinelight d => d.doc

def Workload.doc (w : Workload) : Doc :=
  listing [text (toString w.version), text w.name, text w.type.toText, text w.metadata,
    text w.description, w.data.doc]

def SignatureRequest.doc (r : SignatureRequest) : Doc :=
  listing [text (toString r.twinId), text (toString r.required), text (toString r.weight)]

def SignatureRequirement.doc (r : SignatureRequirement) : Doc :=
  listing [listing (r.requests.map SignatureRequest.doc), text (toString r.weightRequired)]

def Deployment.doc (d : Deployment) : Doc :=
  listing [text (toString d.version), text (toString d.twinId), text d.metadata,
    text d.description, text (toString d.expiration), listing (d.workloads.map Workload.doc),
    d.signatureRequirement.doc]

/-! The tree of each class renders to its challenge. -/

/-- Rendering a literal listing, one part at a time. -/
theorem render_listing_cons (d : Doc) (ds : List Doc) :
    (listing (d :: ds)).render = d.render ++ (listing ds).render := rfl

theorem render_listing_nil : (listing []).render = "" := rfl

theorem ComputeCapacity.doc_render (c : ComputeCapacity) : c.doc.render = c.challenge := by
  simp only [doc, challenge, render_listing_cons, render_listing_nil, render_text, String.append_empty]

theorem ZNetworkInterface.doc_render (i : ZNetworkInterface) :
    i.doc.render = i.network ++ i.ip := by
  simp only [doc, render_listing_cons, render_listing_nil, render_text, String.append_empty]

theorem Mount.doc_render (m : Mount) : m.doc.render = m.challenge := by
  simp only [doc, challenge, render_listing_cons, render_listing_nil, render_text, String.append_empty]

theorem ZmachineNetwork.doc_render (n : ZmachineNetwork) : n.doc.render = n.challenge := by
  simp only [doc, challenge, myceliumIpDoc, render_listing_cons, render_listing_nil, render_text,
    render_listing_map ZNetworkInterface.doc_render, String.append_empty, String.append_assoc]

theorem ZmachineLightNetwork.doc_render (n : ZmachineLightNetwork) :
    n.doc.render = n.challenge := by
  simp only [doc, challenge, myceliumIpDoc, render_listing_cons, render_listing_nil, render_text,
    render_listing_map ZNetworkInterface.doc_render, String.append_empty, String.append_assoc]

theorem envEntryDoc_render (gpu : Option (List String)) (e : String × EnvValue) :
    (envEntryDoc gpu e).render = e.1 ++ "=" ++ e.2.toText ++ gpu.elim "" String.join := by
  cases gpu <;>
    simp only [envEntryDoc, render_listing_cons, render_listing_nil, render_text, textsDoc_render,
      Option.getD_none, Option.getD_some, Option.elim_none, Option.elim_some, String.join_nil,
      String.append_empty, String.append_assoc]

theorem envDoc_render (env : Env) (gpu : Option (List String)) :
    (envDoc env gpu).render = envChallenge env gpu :=
  render_listing_map (envEntryDoc_render gpu) env.sorted

theorem Zmachine.doc_render (z : Zmachine) : z.doc.render = z.challenge := by
  simp only [doc, challenge, sizeText, render_listing_cons, render_listing_nil, render_text,
    ZmachineNetwork.doc_render, ComputeCapacity.doc_render, render_listing_map Mount.doc_render,
    envDoc_render, String.append_empty, String.append_assoc]

theorem ZmachineLight.doc_render (z : ZmachineLight) : z.doc.render = z.challenge := by
  simp only [doc, challenge, sizeText, render_listing_cons, render_listing_nil, render_text,
    ZmachineLightNetwork.doc_render, ComputeCapacity.doc_render,
    render_listing_map Mount.doc_render, envDoc_render, String.append_empty, String.append_assoc]

theorem Peer.doc_render (p : Peer) : p.doc.render = p.challenge := by
  simp only [doc, challenge, render_listing_cons, render_listing_nil, render_text, textsDoc_render,
    String.append_empty, String.append_assoc]

theorem myceliumDoc_render (m : Option Mycelium) :
    (myceliumDoc m).render = myceliumChallenge m := by
  simp only [myceliumDoc, myceliumPeers, myceliumChallenge, render_listing_cons,
    render_listing_nil, render_text, textsDoc_render, String.append_empty]

theorem Znet.doc_render (z : Znet) : z.doc.render = z.challenge := by
  simp only [doc, challenge, render_listing_cons, render_listing_nil, render_text,
    render_listing_map Peer.doc_render, myceliumDoc_render, String.append_empty,
    String.append_assoc]

theorem NetworkLight.doc_render (n : NetworkLight) : n.doc.render = n.challenge := by
  simp only [doc, challenge, render_listing_cons, render_listing_nil, render_text,
    myceliumDoc_render, String.append_empty]

theorem GatewayFQDNProxy.doc_render (g : GatewayFQDNProxy) : g.doc.render = g.challenge := by
  simp only [doc, challenge, render_listing_cons, render_listing_nil, render_text, textsDoc_render,
    String.append_empty, String.append_assoc]

theorem GatewayNameProxy.doc_render (g : GatewayNameProxy) : g.doc.render = g.challenge := by
  simp only [doc, challenge, render_listing_cons, render_listing_nil, render_text, textsDoc_render,
    String.append_empty, String.append_assoc]

theorem Zdb.doc_render (z : Zdb) : z.doc.render = z.challenge := by
  simp only [doc, challenge, render_listing_cons, render_listing_nil, render_text,
    String.append_empty, String.append_assoc]

theorem Encryption.doc_render (e : Encryption) : e.doc.render = e.challenge := by
  simp only [doc, challenge, render_listing_cons, render_listing_nil, render_text,
    String.append_empty]

theorem ZdbBackend.doc_render (b : ZdbBackend) : b.doc.render = b.challenge := by
  simp only [doc, challenge, render_listing_cons, render_listing_nil, render_text,
    String.append_empty, String.append_assoc]

theorem QuantumSafeConfig.doc_render (c : QuantumSafeConfig) : c.doc.render = c.challenge := by
  simp only [doc, challenge, render_listing_cons, render_listing_nil, render_text,
    Encryption.doc_render, render_listing_map ZdbBackend.doc_render, String.append_empty,
    String.append_assoc]

theorem QuantumSafeMeta.doc_render (m : QuantumSafeMeta) : m.doc.render = m.challenge := by
  simp only [doc, challenge, render_listing_cons, render_listing_nil, render_text,
    QuantumSafeConfig.doc_render, String.append_empty]

theorem ZdbGroup.doc_render (g : ZdbGroup) : g.doc.render = g.challenge :=
  render_listing_map ZdbBackend.doc_render g.backends

theorem QuantumSafeFSConfig.doc_render (c : QuantumSafeFSConfig) :
    c.doc.render = c.challenge := by
  simp only [doc, challenge, QuantumCompression.challenge, render_listing_cons,
    render_listing_nil, render_text, Encryption.doc_render, QuantumSafeMeta.doc_render,
    render_listing_map ZdbGroup.doc_render, String.append_empty, String.append_assoc]

theorem QuantumSafeFS.doc_render (q : QuantumSafeFS) : q.doc.render = q.challenge := by
  simp only [doc, challenge, render_listing_cons, render_listing_nil, render_text,
    QuantumSafeFSConfig.doc_render, String.append_empty]

theorem Zlogs.doc_render (z : Zlogs) : z.doc.render = z.challenge := by
  simp only [doc, challenge, zlogsTexts, render_listing_cons, render_listing_nil, render_text,
    String.append_empty]

theorem PublicIP.doc_render (p : PublicIP) : p.doc.render = p.challenge := by
  simp only [doc, challenge, render_listing_cons, render_listing_nil, render_text,
    String.append_empty]

theorem WorkloadData.doc_render (d : WorkloadData) : d.doc.render = d.challenge := by
  cases d with
  | zmount d => rfl
  | volume d => rfl
  | network d => exact d.doc_render
  | zmachine d => exact d.doc_render
  | zdb d => exact d.doc_render
  | ip d => exact d.doc_render
  | ipv4 => rfl
  | gatewayfqdnproxy d => exact d.doc_render
  | gatewaynameproxy d => exact d.doc_render
  | qsfs d => exact d.doc_render
  | zlogs d => exact d.doc_render
  | networklight d => exact d.doc_render
  | zmachinelight d => exact d.doc_render

theorem Workload.doc_render (w : Workload) : w.doc.render = w.challenge := by
  simp only [doc, challenge, render_listing_cons, render_listing_nil, render_text,
    WorkloadData.doc_render, String.append_empty, String.append_assoc]

theorem SignatureRequest.doc_render (r : SignatureRequest) : r.doc.render = r.challenge := by
  simp only [doc, challenge, render_listing_cons, render_listing_nil, render_text,
    String.append_empty, String.append_assoc]

theorem SignatureRequirement.doc_render (r : SignatureRequirement) :
    r.doc.render = r.challenge := by
  simp only [doc, challenge, render_listing_cons, render_listing_nil, render_text,
    render_listing_map SignatureRequest.doc_render, String.append_empty]

theorem Deployment.doc_render (d : Deployment) : d.doc.render = d.challenge := by
  simp only [doc, challenge, render_listing_cons, render_listing_nil, render_text,
    render_listing_map Workload.doc_render, SignatureRequirement.doc_render, String.append_empty,
    String.append_assoc]

end ThreefoldSdk.Zos
