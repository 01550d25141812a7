import ThreefoldSdk.Zos.Data

/-! Workloads and deployments (`zos/workload.ts`, `zos/deployment.ts`). -/

namespace ThreefoldSdk.Zos

inductive ResultStates where
  | error
  | ok
  | deleted
deriving DecidableEq, Repr

inductive WorkloadTypes where
  | zmachine
  | zmount
  | volume
  | network
  | zdb
  | ipv4
  | ip
  | gatewayfqdnproxy
  | gatewaynameproxy
  | qsfs
  | zlogs
  | networklight
  | zmachinelight
deriving DecidableEq, Repr

def WorkloadTypes.toText : WorkloadTypes → String
  | zmachine => "zmachine"
  | zmount => "zmount"
  | volume => "volume"
  | network => "network"
  | zdb => "zdb"
  | ipv4 => "ipv4"
  | ip => "ip"
  | gatewayfqdnproxy => "gateway-fqdn-proxy"
  | gatewaynameproxy => "gateway-name-proxy"
  | qsfs => "qsfs"
  | zlogs => "zlogs"
  | networklight => "network-light"
  | zmachinelight => "zmachine-light"

theorem WorkloadTypes.toText_injective : Function.Injective WorkloadTypes.toText := by
  intro a b h
  cases a <;> cases b <;> first | rfl | exact absurd h (by decide)

inductive WorkloadData where
  | zmount (d : Zmount)
  | volume (d : Zmount)
  | network (d : Znet)
  | zmachine (d : Zmachine)
  | zdb (d : Zdb)
  | ip (d : PublicIP)
  | ipv4
  | gatewayfqdnproxy (d : GatewayFQDNProxy)
  | gatewaynameproxy (d : GatewayNameProxy)
  | qsfs (d : QuantumSafeFS)
  | zlogs (d : Zlogs)
  | networklight (d : NetworkLight)
  | zmachinelight (d : ZmachineLight)
deriving DecidableEq

namespace WorkloadData

/-- The discriminator under which `fromObj` decodes each class. -/
def type : WorkloadData → WorkloadTypes
  | zmount _ => .zmount
  | volume _ => .volume
  | network _ => .network
  | zmachine _ => .zmachine
  | zdb _ => .zdb
  | ip _ => .ip
  | ipv4 => .ipv4
  | gatewayfqdnproxy _ => .gatewayfqdnproxy
  | gatewaynameproxy _ => .gatewaynameproxy
  | qsfs _ => .qsfs
  | zlogs _ => .zlogs
  | networklight _ => .networklight
  | zmachinelight _ => .zmachinelight

def challenge : WorkloadData → String
  | zmount d => d.challenge
  | volume d => d.challenge
  | network d => d.challenge
  | zmachine d => d.challenge
  | zdb d => d.challenge
  | ip d => d.challenge
  | ipv4 => ""
  | gatewayfqdnproxy d => d.challenge
  | gatewaynameproxy d => d.challenge
  | qsfs d => d.challenge
  | zlogs d => d.challenge
  | networklight d => d.challenge
  | zmachinelight d => d.challenge

def valid (v : Validators) : WorkloadData → Bool
  | zmount d => d.valid
  | volume d => d.valid
  | network d => d.valid
  | zmachine d => d.valid v
  | zdb d => d.valid
  | ip _ => true
  | ipv4 => true
  | gatewayfqdnproxy d => d.valid v
  | gatewaynameproxy d => d.valid v
  | qsfs d => d.valid
  | zlogs _ => true
  | networklight d => d.valid
  | zmachinelight d => d.valid v

/-- `data["network"]["interfaces"]`, for the two classes that have it. -/
def interfaces : WorkloadData → Option (List ZNetworkInterface)
  | zmachine d => some d.network.interfaces
  | zmachinelight d => some d.network.interfaces
  | _ => none

/-- `data["network"]["interfaces"][0]`; reading a field of it throws when it is not there. -/
def firstInterface (d : WorkloadData) : Option ZNetworkInterface := d.interfaces.bind List.head?

def setFirstIp (ip : String) : WorkloadData → WorkloadData
  | zmachine d => zmachine { d with network := { d.network with
      interfaces := d.network.interfaces.modifyHead fun i => { i with ip := ip } } }
  | zmachinelight d => zmachinelight { d with network := { d.network with
      interfaces := d.network.interfaces.modifyHead fun i => { i with ip := ip } } }
  | d => d

/-- `data["mounts"]`. -/
def mounts : WorkloadData → Option (List Mount)
  | zmachine d => some d.mounts
  | zmachinelight d => some d.mounts
  | _ => none

def env : WorkloadData → Option Env
  | zmachine d => some d.env
  | zmachinelight d => some d.env
  | _ => none

def flist : WorkloadData → Option String
  | zmachine d => some d.flist
  | zmachinelight d => some d.flist
  | _ => none

/-- `data["subnet"]`. -/
def subnet : WorkloadData → Option String
  | network d => some d.subnet
  | networklight d => some d.subnet
  | _ => none

/-- `data["v4"]`. -/
def v4 : WorkloadData → Bool
  | ip d => d.v4
  | _ => false

end WorkloadData

structure DeploymentResult where
  created : Nat
  state : ResultStates
  message : String
deriving DecidableEq, Repr

/-- `result` is what the node reports; a workload made by the client has none. -/
structure Workload where
  version : Nat
  name : String
  type : WorkloadTypes
  data : WorkloadData
  metadata : String
  description : String
  result : Option DeploymentResult
deriving DecidableEq

namespace Workload

def challenge (w : Workload) : String :=
  toString w.version ++ w.name ++ w.type.toText ++ w.metadata ++ w.description ++ w.data.challenge

/-- The class-validator checks, with the class of the data the one its type names. -/
def valid (v : Validators) (w : Workload) : Bool :=
  isNotEmpty w.name && decide (w.type = w.data.type) && w.data.valid v

def isNetwork (w : Workload) : Bool := decide (w.type = .network)

end Workload

inductive KeypairType where
  | sr25519
  | ed25519
deriving DecidableEq, Repr

structure SignatureRequest where
  twinId : Nat
  required : Bool
  weight : Nat
deriving DecidableEq, Repr

def SignatureRequest.valid (r : SignatureRequest) : Bool := decide (1 ≤ r.twinId ∧ 1 ≤ r.weight)

def SignatureRequest.challenge (r : SignatureRequest) : String :=
  toString r.twinId ++ toString r.required ++ toString r.weight

structure Signature where
  twinId : Nat
  signature : String
  signatureType : KeypairType
deriving DecidableEq, Repr

def Signature.valid (s : Signature) : Bool := decide (1 ≤ s.twinId) && isNotEmpty s.signature

structure SignatureRequirement where
  requests : List SignatureRequest
  weightRequired : Nat
  signatures : List Signature
deriving DecidableEq, Repr

def SignatureRequirement.valid (r : SignatureRequirement) : Bool :=
  r.requests.all SignatureRequest.valid && decide (1 ≤ r.weightRequired)
    && r.signatures.all Signature.valid

def SignatureRequirement.challenge (r : SignatureRequirement) : String :=
  String.join (r.requests.map SignatureRequest.challenge) ++ toString r.weightRequired

/-- A deployment that has not been sent under a contract has no `contractId`. -/
structure Deployment where
  version : Nat
  twinId : Nat
  contractId : Option Nat
  expiration : Int
  metadata : String
  description : String
  workloads : List Workload
  signatureRequirement : SignatureRequirement
deriving DecidableEq

namespace Deployment

def valid (v : Validators) (d : Deployment) : Bool :=
  decide (1 ≤ d.twinId) && d.workloads.all (·.valid v) && d.signatureRequirement.valid

def challenge (d : Deployment) : String :=
  toString d.version ++ toString d.twinId ++ d.metadata ++ d.description ++ toString d.expiration
    ++ String.join (d.workloads.map Workload.challenge) ++ d.signatureRequirement.challenge

def challengeHash (md5 : String → String) (d : Deployment) : String := md5 d.challenge

/-- `sign`; `signature` is the twin's signature of a hash, as hex. -/
def sign (md5 signature : String → String) (twinId : Nat) (keypairType : KeypairType)
    (d : Deployment) : Deployment :=
  let s : Signature := ⟨twinId, signature (d.challengeHash md5), keypairType⟩
  let signed := d.signatureRequirement.signatures.map fun s' =>
    if s'.twinId = twinId then s else s'
  { d with signatureRequirement := { d.signatureRequirement with signatures := signed ++ [s] } }

def names (d : Deployment) : List String := d.workloads.map Workload.name

end Deployment

end ThreefoldSdk.Zos
