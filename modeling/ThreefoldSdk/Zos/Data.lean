import Mathlib

/-! The data classes of the workloads (`zos/*.ts`): their fields, the checks class-validator makes
on them and the challenge each one contributes to the text a twin signs. -/

namespace ThreefoldSdk.Zos

/-- The checks of class-validator on text formats. -/
structure Validators where
  isUrl : String → Bool
  isIp : String → Bool
  isFqdn : String → Bool

def isNotEmpty (s : String) : Bool := s != ""

/-- The UTF-16 code units by which JavaScript compares strings. -/
def codeUnits (s : String) : List Nat :=
  s.toList.flatMap fun c =>
    if c.toNat < 0x10000 then [c.toNat]
    else [0xD800 + (c.toNat - 0x10000) / 0x400, 0xDC00 + (c.toNat - 0x10000) % 0x400]

/-- A value of `env: Record<string, unknown>`. Of one that is no string (a number, a boolean, null, an
array or an object) there is the text that `out +=` writes for it. -/
inductive EnvValue where
  | string (s : String)
  | other (text : String)
deriving DecidableEq, Repr

def EnvValue.toText : EnvValue → String
  | string s => s
  | other text => text

/-- A plain object: its own keys are distinct, in the order of their insertion. -/
structure Env where
  entries : List (String × EnvValue)
  keys_nodup : (entries.map Prod.fst).Nodup
deriving DecidableEq

def Env.get (env : Env) (key : String) : Option EnvValue := env.entries.lookup key

/-- The entries in the order of `Object.keys(env).sort()`. -/
def Env.sorted (env : Env) : List (String × EnvValue) :=
  env.entries.insertionSort fun a b => codeUnits a.1 ≤ codeUnits b.1

structure ComputeCapacity where
  cpu : Nat
  memory : Nat
deriving DecidableEq, Repr

namespace ComputeCapacity

def valid (c : ComputeCapacity) : Bool :=
  decide (1 ≤ c.cpu ∧ c.cpu ≤ 32 ∧ 256 * 1024 ^ 2 ≤ c.memory ∧ c.memory ≤ 256 * 1024 ^ 3)

def challenge (c : ComputeCapacity) : String := toString c.cpu ++ toString c.memory

end ComputeCapacity

/-- `ZNetworkInterface`, and `MachineInterface` of zmachine-light. -/
structure ZNetworkInterface where
  network : String
  ip : String
deriving DecidableEq, Repr

namespace ZNetworkInterface

def valid (v : Validators) (i : ZNetworkInterface) : Bool :=
  isNotEmpty i.network && v.isIp i.ip && isNotEmpty i.ip

end ZNetworkInterface

structure MyceliumIP where
  network : String
  hexSeed : String
deriving DecidableEq, Repr

def MyceliumIP.valid (m : MyceliumIP) : Bool := isNotEmpty m.network

structure ZmachineNetwork where
  publicIp : String
  interfaces : List ZNetworkInterface
  planetary : Bool
  mycelium : Option MyceliumIP
deriving DecidableEq, Repr

namespace ZmachineNetwork

def valid (v : Validators) (n : ZmachineNetwork) : Bool :=
  n.interfaces.all (·.valid v) && n.mycelium.all MyceliumIP.valid

def challenge (n : ZmachineNetwork) : String :=
  n.publicIp ++ toString n.planetary
    ++ String.join (n.interfaces.map fun i => i.network ++ i.ip)
    ++ (n.mycelium.elim "" (·.network))
    ++ (n.mycelium.elim "" (·.hexSeed))

end ZmachineNetwork

structure Mount where
  name : String
  mountpoint : String
deriving DecidableEq, Repr

namespace Mount

def valid (m : Mount) : Bool := isNotEmpty m.name && isNotEmpty m.mountpoint

def challenge (m : Mount) : String := m.name ++ m.mountpoint

end Mount

/-- The loop over the sorted environment; the loop over the gpus is inside it. -/
def envChallenge (env : Env) (gpu : Option (List String)) : String :=
  String.join (env.sorted.map fun e =>
    e.1 ++ "=" ++ e.2.toText ++ gpu.elim "" String.join)

structure Zmachine where
  flist : String
  network : ZmachineNetwork
  size : Nat
  computeCapacity : ComputeCapacity
  mounts : List Mount
  entrypoint : String
  env : Env
  corex : Bool
  gpu : Option (List String)
deriving DecidableEq

namespace Zmachine

def valid (v : Validators) (z : Zmachine) : Bool :=
  isNotEmpty z.flist && v.isUrl z.flist && z.network.valid v && decide (z.size ≤ 10 * 1024 ^ 4)
    && z.computeCapacity.valid && z.mounts.all Mount.valid

def challenge (z : Zmachine) : String :=
  z.flist ++ z.network.challenge ++ (if z.size = 0 then "0" else toString z.size)
    ++ z.computeCapacity.challenge ++ String.join (z.mounts.map Mount.challenge)
    ++ z.entrypoint ++ envChallenge z.env z.gpu

end Zmachine

structure ZmachineLightNetwork where
  interfaces : List ZNetworkInterface
  mycelium : Option MyceliumIP
deriving DecidableEq, Repr

namespace ZmachineLightNetwork

def valid (v : Validators) (n : ZmachineLightNetwork) : Bool :=
  n.interfaces.all (·.valid v) && n.mycelium.all MyceliumIP.valid

def challenge (n : ZmachineLightNetwork) : String :=
  String.join (n.interfaces.map fun i => i.network ++ i.ip)
    ++ (n.mycelium.elim "" (·.network))
    ++ (n.mycelium.elim "" (·.hexSeed))

end ZmachineLightNetwork

structure ZmachineLight where
  flist : String
  network : ZmachineLightNetwork
  size : Nat
  computeCapacity : ComputeCapacity
  mounts : List Mount
  entrypoint : String
  env : Env
  corex : Bool
  gpu : Option (List String)
deriving DecidableEq

namespace ZmachineLight

def valid (v : Validators) (z : ZmachineLight) : Bool :=
  isNotEmpty z.flist && v.isUrl z.flist && z.network.valid v && decide (z.size ≤ 10 * 1024 ^ 4)
    && z.computeCapacity.valid && z.mounts.all Mount.valid

def challenge (z : ZmachineLight) : String :=
  z.flist ++ z.network.challenge ++ (if z.size = 0 then "0" else toString z.size)
    ++ z.computeCapacity.challenge ++ String.join (z.mounts.map Mount.challenge)
    ++ z.entrypoint ++ envChallenge z.env z.gpu

end ZmachineLight

/-- `Zmount`, and `Volume`, whose class is the same. -/
structure Zmount where
  size : Nat
deriving DecidableEq, Repr

namespace Zmount

def valid (z : Zmount) : Bool := decide (100 * 1024 ^ 2 ≤ z.size ∧ z.size ≤ 10 * 1024 ^ 4)

def challenge (z : Zmount) : String := toString z.size

end Zmount

structure Peer where
  subnet : String
  wireguardPublicKey : String
  allowedIps : List String
  endpoint : String
deriving DecidableEq, Repr

namespace Peer

def valid (p : Peer) : Bool :=
  isNotEmpty p.subnet && isNotEmpty p.wireguardPublicKey && !p.allowedIps.isEmpty

def challenge (p : Peer) : String :=
  p.wireguardPublicKey ++ p.endpoint ++ p.subnet ++ String.join p.allowedIps

end Peer

structure Mycelium where
  hexKey : String
  peers : Option (List String)
deriving DecidableEq, Repr

namespace Mycelium

def valid (m : Mycelium) : Bool := isNotEmpty m.hexKey

end Mycelium

/-- `mycelium?.hex_key || ""` and the loop over `mycelium?.peers`. -/
def myceliumChallenge (m : Option Mycelium) : String :=
  m.elim "" (·.hexKey) ++ String.join ((m.bind (·.peers)).getD [])

/-- `nodeId` is the property `Network` puts on the object; the class does not declare it. -/
structure Znet where
  subnet : String
  ipRange : String
  wireguardPrivateKey : String
  wireguardListenPort : Int
  peers : List Peer
  mycelium : Option Mycelium
  nodeId : Option Nat
deriving DecidableEq, Repr

namespace Znet

def valid (z : Znet) : Bool :=
  isNotEmpty z.subnet && isNotEmpty z.ipRange && isNotEmpty z.wireguardPrivateKey
    && z.peers.all Peer.valid && z.mycelium.all Mycelium.valid

def challenge (z : Znet) : String :=
  z.ipRange ++ z.subnet ++ z.wireguardPrivateKey ++ toString z.wireguardListenPort
    ++ String.join (z.peers.map Peer.challenge) ++ myceliumChallenge z.mycelium

end Znet

/-- `nodeId` and `ipRange` are put on the object by `ZNetworkLight`. -/
structure NetworkLight where
  subnet : String
  mycelium : Option Mycelium
  nodeId : Option Nat
  ipRange : Option String
deriving DecidableEq, Repr

namespace NetworkLight

def valid (n : NetworkLight) : Bool := isNotEmpty n.subnet && n.mycelium.all Mycelium.valid

def challenge (n : NetworkLight) : String := n.subnet ++ myceliumChallenge n.mycelium

end NetworkLight

structure GatewayFQDNProxy where
  fqdn : String
  tlsPassthrough : Bool
  backends : List String
  network : Option String
deriving DecidableEq, Repr

namespace GatewayFQDNProxy

def valid (v : Validators) (g : GatewayFQDNProxy) : Bool :=
  v.isFqdn g.fqdn && !g.backends.isEmpty && g.backends.all v.isUrl

def challenge (g : GatewayFQDNProxy) : String :=
  g.fqdn ++ toString g.tlsPassthrough ++ String.join g.backends ++ g.network.getD ""

end GatewayFQDNProxy

structure GatewayNameProxy where
  name : String
  tlsPassthrough : Bool
  backends : List String
  network : Option String
deriving DecidableEq, Repr

namespace GatewayNameProxy

def valid (v : Validators) (g : GatewayNameProxy) : Bool :=
  isNotEmpty g.name && !g.backends.isEmpty && g.backends.all v.isUrl

def challenge (g : GatewayNameProxy) : String :=
  g.name ++ toString g.tlsPassthrough ++ String.join g.backends ++ g.network.getD ""

end GatewayNameProxy

inductive ZdbModes where
  | seq
  | user
deriving DecidableEq, Repr

def ZdbModes.toText : ZdbModes → String
  | seq => "seq"
  | user => "user"

structure Zdb where
  size : Nat
  mode : ZdbModes
  password : String
  isPublic : Bool
deriving DecidableEq, Repr

namespace Zdb

def valid (z : Zdb) : Bool := decide (1 ≤ z.size) && isNotEmpty z.password

def challenge (z : Zdb) : String :=
  toString z.size ++ z.mode.toText ++ z.password ++ toString z.isPublic

end Zdb

structure Encryption where
  algorithm : String
  key : String
deriving DecidableEq, Repr

namespace Encryption

def valid (e : Encryption) : Bool := isNotEmpty e.algorithm && isNotEmpty e.key

def challenge (e : Encryption) : String := e.algorithm ++ e.key

end Encryption

structure ZdbBackend where
  address : String
  «namespace» : String
  password : String
deriving DecidableEq, Repr

namespace ZdbBackend

def valid (b : ZdbBackend) : Bool :=
  isNotEmpty b.address && isNotEmpty b.namespace && isNotEmpty b.password

def challenge (b : ZdbBackend) : String := b.address ++ b.namespace ++ b.password

end ZdbBackend

structure QuantumSafeConfig where
  keyPrefix : String
  encryption : Encryption
  backends : List ZdbBackend
deriving DecidableEq, Repr

namespace QuantumSafeConfig

def valid (c : QuantumSafeConfig) : Bool :=
  isNotEmpty c.keyPrefix && c.encryption.valid && c.backends.all ZdbBackend.valid

def challenge (c : QuantumSafeConfig) : String :=
  c.keyPrefix ++ c.encryption.challenge ++ String.join (c.backends.map ZdbBackend.challenge)

end QuantumSafeConfig

structure QuantumSafeMeta where
  type : String
  config : QuantumSafeConfig
deriving DecidableEq, Repr

namespace QuantumSafeMeta

def valid (m : QuantumSafeMeta) : Bool := isNotEmpty m.type && m.config.valid

def challenge (m : QuantumSafeMeta) : String := m.type ++ m.config.challenge

end QuantumSafeMeta

structure ZdbGroup where
  backends : List ZdbBackend
deriving DecidableEq, Repr

namespace ZdbGroup

def valid (g : ZdbGroup) : Bool := g.backends.all ZdbBackend.valid

def challenge (g : ZdbGroup) : String := String.join (g.backends.map ZdbBackend.challenge)

end ZdbGroup

structure QuantumCompression where
  algorithm : String
deriving DecidableEq, Repr

namespace QuantumCompression

def valid (c : QuantumCompression) : Bool := isNotEmpty c.algorithm

def challenge (c : QuantumCompression) : String := c.algorithm

end QuantumCompression

structure QuantumSafeFSConfig where
  minimalShards : Nat
  expectedShards : Nat
  redundantGroups : Nat
  redundantNodes : Nat
  maxZdbDataDirSize : Nat
  encryption : Encryption
  «meta» : QuantumSafeMeta
  groups : List ZdbGroup
  compression : QuantumCompression
deriving DecidableEq, Repr

namespace QuantumSafeFSConfig

def valid (c : QuantumSafeFSConfig) : Bool :=
  decide (1 ≤ c.minimalShards ∧ 2 ≤ c.expectedShards ∧ 1 ≤ c.maxZdbDataDirSize)
    && c.encryption.valid && c.meta.valid && c.groups.all ZdbGroup.valid && c.compression.valid

def challenge (c : QuantumSafeFSConfig) : String :=
  toString c.minimalShards ++ toString c.expectedShards ++ toString c.redundantGroups
    ++ toString c.redundantNodes ++ toString c.maxZdbDataDirSize
    ++ c.encryption.challenge ++ c.meta.challenge ++ String.join (c.groups.map ZdbGroup.challenge)
    ++ c.compression.challenge

end QuantumSafeFSConfig

structure QuantumSafeFS where
  cache : Nat
  config : QuantumSafeFSConfig
deriving DecidableEq, Repr

namespace QuantumSafeFS

def valid (q : QuantumSafeFS) : Bool := decide (250 * 1024 ^ 2 ≤ q.cache) && q.config.valid

def challenge (q : QuantumSafeFS) : String := toString q.cache ++ q.config.challenge

end QuantumSafeFS

/-- No field of the class carries `@Expose`, so an object decoded with `fromObj` has neither. -/
structure Zlogs where
  zmachine : Option String
  output : Option String
deriving DecidableEq, Repr

def Zlogs.challenge (z : Zlogs) : String :=
  z.zmachine.getD "undefined" ++ z.output.getD "undefined"

structure PublicIP where
  v4 : Bool
  v6 : Bool
deriving DecidableEq, Repr

def PublicIP.challenge (p : PublicIP) : String := toString p.v4 ++ toString p.v6

end ThreefoldSdk.Zos
