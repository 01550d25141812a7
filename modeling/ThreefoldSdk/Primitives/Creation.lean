import ThreefoldSdk.Primitives.Deployment

/-! The workloads as the primitives make them (`primitives/*.ts`). A size is in bytes here, where
the source multiplies gigabytes by `1024 ** 3`; memory is in megabytes, as there. -/

namespace ThreefoldSdk.Primitives
open Zos

namespace DiskPrimitive

def createMount (name mountpoint : String) : Mount := ⟨name, mountpoint⟩

def create (size : Nat) (name metadata description : String) (version : Nat) : Workload :=
  { version, name, type := .zmount, data := .zmount ⟨size⟩, metadata, description, result := none }

end DiskPrimitive

def PublicIPPrimitive.create (name metadata description : String) (version : Nat)
    (ipv4 ipv6 : Bool) : Workload :=
  { version, name, type := .ip, data := .ip ⟨ipv4, ipv6⟩, metadata, description, result := none }

def ZlogsPrimitive.create (name output metadata description : String) (version : Nat) : Workload :=
  { version, name := "zlogs_" ++ name, type := .zlogs, data := .zlogs ⟨some name, some output⟩,
    metadata, description, result := none }

def ZdbPrimitive.create (name : String) (size : Nat) (mode : ZdbModes) (password : String)
    (publicNamespace : Bool) (metadata description : String) (version : Nat) : Workload :=
  { version, name, type := .zdb, data := .zdb ⟨size, mode, password, publicNamespace⟩, metadata,
    description, result := none }

/-- `hexKey` is the hex text of the md5 of a key. -/
def QSFSPrimitive.create (hexKey : String → String) (name : String)
    (minimalShards expectedShards : Nat) (metaPrefix : String) (metaBackends : List ZdbBackend)
    (groups : List ZdbGroup) (encryptionKey : String) (cache maxZdbDataDirSize : Nat)
    (metaType : String) (redundantGroups redundantNodes : Nat)
    (encryptionAlgorithm compressionAlgorithm metadata description : String) (version : Nat) :
    Workload :=
  let encryption : Encryption := ⟨encryptionAlgorithm, hexKey encryptionKey⟩
  let config : QuantumSafeFSConfig :=
    { minimalShards, expectedShards, redundantGroups, redundantNodes, maxZdbDataDirSize, encryption
      «meta» := ⟨metaType, ⟨metaPrefix, encryption, metaBackends⟩⟩
      groups
      compression := ⟨compressionAlgorithm⟩ }
  { version, name, type := .qsfs, data := .qsfs ⟨cache, config⟩, metadata, description,
    result := none }

/-- The arguments that `VMPrimitive.create` and `VMLightPrimitive.create` share. -/
structure VmArguments where
  name : String
  flist : String
  cpu : Nat
  memory : Nat
  rootfsSize : Nat
  disks : List Mount
  networkName : String
  ip : String
  planetary : Bool
  mycelium : Bool
  myceliumSeed : String
  publicIp : String
  entrypoint : String
  env : Env
  metadata : String
  description : String
  version : Nat
  corex : Bool
  gpus : List String

namespace VmArguments

def computeCapacity (a : VmArguments) : ComputeCapacity := ⟨a.cpu, a.memory * 1024 ^ 2⟩

def interfaces (a : VmArguments) : List ZNetworkInterface := [⟨a.networkName, a.ip⟩]

def myceliumIP (a : VmArguments) : Option MyceliumIP :=
  if a.mycelium then some ⟨a.networkName, a.myceliumSeed⟩ else none

end VmArguments

def VMPrimitive.create (a : VmArguments) : Workload :=
  { version := a.version
    name := a.name
    type := .zmachine
    data := .zmachine
      { flist := a.flist
        network := ⟨a.publicIp, a.interfaces, a.planetary, a.myceliumIP⟩
        size := a.rootfsSize
        computeCapacity := a.computeCapacity
        mounts := a.disks
        entrypoint := a.entrypoint
        env := a.env
        corex := a.corex
        gpu := some a.gpus }
    metadata := a.metadata
    description := a.description
    result := none }

/-- Planetary and the public ip are passed as well, and not used. -/
def VMLightPrimitive.create (a : VmArguments) : Workload :=
  { version := a.version
    name := a.name
    type := .zmachinelight
    data := .zmachinelight
      { flist := a.flist
        network := ⟨a.interfaces, a.myceliumIP⟩
        size := a.rootfsSize
        computeCapacity := a.computeCapacity
        mounts := a.disks
        entrypoint := a.entrypoint
        env := a.env
        corex := a.corex
        gpu := some a.gpus }
    metadata := a.metadata
    description := a.description
    result := none }

/-- `DeploymentFactory.create`. -/
def createDeployment (twinId : Nat) (workloads : List Workload) (expiration : Int)
    (metadata description : String) (version : Nat) : Deployment :=
  { version, twinId, contractId := none, expiration, metadata, description, workloads
    signatureRequirement := ⟨[⟨twinId, false, 1⟩], 1, []⟩ }

end ThreefoldSdk.Primitives
