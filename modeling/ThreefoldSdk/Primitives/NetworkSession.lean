import ThreefoldSdk.Lib.Frame
import ThreefoldSdk.Primitives.PrivateIps

/-! A `Network` object at work: what it caches, its requests to the nodes, and the subnets it keeps
apart (`getReservedSubnets`, `getFreeSubnet`, `ValidateFreeSubnet`). -/

namespace ThreefoldSdk.Primitives
open Zos Ipv4 FirstFree

/-- `endpoints` and `accessNodes` are the caches `_endpoints` and `_accessNodes`; `clock` counts the
requests made and the random values drawn. -/
structure Session where
  network : Network
  endpoints : List (Nat × Option String)
  accessNodes : List Nat
  clock : Nat

structure WireGuardKeys where
  privateKey : String
  publicKey : String

/-- What a node answers about its public config. -/
structure PublicConfig where
  ipv4 : String
  ipv6 : String

/-- The outside world, asked by the number of the request. -/
structure NetworkEnv where
  /-- The error a request ends with. -/
  fails : Nat → Option GridError
  /-- The nodes with a public config that the twin may use, by their ids. -/
  accessNodes : Nat → Except GridError (List (Nat × PublicConfig))
  publicConfig : Nat → Nat → Option PublicConfig
  /-- The ips of the interfaces of a node. -/
  interfaces : Nat → Nat → List (String × List String)
  wgPorts : Nat → Nat → List Nat
  /-- `Math.random() * length`, rounded down. -/
  random : Nat → Nat
  /-- The port at which the loop over random ports ends, given those in use. -/
  port : Nat → List Nat → Nat
  keypair : Nat → WireGuardKeys
  randomSeed : Nat → String
  /-- `TweetNACL`, which throws on a key of a wrong size. -/
  publicKey : String → Option String
  isPrivateIp : String → Bool

abbrev NetM := EStateM GridError Session

/-- Runs a pure part that may throw. -/
def pureStep {α : Type} : Except GridError α → NetM α
  | .ok a => pure a
  | .error e => throw e

def modifyNetwork (f : Network → Network) : NetM Unit :=
  modify fun s => { s with network := f s.network }

/-- The number of a request or of a random value. -/
def tick : NetM Nat := do
  let s ← get
  set { s with clock := s.clock + 1 }
  return s.clock

/-- One request; it may fail. -/
def request (env : NetworkEnv) : NetM Nat := do
  let clock ← tick
  match env.fails clock with
  | some e => throw e
  | none => return clock

/-! Subnets. -/

def pushNew (xs : List String) (s : String) : List String := if s ∈ xs then xs else xs ++ [s]

namespace Network

/-- The reserved subnets, with those of the nodes, the access points and the networks. -/
def reservedSubnetsOf (n : Network) : List String :=
  let ofNodes := n.nodes.filterMap fun node =>
    (n.networks.find? fun net => net.nodeId = node.nodeId).map (·.subnet)
  let ofAccessPoints := n.accessPoints.map (·.subnet)
  let held := (ofNodes.filter (· ≠ "")) ++ ofAccessPoints.filter (· ≠ "") ++
    n.networks.map (·.subnet)
  held.foldl pushNew n.reservedSubnets

end Network

def getReservedSubnets : NetM (List String) := do
  let s ← get
  let reserved := s.network.reservedSubnetsOf
  set { s with network := { s.network with reservedSubnets := reserved } }
  return reserved

def reserveSubnet (subnet : String) : NetM Unit :=
  modifyNetwork fun n => { n with reservedSubnets := n.reservedSubnets ++ [subnet] }

/-- `Addr(this.ipRange).mask(24).nextSibling().nextSibling()`. -/
def firstSubnet (range : Addr) : Except GridError Addr :=
  notNull ((range.mask 24).nextSibling.bind Addr.nextSibling)

def getFreeSubnet : NetM String := do
  let reserved ← getReservedSubnets
  let s ← get
  let range ← pureStep (addr s.network.ipRange)
  let first ← pureStep (firstSubnet range)
  let subnet ← pureStep (notNull (search Addr.nextSibling (fun a => decide (a.toText ∈ reserved))
    (reserved.length + 1) first))
  reserveSubnet subnet.toText
  return subnet.toText

def validateFreeSubnet (subnet : String) : NetM String := do
  let reserved ← getReservedSubnets
  if subnet ∈ reserved then throw (.validation s!"subnet {subnet} is not free.")
  reserveSubnet subnet
  return subnet

end ThreefoldSdk.Primitives
