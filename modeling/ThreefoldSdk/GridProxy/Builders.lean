import ThreefoldSdk.GridProxy.AbstractBuilder

/-! The builders of the grid proxy client: the names of their parameters, and their checks. -/

namespace ThreefoldSdk.GridProxy

def isDigit (u : UInt16) : Bool := decide (48 ≤ u.toNat ∧ u.toNat ≤ 57)

/-- The ids between the commas. -/
def assertIds : Check
  | .string value =>
    (value.splitOn 44).forM fun id => do
      assertPattern "/^\\d+$/" (decide (id ≠ []) && id.all isDigit) (.string id)
      assertId (.number (Number.ofNat (Number.digitsValue (id.map Utf16.single))))
  | _ => .error .typeError

def assertStringIn (domain : List String) : Check := fun value => do
  assertString value
  assertIn domain value

def assertStates : Check
  | .list value => value.forM (assertStringIn ["Created", "GracePeriod", "Deleted"])
  | _ => .error (.error (literal
    "Invalid state format. Must be an array of ContractState enums."))

inductive GatewaysQuery where
  | page | size | retCount | freeMru | freeHru | freeSru | freeIps | status | city | country
  | farmName | ipv4 | ipv6 | dedicated | rentable | rented | rentedBy | availableFor | farmIds
deriving DecidableEq

def GATEWAYS_MAPPER : GatewaysQuery → String
  | .page => "page"
  | .size => "size"
  | .retCount => "ret_count"
  | .freeMru => "free_mru"
  | .freeHru => "free_hru"
  | .freeSru => "free_sru"
  | .freeIps => "free_ips"
  | .status => "status"
  | .city => "city"
  | .country => "country"
  | .farmName => "farm_name"
  | .ipv4 => "ipv4"
  | .ipv6 => "ipv6"
  | .dedicated => "dedicated"
  | .rentable => "rentable"
  | .rented => "rented"
  | .rentedBy => "rentedBy"
  | .availableFor => "available_for"
  | .farmIds => "farm_ids"

def GATEWAYS_VALIDATOR : GatewaysQuery → Check
  | .page => assertNatural
  | .size => assertNatural
  | .retCount => assertBoolean
  | .freeMru => assertNatural
  | .freeHru => assertNatural
  | .freeSru => assertNatural
  | .freeIps => assertNatural
  | .status => assertIn ["up", "down"]
  | .city => assertString
  | .country => assertString
  | .farmName => assertString
  | .ipv4 => assertBoolean
  | .ipv6 => assertBoolean
  | .dedicated => assertBoolean
  | .rentable => assertBoolean
  | .rented => assertBoolean
  | .rentedBy => assertId
  | .availableFor => assertId
  | .farmIds => assertIds

def GatewayBuilder : BuilderOptions GatewaysQuery where
  mapper := GATEWAYS_MAPPER
  validator := GATEWAYS_VALIDATOR
  mapper_word key := by cases key <;> decide

inductive NodesQuery where
  | page | size | retCount | freeMru | freeHru | freeSru | freeGpu | totalMru | totalCru | totalGpu
  | totalSru | totalHru | freeIps | status | city | country | region | farmName | ipv4 | ipv6
  | domain | dedicated | rentable | rented | rentedBy | availableFor | farmIds | nodeId
  | certificationType | hasGpu | gpuDeviceId | gpuDeviceName | gpuVendorId | gpuVendorName
  | gpuAvailable | ownedBy | healthy | sortBy | sortOrder | numGpu | hasIPv6
deriving DecidableEq

def NODES_MAPPER : NodesQuery → String
  | .page => "page"
  | .size => "size"
  | .retCount => "ret_count"
  | .freeMru => "free_mru"
  | .freeHru => "free_hru"
  | .freeSru => "free_sru"
  | .freeGpu => "free_gpu"
  | .freeIps => "free_ips"
  | .status => "status"
  | .city => "city"
  | .country => "country"
  | .region => "region"
  | .farmName => "farm_name"
  | .domain => "domain"
  | .ipv4 => "ipv4"
  | .ipv6 => "ipv6"
  | .dedicated => "dedicated"
  | .rentable => "rentable"
  | .rented => "rented"
  | .rentedBy => "rented_by"
  | .availableFor => "available_for"
  | .farmIds => "farm_ids"
  | .nodeId => "node_id"
  | .certificationType => "certification_type"
  | .gpuAvailable => "gpu_available"
  | .gpuDeviceId => "gpu_device_id"
  | .gpuDeviceName => "gpu_device_name"
  | .gpuVendorId => "gpu_vendor_id"
  | .gpuVendorName => "gpu_vendor_name"
  | .hasGpu => "has_gpu"
  | .totalCru => "total_cru"
  | .totalHru => "total_hru"
  | .totalMru => "total_mru"
  | .totalSru => "total_sru"
  | .totalGpu => "total_gpu"
  | .ownedBy => "owned_by"
  | .healthy => "healthy"
  | .sortBy => "sort_by"
  | .sortOrder => "sort_order"
  | .numGpu => "num_gpu"
  | .hasIPv6 => "has_ipv6"

def NODES_VALIDATOR : NodesQuery → Check
  | .page => assertNatural
  | .size => assertNatural
  | .retCount => assertBoolean
  | .freeMru => assertNatural
  | .freeHru => assertNatural
  | .freeSru => assertNatural
  | .freeGpu => assertNatural
  | .freeIps => assertNatural
  | .status => assertIn ["up", "down", "standby", "up,standby"]
  | .city => assertString
  | .country => assertString
  | .region => assertString
  | .farmName => assertString
  | .domain => assertBoolean
  | .ipv4 => assertBoolean
  | .ipv6 => assertBoolean
  | .dedicated => assertBoolean
  | .rentable => assertBoolean
  | .rented => assertBoolean
  | .rentedBy => assertId
  | .availableFor => assertId
  | .farmIds => assertIds
  | .nodeId => assertId
  | .certificationType => assertIn ["NotCertified", "Silver", "Gold"]
  | .gpuAvailable => assertBoolean
  | .gpuDeviceId => assertString
  | .gpuDeviceName => assertString
  | .gpuVendorId => assertString
  | .gpuVendorName => assertString
  | .hasGpu => assertBoolean
  | .totalCru => assertInt
  | .totalHru => assertInt
  | .totalMru => assertInt
  | .totalSru => assertInt
  | .totalGpu => assertInt
  | .ownedBy => assertInt
  | .healthy => assertBoolean
  | .sortBy => assertString
  | .sortOrder => assertString
  | .numGpu => assertInt
  | .hasIPv6 => assertBoolean

def NodesBuilder : BuilderOptions NodesQuery where
  mapper := NODES_MAPPER
  validator := NODES_VALIDATOR
  mapper_word key := by cases key <;> decide

inductive FarmsQuery where
  | page | size | retCount | freeIps | totalIps | pricingPolicyId | version | farmId | twinId
  | name | nameContains | certificationType | dedicated | stellarAddress | nodeHasIPv6 | sortBy
  | sortOrder
deriving DecidableEq

def FARMS_MAPPER : FarmsQuery → String
  | .page => "page"
  | .size => "size"
  | .retCount => "ret_count"
  | .freeIps => "free_ips"
  | .certificationType => "certification_type"
  | .version => "version"
  | .dedicated => "dedicated"
  | .farmId => "farm_id"
  | .name => "name"
  | .nameContains => "name_contains"
  | .pricingPolicyId => "pricing_policy_id"
  | .stellarAddress => "stellar_address"
  | .totalIps => "total_ips"
  | .twinId => "twin_id"
  | .nodeHasIPv6 => "node_has_ipv6"
  | .sortBy => "sort_by"
  | .sortOrder => "sort_order"

def FARMS_VALIDATOR : FarmsQuery → Check
  | .page => assertNatural
  | .size => assertNatural
  | .retCount => assertBoolean
  | .freeIps => assertNatural
  | .totalIps => assertNatural
  | .pricingPolicyId => assertId
  | .version => assertNatural
  | .farmId => assertId
  | .twinId => assertId
  | .name => assertString
  | .nameContains => assertString
  | .certificationType => assertIn ["DIY", "Certified"]
  | .dedicated => assertBoolean
  | .stellarAddress => assertString
  | .nodeHasIPv6 => assertBoolean
  | .sortBy => assertString
  | .sortOrder => assertString

def FarmsBuilder : BuilderOptions FarmsQuery where
  mapper := FARMS_MAPPER
  validator := FARMS_VALIDATOR
  mapper_word key := by cases key <;> decide

inductive ContractsQuery where
  | page | size | retCount | contractId | twinId | nodeId | name | type | state | deploymentData
  | deploymentHash | numberOfPublicIps | sortBy | sortOrder
deriving DecidableEq

def CONTRACTS_MAPPER : ContractsQuery → String
  | .page => "page"
  | .size => "size"
  | .retCount => "ret_count"
  | .contractId => "contract_id"
  | .twinId => "twin_id"
  | .nodeId => "node_id"
  | .name => "name"
  | .type => "type"
  | .state => "state"
  | .deploymentData => "deployment_data"
  | .deploymentHash => "deployment_hash"
  | .numberOfPublicIps => "number_of_public_ips"
  | .sortBy => "sort_by"
  | .sortOrder => "sort_order"

def CONTRACTS_VALIDATOR : ContractsQuery → Check
  | .page => assertNatural
  | .size => assertNatural
  | .retCount => assertBoolean
  | .contractId => assertId
  | .twinId => assertId
  | .nodeId => assertId
  | .name => assertString
  | .type => assertStringIn ["name", "node", "rent"]
  | .state => assertStates
  | .deploymentData => assertString
  | .deploymentHash => assertString
  | .numberOfPublicIps => assertNatural
  | .sortBy => assertStringIn ["created_at", "twin_id", "contract_id", "type", "state"]
  | .sortOrder => assertStringIn ["desc", "asc"]

def ContractsBuilder : BuilderOptions ContractsQuery where
  mapper := CONTRACTS_MAPPER
  validator := CONTRACTS_VALIDATOR
  mapper_word key := by cases key <;> decide

inductive TwinsQuery where
  | page | size | retCount | twinId | accountId
deriving DecidableEq

def TWINS_MAPPER : TwinsQuery → String
  | .page => "page"
  | .size => "size"
  | .retCount => "ret_count"
  | .accountId => "account_id"
  | .twinId => "twin_id"

def TWINS_VALIDATOR : TwinsQuery → Check
  | .page => assertNatural
  | .size => assertNatural
  | .retCount => assertBoolean
  | .twinId => assertId
  | .accountId => assertId

def TwinsBuilder : BuilderOptions TwinsQuery where
  mapper := TWINS_MAPPER
  validator := TWINS_VALIDATOR
  mapper_word key := by cases key <;> decide

inductive StatsQuery where
  | status
deriving DecidableEq

def STATS_MAPPER : StatsQuery → String
  | .status => "status"

def STATS_VALIDATOR : StatsQuery → Check
  | .status => assertIn ["up", "down", "standby"]

def StatsBuilder : BuilderOptions StatsQuery where
  mapper := STATS_MAPPER
  validator := STATS_VALIDATOR
  mapper_word key := by cases key; decide

end ThreefoldSdk.GridProxy
