import ThreefoldSdk.Lib.Frame
import ThreefoldSdk.Lib.Ipv4
import ThreefoldSdk.Lib.ObjectMap
import ThreefoldSdk.Zos.ChallengeCovers
import ThreefoldSdk.HighLevel.OwnContracts
import ThreefoldSdk.TfChain.BatchEffects
import ThreefoldSdk.TfChain.Ledger
import ThreefoldSdk.Primitives.LightIps
import ThreefoldSdk.Primitives.SubnetRuns
import ThreefoldSdk.Primitives.Routing
import ThreefoldSdk.Primitives.FailedExtension
import ThreefoldSdk.HighLevel.Reload
import ThreefoldSdk.HighLevel.SavedNetworks
import ThreefoldSdk.Storage.MoveValue
import ThreefoldSdk.Storage.PkidCalls
import ThreefoldSdk.Rmb.ChallengeBinds
import ThreefoldSdk.Rmb.ReadRuns
import ThreefoldSdk.TfChain.ListenForEvent
import ThreefoldSdk.Billing.TotalOverdue
import ThreefoldSdk.Primitives.DeleteNode
import ThreefoldSdk.HighLevel.DeployMerge
import ThreefoldSdk.HighLevel.UpdateMerge
import ThreefoldSdk.HighLevel.NameContracts
import ThreefoldSdk.HighLevel.FilterWorkloads
import ThreefoldSdk.Primitives.FreshlyLoaded
import ThreefoldSdk.HighLevel.DeleteMachineNetwork
import ThreefoldSdk.HighLevel.AddInstance
import ThreefoldSdk.HighLevel.Delete
import ThreefoldSdk.Modules.Cluster
import ThreefoldSdk.Modules.SameIdentity
import ThreefoldSdk.Playground.DeleteDeployment
import ThreefoldSdk.Billing.BillReports
import ThreefoldSdk.Billing.Pricing
import ThreefoldSdk.Zos.Signing
import ThreefoldSdk.HighLevel.WaitForDeployment
import ThreefoldSdk.Primitives.OwnRoutes
import ThreefoldSdk.HighLevel.NodeCapacity
import ThreefoldSdk.HighLevel.UserIps
import ThreefoldSdk.Modules.NodeKinds
import ThreefoldSdk.HighLevel.LeftOverPeers
import ThreefoldSdk.Modules.DeleteInstance
import ThreefoldSdk.Rmb.TwinCache
import ThreefoldSdk.Playground.Receipts
import ThreefoldSdk.Playground.Uptime
import ThreefoldSdk.Playground.LoadedDeployments
import ThreefoldSdk.Playground.Caprover
import ThreefoldSdk.Playground.LoadDeployment
import ThreefoldSdk.Playground.NodeSelector
import ThreefoldSdk.Playground.CapacityPool
import ThreefoldSdk.Playground.Metadata
import ThreefoldSdk.Playground.Migration
import ThreefoldSdk.HighLevel.QsfsShards
import ThreefoldSdk.Modules.Stellar
import ThreefoldSdk.Storage.FragmentText
import ThreefoldSdk.GridProxy.QueryStrings
import ThreefoldSdk.Playground.UseAsync
import ThreefoldSdk.Peer.MessageBus
import ThreefoldSdk.Modules.TfChainWallets
import ThreefoldSdk.Zos.HexText
import ThreefoldSdk.Rmb.Sealed
import ThreefoldSdk.Graphql.MergedQueries
import ThreefoldSdk.TfChain.ApplyExtrinsic
import ThreefoldSdk.Billing.Unlock
import ThreefoldSdk.Storage.KeysMigration
