import NeutronCore.Basic
import NeutronCore.Compact
import NeutronCore.State
import NeutronCore.Inputs
import NeutronCore.Connect
import NeutronCore.Mempool
import NeutronCore.BestChain
import NeutronCore.Accept
import NeutronCore.Ingress
import NeutronCore.OrphanTx
import NeutronCore.Dispatch
import NeutronCore.Runs
import NeutronCore.Atomicity
import NeutronCore.Routing
import NeutronCore.Conflicts
import NeutronCore.Tip
import NeutronCore.Validity
import NeutronCore.Reconnect
import NeutronCore.CoreFrame
import NeutronCore.OrphanBlocks
import NeutronCore.OrphanTxIndex
import NeutronCore.BlockTree
import NeutronCore.Retarget
import NeutronCore.InputChecks
import NeutronCore.IsMine
import NeutronCore.ForkSearch
import NeutronCore.Random
import NeutronCore.Rewards
import NeutronCore.FindBlock
import NeutronCore.OrphanLimit
import NeutronCore.WalletSync
import NeutronCore.BlockFile
import NeutronCore.CoreSteps
import NeutronCore.PoolSafety
import NeutronCore.ForkChoice
import NeutronCore.Lookups
import NeutronCore.HeaderRules
import NeutronCore.BlockStore
