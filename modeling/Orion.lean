import Orion.Lib.Except
import Orion.Lib.PointUpdate
import Orion.Lib.NodeStore
import Orion.Lib.Triple
import Orion.Lib.Json
import Orion.State.Proof
import Orion.Trie.Node
import Orion.Trie.Store
import Orion.Trie.MPTrie
import Orion.Trie.Proof
import Orion.Trie.Commit
import Orion.Trie.Persistence
import Orion.BlockStore.SkipList
import Orion.Types.Transaction
import Orion.WorldState.DB
import Orion.WorldState.Commit
import Orion.StateIndex.IndexEntries
import Orion.TxValidation.DataTxValidator
import Orion.TxValidation.Validator
import Orion.BlockProcessor.Committer
import Orion.BlockProcessor.Recovery
import Orion.Bcdb.LedgerQuery
import Orion.StateIndex.Consistency
import Orion.QueryExecutor.Executor
import Orion.MTree.Tree
import Orion.MTree.ProofFold
import Orion.BlockStore.Store
import Orion.BlockStore.Stream
import Orion.BlockStore.Recover
import Orion.BlockStore.Encoding
import Orion.Types.Config
import Orion.Replication.Utils
import Orion.TxValidation.ConfigTxValidator
import Orion.BlockProcessor.ConfigTx
import Orion.BlockStore.Encoding
import Orion.StateIndex.Encoding
import Orion.Trie.Failure
import Orion.Bcdb.DataRange
import Orion.TxReorderer.Reorderer
import Orion.Replication.Deliver
import Orion.Lib.QuadStore
import Orion.Provenance.Store
import Orion.Provenance.Queries
import Orion.Identity.Querier
import Orion.Types.UserAdmin
import Orion.TxValidation.DBAdminTxValidator
import Orion.TxValidation.UserAdminTxValidator
import Orion.Identity.DBEntries
import Orion.BlockProcessor.Processor
import Orion.BlockProcessor.Invariants
import Orion.BlockProcessor.DataBlock
import Orion.BlockProcessor.History
