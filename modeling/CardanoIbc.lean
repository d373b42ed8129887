import CardanoIbc.Channel.Accounts
import CardanoIbc.Channel.Connections
import CardanoIbc.Channel.Drain
import CardanoIbc.Cosmos.AnchorRoot
import CardanoIbc.Cosmos.Faithful
import CardanoIbc.Cosmos.Forks
import CardanoIbc.Cosmos.Pruning
import CardanoIbc.Cosmos.RootHistory
import CardanoIbc.Cosmos.SlotLeader
import CardanoIbc.Gateway.MerkleTree
import CardanoIbc.Ibc.Absence
import CardanoIbc.Ibc.HandshakeBytes
import CardanoIbc.Ibc.Paths
import CardanoIbc.Ledger.ClientHistory
import CardanoIbc.Ledger.Delay
import CardanoIbc.Ledger.Freezes
import CardanoIbc.Ledger.Identities
import CardanoIbc.Tendermint.Commits
import CardanoIbc.Tendermint.MerkleHash
import CardanoIbc.Transfer.Builder
import CardanoIbc.Transfer.DenomSplit
import CardanoIbc.Transfer.Payout
import CardanoIbc.Validators.References
import CardanoIbc.Vessel.Consolidation
import CardanoIbc.Vessel.Messages
