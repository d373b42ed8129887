-- The records the bridge keeps on the ledger and the orders its scripts take: the types of
-- ICS-02 to ICS-05, of the host state and of the transfer application.
import CardanoIbc.Ibc.Ics23
import CardanoIbc.Ledger.Value

namespace cardano_ibc

/-! ## Connections -/

structure Version where
  identifier : Bytes
  features : List Bytes
deriving DecidableEq, Repr

structure Counterparty where
  client_id : Bytes
  connection_id : Bytes
  prefixKey : MerklePrefix
deriving DecidableEq, Repr

inductive ConnectionState where
  | Uninitialized | Init | TryOpen | Open
deriving DecidableEq, Repr

structure ConnectionEnd where
  client_id : Bytes
  versions : List Version
  state : ConnectionState
  counterparty : Counterparty
  delay_period : Int
deriving DecidableEq, Repr

/-! ## Channels and packets -/

inductive ChannelState where
  | Uninitialized | Init | TryOpen | Open | Closed
deriving DecidableEq, Repr

inductive Order where
  | None | Unordered | Ordered
deriving DecidableEq, Repr

structure ChannelCounterparty where
  port_id : Bytes
  channel_id : Bytes
deriving DecidableEq, Repr

structure Channel where
  state : ChannelState
  ordering : Order
  counterparty : ChannelCounterparty
  connection_hops : List Bytes
  version : Bytes
deriving DecidableEq, Repr

structure Packet where
  sequence : Int
  source_port : Bytes
  source_channel : Bytes
  destination_port : Bytes
  destination_channel : Bytes
  data : Bytes
  timeout_height : Height
  timeout_timestamp : Int
deriving DecidableEq, Repr

inductive Acknowledgement where
  | AcknowledgementResult (result : Bytes)
  | AcknowledgementError (err : Bytes)
deriving DecidableEq, Repr

/-! ## Datums -/

structure ClientDatumState where
  client_state : ClientState
  consensus_states : List (Height × ConsensusState)
  processed_times : List (Height × Int)
  processed_heights : List (Height × Int)
deriving DecidableEq, Repr

structure ClientDatum where
  state : ClientDatumState
  token : AuthToken
deriving DecidableEq, Repr

structure ConnectionDatum where
  state : ConnectionEnd
  token : AuthToken
deriving DecidableEq, Repr

structure ChannelDatumState where
  channel : Channel
  next_sequence_send : Int
  next_sequence_recv : Int
  next_sequence_ack : Int
  packet_commitment : List (Int × Bytes)
  packet_receipt : List (Int × Bytes)
  packet_acknowledgement : List (Int × Bytes)
  minimum_receive_proof_height : Height
  maximum_receive_proof_height : Height
deriving DecidableEq, Repr

structure ChannelDatum where
  state : ChannelDatumState
  port_id : Bytes
  token : AuthToken
deriving DecidableEq, Repr

inductive ShutdownState where
  | Active
  | ShuttingDown (initiated_at grace_period_end : Int)
deriving DecidableEq, Repr

structure ModuleRegistration where
  module_script_hash : Bytes
  port_token : AuthToken
  module_token : AuthToken
deriving DecidableEq, Repr

structure HostState where
  version : Int
  ibc_state_root : Bytes
  next_client_sequence : Int
  next_connection_sequence : Int
  next_channel_sequence : Int
  bound_port : List (Bytes × ModuleRegistration)
  last_update_time : Int
deriving DecidableEq, Repr

structure HostStateDatum where
  state : HostState
  nft_policy : Bytes
  deployer : Bytes
  shutdown : ShutdownState
deriving DecidableEq, Repr

structure TransferModuleDatum where
  escrow_shard_registry_root : Bytes
deriving DecidableEq, Repr

structure TransferEscrowDatum where
  channel_id : Bytes
  denom : Bytes
deriving DecidableEq, Repr

/-! ## Redeemers -/

/-- The hashes beside one path of the commitment, lowest first. -/
abbrev Siblings := List Bytes

inductive HostStateRedeemer where
  | CreateClient (client_state_siblings consensus_state_siblings : Siblings)
  | CreateConnection (connection_siblings : Siblings)
  | CreateChannel (channel_siblings next_sequence_send_siblings next_sequence_recv_siblings
      next_sequence_ack_siblings : Siblings)
  | BindPort (port_id : Bytes) (registration : ModuleRegistration) (port_siblings : Siblings)
  | UpdateClient (client_state_siblings consensus_state_siblings : Siblings)
      (removed_consensus_state_siblings : List Siblings)
  | UpdateConnection (connection_siblings : Siblings)
  | UpdateChannel (channel_siblings : Siblings)
  | HandlePacket (channel_siblings next_sequence_send_siblings next_sequence_recv_siblings
      next_sequence_ack_siblings packet_commitment_siblings packet_receipt_siblings
      packet_acknowledgement_siblings : Siblings)
  | EnterShutdown (grace_period_end : Int)
  | FinalizeShutdown
  | Heartbeat
deriving DecidableEq, Repr

inductive SpendClientRedeemer where
  | UpdateClient (msg : ClientMessage)
  | Other
deriving DecidableEq, Repr

inductive MintConnectionRedeemer where
  | ConnOpenInit
  | ConnOpenTry (client_state : Bytes) (proof_init proof_client : MerkleProof)
      (proof_height : Height)
deriving DecidableEq, Repr

inductive SpendConnectionRedeemer where
  | ConnOpenAck
  | ConnOpenConfirm (proof_ack : MerkleProof) (proof_height : Height)
deriving DecidableEq, Repr

inductive MintChannelRedeemer where
  | ChanOpenInit
  | ChanOpenTry (counterparty_version : Bytes) (proof_init : MerkleProof) (proof_height : Height)
deriving DecidableEq, Repr

inductive SpendChannelRedeemer where
  | ChanOpenAck (counterparty_version : Bytes) (proof_try : MerkleProof) (proof_height : Height)
  | ChanOpenConfirm (proof_ack : MerkleProof) (proof_height : Height)
  | RecvPacket (packet : Packet) (proof_commitment : MerkleProof) (proof_height : Height)
  | TimeoutPacket (packet : Packet) (proof_unreceived : MerkleProof) (proof_height : Height)
      (next_sequence_recv : Int)
  | AcknowledgePacket (packet : Packet) (acknowledgement : Bytes) (proof_acked : MerkleProof)
      (proof_height : Height)
  | SendPacket (packet : Packet)
  | ChanCloseInit
  | ChanCloseConfirm (proof_init : MerkleProof) (proof_height : Height)
  | PrunePacketHistory (sequence : Int) (proof_commitment_absence : MerkleProof)
      (proof_height : Height)
deriving DecidableEq, Repr

structure MintPortRedeemer where
  spend_module_script_hash : Bytes
  port_id : Bytes
deriving DecidableEq, Repr

structure FungibleTokenPacketData where
  denom : Bytes
  amount : Bytes
  sender : Bytes
  receiver : Bytes
  memo : Bytes
deriving DecidableEq, Repr

inductive TransferModuleRedeemer where
  | Transfer (channel_id : Bytes) (data : FungibleTokenPacketData)
  | OtherTransferOp
deriving DecidableEq, Repr

inductive TransferEscrowShardRedeemer where
  | CreateEscrowShard (channel_id denom : Bytes) (data : FungibleTokenPacketData)
      (registry_siblings : Siblings)
deriving DecidableEq, Repr

inductive MintVoucherRedeemer where
  | MintVoucher (packet_source_port packet_source_channel packet_dest_port
      packet_dest_channel : Bytes) (data : FungibleTokenPacketData)
  | BurnVoucher (packet_source_port packet_source_channel : Bytes)
      (data : FungibleTokenPacketData)
  | RefundVoucher (packet_source_port packet_source_channel : Bytes)
      (data : FungibleTokenPacketData) (acknowledgement : Option Acknowledgement)
deriving DecidableEq, Repr

structure TraceRegistryEntry where
  voucher_hash : Bytes
  full_denom : Bytes
deriving DecidableEq, Repr

structure TraceRegistryShardDatum where
  bucket_index : Int
  entries : List TraceRegistryEntry
deriving DecidableEq, Repr

structure TraceRegistryDirectoryBucket where
  bucket_index : Int
  active_shard_name : Bytes
  archived_shard_names : List Bytes
deriving DecidableEq, Repr

structure TraceRegistryDirectoryDatum where
  buckets : List TraceRegistryDirectoryBucket
deriving DecidableEq, Repr

inductive TraceRegistryDatum where
  | Shard (shard : TraceRegistryShardDatum)
  | Directory (directory : TraceRegistryDirectoryDatum)
deriving DecidableEq, Repr

inductive TraceRegistryRedeemer where
  | InsertTrace (voucher_hash full_denom : Bytes)
  | RolloverInsertTrace (voucher_hash full_denom new_active_shard_name : Bytes)
  | AdvanceDirectory (bucket_index : Int) (voucher_hash full_denom previous_active_shard_name
      new_active_shard_name : Bytes)
deriving DecidableEq, Repr

/-- The datum of a voucher's reference token. Its two maps have these keys and no others. -/
structure VoucherMetadata where
  name : Bytes
  ticker : Bytes
  description : Bytes
  version : Int
  path : Bytes
  baseDenom : Bytes
  fullDenom : Bytes
  ibcDenomHash : Bytes
  traceVersion : Int
  voucherPolicyId : Bytes
  voucherTokenName : Bytes
deriving DecidableEq, Repr

/-- What an application may put into the data of a callback or of an order. The transfer
application reads the first two. -/
inductive ApplicationData where
  | packetData (data : FungibleTokenPacketData)
  | transferOrder (order : TransferModuleRedeemer)
  | other (bz : Bytes)
deriving DecidableEq, Repr

inductive IBCModulePacketData where
  | ModuleDataV1 (data : ApplicationData)
  | OtherModuleData
deriving DecidableEq, Repr

inductive IBCModuleCallback where
  | OnChanOpenInit (channel_id : Bytes)
  | OnChanOpenTry (channel_id : Bytes)
  | OnChanOpenAck (channel_id : Bytes)
  | OnChanOpenConfirm (channel_id : Bytes)
  | OnChanCloseInit (channel_id : Bytes)
  | OnChanCloseConfirm (channel_id : Bytes)
  | OnRecvPacket (channel_id packet_data : Bytes) (acknowledgement : Acknowledgement)
      (data : IBCModulePacketData)
  | OnTimeoutPacket (channel_id packet_data : Bytes) (data : IBCModulePacketData)
  | OnAcknowledgementPacket (channel_id packet_data : Bytes) (acknowledgement : Acknowledgement)
      (data : IBCModulePacketData)
  | OnSendPacket (channel_id packet_data packet_commitment : Bytes) (data : IBCModulePacketData)
deriving DecidableEq, Repr

inductive IBCModuleOperator where
  | ModuleOperatorV1 (data : ApplicationData)
  | OtherModuleOperator
deriving DecidableEq, Repr

inductive IBCModuleRedeemer where
  | Callback (callback : IBCModuleCallback)
  | Operator (operator : IBCModuleOperator)
deriving DecidableEq, Repr

/-! ## What stands in a datum or a redeemer

A script casts the data it is given to the type it expects and stops if it does not fit. The
datum types differ in shape from one another, and the redeemer of one place is only ever read as
one type, so a value is kept as what it was built as and the cast is a match. -/

inductive Data where
  | hostState (datum : HostStateDatum)
  | client (datum : ClientDatum)
  | connection (datum : ConnectionDatum)
  | channel (datum : ChannelDatum)
  | transferModule (datum : TransferModuleDatum)
  | transferEscrow (datum : TransferEscrowDatum)
  | hostStateRedeemer (redeemer : HostStateRedeemer)
  | mintClientRedeemer
  | spendClientRedeemer (redeemer : SpendClientRedeemer)
  | mintConnectionRedeemer (redeemer : MintConnectionRedeemer)
  | spendConnectionRedeemer (redeemer : SpendConnectionRedeemer)
  | mintChannelRedeemer (redeemer : MintChannelRedeemer)
  | spendChannelRedeemer (redeemer : SpendChannelRedeemer)
  | authToken (token : AuthToken)
  | verifyProof (redeemer : VerifyProofRedeemer)
  | mintPort (redeemer : MintPortRedeemer)
  | ibcModule (redeemer : IBCModuleRedeemer)
  | escrowShard (redeemer : TransferEscrowShardRedeemer)
  | mintVoucher (redeemer : MintVoucherRedeemer)
  | traceRegistry (datum : TraceRegistryDatum)
  | traceRegistryRedeemer (redeemer : TraceRegistryRedeemer)
  | voucherMetadata (metadata : VoucherMetadata)
  | outputReference (transaction_id : Bytes) (output_index : Nat)
  | nft
  | other (bz : Bytes)
deriving DecidableEq, Repr

namespace Data

def asHostState : Data → Option HostStateDatum
  | hostState d => some d
  | _ => none

def asClient : Data → Option ClientDatum
  | client d => some d
  | _ => none

def asConnection : Data → Option ConnectionDatum
  | connection d => some d
  | _ => none

def asChannel : Data → Option ChannelDatum
  | channel d => some d
  | _ => none

def asTransferEscrow : Data → Option TransferEscrowDatum
  | transferEscrow d => some d
  | _ => none

def asHostStateRedeemer : Data → Option HostStateRedeemer
  | hostStateRedeemer r => some r
  | _ => none

def asSpendClientRedeemer : Data → Option SpendClientRedeemer
  | spendClientRedeemer r => some r
  | _ => none

def asMintConnectionRedeemer : Data → Option MintConnectionRedeemer
  | mintConnectionRedeemer r => some r
  | _ => none

def asSpendConnectionRedeemer : Data → Option SpendConnectionRedeemer
  | spendConnectionRedeemer r => some r
  | _ => none

def asMintChannelRedeemer : Data → Option MintChannelRedeemer
  | mintChannelRedeemer r => some r
  | _ => none

def asSpendChannelRedeemer : Data → Option SpendChannelRedeemer
  | spendChannelRedeemer r => some r
  | _ => none

def asAuthToken : Data → Option AuthToken
  | authToken t => some t
  | _ => none

def asVerifyProof : Data → Option VerifyProofRedeemer
  | verifyProof r => some r
  | _ => none

def asMintPort : Data → Option MintPortRedeemer
  | mintPort r => some r
  | _ => none

def asIbcModule : Data → Option IBCModuleRedeemer
  | ibcModule r => some r
  | _ => none

def asMintVoucher : Data → Option MintVoucherRedeemer
  | mintVoucher r => some r
  | _ => none

@[simp] theorem asHostState_eq_some {d : Data} {x : HostStateDatum} :
    d.asHostState = some x ↔ d = .hostState x := by cases d <;> simp [asHostState]

@[simp] theorem asClient_eq_some {d : Data} {x : ClientDatum} :
    d.asClient = some x ↔ d = .client x := by cases d <;> simp [asClient]

@[simp] theorem asConnection_eq_some {d : Data} {x : ConnectionDatum} :
    d.asConnection = some x ↔ d = .connection x := by cases d <;> simp [asConnection]

@[simp] theorem asChannel_eq_some {d : Data} {x : ChannelDatum} :
    d.asChannel = some x ↔ d = .channel x := by cases d <;> simp [asChannel]

@[simp] theorem asHostStateRedeemer_eq_some {d : Data} {x : HostStateRedeemer} :
    d.asHostStateRedeemer = some x ↔ d = .hostStateRedeemer x := by cases d <;> simp [asHostStateRedeemer]

@[simp] theorem asSpendChannelRedeemer_eq_some {d : Data} {x : SpendChannelRedeemer} :
    d.asSpendChannelRedeemer = some x ↔ d = .spendChannelRedeemer x := by cases d <;> simp [asSpendChannelRedeemer]

@[simp] theorem asAuthToken_eq_some {d : Data} {x : AuthToken} :
    d.asAuthToken = some x ↔ d = .authToken x := by cases d <;> simp [asAuthToken]

@[simp] theorem asVerifyProof_eq_some {d : Data} {x : VerifyProofRedeemer} :
    d.asVerifyProof = some x ↔ d = .verifyProof x := by cases d <;> simp [asVerifyProof]

end Data

/-! ## The three kinds of objects -/

/-- Clients, connections and channels are each kept in an output of their own, marked by a token
that its kind's policy mints. -/
inductive Kind where
  | client | connection | channel
deriving DecidableEq, Repr

namespace Kind

/-- The token a datum of this kind names as its own. -/
def tokenIn : Kind → Data → Option AuthToken
  | .client, .client d => some d.token
  | .connection, .connection d => some d.token
  | .channel, .channel d => some d.token
  | _, _ => none

/-- The sequence number the next object of this kind gets. -/
def next : Kind → HostState → Int
  | .client, hs => hs.next_client_sequence
  | .connection, hs => hs.next_connection_sequence
  | .channel, hs => hs.next_channel_sequence

/-- The text the token names of this kind are made with. -/
def nameText : Kind → Bytes
  | .client => client_prefix
  | .connection => connection_prefix
  | .channel => channel_prefix

/-- The kind of object an order creates. -/
def created : HostStateRedeemer → Option Kind
  | .CreateClient .. => some .client
  | .CreateConnection .. => some .connection
  | .CreateChannel .. => some .channel
  | _ => none

/-- The kind of object an order updates. -/
def updated : HostStateRedeemer → Option Kind
  | .UpdateClient .. => some .client
  | .UpdateConnection .. => some .connection
  | .UpdateChannel .. => some .channel
  | .HandlePacket .. => some .channel
  | _ => none

end Kind

end cardano_ibc
