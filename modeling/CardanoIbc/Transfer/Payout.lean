-- Native tokens that come back: what the receiver has of them after the transaction beyond what
-- they put into it.
import CardanoIbc.Ledger.Rules
import CardanoIbc.Transfer.Counterparty

namespace cardano_ibc

open validator_utils

namespace transfer_refund

variable (outputs : List Output) (address : Address) (policy_id : PolicyId) (name : AssetName)

theorem heldAt_eq_total : heldAt outputs address policy_id name =
    supply.total (fun o => assets.quantity_of o.value policy_id name)
      (outputs.filter fun o => o.address == address) := by
  have hfold : ∀ acc : Int, outputs.foldl (fun acc output =>
      if output.address = address then acc + assets.quantity_of output.value policy_id name
      else acc) acc = acc + supply.total (fun o => assets.quantity_of o.value policy_id name)
        (outputs.filter fun o => o.address == address) := by
    induction outputs with
    | nil => simp
    | cons o os ih =>
      intro acc
      rw [List.foldl_cons, ih]
      by_cases ho : o.address = address
      · simp only [ho, if_true, List.filter_cons, beq_self_eq_true, supply.total_cons]
        omega
      · simp [ho]
  rw [heldAt, hfold, Int.zero_add]

/-- The outputs at an address but for the first. -/
def othersAt : List Output := (outputs.filter fun o => o.address == address).tail

variable {outputs address}

/-- The first output at an address and the others hold everything there. -/
theorem heldAt_eq_first {first : Output}
    (h : outputs.find? (fun o => o.address == address) = some first) :
    heldAt outputs address policy_id name = assets.quantity_of first.value policy_id name +
      heldAt (othersAt outputs address) address policy_id name := by
  have hothers : (othersAt outputs address).filter (fun o => o.address == address) =
      othersAt outputs address := by
    rw [List.filter_eq_self]
    intro o ho
    exact (List.mem_filter.mp (List.mem_of_mem_tail ho)).2
  rw [heldAt_eq_total, heldAt_eq_total, hothers, othersAt]
  rw [← List.head?_filter] at h
  obtain ⟨rest, hrest⟩ := List.head?_eq_some_iff.mp h
  rw [hrest, List.tail_cons, supply.total_cons]

end transfer_refund

namespace spend_transfer_module

open transfer_refund

section Payout

variable [Builtins]

/-- What the module sees to when native tokens come back: the first output at the receiver's
address has the amount. -/
theorem payout_of_return {p : Params} {ref : OutputReference} {tx : Transaction}
    {channel_id packet_data : Bytes} {acknowledgement : Acknowledgement}
    {data : FungibleTokenPacketData} {packet : Packet} {proof : MerkleProof} {height : Height}
    {policy_id : PolicyId} {name : AssetName} {amount : Int} {receiver : Bytes}
    (haccepted : spend p (.Callback (.OnRecvPacket channel_id packet_data acknowledgement
      (.ModuleDataV1 (.packetData data)))) ref tx = some true)
    (hpacket : channelRedeemer p tx channel_id = some (.RecvPacket packet proof height))
    (hreturns : transfer_coin.receiver_chain_is_source packet.source_port packet.source_channel
      data.denom = true)
    (hunit : (string.hex_string_to_bytes (data.denom.drop
      ( transfer_coin.get_denom_prefix packet.source_port packet.source_channel).length)).bind
        extract_token_unit = some (policy_id, name))
    (hamount : int.from_utf8 data.amount = some amount)
    (hreceiver : string.hex_string_to_bytes data.receiver = some receiver) :
    ∃ payout, tx.outputs.find? (fun o => o.address == from_verification_key receiver) =
      some payout ∧ amount ≤ assets.quantity_of payout.value policy_id name := by
  simp only [spend, bind_eq_some] at haccepted
  obtain ⟨⟨host, _⟩, -, -, -, -, -, spent, -, hcallback⟩ := haccepted
  simp only [module_callback, decode_transfer_packet_data, hpacket, receivedPacket, bind_eq_some,
    Option.some.injEq, exists_eq_left', hreturns, if_true] at hcallback
  obtain ⟨_, -, -, -, -, -, -, -, -, -, hreturn⟩ := hcallback
  simp only [returnsNative, bind_eq_some, hamount, hreceiver, Option.some.injEq,
    exists_eq_left', pure_eq_some, Bool.and_eq_true, decide_eq_true_eq] at hreturn
  obtain ⟨-, -, unit, hhex, ⟨policy', name'⟩, hextract, -, -, -, -, -, -, -, -, -, -, -, -, -, -,
    payout, hpayout, -, -, -, hpaid⟩ := hreturn
  rw [hhex, Option.bind_some, hextract] at hunit
  cases hunit
  exact ⟨payout, hpayout, hpaid⟩

end Payout

/-! ## Somebody who is paid with their own change -/

section Sample

local instance payoutBuiltins : Builtins := counterparty.transferBuiltins

open counterparty

/-- Whoever the token comes back to. -/
def payoutReceiver : Bytes := List.replicate 28 60

/-- One token of the sample's policy, on its way back. -/
def returnData : FungibleTokenPacketData where
  denom := utf8 "transfer/channel-9/" ++ (List.replicate 28 (utf8 "2a")).flatten
  amount := utf8 "1"
  sender := utf8 "cosmos1r"
  receiver := (List.replicate 28 (utf8 "3c")).flatten
  memo := []

def returnPacket : Packet where
  sequence := 1
  source_port := utf8 "transfer"
  source_channel := utf8 "channel-9"
  destination_port := utf8 "transfer"
  destination_channel := utf8 "channel-0"
  data := fungible_token_packet_data.get_bytes returnData
  timeout_height := { revision_number := 0, revision_height := 0 }
  timeout_timestamp := 1000000000

def returnChannel : Output :=
  { sampleChannelToken with
    datum := .InlineDatum (.channel
      { state :=
          { channel :=
              { state := .Open
                ordering := .Unordered
                counterparty := { port_id := utf8 "transfer", channel_id := utf8 "channel-9" }
                connection_hops := [utf8 "connection-0"]
                version := utf8 "ics20-1" }
            next_sequence_send := 1
            next_sequence_recv := 1
            next_sequence_ack := 1
            packet_commitment := []
            packet_receipt := []
            packet_acknowledgement := []
            minimum_receive_proof_height := { revision_number := 0, revision_height := 0 }
            maximum_receive_proof_height := { revision_number := 0, revision_height := 0 } }
        port_id := utf8 "transfer"
        token :=
          { policy_id := List.replicate 28 7
            name := bigEndian 20 0x00a534446f3cc32f5e29f8397167a024e0f402a2 ++
              bigEndian 4 0x239b7220 ++ utf8 "0" } }) }

/-- One token in somebody's hands. -/
def oneTokenOf (key : Bytes) : Output :=
  { address := transfer_refund.from_verification_key key
    value := [(ada_policy_id, ada_asset_name, 2000000), (List.replicate 28 42, [], 1)]
    datum := .NoDatum }

/-- The shard gives up one of its five tokens. Beside the bridge's own outputs there are these
inputs and outputs. -/
def returnTx (spent : List Input) (left : List Output) : Transaction where
  inputs := [
    { output_reference := outputRef 0, output := sampleHostOutputs 4 },
    { output_reference := outputRef 1, output := returnChannel },
    { output_reference := outputRef 2, output := sampleShard [] 5 }] ++ spent
  reference_inputs := []
  outputs := [sampleHostOutputs 5, returnChannel, sampleShard [] 4] ++ left
  fee := 0
  mint := []
  validity_range :=
    { lower_bound := { bound_type := .NegativeInfinity, is_inclusive := true }
      upper_bound := { bound_type := .Finite 100, is_inclusive := true } }
  extra_signatories := []
  redeemers := [(.Spend (outputRef 1), .spendChannelRedeemer (.RecvPacket returnPacket
    { proofs := [] } { revision_number := 0, revision_height := 1 }))]
  datums := []
  id := List.replicate 32 92

def returnOrder : IBCModuleRedeemer :=
  .Callback (.OnRecvPacket (utf8 "channel-0") returnPacket.data
    (.AcknowledgementResult (utf8 "AQ==")) (.ModuleDataV1 (.packetData returnData)))

/-- The receiver puts a token in and gets one back, and the one from the shard goes to whoever
made the transaction. -/
def changeTx : Transaction :=
  returnTx [{ output_reference := outputRef 3, output := oneTokenOf payoutReceiver }]
    [oneTokenOf payoutReceiver, { oneTokenOf (List.replicate 28 61) with
      value := [(List.replicate 28 42, [], 1)] }]

end Sample

end spend_transfer_module

end cardano_ibc
