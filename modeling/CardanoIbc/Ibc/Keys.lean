-- Identifiers and the ICS-24 paths the commitment is keyed by: utils/string.ak, the keys.ak
-- files of ICS-02 to ICS-05 and lib/ibc/core/ics-024-host-requirements.
import CardanoIbc.Tendermint.Client
import Mathlib.Data.Nat.Digits.Defs

namespace cardano_ibc

/-! ## Numbers as text -/

def decimal (n : Nat) : Bytes :=
  if n = 0 then [48] else (Nat.digits 10 n).reverse.map fun d => (48 + d).toUInt8

/-- `string.from_int |> string.to_bytearray`. -/
def int_to_string (n : Int) : Bytes :=
  if n < 0 then 45 :: decimal n.natAbs else decimal n.natAbs

theorem digit_inj {a b : Nat} (ha : a < 10) (hb : b < 10)
    (h : (48 + a).toUInt8 = (48 + b).toUInt8) : a = b := by
  have := congrArg UInt8.toNat h
  simp only [Nat.toUInt8_eq, UInt8.toNat_ofNat'] at this
  omega

theorem map_digit_inj {xs ys : List Nat} (hx : ∀ d ∈ xs, d < 10) (hy : ∀ d ∈ ys, d < 10)
    (h : xs.map (fun d => (48 + d).toUInt8) = ys.map fun d => (48 + d).toUInt8) : xs = ys := by
  induction xs generalizing ys with
  | nil => cases ys <;> simp_all
  | cons x xs ih =>
    cases ys with
    | nil => simp at h
    | cons y ys =>
      simp only [List.map_cons, List.cons.injEq] at h
      have hhead := digit_inj (hx x List.mem_cons_self) (hy y List.mem_cons_self) h.1
      have htail := ih (fun d hd => hx d (List.mem_cons_of_mem x hd))
        (fun d hd => hy d (List.mem_cons_of_mem y hd)) h.2
      rw [hhead, htail]

/-- The digits of a number other than zero do not start with a zero. -/
theorem decimal_ne_zero_text {n : Nat} (h : n ≠ 0) : decimal n ≠ [48] := by
  intro hc
  have hzero : (Nat.digits 10 n).reverse.map (fun d => (48 + d).toUInt8) =
      [0].map fun d => (48 + d).toUInt8 := by simpa [decimal, h] using hc
  have hdigits := map_digit_inj (fun d hd => Nat.digits_lt_base (by decide)
    (List.mem_reverse.mp hd)) (by simp) hzero
  have hrev : Nat.digits 10 n = [0] := by
    have := congrArg List.reverse hdigits
    simpa using this
  have hval := Nat.ofDigits_digits 10 n
  rw [hrev] at hval
  exact h (by simpa [Nat.ofDigits] using hval.symm)

theorem decimal_inj {m n : Nat} (h : decimal m = decimal n) : m = n := by
  by_cases hm : m = 0
  · subst hm
    by_contra hn
    exact decimal_ne_zero_text (Ne.symm hn) (by rw [← h]; rfl)
  · by_cases hn : n = 0
    · subst hn
      exact absurd h (decimal_ne_zero_text hm)
    · simp only [decimal, hm, hn, if_false] at h
      have hdig := map_digit_inj
        (fun d hd => Nat.digits_lt_base (by decide) (List.mem_reverse.mp hd))
        (fun d hd => Nat.digits_lt_base (by decide) (List.mem_reverse.mp hd)) h
      exact Nat.digits_inj_iff.mp (List.reverse_injective hdig)

theorem int_to_string_inj {m n : Int} (hm : 0 ≤ m) (hn : 0 ≤ n)
    (h : int_to_string m = int_to_string n) : m = n := by
  have := decimal_inj (by simpa [int_to_string, hm, hn, Int.not_lt.mpr] using h)
  omega

/-! ## Identifiers -/

def is_uint_string (n : Bytes) : Bool := height.is_uint_string n

/-- An identifier is its kind's text followed by a sequence number. -/
def isValidId (kind id : Bytes) : Bool :=
  id.take kind.length == kind && is_uint_string (id.drop kind.length)

def client_prefix : Bytes := utf8 "ibc_client"
def client_id_prefix_with_separator : Bytes := utf8 "07-tendermint-"
def parse_client_id_sequence (client_id : Bytes) : Bytes := client_id.drop 14
def is_valid_client_id (client_id : Bytes) : Bool :=
  isValidId client_id_prefix_with_separator client_id

def connection_prefix : Bytes := utf8 "connection"
def connection_prefix_with_separator : Bytes := utf8 "connection-"
def format_connection_identifier (sequence : Bytes) : Bytes :=
  connection_prefix_with_separator ++ sequence
def parse_connection_id_sequence (connection_id : Bytes) : Bytes := connection_id.drop 11
def is_valid_connection_id (connection_id : Bytes) : Bool :=
  isValidId connection_prefix_with_separator connection_id

def channel_prefix : Bytes := utf8 "channel"
def channel_prefix_with_separator : Bytes := utf8 "channel-"
def format_channel_identifier (sequence : Bytes) : Bytes :=
  channel_prefix_with_separator ++ sequence
def parse_channel_id_sequence (channel_id : Bytes) : Bytes := channel_id.drop 8
def is_valid_channel_id (channel_id : Bytes) : Bool :=
  isValidId channel_prefix_with_separator channel_id

/-- Letters, digits and the punctuation `. _ + - # [ ] < >`. -/
def isIdentifierChar (b : UInt8) : Bool :=
  (0x61 ≤ b && b ≤ 0x7a) || (0x41 ≤ b && b ≤ 0x5a) || (0x30 ≤ b && b ≤ 0x39) ||
    [0x2e, 0x5f, 0x2b, 0x2d, 0x23, 0x5b, 0x5d, 0x3c, 0x3e].contains b

def default_identifier_validator (id : Bytes) (min max : Nat) : Bool :=
  trim_space id != [] && (min ≤ id.length && id.length ≤ max) && id.all isIdentifierChar

def client_identifier_validator (id : Bytes) : Bool := default_identifier_validator id 9 64
def connection_identifier_validator (id : Bytes) : Bool := default_identifier_validator id 10 64
def port_identifier_validator (id : Bytes) : Bool := default_identifier_validator id 2 128
def channel_identifier_validator (id : Bytes) : Bool := default_identifier_validator id 8 64

def is_valid_port_id (port_id : Bytes) : Bool :=
  !(port_id.length < 2 || port_id.length > 128) && port_id.all isIdentifierChar

def port_token_domain : Bytes := utf8 "cardano-ibc/port-token/v1"

def port_token_name [Builtins] (port_id : Bytes) : Option Bytes := do
  expect (is_valid_port_id port_id)
  return blake2b_256 ( port_token_domain ++ [0] ++ port_id)

/-! ## Paths -/

def slash : Bytes := utf8 "/"

def key_port_prefix : Bytes := utf8 "ports"
def key_channel_end_prefix : Bytes := utf8 "channelEnds"
def key_channel_prefix : Bytes := utf8 "channels"
def key_client_store_prefix : Bytes := utf8 "clients"
def key_client_state : Bytes := utf8 "clientState"
def key_client_consensus_states : Bytes := utf8 "consensusStates"
def default_merkle_prefix : Bytes := utf8 "ibc"
def key_connection_prefix : Bytes := utf8 "connections"
def key_packet_commitment_prefix : Bytes := utf8 "commitments"
def key_packet_ack_prefix : Bytes := utf8 "acks"
def key_packet_receipt_prefix : Bytes := utf8 "receipts"
def key_sequence_prefix : Bytes := utf8 "sequences"
def key_next_seq_send_prefix : Bytes := utf8 "nextSequenceSend"
def key_next_seq_recv_prefix : Bytes := utf8 "nextSequenceRecv"
def key_next_seq_ack_prefix : Bytes := utf8 "nextSequenceAck"

def channel_path_for_packet (port_id channel_id : Bytes) : Bytes :=
  key_port_prefix ++ slash ++ port_id ++ slash ++ key_channel_prefix ++ slash ++ channel_id

/-- Every key of a channel is a kind, a slash and the channel's own path. -/
def channelKey (kind port_id channel_id : Bytes) : Bytes :=
  kind ++ slash ++ channel_path_for_packet port_id channel_id

def channel_path (port_id channel_id : Bytes) : Bytes :=
  channelKey key_channel_end_prefix port_id channel_id

def next_sequence_send_path (port_id channel_id : Bytes) : Bytes :=
  channelKey key_next_seq_send_prefix port_id channel_id

def next_sequence_recv_path (port_id channel_id : Bytes) : Bytes :=
  channelKey key_next_seq_recv_prefix port_id channel_id

def next_sequence_ack_path (port_id channel_id : Bytes) : Bytes :=
  channelKey key_next_seq_ack_prefix port_id channel_id

/-- Every key of a packet is its channel's key of that kind and the packet's sequence. -/
def packetKey (kind port_id channel_id : Bytes) (sequence : Int) : Bytes :=
  channelKey kind port_id channel_id ++ slash ++ key_sequence_prefix ++ slash ++
    int_to_string sequence

def packet_commitment_path (port_id channel_id : Bytes) (sequence : Int) : Bytes :=
  packetKey key_packet_commitment_prefix port_id channel_id sequence

def packet_acknowledgement_path (port_id channel_id : Bytes) (sequence : Int) : Bytes :=
  packetKey key_packet_ack_prefix port_id channel_id sequence

def packet_receipt_path (port_id channel_id : Bytes) (sequence : Int) : Bytes :=
  packetKey key_packet_receipt_prefix port_id channel_id sequence

def full_client_path (client_id path : Bytes) : Bytes :=
  key_client_store_prefix ++ slash ++ client_id ++ slash ++ path

def full_client_state_path (client_id : Bytes) : Bytes :=
  full_client_path client_id key_client_state

def full_client_consensus_state_path (client_id height : Bytes) : Bytes :=
  full_client_path client_id key_client_consensus_states ++ slash ++ height

def connection_path (connection_id : Bytes) : Bytes :=
  key_connection_prefix ++ slash ++ connection_id

end cardano_ibc
