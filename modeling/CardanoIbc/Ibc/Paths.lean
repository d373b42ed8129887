-- The paths that are committed to (ICS-24) are told apart: between its slashes a path says what kind
-- it is of and whose it is, since no identifier has a slash in it.
import CardanoIbc.Ibc.Keys

namespace cardano_ibc

/-! ## Characters -/

theorem decimal_byte {n : Nat} {b : UInt8} (h : b ∈ decimal n) : 48 ≤ b.toNat ∧ b.toNat ≤ 57 := by
  rw [decimal] at h
  split at h
  · rw [List.mem_singleton.mp h]
    decide
  · obtain ⟨d, hd, rfl⟩ := List.mem_map.mp h
    have hlt : d < 10 := Nat.digits_lt_base (by decide) (List.mem_reverse.mp hd)
    simp only [Nat.toUInt8_eq, UInt8.toNat_ofNat']
    omega

theorem notMem_decimal {b : UInt8} (h : b.toNat < 48) (n : Nat) : b ∉ decimal n := by
  intro hb
  have := (decimal_byte hb).1
  omega

theorem slash_notMem_int_to_string (n : Int) : (47 : UInt8) ∉ int_to_string n := by
  unfold int_to_string
  split
  · rw [List.mem_cons, not_or]
    exact ⟨by decide, notMem_decimal (by decide) _⟩
  · exact notMem_decimal (by decide) _

/-- Negative numbers have texts of their own too. -/
theorem int_to_string_injective : Function.Injective int_to_string := by
  intro a b h
  unfold int_to_string at h
  split at h <;> split at h
  · have := decimal_inj (List.cons.inj h).2
    omega
  · exact absurd (h ▸ List.mem_cons_self) (notMem_decimal (by decide) b.natAbs)
  · exact absurd (h.symm ▸ List.mem_cons_self) (notMem_decimal (by decide) a.natAbs)
  · have := decimal_inj h
    omega

theorem isIdentifierChar_ascii {b : UInt8} (h : isIdentifierChar b = true) :
    b.toNat < 0x80 ∧ b ≠ 47 := by
  simp only [isIdentifierChar, Bool.or_eq_true, Bool.and_eq_true, decide_eq_true_eq,
    List.contains_iff_mem, List.mem_cons, List.not_mem_nil, or_false, UInt8.le_iff_toNat_le] at h
  constructor
  · rcases h with ((h | h) | h) | rfl | rfl | rfl | rfl | rfl | rfl | rfl | rfl | rfl
    · exact Nat.lt_of_le_of_lt h.2 (by decide)
    · exact Nat.lt_of_le_of_lt h.2 (by decide)
    · exact Nat.lt_of_le_of_lt h.2 (by decide)
    all_goals decide
  · rintro rfl
    revert h
    decide

theorem slash_notMem_identifier {id : Bytes} {min max : Nat}
    (h : default_identifier_validator id min max = true) : (47 : UInt8) ∉ id := by
  simp only [default_identifier_validator, Bool.and_eq_true, List.all_eq_true] at h
  intro hslash
  exact (isIdentifierChar_ascii (h.2 47 hslash)).2 rfl

/-! ## Paths -/

inductive ChannelEntry where
  | channelEnd | nextSequenceSend | nextSequenceRecv | nextSequenceAck
deriving DecidableEq, Repr

inductive PacketEntry where
  | commitment | receipt | acknowledgement
deriving DecidableEq, Repr

/-- What is committed to, and whose it is. -/
inductive CommittedPath where
  | clientState (client_id : Bytes)
  | consensusState (client_id : Bytes) (revision_height : Int)
  | connection (connection_id : Bytes)
  | channel (entry : ChannelEntry) (port_id channel_id : Bytes)
  | packet (entry : PacketEntry) (port_id channel_id : Bytes) (sequence : Int)
  | port (port_id : Bytes)
deriving DecidableEq, Repr

namespace CommittedPath

def bytes : CommittedPath → Bytes
  | .clientState client_id => full_client_state_path client_id
  | .consensusState client_id revision_height =>
    full_client_consensus_state_path client_id (int_to_string revision_height)
  | .connection connection_id => connection_path connection_id
  | .channel .channelEnd port_id channel_id => channel_path port_id channel_id
  | .channel .nextSequenceSend port_id channel_id => next_sequence_send_path port_id channel_id
  | .channel .nextSequenceRecv port_id channel_id => next_sequence_recv_path port_id channel_id
  | .channel .nextSequenceAck port_id channel_id => next_sequence_ack_path port_id channel_id
  | .packet .commitment port_id channel_id sequence =>
    packet_commitment_path port_id channel_id sequence
  | .packet .receipt port_id channel_id sequence => packet_receipt_path port_id channel_id sequence
  | .packet .acknowledgement port_id channel_id sequence =>
    packet_acknowledgement_path port_id channel_id sequence
  | .port port_id => key_port_prefix ++ slash ++ port_id

/-- Ports and channels as the validators of ICS-24 accept them, clients and connections as they are
numbered here. -/
def Valid : CommittedPath → Prop
  | .clientState client_id | .consensusState client_id _ =>
    ∃ n : Int, 0 ≤ n ∧ client_id = client_id_prefix_with_separator ++ int_to_string n
  | .connection connection_id =>
    ∃ n : Int, 0 ≤ n ∧ connection_id = format_connection_identifier (int_to_string n)
  | .channel _ port_id channel_id =>
    port_identifier_validator port_id = true ∧ channel_identifier_validator channel_id = true
  | .packet _ port_id channel_id sequence =>
    port_identifier_validator port_id = true ∧ channel_identifier_validator channel_id = true ∧
      0 ≤ sequence
  | .port port_id => port_identifier_validator port_id = true

def channelName : ChannelEntry → Bytes
  | .channelEnd => key_channel_end_prefix
  | .nextSequenceSend => key_next_seq_send_prefix
  | .nextSequenceRecv => key_next_seq_recv_prefix
  | .nextSequenceAck => key_next_seq_ack_prefix

def packetName : PacketEntry → Bytes
  | .commitment => key_packet_commitment_prefix
  | .receipt => key_packet_receipt_prefix
  | .acknowledgement => key_packet_ack_prefix

/-- What stands between the slashes. -/
def parts : CommittedPath → List Bytes
  | .clientState client_id => [ key_client_store_prefix, client_id, key_client_state]
  | .consensusState client_id revision_height =>
    [ key_client_store_prefix, client_id, key_client_consensus_states,
      int_to_string revision_height]
  | .connection connection_id => [ key_connection_prefix, connection_id]
  | .channel entry port_id channel_id =>
    [channelName entry, key_port_prefix, port_id, key_channel_prefix, channel_id]
  | .packet entry port_id channel_id sequence =>
    [packetName entry, key_port_prefix, port_id, key_channel_prefix, channel_id,
      key_sequence_prefix, int_to_string sequence]
  | .port port_id => [ key_port_prefix, port_id]

theorem bytes_eq (p : CommittedPath) : p.bytes = slash.intercalate p.parts := by
  have hchannel : ∀ kind port_id channel_id, channelKey kind port_id channel_id =
      slash.intercalate [kind, key_port_prefix, port_id, key_channel_prefix, channel_id] := by
    intro kind port_id channel_id
    simp [channelKey, channel_path_for_packet, List.intercalate_cons_cons]
  have hpacket : ∀ kind port_id channel_id sequence, packetKey kind port_id channel_id sequence =
      slash.intercalate [kind, key_port_prefix, port_id, key_channel_prefix, channel_id,
        key_sequence_prefix, int_to_string sequence] := by
    intro kind port_id channel_id sequence
    simp [packetKey, hchannel, List.intercalate_cons_cons]
  cases p with
  | clientState client_id =>
    simp [bytes, parts, full_client_state_path, full_client_path, List.intercalate_cons_cons]
  | consensusState client_id revision_height =>
    simp [bytes, parts, full_client_consensus_state_path, full_client_path,
      List.intercalate_cons_cons]
  | connection connection_id => simp [bytes, parts, connection_path, List.intercalate_cons_cons]
  | channel entry port_id channel_id =>
    cases entry <;> exact hchannel _ port_id channel_id
  | packet entry port_id channel_id sequence =>
    cases entry <;> exact hpacket _ port_id channel_id sequence
  | port port_id => simp [bytes, parts, List.intercalate_cons_cons]

theorem slash_notMem_parts {p : CommittedPath} (h : p.Valid) :
    ∀ part ∈ p.parts, (47 : UInt8) ∉ part := by
  have hchannelName : ∀ entry, (47 : UInt8) ∉ channelName entry := by
    intro entry
    cases entry <;> decide
  have hpacketName : ∀ entry, (47 : UInt8) ∉ packetName entry := by
    intro entry
    cases entry <;> decide
  have hnumbered : ∀ kind : Bytes, (47 : UInt8) ∉ kind →
      ∀ n, (47 : UInt8) ∉ kind ++ int_to_string n := by
    intro kind hkind n
    rw [List.mem_append, not_or]
    exact ⟨hkind, slash_notMem_int_to_string n⟩
  cases p with
  | clientState client_id =>
    obtain ⟨n, -, rfl⟩ := h
    simp only [parts, List.forall_mem_cons]
    exact ⟨by decide, hnumbered _ (by decide) n, by decide, by simp⟩
  | consensusState client_id revision_height =>
    obtain ⟨n, -, rfl⟩ := h
    simp only [parts, List.forall_mem_cons]
    exact ⟨by decide, hnumbered _ (by decide) n, by decide, slash_notMem_int_to_string _, by simp⟩
  | connection connection_id =>
    obtain ⟨n, -, rfl⟩ := h
    simp only [parts, List.forall_mem_cons]
    exact ⟨by decide, hnumbered _ (by decide) n, by simp⟩
  | channel entry port_id channel_id =>
    simp only [parts, List.forall_mem_cons]
    exact ⟨hchannelName entry, by decide, slash_notMem_identifier h.1, by decide,
      slash_notMem_identifier h.2, by simp⟩
  | packet entry port_id channel_id sequence =>
    simp only [parts, List.forall_mem_cons]
    exact ⟨hpacketName entry, by decide, slash_notMem_identifier h.1, by decide,
      slash_notMem_identifier h.2.1, by decide, slash_notMem_int_to_string _, by simp⟩
  | port port_id =>
    simp only [parts, List.forall_mem_cons]
    exact ⟨by decide, slash_notMem_identifier h, by simp⟩

theorem channelName_injective : Function.Injective channelName := by
  intro entry entry' h
  cases entry <;> cases entry' <;> first | rfl | exact absurd h (by decide)

theorem packetName_injective : Function.Injective packetName := by
  intro entry entry' h
  cases entry <;> cases entry' <;> first | rfl | exact absurd h (by decide)

/-- The number of parts tells most kinds apart. -/
theorem parts_injective : Function.Injective parts := by
  intro p q h
  cases p <;> cases q <;> simp only [parts, List.cons.injEq, and_true, true_and, and_false,
    reduceCtorEq] at h
  case clientState.clientState => rw [h]
  case consensusState.consensusState => rw [h.1, int_to_string_injective h.2]
  case connection.connection => rw [h]
  case connection.port => exact absurd h.1 (by decide)
  case channel.channel =>
    obtain ⟨hentry, hport, hchannel⟩ := h
    rw [channelName_injective hentry, hport, hchannel]
  case packet.packet =>
    obtain ⟨hentry, hport, hchannel, hsequence⟩ := h
    rw [packetName_injective hentry, hport, hchannel, int_to_string_injective hsequence]
  case port.connection => exact absurd h.1 (by decide)
  case port.port => rw [h]

/-- Paths of different kinds or with different parameters are different strings. -/
theorem committed_paths_apart {p q : CommittedPath} (hp : p.Valid) (hq : q.Valid) (hne : p ≠ q) :
    p.bytes ≠ q.bytes := by
  intro h
  rw [bytes_eq, bytes_eq] at h
  have hnil : ∀ p : CommittedPath, p.parts ≠ [] := by
    intro p
    cases p <;> exact List.cons_ne_nil _ _
  have hparts := congrArg (List.splitOn 47) h
  rw [show slash = [47] from rfl, List.splitOn_intercalate 47 (slash_notMem_parts hp) (hnil p),
    List.splitOn_intercalate 47 (slash_notMem_parts hq) (hnil q)] at hparts
  exact hne (parts_injective hparts)

/-- A channel's end and the acknowledgement of a packet on it. -/
theorem channel_end_and_acknowledgement_apart :
    (CommittedPath.channel .channelEnd (utf8 "transfer") (utf8 "channel-0")).Valid ∧
    (CommittedPath.packet .acknowledgement (utf8 "transfer") (utf8 "channel-0") 7).Valid ∧
    (CommittedPath.channel .channelEnd (utf8 "transfer") (utf8 "channel-0")).bytes ≠
      (CommittedPath.packet .acknowledgement (utf8 "transfer") (utf8 "channel-0") 7).bytes := by
  have hchannel : (CommittedPath.channel .channelEnd (utf8 "transfer") (utf8 "channel-0")).Valid :=
    ⟨by decide, by decide⟩
  have hpacket :
      (CommittedPath.packet .acknowledgement (utf8 "transfer") (utf8 "channel-0") 7).Valid :=
    ⟨by decide, by decide, by decide⟩
  exact ⟨hchannel, hpacket, committed_paths_apart hchannel hpacket nofun⟩

end CommittedPath

end cardano_ibc
