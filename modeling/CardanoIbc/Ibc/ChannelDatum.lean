-- A channel's record, its packets and what each operation makes of it: channel_datum.ak,
-- channel.ak, packet.ak, acknowledgement.ak and channel_pb.ak.
import CardanoIbc.Ibc.Connection

namespace cardano_ibc

/-! ## Pairs -/

namespace pairs

/-- `pairs.delete_first`. -/
def delete_first {α β : Type} [BEq α] : List (α × β) → α → List (α × β)
  | [], _ => []
  | p :: rest, key => if p.1 == key then rest else p :: delete_first rest key

/-- `pairs.insert_by_ascending_key`: before the first key it is less than, in the place of one
it is equal to. -/
def insert_by_ascending_key {α β : Type} [BEq α] (compare : α → α → Ordering) :
    List (α × β) → α → β → List (α × β)
  | [], key, value => [(key, value)]
  | p :: rest, key, value =>
    if compare key p.1 == .lt then (key, value) :: p :: rest
    else if key == p.1 then (key, value) :: rest
    else p :: insert_by_ascending_key compare rest key value

/-- A key that is there is deleted with what is found under it. -/
theorem perm_delete_first {α β : Type} [BEq α] [LawfulBEq α] {ps : List (α × β)} {k : α} {v : β}
    (h : get_first ps k = some v) : ps.Perm ((k, v) :: delete_first ps k) := by
  induction ps with
  | nil => simp [get_first] at h
  | cons p ps ih =>
    unfold delete_first
    by_cases hk : p.1 == k
    · have hv : p.2 = v := by simpa [get_first, hk] using h
      have hp : p = (k, v) := Prod.ext (by simpa using hk) hv
      simp [hp]
    · have htail : get_first ps k = some v := by simpa [get_first, hk] using h
      rw [if_neg (by simpa using hk)]
      exact ((ih htail).cons p).trans (List.Perm.swap _ _ _)

/-- Other keys stay. -/
theorem mem_keys_delete_first {α β : Type} [BEq α] [LawfulBEq α] {ps : List (α × β)} {k k' : α}
    (hne : k' ≠ k) (h : k' ∈ ps.map Prod.fst) : k' ∈ (delete_first ps k).map Prod.fst := by
  induction ps with
  | nil => simp at h
  | cons p ps ih =>
    unfold delete_first
    simp only [List.map_cons, List.mem_cons] at h
    split
    · rename_i hk
      rcases h with rfl | h
      · exact absurd (by simpa using hk) hne
      · exact h
    · rw [List.map_cons, List.mem_cons]
      exact h.imp_right ih

/-- A new key is added. -/
theorem perm_insert_by_ascending_key {α β : Type} [BEq α] [LawfulBEq α]
    {compare : α → α → Ordering} {ps : List (α × β)} {k : α} {v : β}
    (h : k ∉ ps.map Prod.fst) :
    (insert_by_ascending_key compare ps k v).Perm ((k, v) :: ps) := by
  induction ps with
  | nil => exact List.Perm.refl _
  | cons p ps ih =>
    simp only [List.map_cons, List.mem_cons, not_or] at h
    unfold insert_by_ascending_key
    split
    · exact List.Perm.refl _
    · rw [if_neg (by simpa using h.1)]
      exact ((ih h.2).cons p).trans (List.Perm.swap _ _ _)

theorem delete_first_sublist {α β : Type} [BEq α] (ps : List (α × β)) (k : α) :
    (delete_first ps k).Sublist ps := by
  induction ps with
  | nil => exact List.Sublist.refl _
  | cons p ps ih =>
    unfold delete_first
    split
    · exact List.sublist_cons_self p ps
    · exact ih.cons_cons p

/-- What is there under distinct keys after a deletion. -/
theorem mem_keys_delete_first_iff {α β : Type} [BEq α] [LawfulBEq α] {ps : List (α × β)}
    {k k' : α} (hnodup : (ps.map Prod.fst).Nodup) :
    k' ∈ (delete_first ps k).map Prod.fst ↔ k' ∈ ps.map Prod.fst ∧ k' ≠ k := by
  constructor
  · intro h
    refine ⟨((delete_first_sublist ps k).map Prod.fst).subset h, ?_⟩
    rintro rfl
    induction ps with
    | nil => cases h
    | cons p ps ih =>
      rw [List.map_cons, List.nodup_cons] at hnodup
      unfold delete_first at h
      split at h
      · rename_i hk
        exact hnodup.1 (by rwa [beq_iff_eq.mp hk])
      · rename_i hk
        rw [List.map_cons, List.mem_cons] at h
        rcases h with rfl | h
        · exact hk (beq_self_eq_true _)
        · exact ih hnodup.2 h
  · rintro ⟨h, hne⟩
    exact mem_keys_delete_first hne h

theorem length_insert_by_ascending_key {α β : Type} [BEq α] [LawfulBEq α]
    (compare : α → α → Ordering) {ps : List (α × β)} {k : α} (v : β)
    (h : k ∉ ps.map Prod.fst) :
    (insert_by_ascending_key compare ps k v).length = ps.length + 1 :=
  (perm_insert_by_ascending_key h).length_eq

theorem mem_keys_insert_by_ascending_key {α β : Type} [BEq α] [LawfulBEq α]
    {compare : α → α → Ordering} {ps : List (α × β)} {k k' : α} {v : β}
    (h : k ∉ ps.map Prod.fst) :
    k' ∈ (insert_by_ascending_key compare ps k v).map Prod.fst ↔
      k' = k ∨ k' ∈ ps.map Prod.fst := by
  rw [((perm_insert_by_ascending_key h).map Prod.fst).mem_iff, List.map_cons, List.mem_cons]

/-- Keys in some order stay so, where the comparison knows on which side of each of them the new
one belongs. -/
theorem sorted_insert_by_ascending_key {α β : Type} [BEq α] [LawfulBEq α]
    {compare : α → α → Ordering} {r : α → α → Prop} [IsTrans α r] {ps : List (α × β)} {k : α}
    {v : β} (hsorted : (ps.map Prod.fst).Pairwise r) (h : k ∉ ps.map Prod.fst)
    (hcompare : ∀ x ∈ ps.map Prod.fst, if compare k x = .lt then r k x else r x k) :
    ((insert_by_ascending_key compare ps k v).map Prod.fst).Pairwise r := by
  induction ps with
  | nil => exact List.pairwise_singleton _ _
  | cons p ps ih =>
    simp only [List.map_cons, List.mem_cons, not_or] at h
    obtain ⟨hhead, htail⟩ := List.pairwise_cons.mp hsorted
    have hp := hcompare p.1 (by simp)
    unfold insert_by_ascending_key
    by_cases hlt : compare k p.1 = .lt
    · rw [if_pos hlt] at hp
      rw [if_pos (by simpa using hlt)]
      refine List.pairwise_cons.mpr ⟨?_, hsorted⟩
      intro s hs
      rcases List.mem_cons.mp hs with rfl | hs
      · exact hp
      · exact IsTrans.trans _ _ _ hp (hhead s hs)
    · rw [if_neg hlt] at hp
      rw [if_neg (by simpa using hlt), if_neg (by simpa using h.1)]
      have hrest := ih htail h.2 fun x hx => hcompare x (List.mem_cons_of_mem _ hx)
      refine List.pairwise_cons.mpr ⟨?_, hrest⟩
      intro s hs
      rcases (mem_keys_insert_by_ascending_key h.2).mp hs with rfl | hs
      · exact hp
      · exact hhead s hs

/-- Ascending keys stay so. -/
theorem ascending_insert_by_ascending_key {β : Type} {ps : List (Int × β)} {k : Int} {v : β}
    (hsorted : (ps.map Prod.fst).Pairwise (· < ·)) (h : k ∉ ps.map Prod.fst) :
    ((insert_by_ascending_key compare ps k v).map Prod.fst).Pairwise (· < ·) := by
  refine sorted_insert_by_ascending_key hsorted h ?_
  intro x hx
  have hne : k ≠ x := fun heq => h (heq ▸ hx)
  split
  · rename_i hlt
    exact Int.compare_eq_lt.mp hlt
  · rename_i hnot
    rw [Int.compare_eq_lt] at hnot
    omega

/-- `pairs.get_all`. -/
def get_all {α β : Type} [BEq α] (ps : List (α × β)) (key : α) : List β :=
  (ps.filter fun p => p.1 == key).map Prod.snd

end pairs

/-! ## Packets -/

def height.is_valid (h : Height) : Bool := h.revision_number ≥ 0 && h.revision_height ≥ 0

/-- `bytearray.from_int_big_endian`: stops on a number that does not fit in `size` bytes. -/
def from_int_big_endian (n : Int) (size : Nat) : Option Bytes :=
  if 0 ≤ n ∧ n < 256 ^ size then some (bigEndian size n.toNat) else none

namespace packet

def validate_basic (p : Packet) : Bool :=
  port_identifier_validator p.source_port && port_identifier_validator p.destination_port &&
    channel_identifier_validator p.source_channel &&
    channel_identifier_validator p.destination_channel && p.sequence > 0 &&
    height.is_valid p.timeout_height && p.timeout_timestamp ≥ 0 &&
    (!height.is_zero p.timeout_height || p.timeout_timestamp != 0) && p.data.length > 0

def commit_packet [Builtins] (packet : Packet) : Option Bytes := do
  let timestamp ← from_int_big_endian packet.timeout_timestamp 8
  let number ← from_int_big_endian packet.timeout_height.revision_number 8
  let revision_height ← from_int_big_endian packet.timeout_height.revision_height 8
  return sha2_256 (timestamp ++ number ++ revision_height ++ sha2_256 packet.data)

end packet

namespace acknowledgement

def quote : Bytes := [34]

def get_json (key value : Bytes) : Bytes :=
  quote ++ key ++ quote ++ [58] ++ quote ++ value ++ quote

def marshal_json (ack : Acknowledgement) : Bytes :=
  match ack with
  | .AcknowledgementResult result => [123] ++ get_json (utf8 "result") result ++ [125]
  | .AcknowledgementError err => [123] ++ get_json (utf8 "error") err ++ [125]

def commit_acknowledgement [Builtins] (data : Bytes) : Bytes := sha2_256 data

end acknowledgement

/-! ## Channel ends -/

def order.string : Order → Bytes
  | .None => utf8 "ORDER_NONE_UNSPECIFIED"
  | .Unordered => utf8 "ORDER_UNORDERED"
  | .Ordered => utf8 "ORDER_ORDERED"

namespace channel_counterparty

def validate_basic (c : ChannelCounterparty) : Bool :=
  port_identifier_validator c.port_id &&
    (c.channel_id == [] || channel_identifier_validator c.channel_id)

end channel_counterparty

namespace channel

def validate_basic (ch : Channel) : Option Bool := do
  let connection_id ← exactlyOne ch.connection_hops
  return (ch.ordering == .Ordered || ch.ordering == .Unordered) &&
    is_valid_connection_id connection_id && channel_counterparty.validate_basic ch.counterparty

end channel

namespace channel_pb

def field_3_length_delimited : Int := 0x1a
def field_6_varint : Int := 0x30

def state_to_int32 : ChannelState → Int
  | .Uninitialized => 0
  | .Init => 1
  | .TryOpen => 2
  | .Open => 3
  | .Closed => 4

def order_to_int32 : Order → Int
  | .None => 0
  | .Unordered => 1
  | .Ordered => 2

def marshal_for_counterparty (c : ChannelCounterparty) : Option (Int × Bytes) := do
  let port_id ← encode_bytearray c.port_id field_1_length_delimited
  let channel_id ← encode_bytearray c.channel_id field_2_length_delimited
  return size_and_concat (size_and_concat (0, []) port_id) channel_id

/-- A channel has no upgrade: the last field is always zero. -/
def marshal_for_channel (c : Channel) : Option (Int × Bytes) := do
  let state ← encode_int (state_to_int32 c.state) field_1_varint
  let ordering ← encode_int (order_to_int32 c.ordering) field_2_varint
  let counterparty ← nest_record (← marshal_for_counterparty c.counterparty)
    field_3_length_delimited
  let hops ← c.connection_hops.foldlM (fun (size, bz1) connection_hop => do
    let l := connection_hop.length
    let bz2 ← push ((← encode_length_varint l) ++ connection_hop) field_4_length_delimited
    return (size + sov l + l + 1, bz1 ++ bz2)) ((0 : Int), ([] : Bytes))
  let version ← encode_bytearray c.version field_5_length_delimited
  let upgrade_sequence ← encode_int 0 field_6_varint
  return add_and_concat (size_and_concat (add_and_concat (add_and_concat (add_and_concat
    (add_and_concat (0, []) state) ordering) counterparty) hops) version) upgrade_sequence

end channel_pb

/-! ## What each operation makes of the record -/

namespace channel_datum

def max_packet_entries_per_channel : Nat := 64

def packet_entry_count (state : ChannelDatumState) : Nat :=
  state.packet_commitment.length + state.packet_receipt.length +
    state.packet_acknowledgement.length

/-- A channel starts with sequences at one, no packets and no proof heights. -/
def isFresh (state : ChannelDatumState) : Bool :=
  (state.next_sequence_send == 1 && state.next_sequence_recv == 1 &&
    state.next_sequence_ack == 1 &&
    state.minimum_receive_proof_height == height.zero_height &&
    state.maximum_receive_proof_height == height.zero_height) &&
  (state.packet_commitment.isEmpty && state.packet_receipt.isEmpty &&
    state.packet_acknowledgement.isEmpty)

/-- Both ways of opening ask for the same but for the state and the counterparty's id. -/
def openValid (datum : ChannelDatum) (auth_token : AuthToken) (state : ChannelState)
    (counterpartyKnown : Bool) : Option Bool :=
  channel.validate_basic datum.state.channel <&&>
    pure (datum.token == auth_token && datum.state.channel.state == state &&
      (datum.state.channel.counterparty.channel_id != []) == counterpartyKnown &&
      isFresh datum.state && is_valid_port_id datum.port_id)

theorem openValid_spec {datum : ChannelDatum} {auth_token : AuthToken} {state : ChannelState}
    {known : Bool} (h : openValid datum auth_token state known = some true) :
    datum.token = auth_token ∧ datum.state.channel.state = state ∧ isFresh datum.state = true ∧
      is_valid_port_id datum.port_id = true ∧
      channel.validate_basic datum.state.channel = some true := by
  simp only [openValid, and_accepts, pure_eq_some, Bool.and_eq_true, beq_iff_eq] at h
  exact ⟨h.2.1.1.1.1, h.2.1.1.1.2, h.2.1.2, h.2.2, h.1⟩

theorem openValid_known {datum : ChannelDatum} {auth_token : AuthToken} {state : ChannelState}
    {known : Bool} (h : openValid datum auth_token state known = some true) :
    (datum.state.channel.counterparty.channel_id != []) = known := by
  simp only [openValid, and_accepts, pure_eq_some, Bool.and_eq_true, beq_iff_eq] at h
  exact h.2.1.1.2

def validate_chan_open_init (datum : ChannelDatum) (auth_token : AuthToken) : Option Bool :=
  openValid datum auth_token .Init false

def validate_chan_open_try (datum : ChannelDatum) (auth_token : AuthToken) : Option Bool :=
  openValid datum auth_token .TryOpen true

/-- The record with another channel end. -/
def withChannel (datum : ChannelDatum) (ch : Channel) : ChannelDatum :=
  { datum with state := { datum.state with channel := ch } }

def validate_chan_open_ack (input_datum output_datum : ChannelDatum) : Option Bool := do
  let input_chan := input_datum.state.channel
  expect (input_chan.state == .Init)
  let output_counterpary_chan_id := output_datum.state.channel.counterparty.channel_id
  expect (channel_identifier_validator output_counterpary_chan_id)
  return withChannel input_datum { input_chan with
    state := .Open
    counterparty := { input_chan.counterparty with
      channel_id := output_counterpary_chan_id } } == output_datum

def validate_chan_open_confirm (input_datum output_datum : ChannelDatum) : Option Bool := do
  expect (input_datum.state.channel.state == .TryOpen)
  return withChannel input_datum { input_datum.state.channel with state := .Open } ==
    output_datum

def validate_chan_close_init (input_datum output_datum : ChannelDatum) : Bool :=
  withChannel input_datum { input_datum.state.channel with state := .Closed } == output_datum

def validate_chan_close_confirm (input_datum output_datum : ChannelDatum) : Bool :=
  withChannel input_datum { input_datum.state.channel with state := .Closed } == output_datum

def maxHeight (a b : Height) : Height := if height.compare a b = .gt then a else b

theorem le_maxHeight (a b : Height) :
    height.compare a (maxHeight a b) ≠ .gt ∧ height.compare b (maxHeight a b) ≠ .gt := by
  unfold maxHeight
  split
  · rename_i h
    refine ⟨height.le_refl a, ?_⟩
    rw [← height.compare_ne_lt_iff, h]
    decide
  · rename_i h
    exact ⟨h, height.le_refl b⟩

/-- What receiving changes whatever the ordering. -/
def receivedCommon (state : ChannelDatumState) (packet : Packet) (ack : Bytes)
    (proof_height : Height) : ChannelDatumState :=
  { state with
    maximum_receive_proof_height := maxHeight proof_height state.maximum_receive_proof_height
    packet_acknowledgement := pairs.insert_by_ascending_key compare
      state.packet_acknowledgement packet.sequence ack }

/-- The record after a packet is received. On an ordered channel the next sequence moves on, on
an unordered one a receipt is left. -/
def received (datum : ChannelDatum) (packet : Packet) (ack : Bytes) (proof_height : Height) :
    Option ChannelDatum :=
  let common := receivedCommon datum.state packet ack proof_height
  match datum.state.channel.ordering with
  | .Ordered => some { datum with state := { common with
      next_sequence_recv := datum.state.next_sequence_recv + 1 } }
  | .Unordered => some { datum with state := { common with
      packet_receipt := (packet.sequence, []) :: datum.state.packet_receipt } }
  | .None => none

theorem received_cases {datum updated : ChannelDatum} {packet : Packet} {ack : Bytes}
    {proof_height : Height} (h : received datum packet ack proof_height = some updated) :
    (datum.state.channel.ordering = .Ordered ∧ updated = { datum with
      state := { receivedCommon datum.state packet ack proof_height with
        next_sequence_recv := datum.state.next_sequence_recv + 1 } }) ∨
    (datum.state.channel.ordering = .Unordered ∧ updated = { datum with
      state := { receivedCommon datum.state packet ack proof_height with
        packet_receipt := (packet.sequence, []) :: datum.state.packet_receipt } }) := by
  unfold received at h
  split at h
  · rename_i ho
    exact .inl ⟨ho, (Option.some.inj h).symm⟩
  · rename_i ho
    exact .inr ⟨ho, (Option.some.inj h).symm⟩
  · cases h

def validate_recv_packet (input_datum output_datum : ChannelDatum) (packet : Packet)
    (ack : Bytes) (proof_height : Height) : Option Bool := do
  let ordered := input_datum.state.channel.ordering == .Ordered
  let valid_sequence :=
    if ordered then packet.sequence == input_datum.state.next_sequence_recv else true
  let inserted_entries := if ordered then 1 else 2
  let expected_datum ← received input_datum packet ack proof_height
  return valid_sequence &&
    height.compare proof_height input_datum.state.minimum_receive_proof_height != .lt &&
    packet_entry_count input_datum.state + inserted_entries ≤ max_packet_entries_per_channel &&
    expected_datum == output_datum

/-- The record after a receipt and its acknowledgement are pruned. -/
def pruned (datum : ChannelDatum) (sequence : Int) (proof_height : Height) : ChannelDatum :=
  { datum with state := { datum.state with
    minimum_receive_proof_height := proof_height
    packet_receipt := pairs.delete_first datum.state.packet_receipt sequence
    packet_acknowledgement := pairs.delete_first datum.state.packet_acknowledgement sequence } }

def validate_prune_packet_history (input_datum output_datum : ChannelDatum) (sequence : Int)
    (proof_height : Height) : Bool :=
  input_datum.state.channel.ordering == .Unordered &&
    has_key input_datum.state.packet_receipt sequence &&
    has_key input_datum.state.packet_acknowledgement sequence &&
    height.compare proof_height input_datum.state.minimum_receive_proof_height != .lt &&
    height.compare proof_height input_datum.state.maximum_receive_proof_height != .lt &&
    pruned input_datum sequence proof_height == output_datum

/-- The record after a packet is sent. -/
def sent (datum : ChannelDatum) (packet : Packet) (commitment : Bytes) : ChannelDatum :=
  { datum with state := { datum.state with
    next_sequence_send := datum.state.next_sequence_send + 1
    packet_commitment := pairs.insert_by_ascending_key compare
      datum.state.packet_commitment packet.sequence commitment } }

def validate_send_packet (input_datum output_datum : ChannelDatum) (packet : Packet)
    (commitment : Bytes) : Bool :=
  packet_entry_count input_datum.state < max_packet_entries_per_channel &&
    sent input_datum packet commitment == output_datum

/-- The record after a packet timed out: an ordered channel is closed by it. -/
def timedOut (datum : ChannelDatum) (packet : Packet) : ChannelDatum :=
  { datum with state := { datum.state with
    channel := { datum.state.channel with
      state := if datum.state.channel.ordering = .Ordered then .Closed else .Open }
    packet_commitment := pairs.delete_first datum.state.packet_commitment packet.sequence } }

def validate_timeout_packet (input_datum output_datum : ChannelDatum) (packet : Packet) : Bool :=
  timedOut input_datum packet == output_datum

/-- The record after a packet is acknowledged. -/
def acknowledged (datum : ChannelDatum) (packet : Packet) : ChannelDatum :=
  { datum with state := { datum.state with
    packet_commitment := pairs.delete_first datum.state.packet_commitment packet.sequence
    next_sequence_ack := if datum.state.channel.ordering = .Ordered
      then datum.state.next_sequence_ack + 1 else datum.state.next_sequence_ack } }

def validate_acknowledge_packet (input_datum output_datum : ChannelDatum) (packet : Packet) :
    Bool :=
  acknowledged input_datum packet == output_datum

end channel_datum

end cardano_ibc
