-- The messages a connection end and a channel are proved as (connection_pb.ak, channel_pb.ak,
-- commitment_pb.ak): what the encoders write is the message the other chain stores, field by
-- field, and the sizes they add up are the lengths of what they write.
import CardanoIbc.Ibc.ChannelDatum
import CardanoIbc.Tendermint.Encodings

namespace cardano_ibc

open wire

/-! ## A channel as it goes over the wire -/

namespace channel_proto

inductive State where
  | UNINITIALIZED | INIT | TRYOPEN | OPEN | CLOSED | FLUSHING | FLUSHCOMPLETE
deriving DecidableEq, Repr

def state_to_int32 : State → Int
  | .UNINITIALIZED => 0
  | .INIT => 1
  | .TRYOPEN => 2
  | .OPEN => 3
  | .CLOSED => 4
  | .FLUSHING => 5
  | .FLUSHCOMPLETE => 6

structure Channel where
  state : State
  ordering : Order
  counterparty : ChannelCounterparty
  connection_hops : List Bytes
  version : Bytes
  upgrade_sequence : Int
deriving DecidableEq, Repr

def marshal_for_channel (c : Channel) : Option (Int × Bytes) := do
  let state ← encode_int (state_to_int32 c.state) field_1_varint
  let ordering ← encode_int (channel_pb.order_to_int32 c.ordering) field_2_varint
  let counterparty ← nest_record (← channel_pb.marshal_for_counterparty c.counterparty)
    channel_pb.field_3_length_delimited
  let hops ← c.connection_hops.foldlM (fun (size, bz1) connection_hop => do
    let l := connection_hop.length
    let bz2 ← push ((← encode_length_varint l) ++ connection_hop) field_4_length_delimited
    return (size + sov l + l + 1, bz1 ++ bz2)) ((0 : Int), ([] : Bytes))
  let version ← encode_bytearray c.version field_5_length_delimited
  let upgrade_sequence ← encode_int c.upgrade_sequence channel_pb.field_6_varint
  return add_and_concat (size_and_concat (add_and_concat (add_and_concat (add_and_concat
    (add_and_concat (0, []) state) ordering) counterparty) hops) version) upgrade_sequence

end channel_proto

/-! ## The messages -/

namespace handshake

def versionMessage (v : Version) : List Entry := text 1 v.identifier ++ texts 2 v.features

def connectionCounterpartyMessage (c : Counterparty) : List Entry :=
  text 1 c.client_id ++ text 2 c.connection_id ++ nested 3 (text 1 c.prefixKey.key_prefix)

def connectionEndMessage (c : ConnectionEnd) : List Entry :=
  text 1 c.client_id ++ texts 2 (c.versions.map fun v => message (versionMessage v)) ++
    scalar 3 (connection_pb.state_to_int32 c.state).toNat ++
    nested 4 (connectionCounterpartyMessage c.counterparty) ++ scalar 5 c.delay_period.toNat

def channelCounterpartyMessage (c : ChannelCounterparty) : List Entry :=
  text 1 c.port_id ++ text 2 c.channel_id

def channelMessage (c : channel_proto.Channel) : List Entry :=
  scalar 1 (channel_proto.state_to_int32 c.state).toNat ++
    scalar 2 (channel_pb.order_to_int32 c.ordering).toNat ++
    nested 3 (channelCounterpartyMessage c.counterparty) ++ texts 4 c.connection_hops ++
    text 5 c.version ++ scalar 6 c.upgrade_sequence.toNat

/-- Strings of less than 128 bytes, and few enough of them. -/
structure VersionFits (v : Version) : Prop where
  identifier : v.identifier.length < 128
  features : v.features.length ≤ 8
  feature : ∀ f ∈ v.features, f.length < 128

structure ConnectionFits (c : ConnectionEnd) : Prop where
  client_id : c.client_id.length < 128
  versions : c.versions.length ≤ 8
  version : ∀ v ∈ c.versions, VersionFits v
  counterparty_client_id : c.counterparty.client_id.length < 128
  counterparty_connection_id : c.counterparty.connection_id.length < 128
  key_prefix : c.counterparty.prefixKey.key_prefix.length < 128
  delay_period : 0 ≤ c.delay_period ∧ c.delay_period < 2 ^ 64

structure ChannelFits (c : channel_proto.Channel) : Prop where
  port_id : c.counterparty.port_id.length < 128
  channel_id : c.counterparty.channel_id.length < 128
  hops : c.connection_hops.length ≤ 4
  hop : ∀ hop ∈ c.connection_hops, hop.length < 128
  version : c.version.length < 128
  upgrade_sequence : 0 ≤ c.upgrade_sequence ∧ c.upgrade_sequence < 2 ^ 64

/-! ## Fields and entries -/

theorem text_bytes {i : Nat} (hi : 8 * i + 2 < 128) (bs : Bytes) :
    Code.string.field (8 * i + 2).toUInt8 [] bs = message (text i bs) := by
  unfold Code.field text
  split
  · rfl
  · rw [message_cons, message_nil, List.append_nil]
    show _ = varint.encode (8 * i + 2) ++ Code.string.enc bs
    rw [varint.encode_small hi]
    rfl

theorem nested_bytes {i : Nat} (hi : 8 * i + 2 < 128) (es : List Entry) :
    (8 * i + 2).toUInt8 :: Code.string.enc (message es) = message (nested i es) := by
  unfold nested
  rw [message_cons, message_nil, List.append_nil]
  show _ = varint.encode (8 * i + 2) ++ Code.string.enc (message es)
  rw [varint.encode_small hi]
  rfl

theorem scalar_bytes {i : Nat} (hi : 8 * i < 128) {v : Int} (hv : 0 ≤ v ∧ v < 2 ^ 64) :
    intCode.field (8 * i).toUInt8 0 v = message (scalar i v.toNat) := by
  have huint : uint64 v = v := Int.emod_eq_of_lt hv.1 hv.2
  unfold Code.field scalar
  by_cases hzero : v = 0
  · rw [if_pos hzero, if_pos (by omega)]
    rfl
  · rw [if_neg hzero, if_neg (by omega), message_cons, message_nil, List.append_nil]
    show (8 * i).toUInt8 :: varint.encode (uint64 v).toNat =
      varint.encode (8 * i + 0) ++ varint.encode v.toNat
    rw [huint, Nat.add_zero, varint.encode_small hi]
    rfl

/-- What is written for a string that stands whatever it is: an element of a repeated field or a
nested message. -/
theorem element_bytes {i : Nat} {identifier : Int} (hi : 8 * i + 2 < 128)
    (hkey : identifier = (8 * i + 2 : Nat)) {bs : Bytes} (hlength : bs.length < 16384) :
    ∃ l, encode_length_varint bs.length = some l ∧
      push (l ++ bs) identifier = some (entry.enc ⟨i, .bytes bs⟩) ∧
      ((entry.enc ⟨i, .bytes bs⟩).length : Int) = sov_length bs.length + bs.length + 1 := by
  obtain ⟨hbytes, hsov⟩ := encode_length_varint_eq hlength
  have hentry : entry.enc ⟨i, .bytes bs⟩ =
      (8 * i + 2).toUInt8 :: (varint.encode bs.length ++ bs) := by
    show varint.encode (8 * i + 2) ++ (varint.encode bs.length ++ bs) = _
    rw [varint.encode_small hi]
    rfl
  refine ⟨_, hbytes, ?_, ?_⟩
  · rw [push_key (by rw [hkey]; constructor <;> omega), hentry, hkey]
    rfl
  · rw [hentry, hsov, List.length_cons, List.length_append]
    push_cast
    omega

/-- A loop that writes the elements of a repeated field adds up their lengths. -/
theorem foldlM_texts {i : Nat} {step : Int × Bytes → Bytes → Option (Int × Bytes)}
    {bss : List Bytes}
    (hstep : ∀ size bz, ∀ bs ∈ bss, step (size, bz) bs =
      some (size + ((entry.enc ⟨i, .bytes bs⟩).length : Int), bz ++ entry.enc ⟨i, .bytes bs⟩))
    (size : Int) (bz : Bytes) :
    bss.foldlM step (size, bz) = some (size + ((message (texts i bss)).length : Int),
      bz ++ message (texts i bss)) := by
  induction bss generalizing size bz with
  | nil => simp [texts]
  | cons bs bss ih =>
    rw [List.foldlM_cons, hstep size bz bs List.mem_cons_self, Option.bind_eq_bind,
      Option.bind_some, ih fun size bz bs' hbs => hstep size bz bs' (List.mem_cons_of_mem bs hbs)]
    simp only [texts, List.map_cons, message_cons, List.length_append, List.append_assoc]
    push_cast
    rw [Int.add_assoc]

theorem length_texts_le (i : Nat) (hi : 8 * i + 2 < 128) {bss : List Bytes}
    (h : ∀ bs ∈ bss, bs.length < 128) : (message (texts i bss)).length ≤ 129 * bss.length := by
  induction bss with
  | nil => simp [texts]
  | cons bs bss ih =>
    have hbs := h bs List.mem_cons_self
    have hrest := ih fun c hc => h c (List.mem_cons_of_mem bs hc)
    obtain ⟨-, -, -, hentry⟩ := element_bytes hi rfl (show bs.length < 16384 by omega)
    have hsov : sov_length bs.length = 1 := if_pos (by omega)
    simp only [texts, List.map_cons, message_cons, List.length_append, List.length_cons] at hrest ⊢
    omega

theorem length_text_le (i : Nat) (hi : 8 * i + 2 < 128) {bs : Bytes} (h : bs.length < 128) :
    (message (text i bs)).length ≤ 129 := by
  rw [← text_bytes hi]
  exact (length_stringField_le _ h).trans (by omega)

/-! ## What the encoders write -/

theorem marshal_for_version_eq {v : Version} (h : VersionFits v) :
    connection_pb.marshal_for_version v =
      some (((message (versionMessage v)).length : Int), message (versionMessage v)) := by
  obtain ⟨hid, -, hfeature⟩ := h
  unfold connection_pb.marshal_for_version
  rw [encode_bytearray_eq (by decide) (by omega), foldlM_texts (i := 2)]
  · simp only [Option.bind_eq_bind, Option.bind_some, Option.pure_def]
    rw [size_and_concat_eq _ (by omega)]
    have hbytes := text_bytes (i := 1) (by decide) v.identifier
    simp only [versionMessage, message_append, List.length_append, ← hbytes]
    simp [add_and_concat, keyByte, field_1_length_delimited]
  · intro size bz feature hf
    have hlt := hfeature feature hf
    obtain ⟨l, hl, hpush, hlength⟩ := element_bytes (i := 2) (by decide)
      (show field_2_length_delimited = _ from rfl) (show feature.length < 16384 by omega)
    simp only [Option.bind_eq_bind, Option.pure_def, hl, Option.bind_some, hpush, hlength,
      Int.add_assoc]

theorem length_versionMessage {v : Version} (h : VersionFits v) :
    (message (versionMessage v)).length < 16384 := by
  obtain ⟨hid, hfew, hfeature⟩ := h
  have hidentifier := length_text_le 1 (by decide) hid
  have hfeatures := length_texts_le 2 (by decide) hfeature
  rw [versionMessage, message_append, List.length_append]
  omega

theorem marshal_for_merkle_prefix_eq {p : MerklePrefix} (h : p.key_prefix.length < 128) :
    connection_pb.marshal_for_merkle_prefix p =
      some (((message (text 1 p.key_prefix)).length : Int), message (text 1 p.key_prefix)) := by
  unfold connection_pb.marshal_for_merkle_prefix
  rw [encode_bytearray_eq (by decide) (by omega), ← text_bytes (by decide)]
  simp only [Option.bind_eq_bind, Option.bind_some, Option.pure_def]
  rw [size_and_concat_eq _ (by omega)]
  simp [keyByte, field_1_length_delimited]

theorem marshal_for_connection_counterparty_eq {c : Counterparty}
    (hclient : c.client_id.length < 128) (hconnection : c.connection_id.length < 128)
    (hkey : c.prefixKey.key_prefix.length < 128) :
    connection_pb.marshal_for_counterparty c =
      some (((message (connectionCounterpartyMessage c)).length : Int),
        message (connectionCounterpartyMessage c)) := by
  have hlength := length_text_le 1 (by decide) hkey
  obtain ⟨l, hl, hpush, hsize⟩ := element_bytes (i := 3) (by decide)
    (show connection_pb.field_3_length_delimited = _ from rfl)
    (show (message (text 1 c.prefixKey.key_prefix)).length < 16384 by omega)
  unfold connection_pb.marshal_for_counterparty
  rw [encode_bytearray_eq (by decide) (by omega), encode_bytearray_eq (by decide) (by omega),
    marshal_for_merkle_prefix_eq hkey]
  simp only [Option.bind_eq_bind, Option.bind_some, Option.pure_def, hl, hpush]
  rw [size_and_concat_eq _ (by omega), size_and_concat_eq _ (by omega)]
  have hfirst := text_bytes (i := 1) (by decide) c.client_id
  have hsecond := text_bytes (i := 2) (by decide) c.connection_id
  simp only [connectionCounterpartyMessage, nested, message_append, message_cons, message_nil,
    List.length_append, ← hfirst, ← hsecond]
  simp only [add_and_concat, keyByte, field_1_length_delimited, field_2_length_delimited,
    List.append_nil, List.nil_append, List.length_nil, Option.some.injEq, Prod.mk.injEq]
  refine ⟨?_, rfl⟩
  push_cast
  rw [hsize]
  simp

theorem length_connectionCounterpartyMessage {c : Counterparty}
    (hclient : c.client_id.length < 128) (hconnection : c.connection_id.length < 128)
    (hkey : c.prefixKey.key_prefix.length < 128) :
    (message (connectionCounterpartyMessage c)).length < 16384 := by
  have hfirst := length_text_le 1 (by decide) hclient
  have hsecond := length_text_le 2 (by decide) hconnection
  have hinner := length_text_le 1 (by decide) hkey
  obtain ⟨-, -, -, hsize⟩ := element_bytes (i := 3) (by decide) rfl
    (show (message (text 1 c.prefixKey.key_prefix)).length < 16384 by omega)
  have hsov : sov_length (message (text 1 c.prefixKey.key_prefix)).length ≤ 2 := by
    unfold sov_length
    split <;> omega
  simp only [connectionCounterpartyMessage, nested, message_append, message_cons, message_nil,
    List.length_append, List.length_nil]
  omega

/-- The loop over the versions writes each of them after its length. -/
theorem foldlM_versions {versions : List Version} (h : ∀ v ∈ versions, VersionFits v)
    (bz : Bytes) :
    versions.foldlM (fun bz1 version => do
        let (size, bz2) ← connection_pb.marshal_for_version version
        return bz1 ++ (← push ((← encode_length_varint size) ++ bz2) field_2_length_delimited)) bz =
      some (bz ++ message (texts 2 (versions.map fun v => message (versionMessage v)))) := by
  induction versions generalizing bz with
  | nil => simp [texts]
  | cons v versions ih =>
    have hv := h v List.mem_cons_self
    obtain ⟨l, hl, hpush, -⟩ := element_bytes (i := 2) (by decide)
      (show field_2_length_delimited = _ from rfl) (length_versionMessage hv)
    rw [List.foldlM_cons, marshal_for_version_eq hv]
    simp only [Option.bind_eq_bind, Option.bind_some, Option.pure_def, hl, hpush]
    have hrest := ih (fun w hw => h w (List.mem_cons_of_mem v hw))
      (bz ++ entry.enc ⟨2, .bytes (message (versionMessage v))⟩)
    simp only [Option.bind_eq_bind, Option.pure_def] at hrest
    rw [hrest]
    simp [texts]

/-- A number is left out if it is zero and written in base 128 otherwise. -/
theorem scalar_written {i : Nat} {identifier v : Int} (hi : 8 * i < 128)
    (hkey : identifier = (8 * i : Nat)) (hv : 0 ≤ v ∧ v < 2 ^ 64) :
    v = 0 ∨
      (v ≠ 0 ∧ ∃ l, encode_varint v = some l ∧
        push l identifier = some (message (scalar i v.toNat))) := by
  unfold scalar
  by_cases hzero : v = 0
  · exact .inl hzero
  · have hvarint := encode_varint_eq v.toNat (by omega)
    rw [Int.toNat_of_nonneg hv.1] at hvarint
    refine .inr ⟨hzero, _, hvarint, ?_⟩
    rw [if_neg (by omega), push_key (by rw [hkey]; constructor <;> omega), hkey, message_cons,
      message_nil, List.append_nil]
    show _ = some (varint.encode (8 * i + 0) ++ varint.encode v.toNat)
    rw [Nat.add_zero, varint.encode_small hi]
    rfl

theorem connection_state_range (state : ConnectionState) :
    0 ≤ connection_pb.state_to_int32 state ∧ connection_pb.state_to_int32 state < 2 ^ 64 := by
  cases state <;> decide

theorem marshal_for_connection_end_eq {c : ConnectionEnd} (h : ConnectionFits c) :
    connection_pb.marshal_for_connection_end c = some (message (connectionEndMessage c)) := by
  have hcounterparty := length_connectionCounterpartyMessage h.counterparty_client_id
    h.counterparty_connection_id h.key_prefix
  have hclient := h.client_id
  obtain ⟨l, hl, hpush, -⟩ := element_bytes (i := 4) (by decide)
    (show field_4_length_delimited = _ from rfl) hcounterparty
  have hversions := foldlM_versions h.version []
  have hstate := scalar_written (i := 3) (by decide)
    (show connection_pb.field_3_varint = _ from rfl) (connection_state_range c.state)
  have hdelay := scalar_written (i := 5) (by decide)
    (show connection_pb.field_5_varint = _ from rfl) h.delay_period
  have hid := text_bytes (i := 1) (by decide) c.client_id
  unfold connection_pb.marshal_for_connection_end
  rw [encode_bytearray_eq (by decide) (by omega), marshal_for_connection_counterparty_eq
    h.counterparty_client_id h.counterparty_connection_id h.key_prefix]
  simp only [Option.bind_eq_bind, Option.bind_some, Option.pure_def] at hversions ⊢
  rw [hversions]
  simp only [Option.bind_some, hl, hpush]
  simp only [connectionEndMessage, nested, message_append, message_cons, message_nil, ← hid]
  rcases hstate with hzero | ⟨hstate, l₃, hl₃, hpush₃⟩ <;>
    rcases hdelay with hzero' | ⟨hdelay, l₅, hl₅, hpush₅⟩
  · simp [keyByte, field_1_length_delimited, hzero, hzero']
  · simp [keyByte, field_1_length_delimited, hzero, hdelay, hl₅, hpush₅]
  · simp [keyByte, field_1_length_delimited, hzero', hstate, hl₃, hpush₃]
  · simp [keyByte, field_1_length_delimited, hstate, hl₃, hpush₃, hdelay, hl₅, hpush₅]

theorem marshal_for_channel_counterparty_eq {c : ChannelCounterparty}
    (hport : c.port_id.length < 128) (hchannel : c.channel_id.length < 128) :
    channel_pb.marshal_for_counterparty c =
      some (((message (channelCounterpartyMessage c)).length : Int),
        message (channelCounterpartyMessage c)) := by
  have hfirst := text_bytes (i := 1) (by decide) c.port_id
  have hsecond := text_bytes (i := 2) (by decide) c.channel_id
  unfold channel_pb.marshal_for_counterparty
  rw [encode_bytearray_eq (by decide) (by omega), encode_bytearray_eq (by decide) (by omega)]
  simp only [Option.bind_eq_bind, Option.bind_some, Option.pure_def]
  rw [size_and_concat_eq _ (by omega), size_and_concat_eq _ (by omega)]
  simp only [channelCounterpartyMessage, message_append, List.length_append, ← hfirst, ← hsecond]
  simp [keyByte, field_1_length_delimited, field_2_length_delimited]

theorem channel_state_range (state : channel_proto.State) :
    0 ≤ channel_proto.state_to_int32 state ∧ channel_proto.state_to_int32 state < 2 ^ 64 := by
  cases state <;> decide

theorem channel_order_range (order : Order) :
    0 ≤ channel_pb.order_to_int32 order ∧ channel_pb.order_to_int32 order < 2 ^ 64 := by
  cases order <;> decide

theorem marshal_for_channel_eq {c : channel_proto.Channel} (h : ChannelFits c) :
    channel_proto.marshal_for_channel c =
      some (((message (channelMessage c)).length : Int), message (channelMessage c)) := by
  obtain ⟨hport, hchannel, -, hhop, hversion, hupgrade⟩ := h
  have hfirst := length_text_le 1 (by decide) hport
  have hsecond := length_text_le 2 (by decide) hchannel
  have hcounterparty : (message (channelCounterpartyMessage c.counterparty)).length < 16384 := by
    rw [channelCounterpartyMessage, message_append, List.length_append]
    omega
  have hstate := scalar_bytes (i := 1) (by decide) (channel_state_range c.state)
  have horder := scalar_bytes (i := 2) (by decide) (channel_order_range c.ordering)
  have hnested := nested_bytes (i := 3) (by decide) (channelCounterpartyMessage c.counterparty)
  have hbytes := text_bytes (i := 5) (by decide) c.version
  have hsequence := scalar_bytes (i := 6) (by decide) hupgrade
  unfold channel_proto.marshal_for_channel
  rw [encode_int_eq _ (by decide), encode_int_eq _ (by decide), encode_int_eq _ (by decide),
    marshal_for_channel_counterparty_eq hport hchannel,
    encode_bytearray_eq (by decide) (by omega), foldlM_texts (i := 4)]
  · simp only [Option.bind_eq_bind, Option.bind_some, Option.pure_def]
    rw [nest_record_eq (by decide) hcounterparty, Option.bind_some, size_and_concat_eq _ (by omega)]
    simp only [channelMessage, message_append, List.length_append, ← hstate, ← horder, ← hnested,
      ← hbytes, ← hsequence]
    simp [add_and_concat, keyByte, field_1_varint, field_2_varint,
      channel_pb.field_3_length_delimited, field_5_length_delimited, channel_pb.field_6_varint]
  · intro size bz hop hmem
    have hlt := hhop hop hmem
    have hsov : sov hop.length = sov_length hop.length := by
      unfold sov sov_length
      rw [if_neg (by omega), if_pos (by omega), if_pos (by omega)]
    obtain ⟨l, hl, hpush, hlength⟩ := element_bytes (i := 4) (by decide)
      (show field_4_length_delimited = _ from rfl) (show hop.length < 16384 by omega)
    simp only [Option.bind_eq_bind, Option.pure_def, hl, Option.bind_some, hpush, hlength, hsov,
      Int.add_assoc]

/-! ## The bytes fix the values -/

/-- Equal messages have the same under every number. -/
theorem valuesAt_congr {es fs : List Entry} (h : es = fs) (i : Nat) :
    valuesAt i es = valuesAt i fs := by rw [h]

theorem versionMessage_inj {v w : Version} (h : versionMessage v = versionMessage w) : v = w := by
  have hidentifier : v.identifier = w.identifier :=
    text_inj (i := 1) (by simpa [versionMessage] using valuesAt_congr h 1)
  have hfeatures : v.features = w.features :=
    texts_inj (i := 2) (by simpa [versionMessage] using valuesAt_congr h 2)
  cases v
  cases w
  cases hidentifier
  cases hfeatures
  rfl

theorem connectionCounterpartyMessage_inj {c d : Counterparty}
    (h : connectionCounterpartyMessage c = connectionCounterpartyMessage d) : c = d := by
  have hclient : c.client_id = d.client_id :=
    text_inj (i := 1) (by simpa [connectionCounterpartyMessage] using valuesAt_congr h 1)
  have hconnection : c.connection_id = d.connection_id :=
    text_inj (i := 2) (by simpa [connectionCounterpartyMessage] using valuesAt_congr h 2)
  have hinner : text 1 c.prefixKey.key_prefix = text 1 d.prefixKey.key_prefix :=
    nested_inj (i := 3) (by simpa [connectionCounterpartyMessage] using valuesAt_congr h 3)
  have hkey := text_inj (valuesAt_congr hinner 1)
  obtain ⟨_, _, ⟨_⟩⟩ := c
  obtain ⟨_, _, ⟨_⟩⟩ := d
  cases hclient
  cases hconnection
  cases hkey
  rfl

theorem connection_state_inj {s t : ConnectionState}
    (h : (connection_pb.state_to_int32 s).toNat = (connection_pb.state_to_int32 t).toNat) :
    s = t := by
  cases s <;> cases t <;> first | rfl | exact absurd h (by decide)

theorem connectionEndMessage_inj {c d : ConnectionEnd} (hc : 0 ≤ c.delay_period)
    (hd : 0 ≤ d.delay_period) (h : connectionEndMessage c = connectionEndMessage d) : c = d := by
  have hclient : c.client_id = d.client_id :=
    text_inj (i := 1) (by simpa [connectionEndMessage] using valuesAt_congr h 1)
  have hbytes : (c.versions.map fun v => message (versionMessage v)) =
      d.versions.map fun v => message (versionMessage v) :=
    texts_inj (i := 2) (by simpa [connectionEndMessage] using valuesAt_congr h 2)
  have hnumber : (connection_pb.state_to_int32 c.state).toNat =
      (connection_pb.state_to_int32 d.state).toNat :=
    scalar_inj (i := 3) (by simpa [connectionEndMessage] using valuesAt_congr h 3)
  have hinner := nested_inj (i := 4) (by simpa [connectionEndMessage] using valuesAt_congr h 4)
  have hperiod : c.delay_period.toNat = d.delay_period.toNat :=
    scalar_inj (i := 5) (by simpa [connectionEndMessage] using valuesAt_congr h 5)
  have hversions : c.versions = d.versions :=
    List.map_injective_iff.mpr (fun v w h => versionMessage_inj (message_injective h)) hbytes
  have hcounterparty := connectionCounterpartyMessage_inj hinner
  have hstate := connection_state_inj hnumber
  have hdelay : c.delay_period = d.delay_period := by omega
  cases c
  cases d
  cases hclient
  cases hversions
  cases hstate
  cases hcounterparty
  cases hdelay
  rfl

theorem channelCounterpartyMessage_inj {c d : ChannelCounterparty}
    (h : channelCounterpartyMessage c = channelCounterpartyMessage d) : c = d := by
  have hport : c.port_id = d.port_id :=
    text_inj (i := 1) (by simpa [channelCounterpartyMessage] using valuesAt_congr h 1)
  have hchannel : c.channel_id = d.channel_id :=
    text_inj (i := 2) (by simpa [channelCounterpartyMessage] using valuesAt_congr h 2)
  cases c
  cases d
  cases hport
  cases hchannel
  rfl

theorem channel_state_inj {s t : channel_proto.State}
    (h : (channel_proto.state_to_int32 s).toNat = (channel_proto.state_to_int32 t).toNat) :
    s = t := by
  cases s <;> cases t <;> first | rfl | exact absurd h (by decide)

theorem channel_order_inj {s t : Order}
    (h : (channel_pb.order_to_int32 s).toNat = (channel_pb.order_to_int32 t).toNat) : s = t := by
  cases s <;> cases t <;> first | rfl | exact absurd h (by decide)

theorem channelMessage_inj {c d : channel_proto.Channel} (hc : 0 ≤ c.upgrade_sequence)
    (hd : 0 ≤ d.upgrade_sequence) (h : channelMessage c = channelMessage d) : c = d := by
  have hnumber : (channel_proto.state_to_int32 c.state).toNat =
      (channel_proto.state_to_int32 d.state).toNat :=
    scalar_inj (i := 1) (by simpa [channelMessage] using valuesAt_congr h 1)
  have horder : (channel_pb.order_to_int32 c.ordering).toNat =
      (channel_pb.order_to_int32 d.ordering).toNat :=
    scalar_inj (i := 2) (by simpa [channelMessage] using valuesAt_congr h 2)
  have hinner := nested_inj (i := 3) (by simpa [channelMessage] using valuesAt_congr h 3)
  have hhops : c.connection_hops = d.connection_hops :=
    texts_inj (i := 4) (by simpa [channelMessage] using valuesAt_congr h 4)
  have hversion : c.version = d.version :=
    text_inj (i := 5) (by simpa [channelMessage] using valuesAt_congr h 5)
  have hupgrade : c.upgrade_sequence.toNat = d.upgrade_sequence.toNat :=
    scalar_inj (i := 6) (by simpa [channelMessage] using valuesAt_congr h 6)
  have hcounterparty := channelCounterpartyMessage_inj hinner
  have hstate := channel_state_inj hnumber
  have hordering := channel_order_inj horder
  have hsequence : c.upgrade_sequence = d.upgrade_sequence := by omega
  cases c
  cases d
  cases hstate
  cases hordering
  cases hcounterparty
  cases hhops
  cases hversion
  cases hsequence
  rfl

/-- Connection ends and channels are written as the messages the other chain stores, each nested
part after its own length, and no two of them alike. -/
theorem handshake_values_written {c d : ConnectionEnd} {ch dh : channel_proto.Channel}
    (hc : ConnectionFits c) (hd : ConnectionFits d) (hch : ChannelFits ch) (hdh : ChannelFits dh) :
    (connection_pb.marshal_for_connection_end c = some (message (connectionEndMessage c)) ∧
      (∀ v ∈ c.versions, connection_pb.marshal_for_version v =
        some (((message (versionMessage v)).length : Int), message (versionMessage v))) ∧
      connection_pb.marshal_for_counterparty c.counterparty =
        some (((message (connectionCounterpartyMessage c.counterparty)).length : Int),
          message (connectionCounterpartyMessage c.counterparty)) ∧
      (connection_pb.marshal_for_connection_end c = connection_pb.marshal_for_connection_end d →
        c = d)) ∧
    (channel_proto.marshal_for_channel ch =
        some (((message (channelMessage ch)).length : Int), message (channelMessage ch)) ∧
      channel_pb.marshal_for_counterparty ch.counterparty =
        some (((message (channelCounterpartyMessage ch.counterparty)).length : Int),
          message (channelCounterpartyMessage ch.counterparty)) ∧
      ((channel_proto.marshal_for_channel ch).map Prod.snd =
        (channel_proto.marshal_for_channel dh).map Prod.snd → ch = dh)) := by
  refine ⟨⟨marshal_for_connection_end_eq hc, fun v hv => marshal_for_version_eq (hc.version v hv),
    marshal_for_connection_counterparty_eq hc.counterparty_client_id hc.counterparty_connection_id
      hc.key_prefix, ?_⟩, marshal_for_channel_eq hch,
    marshal_for_channel_counterparty_eq hch.port_id hch.channel_id, ?_⟩
  · intro h
    rw [marshal_for_connection_end_eq hc, marshal_for_connection_end_eq hd, Option.some.injEq] at h
    exact connectionEndMessage_inj hc.delay_period.1 hd.delay_period.1 (message_injective h)
  · intro h
    rw [marshal_for_channel_eq hch, marshal_for_channel_eq hdh, Option.map_some, Option.map_some,
      Option.some.injEq] at h
    exact channelMessage_inj hch.upgrade_sequence.1 hdh.upgrade_sequence.1 (message_injective h)

section Sample

/-- A connection end with the default version. -/
def sampleEnd (state : ConnectionState) : ConnectionEnd where
  client_id := utf8 "07-tendermint-0"
  versions := version.get_compatible_versions
  state := state
  counterparty :=
    { client_id := utf8 "08-cardano-1"
      connection_id := utf8 "connection-7"
      prefixKey := { key_prefix := utf8 "ibc" } }
  delay_period := 2 ^ 64 - 1

/-- A channel with two hops, one of them without a name. -/
def sampleMessageChannel (state : channel_proto.State) : channel_proto.Channel where
  state := state
  ordering := .Unordered
  counterparty := { port_id := utf8 "transfer", channel_id := utf8 "channel-3" }
  connection_hops := [utf8 "connection-0", []]
  version := utf8 "ics20-1"
  upgrade_sequence := 300

theorem sampleEnd_fits (state : ConnectionState) : ConnectionFits (sampleEnd state) := by
  have hversion : ∀ v ∈ (sampleEnd state).versions, VersionFits v := by
    intro v hv
    obtain rfl : v = version.get_default_ibc_version := by
      simpa [sampleEnd, version.get_compatible_versions] using hv
    exact ⟨by decide, by decide, by decide⟩
  cases state <;>
    exact ⟨by decide, by decide, hversion, by decide, by decide, by decide, by decide⟩

theorem sampleMessageChannel_fits (state : channel_proto.State) :
    ChannelFits (sampleMessageChannel state) := by
  cases state <;> exact ⟨by decide, by decide, by decide, by decide, by decide, by decide⟩

/-- Two states of one connection and of one channel. -/
theorem sample_values_written :
    connection_pb.marshal_for_connection_end (sampleEnd .TryOpen) =
        some (message (connectionEndMessage (sampleEnd .TryOpen))) ∧
      connection_pb.marshal_for_connection_end (sampleEnd .TryOpen) ≠
        connection_pb.marshal_for_connection_end (sampleEnd .Open) ∧
      channel_proto.marshal_for_channel (sampleMessageChannel .INIT) =
        some (((message (channelMessage (sampleMessageChannel .INIT))).length : Int),
          message (channelMessage (sampleMessageChannel .INIT))) ∧
      (channel_proto.marshal_for_channel (sampleMessageChannel .INIT)).map Prod.snd ≠
        (channel_proto.marshal_for_channel (sampleMessageChannel .OPEN)).map Prod.snd := by
  obtain ⟨⟨hend, -, -, hends⟩, hchannel, -, hchannels⟩ :=
    handshake_values_written (sampleEnd_fits .TryOpen) (sampleEnd_fits .Open)
      (sampleMessageChannel_fits .INIT) (sampleMessageChannel_fits .OPEN)
  exact ⟨hend, fun h => absurd (hends h) (by decide), hchannel,
    fun h => absurd (hchannels h) (by decide)⟩

end Sample

end handshake

end cardano_ibc
