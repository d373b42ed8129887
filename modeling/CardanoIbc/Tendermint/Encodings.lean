-- What the bytes of headers and votes say (cometbft/protos, block/header.ak): the encoders write
-- fields one after the other, and the bytes fix every field.
import CardanoIbc.Library.Wire
import CardanoIbc.Tendermint.Quorum

namespace cardano_ibc

open wire (Code)

/-! ## The encoders as codes -/

/-- The bytes of a number fix its length. -/
theorem length_varint_encode {n : Nat} (k : Nat) (low : k = 0 ∨ 128 ^ k ≤ n)
    (high : n < 128 ^ (k + 1)) : (varint.encode n).length = k + 1 := by
  induction k generalizing n with
  | zero =>
    rw [varint.encode_small (by simpa using high)]
    rfl
  | succ k ih =>
    have hlow : 128 ^ k * 128 ≤ n := by
      rcases low with h | h
      · cases h
      · rwa [Nat.pow_succ] at h
    have hpos : 0 < 128 ^ k := Nat.pow_pos (by decide)
    rw [varint.encode_large (by omega), List.length_cons, ih]
    · exact .inr ((Nat.le_div_iff_mul_le (by decide)).mpr hlow)
    · rw [Nat.pow_succ] at high
      exact Nat.div_lt_of_lt_mul (by rwa [Nat.mul_comm])

theorem sov_eq_length {n : Nat} (h : n < 2 ^ 64) : sov n = (varint.encode n).length := by
  have hlength : ∀ k : Nat, (k = 0 ∨ 128 ^ k ≤ n) → n < 128 ^ (k + 1) →
      (k : Int) + 1 = (varint.encode n).length := by
    intro k low high
    rw [length_varint_encode k low high]
    rfl
  unfold sov
  split_ifs
  · omega
  · exact hlength 0 (by omega) (by omega)
  · exact hlength 1 (by omega) (by omega)
  · exact hlength 2 (by omega) (by omega)
  · exact hlength 3 (by omega) (by omega)
  · exact hlength 4 (by omega) (by omega)
  · exact hlength 5 (by omega) (by omega)
  · exact hlength 6 (by omega) (by omega)
  · exact hlength 7 (by omega) (by omega)
  · exact hlength 8 (by omega) (by omega)
  · exact hlength 9 (by omega) (by omega)

theorem encode_length_varint_eq {n : Nat} (h : n < 16384) :
    encode_length_varint n = some (varint.encode n) ∧ sov_length n = (varint.encode n).length := by
  unfold encode_length_varint sov_length
  by_cases hsmall : n < 128
  · rw [if_pos (by omega), if_pos (by omega), length_varint_encode 0 (.inl rfl) (by omega)]
    exact ⟨encodeVarintOf_eq 0 n (.inl rfl) (by omega), rfl⟩
  · rw [if_neg (by omega), if_neg (by omega), length_varint_encode 1 (.inr (by omega)) (by omega)]
    exact ⟨encodeVarintOf_eq 1 n (.inr (by omega)) (by omega), rfl⟩

theorem toNat_uint64_inj {a b : Int} (ha : -2 ^ 63 ≤ a ∧ a < 2 ^ 63)
    (hb : -2 ^ 63 ≤ b ∧ b < 2 ^ 63) (h : (uint64 a).toNat = (uint64 b).toNat) : a = b := by
  simp only [uint64, max_uint64] at h
  omega

/-- Numbers of 64 bits with a sign. -/
def intCode : Code Int :=
  Code.number.along (fun v => (uint64 v).toNat) (fun v => -2 ^ 63 ≤ v ∧ v < 2 ^ 63)
    (fun _ => trivial) toNat_uint64_inj

theorem littleEndian_length (n v : Nat) : (littleEndian n v).length = n := by
  induction n generalizing v with
  | zero => rfl
  | succ n ih => rw [littleEndian, List.length_cons, ih]

theorem littleEndian_inj {n : Nat} {a b : Nat} (ha : a < 256 ^ n) (hb : b < 256 ^ n)
    (h : littleEndian n a = littleEndian n b) : a = b := by
  induction n generalizing a b with
  | zero => simp at ha hb; omega
  | succ n ih =>
    rw [Nat.pow_succ] at ha hb
    obtain ⟨hlow, hhigh⟩ := List.cons.inj h
    have hrest := ih (Nat.div_lt_of_lt_mul (by rwa [Nat.mul_comm]))
      (Nat.div_lt_of_lt_mul (by rwa [Nat.mul_comm])) hhigh
    have hbyte := varint.toUInt8_inj (by omega) (by omega) hlow
    omega

/-- Numbers of eight bytes. -/
def fixedCode : Code Int :=
  Code.fixed (fun v => littleEndian 8 v.toNat) (fun v => 0 ≤ v ∧ v < 2 ^ 63)
    (fun v => littleEndian_length 8 v.toNat) (by
      intro a b ha hb h
      have heq := littleEndian_inj (by omega) (by omega) h
      omega)

/-- A key that is one byte. -/
def IsKey (identifier : Int) : Prop := 0 ≤ identifier ∧ identifier ≤ 255

instance (identifier : Int) : Decidable (IsKey identifier) :=
  inferInstanceAs (Decidable (0 ≤ identifier ∧ identifier ≤ 255))

def keyByte (identifier : Int) : UInt8 := identifier.toNat.toUInt8

theorem push_key {identifier : Int} (h : IsKey identifier) (bz : Bytes) :
    push bz identifier = some (keyByte identifier :: bz) := if_pos h

theorem encode_int_eq (v : Int) {identifier : Int} (hkey : IsKey identifier) :
    encode_int v identifier = some (((intCode.field (keyByte identifier) 0 v).length : Int),
      intCode.field (keyByte identifier) 0 v) := by
  unfold encode_int Code.field
  split
  · rfl
  · rw [encode_varint_uint64, Option.bind_eq_bind, Option.bind_some, push_key hkey]
    have hlt : (uint64 v).toNat < 2 ^ 64 := by
      have := uint64_lt v
      omega
    have hsov := sov_eq_length hlt
    rw [Int.toNat_of_nonneg (uint64_nonneg v)] at hsov
    rw [Option.bind_some, hsov, List.length_cons]
    rfl

theorem encode_int_little_endian_eq {v identifier : Int} (hkey : IsKey identifier)
    (hv : 0 ≤ v ∧ v < 2 ^ 63) :
    encode_int_little_endian v identifier 9 =
      some (((fixedCode.field (keyByte identifier) 0 v).length : Int),
        fixedCode.field (keyByte identifier) 0 v) := by
  unfold encode_int_little_endian Code.field
  split
  · rfl
  · have hfits : 0 ≤ v ∧ v < 256 ^ 8 := by omega
    rw [from_int_little_endian, if_pos hfits, Option.bind_eq_bind, Option.bind_some, push_key hkey,
      Option.bind_some, List.length_cons]
    rw [show (fixedCode.enc v).length = 8 from littleEndian_length 8 v.toNat]
    rfl

theorem encode_bytearray_eq {bz : Bytes} {identifier : Int} (hkey : IsKey identifier)
    (hlength : bz.length < 16384) :
    encode_bytearray bz identifier =
      some ((bz.length : Int), Code.string.field (keyByte identifier) [] bz) := by
  unfold encode_bytearray Code.field
  by_cases hempty : bz = []
  · rw [if_pos (by rw [hempty]; rfl), if_pos hempty, hempty]
    rfl
  · rw [if_neg (by rwa [List.length_eq_zero_iff]), if_neg hempty,
      (encode_length_varint_eq hlength).1, Option.bind_eq_bind, Option.bind_some, push_key hkey]
    rfl

theorem size_and_concat_eq {bz : Bytes} {key : UInt8} (a : Int × Bytes)
    (hlength : bz.length < 16384) :
    size_and_concat a ((bz.length : Int), Code.string.field key [] bz) =
      (a.1 + ((Code.string.field key [] bz).length : Int),
        a.2 ++ Code.string.field key [] bz) := by
  unfold size_and_concat Code.field
  by_cases hempty : bz = []
  · simp [hempty]
  · have hsov := (encode_length_varint_eq hlength).2
    rw [if_neg (by simpa using hempty), if_neg hempty]
    refine Prod.ext ?_ rfl
    show a.1 + sov_length bz.length + bz.length + 1 = _
    rw [hsov, List.length_cons, Code.string, List.length_append]
    push_cast
    omega

theorem nest_record_eq {bz : Bytes} {identifier : Int} (hkey : IsKey identifier)
    (hlength : bz.length < 16384) :
    nest_record ((bz.length : Int), bz) identifier =
      some (((keyByte identifier :: Code.string.enc bz).length : Int),
        keyByte identifier :: Code.string.enc bz) := by
  obtain ⟨hbytes, hsov⟩ := encode_length_varint_eq hlength
  unfold nest_record
  rw [hbytes, Option.bind_eq_bind, Option.bind_some, push_key hkey, Option.bind_some, hsov]
  refine congrArg some (Prod.ext ?_ rfl)
  rw [List.length_cons, Code.string, List.length_append]
  push_cast
  omega

/-! ## Block ids and timestamps -/

/-- What a block id may be: hashes that are empty or of the right length, and a number of parts of
63 bits. -/
structure BlockIdFits (b : BlockID) : Prop where
  hash : b.hash.length ≤ 32
  parts : b.part_set_header.hash.length ≤ 32
  total : 0 ≤ b.part_set_header.total ∧ b.part_set_header.total < 2 ^ 63

def partSetHeaderBytes (psh : PartSetHeader) : Bytes :=
  intCode.field 0x8 0 psh.total ++ Code.string.field 0x12 [] psh.hash

def blockIdBytes (b : BlockID) : Bytes :=
  Code.string.field 0xa [] b.hash ++ 0x12 :: Code.string.enc (partSetHeaderBytes b.part_set_header)

def timestampBytes (ts : Timestamp) : Bytes :=
  intCode.field 0x8 0 ts.seconds ++ intCode.field 0x10 0 ts.nanos

theorem length_intField_le (key : UInt8) (v : Int) : (intCode.field key 0 v).length ≤ 11 := by
  unfold Code.field
  split
  · exact Nat.zero_le _
  · have hlt : (uint64 v).toNat < 2 ^ 64 := by
      have := uint64_lt v
      omega
    have hsov := sov_eq_length hlt
    have hle : sov (uint64 v).toNat ≤ 10 := by
      unfold sov
      split_ifs <;> omega
    have hlength : (intCode.enc v).length = (varint.encode (uint64 v).toNat).length := rfl
    rw [List.length_cons, hlength]
    omega

theorem length_string_enc {bz : Bytes} (h : bz.length < 128) :
    (Code.string.enc bz).length = bz.length + 1 := by
  rw [Code.string, List.length_append, length_varint_encode 0 (.inl rfl) (by omega), Nat.zero_add,
    Nat.add_comm]

theorem length_stringField_le {bz : Bytes} (key : UInt8) (h : bz.length < 128) :
    (Code.string.field key [] bz).length ≤ bz.length + 2 := by
  unfold Code.field
  split
  · exact Nat.zero_le _
  · rw [List.length_cons, length_string_enc h]

theorem length_partSetHeaderBytes {psh : PartSetHeader} (h : psh.hash.length ≤ 32) :
    (partSetHeaderBytes psh).length ≤ 45 := by
  have hint := length_intField_le 0x8 psh.total
  have hstring := length_stringField_le 0x12 (show psh.hash.length < 128 by omega)
  rw [partSetHeaderBytes, List.length_append]
  omega

theorem length_blockIdBytes {b : BlockID} (h : BlockIdFits b) : (blockIdBytes b).length ≤ 81 := by
  have hstring := length_stringField_le 0xa (show b.hash.length < 128 by have := h.hash; omega)
  have hparts := length_partSetHeaderBytes h.parts
  have hhash := h.hash
  rw [blockIdBytes, List.length_append, List.length_cons, length_string_enc (by omega)]
  omega

theorem marshal_for_part_set_header_eq {psh : PartSetHeader} (h : psh.hash.length ≤ 32) :
    marshal_for_part_set_header psh =
      some (((partSetHeaderBytes psh).length : Int), partSetHeaderBytes psh) := by
  unfold marshal_for_part_set_header
  rw [encode_int_eq _ (by decide), encode_bytearray_eq (by decide) (by omega)]
  simp only [Option.bind_eq_bind, Option.bind_some, Option.pure_def]
  rw [size_and_concat_eq _ (by omega), partSetHeaderBytes, List.length_append]
  simp [add_and_concat, keyByte, field_1_varint, field_2_length_delimited]

theorem marshal_for_block_id_eq {b : BlockID} (h : BlockIdFits b) :
    marshal_for_block_id b = some (((blockIdBytes b).length : Int), blockIdBytes b) := by
  have hhash := h.hash
  have hparts := length_partSetHeaderBytes h.parts
  unfold marshal_for_block_id
  rw [marshal_for_part_set_header_eq h.parts, encode_bytearray_eq (by decide) (by omega)]
  simp only [Option.bind_eq_bind, Option.bind_some, Option.pure_def]
  rw [nest_record_eq (by decide) (by omega), Option.bind_some, size_and_concat_eq _ (by omega),
    blockIdBytes, List.length_append]
  simp [add_and_concat, keyByte, field_1_length_delimited, field_2_length_delimited]

theorem marshal_for_timestamp_eq (ts : Timestamp) :
    marshal_for_timestamp ts = some (((timestampBytes ts).length : Int), timestampBytes ts) := by
  unfold marshal_for_timestamp
  rw [encode_int_eq _ (by decide), encode_int_eq _ (by decide), timestampBytes, List.length_append]
  simp [add_and_concat, keyByte, field_1_varint, field_2_varint]

theorem partSetHeaderBytes_inj {a b : PartSetHeader} (ha : 0 ≤ a.total ∧ a.total < 2 ^ 63)
    (hb : 0 ≤ b.total ∧ b.total < 2 ^ 63) (h : partSetHeaderBytes a = partSetHeaderBytes b) :
    a = b := by
  obtain ⟨htotal, hrest⟩ := Code.field_append_inj (show intCode.dom a.total from ⟨by omega, ha.2⟩)
    (show intCode.dom b.total from ⟨by omega, hb.2⟩) (Code.head?_field_ne (by decide))
    (Code.head?_field_ne (by decide)) h
  have hhash := Code.field_inj trivial trivial hrest
  cases a
  cases b
  cases htotal
  cases hhash
  rfl

theorem blockIdBytes_inj {a b : BlockID} (ha : BlockIdFits a) (hb : BlockIdFits b)
    (h : blockIdBytes a = blockIdBytes b) : a = b := by
  obtain ⟨hhash, hrest⟩ := Code.field_append_inj trivial trivial (by simp) (by simp) h
  have hparts := partSetHeaderBytes_inj ha.total hb.total
    (Code.string.inj trivial trivial (List.cons.inj hrest).2)
  cases a
  cases b
  cases hhash
  cases hparts
  rfl

/-- A time in seconds and nanoseconds. -/
def stampOf (t : Int) : Timestamp := { seconds := t / 1000000000, nanos := t % 1000000000 }

/-- A time that protobuf can write. -/
def TimeFits (t : Int) : Prop := -62135596800 ≤ t / 1000000000 ∧ t / 1000000000 < 253402300800

theorem timestamp_proto_eq {t : Int} (h : TimeFits t) :
    timestamp_proto t = some (stampOf t) := by
  obtain ⟨hlow, hhigh⟩ := h
  have hnanos : 0 ≤ t % 1000000000 ∧ t % 1000000000 ≤ 1000000000 := by omega
  rw [timestamp_proto, if_pos (by simp [validate_timestamp, hlow, hhigh, hnanos])]
  rfl

theorem timestampBytes_inj {t u : Int} (ht : TimeFits t) (hu : TimeFits u)
    (h : timestampBytes (stampOf t) = timestampBytes (stampOf u)) : t = u := by
  obtain ⟨ht, ht'⟩ := ht
  obtain ⟨hu, hu'⟩ := hu
  obtain ⟨hseconds, hrest⟩ := Code.field_append_inj
    (show intCode.dom (t / 1000000000) by constructor <;> omega)
    (show intCode.dom (u / 1000000000) by constructor <;> omega)
    (Code.head?_field_ne (by decide)) (Code.head?_field_ne (by decide)) h
  have hnanos := Code.field_inj
    (show intCode.dom (t % 1000000000) by constructor <;> omega)
    (show intCode.dom (u % 1000000000) by constructor <;> omega) hrest
  omega

theorem length_timestampBytes (ts : Timestamp) : (timestampBytes ts).length ≤ 22 := by
  have hseconds := length_intField_le 0x8 ts.seconds
  have hnanos := length_intField_le 0x10 ts.nanos
  rw [timestampBytes, List.length_append]
  omega

/-! ## Votes -/

/-- A vote whose numbers are of 63 bits, with hashes of the right length, a time that protobuf can
write and a chain id of fifty bytes at most. -/
structure VoteFits (vote : CanonicalVote) : Prop where
  height : 0 ≤ vote.height ∧ vote.height < 2 ^ 63
  round : 0 ≤ vote.round ∧ vote.round < 2 ^ 63
  block_id : BlockIdFits vote.block_id
  timestamp : TimeFits vote.timestamp
  chain_id : vote.chain_id.length ≤ 50

/-- The fields of a vote in the order of their keys. -/
def voteBytes (vote : CanonicalVote) : Bytes :=
  intCode.field 0x8 0 vote.v_type ++ (fixedCode.field 0x11 0 vote.height ++
    (fixedCode.field 0x19 0 vote.round ++ (0x22 :: Code.string.enc (blockIdBytes vote.block_id) ++
      (0x2a :: Code.string.enc (timestampBytes (stampOf vote.timestamp)) ++
        Code.string.field 0x32 [] vote.chain_id))))

theorem marshal_for_vote_eq {vote : CanonicalVote} (h : VoteFits vote) :
    marshal_for_vote vote = some (((voteBytes vote).length : Int), voteBytes vote) := by
  have hblock := length_blockIdBytes h.block_id
  have htime := length_timestampBytes (stampOf vote.timestamp)
  have hchain := h.chain_id
  unfold marshal_for_vote
  rw [encode_int_eq _ (by decide), encode_int_little_endian_eq (by decide) h.height,
    encode_int_little_endian_eq (by decide) h.round, marshal_for_block_id_eq h.block_id,
    timestamp_proto_eq h.timestamp, encode_bytearray_eq (by decide) (by omega)]
  simp only [Option.bind_eq_bind, Option.bind_some, Option.pure_def, marshal_for_timestamp_eq]
  rw [nest_record_eq (by decide) (by omega), nest_record_eq (by decide) (by omega)]
  simp only [Option.bind_some]
  rw [size_and_concat_eq _ (by omega)]
  simp [add_and_concat, keyByte, field_1_varint, field_2_fixed64, field_3_fixed64,
    field_4_length_delimited, field_5_length_delimited, field_6_length_delimited, voteBytes]
  omega

theorem length_voteBytes {vote : CanonicalVote} (h : VoteFits vote) :
    (voteBytes vote).length < 2 ^ 63 := by
  have htype := length_intField_le 0x8 vote.v_type
  have hfixed : ∀ key v, (fixedCode.field key 0 v).length ≤ 9 := by
    intro key v
    unfold Code.field
    split
    · exact Nat.zero_le _
    · rw [List.length_cons, show (fixedCode.enc v).length = 8 from littleEndian_length 8 v.toNat]
  have hheight := hfixed 0x11 vote.height
  have hround := hfixed 0x19 vote.round
  have hblock := length_blockIdBytes h.block_id
  have htime := length_timestampBytes (stampOf vote.timestamp)
  have hchain := length_stringField_le 0x32
    (show vote.chain_id.length < 128 by have := h.chain_id; omega)
  have hshort := h.chain_id
  simp only [voteBytes, List.length_append, List.length_cons,
    length_string_enc (show (blockIdBytes vote.block_id).length < 128 by omega)]
  rw [length_string_enc (by omega)]
  omega

/-- The bytes that are signed fix every field of the vote. -/
theorem voteBytes_inj {a b : CanonicalVote} (ha : VoteFits a) (hb : VoteFits b)
    (htype : a.v_type = b.v_type) (h : voteBytes a = voteBytes b) :
    a.height = b.height ∧ a.round = b.round ∧ a.block_id = b.block_id ∧
      a.timestamp = b.timestamp ∧ a.chain_id = b.chain_id := by
  unfold voteBytes at h
  rw [htype] at h
  have hbody := List.append_cancel_left h
  have hround : ∀ {v} {r : Bytes}, (fixedCode.field 0x19 0 v ++ (0x22 :: r)).head? ≠ some 0x11 :=
    Code.head?_field_append_ne (by decide) (by simp)
  obtain ⟨hheight, hbody⟩ := Code.field_append_inj ha.height hb.height hround hround hbody
  obtain ⟨hround, hbody⟩ := Code.field_append_inj ha.round hb.round (by simp) (by simp) hbody
  obtain ⟨hblock, hbody⟩ := Code.string.unique trivial trivial (List.cons.inj hbody).2
  obtain ⟨htime, hbody⟩ := Code.string.unique trivial trivial (List.cons.inj hbody).2
  exact ⟨hheight, hround, blockIdBytes_inj ha.block_id hb.block_id hblock,
    timestampBytes_inj ha.timestamp hb.timestamp htime, Code.field_inj trivial trivial hbody⟩

theorem marshal_delimited_for_vote_inj {a b : CanonicalVote} (ha : VoteFits a) (hb : VoteFits b)
    (htype : a.v_type = b.v_type)
    (h : marshal_delimited_for_vote a = marshal_delimited_for_vote b) :
    a.height = b.height ∧ a.round = b.round ∧ a.block_id = b.block_id ∧
      a.timestamp = b.timestamp ∧ a.chain_id = b.chain_id := by
  have hlengthA := length_voteBytes ha
  have hlengthB := length_voteBytes hb
  unfold marshal_delimited_for_vote at h
  rw [marshal_for_vote_eq ha, marshal_for_vote_eq hb] at h
  simp only [Option.bind_eq_bind, Option.bind_some, Option.pure_def] at h
  rw [encode_varint_eq _ (by omega), encode_varint_eq _ (by omega)] at h
  simp only [Option.bind_some, Option.some.injEq] at h
  exact voteBytes_inj ha hb htype (varint.encode_append_inj h).2

/-! ## Headers -/

/-- A header that passes the basic checks, says who its validators are, and whose numbers, time and
application hash are in their ranges. -/
structure HeaderFits (h : TmHeader) : Prop where
  valid : tm_header.validate_basic h = true
  validators : h.validators_hash ≠ []
  app : 0 ≤ h.version.app ∧ h.version.app < 2 ^ 63
  height : h.height < 2 ^ 63
  total : h.last_block_id.part_set_header.total < 2 ^ 63
  time : TimeFits h.time
  app_hash : h.app_hash.length < 16384

theorem le_of_is_empty_or_size {bz : Bytes} {size : Nat} (h : is_empty_or_size bz size = true) :
    bz.length ≤ size := by
  simp only [is_empty_or_size, Bool.or_eq_true, beq_iff_eq] at h
  omega

namespace tm_header

theorem encode_length_delimited_field_eq {value : Bytes} (h : value.length < 16384) :
    encode_length_delimited_field value = some (Code.string.field 0xa [] value) := by
  unfold encode_length_delimited_field Code.field
  split
  · rfl
  · have hsmall : value.length < 128 → push [] value.length =
        some (varint.encode value.length) := by
      intro hsmall
      rw [varint.encode_small hsmall, push, if_pos (by omega)]
      rfl
    have hlarge := encode_varint_eq value.length (by omega)
    split
    · rename_i hlt
      rw [hsmall hlt]
      exact push_key (show IsKey field_1_length_delimited by decide) _
    · rw [hlarge]
      exact push_key (show IsKey field_1_length_delimited by decide) _

/-- The fourteen leaves, each with the fields it is made of. -/
def leafBytes (h : TmHeader) : List Bytes :=
  [intCode.field 0x8 0 h.version.block ++ intCode.field 0x10 0 h.version.app,
    Code.string.field 0xa [] h.chain_id,
    intCode.field 0x8 0 h.height,
    timestampBytes (stampOf h.time),
    blockIdBytes h.last_block_id,
    Code.string.field 0xa [] h.last_commit_hash,
    Code.string.field 0xa [] h.data_hash,
    Code.string.field 0xa [] h.validators_hash,
    Code.string.field 0xa [] h.next_validators_hash,
    Code.string.field 0xa [] h.consensus_hash,
    Code.string.field 0xa [] h.app_hash,
    Code.string.field 0xa [] h.last_results_hash,
    Code.string.field 0xa [] h.evidence_hash,
    Code.string.field 0xa [] h.proposer_address]

/-- What the basic checks say. -/
structure Checked (h : TmHeader) : Prop where
  block : h.version.block = 11
  chain_id : h.chain_id.length ≤ 50
  height : 0 < h.height
  last_block_id : BlockIdFits h.last_block_id
  hashes : ∀ bz ∈ [h.last_commit_hash, h.data_hash, h.validators_hash, h.next_validators_hash,
    h.consensus_hash, h.app_hash, h.last_results_hash, h.evidence_hash, h.proposer_address],
    bz.length < 16384

theorem checked_of_fits {h : TmHeader} (fits : HeaderFits h) : Checked h := by
  have hvalid := fits.valid
  simp only [validate_basic, block_id.validate_basic, Bool.and_eq_true, decide_eq_true_eq,
    beq_iff_eq] at hvalid
  obtain ⟨⟨⟨⟨⟨⟨⟨⟨⟨⟨⟨⟨⟨hblock, hchain⟩, hheight⟩, ⟨hhash, hparts⟩, htotal⟩, hcommit⟩, hdata⟩,
    hevidence⟩, hnext⟩, hproposer⟩, hvalidators⟩, -⟩, hconsensus⟩, hresults⟩, -⟩ := hvalid
  refine ⟨hblock, hchain, hheight, ⟨le_of_is_empty_or_size hhash, le_of_is_empty_or_size hparts,
    htotal, fits.total⟩, ?_⟩
  have hshort : ∀ {bz : Bytes} {size : Nat}, is_empty_or_size bz size = true → size ≤ 32 →
      bz.length < 16384 := by
    intro bz size hbz hsize
    have := le_of_is_empty_or_size hbz
    omega
  simp only [List.forall_mem_cons]
  exact ⟨hshort hcommit (by decide), hshort hdata (by decide), hshort hvalidators (by decide),
    hshort hnext (by decide), hshort hconsensus (by decide), fits.app_hash,
    hshort hresults (by decide), hshort hevidence (by decide), hshort hproposer (by decide),
    by simp⟩

theorem leaves_eq {h : TmHeader} (fits : HeaderFits h) : leaves h = some (leafBytes h) := by
  have checked := checked_of_fits fits
  have hconsensus : marshal_for_consensus h.version = some
      (((intCode.field 0x8 0 h.version.block ++ intCode.field 0x10 0 h.version.app).length : Int),
        intCode.field 0x8 0 h.version.block ++ intCode.field 0x10 0 h.version.app) := by
    unfold marshal_for_consensus
    rw [encode_int_eq _ (by decide), encode_int_eq _ (by decide), List.length_append]
    simp [add_and_concat, keyByte, field_1_varint, field_2_varint]
  have hnonzero : h.height ≠ 0 := by
    have := checked.height
    omega
  have hheight : push (varint.encode (uint64 h.height).toNat) field_1_varint =
      some (intCode.field 0x8 0 h.height) := by
    rw [Code.field, if_neg hnonzero]
    exact push_key (show IsKey field_1_varint by decide) _
  have hrest : [h.last_commit_hash, h.data_hash, h.validators_hash, h.next_validators_hash,
      h.consensus_hash, h.app_hash, h.last_results_hash, h.evidence_hash,
      h.proposer_address].mapM encode_length_delimited_field =
        some ([h.last_commit_hash, h.data_hash, h.validators_hash, h.next_validators_hash,
          h.consensus_hash, h.app_hash, h.last_results_hash, h.evidence_hash,
          h.proposer_address].map (Code.string.field 0xa [])) := by
    have hmap : ∀ bzs : List Bytes, (∀ bz ∈ bzs, bz.length < 16384) →
        bzs.mapM encode_length_delimited_field = some (bzs.map (Code.string.field 0xa [])) := by
      intro bzs hbzs
      induction bzs with
      | nil => rfl
      | cons bz bzs ih =>
        rw [List.forall_mem_cons] at hbzs
        rw [List.mapM_cons, encode_length_delimited_field_eq hbzs.1, ih hbzs.2]
        rfl
    exact hmap _ checked.hashes
  have hchain := checked.chain_id
  unfold leaves
  rw [hconsensus, encode_length_delimited_field_eq (by omega), timestamp_proto_eq fits.time,
    marshal_for_block_id_eq checked.last_block_id, hrest, encode_varint_uint64]
  simp only [if_neg hnonzero, hheight, Option.bind_eq_bind, Option.bind_some,
    marshal_for_timestamp_eq, Option.map_some]
  rfl

/-- The leaves of a header fix the header. -/
theorem leafBytes_inj {a b : TmHeader} (ha : HeaderFits a) (hb : HeaderFits b)
    (h : leafBytes a = leafBytes b) : a = b := by
  have checkedA := checked_of_fits ha
  have checkedB := checked_of_fits hb
  simp only [leafBytes, List.cons.injEq, and_true] at h
  obtain ⟨hversion, hchain, hheight, htime, hblock, hcommit, hdata, hvalidators, hnext, hconsensus,
    happ, hresults, hevidence, hproposer⟩ := h
  have hversion : a.version = b.version := by
    rw [checkedA.block, checkedB.block] at hversion
    have hdomA : intCode.dom a.version.app := ⟨by have := ha.app; omega, ha.app.2⟩
    have hdomB : intCode.dom b.version.app := ⟨by have := hb.app; omega, hb.app.2⟩
    have happ := Code.field_inj hdomA hdomB (List.append_cancel_left hversion)
    cases hav : a.version
    cases hbv : b.version
    have hblockA := checkedA.block
    have hblockB := checkedB.block
    rw [hav] at hblockA happ
    rw [hbv] at hblockB happ
    cases happ
    cases hblockA
    cases hblockB
    rfl
  have hheight := Code.field_inj
    (show intCode.dom a.height from ⟨by have := checkedA.height; omega, ha.height⟩)
    (show intCode.dom b.height from ⟨by have := checkedB.height; omega, hb.height⟩) hheight
  have hstring : ∀ {x y : Bytes}, Code.string.field 0xa [] x = Code.string.field 0xa [] y → x = y :=
    fun h => Code.field_inj trivial trivial h
  have htime := timestampBytes_inj ha.time hb.time htime
  have hblock := blockIdBytes_inj checkedA.last_block_id checkedB.last_block_id hblock
  cases a
  cases b
  simp only [TmHeader.mk.injEq]
  exact ⟨hversion, hstring hchain, hheight, htime, hblock, hstring hcommit, hstring hdata,
    hstring hvalidators, hstring hnext, hstring hconsensus, hstring happ, hstring hresults,
    hstring hevidence, hstring hproposer⟩

section Hash

variable [Builtins]

/-- Every string hashed to get the hash of a header. -/
def hashed (h : TmHeader) : List Bytes :=
  match leaves h with
  | some items => merkle_tree.hashed sha2_256 get_split_point items.length items
  | none => []

theorem hash_eq {h : TmHeader} (fits : HeaderFits h) :
    hash h = some (merkle_tree.root sha2_256 get_split_point 14 (leafBytes h)) := by
  rw [hash, leaves_eq fits, Option.bind_eq_bind, Option.bind_some, if_neg fits.validators,
    hash_from_byte_slices_sha2_256, hashFromByteSlices_eq_root]
  rfl

/-- Two headers with one hash are one header. -/
theorem hash_binds {a b : TmHeader} (ha : HeaderFits a) (hb : HeaderFits b)
    (free : CollisionFree (hashed a ++ hashed b)) (h : hash a = hash b) : a = b := by
  rw [hash_eq ha, hash_eq hb, Option.some.injEq] at h
  have hall : ∀ m, m ∈ merkle_tree.hashed sha2_256 get_split_point 14 (leafBytes a) ∨
      m ∈ merkle_tree.hashed sha2_256 get_split_point 14 (leafBytes b) →
      m ∈ hashed a ++ hashed b := by
    intro m hm
    rw [hashed, hashed, leaves_eq ha, leaves_eq hb]
    exact List.mem_append.mpr hm
  have inj := fun x hx y hy hxy => free x (hall x hx) y (hall y hy) hxy
  exact leafBytes_inj ha hb (merkle_tree.root_injective Builtins.sha2_256_length
    get_split_point_splits _ _ _ _ (Nat.le_refl _) (Nat.le_refl _) inj h)

end Hash

end tm_header

/-- The hash of a header fixes the header, and the bytes under a signature fix height, round, block,
time and chain. -/
theorem encodings_bind_their_fields [Builtins] :
    (∀ a b : TmHeader, HeaderFits a → HeaderFits b →
      CollisionFree (tm_header.hashed a ++ tm_header.hashed b) →
      tm_header.hash a = tm_header.hash b → a = b) ∧
    ∀ (c c' : Commit) (chain_id chain_id' : Bytes) (idx idx' : Nat) (sig sig' : CommitSig),
      c.signatures[idx]? = some sig → c'.signatures[idx']? = some sig' →
      VoteFits (canonicalize_vote chain_id c sig) →
      VoteFits (canonicalize_vote chain_id' c' sig') →
      vote_sign_bytes_for_commit c chain_id idx = vote_sign_bytes_for_commit c' chain_id' idx' →
      c.height = c'.height ∧ c.round = c'.round ∧ c.block_id = c'.block_id ∧
        sig.timestamp = sig'.timestamp ∧ chain_id = chain_id' := by
  refine ⟨fun a b ha hb free h => tm_header.hash_binds ha hb free h, ?_⟩
  intro c c' chain_id chain_id' idx idx' sig sig' hsig hsig' hfits hfits' h
  rw [vote_sign_bytes_for_commit, vote_sign_bytes_for_commit, hsig, hsig'] at h
  exact marshal_delimited_for_vote_inj hfits hfits' rfl h

/-- The first sample validator signed one vote, whatever else is in the commit. -/
theorem a_sample_vote_binds_its_fields :
    VoteFits (canonicalize_vote (utf8 "c-1") (sampleCommit [firstSig, absentSig]) firstSig) ∧
      (sampleCommit [firstSig, absentSig]).block_id =
        (sampleCommit [firstSig, secondSig]).block_id := by
  have hfits : VoteFits (canonicalize_vote (utf8 "c-1") (sampleCommit []) firstSig) := by
    refine ⟨?_, ?_, ⟨?_, ?_, ?_⟩, ⟨?_, ?_⟩, ?_⟩ <;> decide
  obtain ⟨-, hvotes⟩ := @encodings_bind_their_fields sampleBuiltins
  obtain ⟨-, -, hblock, -⟩ := hvotes (sampleCommit [firstSig, absentSig])
    (sampleCommit [firstSig, secondSig]) (utf8 "c-1") (utf8 "c-1") 0 0 firstSig firstSig rfl rfl
    hfits hfits rfl
  exact ⟨hfits, hblock⟩

end cardano_ibc
