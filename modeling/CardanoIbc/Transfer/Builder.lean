-- The packet data a send is built with (packages/cardano-ibc-tx-builder, index.ts) and the bytes
-- the validators expect for it. The builder writes the packet with a full JSON escaper, the
-- validators with one that knows only the quotes of the memo.
import CardanoIbc.Transfer.Counterparty
import Mathlib.Algebra.Order.BigOperators.Group.List

namespace cardano_ibc

/-! ## The builder -/

/-- The fields as the texts they are; one that is not given is empty. -/
structure Ics20PacketData where
  denom : List Char
  amount : List Char
  sender : List Char
  receiver : List Char
  memo : List Char
deriving DecidableEq, Repr

namespace Ics20PacketData

def get (packet : Ics20PacketData) : PacketField → List Char
  | .amount => packet.amount
  | .denom => packet.denom
  | .memo => packet.memo
  | .receiver => packet.receiver
  | .sender => packet.sender

end Ics20PacketData

namespace builder

open json counterparty

/-- The object that is written: the fields that are not empty, in the order of their names. -/
def ordered (packet : Ics20PacketData) : List (List Char × List Char) :=
  (PacketField.all.filter fun f => packet.get f != []).map fun f => (f.name, packet.get f)

def stringifyIcs20PacketData (packet : Ics20PacketData) : List Char := stringify (ordered packet)

/-- The bytes of a text. -/
def convertStringToHex (value : List Char) : Bytes := text.encode value

/-- The data in the redeemer of the transfer module, field by field. -/
def fungibleTokenPacketData (packet : Ics20PacketData) : FungibleTokenPacketData where
  denom := convertStringToHex packet.denom
  amount := convertStringToHex packet.amount
  sender := convertStringToHex packet.sender
  receiver := convertStringToHex packet.receiver
  memo := convertStringToHex packet.memo

/-! ## What the validators write -/

theorem get_fungibleTokenPacketData (packet : Ics20PacketData) (f : PacketField) :
    (fungibleTokenPacketData packet).get f = text.encode (packet.get f) := by
  cases f <;> rfl

theorem encode_eq_nil (cs : List Char) : text.encode cs = [] ↔ cs = [] := by
  constructor
  · intro h
    exact text.encode_injective h
  · rintro rfl
    rfl

theorem written_fungibleTokenPacketData (packet : Ics20PacketData) :
    written (fungibleTokenPacketData packet) =
      PacketField.all.filter fun f => packet.get f != [] := by
  unfold written
  refine List.filter_congr fun f _ => ?_
  rw [get_fungibleTokenPacketData, Bool.eq_iff_iff, bne_iff_ne, bne_iff_ne, ne_eq, ne_eq,
    encode_eq_nil]

/-- The fields the validators write, each with its text. -/
theorem texts_fungibleTokenPacketData (packet : Ics20PacketData) :
    texts (fungibleTokenPacketData packet) =
      (PacketField.all.filter fun f => packet.get f != []).map fun f =>
        (f.name, raw f (packet.get f)) := by
  unfold texts
  rw [written_fungibleTokenPacketData]
  refine List.map_congr_left fun f _ => ?_
  rw [get_fungibleTokenPacketData, text.decode_encode]

theorem get_bytes_fungibleTokenPacketData {packet : Ics20PacketData}
    (hamount : packet.amount ≠ []) (hdenom : packet.denom ≠ []) (hreceiver : packet.receiver ≠ [])
    (hsender : packet.sender ≠ []) :
    fungible_token_packet_data.get_bytes (fungibleTokenPacketData packet) =
      text.encode ('{' :: writeMembers
        ((PacketField.all.filter fun f => packet.get f != []).map fun f =>
          (f.name, raw f (packet.get f)))) := by
  rw [← texts_fungibleTokenPacketData]
  refine (encode_document ⟨?_, ?_, ?_, ?_⟩ fun f => ?_).symm
  · exact (encode_eq_nil _).not.mpr hamount
  · exact (encode_eq_nil _).not.mpr hdenom
  · exact (encode_eq_nil _).not.mpr hreceiver
  · exact (encode_eq_nil _).not.mpr hsender
  · rw [get_fungibleTokenPacketData, isText, text.decode_encode]
    exact beq_self_eq_true _

/-! ## The two compared -/

theorem escaped_name (f : PacketField) : escaped f.name = f.name := by cases f <;> decide

theorem stringifyIcs20PacketData_eq (packet : Ics20PacketData) :
    stringifyIcs20PacketData packet = '{' :: writeMembers
      ((PacketField.all.filter fun f => packet.get f != []).map fun f =>
        (f.name, escaped (packet.get f))) := by
  unfold stringifyIcs20PacketData stringify ordered
  rw [List.map_map]
  congr 2
  refine List.map_congr_left fun f _ => ?_
  rw [Function.comp_apply, escaped_name]

theorem escaped_eq_raw {f : PacketField} {cs : List Char} (h : ∀ c ∈ cs, isPlain f c = true) :
    escaped cs = raw f cs := by
  rw [raw_eq_quoted h]
  refine escaped_eq_quoted fun c hc => ?_
  have := h c hc
  simp only [isPlain, Bool.and_eq_true] at this
  exact this.1

/-- Written with values that are nowhere longer, two objects are of one length only if all the
values are. -/
theorem lengths_of_writeMembers {fields : List PacketField} {short long : PacketField → List Char}
    (hle : ∀ f ∈ fields, (short f).length ≤ (long f).length)
    (h : writeMembers (fields.map fun f => (f.name, long f)) =
      writeMembers (fields.map fun f => (f.name, short f))) :
    ∀ f ∈ fields, (short f).length = (long f).length := by
  intro f hf
  have hne : fields ≠ [] := List.ne_nil_of_mem hf
  have hlength := congrArg List.length h
  rw [length_writeMembers (by simpa using hne), length_writeMembers (by simpa using hne),
    List.map_map, List.map_map] at hlength
  by_contra hdiffer
  have hlt := List.sum_lt_sum
    (fun g : PacketField => g.name.length + (short g).length + 6)
    (fun g : PacketField => g.name.length + (long g).length + 6)
    (fun g hg => by have := hle g hg; omega)
    ⟨f, hf, by have := hle f hf; omega⟩
  exact absurd hlength (Nat.ne_of_gt hlt)

/-- The builder's bytes are the ones the validators expect exactly if no field has a backslash or
a control character and only the memo has quotes. -/
theorem builder_bytes_expected_iff (packet : Ics20PacketData) (hamount : packet.amount ≠ [])
    (hdenom : packet.denom ≠ []) (hsender : packet.sender ≠ []) (hreceiver : packet.receiver ≠ []) :
    convertStringToHex (stringifyIcs20PacketData packet) =
        fungible_token_packet_data.get_bytes (fungibleTokenPacketData packet) ↔
      ∀ f, ∀ c ∈ packet.get f, c ≠ '\\' ∧ 0x20 ≤ c.toNat ∧ (c = '"' → f = .memo) := by
  have hplain : ∀ (f : PacketField) (c : Char), isPlain f c = true ↔
      c ≠ '\\' ∧ 0x20 ≤ c.toNat ∧ (c = '"' → f = .memo) := by
    intro f c
    simp only [isPlain, isSafe, Bool.and_eq_true, Bool.or_eq_true, bne_iff_ne, beq_iff_eq,
      decide_eq_true_eq, and_assoc, ne_eq]
    tauto
  simp only [← hplain]
  rw [get_bytes_fungibleTokenPacketData hamount hdenom hreceiver hsender,
    stringifyIcs20PacketData_eq, convertStringToHex]
  constructor
  · intro hsame f c hc
    -- the builder pays for every escape, the validators only for the memo's quotes
    have htexts := List.tail_eq_of_cons_eq (text.encode_injective hsame)
    have hlengths := lengths_of_writeMembers (fun g _ =>
      (raw_length g (packet.get g)).1.trans (cost_le_escaped _)) htexts
    have hf : f ∈ PacketField.all.filter fun f => packet.get f != [] := by
      refine List.mem_filter.mpr ⟨f.mem_all, ?_⟩
      simpa using List.ne_nil_of_mem hc
    have hlength := hlengths f hf
    have hcost := cost_le_escaped (packet.get f)
    obtain ⟨hraw, hexact⟩ := raw_length f (packet.get f)
    exact hexact (by omega) c hc
  · intro h
    congr 3
    refine List.map_congr_left fun f _ => ?_
    rw [escaped_eq_raw (h f)]

section Sample

/-- One token to a receiver, with a note. -/
def samplePacketData (memo : List Char) : Ics20PacketData where
  denom := "stake".toList
  amount := "1".toList
  sender := "addr1".toList
  receiver := "cosmos1".toList
  memo := memo

/-- Quotes in a memo, as in a forwarding instruction, are written alike. -/
theorem a_quoted_memo_is_expected :
    (samplePacketData "\"forward\"".toList).amount ≠ [] ∧
      (samplePacketData "\"forward\"".toList).denom ≠ [] ∧
      (samplePacketData "\"forward\"".toList).sender ≠ [] ∧
      (samplePacketData "\"forward\"".toList).receiver ≠ [] ∧
      convertStringToHex (stringifyIcs20PacketData (samplePacketData "\"forward\"".toList)) =
        fungible_token_packet_data.get_bytes
          (fungibleTokenPacketData (samplePacketData "\"forward\"".toList)) := by
  refine ⟨by decide, by decide, by decide, by decide, ?_⟩
  refine (builder_bytes_expected_iff _ (by decide) (by decide) (by decide) (by decide)).mpr ?_
  intro f
  cases f <;> simp [samplePacketData, Ics20PacketData.get]

/-- A memo of two lines: the builder writes a backslash and an n where the validators expect the
line feed itself. -/
theorem a_memo_of_two_lines_is_not_expected :
    (samplePacketData "a\nb".toList).amount ≠ [] ∧ (samplePacketData "a\nb".toList).denom ≠ [] ∧
      (samplePacketData "a\nb".toList).sender ≠ [] ∧
      (samplePacketData "a\nb".toList).receiver ≠ [] ∧
      convertStringToHex (stringifyIcs20PacketData (samplePacketData "a\nb".toList)) ≠
        fungible_token_packet_data.get_bytes
          (fungibleTokenPacketData (samplePacketData "a\nb".toList)) := by
  decide +kernel

end Sample

end builder

end cardano_ibc
