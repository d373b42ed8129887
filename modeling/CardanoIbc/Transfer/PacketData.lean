-- The data of a transfer packet: fungible_token_packet_data.ak, ibc_trace.ak, coin.ak and the
-- texts of utils/string.ak they are read with.
import CardanoIbc.Ibc.ChannelDatum

namespace cardano_ibc

namespace string

def slash_char : UInt8 := 47

/-- The parts of a text between the separators; a text without one is its only part. -/
def split (str : Bytes) (sep : UInt8) : List Bytes :=
  match str with
  | [] => [[]]
  | b :: rest =>
    match split rest sep with
    | [] => [[b]]
    | part :: parts => if b = sep then [] :: part :: parts else (b :: part) :: parts

def is_only_space (str : Bytes) : Bool := str.all fun b => b == 0x20

/-- 45 stands where a character is no digit. -/
def hex_lookup_table : Bytes :=
  List.replicate 48 45 ++ [0, 1, 2, 3, 4, 5, 6, 7, 8, 9] ++ List.replicate 7 45 ++
    [10, 11, 12, 13, 14, 15] ++ List.replicate 26 45 ++ [10, 11, 12, 13, 14, 15]

def decode_hex_digit (char : UInt8) : Option UInt8 :=
  match hex_lookup_table[char.toNat]? with
  | some digit => if digit = 0x2d then none else some digit
  | none => none

def hex_string_to_bytes (str : Bytes) : Option Bytes :=
  match str with
  | [] => some []
  | [_] => none
  | high :: low :: rest => do
    let msb ← decode_hex_digit high
    let lsb ← decode_hex_digit low
    let bytes ← hex_string_to_bytes rest
    return (msb * 16 + lsb) :: bytes

end string

/-! ## Denominations -/

namespace ibc_trace

/-- What the fold over the parts of a denomination carries: the ports and channels found, last
first, the port before its channel, whether a part was no channel, and how many parts it saw. -/
structure Scan where
  paths : List Bytes
  port : Bytes
  broken : Bool
  count : Nat

def Scan.next (acc : Scan) (identifier : Bytes) : Scan :=
  if acc.broken then acc
  else if acc.count % 2 = 0 then { acc with port := identifier, count := acc.count + 1 }
  else if is_valid_channel_id identifier then
    { paths := acc.port :: identifier :: acc.paths, port := [], broken := false,
      count := acc.count + 1 }
  else { acc with port := [], broken := true, count := acc.count + 1 }

def validIdentifiers (paths : List Bytes) : Bool :=
  paths.zipIdx.all fun (identifier, index) =>
    if index % 2 = 0 then port_identifier_validator identifier
    else channel_identifier_validator identifier

def validate_prefixed_denom (denom : Bytes) : Bool :=
  let denom_split := string.split denom string.slash_char
  if denom_split == [denom] && trim_space denom != [] then true
  else
    match denom_split.getLast? with
    | none => false
    | some base =>
      if string.is_only_space base then false
      else
        let paths := (denom_split.foldl Scan.next ⟨[], [], false, 0⟩).paths
        if paths.all fun p => p == [] then true
        else if paths.length % 2 ≠ 0 then false
        else validIdentifiers paths

theorem validate_prefixed_denom_nil : validate_prefixed_denom [] = false := by decide

end ibc_trace

namespace transfer_coin

def get_denom_prefix (port_id channel_id : Bytes) : Bytes := port_id ++ slash ++ channel_id ++ slash

/-- The token comes back over the channel it first went out on. -/
def receiver_chain_is_source (source_port source_channel denom : Bytes) : Bool :=
  denom.take ( get_denom_prefix source_port source_channel).length ==
    get_denom_prefix source_port source_channel

def sender_chain_is_source (source_port source_channel denom : Bytes) : Bool :=
  !receiver_chain_is_source source_port source_channel denom

end transfer_coin

/-- A native token unit is its policy and its name, or the word lovelace. -/
def validator_utils.extract_token_unit (unit : Bytes) : Option (PolicyId × AssetName) :=
  if unit = utf8 "lovelace" then some (ada_policy_id, ada_asset_name)
  else if 28 ≤ unit.length ∧ unit.length ≤ 60 then some (unit.take 28, (unit.drop 28).take 32)
  else none

/-! ## Packet data -/

namespace fungible_token_packet_data

def validate_basic (ftpd : FungibleTokenPacketData) : Bool :=
  match int.from_utf8 ftpd.amount with
  | some amount =>
    amount > 0 && trim_space ftpd.sender != [] && trim_space ftpd.receiver != [] &&
      ibc_trace.validate_prefixed_denom ftpd.denom
  | none => false

def get_json (key value : Bytes) : Bytes :=
  [34] ++ key ++ [34] ++ [58] ++ [34] ++ value ++ [34]

/-- The memo is the one field whose quotes get a backslash. -/
def escapeQuotes (memo : Bytes) : Bytes :=
  memo.foldr (fun byte acc => if byte = 34 then 92 :: 34 :: acc else byte :: acc) []

def get_bytes (ftpd : FungibleTokenPacketData) : Bytes :=
  let memo := escapeQuotes ftpd.memo
  [123] ++
    (if ftpd.amount.length = 0 then [] else get_json (utf8 "amount") ftpd.amount ++ [44]) ++
    (if ftpd.denom.length = 0 then [] else get_json (utf8 "denom") ftpd.denom ++ [44]) ++
    (if memo.length = 0 then [] else get_json (utf8 "memo") memo ++ [44]) ++
    (if ftpd.receiver.length = 0 then []
      else if ftpd.sender.length = 0 then get_json (utf8 "receiver") ftpd.receiver
      else get_json (utf8 "receiver") ftpd.receiver ++ [44]) ++
    (if ftpd.sender.length = 0 then [] else get_json (utf8 "sender") ftpd.sender) ++ [125]

/-- The checks leave no field empty but the memo. -/
theorem fields_ne_nil {ftpd : FungibleTokenPacketData} (h : validate_basic ftpd = true) :
    ftpd.amount ≠ [] ∧ ftpd.denom ≠ [] ∧ ftpd.receiver ≠ [] ∧ ftpd.sender ≠ [] := by
  unfold validate_basic at h
  split at h
  · rename_i amount hamount
    simp only [Bool.and_eq_true, decide_eq_true_eq, bne_iff_ne] at h
    obtain ⟨⟨⟨hpos, hsender⟩, hreceiver⟩, hdenom⟩ := h
    refine ⟨?_, ?_, ?_, ?_⟩
    · intro hnil
      rw [hnil] at hamount
      cases hamount
      exact absurd hpos (by decide)
    · intro hnil
      rw [hnil, ibc_trace.validate_prefixed_denom_nil] at hdenom
      cases hdenom
    · intro hnil
      exact hreceiver (by rw [hnil]; rfl)
    · intro hnil
      exact hsender (by rw [hnil]; rfl)
  · cases h

end fungible_token_packet_data

end cardano_ibc
