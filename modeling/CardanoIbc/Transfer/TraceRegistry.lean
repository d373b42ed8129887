-- How a full denomination is split into the way it came and the denomination it began as
-- (voucher_metadata.ak).
import CardanoIbc.Ledger.Cbor
import CardanoIbc.Transfer.Escrow

namespace cardano_ibc

/-! ## The datum of a voucher's description -/

namespace voucher_metadata

structure DenomTrace where
  path : Bytes
  base_denom : Bytes

def join_segments (segments : List Bytes) : Bytes :=
  segments.foldl (fun acc segment => if acc = [] then segment else acc ++ slash ++ segment) []

def do_split_full_denom_trace : List Bytes → List Bytes → Option DenomTrace
  | [], _ => none
  | [base_denom], reversed_path_segments =>
    some { path := join_segments reversed_path_segments.reverse, base_denom }
  | maybe_port :: maybe_channel :: rest, reversed_path_segments =>
    if is_valid_channel_id maybe_channel then
      do_split_full_denom_trace rest (maybe_channel :: maybe_port :: reversed_path_segments)
    else
      some { path := join_segments reversed_path_segments.reverse
             base_denom := join_segments (maybe_port :: maybe_channel :: rest) }

def split_full_denom_trace (full_denom : Bytes) : Option DenomTrace := do
  let normalized := trim_space full_denom
  expect (normalized != [])
  let segments := string.split normalized string.slash_char
  expect (!segments.any fun segment => segment == [])
  do_split_full_denom_trace segments []

end voucher_metadata

end cardano_ibc
