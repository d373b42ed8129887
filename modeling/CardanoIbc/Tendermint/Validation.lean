-- Checking a commit and a header against a trusted one: cometbft/validation.ak and
-- verifier.ak.
import CardanoIbc.Tendermint.Block

namespace cardano_ibc

/-- `aiken/math/rational`: the denominator of a value made by `new` is positive. -/
structure Rational where
  numerator : Int
  denominator : Int
deriving DecidableEq, Repr

def rational.new (numerator denominator : Int) : Option Rational :=
  if denominator = 0 then none
  else if denominator < 0 then some { numerator := -numerator, denominator := -denominator }
  else some { numerator, denominator }

structure TxTime where
  valid_from : Int
  valid_to : Int
deriving DecidableEq, Repr

/-! ## Commits -/

namespace validation

variable [Builtins]

/-- The state of the signature fold: the power tallied, the validators seen, and whether the
tally has passed. -/
structure Tally where
  tallied_voting_power : Int
  seen_vals : List Validator
  partial_passed : Bool

/-- The validator of a signature, and the validators seen with it. -/
def foundVal (vals : ValidatorSet) (lock_up_by_index : Bool) (idx : Nat) (commit_sig : CommitSig)
    (seen : List Validator) : Option (Option (Validator × List Validator)) :=
  if lock_up_by_index then
    some ((vals.validators[idx]?).map fun val => (val, seen))
  else
    match validator_set.get_by_address vals commit_sig.validator_address with
    | none => some none
    | some result => do
      expect (!seen.contains result)
      return some (result, result :: seen)

/-- The bytes under a signature: taken from the list if there is one. -/
def voteSignBytes (chain_id : Bytes) (commit : Commit) (list_vote_sign_bytes : Option (List Bytes))
    (idx : Nat) : Option Bytes :=
  match list_vote_sign_bytes with
  | some bzs => bzs[idx]?
  | none => vote_sign_bytes_for_commit commit chain_id idx

/-- One step of the signature fold. -/
def tallySig (chain_id : Bytes) (vals : ValidatorSet) (commit : Commit) (voting_power_needed : Int)
    (ignore_sig count_sig : CommitSig → Bool) (count_all_signatures lock_up_by_index : Bool)
    (list_vote_sign_bytes : Option (List Bytes)) (idx : Nat) (commit_sig : CommitSig)
    (acc : Tally) : Option Tally :=
  if ignore_sig commit_sig || acc.partial_passed then some acc
  else do
    match ← foundVal vals lock_up_by_index idx commit_sig acc.seen_vals with
    | none => return acc
    | some (val, seen_vals) =>
      let vote_sign_bytes ← voteSignBytes chain_id commit list_vote_sign_bytes idx
      expect (verify_ed25519_signature val.pubkey vote_sign_bytes commit_sig.signature)
      let new_tallied_voting_power :=
        if count_sig commit_sig then acc.tallied_voting_power + val.voting_power
        else acc.tallied_voting_power
      return { tallied_voting_power := new_tallied_voting_power
               seen_vals := seen_vals
               partial_passed :=
                 !count_all_signatures && new_tallied_voting_power > voting_power_needed }

def verify_commit_single (chain_id : Bytes) (vals : ValidatorSet) (commit : Commit)
    (voting_power_needed : Int) (ignore_sig count_sig : CommitSig → Bool)
    (count_all_signatures lock_up_by_index : Bool) (list_vote_sign_bytes : Option (List Bytes)) :
    Option Bool := do
  let tally ← indexed_foldr 0 commit.signatures
    { tallied_voting_power := 0, seen_vals := [], partial_passed := false }
    (tallySig chain_id vals commit voting_power_needed ignore_sig count_sig count_all_signatures
      lock_up_by_index list_vote_sign_bytes)
  return tally.partial_passed || tally.tallied_voting_power > voting_power_needed

def ignoreNotCommit (c : CommitSig) : Bool := c.block_id_flag != block_id_flag_commit

def verify_basic_vals_and_commit (vals : ValidatorSet) (commit : Commit) (height : Int)
    (block_id : BlockID) : Option Bool := do
  expect (!vals.validators.isEmpty)
  expect (!commit.signatures.isEmpty)
  expect (validator_set.size vals == commit.signatures.length)
  expect (height == commit.height)
  expect (block_id == commit.block_id)
  return true

/-- `should_batch_verify` is always false, so the batch branch is not taken. -/
def verify_commit_light (chain_id : Bytes) (vals : ValidatorSet) (block_id : BlockID)
    (height : Int) (commit : Commit) (list_vote_sign_bytes : Option (List Bytes)) :
    Option Bool := do
  expect (← verify_basic_vals_and_commit vals commit height block_id)
  let voting_power_needed := validator_set.total_voting_power vals * 2 / 3
  verify_commit_single chain_id vals commit voting_power_needed ignoreNotCommit (fun _ => true)
    false true list_vote_sign_bytes

def verify_commit_light_trusting (chain_id : Bytes) (vals : ValidatorSet) (commit : Commit)
    (trust_level : Rational) (list_vote_sign_bytes : Option (List Bytes)) : Option Bool := do
  expect (!vals.validators.isEmpty)
  expect (trust_level.denominator != 0)
  expect (!commit.signatures.isEmpty)
  let voting_power_needed :=
    validator_set.total_voting_power vals * trust_level.numerator / trust_level.denominator
  verify_commit_single chain_id vals commit voting_power_needed ignoreNotCommit (fun _ => true)
    false false list_vote_sign_bytes

end validation

/-! ## Headers -/

namespace verifier

variable [Builtins]

def header_expired (h : SignedHeader) (trusting_period now : Int) : Bool :=
  !(h.header.time + trusting_period > now)

def verify_new_header_and_vals (untrusted_header : SignedHeader) (untrusted_vals : ValidatorSet)
    (trusted_header : SignedHeader) (now max_clock_drift : Int) : Option Bool :=
  signed_header.validate_basic untrusted_header trusted_header.header.chain_id <&&>
  pure (untrusted_header.header.height > trusted_header.header.height &&
    untrusted_header.header.time > trusted_header.header.time &&
    untrusted_header.header.time < now + max_clock_drift) <&&> do
  return untrusted_header.header.validators_hash == (← validator_set.hash untrusted_vals)

def verify_adjacent (trusted_header untrusted_header : SignedHeader)
    (untrusted_vals : ValidatorSet) (trusting_period : Int) (tx_time : TxTime)
    (max_clock_drift : Int) : Option Bool :=
  pure (untrusted_header.header.height == trusted_header.header.height + 1 &&
    !header_expired trusted_header trusting_period tx_time.valid_to) <&&>
  verify_new_header_and_vals untrusted_header untrusted_vals trusted_header tx_time.valid_from
    max_clock_drift <&&>
  pure (untrusted_header.header.validators_hash ==
    trusted_header.header.next_validators_hash) <&&>
  validation.verify_commit_light trusted_header.header.chain_id untrusted_vals
    untrusted_header.commit.block_id untrusted_header.header.height untrusted_header.commit none

/-- The sign bytes of every signature of a commit, as they are passed to both checks. -/
def listVoteSignBytes (commit : Commit) (chain_id : Bytes) : Option (List Bytes) :=
  (List.range commit.signatures.length).mapM fun idx =>
    vote_sign_bytes_for_commit commit chain_id idx

def verify_non_adjacent (trusted_header : SignedHeader) (trusted_vals : ValidatorSet)
    (untrusted_header : SignedHeader) (untrusted_vals : ValidatorSet) (trusting_period : Int)
    (tx_time : TxTime) (max_clock_drift : Int) (trust_level : Rational) : Option Bool := do
  let list_vote_sign_bytes ←
    listVoteSignBytes untrusted_header.commit trusted_header.header.chain_id
  pure (untrusted_header.header.height != trusted_header.header.height + 1 &&
    !header_expired trusted_header trusting_period tx_time.valid_to) <&&>
  verify_new_header_and_vals untrusted_header untrusted_vals trusted_header tx_time.valid_from
    max_clock_drift <&&>
  validation.verify_commit_light_trusting trusted_header.header.chain_id trusted_vals
    untrusted_header.commit trust_level (some list_vote_sign_bytes) <&&>
  validation.verify_commit_light trusted_header.header.chain_id untrusted_vals
    untrusted_header.commit.block_id untrusted_header.header.height untrusted_header.commit
    (some list_vote_sign_bytes)

def verify (trusted_header : SignedHeader) (trusted_vals : ValidatorSet)
    (untrusted_header : SignedHeader) (untrusted_vals : ValidatorSet) (trusting_period : Int)
    (tx_time : TxTime) (max_clock_drift : Int) (trust_level : Rational) : Option Bool :=
  if untrusted_header.header.height ≠ trusted_header.header.height + 1 then
    verify_non_adjacent trusted_header trusted_vals untrusted_header untrusted_vals
      trusting_period tx_time max_clock_drift trust_level
  else
    verify_adjacent trusted_header untrusted_header untrusted_vals trusting_period tx_time
      max_clock_drift

end verifier

end cardano_ibc
