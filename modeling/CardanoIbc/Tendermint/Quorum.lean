-- The quorum law: what an accepted header says about the validators the client trusted.
-- It holds for relayed powers that are what the hash says they are, and fails for others.
import CardanoIbc.Library.Sha256
import CardanoIbc.Tendermint.Client

namespace cardano_ibc

section Law

variable [Builtins]

/-! ## Signers of a commit -/

/-- Pairs of a place in a validator list and a place in a commit: distinct validators with
distinct valid signatures over the sign bytes of the commit. -/
structure SignedBy (vals : List Validator) (commit : Commit) (chain_id : Bytes)
    (signers : List (Nat × Nat)) : Prop where
  members_distinct : (signers.map Prod.fst).Nodup
  signatures_distinct : (signers.map Prod.snd).Nodup
  valid : ∀ p ∈ signers, ∃ key sig bz,
    (vals.map Validator.pubkey)[p.1]? = some key ∧
    commit.signatures[p.2]? = some sig ∧
    sig.block_id_flag = block_id_flag_commit ∧
    vote_sign_bytes_for_commit commit chain_id p.2 = some bz ∧
    verify_ed25519_signature key bz sig.signature = true

/-- The power the signers have in a validator list. -/
def powerOf (vals : List Validator) (signers : List (Nat × Nat)) : Int :=
  (signers.map fun p => ((vals.map Validator.voting_power)[p.1]?).getD 0).sum

/-- Members of the list that signed the commit have more power in it than needed. -/
def HasQuorum (vals : List Validator) (commit : Commit) (chain_id : Bytes) (needed : Int) : Prop :=
  ∃ signers, SignedBy vals commit chain_id signers ∧ needed < powerOf vals signers

/-! ## The signature fold -/

/-- What the fold knows once the signatures from `start` on are folded. -/
structure Counted (vals : ValidatorSet) (commit : Commit) (chain_id : Bytes) (needed : Int)
    (byIndex : Bool) (start : Nat) (t : validation.Tally) (signers : List (Nat × Nat)) : Prop where
  signed : SignedBy vals.validators commit chain_id signers
  later : ∀ p ∈ signers, start ≤ p.2
  power : t.tallied_voting_power = powerOf vals.validators signers
  at_index : byIndex = true → ∀ p ∈ signers, p.1 = p.2
  seen : byIndex = false → ∀ p ∈ signers, ∃ val,
    vals.validators[p.1]? = some val ∧ val ∈ t.seen_vals
  passed : t.partial_passed = true → needed < t.tallied_voting_power

omit [Builtins] in
/-- The validator found for a signature: the one at its place, or one not seen before. -/
theorem foundVal_some {vals : ValidatorSet} {byIndex : Bool} {idx : Nat} {sig : CommitSig}
    {seen seen' : List Validator} {val : Validator}
    (h : validation.foundVal vals byIndex idx sig seen = some (some (val, seen'))) :
    ∃ m, vals.validators[m]? = some val ∧ (byIndex = true → m = idx) ∧
      (byIndex = false → val ∉ seen ∧ seen' = val :: seen) := by
  unfold validation.foundVal at h
  cases byIndex with
  | true =>
    simp only [↓reduceIte, Option.some.injEq, Option.map_eq_some_iff, Prod.mk.injEq] at h
    obtain ⟨_, hval, rfl, rfl⟩ := h
    exact ⟨idx, hval, fun _ => rfl, fun hc => Bool.noConfusion hc⟩
  | false =>
    simp only [Bool.false_eq_true, ↓reduceIte] at h
    split at h
    · cases h
    · rename_i result hfind
      simp only [bind_eq_some, pure_eq_some, expect_eq_some, Option.some.injEq,
        Prod.mk.injEq] at h
      obtain ⟨_, hnew, rfl, rfl⟩ := h
      obtain ⟨m, hm⟩ := List.mem_iff_getElem?.mp (List.mem_of_find?_eq_some hfind)
      exact ⟨m, hm, fun hc => Bool.noConfusion hc, fun _ => ⟨by simpa using hnew, rfl⟩⟩

/-- One more signer. -/
theorem Counted.add {vals : ValidatorSet} {commit : Commit} {chain_id : Bytes} {needed : Int}
    {byIndex : Bool} {idx m : Nat} {sig : CommitSig} {acc : validation.Tally}
    {signers : List (Nat × Nat)} {val : Validator} {seen' : List Validator} {bz : Bytes}
    (h : Counted vals commit chain_id needed byIndex (idx + 1) acc signers)
    (hsig : commit.signatures[idx]? = some sig)
    (hflag : sig.block_id_flag = block_id_flag_commit)
    (hval : vals.validators[m]? = some val) (hidx : byIndex = true → m = idx)
    (hnew : byIndex = false → val ∉ acc.seen_vals ∧ seen' = val :: acc.seen_vals)
    (hbz : vote_sign_bytes_for_commit commit chain_id idx = some bz)
    (hverify : verify_ed25519_signature val.pubkey bz sig.signature = true) :
    Counted vals commit chain_id needed byIndex idx
      { tallied_voting_power := acc.tallied_voting_power + val.voting_power
        seen_vals := seen'
        partial_passed := !false && acc.tallied_voting_power + val.voting_power > needed }
      ((m, idx) :: signers) := by
  have hm : m ∉ signers.map Prod.fst := by
    intro hmem
    obtain ⟨p, hp, rfl⟩ := List.mem_map.mp hmem
    cases byIndex with
    | true =>
      have := h.later p hp
      have := h.at_index rfl p hp
      have := hidx rfl
      omega
    | false =>
      obtain ⟨val', hval', hseen⟩ := h.seen rfl p hp
      rw [hval] at hval'
      cases hval'
      exact (hnew rfl).1 hseen
  have hlater : idx ∉ signers.map Prod.snd := by
    intro hmem
    obtain ⟨p, hp, rfl⟩ := List.mem_map.mp hmem
    have := h.later p hp
    omega
  refine ⟨⟨?_, ?_, ?_⟩, ?_, ?_, ?_, ?_, ?_⟩
  · exact List.nodup_cons.mpr ⟨hm, h.signed.members_distinct⟩
  · exact List.nodup_cons.mpr ⟨hlater, h.signed.signatures_distinct⟩
  · intro p hp
    rcases List.mem_cons.mp hp with rfl | hp
    · exact ⟨val.pubkey, sig, bz, by simp [hval], hsig, hflag, hbz, hverify⟩
    · exact h.signed.valid p hp
  · intro p hp
    rcases List.mem_cons.mp hp with rfl | hp
    · exact le_rfl
    · exact Nat.le_of_succ_le (h.later p hp)
  · simp only [powerOf, List.map_cons, List.sum_cons, List.getElem?_map, hval, Option.map_some,
      Option.getD_some, h.power]
    omega
  · intro hb p hp
    rcases List.mem_cons.mp hp with rfl | hp
    · exact hidx hb
    · exact h.at_index hb p hp
  · intro hb p hp
    rw [(hnew hb).2]
    rcases List.mem_cons.mp hp with rfl | hp
    · exact ⟨val, hval, List.mem_cons_self⟩
    · obtain ⟨v, hv, hs⟩ := h.seen hb p hp
      exact ⟨v, hv, List.mem_cons_of_mem _ hs⟩
  · intro hp
    simpa using hp

/-- The step of the fold keeps what the fold knows. -/
theorem tallySig_counts {vals : ValidatorSet} {commit : Commit} {chain_id : Bytes} {needed : Int}
    {byIndex : Bool} {bzs : Option (List Bytes)} {idx : Nat} {sig : CommitSig}
    {acc acc' : validation.Tally} {signers : List (Nat × Nat)}
    (hbzs : ∀ i bz, validation.voteSignBytes chain_id commit bzs i = some bz →
      vote_sign_bytes_for_commit commit chain_id i = some bz)
    (hsig : commit.signatures[idx]? = some sig)
    (h : Counted vals commit chain_id needed byIndex (idx + 1) acc signers)
    (hstep : validation.tallySig chain_id vals commit needed validation.ignoreNotCommit
      (fun _ => true) false byIndex bzs idx sig acc = some acc') :
    ∃ signers', Counted vals commit chain_id needed byIndex idx acc' signers' := by
  have hold : ∃ signers', Counted vals commit chain_id needed byIndex idx acc signers' :=
    ⟨signers, h.signed, fun p hp => Nat.le_of_succ_le (h.later p hp), h.power, h.at_index, h.seen,
      h.passed⟩
  unfold validation.tallySig at hstep
  split at hstep
  · cases hstep
    exact hold
  · rename_i hcount
    simp only [bind_eq_some] at hstep
    obtain ⟨found, hfound, hstep⟩ := hstep
    rcases found with _ | ⟨val, seen'⟩
    · simp only [pure_eq_some] at hstep
      subst hstep
      exact hold
    · simp only [bind_eq_some, expect_eq_some, pure_eq_some, ↓reduceIte] at hstep
      obtain ⟨bz, hbz, _, hverify, rfl⟩ := hstep
      obtain ⟨m, hval, hidx, hnew⟩ := foundVal_some hfound
      have hflag : sig.block_id_flag = block_id_flag_commit := by
        simp only [validation.ignoreNotCommit, Bool.or_eq_true, not_or] at hcount
        simpa using hcount.1
      exact ⟨_, h.add hsig hflag hval hidx hnew (hbzs idx bz hbz) hverify⟩

/-- A commit that passes has signers with more power than needed, in the list it was checked
against. -/
theorem verify_commit_single_counts {vals : ValidatorSet} {commit : Commit} {chain_id : Bytes}
    {needed : Int} {byIndex : Bool} {bzs : Option (List Bytes)}
    (hbzs : ∀ i bz, validation.voteSignBytes chain_id commit bzs i = some bz →
      vote_sign_bytes_for_commit commit chain_id i = some bz)
    (h : validation.verify_commit_single chain_id vals commit needed validation.ignoreNotCommit
      (fun _ => true) false byIndex bzs = some true) :
    ∃ tally signers, Counted vals commit chain_id needed byIndex 0 tally signers ∧
      needed < powerOf vals.validators signers := by
  simp only [validation.verify_commit_single, bind_eq_some, pure_eq_some] at h
  obtain ⟨tally, hfold, hpass⟩ := h
  obtain ⟨signers, hs⟩ := indexed_foldr_induction
    (fun start t => ∃ signers, Counted vals commit chain_id needed byIndex start t signers) 0 hfold
    ⟨[], ⟨List.nodup_nil, List.nodup_nil, by simp⟩, by simp, by simp [powerOf], by simp, by simp,
      by simp⟩
    (fun i sig acc acc' hsig _ hacc hstep => by
      obtain ⟨signers, hs⟩ := hacc
      exact tallySig_counts hbzs hsig hs hstep)
  refine ⟨tally, signers, hs, ?_⟩
  rw [← hs.power]
  rcases Bool.or_eq_true_iff.mp hpass with hp | hp
  · exact hs.passed hp
  · simpa using hp

theorem verify_commit_single_quorum {vals : ValidatorSet} {commit : Commit} {chain_id : Bytes}
    {needed : Int} {byIndex : Bool} {bzs : Option (List Bytes)}
    (hbzs : ∀ i bz, validation.voteSignBytes chain_id commit bzs i = some bz →
      vote_sign_bytes_for_commit commit chain_id i = some bz)
    (h : validation.verify_commit_single chain_id vals commit needed validation.ignoreNotCommit
      (fun _ => true) false byIndex bzs = some true) :
    HasQuorum vals.validators commit chain_id needed := by
  obtain ⟨_, signers, hcounted, hpower⟩ := verify_commit_single_counts hbzs h
  exact ⟨signers, hcounted.signed, hpower⟩

/-! ## From the relayed list to the trusted one -/

omit [Builtins] in
/-- Two lists a hash cannot tell apart have the same keys, place by place. -/
theorem same_keys {V G : List Validator} (h : List.Forall₂ SameEntry V G) :
    V.map Validator.pubkey = G.map Validator.pubkey := by
  induction h with
  | nil => rfl
  | cons hvw _ ih => simp [hvw.1, ih]

omit [Builtins] in
/-- They have the same powers where neither list leaves the range of 64 bits. -/
theorem same_powers {V G : List Validator} (h : List.Forall₂ SameEntry V G)
    (hV : ∀ v ∈ V, 0 ≤ v.voting_power ∧ v.voting_power < max_uint64)
    (hG : ∀ v ∈ G, 0 ≤ v.voting_power ∧ v.voting_power < max_uint64) :
    V.map Validator.voting_power = G.map Validator.voting_power := by
  induction h with
  | nil => rfl
  | @cons v w vs ws hvw _ ih =>
    have hv := hV v List.mem_cons_self
    have hw := hG w List.mem_cons_self
    have hpower := hvw.2
    rw [uint64, uint64, Int.emod_eq_of_lt hv.1 hv.2, Int.emod_eq_of_lt hw.1 hw.2] at hpower
    simp only [List.map_cons, hpower]
    rw [ih (fun v hv => hV v (List.mem_cons_of_mem _ hv))
      (fun w hw => hG w (List.mem_cons_of_mem _ hw))]

/-- A quorum is a matter of keys and powers only. -/
theorem HasQuorum.of_same {V G : List Validator} {commit : Commit} {chain_id : Bytes} {needed : Int}
    (hkeys : V.map Validator.pubkey = G.map Validator.pubkey)
    (hpowers : V.map Validator.voting_power = G.map Validator.voting_power)
    (h : HasQuorum V commit chain_id needed) : HasQuorum G commit chain_id needed := by
  obtain ⟨signers, hs, hp⟩ := h
  refine ⟨signers, ⟨hs.members_distinct, hs.signatures_distinct, ?_⟩, ?_⟩
  · rw [← hkeys]
    exact hs.valid
  · rwa [powerOf, ← hpowers]

/-- A quorum of one list is a quorum of every list with the same hash, as long as neither has
powers out of the range of 64 bits. -/
theorem HasQuorum.of_hash {V G : ValidatorSet} {hash : Bytes} {commit : Commit} {chain_id : Bytes}
    {needed : Int → Int} (hV : validator_set.hash V = some hash)
    (hG : validator_set.hash G = some hash)
    (free : CollisionFree (validator_set.hashed V ++ validator_set.hashed G))
    (powersV : ∀ v ∈ V.validators, 0 ≤ v.voting_power ∧ v.voting_power < max_uint64)
    (powersG : ∀ v ∈ G.validators, 0 ≤ v.voting_power ∧ v.voting_power < max_uint64)
    (h : HasQuorum V.validators commit chain_id (needed (validator_set.total_voting_power V))) :
    HasQuorum G.validators commit chain_id (needed (validator_set.total_voting_power G)) := by
  have hsame := validator_set.hash_binds hV hG free
  have hpowers := same_powers hsame powersV powersG
  rw [validator_set.total_voting_power_eq_sum, hpowers,
    ← validator_set.total_voting_power_eq_sum] at h
  exact h.of_same (same_keys hsame) hpowers

/-! ## Accepted headers -/

/-- A header is adjacent if it is for the block right after the trusted one. -/
def adjacent (header : Header) : Bool :=
  header.signed_header.header.height == header.trusted_height.revision_height + 1

/-- The relayed list whose powers are counted against the trusted hash. -/
def countedVals (header : Header) : ValidatorSet :=
  if adjacent header then header.validator_set else header.trusted_validators

/-- The power a header needs, out of a total. -/
def powerNeeded (cs : ClientState) (header : Header) (total : Int) : Int :=
  if adjacent header then total * 2 / 3
  else match to_rational cs.trust_level with
    | some r => total * r.numerator / r.denominator
    | none => total

omit [Builtins] in
/-- Where no sign bytes are passed down, those of the commit are taken. -/
theorem voteSignBytes_none {commit : Commit} {chain_id : Bytes} (i : Nat) (bz : Bytes)
    (hbz : validation.voteSignBytes chain_id commit none i = some bz) :
    vote_sign_bytes_for_commit commit chain_id i = some bz :=
  hbz

omit [Builtins] in
/-- The sign bytes passed down by the non-adjacent check are those of the commit. -/
theorem listVoteSignBytes_are {commit : Commit} {chain_id : Bytes} {bzs : List Bytes}
    (h : verifier.listVoteSignBytes commit chain_id = some bzs) (i : Nat) (bz : Bytes)
    (hbz : validation.voteSignBytes chain_id commit (some bzs) i = some bz) :
    vote_sign_bytes_for_commit commit chain_id i = some bz := by
  obtain ⟨j, hj, hfj⟩ := mapM_getElem? h hbz
  obtain ⟨hlt, hij⟩ := List.getElem?_eq_some_iff.mp hj
  rw [List.getElem_range] at hij
  subst hij
  exact hfj

/-- An accepted header has a quorum of the relayed list, and that list has the trusted hash. -/
theorem verify_header_counts {cs : ClientState} {tx_time : TxTime}
    {consensus_states : List (Height × ConsensusState)} {header : Header} {c : ConsensusState}
    (found : get_first consensus_states header.trusted_height = some c)
    (accepted : verify_header cs tx_time consensus_states header = some true) :
    validator_set.hash (countedVals header) = some c.next_validators_hash ∧
      HasQuorum (countedVals header).validators header.signed_header.commit cs.chain_id
        (powerNeeded cs header (validator_set.total_voting_power (countedVals header))) := by
  simp only [verify_header, found, bind_eq_some, Option.some.injEq, exists_eq_left', and_accepts,
    check_trusted_header, pure_eq_some, beq_iff_eq] at accepted
  obtain ⟨r, hr, ⟨_, htrusted, rfl⟩, -, hverify⟩ := accepted
  unfold verifier.verify at hverify
  split at hverify
  · rename_i hne
    have hadj : adjacent header = false := by simpa [adjacent, trustedHeader] using hne
    simp only [verifier.verify_non_adjacent, bind_eq_some, and_accepts] at hverify
    obtain ⟨bzs, hbzs, -, -, htrusting, -⟩ := hverify
    simp only [validation.verify_commit_light_trusting, bind_eq_some, expect_eq_some]
      at htrusting
    obtain ⟨_, -, _, -, _, -, hsingle⟩ := htrusting
    simp only [countedVals, powerNeeded, hadj, Bool.false_eq_true, ↓reduceIte, hr]
    exact ⟨htrusted, verify_commit_single_quorum (listVoteSignBytes_are hbzs) hsingle⟩
  · rename_i heq
    have hadj : adjacent header = true := by
      simpa [adjacent, trustedHeader] using not_not.mp heq
    simp only [verifier.verify_adjacent, verifier.verify_new_header_and_vals, and_accepts,
      bind_eq_some, pure_eq_some, beq_iff_eq] at hverify
    obtain ⟨-, ⟨-, -, _, hhash, rfl⟩, hnext, hlight⟩ := hverify
    simp only [validation.verify_commit_light, bind_eq_some, expect_eq_some] at hlight
    obtain ⟨_, -, _, -, hsingle⟩ := hlight
    simp only [countedVals, powerNeeded, hadj, ↓reduceIte]
    refine ⟨?_, verify_commit_single_quorum voteSignBytes_none hsingle⟩
    rw [hhash]
    exact congrArg some hnext

/-! ## The law -/

/-- An accepted header carries a quorum of the validators the client trusted, as long as each
relayed power that is counted is a number of 64 bits. -/
theorem quorum_is_bound_to_the_trusted_validators {cs : ClientState} {tx_time : TxTime}
    {consensus_states : List (Height × ConsensusState)} {header : Header} {c : ConsensusState}
    {G : ValidatorSet}
    (found : get_first consensus_states header.trusted_height = some c)
    (accepted : verify_header cs tx_time consensus_states header = some true)
    (trusted : validator_set.hash G = some c.next_validators_hash)
    (powers : ∀ v ∈ G.validators, 1 ≤ v.voting_power ∧ v.voting_power ≤ 2 ^ 63 - 1)
    (free : CollisionFree (validator_set.hashed (countedVals header) ++ validator_set.hashed G))
    (inRange : ∀ v ∈ (countedVals header).validators,
      0 ≤ v.voting_power ∧ v.voting_power < max_uint64) :
    HasQuorum G.validators header.signed_header.commit cs.chain_id
      (powerNeeded cs header (validator_set.total_voting_power G)) := by
  obtain ⟨hhash, hquorum⟩ := verify_header_counts found accepted
  refine hquorum.of_hash hhash trusted free inRange fun v hv => ?_
  have := powers v hv
  simp only [max_uint64]
  omega

end Law

/-! ## A sample chain -/

section Sample

/-- Two validators of a sample chain, with the power of the first one left open. -/
def sampleVals (power : Int) : ValidatorSet :=
  let first : Validator :=
    { address := List.replicate 20 1
      pubkey := bigEndian 32 0x8a88e3dd7409f195fd52db2d3cba5d72ca6709bf1d94121bf3748801b40f6f5c
      voting_power := power
      proposer_priority := 0 }
  let second : Validator :=
    { address := List.replicate 20 2
      pubkey := bigEndian 32 0x8139770ea87d175f56a35466c34c7ecccb8d8a91b4ee37a25df60f5b8fc9b394
      voting_power := 10
      proposer_priority := 0 }
  { validators := [first, second], proposer := first, total_voting_power := power + 10 }

/-- The hash of the sample validators, with a power of 1 or of 1 + 2^64. -/
def sampleValsHash : Bytes :=
  bigEndian 32 0x03ab53e4689c8dd553d75c3a10b1de9c4611bd358c7ff9d0a4300981d5013132

def sampleTmHeader : TmHeader :=
  { null_tm_header with
    version := { block := 11, app := 0 }
    chain_id := utf8 "c-1"
    height := 6
    time := 150
    validators_hash := sampleValsHash
    next_validators_hash := sampleValsHash
    app_hash := utf8 "forged" }

def sampleCommit (signatures : List CommitSig) : Commit :=
  { height := 6
    round := 0
    block_id :=
      { hash := bigEndian 32 0xa7af6aba3f4d6172ad205301af50aa3231dbe86d3b45104b2f128eda33bbd56b
        part_set_header := { total := 1, hash := List.replicate 32 7 } }
    signatures := signatures }

def absentSig : CommitSig :=
  { block_id_flag := 1, validator_address := [], timestamp := 0, signature := [] }

/-- The signature of the first validator over the sample block. -/
def firstSig : CommitSig :=
  { block_id_flag := 2
    validator_address := List.replicate 20 1
    timestamp := 150
    signature := bigEndian 64 0x381c5d18159cd24c2d48788191ab535c600126aff2c35f3fb48ce2cd3551e233ec9c6185c79c5303e915768173312522d9366ab64a7e14c84d60b82a85924b0b }

/-- The signature of the second validator over the sample block. -/
def secondSig : CommitSig :=
  { block_id_flag := 2
    validator_address := List.replicate 20 2
    timestamp := 160
    signature := bigEndian 64 0x8a1dca22465b16467a0dc30c0ab7aa4f984650b4d3a4f67a642a91ea3e31b6668867553f066f05db434f27280628b154c255e709b7022d61b72dad25dc2bdf01 }

/-- The key, message and signature of the two valid signatures of the sample. -/
def sampleSignatures : List (Bytes × Bytes × Bytes) :=
  [(bigEndian 32 0x8a88e3dd7409f195fd52db2d3cba5d72ca6709bf1d94121bf3748801b40f6f5c,
    bigEndian 96 0x5f080211060000000000000022480a20a7af6aba3f4d6172ad205301af50aa3231dbe86d3b45104b2f128eda33bbd56b12240801122007070707070707070707070707070707070707070707070707070707070707072a031096013203632d31,
    firstSig.signature),
   (bigEndian 32 0x8139770ea87d175f56a35466c34c7ecccb8d8a91b4ee37a25df60f5b8fc9b394,
    bigEndian 96 0x5f080211060000000000000022480a20a7af6aba3f4d6172ad205301af50aa3231dbe86d3b45104b2f128eda33bbd56b12240801122007070707070707070707070707070707070707070707070707070707070707072a0310a0013203632d31,
    secondSig.signature)]

/-- SHA-256 as it is, and Ed25519 on the signatures of the sample. The sample calls no other
hash. -/
local instance sampleBuiltins : Builtins where
  sha2_256 := sha256.digest
  sha3_256 := sha256.digest
  blake2b_224 := sha256.digest
  blake2b_256 := sha256.digest
  verify_ed25519_signature key msg sig := sampleSignatures.contains (key, msg, sig)
  sha2_256_length := sha256.length_digest
  sha2_256_empty := sha256.digest_nil

def sampleClient : ClientState :=
  { chain_id := utf8 "c-1"
    trust_level := { numerator := 1, denominator := 3 }
    trusting_period := 1000
    unbonding_period := 2000
    max_clock_drift := 10
    frozen_height := height.zero_height
    latest_height := { revision_number := 1, revision_height := 5 }
    proof_specs := [iavl_spec, tendermint_spec] }

def sampleConsensus : ConsensusState :=
  { timestamp := 100, next_validators_hash := sampleValsHash, root := { hash := [] } }

/-- A header for the block after the trusted one. -/
def sampleHeader (vals : ValidatorSet) (signatures : List CommitSig) : Header :=
  { signed_header := { header := sampleTmHeader, commit := sampleCommit signatures }
    validator_set := vals
    trusted_height := sampleClient.latest_height
    trusted_validators := vals }

def sampleStates : List (Height × ConsensusState) := [(sampleClient.latest_height, sampleConsensus)]

def sampleTime : TxTime := { valid_from := 200, valid_to := 300 }

/-- The second sample validator signs, and has ten of the eleven. -/
theorem quorum_of_the_second_sample_validator :
    HasQuorum (sampleVals 1).validators (sampleCommit [absentSig, secondSig])
      sampleClient.chain_id 7 :=
  @quorum_is_bound_to_the_trusted_validators _ sampleClient sampleTime sampleStates
    (sampleHeader (sampleVals 1) [absentSig, secondSig]) sampleConsensus (sampleVals 1)
    (by decide +kernel) (by decide +kernel) (by decide +kernel) (by decide +kernel)
    (by decide +kernel) (by decide +kernel)

/-- A commit signed only by the first sample validator. -/
theorem only_the_first_signed (signers : List (Nat × Nat))
    (h : SignedBy (sampleVals 1).validators (sampleCommit [firstSig, absentSig])
      sampleClient.chain_id signers) : powerOf (sampleVals 1).validators signers ≤ 1 := by
  have hall : ∀ p ∈ signers, p = (0, 0) := by
    rintro ⟨m, i⟩ hp
    obtain ⟨key, sig, bz, hkey, hsig, hflag, -, hverify⟩ := h.valid _ hp
    have hi : i = 0 := by
      match i with
      | 0 => rfl
      | 1 =>
        simp only [sampleCommit, List.getElem?_cons_succ, List.getElem?_cons_zero,
          Option.some.injEq] at hsig
        subst hsig
        cases hflag
      | i + 2 => simp [sampleCommit] at hsig
    subst hi
    simp only [sampleCommit, List.getElem?_cons_zero, Option.some.injEq] at hsig
    subst hsig
    have hmem : (key, firstSig.signature) ∈ sampleSignatures.map fun t => (t.1, t.2.2) :=
      List.mem_map.mpr ⟨_, List.contains_iff_mem.mp hverify, rfl⟩
    match m with
    | 0 => rfl
    | 1 =>
      simp only [sampleVals, List.map_cons, List.getElem?_cons_succ, List.getElem?_cons_zero,
        Option.some.injEq] at hkey
      subst hkey
      exact absurd hmem (by decide +kernel)
    | m + 2 => simp [sampleVals] at hkey
  rcases signers with _ | ⟨p, _ | ⟨q, rest⟩⟩
  · decide
  · obtain rfl := hall p (by simp)
    decide
  · have hd := h.members_distinct
    obtain rfl := hall p (by simp)
    obtain rfl := hall q (by simp)
    simp at hd

/-- The first sample validator has one of the eleven. With a relayed power of 1 + 2^64 its
signature alone gets a header accepted. -/
theorem a_wrapped_power_passes_alone :
    verify_header sampleClient sampleTime sampleStates
        (sampleHeader (sampleVals (1 + 2 ^ 64)) [firstSig, absentSig]) = some true ∧
      validator_set.hash (sampleVals 1) =
        some sampleConsensus.next_validators_hash ∧
      (∀ v ∈ (sampleVals 1).validators, 1 ≤ v.voting_power ∧ v.voting_power ≤ 2 ^ 63 - 1) ∧
      ¬ HasQuorum (sampleVals 1).validators (sampleCommit [firstSig, absentSig])
        sampleClient.chain_id (powerNeeded sampleClient
          (sampleHeader (sampleVals (1 + 2 ^ 64)) [firstSig, absentSig])
          (validator_set.total_voting_power (sampleVals 1))) := by
  refine ⟨by decide +kernel, by decide +kernel, by decide +kernel, ?_⟩
  rintro ⟨signers, hs, hp⟩
  have hle := only_the_first_signed signers hs
  have hneeded : powerNeeded sampleClient
      (sampleHeader (sampleVals (1 + 2 ^ 64)) [firstSig, absentSig])
      (validator_set.total_voting_power (sampleVals 1)) = 7 := by decide +kernel
  omega

end Sample

end cardano_ibc
