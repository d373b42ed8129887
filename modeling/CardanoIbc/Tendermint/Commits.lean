-- What the checks of a commit (cometbft/validation.ak) decide: a commit passes just on the power of
-- distinct validators whose signatures are valid, and sign bytes that were computed before give
-- the same answer.
import CardanoIbc.Tendermint.Quorum

namespace cardano_ibc

section Commits

variable [Builtins]

/-! ## Commits whose signatures are all valid -/

omit [Builtins] in
/-- The validator a signature is matched to: the one in its place, or the first with its
address. -/
def matchedVal (vals : ValidatorSet) (byIndex : Bool) (idx : Nat) (sig : CommitSig) :
    Option Validator :=
  if byIndex then vals.validators[idx]?
  else validator_set.get_by_address vals sig.validator_address

omit [Builtins] in
/-- The power that the signatures for the block are matched to, the first of them in this place. -/
def matchedPower (vals : ValidatorSet) (byIndex : Bool) : Nat → List CommitSig → Int
  | _, [] => 0
  | idx, sig :: sigs =>
    (if sig.block_id_flag = block_id_flag_commit then
      ((matchedVal vals byIndex idx sig).map Validator.voting_power).getD 0 else 0) +
      matchedPower vals byIndex (idx + 1) sigs

/-- Every signature for the block is valid for the validator it is matched to, and, where
signatures are matched by address, no validator is matched twice. -/
structure WellSigned (vals : ValidatorSet) (commit : Commit) (chain_id : Bytes) (byIndex : Bool) :
    Prop where
  valid : ∀ idx sig val, commit.signatures[idx]? = some sig →
    sig.block_id_flag = block_id_flag_commit → matchedVal vals byIndex idx sig = some val →
    ∃ bz, vote_sign_bytes_for_commit commit chain_id idx = some bz ∧
      verify_ed25519_signature val.pubkey bz sig.signature = true
  once : byIndex = false → ∀ idx idx' sig sig' val, commit.signatures[idx]? = some sig →
    commit.signatures[idx']? = some sig' → sig.block_id_flag = block_id_flag_commit →
    sig'.block_id_flag = block_id_flag_commit → matchedVal vals byIndex idx sig = some val →
    matchedVal vals byIndex idx' sig' = some val → idx = idx'

/-- What the fold has from a place on: it has passed, or counted everything that is matched. -/
structure CountsAll (vals : ValidatorSet) (commit : Commit) (byIndex : Bool) (start : Nat)
    (power : Int) (t : validation.Tally) : Prop where
  power : t.tallied_voting_power = power
  seen : byIndex = false → ∀ val ∈ t.seen_vals, ∃ idx sig, start ≤ idx ∧
    commit.signatures[idx]? = some sig ∧ sig.block_id_flag = block_id_flag_commit ∧
    matchedVal vals byIndex idx sig = some val

omit [Builtins] in
/-- A matched validator is found, as long as it was not seen. -/
theorem foundVal_of_matched {vals : ValidatorSet} {byIndex : Bool} {idx : Nat} {sig : CommitSig}
    {seen : List Validator} {val : Validator} (h : matchedVal vals byIndex idx sig = some val)
    (hnew : byIndex = false → val ∉ seen) :
    validation.foundVal vals byIndex idx sig seen =
      some (some (val, if byIndex then seen else val :: seen)) := by
  cases byIndex with
  | true =>
    simp only [matchedVal, if_true] at h
    simp [validation.foundVal, h]
  | false =>
    simp only [matchedVal, Bool.false_eq_true, if_false] at h
    simp [validation.foundVal, h, hnew rfl, expect]

omit [Builtins] in
theorem foundVal_of_unmatched {vals : ValidatorSet} {byIndex : Bool} {idx : Nat} {sig : CommitSig}
    {seen : List Validator} (h : matchedVal vals byIndex idx sig = none) :
    validation.foundVal vals byIndex idx sig seen = some none := by
  cases byIndex with
  | true =>
    simp only [matchedVal, if_true] at h
    simp [validation.foundVal, h]
  | false =>
    simp only [matchedVal, Bool.false_eq_true, if_false] at h
    simp [validation.foundVal, h]

theorem WellSigned.step {vals : ValidatorSet} {commit : Commit} {chain_id : Bytes} {byIndex : Bool}
    (h : WellSigned vals commit chain_id byIndex) {needed : Int} {idx : Nat} {sig : CommitSig}
    (hsig : commit.signatures[idx]? = some sig) {power : Int} {t : validation.Tally}
    (hcounts : t.partial_passed = true ∨ CountsAll vals commit byIndex (idx + 1) power t) :
    ∃ t', validation.tallySig chain_id vals commit needed validation.ignoreNotCommit
        (fun _ => true) false byIndex none idx sig t = some t' ∧
      (t'.partial_passed = true ∨ CountsAll vals commit byIndex idx
        ((if sig.block_id_flag = block_id_flag_commit then
          ((matchedVal vals byIndex idx sig).map Validator.voting_power).getD 0 else 0) + power)
        t') := by
  by_cases hpassed : t.partial_passed = true
  · refine ⟨t, ?_, .inl hpassed⟩
    rw [validation.tallySig, if_pos (by simp [hpassed])]
  have hcounts := hcounts.resolve_left hpassed
  have hlater : byIndex = false → ∀ val ∈ t.seen_vals, ∃ idx' sig', idx ≤ idx' ∧
      commit.signatures[idx']? = some sig' ∧ sig'.block_id_flag = block_id_flag_commit ∧
      matchedVal vals byIndex idx' sig' = some val := by
    intro hb val hval
    obtain ⟨idx', sig', hle, hrest⟩ := hcounts.seen hb val hval
    exact ⟨idx', sig', Nat.le_of_succ_le hle, hrest⟩
  by_cases hflag : sig.block_id_flag = block_id_flag_commit
  · have hcount : ¬ (validation.ignoreNotCommit sig || t.partial_passed) = true := by
      simp [validation.ignoreNotCommit, hflag, hpassed]
    rw [validation.tallySig, if_neg hcount, if_pos hflag]
    cases hmatch : matchedVal vals byIndex idx sig with
    | none =>
      rw [foundVal_of_unmatched hmatch]
      refine ⟨t, rfl, .inr ⟨?_, hlater⟩⟩
      rw [hcounts.power]
      simp
    | some val =>
      obtain ⟨bz, hbz, hverify⟩ := h.valid idx sig val hsig hflag hmatch
      have hnew : byIndex = false → val ∉ t.seen_vals := by
        intro hb hseen
        obtain ⟨idx', sig', hle, hsig', hflag', hmatch'⟩ := hcounts.seen hb val hseen
        have heq := h.once hb idx idx' sig sig' val hsig hsig' hflag hflag' hmatch hmatch'
        omega
      rw [foundVal_of_matched hmatch hnew]
      simp only [Option.bind_eq_bind, Option.bind_some, validation.voteSignBytes, hbz, hverify,
        expect, if_true]
      refine ⟨_, rfl, .inr ⟨?_, ?_⟩⟩
      · simp only [hcounts.power, Option.map_some, Option.getD_some]
        omega
      · intro hb v hv
        subst hb
        simp only [Bool.false_eq_true, if_false, List.mem_cons] at hv
        rcases hv with rfl | hv
        · exact ⟨idx, sig, Nat.le_refl _, hsig, hflag, hmatch⟩
        · exact hlater rfl v hv
  · have hignore : (validation.ignoreNotCommit sig || t.partial_passed) = true := by
      simp [validation.ignoreNotCommit, hflag]
    rw [validation.tallySig, if_pos hignore, if_neg hflag]
    refine ⟨t, rfl, .inr ⟨?_, hlater⟩⟩
    rw [hcounts.power]
    omega

/-- The fold over all signatures from a place on. -/
theorem WellSigned.run {vals : ValidatorSet} {commit : Commit} {chain_id : Bytes} {byIndex : Bool}
    (h : WellSigned vals commit chain_id byIndex) {needed : Int} {start : Nat}
    {sigs : List CommitSig} (hsigs : ∀ i sig, sigs[i]? = some sig →
      commit.signatures[start + i]? = some sig) :
    ∃ t, indexed_foldr start sigs
        { tallied_voting_power := 0, seen_vals := [], partial_passed := false }
        (validation.tallySig chain_id vals commit needed validation.ignoreNotCommit
          (fun _ => true) false byIndex none) = some t ∧
      (t.partial_passed = true ∨
        CountsAll vals commit byIndex start (matchedPower vals byIndex start sigs) t) := by
  induction sigs generalizing start with
  | nil => exact ⟨_, rfl, .inr ⟨rfl, by simp⟩⟩
  | cons sig sigs ih =>
    obtain ⟨t, ht, hcounts⟩ := @ih (start + 1) fun i sig' hsig' => by
      rw [Nat.add_assoc, Nat.add_comm 1 i]
      exact hsigs (i + 1) sig' hsig'
    obtain ⟨t', ht', hcounts'⟩ := h.step (hsigs 0 sig rfl) hcounts
    refine ⟨t', ?_, hcounts'⟩
    rw [indexed_foldr, ht]
    exact ht'

/-- A commit with valid signatures and enough power passes. -/
theorem WellSigned.passes {vals : ValidatorSet} {commit : Commit} {chain_id : Bytes}
    {byIndex : Bool} (h : WellSigned vals commit chain_id byIndex) {needed : Int}
    (hpower : needed < matchedPower vals byIndex 0 commit.signatures) :
    validation.verify_commit_single chain_id vals commit needed validation.ignoreNotCommit
      (fun _ => true) false byIndex none = some true := by
  have hall : ∀ i sig, commit.signatures[i]? = some sig →
      commit.signatures[0 + i]? = some sig := fun i sig hsig => by rwa [Nat.zero_add]
  obtain ⟨t, ht, hcounts⟩ := @WellSigned.run _ _ _ _ _ h needed 0 commit.signatures hall
  rw [validation.verify_commit_single, ht]
  rcases hcounts with hpassed | hcounts
  · simp [hpassed]
  · simp [hcounts.power, hpower]

omit [Builtins] in
/-- Without validators nothing is matched. -/
theorem matchedPower_of_no_validators {vals : ValidatorSet} (h : vals.validators = [])
    (byIndex : Bool) (idx : Nat) (sigs : List CommitSig) :
    matchedPower vals byIndex idx sigs = 0 := by
  induction sigs generalizing idx with
  | nil => rfl
  | cons sig sigs ih =>
    have hnone : matchedVal vals byIndex idx sig = none := by
      cases byIndex <;> simp [matchedVal, validator_set.get_by_address, h]
    rw [matchedPower, ih, hnone]
    simp

/-! ## Sign bytes that were computed before -/

omit [Builtins] in
theorem indexed_foldr_congr {α β : Type} {items : List α} {zero : β}
    {step step' : Nat → α → β → Option β} {start : Nat}
    (h : ∀ i, start ≤ i → i < start + items.length → step i = step' i) :
    indexed_foldr start items zero step = indexed_foldr start items zero step' := by
  induction items generalizing start with
  | nil => rfl
  | cons x xs ih =>
    rw [List.length_cons] at h
    rw [indexed_foldr, indexed_foldr, h start (Nat.le_refl _) (by omega),
      ih fun i hle hlt => h i (by omega) (by omega)]

omit [Builtins] in
/-- The sign bytes in each place of the list are those that would be computed there. -/
theorem voteSignBytes_precomputed {commit : Commit} {chain_id : Bytes} {bzs : List Bytes}
    (h : verifier.listVoteSignBytes commit chain_id = some bzs) {idx : Nat}
    (hidx : idx < commit.signatures.length) :
    validation.voteSignBytes chain_id commit (some bzs) idx =
      validation.voteSignBytes chain_id commit none idx := by
  have hat : ∀ {xs : List Nat} {ys : List Bytes} {i : Nat},
      xs.mapM (vote_sign_bytes_for_commit commit chain_id) = some ys →
      ys[i]? = xs[i]?.bind (vote_sign_bytes_for_commit commit chain_id) := by
    intro xs
    induction xs with
    | nil =>
      intro ys i hys
      simp only [List.mapM_nil, pure_eq_some] at hys
      simp [← hys]
    | cons x xs ih =>
      intro ys i hys
      simp only [List.mapM_cons, bind_eq_some, pure_eq_some] at hys
      obtain ⟨bz, hbz, rest, hrest, rfl⟩ := hys
      cases i with
      | zero => simp [hbz]
      | succ i => simpa using ih hrest
  rw [validation.voteSignBytes, hat h, List.getElem?_range hidx]
  rfl

theorem verify_commit_single_precomputed {commit : Commit} {chain_id : Bytes} {bzs : List Bytes}
    (h : verifier.listVoteSignBytes commit chain_id = some bzs) (vals : ValidatorSet)
    (needed : Int) (byIndex : Bool) :
    validation.verify_commit_single chain_id vals commit needed validation.ignoreNotCommit
        (fun _ => true) false byIndex (some bzs) =
      validation.verify_commit_single chain_id vals commit needed validation.ignoreNotCommit
        (fun _ => true) false byIndex none := by
  rw [validation.verify_commit_single, validation.verify_commit_single]
  rw [indexed_foldr_congr fun idx _ hidx => ?_]
  funext sig t
  rw [validation.tallySig, validation.tallySig,
    voteSignBytes_precomputed h (by rwa [Nat.zero_add] at hidx)]

/-! ## The checks as a whole -/

/-- Whatever passes by index or by address has the power of distinct validators of the list behind
it, each with a valid signature of its own for the block. A commit in which all signatures for the
block are valid and enough power is matched, none twice, does pass. And the sign bytes may be
computed before. -/
theorem commits_pass_on_a_quorum_counted_once (vals : ValidatorSet) (commit : Commit)
    (chain_id : Bytes) :
    (∀ block_id height,
      validation.verify_commit_light chain_id vals block_id height commit none = some true →
      ∃ indices : List Nat, indices.Nodup ∧
        SignedBy vals.validators commit chain_id (indices.map fun i => (i, i)) ∧
        validator_set.total_voting_power vals * 2 / 3 <
          powerOf vals.validators (indices.map fun i => (i, i))) ∧
    (∀ trust_level,
      validation.verify_commit_light_trusting chain_id vals commit trust_level none = some true →
      HasQuorum vals.validators commit chain_id
        (validator_set.total_voting_power vals * trust_level.numerator /
          trust_level.denominator)) ∧
    (commit.signatures ≠ [] → validator_set.size vals = commit.signatures.length →
      WellSigned vals commit chain_id true →
      validator_set.total_voting_power vals * 2 / 3 <
        matchedPower vals true 0 commit.signatures →
      validation.verify_commit_light chain_id vals commit.block_id commit.height commit none =
        some true) ∧
    (∀ trust_level : Rational, 0 < trust_level.denominator → commit.signatures ≠ [] →
      WellSigned vals commit chain_id false →
      validator_set.total_voting_power vals * trust_level.numerator / trust_level.denominator <
        matchedPower vals false 0 commit.signatures →
      validation.verify_commit_light_trusting chain_id vals commit trust_level none = some true) ∧
    ∀ bzs, verifier.listVoteSignBytes commit chain_id = some bzs →
      (∀ block_id height,
        validation.verify_commit_light chain_id vals block_id height commit (some bzs) =
          validation.verify_commit_light chain_id vals block_id height commit none) ∧
      ∀ trust_level,
        validation.verify_commit_light_trusting chain_id vals commit trust_level (some bzs) =
          validation.verify_commit_light_trusting chain_id vals commit trust_level none := by
  have hbytes : ∀ i bz, validation.voteSignBytes chain_id commit none i = some bz →
      vote_sign_bytes_for_commit commit chain_id i = some bz := fun _ _ hbz => hbz
  refine ⟨?_, ?_, ?_, ?_, ?_⟩
  · intro block_id height h
    simp only [validation.verify_commit_light, bind_eq_some, expect_eq_some] at h
    obtain ⟨_, -, _, -, hsingle⟩ := h
    obtain ⟨_, signers, hcounted, hpower⟩ := verify_commit_single_counts hbytes hsingle
    have hpairs : (signers.map Prod.fst).map (fun i => (i, i)) = signers := by
      rw [List.map_map]
      refine (List.map_congr_left fun p hp => ?_).trans (List.map_id signers)
      exact Prod.ext rfl (hcounted.at_index rfl p hp)
    refine ⟨signers.map Prod.fst, hcounted.signed.members_distinct, ?_⟩
    rw [hpairs]
    exact ⟨hcounted.signed, hpower⟩
  · intro trust_level h
    simp only [validation.verify_commit_light_trusting, bind_eq_some, expect_eq_some] at h
    obtain ⟨_, -, _, -, _, -, hsingle⟩ := h
    exact verify_commit_single_quorum hbytes hsingle
  · intro hsigs hsize hsigned hpower
    have hvals : vals.validators ≠ [] := by
      intro hempty
      rw [validator_set.size, hempty, List.length_nil] at hsize
      exact hsigs (List.length_eq_zero_iff.mp hsize.symm)
    simp only [validation.verify_commit_light, validation.verify_basic_vals_and_commit,
      bind_eq_some, pure_eq_some, expect_eq_some]
    exact ⟨true, ⟨(), by simpa using hvals, (), by simpa using hsigs, (), by simpa using hsize, (),
      by simp, (), by simp, rfl⟩, (), rfl, hsigned.passes hpower⟩
  · intro trust_level hdenominator hsigs hsigned hpower
    have hvals : vals.validators ≠ [] := by
      intro hempty
      rw [matchedPower_of_no_validators hempty, validator_set.total_voting_power, hempty] at hpower
      simp at hpower
    simp only [validation.verify_commit_light_trusting, bind_eq_some, expect_eq_some]
    exact ⟨(), by simpa using hvals, (), by simpa using hdenominator.ne', (), by simpa using hsigs,
      hsigned.passes hpower⟩
  · intro bzs hbzs
    refine ⟨fun block_id height => ?_, fun trust_level => ?_⟩
    · simp only [validation.verify_commit_light, verify_commit_single_precomputed hbzs]
    · simp only [validation.verify_commit_light_trusting, verify_commit_single_precomputed hbzs]

end Commits

section Sample

local instance commitsBuiltins : Builtins := sampleBuiltins

/-- The second sample validator, which has ten of eleven, is the only one that signed. -/
theorem second_sample_wellSigned (byIndex : Bool) :
    WellSigned (sampleVals 1) (sampleCommit [absentSig, secondSig]) (utf8 "c-1") byIndex := by
  have hflagged : ∀ idx sig, (sampleCommit [absentSig, secondSig]).signatures[idx]? = some sig →
      sig.block_id_flag = block_id_flag_commit → idx = 1 ∧ sig = secondSig := by
    intro idx sig hsig hflag
    match idx with
    | 0 =>
      cases hsig
      exact absurd hflag (by decide)
    | 1 =>
      cases hsig
      exact ⟨rfl, rfl⟩
    | idx + 2 => simp [sampleCommit] at hsig
  refine ⟨?_, ?_⟩
  · intro idx sig val hsig hflag hmatch
    obtain ⟨rfl, rfl⟩ := hflagged idx sig hsig hflag
    have hval : (sampleVals 1).validators[1]? = some val := by
      cases byIndex <;> exact hmatch
    refine ⟨_, rfl, ?_⟩
    cases hval
    decide +kernel
  · intro _ idx idx' sig sig' _ hsig hsig' hflag hflag' _ _
    rw [(hflagged idx sig hsig hflag).1, (hflagged idx' sig' hsig' hflag').1]

theorem the_second_sample_validator_is_a_quorum :
    validation.verify_commit_light (utf8 "c-1") (sampleVals 1)
        (sampleCommit [absentSig, secondSig]).block_id 6 (sampleCommit [absentSig, secondSig])
        none = some true ∧
      validation.verify_commit_light_trusting (utf8 "c-1") (sampleVals 1)
        (sampleCommit [absentSig, secondSig]) { numerator := 1, denominator := 3 } none =
          some true := by
  obtain ⟨-, -, hlight, htrusting, -⟩ := commits_pass_on_a_quorum_counted_once (sampleVals 1)
    (sampleCommit [absentSig, secondSig]) (utf8 "c-1")
  exact ⟨hlight (by decide) rfl (second_sample_wellSigned true) (by decide),
    htrusting _ (by decide) (by decide) (second_sample_wellSigned false) (by decide)⟩

end Sample

end cardano_ibc
