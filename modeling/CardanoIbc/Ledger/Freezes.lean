-- When a client freezes: never on headers of one honest chain, and on a Misbehaviour message only
-- if two headers conflict that the validators of the chain have signed.
import CardanoIbc.Ledger.Clients

namespace cardano_ibc

open validator_utils

/-! ## Honest chains -/

/-- The height a header is known by: the revision of its chain, and its place in it. -/
def heightOf (h : TmHeader) : Option Height := do
  let revision ← height.parse_chain_id h.chain_id
  return { revision_number := revision, revision_height := h.height }

theorem height.eq_of_compare_eq {a b : Height} (h : compare a b = .eq) : a = b := by
  have hle : compare a b ≠ .gt := by
    rw [h]
    decide
  have hge : compare b a ≠ .gt := by
    rw [← compare_ne_lt_iff, h]
    decide
  rw [compare_ne_gt_iff] at hle hge
  cases a
  cases b
  simp only [Height.mk.injEq]
  simp only at hle hge
  omega

/-- What a client keeps of a header. -/
def consensusOf (h : TmHeader) : ConsensusState :=
  { timestamp := h.time
    next_validators_hash := h.next_validators_hash
    root := { hash := h.app_hash } }

theorem header.get_height_eq (h : Header) :
    header.get_height h = heightOf h.signed_header.header :=
  rfl

theorem header.consensus_state_eq (h : Header) :
    header.consensus_state h = consensusOf h.signed_header.header :=
  rfl

/-- The headers of a chain that has one header at a height, and whose time goes forward. -/
structure HonestChain where
  headers : Set TmHeader
  unique : ∀ a ∈ headers, ∀ b ∈ headers, ∀ h, heightOf a = some h → heightOf b = some h → a = b
  forward : ∀ a ∈ headers, ∀ b ∈ headers, ∀ ha hb, heightOf a = some ha → heightOf b = some hb →
    height.compare ha hb = .lt → a.time < b.time

namespace HonestChain

variable (chain : HonestChain)

/-- Each of these states is the state of a header of the chain. -/
def Stores (states : List (Height × ConsensusState)) : Prop :=
  ∀ e ∈ states, ∃ a ∈ chain.headers, heightOf a = some e.1 ∧ e.2 = consensusOf a

/-- The headers of a message are headers of the chain. -/
def Shows : ClientMessage → Prop
  | .HeaderCase h => h.signed_header.header ∈ chain.headers
  | .MisbehaviourCase m => m.header1.signed_header.header ∈ chain.headers ∧
      m.header2.signed_header.header ∈ chain.headers

end HonestChain

/-! ## The states next to a header -/

theorem mem_insertSorted {α : Type} {compare : α → α → Ordering} {e x : α} {xs : List α}
    (h : x ∈ insertSorted compare e xs) : x = e ∨ x ∈ xs := by
  induction xs with
  | nil => simpa [insertSorted] using h
  | cons y ys ih =>
    unfold insertSorted at h
    split at h
    · simpa using h
    · rcases List.mem_cons.mp h with rfl | h
      · exact .inr List.mem_cons_self
      · rcases ih h with rfl | h
        · exact .inl rfl
        · exact .inr (List.mem_cons_of_mem _ h)

theorem mem_of_mem_sort {α : Type} {compare : α → α → Ordering} {x : α} {xs : List α}
    (h : x ∈ sort compare xs) : x ∈ xs := by
  induction xs with
  | nil => cases h
  | cons y ys ih =>
    rw [sort, List.foldr_cons, ← sort] at h
    rcases mem_insertSorted h with rfl | h
    · exact List.mem_cons_self
    · exact List.mem_cons_of_mem _ (ih h)

theorem get_prev_consensus_state_spec {states : List (Height × ConsensusState)} {h : Height}
    {c : ConsensusState} (hprev : get_prev_consensus_state states h = some c) :
    ∃ e ∈ states, height.compare e.1 h = .lt ∧ e.2 = c := by
  induction states with
  | nil => cases hprev
  | cons e states ih =>
    rw [get_prev_consensus_state, List.foldr_cons, ← get_prev_consensus_state] at hprev
    by_cases hhere : get_prev_consensus_state states h = none ∧ height.compare e.1 h = .lt
    · rw [if_pos hhere] at hprev
      exact ⟨e, List.mem_cons_self, hhere.2, Option.some.inj hprev⟩
    · rw [if_neg hhere] at hprev
      obtain ⟨e', hmem, hspec⟩ := ih hprev
      exact ⟨e', List.mem_cons_of_mem _ hmem, hspec⟩

theorem get_next_consensus_state_spec {states : List (Height × ConsensusState)} {h : Height}
    {c : ConsensusState} (hnext : get_next_consensus_state states h = some c) :
    ∃ e ∈ states, height.compare e.1 h = .gt ∧ e.2 = c := by
  -- the fold runs from the left, so the state it has got to is carried along
  have hfold : ∀ (states : List (Height × ConsensusState)) (acc : Option ConsensusState),
      states.foldl (fun acc p =>
        if acc = none ∧ height.compare p.1 h = .gt then some p.2 else acc) acc = some c →
      acc = some c ∨ ∃ e ∈ states, height.compare e.1 h = .gt ∧ e.2 = c := by
    intro states
    induction states with
    | nil => exact fun acc hacc => .inl hacc
    | cons e states ih =>
      intro acc hacc
      rw [List.foldl_cons] at hacc
      rcases ih _ hacc with hhere | ⟨e', hmem, hspec⟩
      · by_cases hgt : acc = none ∧ height.compare e.1 h = .gt
        · rw [if_pos hgt] at hhere
          exact .inr ⟨e, List.mem_cons_self, hgt.2, Option.some.inj hhere⟩
        · rw [if_neg hgt] at hhere
          exact .inl hhere
      · exact .inr ⟨e', List.mem_cons_of_mem _ hmem, hspec⟩
  rcases hfold states none hnext with hnone | hspec
  · cases hnone
  · exact hspec

/-! ## What is found in the headers of an honest chain -/

namespace HonestChain

variable {chain : HonestChain}

/-- A header of the chain is not in conflict with what a client has of the chain. -/
theorem header_agrees {states : List (Height × ConsensusState)} (hstores : chain.Stores states)
    {h : Header} (hshown : h.signed_header.header ∈ chain.headers) :
    check_for_misbehaviour (.HeaderCase h) states ≠ some true := by
  intro hfound
  simp only [check_for_misbehaviour, bind_eq_some, header.get_height_eq] at hfound
  obtain ⟨at_height, hheight, hfound⟩ := hfound
  cases hfirst : get_first states at_height with
  | some known =>
    obtain ⟨a, ha, haheight, hknown⟩ := hstores _ (mem_of_get_first hfirst)
    have hsame := chain.unique a ha _ hshown at_height haheight hheight
    have heq : known = header.consensus_state h := by
      rw [header.consensus_state_eq, ← hsame]
      exact hknown
    simp [hfirst, heq] at hfound
  | none =>
    have hprev : ∀ c, get_prev_consensus_state
        (sort (fun e1 e2 => height.compare e1.1 e2.1) states) at_height = some c →
        c.timestamp < header.get_time h := by
      intro c hc
      obtain ⟨e, hmem, hlt, rfl⟩ := get_prev_consensus_state_spec hc
      obtain ⟨a, ha, haheight, hstate⟩ := hstores e (mem_of_mem_sort hmem)
      rw [hstate]
      exact chain.forward a ha _ hshown _ _ haheight hheight hlt
    have hnext : ∀ c, get_next_consensus_state
        (sort (fun e1 e2 => height.compare e1.1 e2.1) states) at_height = some c →
        header.get_time h < c.timestamp := by
      intro c hc
      obtain ⟨e, hmem, hgt, rfl⟩ := get_next_consensus_state_spec hc
      obtain ⟨a, ha, haheight, hstate⟩ := hstores e (mem_of_mem_sort hmem)
      rw [hstate]
      exact chain.forward _ hshown a ha _ _ hheight haheight (height.compare_eq_lt_iff.mpr hgt)
    have hnot : ∀ x y : Bool, x = false → y = false →
        (if (!x) = true then y else x) = false := by decide
    simp only [hfirst, pure_eq_some] at hfound
    rw [hnot] at hfound
    · cases hfound
    · split
      · rename_i c hc
        simpa using hprev c hc
      · rfl
    · split
      · rename_i c hc
        simpa using hnext c hc
      · rfl

end HonestChain

/-! ## The headers of a Misbehaviour message -/

section Misbehaviours

variable [Builtins]

/-- What is checked of a header by itself: its commit is for it, and is signed by most of the
validators it names. -/
theorem misbehaviour.validate_header_basic_spec {h : Header} {chain_id : Bytes}
    (hvalid : misbehaviour.validate_header_basic h chain_id = some true) :
    h.signed_header.header.chain_id = chain_id ∧
      tm_header.hash h.signed_header.header = some h.signed_header.commit.block_id.hash ∧
      validator_set.hash h.validator_set = some h.signed_header.header.validators_hash ∧
      HasQuorum h.validator_set.validators h.signed_header.commit chain_id
        (validator_set.total_voting_power h.validator_set * 2 / 3) := by
  simp only [misbehaviour.validate_header_basic, bind_eq_some, expect_eq_some, beq_iff_eq,
    misbehaviour.valid_commit, validation.verify_commit_light] at hvalid
  obtain ⟨_, hsigned, -, rfl, _, hvals, -, rfl, _, -, -, -, hlight⟩ := hvalid
  simp only [signed_header.validate_basic, bind_eq_some, expect_eq_some, pure_eq_some,
    beq_iff_eq] at hsigned
  obtain ⟨-, -, -, -, -, -, -, hchain, -, -, _, hhash, -, rfl, -⟩ := hsigned
  exact ⟨hchain, hhash, hvals, verify_commit_single_quorum voteSignBytes_none hlight⟩

theorem misbehaviour.validate_basic_spec {m : Misbehaviour}
    (hvalid : misbehaviour.validate_basic m = some true) :
    ∃ height1 height2, heightOf m.header1.signed_header.header = some height1 ∧
      heightOf m.header2.signed_header.header = some height2 ∧
      height.compare height1 height2 ≠ .lt ∧
      misbehaviour.validate_header_basic m.header1 m.header1.signed_header.header.chain_id =
        some true ∧
      misbehaviour.validate_header_basic m.header2 m.header1.signed_header.header.chain_id =
        some true := by
  simp only [misbehaviour.validate_basic, bind_eq_some, expect_eq_some, pure_eq_some,
    bne_iff_ne, header.get_height_eq] at hvalid
  obtain ⟨-, -, -, -, -, -, -, -, -, -, -, -, -, -, height1, hheight1, height2, hheight2, -, hord,
    _, hfirst, -, rfl, _, hsecond, -, rfl, -⟩ := hvalid
  exact ⟨height1, height2, hheight1, hheight2, hord, hfirst, hsecond⟩

/-- What is checked of a header against the state it is trusted from. -/
theorem check_misbehaviour_header_spec {cs : ClientState} {c : ConsensusState} {h : Header}
    {now : Int} (hchecked : check_misbehaviour_header cs c h now = some true) :
    validator_set.hash h.trusted_validators = some c.next_validators_hash ∧
      ∃ r, to_rational cs.trust_level = some r ∧
        HasQuorum h.trusted_validators.validators h.signed_header.commit cs.chain_id
          (validator_set.total_voting_power h.trusted_validators * r.numerator /
            r.denominator) := by
  simp only [check_misbehaviour_header, check_trusted_header, bind_eq_some, expect_eq_some,
    pure_eq_some, validation.verify_commit_light_trusting] at hchecked
  obtain ⟨_, ⟨_, hhash, rfl⟩, -, heq, -, -, r, hr, -, -, -, -, -, -, htrusting⟩ := hchecked
  rw [beq_iff_eq] at heq
  exact ⟨by rw [hhash, heq], r, hr, verify_commit_single_quorum voteSignBytes_none htrusting⟩

theorem verify_misbehaviour_spec {cs : ClientState} {tx_time : TxTime}
    {states : List (Height × ConsensusState)} {m : Misbehaviour}
    (hverified : verify_misbehaviour cs tx_time states m = some true) :
    misbehaviour.validate_basic m = some true ∧
      (∃ c, get_first states m.header1.trusted_height = some c ∧
        check_misbehaviour_header cs c m.header1 tx_time.valid_to = some true) ∧
      ∃ c, get_first states m.header2.trusted_height = some c ∧
        check_misbehaviour_header cs c m.header2 tx_time.valid_to = some true := by
  simp only [verify_misbehaviour, bind_eq_some, expect_eq_some, pure_eq_some] at hverified
  obtain ⟨_, hvalid, -, rfl, c1, hc1, c2, hc2, _, h1, -, rfl, _, h2, -, rfl, -⟩ := hverified
  exact ⟨hvalid, ⟨c1, hc1, h1⟩, c2, hc2, h2⟩

/-- Two headers of an honest chain are not in conflict with one another. -/
theorem HonestChain.misbehaviour_agrees {chain : HonestChain}
    {states : List (Height × ConsensusState)} {m : Misbehaviour}
    (hshown : chain.Shows (.MisbehaviourCase m))
    (hvalid : misbehaviour.validate_basic m = some true) :
    check_for_misbehaviour (.MisbehaviourCase m) states ≠ some true := by
  obtain ⟨height1, height2, hheight1, hheight2, hord, hfirst, hsecond⟩ :=
    misbehaviour.validate_basic_spec hvalid
  intro hfound
  simp only [check_for_misbehaviour, header.get_height_eq, hheight1, hheight2,
    Option.bind_eq_bind, Option.bind_some] at hfound
  cases hcompare : height.compare height1 height2 with
  | lt => exact hord hcompare
  | eq =>
    -- one height, so one header, and each commit is for its header
    have hsame := chain.unique _ hshown.1 _ hshown.2 height1 hheight1
      (by rw [hheight2, height.eq_of_compare_eq hcompare])
    have hhash1 := (misbehaviour.validate_header_basic_spec hfirst).2.1
    have hhash2 := (misbehaviour.validate_header_basic_spec hsecond).2.1
    rw [hsame, hhash2, Option.some.injEq] at hhash1
    simp [hcompare, hhash1] at hfound
  | gt =>
    have htime := chain.forward _ hshown.2 _ hshown.1 _ _ hheight2 hheight1
      (height.compare_eq_lt_iff.mpr hcompare)
    simp [hcompare] at hfound
    omega

/-! ## Freezes -/

/-- The script of a client accepts a transaction that leaves the client frozen on this message. -/
structure AcceptsFreeze (nft : PolicyId) (reference : OutputReference) (tx : Transaction)
    (client : ClientDatum) (msg : ClientMessage) : Prop where
  accepted : spend_client.spend nft (some client) (.UpdateClient msg) reference tx = some true
  freezes : ∃ spent out updated, find_input tx.inputs reference = some spent ∧
    find_unique_continuation_output spent.output tx.outputs client.token = some out ∧
    out.datum = .InlineDatum (.client updated) ∧
    height.is_zero updated.state.client_state.frozen_height = false

variable {nft : PolicyId} {reference : OutputReference} {tx : Transaction} {client : ClientDatum}
  {msg : ClientMessage}

/-- A freeze comes of misbehaviour, found in a message that was verified. -/
theorem AcceptsFreeze.found (h : AcceptsFreeze nft reference tx client msg) :
    ∃ tx_time, verify_client_message client.state.client_state tx_time
        client.state.consensus_states msg = some true ∧
      check_for_misbehaviour msg client.state.consensus_states = some true := by
  obtain ⟨msg', spent, out, updated, valid_from, valid_to, found, hmsg, hspent, -, hout, hdatum,
    hfrom, hto, hactive, hverified, hfound, -, htakes⟩ := spend_client.spend_judges h.accepted
  cases hmsg
  refine ⟨_, hverified, ?_⟩
  cases found with
  | true => exact hfound
  | false =>
    -- a header that is taken in leaves the frozen height as it was in the active client
    obtain ⟨spent', out', updated', hspent', hout', hdatum', hfrozen⟩ := h.freezes
    rw [hspent, Option.some.injEq] at hspent'
    subst hspent'
    rw [hout, Option.some.injEq] at hout'
    subst hout'
    rw [hdatum] at hdatum'
    cases hdatum'
    obtain ⟨header, rfl, hupdate⟩ := htakes rfl
    simp only [client_datum.update_state, bind_eq_some, expect_eq_some, pure_eq_some,
      Bool.and_eq_true, beq_iff_eq] at hupdate
    obtain ⟨_, -, -, -, -, rfl⟩ := hupdate
    simp only [client_datum.expectedState, clientIsActive_unfrozen hactive] at hfrozen
    cases hfrozen

/-! ## What an accepted freeze shows -/

/-- Voting powers as a chain has them. -/
def PowersInRange (vals : ValidatorSet) : Prop :=
  ∀ v ∈ vals.validators, 0 ≤ v.voting_power ∧ v.voting_power ≤ 2 ^ 63 - 1

instance (vals : ValidatorSet) : Decidable (PowersInRange vals) :=
  inferInstanceAs (Decidable (∀ v ∈ vals.validators,
    0 ≤ v.voting_power ∧ v.voting_power ≤ 2 ^ 63 - 1))

omit [Builtins] in
theorem PowersInRange.below {vals : ValidatorSet} (h : PowersInRange vals) :
    ∀ v ∈ vals.validators, 0 ≤ v.voting_power ∧ v.voting_power < max_uint64 := by
  intro v hv
  have := h v hv
  simp only [max_uint64]
  omega

/-- The validators a hash stands for have signed a commit: a set with the hash was supplied, and
of every set with the hash members have signed that have more than is needed of its power. -/
structure CommittedSigned (hash : Bytes) (supplied : ValidatorSet) (commit : Commit)
    (chain_id : Bytes) (needed : Int → Int) : Prop where
  committed : validator_set.hash supplied = some hash
  signed : ∀ G : ValidatorSet, validator_set.hash G = some hash → PowersInRange G →
    CollisionFree (validator_set.hashed supplied ++ validator_set.hashed G) →
    HasQuorum G.validators commit chain_id (needed (validator_set.total_voting_power G))

theorem CommittedSigned.of_quorum {hash : Bytes} {supplied : ValidatorSet} {commit : Commit}
    {chain_id : Bytes} {needed : Int → Int} (hhash : validator_set.hash supplied = some hash)
    (hpowers : PowersInRange supplied)
    (hquorum : HasQuorum supplied.validators commit chain_id
      (needed (validator_set.total_voting_power supplied))) :
    CommittedSigned hash supplied commit chain_id needed :=
  ⟨hhash, fun _ hG hpowersG free =>
    hquorum.of_hash hhash hG free hpowers.below hpowersG.below⟩

/-- What a header in a Misbehaviour message stands on: its commit is for it, and is signed by the
validators the header names and by those the client trusts at its trusted height. -/
structure Attested (cs : ClientState) (states : List (Height × ConsensusState)) (h : Header) :
    Prop where
  binds : tm_header.hash h.signed_header.header = some h.signed_header.commit.block_id.hash
  own : CommittedSigned h.signed_header.header.validators_hash h.validator_set
    h.signed_header.commit h.signed_header.header.chain_id fun total => total * 2 / 3
  trusted : ∃ c r, get_first states h.trusted_height = some c ∧
    to_rational cs.trust_level = some r ∧
    CommittedSigned c.next_validators_hash h.trusted_validators h.signed_header.commit
      cs.chain_id fun total => total * r.numerator / r.denominator

theorem Attested.of_checks {cs : ClientState} {states : List (Height × ConsensusState)}
    {h : Header} {chain_id : Bytes} {c : ConsensusState} {now : Int}
    (hvalid : misbehaviour.validate_header_basic h chain_id = some true)
    (hfirst : get_first states h.trusted_height = some c)
    (hchecked : check_misbehaviour_header cs c h now = some true)
    (hpowers : PowersInRange h.validator_set) (htrusted : PowersInRange h.trusted_validators) :
    Attested cs states h := by
  obtain ⟨rfl, hbinds, hvals, hquorum⟩ := misbehaviour.validate_header_basic_spec hvalid
  obtain ⟨hhash, r, hr, htrusting⟩ := check_misbehaviour_header_spec hchecked
  refine ⟨hbinds, ?_, c, r, hfirst, hr, ?_⟩
  · exact .of_quorum hvals hpowers hquorum
  · exact .of_quorum hhash htrusted htrusting

/-- Two headers that one chain cannot have: they share a height and have different hashes, or the
higher one is not later. -/
def Conflict (a b : TmHeader) : Prop :=
  ∃ ha hb, heightOf a = some ha ∧ heightOf b = some hb ∧
    ((ha = hb ∧ tm_header.hash a ≠ tm_header.hash b) ∨
      (height.compare ha hb = .gt ∧ a.time ≤ b.time))

theorem Conflict.of_found {states : List (Height × ConsensusState)} {m : Misbehaviour}
    (hvalid : misbehaviour.validate_basic m = some true)
    (hfound : check_for_misbehaviour (.MisbehaviourCase m) states = some true) :
    Conflict m.header1.signed_header.header m.header2.signed_header.header := by
  obtain ⟨height1, height2, hheight1, hheight2, hord, hfirst, hsecond⟩ :=
    misbehaviour.validate_basic_spec hvalid
  refine ⟨height1, height2, hheight1, hheight2, ?_⟩
  simp only [check_for_misbehaviour, header.get_height_eq, hheight1, hheight2,
    Option.bind_eq_bind, Option.bind_some] at hfound
  cases hcompare : height.compare height1 height2 with
  | lt => exact absurd hcompare hord
  | eq =>
    left
    refine ⟨height.eq_of_compare_eq hcompare, ?_⟩
    rw [(misbehaviour.validate_header_basic_spec hfirst).2.1,
      (misbehaviour.validate_header_basic_spec hsecond).2.1]
    simpa [hcompare] using hfound
  | gt =>
    right
    exact ⟨rfl, by simpa [hcompare] using hfound⟩

theorem an_honest_chain_never_freezes_its_client (nft : PolicyId) (reference : OutputReference)
    (tx : Transaction) (client : ClientDatum) :
    (∀ (chain : HonestChain) (msg : ClientMessage), chain.Stores client.state.consensus_states →
      chain.Shows msg → ¬ AcceptsFreeze nft reference tx client msg) ∧
    ∀ m : Misbehaviour, AcceptsFreeze nft reference tx client (.MisbehaviourCase m) →
      PowersInRange m.header1.validator_set → PowersInRange m.header1.trusted_validators →
      PowersInRange m.header2.validator_set → PowersInRange m.header2.trusted_validators →
      Attested client.state.client_state client.state.consensus_states m.header1 ∧
      Attested client.state.client_state client.state.consensus_states m.header2 ∧
      Conflict m.header1.signed_header.header m.header2.signed_header.header := by
  constructor
  · intro chain msg hstores hshown hfreeze
    obtain ⟨tx_time, hverified, hfound⟩ := hfreeze.found
    cases msg with
    | HeaderCase h => exact chain.header_agrees hstores hshown hfound
    | MisbehaviourCase m =>
      obtain ⟨hvalid, -, -⟩ := verify_misbehaviour_spec hverified
      exact chain.misbehaviour_agrees hshown hvalid hfound
  · intro m hfreeze hown1 htrusted1 hown2 htrusted2
    obtain ⟨tx_time, hverified, hfound⟩ := hfreeze.found
    obtain ⟨hvalid, ⟨c1, hc1, h1⟩, c2, hc2, h2⟩ := verify_misbehaviour_spec hverified
    obtain ⟨_, _, -, -, -, hfirst, hsecond⟩ := misbehaviour.validate_basic_spec hvalid
    exact ⟨.of_checks hfirst hc1 h1 hown1 htrusted1, .of_checks hsecond hc2 h2 hown2 htrusted2,
      .of_found hvalid hfound⟩

end Misbehaviours

section Sample

local instance freezesBuiltins : Builtins := watchedBuiltins

theorem the_sample_freezes :
    AcceptsFreeze sampleBridge.host_state_nft watchedInput.output_reference freezeTx watchedClient
      (.MisbehaviourCase { client_id := utf8 "07-tendermint-0"
                           header1 := nextHeader
                           header2 := conflictingHeader }) :=
  ⟨by decide +kernel, watchedInput, watchedClientOutput 9600000 frozenClient, frozenClient,
    by decide +kernel, by decide +kernel, rfl, rfl⟩

/-- The header the watched client was created from. -/
def watchedTmHeader : TmHeader :=
  { nextHeader.signed_header.header with
    height := watchedState.latest_height.revision_height
    time := watchedConsensus.timestamp
    next_validators_hash := watchedConsensus.next_validators_hash
    app_hash := watchedConsensus.root.hash }

theorem heightOf_watchedTmHeader : heightOf watchedTmHeader = some watchedState.latest_height := by
  decide +kernel

theorem heightOf_nextHeader : heightOf nextHeader.signed_header.header =
    some { revision_number := 1, revision_height := 6 } := by
  decide +kernel

def watchedChain : HonestChain where
  headers := {watchedTmHeader, nextHeader.signed_header.header}
  unique := by
    rintro a (rfl | rfl) b (rfl | rfl) h ha hb
    · rfl
    · rw [heightOf_watchedTmHeader, ← hb, heightOf_nextHeader] at ha
      exact absurd ha (by decide)
    · rw [heightOf_nextHeader, ← hb, heightOf_watchedTmHeader] at ha
      exact absurd ha (by decide)
    · rfl
  forward := by
    rintro a (rfl | rfl) b (rfl | rfl) ha hb hha hhb hlt
    · rw [heightOf_watchedTmHeader] at hha hhb
      cases hha
      cases hhb
      exact absurd hlt (by decide)
    · decide
    · rw [heightOf_nextHeader, Option.some.injEq] at hha
      rw [heightOf_watchedTmHeader, Option.some.injEq] at hhb
      subst hha hhb
      exact absurd hlt (by decide)
    · rw [heightOf_nextHeader, Option.some.injEq] at hha hhb
      subst hha hhb
      exact absurd hlt (by decide)

/-- The next header alone does not freeze the client, and with a header of the same height it
does. -/
theorem the_watched_chain_and_a_conflict_with_it :
    ¬ AcceptsFreeze sampleBridge.host_state_nft watchedInput.output_reference freezeTx
        watchedClient (.HeaderCase nextHeader) ∧
      Attested watchedState [(watchedState.latest_height, watchedConsensus)] nextHeader ∧
      Attested watchedState [(watchedState.latest_height, watchedConsensus)] conflictingHeader ∧
      Conflict nextHeader.signed_header.header conflictingHeader.signed_header.header := by
  constructor
  · apply (an_honest_chain_never_freezes_its_client _ _ _ _).1 watchedChain
    · intro e he
      obtain rfl := List.mem_singleton.mp he
      exact ⟨watchedTmHeader, .inl rfl, heightOf_watchedTmHeader, rfl⟩
    · exact .inr rfl
  · exact (an_honest_chain_never_freezes_its_client _ _ _ _).2 _ the_sample_freezes
      (by decide +kernel) (by decide +kernel) (by decide +kernel) (by decide +kernel)

end Sample

end cardano_ibc
