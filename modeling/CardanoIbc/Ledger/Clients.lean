-- The records of a client from its creation on: whatever headers and misbehaviour it is updated
-- with, its consensus states stay in order and within their bound, and once frozen it stays so.
import CardanoIbc.Ledger.Authenticity
import CardanoIbc.Ledger.Runs
import CardanoIbc.Tendermint.Quorum

namespace cardano_ibc

open validator_utils

/-! ## Heights in descending order -/

namespace height

theorem compare_eq_gt_iff {a b : Height} : compare a b = .gt ↔
    b.revision_number < a.revision_number ∨
      (a.revision_number = b.revision_number ∧ b.revision_height < a.revision_height) := by
  unfold compare
  split_ifs <;> simp <;> omega

theorem compare_eq_lt_iff {a b : Height} : compare a b = .lt ↔ compare b a = .gt := by
  rw [compare_eq_gt_iff]
  unfold compare
  split_ifs <;> simp <;> omega

theorem compare_gt_trans {a b c : Height} (hab : compare a b = .gt) (hbc : compare b c = .gt) :
    compare a c = .gt := by
  rw [compare_eq_gt_iff] at *
  omega

theorem ne_of_compare_gt {a b : Height} (h : compare a b = .gt) : a ≠ b := by
  rintro rfl
  rw [compare_eq_gt_iff] at h
  omega

end height

theorem insertSorted_last {α : Type} {compare : α → α → Ordering} {e : α} {xs : List α}
    (h : ∀ x ∈ xs, compare e x ≠ .lt) : insertSorted compare e xs = xs ++ [e] := by
  induction xs with
  | nil => rfl
  | cons x xs ih =>
    rw [insertSorted, if_neg (h x List.mem_cons_self),
      ih fun y hy => h y (List.mem_cons_of_mem _ hy)]
    rfl

/-- A list that goes down is sorted by turning it round. -/
theorem sort_of_descending {α : Type} {compare : α → α → Ordering} {xs : List α}
    (h : xs.Pairwise fun a b => compare a b ≠ .lt) : sort compare xs = xs.reverse := by
  induction xs with
  | nil => rfl
  | cons x xs ih =>
    obtain ⟨hx, hxs⟩ := List.pairwise_cons.mp h
    have hsorted : sort compare xs = xs.reverse := ih hxs
    rw [sort, List.foldr_cons, ← sort, hsorted, List.reverse_cons]
    exact insertSorted_last fun y hy => hx y (List.mem_reverse.mp hy)

/-- The highest state below a height is the last one of a list that goes up to below it. -/
theorem get_prev_consensus_state_last {states : List (Height × ConsensusState)}
    {last : Height × ConsensusState} {h : Height} (hbelow : height.compare last.1 h = .lt) :
    get_prev_consensus_state (states ++ [last]) h = some last.2 := by
  rw [get_prev_consensus_state, List.foldr_append, List.foldr_cons, List.foldr_nil,
    if_pos ⟨rfl, hbelow⟩]
  induction states with
  | nil => rfl
  | cons s states ih =>
    rw [List.foldr_cons, ih]
    simp

/-! ## A client's record in order -/

structure ClientWellFormed (c : ClientDatumState) : Prop where
  latest : (c.consensus_states.map Prod.fst).head? = some c.client_state.latest_height
  descending : (c.consensus_states.map Prod.fst).Pairwise fun a b => height.compare a b = .gt
  revision : ∀ h ∈ c.consensus_states.map Prod.fst,
    h.revision_number = c.client_state.latest_height.revision_number
  later : (c.consensus_states.map fun e => e.2.timestamp).Pairwise (· > ·)
  bounded : c.consensus_states.length ≤ max_consensus_state_size

/-- The update took in a header: nothing but the latest height changes in the client state, and of
the consensus states only those go that have expired when the transaction begins, or the oldest
ones of a full list. -/
structure TakesHeader (tx : Transaction) (old new : ClientDatumState) : Prop where
  unfrozen : height.is_zero old.client_state.frozen_height = true
  parameters : new.client_state =
    { old.client_state with latest_height := new.client_state.latest_height }
  forward : height.compare new.client_state.latest_height old.client_state.latest_height = .gt
  kept : ∃ valid_from consensus_state kept dropped,
    get_tx_valid_from tx.validity_range = some valid_from ∧
    (old.consensus_states.filter fun e =>
      !client_state.is_expired old.client_state e.2.timestamp (valid_from * 1000000)) =
        kept ++ dropped ∧
    new.consensus_states = (new.client_state.latest_height, consensus_state) :: kept ∧
    (dropped ≠ [] → new.consensus_states.length = max_consensus_state_size)
  times : new.processed_times.map Prod.fst = new.consensus_states.map Prod.fst
  heights : new.processed_heights.map Prod.fst = new.consensus_states.map Prod.fst

/-- The update found misbehaviour. -/
structure Freezes (old new : ClientDatumState) : Prop where
  unfrozen : height.is_zero old.client_state.frozen_height = true
  frozen : height.is_zero new.client_state.frozen_height = false
  rest : new = { old with
    client_state := { old.client_state with frozen_height := new.client_state.frozen_height } }

/-- The heights and times of processing go with the consensus states, once a header has been taken
in; a client that was just created may have more of them. -/
def ProcessedWith {β : Type} (heights : List Height) (processed : List (Height × β)) : Prop :=
  processed.map Prod.fst = heights ∨ ∃ h, heights = [h] ∧ has_key processed h = true

namespace ClientWellFormed

variable {c : ClientDatumState}

theorem cons_eq (w : ClientWellFormed c) : ∃ consensus_state rest,
    c.consensus_states = (c.client_state.latest_height, consensus_state) :: rest := by
  have hlatest := w.latest
  cases hstates : c.consensus_states with
  | nil => simp [hstates] at hlatest
  | cons p rest =>
    simp only [hstates, List.map_cons, List.head?_cons, Option.some.injEq] at hlatest
    exact ⟨p.2, rest, by rw [← hlatest]⟩

theorem nodup (w : ClientWellFormed c) : (c.consensus_states.map Prod.fst).Nodup :=
  w.descending.imp height.ne_of_compare_gt

theorem below (w : ClientWellFormed c) {added : Height}
    (hadvances : height.compare added c.client_state.latest_height = .gt) {h : Height}
    (hmem : h ∈ c.consensus_states.map Prod.fst) : height.compare added h = .gt := by
  obtain ⟨_, rest, hcons⟩ := w.cons_eq
  have hdescending := w.descending
  rw [hcons, List.map_cons] at hmem hdescending
  rcases List.mem_cons.mp hmem with rfl | hrest
  · exact hadvances
  · exact height.compare_gt_trans hadvances ((List.pairwise_cons.mp hdescending).1 h hrest)

/-- A header that does not conflict with the states of the client is later than all of them. -/
theorem header_later (w : ClientWellFormed c) {header : Header} {added : Height}
    (hheight : cardano_ibc.header.get_height header = some added)
    (hunknown : has_key c.consensus_states added = false)
    (hadvances : height.compare added c.client_state.latest_height = .gt)
    (hagrees : check_for_misbehaviour (.HeaderCase header) c.consensus_states = some false)
    {time : Int} (htime : time ∈ c.consensus_states.map fun e => e.2.timestamp) :
    time < header.signed_header.header.time := by
  obtain ⟨consensus_state, rest, hcons⟩ := w.cons_eq
  have hnone : get_first c.consensus_states added = none := by
    cases hfirst : get_first c.consensus_states added with
    | none => rfl
    | some found =>
      have hmem := List.mem_map_of_mem (f := Prod.fst) (mem_of_get_first hfirst)
      exact absurd hmem (has_key_eq_false_iff.mp hunknown)
  have hsorted : sort (fun e1 e2 => height.compare e1.1 e2.1) c.consensus_states =
      rest.reverse ++ [(c.client_state.latest_height, consensus_state)] := by
    rw [sort_of_descending, hcons, List.reverse_cons]
    refine (List.pairwise_map.mp w.descending).imp ?_
    intro a b hgt hlt
    rw [hgt] at hlt
    cases hlt
  have hprev : get_prev_consensus_state
      (rest.reverse ++ [(c.client_state.latest_height, consensus_state)]) added =
        some consensus_state :=
    get_prev_consensus_state_last (height.compare_eq_lt_iff.mpr hadvances)
  have hnewest : consensus_state.timestamp < header.signed_header.header.time := by
    by_contra hge
    have hearly : header.signed_header.header.time ≤ consensus_state.timestamp := by omega
    simp [check_for_misbehaviour, hheight, hnone, hsorted, hprev, cardano_ibc.header.get_time,
      hearly] at hagrees
  have hlater := w.later
  rw [hcons, List.map_cons] at htime hlater
  rcases List.mem_cons.mp htime with rfl | hrest
  · exact hnewest
  · have hgt : consensus_state.timestamp > time := (List.pairwise_cons.mp hlater).1 time hrest
    omega

end ClientWellFormed

/-! ## What an update makes of a record -/

theorem take_min_length {α : Type} (n : Nat) (xs : List α) :
    xs.take (min n xs.length) = xs.take n := by
  rw [List.take_eq_take_iff]
  omega

namespace client_datum

variable {c : ClientDatumState} {header : Header} {added : Height} {valid_from now : Int}

theorem expectedState_consensus_states :
    (expectedState c header added valid_from).consensus_states =
      (added, cardano_ibc.header.consensus_state header) ::
        (liveConsensusStates c (valid_from * 1000000)).take (max_consensus_state_size - 1) := by
  simp only [expectedState, List.take_succ_cons, take_min_length]

/-- As no two states have one height, the states whose height is a live one's are the live ones. -/
theorem filter_live_heights (now : Int) (hnodup : (c.consensus_states.map Prod.fst).Nodup) :
    (c.consensus_states.map Prod.fst).filter
      (((liveConsensusStates c now).map Prod.fst).contains ·) =
        (liveConsensusStates c now).map Prod.fst := by
  rw [List.filter_map, liveConsensusStates]
  congr 1
  refine List.filter_congr ?_
  intro e he
  rw [Function.comp_apply, Bool.eq_iff_iff, List.contains_iff_mem]
  constructor
  · intro hmem
    obtain ⟨e', he', heq⟩ := List.mem_map.mp hmem
    obtain ⟨hin, hlive⟩ := List.mem_filter.mp he'
    rwa [List.inj_on_of_nodup_map hnodup he hin heq.symm]
  · intro hlive
    exact List.mem_map_of_mem (List.mem_filter.mpr ⟨he, hlive⟩)

/-- The processed entries that are kept have the heights of the states that are kept. -/
theorem kept_heights {β : Type} {processed : List (Height × β)}
    (hnodup : (c.consensus_states.map Prod.fst).Nodup)
    (h : ProcessedWith (c.consensus_states.map Prod.fst) processed) (size : Nat) :
    ((processed.filter fun item =>
      ((liveConsensusStates c now).map Prod.fst).contains item.1).take
        (min size (liveConsensusStates c now).length)).map Prod.fst =
      ((liveConsensusStates c now).take size).map Prod.fst := by
  rcases h with hall | ⟨only, honly, hhas⟩
  · have hkeys : (processed.filter fun item =>
        ((liveConsensusStates c now).map Prod.fst).contains item.1).map Prod.fst =
          (liveConsensusStates c now).map Prod.fst := by
      have hfilter := filter_live_heights now hnodup
      rw [← hall, List.filter_map] at hfilter
      exact hfilter
    rw [List.map_take, hkeys, ← List.map_take, take_min_length]
  · -- one state only: it has expired, or the first of the entries for it is kept
    obtain ⟨e, hstates, rfl⟩ := List.map_eq_singleton_iff.mp honly
    by_cases hlive : client_state.is_expired c.client_state e.2.timestamp now = true
    · simp [liveConsensusStates, hstates, hlive]
    · have heq : liveConsensusStates c now = [e] := by
        simp [liveConsensusStates, hstates, hlive]
      have hfound : processed.filter (fun item => [e.1].contains item.1) ≠ [] := by
        obtain ⟨p, hp, hpe⟩ := List.mem_map.mp (has_key_iff.mp hhas)
        exact List.ne_nil_of_mem (List.mem_filter.mpr ⟨hp, by simp [hpe]⟩)
      obtain ⟨p, rest, hcons⟩ := List.exists_cons_of_ne_nil hfound
      have hp : p.1 = e.1 := by
        have hmem : p ∈ processed.filter (fun item => [e.1].contains item.1) := by
          rw [hcons]
          exact List.mem_cons_self
        simpa using (List.mem_filter.mp hmem).2
      rw [heq, List.map_singleton, hcons]
      cases size with
      | zero => rfl
      | succ n => simp [hp]

end client_datum

theorem verify_header_revision [Builtins] {cs : ClientState} {tx_time : TxTime}
    {consensus_states : List (Height × ConsensusState)} {header : Header} {added : Height}
    (h : verify_header cs tx_time consensus_states header = some true)
    (hheight : cardano_ibc.header.get_height header = some added) :
    header.trusted_height ∈ consensus_states.map Prod.fst ∧
      added.revision_number = header.trusted_height.revision_number := by
  simp only [verify_header, bind_eq_some, and_accepts, pure_eq_some, Bool.and_eq_true,
    beq_iff_eq] at h
  obtain ⟨trusted, htrusted, _, -, -, ⟨found, hfound, ⟨hrevision, -⟩, -⟩, -⟩ := h
  rw [hheight] at hfound
  cases hfound
  exact ⟨List.mem_map_of_mem (mem_of_get_first htrusted), hrevision⟩

theorem clientIsActive_unfrozen {c : ClientDatumState} {valid_to : Int}
    (h : clientIsActive c valid_to = true) :
    height.is_zero c.client_state.frozen_height = true := by
  by_contra hfrozen
  rw [Bool.not_eq_true] at hfrozen
  simp [clientIsActive, client_state.status, hfrozen] at h

/-- Everything a client keeps is in order. -/
structure ClientInOrder (c : ClientDatumState) : Prop extends ClientWellFormed c where
  times : ProcessedWith (c.consensus_states.map Prod.fst) c.processed_times
  heights : ProcessedWith (c.consensus_states.map Prod.fst) c.processed_heights

theorem Initialises.inOrder {tx : Transaction} {c : ClientDatum} (h : Initialises tx c) :
    ClientInOrder c.state := by
  obtain ⟨-, consensus_state, hstates⟩ := client_datum.is_initialized_valid_spec h.valid
  obtain ⟨_, -, htime, hheight⟩ := h.processed
  refine { latest := ?_, descending := ?_, revision := ?_, later := ?_, bounded := ?_,
           times := ?_, heights := ?_ }
  · simp [hstates]
  · simp [hstates]
  · simp [hstates]
  · simp [hstates]
  · simp [hstates, max_consensus_state_size]
  · refine .inr ⟨c.state.client_state.latest_height, by simp [hstates], ?_⟩
    exact has_key_iff.mpr (List.mem_map_of_mem (mem_of_get_first htime))
  · refine .inr ⟨c.state.client_state.latest_height, by simp [hstates], ?_⟩
    exact has_key_iff.mpr (List.mem_map_of_mem (mem_of_get_first hheight))

section Header

variable {old : ClientDatumState} {header : Header} {added : Height} {valid_from : Int}

/-- A header above and later than all a client knows goes first. -/
theorem ClientWellFormed.takes_header (w : ClientWellFormed old)
    (hrevision : added.revision_number = old.client_state.latest_height.revision_number)
    (hadvances : height.compare added old.client_state.latest_height = .gt)
    (hlater : ∀ time ∈ old.consensus_states.map fun e => e.2.timestamp,
      time < header.signed_header.header.time) :
    ClientWellFormed (client_datum.expectedState old header added valid_from) := by
  have hsub : ((client_datum.liveConsensusStates old (valid_from * 1000000)).take
      (max_consensus_state_size - 1)).Sublist old.consensus_states :=
    (List.take_sublist _ _).trans List.filter_sublist
  refine { latest := ?_, descending := ?_, revision := ?_, later := ?_, bounded := ?_ }
  · rw [client_datum.expectedState_consensus_states]
    rfl
  · rw [client_datum.expectedState_consensus_states, List.map_cons, List.pairwise_cons]
    refine ⟨?_, w.descending.sublist (hsub.map _)⟩
    intro h hh
    exact w.below hadvances ((hsub.map _).subset hh)
  · rw [client_datum.expectedState_consensus_states, List.map_cons]
    intro h hh
    rcases List.mem_cons.mp hh with rfl | hh
    · rfl
    · exact (w.revision h ((hsub.map _).subset hh)).trans hrevision.symm
  · rw [client_datum.expectedState_consensus_states, List.map_cons, List.pairwise_cons]
    refine ⟨?_, w.later.sublist (hsub.map _)⟩
    intro time htime
    exact hlater time ((hsub.map _).subset htime)
  · rw [client_datum.expectedState_consensus_states, List.length_cons, List.length_take]
    simp only [max_consensus_state_size]
    omega

/-- After a header the processed entries have the heights of the consensus states. -/
theorem ClientInOrder.processed_heights_eq (w : ClientInOrder old) :
    (client_datum.expectedState old header added valid_from).processed_times.map Prod.fst =
        (client_datum.expectedState old header added valid_from).consensus_states.map Prod.fst ∧
      (client_datum.expectedState old header added valid_from).processed_heights.map Prod.fst =
        (client_datum.expectedState old header added valid_from).consensus_states.map Prod.fst := by
  rw [client_datum.expectedState_consensus_states]
  simp only [client_datum.expectedState, List.take_succ_cons, List.map_cons,
    client_datum.kept_heights w.nodup w.times, client_datum.kept_heights w.nodup w.heights,
    and_self]

end Header

section Updates

variable [Builtins] {d : Deployment} {tx : Transaction} {old new c : ClientDatum}

/-- An update of a client in order is one of the two, and leaves it in order. -/
theorem ClientInOrder.update (w : ClientInOrder old.state)
    (h : ClientUpdate tx old new) :
    ClientInOrder new.state ∧
      (TakesHeader tx old.state new.state ∨ Freezes old.state new.state) := by
  cases h with
  | header header added valid_from valid_to begins ends active verified agrees at_height unknown
      advances effect =>
    subst effect
    obtain ⟨htrusted, hsame⟩ := verify_header_revision verified at_height
    have hrevision := hsame.trans (w.revision _ htrusted)
    have hwell : ClientWellFormed
        (client_datum.expectedState old.state header added valid_from) :=
      w.takes_header hrevision advances fun time htime =>
        w.header_later at_height unknown advances agrees htime
    obtain ⟨htimes, hheights⟩ := w.processed_heights_eq
    refine ⟨{ toClientWellFormed := hwell, times := .inl htimes, heights := .inl hheights },
      .inl ⟨clientIsActive_unfrozen active, rfl, advances, ?_, htimes, hheights⟩⟩
    refine ⟨valid_from, cardano_ibc.header.consensus_state header, _, _, begins,
      (List.take_append_drop _ _).symm, client_datum.expectedState_consensus_states, ?_⟩
    intro hdropped
    rw [client_datum.expectedState_consensus_states, List.length_cons, List.length_take]
    have hlong := mt List.drop_eq_nil_of_le hdropped
    simp only [max_consensus_state_size, client_datum.liveConsensusStates] at hlong ⊢
    omega
  | misbehaviour valid_to ends active effect =>
    subst effect
    exact ⟨{ latest := w.latest, descending := w.descending, revision := w.revision,
             later := w.later, bounded := w.bounded, times := w.times, heights := w.heights },
      .inr ⟨clientIsActive_unfrozen active, rfl, rfl⟩⟩

/-! ## Along the ledger -/

/-- An accepted transaction creates the client. -/
structure CreatesClient (d : Deployment) (tx : Transaction) (c : ClientDatum) : Prop where
  accepted : ∃ L, d.Accepted L tx
  minted : assets.quantity_of tx.mint d.mint_client c.token.name ≠ 0
  output : ∃ out, find_script_outputs tx.outputs d.spend_client = [out] ∧
    out.datum = .InlineDatum (.client c)

/-- An accepted transaction spends the one record at the clients' script and leaves the other one
in its place. -/
structure UpdatesClient (d : Deployment) (tx : Transaction) (old new : ClientDatum) : Prop where
  accepted : ∃ L, d.Accepted L tx
  spent : ∃ i ∈ tx.inputs, i.output.address.payment_credential = .Script d.spend_client ∧
    i.output.datum = .InlineDatum (.client old) ∧
    ∃ out, find_unique_continuation_output i.output tx.outputs old.token = some out ∧
      out.datum = .InlineDatum (.client new)

/-- A client's record and those it becomes by updates. -/
inductive ClientChain (d : Deployment) (first : ClientDatum) : ClientDatum → Prop
  | start : ClientChain d first first
  | step {old new : ClientDatum} {tx : Transaction} (before : ClientChain d first old)
      (update : UpdatesClient d tx old new) : ClientChain d first new

theorem CreatesClient.initialises (h : CreatesClient d tx c) : Initialises tx c := by
  obtain ⟨L, haccepted⟩ := h.accepted
  obtain ⟨out, hout, hdatum⟩ := h.output
  have hmem : (d.mint_client, Hashes.noSpend, d.clientMint) ∈ d.table := by simp [Hashes.table]
  obtain ⟨redeemer, -, hrun⟩ := haccepted.mint_runs h.minted (d.scripts_spec hmem).2
  obtain ⟨out', c', hout', hdatum', hinitialises⟩ := mint_client_stt.mint_initialises hrun
  obtain rfl : out' = out := by simpa using hout'.symm.trans hout
  rw [hdatum'] at hdatum
  cases hdatum
  exact hinitialises

theorem UpdatesClient.update (h : UpdatesClient d tx old new) : ClientUpdate tx old new := by
  obtain ⟨L, haccepted⟩ := h.accepted
  obtain ⟨i, hi, haddress, hdatum, out, hout, hnew⟩ := h.spent
  have hgiven : tx.datumOf i.output = some (.client old) := by simp [Transaction.datumOf, hdatum]
  have hmem : (d.spend_client, d.clientSpend, Hashes.noMint) ∈ d.table := by simp [Hashes.table]
  obtain ⟨redeemer, -, hrun⟩ := haccepted.spend_runs hi haddress (d.scripts_spec hmem).1
  simp only [Hashes.clientSpend, hgiven, Hashes.castDatum, Data.asClient, bind_eq_some,
    Option.map_some, Option.some.injEq] at hrun
  obtain ⟨_, rfl, _, -, hrun⟩ := hrun
  obtain ⟨spent, out', updated, hspent, hupdate, hstep⟩ := spend_client.spend_updates hrun
  rw [Deployment.find_input_eq haccepted.inputs_nodup hi hspent] at hupdate
  have hsame := hupdate.output
  rw [hout] at hsame
  cases hsame
  have hdatum' := hupdate.datum
  rw [hnew] at hdatum'
  cases hdatum'
  exact hstep

theorem ClientChain.inOrder (hfirst : ClientInOrder old.state) (hchain : ClientChain d old c) :
    ClientInOrder c.state := by
  induction hchain with
  | start => exact hfirst
  | step _ update ih => exact (ih.update update.update).1

/-- Every record a client gets to is well formed, and an update of it takes in a header or freezes
it, which nothing undoes. -/
theorem client_records_stay_well_formed {first : ClientDatum} (hcreated : CreatesClient d tx first)
    (hchain : ClientChain d first c) :
    ClientWellFormed c.state ∧
      (∀ tx new, UpdatesClient d tx c new → new.token = c.token ∧
        (TakesHeader tx c.state new.state ∨ Freezes c.state new.state)) ∧
      (height.is_zero c.state.client_state.frozen_height = false →
        ∀ tx new, ¬ UpdatesClient d tx c new) := by
  have w := hchain.inOrder hcreated.initialises.inOrder
  refine ⟨w.toClientWellFormed, ?_, ?_⟩
  · intro tx new hupdate
    exact ⟨hupdate.update.step.token_eq, (w.update hupdate.update).2⟩
  · intro hfrozen tx new hupdate
    rcases (w.update hupdate.update).2 with hheader | hfreezes
    · rw [hheader.unfrozen] at hfrozen
      cases hfrozen
    · rw [hfreezes.unfrozen] at hfrozen
      cases hfrozen

end Updates

/-! ## A client that was created with one entry too many -/

section Sample

/-- The signature of the second sample validator over one of two blocks of one height. -/
def watchedSig (signature : Nat) : CommitSig :=
  { block_id_flag := 2
    validator_address := List.replicate 20 2
    timestamp := 1060000000
    signature := bigEndian 64 signature }

def watchedHeader (app_hash hash signature : Nat) : Header :=
  { signed_header :=
      { header := { sampleTmHeader with time := 1050000000, app_hash := bigEndian 32 app_hash }
        commit :=
          { height := 6
            round := 0
            block_id := { hash := bigEndian 32 hash
                          part_set_header := { total := 1, hash := List.replicate 32 7 } }
            signatures := [absentSig, watchedSig signature] } }
    validator_set := sampleVals 1
    trusted_height := { revision_number := 1, revision_height := 5 }
    trusted_validators := sampleVals 1 }

def nextHeader : Header :=
  watchedHeader 0xd07b408105da6b803668152e85f11e8c4c7dc7989be9d8346c180077e6b8613b
    0x55b17e08a5f77d64b65e9f41400dc5ed7641995a86c26c8d40f82e61003d50a0
    0x31287e8708b401ea02bf56d71ce7004fa43ab39d936c52d46ef442e64bc513384f6b4f9df1563d2e3189607090c1828247b1f237f80980bd8d5109861b62090b

/-- A header of the same height with another app hash, signed as well. -/
def conflictingHeader : Header :=
  watchedHeader 0x0707070707070707070707070707070707070707070707070707070707070707
    0xe89c31ef3ec1430e143bbbbbfe8008985db47fee69efbf11b116bd111ea348ce
    0x3f1492f950659db145ac773e279bd645799c76fc05b5adabca850fc731f5b6297ed9f4fd69942e237fe9dd97913358766ffe7c2e1b10f5d85ea154e244003103

/-- The key, message and signature of the two valid signatures. -/
def watchedSignatures : List (Bytes × Bytes × Bytes) :=
  [(bigEndian 32 0x8139770ea87d175f56a35466c34c7ecccb8d8a91b4ee37a25df60f5b8fc9b394,
    bigEndian 100 0x63080211060000000000000022480a2055b17e08a5f77d64b65e9f41400dc5ed7641995a86c26c8d40f82e61003d50a012240801122007070707070707070707070707070707070707070707070707070707070707072a07080110808ece1c3203632d31,
    bigEndian 64 0x31287e8708b401ea02bf56d71ce7004fa43ab39d936c52d46ef442e64bc513384f6b4f9df1563d2e3189607090c1828247b1f237f80980bd8d5109861b62090b),
   (bigEndian 32 0x8139770ea87d175f56a35466c34c7ecccb8d8a91b4ee37a25df60f5b8fc9b394,
    bigEndian 100 0x63080211060000000000000022480a20e89c31ef3ec1430e143bbbbbfe8008985db47fee69efbf11b116bd111ea348ce12240801122007070707070707070707070707070707070707070707070707070707070707072a07080110808ece1c3203632d31,
    bigEndian 64 0x3f1492f950659db145ac773e279bd645799c76fc05b5adabca850fc731f5b6297ed9f4fd69942e237fe9dd97913358766ffe7c2e1b10f5d85ea154e244003103)]

/-- SHA-256 as it is, the digests that the names of the tokens are made of, and Ed25519 on the
signatures of the sample. -/
abbrev watchedBuiltins : Builtins where
  sha2_256 := sha256.digest
  sha3_256 m :=
    if m = List.replicate 28 1 ++ utf8 "ibc_host_state" then
      bigEndian 32 0x00a534446f3cc32f5e29f8397167a024e0f402a2e1f864ef1abc2c368f2c0ef8
    else if m = utf8 "ibc_client" then
      bigEndian 32 0xf2c9db641048de13d87c1be4025fb6a56bc7be4ee967e3d4b129edde8dd6f60e
    else if m = utf8 "connection" then
      bigEndian 32 0x19dd9b301cb36e05ed9681e38f341485294d0fb8ba446e582211fb6a4726be08
    else sha256.digest m
  blake2b_224 := sha256.digest
  blake2b_256 := sha256.digest
  verify_ed25519_signature key msg sig := watchedSignatures.contains (key, msg, sig)
  sha2_256_length := sha256.length_digest
  sha2_256_empty := sha256.digest_nil

local instance clientsBuiltins : Builtins := watchedBuiltins

def watchedState : ClientState :=
  { firstClientState with trusting_period := 1000000000000, unbonding_period := 2000000000000 }

def watchedConsensus : ConsensusState :=
  { timestamp := 1000000000
    next_validators_hash := sampleValsHash
    root := { hash := List.replicate 32 5 } }

/-- The client says when it processed a height it does not know. -/
def watchedClient : ClientDatum :=
  { state :=
      { client_state := watchedState
        consensus_states := [(watchedState.latest_height, watchedConsensus)]
        processed_times := [(watchedState.latest_height, 1000000000),
          ({ revision_number := 1, revision_height := 4 }, 0)]
        processed_heights := [(watchedState.latest_height, 0)] }
    token := firstClientToken }

def watchedHostDatum (version : Int) (root : Nat) : HostStateDatum :=
  { sampleHostDatum with
    state := { sampleHostDatum.state with
      version
      next_client_sequence := 1
      ibc_state_root := bigEndian 32 root } }

def watchedClientOutput (coin : Int) (c : ClientDatum) : Output :=
  { address := atScript sampleBridge.spend_client
    value := [lovelace coin, (firstClientToken.policy_id, firstClientToken.name, 1)]
    datum := .InlineDatum (.client c) }

/-- The siblings of a path: none from the leaf up, and then these. -/
def siblingsAbove (rest : List Nat) : List Bytes :=
  List.replicate (64 - rest.length) ibc_state_commitment.empty_hash ++ rest.map (bigEndian 32)

def timeRange (valid_from valid_to : Int) : ValidityRange :=
  { lower_bound := { bound_type := .Finite valid_from, is_inclusive := true }
    upper_bound := { bound_type := .Finite valid_to, is_inclusive := true } }

def watchedTx : Transaction :=
  { firstClientTx with
    outputs := [sampleHostOutput (watchedHostDatum 1
        0xdfc7b2a82f06a8d0c85bcda7634330047c4b09f6a8c0f61a66a719b65c75d7c9),
      watchedClientOutput 9800000 watchedClient]
    validity_range := timeRange 1000 1050
    redeemers := [(.Spend sampleHost.output_reference, .hostStateRedeemer
        (.CreateClient (siblingsAbove []) (siblingsAbove
          [0x94a282df9451f6691a3906eb8f9d6306b34da63127c3b66dbed869ec31dbc3e3]))),
      (.Mint sampleBridge.mint_client, .mintClientRedeemer)] }

theorem watchedTx_accepted : sampleBridge.Accepted sampleLedger watchedTx :=
  Ledger.accepts_iff.mp (by decide +kernel)

def watchedLedger : Ledger := sampleLedger.apply watchedTx watchedTx_accepted

/-- The output a transaction leaves at this place. -/
def outputOf (tx : Transaction) (index : Nat) (output : Output) : Input :=
  { output_reference := { transaction_id := tx.id, output_index := index }, output }

def watchedHost : Input :=
  outputOf watchedTx 0 (sampleHostOutput (watchedHostDatum 1
    0xdfc7b2a82f06a8d0c85bcda7634330047c4b09f6a8c0f61a66a719b65c75d7c9))

def watchedInput : Input := outputOf watchedTx 1 (watchedClientOutput 9800000 watchedClient)

def frozenClient : ClientDatum := client_datum.frozenDatum watchedClient

/-- The client is shown two blocks of one height. -/
def freezeTx : Transaction :=
  { inputs := [watchedHost, watchedInput]
    reference_inputs := []
    outputs := [sampleHostOutput (watchedHostDatum 2
        0x2dea4917232f0c4aa9dc46e7198ab54f8943682c0c4d1a1cbffaf41361bd75aa),
      watchedClientOutput 9600000 frozenClient]
    fee := 200000
    mint := []
    validity_range := timeRange 1100 1200
    extra_signatories := []
    redeemers := [(.Spend watchedHost.output_reference, .hostStateRedeemer
        (.UpdateClient (siblingsAbove
          [0x405cf12a0f2e8fff5db16490e5a08241223aec99e170be01f98c5b4e832f207d]) [] [])),
      (.Spend watchedInput.output_reference, .spendClientRedeemer (.UpdateClient
        (.MisbehaviourCase { client_id := utf8 "07-tendermint-0"
                             header1 := nextHeader
                             header2 := conflictingHeader })))]
    datums := []
    id := List.replicate 32 94 }

theorem freezeTx_accepted : sampleBridge.Accepted watchedLedger freezeTx :=
  Ledger.accepts_iff.mp (by decide +kernel)

theorem watchedClient_created : CreatesClient sampleBridge watchedTx watchedClient :=
  ⟨⟨sampleLedger, watchedTx_accepted⟩, by decide, watchedClientOutput 9800000 watchedClient,
    by decide, rfl⟩

theorem watchedClient_frozen : UpdatesClient sampleBridge freezeTx watchedClient frozenClient :=
  ⟨⟨watchedLedger, freezeTx_accepted⟩, watchedInput, by decide, rfl, rfl,
    watchedClientOutput 9600000 frozenClient, by decide, rfl⟩

/-- The sample is in order, and the update of it freezes it. -/
theorem the_watched_client_is_frozen_in_order :
    ClientWellFormed watchedClient.state ∧ frozenClient.token = watchedClient.token ∧
      (TakesHeader freezeTx watchedClient.state frozenClient.state ∨
        Freezes watchedClient.state frozenClient.state) := by
  obtain ⟨hwell, hupdates, -⟩ := client_records_stay_well_formed watchedClient_created .start
  exact ⟨hwell, hupdates freezeTx frozenClient watchedClient_frozen⟩

/-- A client is created with an entry for a height it does not know, and the entry is still there
after an update. -/
theorem a_frozen_client_keeps_an_entry_too_many :
    CreatesClient sampleBridge watchedTx watchedClient ∧
      UpdatesClient sampleBridge freezeTx watchedClient frozenClient ∧
      frozenClient.state.processed_times.map Prod.fst ≠
        frozenClient.state.processed_heights.map Prod.fst ∧
      frozenClient.state.processed_times.map Prod.fst ≠
        frozenClient.state.consensus_states.map Prod.fst :=
  ⟨watchedClient_created, watchedClient_frozen, by decide, by decide⟩

end Sample

end cardano_ibc
