-- The consensus states of an on-chain client (client_datum.ak): none is replaced, and one that was
-- dropped does not come back.
import CardanoIbc.Ledger.Clients
import CardanoIbc.Library.AppendOnly

namespace cardano_ibc

open append_only

def ClientDatum.knows (c : ClientDatum) (h : Height) (s : ConsensusState) : Prop :=
  (h, s) ∈ c.state.consensus_states

def ClientDatum.ahead (c : ClientDatum) (h : Height) : Prop :=
  height.compare h c.state.client_state.latest_height = .gt

section Updates

variable [Builtins] {d : Deployment} {tx : Transaction} {first old new c c' : ClientDatum}

omit [Builtins] in
theorem ClientWellFormed.none_ahead (w : ClientWellFormed c.state) :
    Bounded ClientDatum.knows ClientDatum.ahead c := by
  intro h s hmem hahead
  have hself := w.below hahead (List.mem_map_of_mem hmem)
  exact height.ne_of_compare_gt hself rfl

/-- A header adds one consensus state, ahead of all there are; a frozen client keeps what it has. -/
theorem ClientInOrder.grows (w : ClientInOrder old.state) (h : ClientUpdate tx old new) :
    Grows ClientDatum.knows ClientDatum.ahead old new := by
  obtain ⟨w', hupdate⟩ := w.update h
  rcases hupdate with htakes | hfreezes
  · obtain ⟨_, _, kept, dropped, -, hlive, hstates, -⟩ := htakes.kept
    refine ⟨?_, ?_, fun _ => w'.none_ahead⟩
    · intro k s hmem
      rw [ClientDatum.knows, hstates] at hmem
      rcases List.mem_cons.mp hmem with hnew | hmem
      · obtain ⟨rfl, -⟩ := Prod.mk.inj hnew
        exact .inr htakes.forward
      · have hlived := List.mem_append_left dropped hmem
        rw [← hlive] at hlived
        exact .inl (List.mem_of_mem_filter hlived)
    · intro k hahead
      exact height.compare_gt_trans hahead htakes.forward
  · have hrest := hfreezes.rest
    refine ⟨fun k s hmem => .inl ?_, fun k hahead => ?_, fun _ => w'.none_ahead⟩
    · rwa [ClientDatum.knows, hrest] at hmem
    · rwa [ClientDatum.ahead, hrest] at hahead

theorem ClientChain.grows (w : ClientInOrder old.state) (hchain : ClientChain d old c) :
    Grows ClientDatum.knows ClientDatum.ahead old c := by
  induction hchain with
  | start => exact .refl old
  | step before update ih => exact ih.trans ((before.inOrder w).grows update.update)

/-- Between any two records of a client, what it knows of a height stays as it is for as long as it
knows it, and a height that is not ahead of the earlier record gets nothing that was not there. -/
theorem consensus_states_are_append_only (hcreated : CreatesClient d tx first)
    (before : ClientChain d first c) (after : ClientChain d c c') :
    (∀ h s s', (h, s) ∈ c.state.consensus_states → (h, s') ∈ c'.state.consensus_states → s' = s) ∧
      ∀ h s', (h, s') ∈ c'.state.consensus_states →
        height.compare h c.state.client_state.latest_height ≠ .gt →
          (h, s') ∈ c.state.consensus_states := by
  have w := before.inOrder hcreated.initialises.inOrder
  have hgrows := after.grows w
  refine ⟨?_, ?_⟩
  · intro h s s' hmem hmem'
    have hsame := hgrows.same w.none_ahead hmem hmem'
    exact congrArg Prod.snd (List.inj_on_of_nodup_map w.nodup hsame hmem rfl)
  · intro h s' hmem' hle
    exact (hgrows.had h s' hmem').resolve_right hle

end Updates

section Sample

local instance clientHistoryBuiltins : Builtins := watchedBuiltins

theorem the_frozen_client_knows_what_it_knew :
    (watchedState.latest_height, watchedConsensus) ∈ frozenClient.state.consensus_states ∧
      (watchedState.latest_height, watchedConsensus) ∈ watchedClient.state.consensus_states := by
  have hknown : (watchedState.latest_height, watchedConsensus) ∈
      frozenClient.state.consensus_states := List.mem_cons_self
  exact ⟨hknown, (consensus_states_are_append_only watchedClient_created .start
    (.step .start watchedClient_frozen)).2 _ _ hknown (by decide)⟩

end Sample

end cardano_ibc
