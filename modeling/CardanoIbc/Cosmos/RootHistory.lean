-- The roots of the Cosmos-side client over whole runs (update.go, store.go): what is stored for a
-- height is never replaced, and nothing is stored behind the trusted block.
import CardanoIbc.Cosmos.Consistency
import CardanoIbc.Library.AppendOnly

namespace cardano_ibc.probabilistic

open append_only

/-- The height of the trusted block. -/
def Store.trusted (store : Store) : Height := store.clientState.latestCheckpointHeight.getD 0

def Store.has (store : Store) (height : Height) (s : ConsensusState) : Prop :=
  store.consensusState height = some s

def Store.beyond (store : Store) (height : Height) : Prop := store.trusted < height

section History

variable [Texts] [Native] {context : Context} {start store store' : Store}
  {header : ProbabilisticHeader} {past later : List (Store × ProbabilisticHeader)}

/-- An update adds its anchor at most, which is beyond the block that was trusted and is trusted
next. -/
theorem UpdateState_grows (hset : isZero store.clientState.latestCheckpointHeight = false)
    (verified : verifyHeader store header = .ok ())
    (stored : UpdateState context store header = .ok store') :
    Grows Store.has Store.beyond store store' ∧
      isZero store'.clientState.latestCheckpointHeight = false ∧ store.beyond store'.trusted := by
  obtain ⟨_, _, authenticated, _, _, reads, -⟩ := UpdateState_eq_ok.mp stored
  obtain ⟨-, anchor, hanchor⟩ := authenticateHeaderBlocksWithContexts_spec reads.authenticates
  have hahead := anchor_ahead hset verified hanchor
  have hmoves := UpdateState_moves stored reads.normalized reads.merges reads.authenticates
  have htop : store'.trusted = authenticated.anchorBlock.height := by
    rw [Store.trusted, hmoves.height, Option.getD_some]
  refine ⟨⟨?_, ?_, ?_⟩, ?_, ?_⟩
  · intro height s hs
    rcases hmoves.states height s hs with hs | ⟨rfl, -⟩
    · exact .inl hs
    · exact .inr hahead
  · intro height habove
    rw [Store.beyond, htop] at habove
    exact UInt64.lt_trans hahead habove
  · intro hbounded height s hs habove
    rw [Store.beyond, htop] at habove
    rcases hmoves.states height s hs with hs | ⟨rfl, -⟩
    · exact hbounded height s hs (UInt64.lt_trans hahead habove)
    · exact UInt64.lt_irrefl _ habove
  · rw [hmoves.height]
    exact isZero_of_lt hahead
  · rw [htop]
    exact hahead

theorem History.grows (hset : isZero start.clientState.latestCheckpointHeight = false)
    (hrun : History start past store) :
    Grows Store.has Store.beyond start store ∧
      isZero store.clientState.latestCheckpointHeight = false ∧
      (past ≠ [] → start.beyond store.trusted) := by
  induction hrun with
  | start => exact ⟨.refl _, hset, fun h => absurd rfl h⟩
  | step _ verified _ stored ih =>
    obtain ⟨hgrows, hset', -⟩ := ih
    obtain ⟨hstep, hset'', hahead⟩ := UpdateState_grows hset' verified stored
    exact ⟨hgrows.trans hstep, hset'', fun _ => hgrows.rises _ hahead⟩

/-- Between any two points of a client's run, what is stored for a height stays as it is for as long
as it is stored, a height at or behind the trusted block gets nothing that was not there, and the
trusted block moves on with every update. -/
theorem stored_roots_are_append_only {cs : ClientState} {first : ConsensusState}
    (hcreated : Initialize context cs first = .ok start) (before : History start past store)
    (after : History store later store') :
    (∀ height s s', store.consensusState height = some s →
        store'.consensusState height = some s' → s' = s) ∧
      (∀ height s', store'.consensusState height = some s' → height ≤ store.trusted →
        store.consensusState height = some s') ∧
      (later ≠ [] → store.trusted < store'.trusted) := by
  have hstart := Initialize_created hcreated
  have hbounded : Bounded Store.has Store.beyond start := by
    intro height s hs habove
    rw [(hstart.states height s hs).1] at habove
    exact UInt64.lt_irrefl _ habove
  obtain ⟨hgrows, hset, -⟩ := before.grows hstart.set
  obtain ⟨hgrows', -, hmoved⟩ := after.grows hset
  refine ⟨?_, ?_, hmoved⟩
  · intro height s s' hs hs'
    have hsame := hgrows'.same (hgrows.bounded hbounded) hs hs'
    exact Option.some.inj (hsame.symm.trans hs)
  · intro height s' hs' hle
    exact (hgrows'.had height s' hs').resolve_right (UInt64.not_lt.mpr hle)

end History

section Sample

local instance rootHistoryTexts : Texts := asciiTexts

local instance rootHistoryNative : Native := symbolicNative

theorem an_honest_update_moves_on :
    ∃ store, History (timedStore 2000) [(timedStore 2000, honestHeader)] store ∧
      (timedStore 2000).trusted < store.trusted := by
  have hcreated : Initialize sampleNow timedClient (timedState 2000) = .ok (timedStore 2000) :=
    timedStore_created (by decide)
  have hconsistent := consistent_of_Initialize (fun _ => beq_self_eq_true _) hcreated rfl
  obtain ⟨verified, clean⟩ := honestHeader_taken
  obtain ⟨store, stored⟩ := hconsistent.stores verified sampleNow
  have hrun := History.step .start verified clean stored
  exact ⟨store, hrun, (stored_roots_are_append_only hcreated .start hrun).2.2 nofun⟩

end Sample

end cardano_ibc.probabilistic
