-- What pruning leaves behind (update.go, pruneOldestConsensusState): the consensus state and its
-- metadata go, what else was written for the height stays.
import CardanoIbc.Cosmos.Consistency

namespace cardano_ibc.probabilistic

/-! ## The keys of a height -/

/-- For each kind of key that is written for a height, whether it is there. -/
def Store.marks (store : Store) (height : Height) : List Bool :=
  [(table.get store.consensusStates height).isSome, (table.get store.processedTimes height).isSome,
    (table.get store.processedHeights height).isSome, (table.get store.iterationKeys height).isSome,
    (table.get store.scores height).isSome, (table.get store.uniquePools height).isSome,
    (table.get store.uniqueStakes height).isSome,
    (table.get store.acceptedBlockHashes height).isSome]

/-- All that is written for a height is there, or nothing of it. -/
def Store.Whole (store : Store) (height : Height) : Prop :=
  (∀ mark ∈ store.marks height, mark = true) ∨ ∀ mark ∈ store.marks height, mark = false

/-- The heights for which something is stored. -/
def Store.markedHeights (store : Store) : List Height :=
  (store.consensusStates.map Prod.fst ++ store.processedTimes.map Prod.fst ++
    store.processedHeights.map Prod.fst ++ store.iterationKeys.map Prod.fst ++
    store.scores.map Prod.fst ++ store.uniquePools.map Prod.fst ++
    store.uniqueStakes.map Prod.fst ++ store.acceptedBlockHashes.map Prod.fst).dedup

theorem mem_markedHeights {store : Store} {height : Height} :
    height ∈ store.markedHeights ↔ true ∈ store.marks height := by
  simp only [Store.markedHeights, List.mem_dedup, List.mem_append, table.mem_map_fst, Store.marks,
    List.mem_cons, List.not_mem_nil, or_false, or_assoc, eq_comm (a := true)]

/-! ## Runs -/

/-- The height a header stores a consensus state for. -/
def ProbabilisticHeader.writes (header : ProbabilisticHeader) : List Height :=
  if header.isCheckpoint then [] else (header.anchorBlock.bind (·.height)).toList

/-- The height that goes when a header is stored: the oldest one, if it has expired. -/
def prunedBy (context : Context) (store : Store) (header : ProbabilisticHeader) : List Height :=
  if header.isCheckpoint then []
  else
    match store.iterationKeys with
    | [] => []
    | (height, _) :: _ =>
      match store.consensusState height with
      | none => []
      | some s =>
        if store.clientState.IsExpired s.timestamp context.blockTime then [height] else []

section Runs

variable [Texts] [Native]

/-- A run of updates of a client that is active, with the heights that were written and those that
were pruned. -/
inductive Kept (start : Store) : List Height → List Height → Store → Prop
  | start : Kept start [start.clientState.latestHeight.getD 0] [] start
  | step {written pruned : List Height} {store store' : Store} {header : ProbabilisticHeader}
      {context : Context} (before : Kept start written pruned store)
      (active : store.Status context = .Active)
      (verified : verifyHeader store header = .ok ())
      (clean : CheckForMisbehaviour store header = false)
      (stored : UpdateState context store header = .ok store') :
      Kept start (header.writes ++ written) (prunedBy context store header ++ pruned) store'

omit [Texts] [Native] in
/-- What is stored, told from what was written and what was pruned. -/
structure Recorded (written pruned : List Height) (store : Store) : Prop where
  set : isZero store.clientState.latestCheckpointHeight = false
  below : ∀ height ∈ written, height ≤ store.clientState.latestCheckpointHeight.getD 0
  nodup : written.Nodup
  sub : ∀ height ∈ pruned, height ∈ written
  keyed : Keyed store
  states : ∀ height, (store.consensusState height).isSome ↔ height ∈ written ∧ height ∉ pruned
  scores : table.HasKeys store.scores written
  pools : table.HasKeys store.uniquePools written
  stakes : table.HasKeys store.uniqueStakes written
  hashes : table.HasKeys store.acceptedBlockHashes written

omit [Native] in
theorem recorded_of_Initialize {context : Context} {cs : ClientState} {first : ConsensusState}
    {start : Store} (h : Initialize context cs first = .ok start) :
    Recorded [start.clientState.latestHeight.getD 0] [] start := by
  have hcreated := Initialize_created h
  simp only [Initialize, bind_eq_ok, pure_eq_ok] at h
  obtain ⟨_, -, _, -, cs', -, rfl⟩ := h
  have hkeys : ∀ {α : Type} (value : α), table.HasKeys
      (table.set [] (cs'.latestHeight.getD 0) value) [cs'.latestHeight.getD 0] := by
    intro α value
    have hnone : table.HasKeys ([] : List (Height × α)) [] := fun key => by simp [table.get]
    exact hnone.set _ value
  have hfirst := (hkeys first _).mpr (List.mem_singleton_self _)
  refine ⟨hcreated.set, ?_, List.nodup_singleton _, by simp,
    Keyed.setConsensus ⟨fun _ => Iff.rfl, fun _ => Iff.rfl, fun _ => Iff.rfl⟩ context _ first, ?_,
    hkeys _, hkeys _, hkeys _, hkeys _⟩
  · intro height hheight
    rw [List.mem_singleton.mp hheight]
    obtain ⟨s, hs⟩ := Option.isSome_iff_exists.mp hfirst
    rw [← (hcreated.states _ s hs).1]
    exact UInt64.le_refl _
  · intro height
    exact (hkeys first height).trans (and_iff_left (by simp)).symm

omit [Texts] [Native] in
/-- What a header prunes is the oldest height or nothing. -/
theorem prunedBy_spec {context : Context} {store after : Store} {header : ProbabilisticHeader}
    (hbears : header.isCheckpoint = false)
    (h : pruneOldestConsensusState context store = .ok after) :
    (prunedBy context store header = [] ∧ after = store) ∨
      ∃ height, prunedBy context store header = [height] ∧
        (store.consensusState height).isSome ∧ after = store.without height := by
  unfold prunedBy
  rw [hbears]
  unfold pruneOldestConsensusState at h
  cases hkeys : store.iterationKeys with
  | nil =>
    simp only [hkeys, pure_eq_ok] at h
    exact .inl ⟨rfl, h.symm⟩
  | cons key keys =>
    simp only [hkeys, bind_eq_ok, found_eq_ok] at h
    obtain ⟨s, hs, h⟩ := h
    by_cases hexpired : store.clientState.IsExpired s.timestamp context.blockTime = true
    · rw [if_pos hexpired, pure_eq_ok] at h
      refine .inr ⟨key.1, ?_, by rw [hs]; rfl, ?_⟩
      · simp [hs, hexpired]
      · rw [← h, Store.without, hkeys]
    · rw [if_neg hexpired, pure_eq_ok] at h
      refine .inl ⟨?_, h.symm⟩
      simp [hs, hexpired]

omit [Texts] [Native] in
/-- A new height is none that was written. -/
theorem Recorded.fresh {written pruned : List Height} {store : Store}
    (h : Recorded written pruned store) {height : Height}
    (hahead : store.clientState.latestCheckpointHeight.getD 0 < height) : height ∉ written := by
  intro hmem
  exact absurd (h.below height hmem) (UInt64.not_le.mpr hahead)

omit [Texts] [Native] in
/-- Pruning takes a height from the consensus states and their metadata, and from nothing else. -/
theorem Recorded.without {written pruned : List Height} {store : Store}
    (h : Recorded written pruned store) {height : Height}
    (hsome : (store.consensusState height).isSome) :
    Recorded written (height :: pruned) (store.without height) := by
  refine ⟨h.set, h.below, h.nodup, ?_,
    ⟨h.keyed.iteration.erase height, h.keyed.times.erase height, h.keyed.heights.erase height⟩, ?_,
    h.scores, h.pools, h.stakes, h.hashes⟩
  · intro height' hmem
    rcases List.mem_cons.mp hmem with rfl | hmem
    · exact ((h.states height').mp hsome).1
    · exact h.sub height' hmem
  · intro height'
    show (table.get (table.erase store.consensusStates height) height').isSome ↔ _
    rw [table.get_erase, List.mem_cons, not_or]
    by_cases heq : height = height'
    · simp [heq]
    · rw [if_neg heq]
      refine (h.states height').trans ?_
      exact and_congr_right fun _ => ⟨fun hnot => ⟨Ne.symm heq, hnot⟩, And.right⟩

omit [Texts] [Native] in
/-- A new consensus state is written under every kind of key. -/
theorem Recorded.setConsensus {written pruned : List Height} {store : Store}
    (h : Recorded written pruned store) {height : Height}
    (hahead : store.clientState.latestCheckpointHeight.getD 0 < height) (context : Context)
    (s : ConsensusState) {cs : ClientState} (hcs : cs.latestCheckpointHeight = some height) :
    Recorded (height :: written) pruned
      { store.setConsensus context height s with clientState := cs } := by
  have hfresh := h.fresh hahead
  have hkeyed := h.keyed.setConsensus context height s
  refine ⟨?_, ?_, List.nodup_cons.mpr ⟨hfresh, h.nodup⟩,
    fun height' hmem => List.mem_cons_of_mem _ (h.sub height' hmem),
    ⟨hkeyed.iteration, hkeyed.times, hkeyed.heights⟩, ?_, h.scores.set height _, h.pools.set height _,
    h.stakes.set height _, h.hashes.set height _⟩
  · rw [show isZero _ = isZero (some height) from congrArg isZero hcs]
    exact isZero_of_lt hahead
  · intro height' hmem
    show height' ≤ cs.latestCheckpointHeight.getD 0
    rw [hcs, Option.getD_some]
    rcases List.mem_cons.mp hmem with rfl | hmem
    · exact UInt64.le_refl _
    · exact UInt64.le_of_lt (UInt64.lt_of_le_of_lt (h.below height' hmem) hahead)
  · intro height'
    show (table.get (table.set store.consensusStates height s) height').isSome ↔ _
    rw [table.get_set, List.mem_cons]
    by_cases heq : height = height'
    · subst heq
      have hnot : height ∉ pruned := fun hmem => hfresh (h.sub height hmem)
      simp [hnot]
    · rw [if_neg heq]
      refine (h.states height').trans (and_congr_left fun _ => ?_)
      exact ⟨.inr, fun hmem => hmem.resolve_left (Ne.symm heq)⟩

/-- An update keeps the record. -/
theorem Recorded.update {written pruned : List Height} {store store' : Store}
    (h : Recorded written pruned store) {header : ProbabilisticHeader} {context : Context}
    (verified : verifyHeader store header = .ok ())
    (stored : UpdateState context store header = .ok store') :
    Recorded (header.writes ++ written) (prunedBy context store header ++ pruned) store' := by
  obtain ⟨contexts, merged, authenticated, trusted, ctx, reads, hcases⟩ :=
    UpdateState_eq_ok.mp stored
  obtain ⟨-, anchor, hanchor⟩ := authenticateHeaderBlocksWithContexts_spec reads.authenticates
  have hahead := anchor_ahead h.set verified hanchor
  rcases hcases with ⟨hcheckpoint, cs, -, rfl⟩ | ⟨hbears, anchor', height, after, root, metrics, cs,
    hanchor', hpruned, -, -, -, rfl⟩
  · have hwrites : header.writes = [] := by rw [ProbabilisticHeader.writes, if_pos hcheckpoint]
    have hprunes : prunedBy context store header = [] := by rw [prunedBy, if_pos hcheckpoint]
    rw [hwrites, hprunes]
    refine ⟨isZero_of_lt hahead, ?_, h.nodup, h.sub, ⟨h.keyed.iteration, h.keyed.times,
      h.keyed.heights⟩, h.states, h.scores, h.pools, h.stakes, h.hashes⟩
    intro height hmem
    exact UInt64.le_of_lt (UInt64.lt_of_le_of_lt (h.below height hmem) hahead)
  · rw [hanchor] at hanchor'
    cases hanchor'
    have hwrites : header.writes = [authenticated.anchorBlock.height] := by
      simp only [anchorOf, bind_eq_ok, found_eq_ok, pure_eq_ok, Prod.mk.injEq] at hanchor
      obtain ⟨_, hfound, height, hheight, rfl, rfl⟩ := hanchor
      rw [ProbabilisticHeader.writes, hbears, hfound]
      simp [hheight]
    rw [hwrites]
    have hclient := (pruneOldestConsensusState_spec hpruned).1
    rw [← hclient] at hahead
    rcases prunedBy_spec hbears hpruned with ⟨hprunes, rfl⟩ | ⟨height, hprunes, hsome, rfl⟩
    · rw [hprunes]
      exact h.setConsensus hahead context _ rfl
    · rw [hprunes]
      exact (h.without hsome).setConsensus hahead context _ rfl

/-- Every run keeps the record of what it wrote and what it pruned. -/
theorem Kept.recorded {context : Context} {cs : ClientState} {first : ConsensusState}
    {start store : Store} {written pruned : List Height}
    (hcreated : Initialize context cs first = .ok start) (hrun : Kept start written pruned store) :
    Recorded written pruned store := by
  induction hrun with
  | start => exact recorded_of_Initialize hcreated
  | step _ _ verified _ stored ih => exact ih.update verified stored

omit [Texts] [Native] in
theorem Recorded.marks_eq {written pruned : List Height} {store : Store}
    (h : Recorded written pruned store) (height : Height) :
    store.marks height =
      List.replicate 4 (decide (height ∈ written ∧ height ∉ pruned)) ++
        List.replicate 4 (decide (height ∈ written)) := by
  have hstate : (table.get store.consensusStates height).isSome =
      decide (height ∈ written ∧ height ∉ pruned) := by
    rw [Bool.eq_iff_iff, decide_eq_true_iff]
    exact h.states height
  have hkey : ∀ {α : Type} {t : List (Height × α)}, table.HasKeys t written →
      (table.get t height).isSome = decide (height ∈ written) := by
    intro α t ht
    rw [Bool.eq_iff_iff, decide_eq_true_iff]
    exact ht height
  have hsame : ∀ {α : Type} {t : List (Height × α)}, table.SameKeys store.consensusStates t →
      (table.get t height).isSome = decide (height ∈ written ∧ height ∉ pruned) := by
    intro α t ht
    rw [← hstate, Bool.eq_iff_iff]
    exact (ht height).symm
  simp only [Store.marks, hstate, hsame h.keyed.times, hsame h.keyed.heights,
    hsame h.keyed.iteration, hkey h.scores, hkey h.pools, hkey h.stakes, hkey h.hashes]
  rfl

/-- Nothing is left behind, at any height and in number, just if no update of the run found its
oldest consensus state expired. -/
theorem pruning_leaves_nothing_iff {context : Context} {cs : ClientState} {first : ConsensusState}
    {start store : Store} {written pruned : List Height}
    (hcreated : Initialize context cs first = .ok start) (hrun : Kept start written pruned store) :
    ((∀ height, store.Whole height) ∧
        store.markedHeights.length ≤ (written.filter (· ∉ pruned)).length) ↔ pruned = [] := by
  have h := hrun.recorded hcreated
  constructor
  · rintro ⟨hwhole, -⟩
    by_contra hne
    obtain ⟨height, hmem⟩ := List.exists_mem_of_ne_nil pruned hne
    have hwritten := h.sub height hmem
    rcases hwhole height with hall | hnone
    · rw [h.marks_eq] at hall
      have := hall (decide (height ∈ written ∧ height ∉ pruned)) (by simp)
      simp [hmem] at this
    · rw [h.marks_eq] at hnone
      have := hnone (decide (height ∈ written)) (by simp)
      simp [hwritten] at this
  · rintro rfl
    constructor
    · intro height
      rw [Store.Whole, h.marks_eq]
      by_cases hwritten : height ∈ written
      · left
        simp [hwritten]
      · right
        simp [hwritten]
    · have hmarked : ∀ height, height ∈ store.markedHeights ↔ height ∈ written := by
        intro height
        rw [mem_markedHeights, h.marks_eq]
        by_cases hwritten : height ∈ written <;> simp [hwritten]
      have hperm := (List.perm_ext_iff_of_nodup (List.nodup_dedup _) h.nodup).mpr hmarked
      rw [List.filter_eq_self.mpr (by simp)]
      exact hperm.length_eq.le

end Runs

/-! ## An expired state -/

section Sample

local instance pruningTexts : Texts := asciiTexts

local instance pruningNative : Native := symbolicNative

/-- The header after the honest one: its anchor has a transaction as well. -/
def nextHeader : ProbabilisticHeader :=
  { honestHeader with
    trustedHeight := some 101
    anchorBlock := some (sampleBlock honestBody 2)
    descendantBlocks := (List.range 24).map fun i => sampleBlock emptyBody (i + 3) }

/-- When the first consensus state has just expired, and the second has not. -/
def expiredNow : Context := { blockTime := 2506205091000000000, blockHeight := 60 }

/-- The two updates, with all that is asked before each of them. -/
def twoUpdates (context : Context) : Except Err (Store × Store) := do
  verifyHeader (timedStore 2000) honestHeader
  require (!CheckForMisbehaviour (timedStore 2000) honestHeader) .ErrInvalidMisbehaviour
  require ((timedStore 2000).Status sampleNow == .Active) .ErrInvalidClient
  let store ← UpdateState sampleNow (timedStore 2000) honestHeader
  verifyHeader store nextHeader
  require (!CheckForMisbehaviour store nextHeader) .ErrInvalidMisbehaviour
  require (store.Status context == .Active) .ErrInvalidClient
  let store' ← UpdateState context store nextHeader
  return (store, store')

theorem kept_of_twoUpdates {context : Context} {store store' : Store}
    (h : twoUpdates context = .ok (store, store')) :
    Kept (timedStore 2000) [102, 101, 100] (prunedBy context store nextHeader) store' := by
  simp only [twoUpdates, bind_eq_ok, require_eq_ok, pure_eq_ok, Prod.mk.injEq, beq_iff_eq,
    Bool.not_eq_true'] at h
  obtain ⟨_, verified, _, clean, _, active, _, stored, _, verified', _, clean', _, active', _,
    stored', rfl, rfl⟩ := h
  have hrun := ((@Kept.start _ _ (timedStore 2000)).step active verified clean stored).step
    active' verified' clean' stored'
  have hnone : prunedBy sampleNow (timedStore 2000) honestHeader = [] := by decide +kernel
  rw [hnone, List.append_nil, List.append_nil] at hrun
  exact hrun

theorem twoUpdates_of_marks {context : Context} {read : Store × Store → List Bool}
    {marks : List Bool} (h : (twoUpdates context).toOption.map read = some marks) :
    ∃ store store', twoUpdates context = .ok (store, store') ∧ read (store, store') = marks := by
  cases hupdates : twoUpdates context with
  | error e => simp [hupdates, Except.toOption] at h
  | ok stores =>
    simp only [hupdates, Except.toOption, Option.map_some, Option.some.injEq] at h
    exact ⟨stores.1, stores.2, rfl, h⟩

/-- The first consensus state goes with the second update, its score and its pools, its stake and
its hash stay. -/
theorem an_expired_state_leaves_its_score :
    ∃ store written pruned, Kept (timedStore 2000) written pruned store ∧
      store.marks 100 = [false, false, false, false, true, true, true, true] ∧
      ¬ store.Whole 100 := by
  obtain ⟨store, store', hupdates, hmarks⟩ := twoUpdates_of_marks
    (show (twoUpdates expiredNow).toOption.map (fun s => s.2.marks 100) =
      some [false, false, false, false, true, true, true, true] by decide +kernel)
  refine ⟨store', _, _, kept_of_twoUpdates hupdates, hmarks, ?_⟩
  simp only at hmarks
  rw [Store.Whole, hmarks]
  decide

/-- While nothing has expired, nothing is left behind. -/
theorem nothing_is_left_of_young_states :
    ∃ store, Kept (timedStore 2000) [102, 101, 100] [] store ∧ (∀ height, store.Whole height) ∧
      store.markedHeights.length ≤ 3 := by
  obtain ⟨store, store', hupdates, hmarks⟩ := twoUpdates_of_marks
    (show (twoUpdates sampleNow).toOption.map
      (fun s => [(prunedBy sampleNow s.1 nextHeader).isEmpty]) = some [true] by decide +kernel)
  have hnone : prunedBy sampleNow store nextHeader = [] := by simpa using hmarks
  have hrun := kept_of_twoUpdates hupdates
  rw [hnone] at hrun
  have hcreated : Initialize sampleNow timedClient (timedState 2000) = .ok (timedStore 2000) :=
    timedStore_created (by decide)
  obtain ⟨hwhole, hcount⟩ := (pruning_leaves_nothing_iff hcreated hrun).mpr rfl
  exact ⟨store', hrun, hwhole, by simpa using hcount⟩

end Sample

end cardano_ibc.probabilistic
