-- What holds of the store of the Cosmos-side client after any run of updates, and why an update that
-- was verified is never stopped half way.
import CardanoIbc.Cosmos.Slots

namespace cardano_ibc.probabilistic

/-! ## The contexts of an epoch -/

section Contexts

/-- There is a context for the epoch. -/
def Covers (contexts : List EpochContext) (epoch : UInt64) : Prop :=
  ∃ ctx ∈ contexts, ctx.epoch = epoch

theorem covers_of_byEpoch {contexts : List EpochContext} {epoch : UInt64}
    (h : (epochContextByEpoch contexts epoch).isSome) : Covers contexts epoch := by
  obtain ⟨ctx, hctx⟩ := Option.isSome_iff_exists.mp h
  exact ⟨ctx, epochContextByEpoch_spec hctx⟩

theorem Covers.insert {contexts : List EpochContext} {epoch : UInt64} (h : Covers contexts epoch)
    (ctx : EpochContext) : Covers (insertContext ctx contexts) epoch := by
  induction contexts with
  | nil =>
    obtain ⟨c, hc, -⟩ := h
    cases hc
  | cons d ds ih =>
    obtain ⟨c, hc, rfl⟩ := h
    unfold insertContext
    split
    · exact ⟨c, List.mem_cons_of_mem _ hc, rfl⟩
    · split
      · rename_i heq
        rcases List.mem_cons.mp hc with rfl | hc
        · exact ⟨ctx, List.mem_cons_self, heq⟩
        · exact ⟨c, List.mem_cons_of_mem _ hc, rfl⟩
      · rcases List.mem_cons.mp hc with rfl | hc
        · exact ⟨c, List.mem_cons_self, rfl⟩
        · obtain ⟨c', hc', heq⟩ := ih ⟨c, hc, rfl⟩
          exact ⟨c', List.mem_cons_of_mem _ hc', heq⟩

theorem Covers.retain {contexts : List EpochContext} {epoch : UInt64} (h : Covers contexts epoch)
    {keep : List UInt64} (hkeep : epoch ∈ keep) :
    Covers (retainEpochContexts contexts keep) epoch := by
  obtain ⟨ctx, hctx, rfl⟩ := h
  exact ⟨ctx, List.mem_filter.mpr ⟨hctx, by simpa using hkeep⟩, rfl⟩

variable [Texts]

theorem covers_normalizeFrom {contexts byEpoch out : List EpochContext} {epoch : UInt64}
    (h : normalizeFrom contexts byEpoch = .ok out)
    (hcovers : Covers contexts epoch ∨ Covers byEpoch epoch) : Covers out epoch := by
  induction contexts generalizing byEpoch with
  | nil =>
    cases h
    rcases hcovers with ⟨c, hc, -⟩ | hcovers
    · cases hc
    · exact hcovers
  | cons ctx contexts ih =>
    have hrest : Covers contexts epoch ∨ Covers (insertContext ctx byEpoch) epoch := by
      rcases hcovers with ⟨c, hc, hepoch⟩ | hcovers
      · rcases List.mem_cons.mp hc with rfl | hc
        · exact .inr ⟨c, self_mem_insertContext c byEpoch, hepoch⟩
        · exact .inl ⟨c, hc, hepoch⟩
      · exact .inr (hcovers.insert ctx)
    simp only [normalizeFrom, bind_eq_ok] at h
    obtain ⟨_, -, h⟩ := h
    split at h
    · simp only [bind_eq_ok] at h
      obtain ⟨-, -, h⟩ := h
      exact ih h hrest
    · exact ih h hrest

/-- No epoch is lost before the contexts are cut down to those something refers to. -/
theorem Covers.merged {stored contexts merged : List EpochContext} {new : Option EpochContext}
    {epoch : UInt64} (h : Covers stored epoch)
    (hnormalized : normalizeEpochContexts stored = .ok contexts)
    (hmerges : mergeEpochContexts contexts new = .ok merged) : Covers merged epoch := by
  have hnormal := normalizeEpochContexts_normal hnormalized
  obtain ⟨ctx, hctx, hepoch⟩ := covers_normalizeFrom hnormalized (.inl h)
  cases new with
  | none =>
    rw [(mergeEpochContexts_spec hnormal hmerges).2.2 rfl]
    exact ⟨ctx, hctx, hepoch⟩
  | some new =>
    by_cases hsame : ctx.epoch = new.epoch
    · exact ⟨new, (mem_merged_iff hnormal hmerges).mpr (.inl rfl), hsame ▸ hepoch⟩
    · exact ⟨ctx, (mem_merged_iff hnormal hmerges).mpr (.inr ⟨hctx, hsame⟩), hepoch⟩

end Contexts

/-! ## The invariant -/

section Invariant

inductive Status
  | Active
  | Frozen
  | Expired
deriving DecidableEq, Repr

def Store.Status (store : Store) (ctx : Context) : Status :=
  if !isZero store.clientState.frozenHeight then .Frozen
  else
    match store.clientState.latestHeight.bind store.consensusState with
    | none => .Expired
    | some consState =>
      if store.clientState.IsExpired consState.timestamp ctx.blockTime then .Expired else .Active

/-- The epochs of the consensus states. -/
def Store.Accepts (store : Store) (epoch : UInt64) : Prop :=
  ∃ height s, store.consensusState height = some s ∧ s.acceptedEpoch = epoch

/-- What is kept about a consensus state is there for each of them, and for nothing else. -/
structure Keyed (store : Store) : Prop where
  iteration : table.SameKeys store.consensusStates store.iterationKeys
  times : table.SameKeys store.consensusStates store.processedTimes
  heights : table.SameKeys store.consensusStates store.processedHeights

theorem Keyed.setConsensus {store : Store} (h : Keyed store) (ctx : Context) (height : Height)
    (s : ConsensusState) : Keyed (store.setConsensus ctx height s) :=
  ⟨h.iteration.set height s _, h.times.set height s _, h.heights.set height s _⟩

variable [Texts]

/-- The parts of a store go together. -/
structure Consistent (store : Store) : Prop where
  set : isZero store.clientState.latestCheckpointHeight = false
  behind : store.clientState.latestHeight.getD 0 ≤ store.clientState.latestCheckpointHeight.getD 0
  latest : ∃ height s, store.clientState.latestHeight = some height ∧
    store.consensusState height = some s ∧
    (store.clientState.latestCheckpointHeight.getD 0 = height →
      equalFold store.clientState.latestCheckpointBlockHash s.acceptedBlockHash = true ∧
      store.clientState.latestCheckpointEpoch = s.acceptedEpoch)
  keyed : Keyed store
  checkpoint_covered : Covers store.clientState.epochContexts store.clientState.latestCheckpointEpoch
  accepted_covered : ∀ epoch, store.Accepts epoch → Covers store.clientState.epochContexts epoch

/-- What a checkpoint does not touch. -/
structure SameRoots (store store' : Store) : Prop where
  states : store'.consensusStates = store.consensusStates
  iteration : store'.iterationKeys = store.iterationKeys
  times : store'.processedTimes = store.processedTimes
  heights : store'.processedHeights = store.processedHeights
  latestHeight : store'.clientState.latestHeight = store.clientState.latestHeight
  status : ∀ ctx, store'.Status ctx = store.Status ctx

/-! ### A new client -/

theorem initializeCheckpoint_spec (hfold : ∀ text : Bytes, equalFold text text = true)
    {cs cs' : ClientState} {first : ConsensusState} (h : cs.initializeCheckpoint first = .ok cs') :
    cs'.latestHeight = cs.latestHeight ∧ cs'.epochContexts = cs.epochContexts ∧
      cs'.latestCheckpointHeight.getD 0 = cs.latestHeight.getD 0 ∧
      equalFold cs'.latestCheckpointBlockHash first.acceptedBlockHash = true ∧
      cs'.latestCheckpointEpoch = first.acceptedEpoch := by
  unfold ClientState.initializeCheckpoint at h
  split at h
  · simp only [pure_eq_ok] at h
    subst h
    exact ⟨rfl, rfl, rfl, hfold _, rfl⟩
  · simp only [bind_eq_ok, require_eq_ok, pure_eq_ok, Bool.and_eq_true, beq_iff_eq] at h
    obtain ⟨_, ⟨⟨hheight, hhash⟩, hepoch⟩, rfl⟩ := h
    exact ⟨rfl, rfl, hheight, hhash, hepoch⟩

theorem consistent_of_Initialize (hfold : ∀ text : Bytes, equalFold text text = true)
    {ctx : Context} {cs : ClientState} {first : ConsensusState} {store : Store}
    (h : Initialize ctx cs first = .ok store) (hepoch : cs.currentEpoch = first.acceptedEpoch) :
    Consistent store := by
  simp only [Initialize, ClientState.Validate, bind_eq_ok, require_eq_ok, pure_eq_ok] at h
  obtain ⟨_, ⟨_, -, _, -, _, hnonzero, _, -, _, -, _, -, _, -, _, -, _, -, contexts, hnormalized,
    _, -, hcurrent⟩, _, -, cs', hcheckpoint, rfl⟩ := h
  have hnonzero : isZero cs.latestHeight = false := by simpa using hnonzero
  obtain ⟨hlatest, hcontexts, hheight, hhash, hcheckpointEpoch⟩ :=
    initializeCheckpoint_spec hfold hcheckpoint
  obtain ⟨height, hsome⟩ : ∃ height, cs.latestHeight = some height := by
    cases hlatest : cs.latestHeight with
    | none => simp [isZero, hlatest] at hnonzero
    | some height => exact ⟨height, rfl⟩
  have hcovers : Covers cs'.epochContexts first.acceptedEpoch := by
    obtain ⟨c, hc, hce⟩ := covers_of_byEpoch hcurrent
    rw [hcontexts, ← hepoch]
    exact ⟨c, normalizeEpochContexts_subset hnormalized c hc, hce⟩
  have hgot : ∀ k, table.get (table.set [] (cs'.latestHeight.getD 0) first) k =
      if cs'.latestHeight.getD 0 = k then some first else none :=
    fun k => table.get_set [] _ k first
  refine ⟨?_, ?_, ⟨height, first, hlatest.trans hsome, ?_, fun _ => ⟨hhash, hcheckpointEpoch⟩⟩,
    Keyed.setConsensus ⟨fun _ => Iff.rfl, fun _ => Iff.rfl, fun _ => Iff.rfl⟩ ctx _ first, ?_, ?_⟩
  · show isZero cs'.latestCheckpointHeight = false
    rw [isZero, hheight]
    exact hnonzero
  · show cs'.latestHeight.getD 0 ≤ cs'.latestCheckpointHeight.getD 0
    rw [hheight, hlatest]
    exact UInt64.le_refl _
  · refine (hgot height).trans ?_
    rw [hlatest, hsome, Option.getD_some, if_pos rfl]
  · show Covers cs'.epochContexts cs'.latestCheckpointEpoch
    rw [hcheckpointEpoch]
    exact hcovers
  · rintro epoch ⟨k, s, hs, rfl⟩
    have hs := (hgot k).symm.trans hs
    split at hs
    · rw [← Option.some.inj hs]
      exact hcovers
    · cases hs

/-! ### One update -/

omit [Texts] in
/-- The epoch of every consensus state is one of those that are kept. -/
theorem mem_collectReferencedConsensusEpochs {store : Store} {epoch : UInt64}
    (hkeys : table.SameKeys store.consensusStates store.iterationKeys)
    (h : store.Accepts epoch) : epoch ∈ collectReferencedConsensusEpochs store := by
  obtain ⟨height, s, hs, rfl⟩ := h
  have hsome : (table.get store.iterationKeys height).isSome :=
    (hkeys height).mp (Option.isSome_of_eq_some hs)
  obtain ⟨_, hkey⟩ := Option.isSome_iff_exists.mp hsome
  refine List.mem_filterMap.mpr ⟨_, table.mem_of_get hkey, ?_⟩
  rw [hs]
  rfl

omit [Texts] in
/-- What is kept still covers the anchor's epoch and those of the consensus states. -/
theorem covers_keepContexts {store : Store} {merged : List EpochContext} {epoch e : UInt64}
    {cs : ClientState} (h : keepContexts store merged epoch = .ok cs)
    (hkeys : table.SameKeys store.consensusStates store.iterationKeys)
    (hcovers : Covers merged e) (he : e = epoch ∨ store.Accepts e) :
    Covers cs.epochContexts e := by
  obtain ⟨ctx, -, rfl⟩ := keepContexts_eq_ok.mp h
  refine hcovers.retain ?_
  rcases he with rfl | he
  · exact List.mem_cons_self
  · exact List.mem_cons_of_mem _ (mem_collectReferencedConsensusEpochs hkeys he)

omit [Texts] in
/-- Without all that is stored at one height. -/
def Store.without (store : Store) (height : Height) : Store :=
  { store with
    consensusStates := table.erase store.consensusStates height
    processedTimes := table.erase store.processedTimes height
    processedHeights := table.erase store.processedHeights height
    iterationKeys := table.erase store.iterationKeys height }

omit [Texts] in
/-- Pruning finds the consensus state it looks at. -/
theorem Keyed.prunes {store : Store} (h : Keyed store) (ctx : Context) :
    ∃ pruned, pruneOldestConsensusState ctx store = .ok pruned ∧ Keyed pruned := by
  unfold pruneOldestConsensusState
  cases hfirst : store.iterationKeys with
  | nil => exact ⟨store, rfl, h⟩
  | cons key keys =>
    have hsome : (store.consensusState key.1).isSome := by
      refine (h.iteration key.1).mpr ?_
      rw [hfirst, table.get_cons, if_pos rfl]
      rfl
    obtain ⟨s, hs⟩ := Option.isSome_iff_exists.mp hsome
    simp only [hs, found, bind_eq_ok]
    by_cases hexpired : store.clientState.IsExpired s.timestamp ctx.blockTime = true
    · refine ⟨store.without key.1, ⟨s, rfl, ?_⟩,
        h.iteration.erase key.1, h.times.erase key.1, h.heights.erase key.1⟩
      rw [if_pos hexpired, Store.without, hfirst]
      rfl
    · refine ⟨store, ⟨s, rfl, ?_⟩, h⟩
      rw [if_neg hexpired]
      rfl

omit [Texts] in
theorem accepts_setConsensus {store : Store} {ctx : Context} {height : Height} {s : ConsensusState}
    {epoch : UInt64} (h : (store.setConsensus ctx height s).Accepts epoch) :
    epoch = s.acceptedEpoch ∨ store.Accepts epoch := by
  obtain ⟨k, s', hs', rfl⟩ := h
  have hget : table.get (table.set store.consensusStates height s) k = some s' := hs'
  rw [table.get_set] at hget
  split at hget
  · exact .inl (congrArg _ (Option.some.inj hget).symm)
  · exact .inr ⟨k, s', hget, rfl⟩

omit [Texts] in
theorem isZero_of_lt {height height' : Height} (h : height < height') :
    isZero (some height') = false := by
  refine beq_false_of_ne fun hzero => ?_
  have hzero : height' = 0 := hzero
  rw [hzero] at h
  exact absurd h (UInt64.not_lt.mpr UInt64.zero_le)

variable [Native]

/-- The height of a verified header's anchor is beyond the last checkpoint. -/
theorem anchor_ahead {store : Store}
    (hset : isZero store.clientState.latestCheckpointHeight = false) {header : ProbabilisticHeader}
    (verified : verifyHeader store header = .ok ()) {anchor : ProbabilisticBlock} {height : Height}
    (hanchor : anchorOf header = .ok (anchor, height)) :
    store.clientState.latestCheckpointHeight.getD 0 < height := by
  obtain ⟨trusted, contexts, merged, authenticated, ctx, metrics, v⟩ := verifyHeader_spec verified
  obtain ⟨-, anchor', height', hanchor', hlt⟩ := trustedForUpdate_checkpoint v.trusted_found hset
  rw [hanchor] at hanchor'
  cases hanchor'
  exact hlt

/-- An update keeps the parts together. -/
theorem Consistent.update (hfold : ∀ text : Bytes, equalFold text text = true)
    {store store' : Store} (h : Consistent store) {header : ProbabilisticHeader} {context : Context}
    (verified : verifyHeader store header = .ok ())
    (stored : UpdateState context store header = .ok store') : Consistent store' := by
  obtain ⟨contexts, merged, authenticated, trusted, ctx, reads, hcases⟩ :=
    UpdateState_eq_ok.mp stored
  obtain ⟨-, anchor, hanchor⟩ := authenticateHeaderBlocksWithContexts_spec reads.authenticates
  have hahead := anchor_ahead h.set verified hanchor
  have hset := isZero_of_lt hahead
  have hanchored : Covers merged authenticated.anchorBlock.epoch :=
    covers_of_byEpoch (Option.isSome_of_eq_some reads.context)
  have hmerged : ∀ epoch, store.Accepts epoch → Covers merged epoch := fun epoch he =>
    (h.accepted_covered epoch he).merged reads.normalized reads.merges
  rcases hcases with ⟨-, cs, hcs, rfl⟩ | ⟨-, anchor', height, pruned, root, metrics, cs, hanchor',
    hpruned, -, -, hcs, rfl⟩
  · have hkept := fun e => covers_keepContexts (e := e) hcs h.keyed.iteration
    obtain ⟨_, -, rfl⟩ := keepContexts_eq_ok.mp hcs
    obtain ⟨height, s, hheight, hs, -⟩ := h.latest
    have hbehind := h.behind
    refine ⟨hset, UInt64.le_of_lt (UInt64.lt_of_le_of_lt hbehind hahead),
      ⟨height, s, hheight, hs, ?_⟩, ⟨h.keyed.iteration, h.keyed.times, h.keyed.heights⟩, ?_, ?_⟩
    · intro heq
      have heq : authenticated.anchorBlock.height = height := heq
      rw [hheight, Option.getD_some, ← heq] at hbehind
      exact absurd hahead (UInt64.not_lt.mpr hbehind)
    · exact hkept _ hanchored (.inl rfl)
    · intro epoch he
      exact hkept epoch (hmerged epoch he) (.inr he)
  · rw [hanchor] at hanchor'
    cases hanchor'
    obtain ⟨pruned', hpruned', hkeyed⟩ := h.keyed.prunes context
    rw [hpruned] at hpruned'
    cases hpruned'
    obtain ⟨-, hstates⟩ := pruneOldestConsensusState_spec hpruned
    have hkeyed := hkeyed.setConsensus context authenticated.anchorBlock.height
      (consensusOf authenticated.anchorBlock root metrics)
    have hkept := fun e => covers_keepContexts (e := e) hcs hkeyed.iteration
    obtain ⟨_, -, rfl⟩ := keepContexts_eq_ok.mp hcs
    refine ⟨hset, UInt64.le_refl _, ⟨_, consensusOf authenticated.anchorBlock root metrics, rfl, ?_,
      fun _ => ⟨hfold _, rfl⟩⟩, ⟨hkeyed.iteration, hkeyed.times, hkeyed.heights⟩, ?_, ?_⟩
    · refine (table.get_set pruned.consensusStates _ _ _).trans ?_
      rw [if_pos rfl]
    · exact hkept _ hanchored (.inl rfl)
    · intro epoch (he : (pruned.setConsensus context authenticated.anchorBlock.height
        (consensusOf authenticated.anchorBlock root metrics)).Accepts epoch)
      refine hkept epoch ?_ (.inr he)
      rcases accepts_setConsensus he with rfl | ⟨k, s, hs, rfl⟩
      · exact hanchored
      · exact hmerged _ ⟨k, s, hstates k s hs, rfl⟩

omit [Native] in
/-- The block a header has to go on from is the one it names. -/
theorem trusted_at_header {store : Store} {header : ProbabilisticHeader}
    {trusted : TrustedBlockState} (h : trustedForUpdate store header = .ok trusted)
    (hset : isZero store.clientState.latestCheckpointHeight = false) :
    trustedBlockStateAtHeight store header.trustedHeight = .ok trusted := by
  simp only [trustedForUpdate, latestTrustedBlockState, hset, bind_eq_ok, require_eq_ok,
    Bool.false_eq_true, if_false, beq_iff_eq] at h
  obtain ⟨_, -, _, -, _, -, _, -, _, hsame, _, -, h⟩ := h
  rw [← h]
  simp only [trustedBlockStateAtHeight, isZero, hsame]

/-- A verified header is stored. -/
theorem Consistent.stores {store : Store} (h : Consistent store) {header : ProbabilisticHeader}
    (verified : verifyHeader store header = .ok ()) (context : Context) :
    ∃ store', UpdateState context store header = .ok store' := by
  obtain ⟨trusted, contexts, merged, authenticated, ctx, metrics, v⟩ := verifyHeader_spec verified
  have hreads : Reads store header contexts merged authenticated trusted ctx :=
    ⟨v.normalized, v.merges, v.authenticates, trusted_at_header v.trusted_found h.set, v.transition,
      v.context⟩
  have hkeeps : ∀ s : Store, ∃ cs,
      keepContexts s merged authenticated.anchorBlock.epoch = .ok cs := by
    intro s
    refine ⟨_, keepContexts_eq_ok.mpr ⟨ctx, ?_, rfl⟩⟩
    rw [byEpoch_retain List.mem_cons_self]
    exact v.context
  by_cases hcheckpoint : header.isCheckpoint = true
  · obtain ⟨cs, hcs⟩ := hkeeps store
    exact ⟨_, UpdateState_eq_ok.mpr ⟨contexts, merged, authenticated, trusted, ctx, hreads,
      .inl ⟨hcheckpoint, cs, hcs, rfl⟩⟩⟩
  · have hbears : header.isCheckpoint = false := by simpa using hcheckpoint
    obtain ⟨-, anchor, hanchor⟩ := authenticateHeaderBlocksWithContexts_spec v.authenticates
    obtain ⟨pruned, hpruned, -⟩ := h.keyed.prunes context
    obtain ⟨root, hroot⟩ := v.root hbears
    obtain ⟨cs, hcs⟩ := hkeeps (pruned.setConsensus context authenticated.anchorBlock.height
      (consensusOf authenticated.anchorBlock root metrics))
    exact ⟨_, UpdateState_eq_ok.mpr ⟨contexts, merged, authenticated, trusted, ctx, hreads,
      .inr ⟨hbears, anchor, _, pruned, root, metrics, cs, hanchor, hpruned, hroot, v.metrics_eq, hcs,
        rfl⟩⟩⟩

/-- A checkpoint leaves roots and their times alone. -/
theorem sameRoots_of_checkpoint {store store' : Store} {header : ProbabilisticHeader}
    {context : Context} (hcheckpoint : header.isCheckpoint = true)
    (stored : UpdateState context store header = .ok store') : SameRoots store store' := by
  obtain ⟨contexts, merged, authenticated, trusted, ctx, -, hcases⟩ := UpdateState_eq_ok.mp stored
  rcases hcases with ⟨-, cs, hcs, rfl⟩ | ⟨hbears, -⟩
  · obtain ⟨_, -, rfl⟩ := keepContexts_eq_ok.mp hcs
    exact ⟨rfl, rfl, rfl, rfl, rfl, fun _ => rfl⟩
  · rw [hcheckpoint] at hbears
    cases hbears

/-! ### Runs -/

/-- After any run of updates of a client that was created for the epoch of its first consensus state
the parts of the store go together, every header that is verified next is stored, and a checkpoint
among them leaves the roots alone. -/
theorem the_store_stays_consistent (hfold : ∀ text : Bytes, equalFold text text = true)
    {context : Context} {cs : ClientState} {first : ConsensusState} {start store : Store}
    {past : List (Store × ProbabilisticHeader)} (hcreated : Initialize context cs first = .ok start)
    (hepoch : cs.currentEpoch = first.acceptedEpoch) (hrun : History start past store) :
    Consistent store ∧ ∀ header context', verifyHeader store header = .ok () →
      ∃ store', UpdateState context' store header = .ok store' ∧
        (header.isCheckpoint = true → SameRoots store store') := by
  have hconsistent : Consistent store := by
    induction hrun with
    | start => exact consistent_of_Initialize hfold hcreated hepoch
    | step _ verified _ stored ih => exact ih.update hfold verified stored
  refine ⟨hconsistent, ?_⟩
  intro header context' verified
  obtain ⟨store', stored⟩ := hconsistent.stores verified context'
  exact ⟨store', stored, fun hcheckpoint => sameRoots_of_checkpoint hcheckpoint stored⟩

end Invariant

section Sample

local instance consistencyTexts : Texts := asciiTexts

local instance consistencyNative : Native := symbolicNative

theorem the_store_is_consistent_after_an_update :
    ∃ store', History (timedStore 2000) [(timedStore 2000, honestHeader)] store' ∧
      Consistent store' := by
  have hfold : ∀ text : Bytes, equalFold text text = true := fun text => beq_self_eq_true _
  have hcreated : Initialize sampleNow timedClient (timedState 2000) = .ok (timedStore 2000) :=
    timedStore_created (by decide)
  obtain ⟨verified, clean⟩ := honestHeader_taken
  obtain ⟨store', stored, -⟩ :=
    (the_store_stays_consistent hfold hcreated rfl .start).2 honestHeader sampleNow verified
  have hrun : History (timedStore 2000) [(timedStore 2000, honestHeader)] store' :=
    .step .start verified clean stored
  exact ⟨store', hrun, (the_store_stays_consistent hfold hcreated rfl hrun).1⟩

end Sample

end cardano_ibc.probabilistic
