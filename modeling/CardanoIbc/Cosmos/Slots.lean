-- Which epoch a slot belongs to: the slots of the contexts a client stores, over runs of updates.
-- The ranges come with the headers, and the client looks at each of them by itself only.
import CardanoIbc.Cosmos.Runs

namespace cardano_ibc.probabilistic

def EpochContext.Has (ctx : EpochContext) (slot : UInt64) : Prop :=
  ctx.epochStartSlot ≤ slot ∧ slot < ctx.epochEndSlotExclusive

/-- The slots of the contexts are disjoint and increase with the epoch. -/
def SlotsInOrder (contexts : List EpochContext) : Prop :=
  ∀ a ∈ contexts, ∀ b ∈ contexts, a.epoch < b.epoch → a.epochEndSlotExclusive ≤ b.epochStartSlot

/-- A context lies between the lower and the higher ones of a list. -/
def LiesBetween (new : EpochContext) (contexts : List EpochContext) : Prop :=
  ∀ ctx ∈ contexts, (ctx.epoch < new.epoch → ctx.epochEndSlotExclusive ≤ new.epochStartSlot) ∧
    (new.epoch < ctx.epoch → new.epochEndSlotExclusive ≤ ctx.epochStartSlot)

/-! ## The context of a slot -/

theorem SlotsInOrder.subset {contexts contexts' : List EpochContext} (h : SlotsInOrder contexts)
    (hsub : ∀ ctx ∈ contexts', ctx ∈ contexts) : SlotsInOrder contexts' :=
  fun a ha b hb => h a (hsub a ha) b (hsub b hb)

/-- Two contexts with a slot in common are of one epoch. -/
theorem SlotsInOrder.epoch_eq {contexts : List EpochContext} (h : SlotsInOrder contexts)
    {a b : EpochContext} (ha : a ∈ contexts) (hb : b ∈ contexts) {slot : UInt64}
    (hasA : a.Has slot) (hasB : b.Has slot) : a.epoch = b.epoch := by
  by_cases hlt : a.epoch < b.epoch
  · have hle := h a ha b hb hlt
    exact absurd (UInt64.lt_of_lt_of_le hasA.2 (UInt64.le_trans hle hasB.1)) (UInt64.lt_irrefl _)
  by_cases hgt : b.epoch < a.epoch
  · have hle := h b hb a ha hgt
    exact absurd (UInt64.lt_of_lt_of_le hasB.2 (UInt64.le_trans hle hasA.1)) (UInt64.lt_irrefl _)
  exact UInt64.le_antisymm (UInt64.not_lt.mp hgt) (UInt64.not_lt.mp hlt)

/-- A slot that some context has is found. -/
theorem epochContextForSlot_isSome {contexts : List EpochContext} {ctx : EpochContext}
    {slot : UInt64} (hmem : ctx ∈ contexts) (hhas : ctx.Has slot) :
    ∃ found, epochContextForSlot contexts slot = some found := by
  suffices hfold : ∀ start : Option EpochContext, (start.isSome ∨ ctx ∈ contexts) →
      (contexts.foldl (fun found ctx =>
        if ctx.epochStartSlot ≤ slot ∧ slot < ctx.epochEndSlotExclusive then some ctx else found)
        start).isSome from Option.isSome_iff_exists.mp (hfold none (.inr hmem))
  clear hmem
  induction contexts with
  | nil => exact fun start h => h.resolve_right List.not_mem_nil
  | cons c cs ih =>
    intro start h
    refine ih _ ?_
    beta_reduce
    split
    · exact .inl rfl
    · rename_i hnot
      rcases h with hstart | hmem
      · exact .inl hstart
      · rcases List.mem_cons.mp hmem with rfl | hmem
        · exact absurd hhas hnot
        · exact .inr hmem

section Slots

variable [Texts]

theorem Normal.eq_of_epoch {contexts : List EpochContext} (h : Normal contexts)
    {a b : EpochContext} (ha : a ∈ contexts) (hb : b ∈ contexts) (hepoch : a.epoch = b.epoch) :
    a = b := by
  have hfound := h.byEpoch ha
  rw [hepoch, h.byEpoch hb] at hfound
  exact (Option.some.inj hfound).symm

/-- With the slots in order, the context that is found for a slot is the only one with it. -/
theorem SlotsInOrder.forSlot {contexts : List EpochContext} (h : SlotsInOrder contexts)
    (hnormal : Normal contexts) {ctx : EpochContext} (hmem : ctx ∈ contexts) {slot : UInt64}
    (hhas : ctx.Has slot) : epochContextForSlot contexts slot = some ctx := by
  obtain ⟨other, hfound⟩ := epochContextForSlot_isSome hmem hhas
  have hother : other ∈ contexts :=
    (epochContextForSlot_mem hfound).resolve_right fun hnone => by cases hnone
  have hwithin : other.Has slot := by
    have hslot := epochContextForSlot_within hfound
    simpa [verifySlotWithinEpochContext, require, EpochContext.Has] using hslot
  rw [hfound, hnormal.eq_of_epoch hother hmem (h.epoch_eq hother hmem hwithin hhas)]

/-! ## Merging -/

theorem mem_normalizeFrom {contexts byEpoch out : List EpochContext} {x : EpochContext}
    (h : normalizeFrom contexts byEpoch = .ok out) (hx : x ∈ out) :
    x ∈ contexts ∨ x ∈ byEpoch := by
  induction contexts generalizing byEpoch with
  | nil =>
    cases h
    exact .inr hx
  | cons ctx contexts ih =>
    have hrest : x ∈ contexts ∨ x ∈ insertContext ctx byEpoch := by
      simp only [normalizeFrom, bind_eq_ok] at h
      obtain ⟨_, -, h⟩ := h
      split at h
      · simp only [bind_eq_ok] at h
        obtain ⟨-, -, h⟩ := h
        exact ih h
      · exact ih h
    rcases hrest with hx | hx
    · exact .inl (List.mem_cons_of_mem _ hx)
    · rcases mem_insertContext hx with rfl | hx
      · exact .inl List.mem_cons_self
      · exact .inr hx

theorem normalizeEpochContexts_subset {contexts out : List EpochContext}
    (h : normalizeEpochContexts contexts = .ok out) : ∀ x ∈ out, x ∈ contexts :=
  fun _ hx => (mem_normalizeFrom h hx).resolve_right List.not_mem_nil

theorem normalizeFrom_append {xs ys byEpoch out : List EpochContext} :
    normalizeFrom (xs ++ ys) byEpoch = .ok out ↔
      ∃ between, normalizeFrom xs byEpoch = .ok between ∧ normalizeFrom ys between = .ok out := by
  induction xs generalizing byEpoch with
  | nil => simp [normalizeFrom]
  | cons x xs ih =>
    simp only [List.cons_append, normalizeFrom, bind_eq_ok]
    cases epochContextByEpoch byEpoch x.epoch with
    | none => simp [ih, and_assoc]
    | some existing => simp [bind_eq_ok, ih, and_assoc]

omit [Texts] in
theorem mem_insertContext_iff {ctx x : EpochContext} {contexts : List EpochContext}
    (hfresh : ∀ c ∈ contexts, c.epoch ≠ ctx.epoch) :
    x ∈ insertContext ctx contexts ↔ x = ctx ∨ x ∈ contexts := by
  refine ⟨mem_insertContext, ?_⟩
  rintro (rfl | hx)
  · exact self_mem_insertContext x contexts
  induction contexts with
  | nil => cases hx
  | cons c cs ih =>
    unfold insertContext
    split
    · exact List.mem_cons_of_mem _ hx
    · rw [if_neg (Ne.symm (hfresh c List.mem_cons_self))]
      rcases List.mem_cons.mp hx with rfl | hx
      · exact List.mem_cons_self
      · exact List.mem_cons_of_mem _ (ih (fun d hd => hfresh d (List.mem_cons_of_mem _ hd)) hx)

/-- A new context is put among the others, and takes the place of one of its epoch. -/
theorem mem_merged_iff {contexts merged : List EpochContext} {new x : EpochContext}
    (hnormal : Normal contexts) (h : mergeEpochContexts contexts (some new) = .ok merged) :
    x ∈ merged ↔ x = new ∨ x ∈ contexts ∧ x.epoch ≠ new.epoch := by
  obtain ⟨hmerged, hnew, -⟩ := mergeEpochContexts_spec hnormal h
  have hmem := (epochContextByEpoch_spec (hnew new rfl).2).1
  have hbase : normalizeEpochContexts contexts = .ok contexts :=
    Normal.normalizeFrom (show Normal ([] ++ contexts) from hnormal)
  simp only [mergeEpochContexts, hbase, bind_eq_ok, Except.ok.injEq, exists_eq_left'] at h
  obtain ⟨_, hvalid, h⟩ := h
  split at h
  · -- the one of its epoch is replaced
    simp only [pure_eq_ok] at h
    subst h
    constructor
    · intro hx
      obtain ⟨y, hy, heq⟩ := List.mem_map.mp hx
      split at heq
      · exact .inl heq.symm
      · rename_i hne
        exact .inr (heq ▸ ⟨hy, hne⟩)
    · rintro (rfl | ⟨hx, hne⟩)
      · exact hmem
      · exact List.mem_map.mpr ⟨x, hx, if_neg hne⟩
  · -- there is none of its epoch
    rename_i hany
    have hfresh : ∀ c ∈ contexts, c.epoch ≠ new.epoch := by
      intro c hc heq
      exact hany (List.any_eq_true.mpr ⟨c, hc, beq_iff_eq.mpr heq⟩)
    have hnone : epochContextByEpoch contexts new.epoch = none :=
      List.find?_eq_none.mpr fun c hc => by simpa using hfresh c hc
    obtain ⟨between, hbetween, hlast⟩ := normalizeFrom_append.mp h
    rw [normalizeEpochContexts, hbetween, Except.ok.injEq] at hbase
    subst hbase
    simp only [normalizeFrom, hvalid, hnone, bind_eq_ok] at hlast
    obtain ⟨_, -, hlast⟩ := hlast
    cases hlast
    rw [mem_insertContext_iff hfresh]
    exact or_congr_right ⟨fun hx => ⟨hx, hfresh x hx⟩, fun hx => hx.1⟩

/-! ## One update -/

/-- A context brought for an epoch that is not stored lies between the stored ones. -/
def Fits (store : Store) (header : ProbabilisticHeader) : Prop :=
  ∀ contexts new, store.clientState.normalizedEpochContexts = .ok contexts →
    header.newEpochContext = some new → epochContextByEpoch contexts new.epoch = none →
    LiesBetween new contexts

/-- The contexts that an update looks slots up in, the stored ones and the one it brings, are in
order, every slot of one of them is found to be in that one only, and a slot of a stored context
is found in its epoch. -/
def Resolves (store : Store) (header : ProbabilisticHeader) : Prop :=
  ∀ contexts merged, store.clientState.normalizedEpochContexts = .ok contexts →
    mergeEpochContexts contexts header.newEpochContext = .ok merged →
    SlotsInOrder merged ∧
      (∀ slot, ∀ ctx ∈ merged, ctx.Has slot → epochContextForSlot merged slot = some ctx ∧
        ∀ other ∈ merged, other.Has slot → other = ctx) ∧
      ∀ slot, ∀ ctx ∈ contexts, ctx.Has slot →
        (epochContextForSlot merged slot).map EpochContext.epoch = some ctx.epoch

theorem bounds_of_equal {stored new : EpochContext}
    (h : epochContextsEqual stored new = true) :
    stored.epochStartSlot = new.epochStartSlot ∧
      stored.epochEndSlotExclusive = new.epochEndSlotExclusive := by
  simp only [epochContextsEqual, Bool.and_eq_true, beq_iff_eq] at h
  exact ⟨h.1.1.1.1.2, h.1.1.1.2⟩

/-- A header that is no misbehaviour has the slots that are stored for its epoch. -/
theorem bounds_of_clean {store : Store} {header : ProbabilisticHeader}
    {contexts : List EpochContext} {stored new : EpochContext}
    (hclean : CheckForMisbehaviour store header = false)
    (hnormalized : store.clientState.normalizedEpochContexts = .ok contexts)
    (hnew : header.newEpochContext = some new)
    (hstored : epochContextByEpoch contexts new.epoch = some stored) :
    stored.epochStartSlot = new.epochStartSlot ∧
      stored.epochEndSlotExclusive = new.epochEndSlotExclusive := by
  simp only [CheckForMisbehaviour, Bool.or_eq_false_iff,
    ClientState.headerEpochContextConflictsWithStored, hnew, hnormalized, hstored] at hclean
  exact bounds_of_equal (by simpa using hclean.2)

/-- What the contexts of an update have to be, from what the stored ones are. -/
theorem slotsInOrder_merged_iff {store : Store} {header : ProbabilisticHeader}
    {contexts merged : List EpochContext} {new : EpochContext}
    (hclean : CheckForMisbehaviour store header = false)
    (hnormalized : store.clientState.normalizedEpochContexts = .ok contexts)
    (hnew : header.newEpochContext = some new)
    (hmerges : mergeEpochContexts contexts (some new) = .ok merged) (h : SlotsInOrder contexts) :
    SlotsInOrder merged ↔
      (epochContextByEpoch contexts new.epoch = none → LiesBetween new contexts) := by
  have hnormal := normalizeEpochContexts_normal hnormalized
  constructor
  · intro hmerged hnone ctx hctx
    have hne : ctx.epoch ≠ new.epoch := by
      simpa using List.find?_eq_none.mp hnone ctx hctx
    have hin := (mem_merged_iff hnormal hmerges).mpr (.inr ⟨hctx, hne⟩)
    have hself := (mem_merged_iff hnormal hmerges).mpr (.inl rfl)
    exact ⟨hmerged ctx hin new hself, hmerged new hself ctx hin⟩
  · intro hlies
    -- a stored context of the epoch has the slots of the new one
    have hbetween : LiesBetween new contexts := by
      cases hstored : epochContextByEpoch contexts new.epoch with
      | none => exact hlies hstored
      | some stored =>
        obtain ⟨hmem, hepoch⟩ := epochContextByEpoch_spec hstored
        obtain ⟨hstart, hstop⟩ := bounds_of_clean hclean hnormalized hnew hstored
        intro ctx hctx
        rw [← hepoch, ← hstart, ← hstop]
        exact ⟨h ctx hctx stored hmem, h stored hmem ctx hctx⟩
    intro a ha b hb hlt
    rcases (mem_merged_iff hnormal hmerges).mp ha with rfl | ⟨ha, -⟩
    · rcases (mem_merged_iff hnormal hmerges).mp hb with rfl | ⟨hb, -⟩
      · exact absurd hlt (UInt64.lt_irrefl _)
      · exact (hbetween b hb).2 hlt
    · rcases (mem_merged_iff hnormal hmerges).mp hb with rfl | ⟨hb, -⟩
      · exact (hbetween a ha).1 hlt
      · exact h a ha b hb hlt

/-- The slots of the stored contexts stay in their epochs. -/
theorem SlotsInOrder.keeps_epochs {store : Store} {header : ProbabilisticHeader}
    {contexts merged : List EpochContext} (h : SlotsInOrder merged)
    (hclean : CheckForMisbehaviour store header = false)
    (hnormalized : store.clientState.normalizedEpochContexts = .ok contexts)
    (hmerges : mergeEpochContexts contexts header.newEpochContext = .ok merged)
    {ctx : EpochContext} (hctx : ctx ∈ contexts) {slot : UInt64} (hhas : ctx.Has slot) :
    (epochContextForSlot merged slot).map EpochContext.epoch = some ctx.epoch := by
  have hnormal := normalizeEpochContexts_normal hnormalized
  obtain ⟨hmerged, -, hsame⟩ := mergeEpochContexts_spec hnormal hmerges
  cases hnew : header.newEpochContext with
  | none =>
    rw [hsame hnew] at h ⊢
    rw [h.forSlot hnormal hctx hhas]
    rfl
  | some new =>
    rw [hnew] at hmerges
    by_cases hepoch : ctx.epoch = new.epoch
    · have hstored := hnormal.byEpoch hctx
      rw [hepoch] at hstored
      obtain ⟨hstart, hstop⟩ := bounds_of_clean hclean hnormalized hnew hstored
      have hnewHas : new.Has slot := by
        rw [EpochContext.Has, ← hstart, ← hstop]
        exact hhas
      rw [h.forSlot hmerged ((mem_merged_iff hnormal hmerges).mpr (.inl rfl)) hnewHas, hepoch]
      rfl
    · rw [h.forSlot hmerged ((mem_merged_iff hnormal hmerges).mpr (.inr ⟨hctx, hepoch⟩)) hhas]
      rfl

/-- Of a client whose contexts are in order, an update resolves all slots exactly if the context it
brings fits. -/
theorem resolves_iff_fits {store : Store} {header : ProbabilisticHeader}
    (hclean : CheckForMisbehaviour store header = false)
    (h : SlotsInOrder store.clientState.epochContexts)
    (hmerges : ∃ contexts merged, store.clientState.normalizedEpochContexts = .ok contexts ∧
      mergeEpochContexts contexts header.newEpochContext = .ok merged) :
    Resolves store header ↔ Fits store header := by
  obtain ⟨contexts, merged, hnormalized, hmerges⟩ := hmerges
  have horder : SlotsInOrder contexts := h.subset (normalizeEpochContexts_subset hnormalized)
  have hnormal := normalizeEpochContexts_normal hnormalized
  constructor
  · intro hresolves contexts' new hnormalized' hnew
    rw [hnormalized, Except.ok.injEq] at hnormalized'
    subst hnormalized'
    have hmerged := (hresolves contexts merged hnormalized hmerges).1
    rw [hnew] at hmerges
    exact (slotsInOrder_merged_iff hclean hnormalized hnew hmerges horder).mp hmerged
  · intro hfits contexts' merged' hnormalized' hmerges'
    rw [hnormalized, Except.ok.injEq] at hnormalized'
    subst hnormalized'
    rw [hmerges, Except.ok.injEq] at hmerges'
    subst hmerges'
    obtain ⟨hmergedNormal, -, hsame⟩ := mergeEpochContexts_spec hnormal hmerges
    have hmerged : SlotsInOrder merged := by
      cases hnew : header.newEpochContext with
      | none =>
        rw [hsame hnew]
        exact horder
      | some new =>
        rw [hnew] at hmerges
        exact (slotsInOrder_merged_iff hclean hnormalized hnew hmerges horder).mpr
          (hfits contexts new hnormalized hnew)
    refine ⟨hmerged, ?_, ?_⟩
    · intro slot ctx hctx hhas
      refine ⟨hmerged.forSlot hmergedNormal hctx hhas, ?_⟩
      intro other hother hotherHas
      exact hmergedNormal.eq_of_epoch hother hctx (hmerged.epoch_eq hother hctx hotherHas hhas)
    · intro slot ctx hctx hhas
      exact hmerged.keeps_epochs hclean hnormalized hmerges hctx hhas

/-! ## Runs -/

variable [Native]

/-- An update stores only contexts it has looked slots up in. -/
theorem UpdateState_contexts {context : Context} {store store' : Store}
    {header : ProbabilisticHeader} (h : UpdateState context store header = .ok store') :
    ∃ contexts merged, store.clientState.normalizedEpochContexts = .ok contexts ∧
      mergeEpochContexts contexts header.newEpochContext = .ok merged ∧
      ∀ ctx ∈ store'.clientState.epochContexts, ctx ∈ merged := by
  obtain ⟨contexts, merged, authenticated, trusted, ctx, reads, h⟩ := UpdateState_eq_ok.mp h
  refine ⟨contexts, merged, reads.normalized, reads.merges, ?_⟩
  rcases h with ⟨-, cs, hcs, rfl⟩ | ⟨-, anchor, height, pruned, root, metrics, cs, -, -, -, -, hcs,
    rfl⟩
  · obtain ⟨_, -, rfl⟩ := keepContexts_eq_ok.mp hcs
    exact fun c hc => (List.mem_filter.mp hc).1
  · obtain ⟨_, -, rfl⟩ := keepContexts_eq_ok.mp hcs
    exact fun c hc => (List.mem_filter.mp hc).1

/-- In a run of updates all slots are resolved, and the stored contexts are in order at all times,
exactly if those the client starts with are, and every context that is brought fits. -/
theorem slots_resolve_iff_contexts_fit {start store : Store}
    {past : List (Store × ProbabilisticHeader)} (hrun : History start past store) :
    ((∀ s ∈ store :: past.map Prod.fst, SlotsInOrder s.clientState.epochContexts) ∧
        ∀ e ∈ past, Resolves e.1 e.2) ↔
      SlotsInOrder start.clientState.epochContexts ∧ ∀ e ∈ past, Fits e.1 e.2 := by
  induction hrun with
  | start => simp
  | @step past store store' header context _ _ clean stored ih =>
    obtain ⟨contexts, merged, hnormalized, hmerges, hkept⟩ := UpdateState_contexts stored
    have hiff := fun h => resolves_iff_fits clean h ⟨contexts, merged, hnormalized, hmerges⟩
    constructor
    · rintro ⟨hstates, hresolves⟩
      rw [List.map_cons] at hstates
      obtain ⟨hstart, hfits⟩ := ih.mp ⟨fun s hs => hstates s (List.mem_cons_of_mem _ hs),
        fun e he => hresolves e (List.mem_cons_of_mem _ he)⟩
      refine ⟨hstart, List.forall_mem_cons.mpr ⟨?_, hfits⟩⟩
      exact (hiff (hstates store (by simp))).mp (hresolves _ List.mem_cons_self)
    · rintro ⟨hstart, hfits⟩
      obtain ⟨hstates, hresolves⟩ :=
        ih.mpr ⟨hstart, fun e he => hfits e (List.mem_cons_of_mem _ he)⟩
      have hnow := (hiff (hstates store List.mem_cons_self)).mpr (hfits _ List.mem_cons_self)
      refine ⟨?_, List.forall_mem_cons.mpr ⟨hnow, hresolves⟩⟩
      rw [List.map_cons, List.forall_mem_cons]
      exact ⟨(hnow contexts merged hnormalized hmerges).1.subset hkept, hstates⟩

end Slots

/-! ### An epoch that begins too early -/

section Sample

local instance slotsTexts : Texts := asciiTexts

local instance slotsNative : Native := symbolicNative

/-- The epoch before the sample's, with half of the slots of the next one. -/
def longContext : EpochContext := { genuineContext with epochEndSlotExclusive := 2500 }

/-- The epoch a slot has among the stored contexts. -/
def epochOfSlot (store : Store) (slot : UInt64) : Option UInt64 :=
  (epochContextForSlot store.clientState.epochContexts slot).map EpochContext.epoch

/-- The slots of the contexts that are stored after an update, and the epoch of one slot. -/
def slotsAfter (store : Store) (header : ProbabilisticHeader) (slot : UInt64) :
    Option (List (UInt64 × UInt64 × UInt64) × Option UInt64) :=
  (UpdateState sampleNow store header).toOption.map fun s =>
    (s.clientState.epochContexts.map fun ctx =>
      (ctx.epoch, ctx.epochStartSlot, ctx.epochEndSlotExclusive), epochOfSlot s slot)

theorem exists_store_of_slotsAfter {store : Store} {header : ProbabilisticHeader} {slot : UInt64}
    {slots : List (UInt64 × UInt64 × UInt64) × Option UInt64}
    (h : slotsAfter store header slot = some slots) :
    ∃ store', UpdateState sampleNow store header = .ok store' ∧
      (store'.clientState.epochContexts.map fun ctx =>
        (ctx.epoch, ctx.epochStartSlot, ctx.epochEndSlotExclusive)) = slots.1 ∧
      epochOfSlot store' slot = slots.2 := by
  unfold slotsAfter at h
  cases hupdate : UpdateState sampleNow store header with
  | error e => simp [hupdate, Except.toOption] at h
  | ok store' =>
    simp only [hupdate, Except.toOption, Option.map_some, Option.some.injEq] at h
    exact ⟨store', rfl, congrArg Prod.fst h, congrArg Prod.snd h⟩

theorem longContext_taken :
    (sampleStore longContext).clientState.Validate = .ok () ∧
      verifyHeader (sampleStore longContext) forgedHeader = .ok () ∧
      CheckForMisbehaviour (sampleStore longContext) forgedHeader = false ∧
      slotsAfter (sampleStore longContext) forgedHeader 2001 =
        some ([(10, 1000, 2500), (11, 2000, 3000)], some 11) := by
  decide +kernel

/-- An update is taken whose context has slots of the stored one: after it the two overlap, and a
slot that was in the stored epoch is in the new one. -/
theorem a_slot_moves_to_the_next_epoch :
    (sampleStore longContext).clientState.Validate = .ok () ∧
      SlotsInOrder (sampleStore longContext).clientState.epochContexts ∧
      epochOfSlot (sampleStore longContext) 2001 = some 10 ∧
      ∃ store, History (sampleStore longContext) [(sampleStore longContext, forgedHeader)] store ∧
        ¬ SlotsInOrder store.clientState.epochContexts ∧ epochOfSlot store 2001 = some 11 := by
  obtain ⟨hvalid, hverified, hclean, hafter⟩ := longContext_taken
  obtain ⟨store, hstored, hslots, hepoch⟩ := exists_store_of_slotsAfter hafter
  refine ⟨hvalid, ?_, by decide, store, .step .start hverified hclean hstored, ?_, hepoch⟩
  · intro a ha b hb hlt
    rw [List.mem_singleton.mp ha, List.mem_singleton.mp hb] at hlt
    exact absurd hlt (UInt64.lt_irrefl _)
  · intro horder
    have hlong : (10, 1000, 2500) ∈ store.clientState.epochContexts.map fun ctx =>
        (ctx.epoch, ctx.epochStartSlot, ctx.epochEndSlotExclusive) := by
      rw [hslots]
      exact List.mem_cons_self
    have hnext : (11, 2000, 3000) ∈ store.clientState.epochContexts.map fun ctx =>
        (ctx.epoch, ctx.epochStartSlot, ctx.epochEndSlotExclusive) := by
      rw [hslots]
      exact List.mem_cons_of_mem _ List.mem_cons_self
    obtain ⟨a, ha, hbounds⟩ := List.mem_map.mp hlong
    obtain ⟨b, hb, hbounds'⟩ := List.mem_map.mp hnext
    simp only [Prod.mk.injEq] at hbounds hbounds'
    have hle := horder a ha b hb (by rw [hbounds.1, hbounds'.1]; decide)
    rw [hbounds.2.2, hbounds'.2.1] at hle
    exact absurd hle (by decide)

/-- The next epoch begins where the stored one ends. -/
theorem slots_resolve_after_the_stored_epoch :
    ∃ store, History (sampleStore genuineContext) [(sampleStore genuineContext, forgedHeader)]
        store ∧
      SlotsInOrder store.clientState.epochContexts ∧
      Resolves (sampleStore genuineContext) forgedHeader := by
  obtain ⟨store, hstored⟩ := exists_store_of_rootAfter forgedHeader_stored
  have hrun : History (sampleStore genuineContext) [(sampleStore genuineContext, forgedHeader)]
      store := .step .start forgedHeader_verified forgedHeader_clean hstored
  have hnormalized : (sampleStore genuineContext).clientState.normalizedEpochContexts =
      .ok [genuineContext] := by decide
  have hfits : Fits (sampleStore genuineContext) forgedHeader := by
    intro contexts new hcontexts hnew _ ctx hctx
    rw [hnormalized, Except.ok.injEq] at hcontexts
    subst hcontexts
    cases hnew
    rw [List.mem_singleton.mp hctx]
    decide
  have hstart : SlotsInOrder (sampleStore genuineContext).clientState.epochContexts := by
    intro a ha b hb hlt
    rw [List.mem_singleton.mp ha, List.mem_singleton.mp hb] at hlt
    exact absurd hlt (UInt64.lt_irrefl _)
  obtain ⟨hstates, hresolves⟩ := (slots_resolve_iff_contexts_fit hrun).mpr
    ⟨hstart, fun e he => by rw [List.mem_singleton.mp he]; exact hfits⟩
  exact ⟨store, hrun, hstates store List.mem_cons_self, hresolves _ List.mem_cons_self⟩

end Sample

end cardano_ibc.probabilistic
