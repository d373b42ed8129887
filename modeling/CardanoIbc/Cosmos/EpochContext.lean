-- Epoch contexts of the Cosmos-side client: epoch_context.go and the errors of errors.go. A
-- context says which pools may issue the blocks of an epoch and with how much stake.
import CardanoIbc.Prelude

namespace cardano_ibc.probabilistic

/-- The errors of the client, without the texts they are wrapped in, and those of 02-client it
gives back. -/
inductive Err where
  | ErrInvalidChainID | ErrInvalidTrustingPeriod | ErrInvalidHeaderHeight | ErrInvalidHeader
  | ErrProcessedTimeNotFound | ErrProcessedHeightNotFound | ErrDelayPeriodNotPassed
  | ErrInvalidCurrentEpoch | ErrInvalidProbabilisticScore | ErrInvalidUniquePools
  | ErrInvalidUniqueStake | ErrInvalidAcceptedBlock | ErrInvalidHostStateCommitment
  | ErrInvalidTimestamp | ErrConsensusStateNotFound | ErrInvalidClient | ErrInvalidMisbehaviour
  | ErrFailedMembershipVerification | ErrInvalidConsensus
deriving DecidableEq, Repr

instance exceptDecidableEq {ε α : Type} [DecidableEq ε] [DecidableEq α] :
    DecidableEq (Except ε α)
  | .error e, .error e' => decidable_of_iff (e = e') (by simp)
  | .ok a, .ok a' => decidable_of_iff (a = a') (by simp)
  | .error _, .ok _ => .isFalse nofun
  | .ok _, .error _ => .isFalse nofun

/-- Go on only if the condition holds. -/
def require (c : Bool) (e : Err) : Except Err Unit := if c then .ok () else .error e

/-- What is there, or the error. -/
def found {α : Type} (x : Option α) (e : Err) : Except Err α :=
  match x with
  | some a => .ok a
  | none => .error e

@[simp] theorem require_eq_ok {c : Bool} {e : Err} {u : Unit} : require c e = .ok u ↔ c = true := by
  cases c <;> simp [require]

@[simp] theorem found_eq_ok {α : Type} {x : Option α} {e : Err} {a : α} :
    found x e = .ok a ↔ x = some a := by
  cases x <;> simp [found]

theorem bind_eq_ok {ε α β : Type} {x : Except ε α} {f : α → Except ε β} {b : β} :
    (x >>= f) = .ok b ↔ ∃ a, x = .ok a ∧ f a = .ok b := by
  cases x <;> simp [bind, Except.bind]

theorem pure_eq_ok {ε α : Type} {a b : α} : (pure a : Except ε α) = .ok b ↔ a = b := by
  simp [pure, Except.pure]

/-- Whatever a list of steps gave comes from one of its items. -/
theorem mem_of_mapM {α β : Type} {f : α → Except Err β} {xs : List α} {ys : List β}
    (h : xs.mapM f = .ok ys) : ∀ y ∈ ys, ∃ x ∈ xs, f x = .ok y := by
  induction xs generalizing ys with
  | nil =>
    simp only [List.mapM_nil, pure_eq_ok] at h
    subst h
    simp
  | cons x xs ih =>
    simp only [List.mapM_cons, bind_eq_ok, pure_eq_ok] at h
    obtain ⟨y, hy, rest, hrest, rfl⟩ := h
    intro z hz
    rcases List.mem_cons.mp hz with rfl | hz
    · exact ⟨x, List.mem_cons_self, hy⟩
    · obtain ⟨w, hw, hwz⟩ := ih hrest z hz
      exact ⟨w, List.mem_cons_of_mem x hw, hwz⟩

/-- What the client takes from the language's library. A text is its bytes. -/
class Texts where
  toLower : Bytes → Bytes
  equalFold : Bytes → Bytes → Bool
  trimSpace : Bytes → Bytes

export Texts (toLower equalFold trimSpace)

structure StakeDistributionEntry where
  poolId : Bytes
  stake : UInt64
  vrfKeyHash : Bytes
  firstRegistrationSlot : UInt64
deriving DecidableEq, Repr

structure EpochContext where
  epoch : UInt64
  stakeDistribution : List StakeDistributionEntry
  epochNonce : Bytes
  slotsPerKesPeriod : UInt64
  epochStartSlot : UInt64
  epochEndSlotExclusive : UInt64
deriving DecidableEq, Repr

section Contexts

variable [Texts]

/-- The entries one after the other, with the pools and the stake seen so far. The stake wraps
around at 64 bits. -/
def validateEntries : List StakeDistributionEntry → List Bytes → UInt64 → Except Err UInt64
  | [], _, totalStake => .ok totalStake
  | entry :: entries, seenPools, totalStake => do
    require (trimSpace entry.poolId != []) .ErrInvalidCurrentEpoch
    require (entry.vrfKeyHash.length == 32) .ErrInvalidCurrentEpoch
    require (!seenPools.contains (toLower entry.poolId)) .ErrInvalidCurrentEpoch
    validateEntries entries (toLower entry.poolId :: seenPools) (totalStake + entry.stake)

def validateEpochContext (ctx : EpochContext) : Except Err Unit := do
  require (!ctx.stakeDistribution.isEmpty) .ErrInvalidCurrentEpoch
  require (ctx.epochNonce.length == 32) .ErrInvalidCurrentEpoch
  require (ctx.slotsPerKesPeriod != 0) .ErrInvalidCurrentEpoch
  require (ctx.epochStartSlot < ctx.epochEndSlotExclusive) .ErrInvalidCurrentEpoch
  let totalStake ← validateEntries ctx.stakeDistribution [] 0
  require (totalStake != 0) .ErrInvalidCurrentEpoch

/-- The entry a map from pools to entries holds for a pool: the last of its name. -/
def entryByPool (entries : List StakeDistributionEntry) (poolKey : Bytes) :
    Option StakeDistributionEntry :=
  entries.reverse.find? fun entry => toLower entry.poolId == poolKey

/-- The slots pools were registered in are not compared. -/
def epochContextsEqual (left right : EpochContext) : Bool :=
  left.epoch == right.epoch && left.slotsPerKesPeriod == right.slotsPerKesPeriod &&
    left.epochStartSlot == right.epochStartSlot &&
    left.epochEndSlotExclusive == right.epochEndSlotExclusive &&
    left.epochNonce == right.epochNonce &&
    left.stakeDistribution.length == right.stakeDistribution.length &&
    left.stakeDistribution.all fun leftEntry =>
      match entryByPool right.stakeDistribution (toLower leftEntry.poolId) with
      | none => false
      | some rightEntry => leftEntry.stake == rightEntry.stake &&
          leftEntry.vrfKeyHash == rightEntry.vrfKeyHash

/-- Put a context into a list sorted by epoch, in the place of one for the same epoch. -/
def insertContext (ctx : EpochContext) : List EpochContext → List EpochContext
  | [] => [ctx]
  | c :: cs =>
    if ctx.epoch < c.epoch then ctx :: c :: cs
    else if ctx.epoch = c.epoch then ctx :: cs
    else c :: insertContext ctx cs

def epochContextByEpoch (contexts : List EpochContext) (epoch : UInt64) : Option EpochContext :=
  contexts.find? fun ctx => ctx.epoch == epoch

/-- The contexts one after the other, into a map by epoch that is read out in order. -/
def normalizeFrom : List EpochContext → List EpochContext → Except Err (List EpochContext)
  | [], byEpoch => .ok byEpoch
  | ctx :: contexts, byEpoch => do
    validateEpochContext ctx
    match epochContextByEpoch byEpoch ctx.epoch with
    | some existing => require (epochContextsEqual existing ctx) .ErrInvalidCurrentEpoch
    | none => pure ()
    normalizeFrom contexts (insertContext ctx byEpoch)

def normalizeEpochContexts (contexts : List EpochContext) : Except Err (List EpochContext) :=
  normalizeFrom contexts []

/-- The candidate stands in for the one context of its epoch, also if it differs from it. -/
def mergeEpochContexts (base : List EpochContext) (candidate : Option EpochContext) :
    Except Err (List EpochContext) := do
  let contexts ← normalizeEpochContexts base
  match candidate with
  | none => return contexts
  | some candidate =>
    validateEpochContext candidate
    if contexts.any fun ctx => ctx.epoch == candidate.epoch then
      return contexts.map fun ctx => if ctx.epoch = candidate.epoch then candidate else ctx
    else normalizeEpochContexts (contexts ++ [candidate])

/-- The last context whose slots these are. -/
def epochContextForSlot (contexts : List EpochContext) (slot : UInt64) : Option EpochContext :=
  contexts.foldl (fun found ctx =>
    if ctx.epochStartSlot ≤ slot ∧ slot < ctx.epochEndSlotExclusive then some ctx else found) none

def retainEpochContexts (contexts : List EpochContext) (keep : List UInt64) : List EpochContext :=
  contexts.filter fun ctx => keep.contains ctx.epoch

end Contexts

end cardano_ibc.probabilistic
