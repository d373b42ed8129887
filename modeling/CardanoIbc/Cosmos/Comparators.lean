-- The records that Cardano commits to, as the Cosmos-side client decodes them and compares them with
-- what it expects: types.go and tm_helper.go of the package cardanodatum, and ibc_state_proof.go
-- with them. A type assertion that does not hold makes the code panic.
import CardanoIbc.Cosmos.Membership
import Mathlib.Data.List.Sort

namespace cardano_ibc.probabilistic

namespace cardanodatum

open cbor_item (Item)

/-! ## Errors and panics -/

inductive Fault where
  | error (text : String)
  | panic
deriving DecidableEq, Repr

def ensure (c : Bool) (text : String) : Except Fault Unit := if c then .ok () else .error (.error text)

def decoded {α : Type} (x : Option α) (text : String) : Except Fault α :=
  match x with
  | some a => .ok a
  | none => .error (.error text)

/-- What only has errors. -/
def failing {α : Type} (x : Except String α) : Except Fault α :=
  match x with
  | .ok a => .ok a
  | .error text => .error (.error text)

/-- `x.(cbor.Tag).Number`, for the number of the tag that `x` is. -/
def tagNumber (x : Option UInt64) : Except Fault UInt64 :=
  match x with
  | some number => .ok number
  | none => .error .panic

theorem bind_eq_panic {α β : Type} {x : Except Fault α} {f : α → Except Fault β} :
    (x >>= f) = .error .panic ↔ x = .error .panic ∨ ∃ a, x = .ok a ∧ f a = .error .panic := by
  cases x with
  | error e => simp [bind, Except.bind]
  | ok a => simp [bind, Except.bind]

@[simp] theorem ensure_eq_ok {c : Bool} {text : String} {u : Unit} :
    ensure c text = .ok u ↔ c = true := by
  cases c <;> simp [ensure]

@[simp] theorem ensure_ne_panic {c : Bool} {text : String} : ensure c text ≠ .error .panic := by
  cases c <;> simp [ensure]

@[simp] theorem decoded_eq_ok {α : Type} {x : Option α} {text : String} {a : α} :
    decoded x text = .ok a ↔ x = some a := by
  cases x <;> simp [decoded]

@[simp] theorem decoded_ne_panic {α : Type} {x : Option α} {text : String} :
    decoded x text ≠ .error .panic := by
  cases x <;> simp [decoded]

@[simp] theorem failing_eq_ok {α : Type} {x : Except String α} {a : α} :
    failing x = .ok a ↔ x = .ok a := by
  cases x <;> simp [failing]

@[simp] theorem failing_ne_panic {α : Type} {x : Except String α} :
    failing x ≠ .error .panic := by
  cases x <;> simp [failing]

@[simp] theorem tagNumber_eq_ok {x : Option UInt64} {number : UInt64} :
    tagNumber x = .ok number ↔ x = some number := by
  cases x <;> simp [tagNumber]

@[simp] theorem tagNumber_eq_panic {x : Option UInt64} :
    tagNumber x = .error .panic ↔ x = none := by
  cases x <;> simp [tagNumber]

/-! ## What is expected -/

structure Version where
  Identifier : Bytes
  Features : List Bytes
deriving DecidableEq, Repr

structure Height where
  RevisionNumber : UInt64
  RevisionHeight : UInt64
deriving DecidableEq, Repr

structure TrustLevel where
  Numerator : UInt64
  Denominator : UInt64
deriving DecidableEq, Repr

structure Counterparty where
  ClientId : Bytes
  ConnectionId : Bytes
  KeyPrefix : Bytes
deriving DecidableEq, Repr

structure ConnectionEnd where
  ClientId : Bytes
  Versions : List Version
  State : Int32
  Counterparty : Counterparty
  DelayPeriod : UInt64

structure ChannelCounterparty where
  PortId : Bytes
  ChannelId : Bytes
deriving DecidableEq, Repr

structure Channel where
  State : Int32
  Ordering : Int32
  Counterparty : ChannelCounterparty
  ConnectionHops : List Bytes
  Version : Bytes

structure TmClientState where
  ChainId : Bytes
  TrustLevel : TrustLevel
  TrustingPeriod : Int64
  UnbondingPeriod : Int64
  MaxClockDrift : Int64
  FrozenHeight : Height
  LatestHeight : Height

structure TmConsensusState where
  Timestamp : UInt64
  NextValidatorsHash : Bytes
  RootHash : Bytes

/-- What the comparators take from the generated protobuf code and from fxamacker/cbor. An `Any` gives
its value. Of what an item makes of an `interface{}` only the number of a `cbor.Tag` matters. -/
class Datums where
  unmarshalConnectionEnd : Bytes → Option ConnectionEnd
  unmarshalAny : Bytes → Option Bytes
  unmarshalClientState : Bytes → Option TmClientState
  unmarshalConsensusState : Bytes → Option TmConsensusState
  unmarshalChannel : Bytes → Option Channel
  decodeInterface : Item → Option (Option UInt64)

/-! ## What is committed -/

structure ConnectionEndDatum where
  ClientId : Bytes
  Versions : List Version
  State : Option UInt64
  Counterparty : Counterparty
  DelayPeriod : UInt64

structure ChannelDatum where
  State : Option UInt64
  Ordering : Option UInt64
  Counterparty : ChannelCounterparty
  ConnectionHops : List Bytes
  Version : Bytes

/-- The proof specs are decoded and then not looked at. -/
structure ClientStateDatum where
  ChainId : Bytes
  TrustLevel : TrustLevel
  TrustingPeriod : UInt64
  UnbondingPeriod : UInt64
  MaxClockDrift : UInt64
  FrozenHeight : Height
  LatestHeight : Height

structure ConsensusStateDatum where
  Timestamp : UInt64
  NextValidatorsHash : Bytes
  RootHash : Bytes

/-! ### Decoding -/

/-- Into a slice. -/
def slice {α : Type} (element : Item → Option α) (item : Item) : Option (List α) := do
  match ← unmarshal.untag item with
  | .array items => items.mapM element
  | .simple n => if unmarshal.isNil n then some [] else none
  | _ => none

/-- Into an `int32`. -/
def int32 (item : Item) : Option Int32 := do
  match ← unmarshal.untag item with
  | .unsigned n => if n < 2 ^ 31 then some (Int32.ofNat n) else none
  | .negative n => if n < 2 ^ 31 then some (Int32.ofInt (-1 - n)) else none
  | .tag 2 (.bytes bz) =>
    let n := cbor_item.ofBe bz
    if n < 2 ^ 31 then some (Int32.ofNat n) else none
  | .tag 3 (.bytes bz) =>
    let n := cbor_item.ofBe bz
    if n < 2 ^ 31 then some (Int32.ofInt (-1 - n)) else none
  | .simple n => if unmarshal.isNil n then some 0 else none
  | _ => none

/-- Into a struct: by its fields, or left as it is. -/
def struct {α : Type} (zero : α) (fields : List Item → Option α) (item : Item) : Option α := do
  match ← unmarshal.structFields item with
  | some items => fields items
  | none => some zero

def version : Item → Option Version :=
  struct { Identifier := [], Features := [] } fun
    | [identifier, features] => do
      return { Identifier := ← unmarshal.byteSlice identifier
               Features := ← slice unmarshal.byteSlice features }
    | _ => none

def height : Item → Option Height :=
  struct { RevisionNumber := 0, RevisionHeight := 0 } fun
    | [number, height] => do
      return { RevisionNumber := ← unmarshal.uint64 number
               RevisionHeight := ← unmarshal.uint64 height }
    | _ => none

def trustLevel : Item → Option TrustLevel :=
  struct { Numerator := 0, Denominator := 0 } fun
    | [numerator, denominator] => do
      return { Numerator := ← unmarshal.uint64 numerator
               Denominator := ← unmarshal.uint64 denominator }
    | _ => none

def merklePrefix : Item → Option Bytes :=
  struct [] fun
    | [keyPrefix] => unmarshal.byteSlice keyPrefix
    | _ => none

def counterparty : Item → Option Counterparty :=
  struct { ClientId := [], ConnectionId := [], KeyPrefix := [] } fun
    | [client, connection, keyPrefix] => do
      return { ClientId := ← unmarshal.byteSlice client
               ConnectionId := ← unmarshal.byteSlice connection
               KeyPrefix := ← merklePrefix keyPrefix }
    | _ => none

def channelCounterparty : Item → Option ChannelCounterparty :=
  struct { PortId := [], ChannelId := [] } fun
    | [port, channel] => do
      return { PortId := ← unmarshal.byteSlice port, ChannelId := ← unmarshal.byteSlice channel }
    | _ => none

def leafSpec : Item → Option Unit :=
  struct () fun
    | [hash, prehashKey, prehashValue, length, leafPrefix] => do
      let _ ← int32 hash
      let _ ← int32 prehashKey
      let _ ← int32 prehashValue
      let _ ← int32 length
      let _ ← unmarshal.byteSlice leafPrefix
    | _ => none

def innerSpec : Item → Option Unit :=
  struct () fun
    | [childOrder, childSize, minPrefixLength, maxPrefixLength, emptyChild, hash] => do
      let _ ← slice int32 childOrder
      let _ ← int32 childSize
      let _ ← int32 minPrefixLength
      let _ ← int32 maxPrefixLength
      let _ ← unmarshal.byteSlice emptyChild
      let _ ← int32 hash
    | _ => none

def rootHash : Item → Option Bytes :=
  struct [] fun
    | [hash] => unmarshal.byteSlice hash
    | _ => none

def consensusStateDatum : Item → Option ConsensusStateDatum :=
  struct { Timestamp := 0, NextValidatorsHash := [], RootHash := [] } fun
    | [timestamp, validators, root] => do
      return { Timestamp := ← unmarshal.uint64 timestamp
               NextValidatorsHash := ← unmarshal.byteSlice validators
               RootHash := ← rootHash root }
    | _ => none

section Decoding

variable [Datums]

def proofSpec : Item → Option Unit :=
  struct () fun
    | [leaf, inner, maxDepth, minDepth, prehashKey] => do
      leafSpec leaf
      innerSpec inner
      let _ ← int32 maxDepth
      let _ ← int32 minDepth
      let _ ← Datums.decodeInterface prehashKey
    | _ => none

def clientStateDatum : Item → Option ClientStateDatum :=
  struct { ChainId := [], TrustLevel := ⟨0, 0⟩, TrustingPeriod := 0, UnbondingPeriod := 0,
           MaxClockDrift := 0, FrozenHeight := ⟨0, 0⟩, LatestHeight := ⟨0, 0⟩ } fun
    | [chain, trust, trusting, unbonding, drift, frozen, latest, specs] => do
      let datum : ClientStateDatum :=
        { ChainId := ← unmarshal.byteSlice chain
          TrustLevel := ← trustLevel trust
          TrustingPeriod := ← unmarshal.uint64 trusting
          UnbondingPeriod := ← unmarshal.uint64 unbonding
          MaxClockDrift := ← unmarshal.uint64 drift
          FrozenHeight := ← height frozen
          LatestHeight := ← height latest }
      let _ ← slice proofSpec specs
      return datum
    | _ => none

def connectionEndDatum : Item → Option ConnectionEndDatum :=
  struct { ClientId := [], Versions := [], State := none, Counterparty := ⟨[], [], []⟩,
           DelayPeriod := 0 } fun
    | [client, versions, state, other, delay] => do
      return { ClientId := ← unmarshal.byteSlice client
               Versions := ← slice version versions
               State := ← Datums.decodeInterface state
               Counterparty := ← counterparty other
               DelayPeriod := ← unmarshal.uint64 delay }
    | _ => none

def channelDatum : Item → Option ChannelDatum :=
  struct { State := none, Ordering := none, Counterparty := ⟨[], []⟩, ConnectionHops := [],
           Version := [] } fun
    | [state, ordering, other, hops, version] => do
      return { State := ← Datums.decodeInterface state
               Ordering := ← Datums.decodeInterface ordering
               Counterparty := ← channelCounterparty other
               ConnectionHops := ← slice unmarshal.byteSlice hops
               Version := ← unmarshal.byteSlice version }
    | _ => none

end Decoding

/-- `cbor.Unmarshal`. -/
def Unmarshal {α : Type} (into : Item → Option α) (bz : Bytes) : Option α :=
  (cbor_item.read unmarshal.limits bz).bind into

/-! ## Comparing -/

def CBOR_TAG_MAGIC_NUMBER : UInt64 := 121

/-- The conversion of a 64-bit number to an enumeration keeps its low 32 bits. -/
def enumeration (number : UInt64) : Int32 := (number - CBOR_TAG_MAGIC_NUMBER).toUInt32.toInt32

/-- `strings.Join` with commas, of the sorted texts. -/
def sortedJoin (texts : List Bytes) : Bytes :=
  List.intercalate [44] (texts.insertionSort (· ≤ ·))

def cmpVersions : List Version → List Version → Except Fault Unit
  | version :: versions, expected :: expecteds => do
    ensure (version.Identifier == expected.Identifier) "ConnectionEnd: Versions.Identifier mismatch"
    ensure (version.Features.length == expected.Features.length)
      "ConnectionEnd: Versions.Features length mismatch"
    ensure (sortedJoin version.Features == sortedJoin expected.Features)
      "ConnectionEnd: Versions.Features content mismatch"
    cmpVersions versions expecteds
  | _, _ => .ok ()

def ConnectionEndDatum.Cmp (datum : ConnectionEndDatum) (tm : ConnectionEnd) :
    Except Fault Unit := do
  ensure (datum.ClientId == tm.ClientId) "ConnectionEnd: ClientId mismatch"
  ensure (datum.Versions.length == tm.Versions.length) "ConnectionEnd: Versions length mismatch"
  cmpVersions datum.Versions tm.Versions
  let number ← tagNumber datum.State
  ensure (enumeration number == tm.State) "ConnectionEnd: State mismatch"
  ensure (datum.Counterparty.ClientId == tm.Counterparty.ClientId)
    "ConnectionEnd: Counterparty ClientId mismatch"
  ensure (datum.Counterparty.ConnectionId == tm.Counterparty.ConnectionId)
    "ConnectionEnd: Counterparty ConnectionId mismatch"
  ensure (datum.Counterparty.KeyPrefix == tm.Counterparty.KeyPrefix)
    "ConnectionEnd: Counterparty Prefix mismatch"
  ensure (datum.DelayPeriod == tm.DelayPeriod) "ConnectionEnd: DelayPeriod mismatch"

def ChannelDatum.Cmp (datum : ChannelDatum) (expected : Channel) : Except Fault Unit := do
  let state ← tagNumber datum.State
  ensure (enumeration state == expected.State) "Channel: State mismatch"
  let ordering ← tagNumber datum.Ordering
  ensure (enumeration ordering == expected.Ordering) "Channel: Ordering mismatch"
  ensure (datum.Counterparty.PortId == expected.Counterparty.PortId)
    "Channel: Counterparty PortId mismatch"
  ensure (datum.Counterparty.ChannelId == expected.Counterparty.ChannelId)
    "Channel: Counterparty ChannelId mismatch"
  ensure (datum.ConnectionHops.length == expected.ConnectionHops.length)
    "Channel: ConnectionHops length mismatch"
  ensure (sortedJoin datum.ConnectionHops == sortedJoin expected.ConnectionHops)
    "Channel: ConnectionHops content mismatch"
  ensure (datum.Version == expected.Version) "Channel: Version mismatch"

def ClientStateDatum.Cmp (datum : ClientStateDatum) (tm : TmClientState) : Except Fault Unit := do
  ensure (datum.ChainId == tm.ChainId) "ClientState: Chain Id mismatch"
  ensure (datum.TrustLevel == tm.TrustLevel) "ClientState: TrustLevel mismatch"
  ensure (datum.TrustingPeriod == tm.TrustingPeriod.toUInt64) "ClientState: TrustingPeriod mismatch"
  ensure (datum.UnbondingPeriod == tm.UnbondingPeriod.toUInt64)
    "ClientState: UnbondingPeriod mismatch"
  ensure (datum.MaxClockDrift == tm.MaxClockDrift.toUInt64) "ClientState: MaxClockDrift mismatch"
  ensure (datum.FrozenHeight == tm.FrozenHeight) "ClientState: FrozenHeight mismatch"
  ensure (datum.LatestHeight == tm.LatestHeight) "ClientState: LatestHeight mismatch"

def ConsensusStateDatum.Cmp (datum : ConsensusStateDatum) (tm : TmConsensusState) :
    Except Fault Unit := do
  ensure (datum.Timestamp == tm.Timestamp) "ConsensusState: Timestamp mismatch"
  ensure (datum.NextValidatorsHash == tm.NextValidatorsHash)
    "ConsensusState: NextValidatorsHash mismatch"
  ensure (datum.RootHash == tm.RootHash) "ConsensusState: RootHash mismatch"

/-! ## Verifying -/

section Verifying

variable [Datums]

/-- A value that is an `Any` is unwrapped. -/
def innerExpectedValue (expectedValue : Bytes) : Bytes :=
  match Datums.unmarshalAny expectedValue with
  | some value => if value.isEmpty then expectedValue else value
  | none => expectedValue

def connectionsAgree (expectedValue committedValue : Bytes) : Except Fault Unit := do
  let expected ← decoded (Datums.unmarshalConnectionEnd expectedValue)
    "failed to decode expected ConnectionEnd protobuf"
  let committed ← decoded (Unmarshal connectionEndDatum committedValue)
    "failed to decode committed ConnectionEnd CBOR"
  committed.Cmp expected

def clientStatesAgree (expectedValue committedValue : Bytes) : Except Fault Unit := do
  let expected ← decoded (Datums.unmarshalClientState (innerExpectedValue expectedValue))
    "failed to decode expected Tendermint ClientState protobuf"
  let committed ← decoded (Unmarshal clientStateDatum committedValue)
    "failed to decode committed Tendermint ClientState CBOR"
  committed.Cmp expected

def consensusStatesAgree (expectedValue committedValue : Bytes) : Except Fault Unit := do
  let expected ← decoded (Datums.unmarshalConsensusState (innerExpectedValue expectedValue))
    "failed to decode expected Tendermint ConsensusState protobuf"
  let committed ← decoded (Unmarshal consensusStateDatum committedValue)
    "failed to decode committed Tendermint ConsensusState CBOR"
  committed.Cmp expected

def channelsAgree (expectedValue committedValue : Bytes) : Except Fault Unit := do
  let expected ← decoded (Datums.unmarshalChannel expectedValue)
    "failed to decode expected Channel protobuf"
  let committed ← decoded (Unmarshal channelDatum committedValue)
    "failed to decode committed Channel CBOR"
  committed.Cmp expected

def verifyCardanoValueMatchesExpected (key expectedValue committedValue : Bytes) :
    Except Fault Unit :=
  if (utf8 "connections/").isPrefixOf key then connectionsAgree expectedValue committedValue
  else if (utf8 "clients/").isPrefixOf key && (utf8 "/clientState").isSuffixOf key then
    clientStatesAgree expectedValue committedValue
  else if (utf8 "clients/").isPrefixOf key && contains key (utf8 "/consensusStates/") then
    consensusStatesAgree expectedValue committedValue
  else if (utf8 "channelEnds/").isPrefixOf key then channelsAgree expectedValue committedValue
  else if (utf8 "commitments/ports/").isPrefixOf key || (utf8 "acks/ports/").isPrefixOf key ||
      (utf8 "receipts/ports/").isPrefixOf key ||
      (utf8 "nextSequenceRecv/ports/").isPrefixOf key then do
    let committedBytes ← decoded (Unmarshal unmarshal.byteSlice committedValue)
      "failed to decode committed packet bytes CBOR"
    ensure (committedBytes == expectedValue) "existence proof value mismatch"
  else .error (.error "existence proof value mismatch")

variable [Records] [Builtins]

def VerifyIbcStateMembership (root key value proofBytes : Bytes) : Except Fault Unit := do
  let exist ← failing (decodeExistenceProof proofBytes)
  ensure (exist.key.isEmpty || exist.key == key) "existence proof key mismatch"
  if !exist.value.isEmpty && exist.value != value then
    verifyCardanoValueMatchesExpected key value exist.value
  let committedValue := if exist.value.isEmpty then value else exist.value
  let computed ← failing (ComputeRootFromProofPath key committedValue exist.path)
  ensure (computed == root) "proof does not match ibc_state_root"

def VerifyIbcStateNonMembership (root key proofBytes : Bytes) : Except Fault Unit :=
  failing (probabilistic.VerifyIbcStateNonMembership root key proofBytes)

/-! ## Panics -/

omit [Datums] [Records] [Builtins] in
/-- The versions of two connections are the same up to the order of their features. -/
def VersionsAgree (versions expecteds : List Version) : Prop :=
  List.Forall₂ (fun v e => v.Identifier = e.Identifier ∧ v.Features.length = e.Features.length ∧
    sortedJoin v.Features = sortedJoin e.Features) versions expecteds

omit [Datums] [Records] [Builtins] in
theorem cmpVersions_ne_panic (versions expecteds : List Version) :
    cmpVersions versions expecteds ≠ .error .panic := by
  fun_induction cmpVersions versions expecteds with
  | case1 v vs e es ih => simp [bind_eq_panic, ih]
  | case2 => simp

omit [Datums] [Records] [Builtins] in
theorem cmpVersions_eq_ok {versions expecteds : List Version}
    (h : versions.length = expecteds.length) :
    cmpVersions versions expecteds = .ok () ↔ VersionsAgree versions expecteds := by
  induction versions generalizing expecteds with
  | nil =>
    obtain rfl := List.eq_nil_of_length_eq_zero h.symm
    simp [cmpVersions, VersionsAgree]
  | cons v vs ih =>
    cases expecteds with
    | nil => cases h
    | cons e es =>
      have hrest := ih (Nat.succ.inj h)
      rw [VersionsAgree] at hrest ⊢
      simp [cmpVersions, bind_eq_ok, hrest, and_assoc]

omit [Datums] [Records] [Builtins] in
theorem ConnectionEndDatum.Cmp_eq_panic {datum : ConnectionEndDatum} {tm : ConnectionEnd} :
    datum.Cmp tm = .error .panic ↔
      datum.ClientId = tm.ClientId ∧ VersionsAgree datum.Versions tm.Versions ∧
        datum.State = none := by
  unfold ConnectionEndDatum.Cmp
  simp only [bind_eq_panic, ensure_ne_panic, ensure_eq_ok, cmpVersions_ne_panic, tagNumber_eq_panic,
    false_or, or_false, and_false, exists_false, beq_iff_eq]
  constructor
  · rintro ⟨_, hclient, _, hlength, _, hversions, hstate⟩
    exact ⟨hclient, (cmpVersions_eq_ok hlength).mp hversions, hstate⟩
  · rintro ⟨hclient, hversions, hstate⟩
    have hlength := hversions.length_eq
    exact ⟨(), hclient, (), hlength, (), (cmpVersions_eq_ok hlength).mpr hversions, hstate⟩

omit [Datums] [Records] [Builtins] in
theorem ChannelDatum.Cmp_eq_panic {datum : ChannelDatum} {expected : Channel} :
    datum.Cmp expected = .error .panic ↔
      datum.State = none ∨ ∃ state, datum.State = some state ∧
        enumeration state = expected.State ∧ datum.Ordering = none := by
  unfold ChannelDatum.Cmp
  simp only [bind_eq_panic, ensure_ne_panic, ensure_eq_ok, tagNumber_eq_panic, tagNumber_eq_ok,
    false_or, or_false, and_false, exists_false, beq_iff_eq]
  refine or_congr_right (exists_congr fun state => and_congr_right fun _ => ?_)
  exact ⟨fun ⟨_, h⟩ => h, fun h => ⟨(), h⟩⟩

omit [Datums] [Records] [Builtins] in
theorem ClientStateDatum.Cmp_ne_panic (datum : ClientStateDatum) (tm : TmClientState) :
    datum.Cmp tm ≠ .error .panic := by
  simp [ClientStateDatum.Cmp, bind_eq_panic]

omit [Datums] [Records] [Builtins] in
theorem ConsensusStateDatum.Cmp_ne_panic (datum : ConsensusStateDatum) (tm : TmConsensusState) :
    datum.Cmp tm ≠ .error .panic := by
  simp [ConsensusStateDatum.Cmp, bind_eq_panic]

/-- Where the comparison of the records comes to a state or an ordering, it finds a tag. -/
structure Tagged (key expectedValue committedValue : Bytes) : Prop where
  connection : (utf8 "connections/").isPrefixOf key = true → ∀ expected datum,
    Datums.unmarshalConnectionEnd expectedValue = some expected →
    Unmarshal connectionEndDatum committedValue = some datum →
    datum.ClientId = expected.ClientId → VersionsAgree datum.Versions expected.Versions →
      datum.State.isSome
  channel : (utf8 "channelEnds/").isPrefixOf key = true → ∀ expected datum,
    Datums.unmarshalChannel expectedValue = some expected →
    Unmarshal channelDatum committedValue = some datum →
      ∃ state, datum.State = some state ∧
        (enumeration state = expected.State → datum.Ordering.isSome)

omit [Records] [Builtins] in
theorem connectionsAgree_eq_panic {expectedValue committedValue : Bytes} :
    connectionsAgree expectedValue committedValue = .error .panic ↔ ∃ expected datum,
      Datums.unmarshalConnectionEnd expectedValue = some expected ∧
      Unmarshal connectionEndDatum committedValue = some datum ∧
      datum.ClientId = expected.ClientId ∧ VersionsAgree datum.Versions expected.Versions ∧
        datum.State = none := by
  simp only [connectionsAgree, bind_eq_panic, decoded_ne_panic, decoded_eq_ok, false_or,
    ConnectionEndDatum.Cmp_eq_panic]
  exact exists_congr fun expected => exists_and_left.symm

omit [Records] [Builtins] in
theorem channelsAgree_eq_panic {expectedValue committedValue : Bytes} :
    channelsAgree expectedValue committedValue = .error .panic ↔ ∃ expected datum,
      Datums.unmarshalChannel expectedValue = some expected ∧
      Unmarshal channelDatum committedValue = some datum ∧
      (datum.State = none ∨ ∃ state, datum.State = some state ∧
        enumeration state = expected.State ∧ datum.Ordering = none) := by
  simp only [channelsAgree, bind_eq_panic, decoded_ne_panic, decoded_eq_ok, false_or,
    ChannelDatum.Cmp_eq_panic]
  exact exists_congr fun expected => exists_and_left.symm

omit [Datums] [Records] [Builtins] in
/-- No key is of two kinds. -/
theorem isPrefixOf_false_of_ne {p q key : Bytes} (hp : p.isPrefixOf key = true)
    (hne : p.take 3 ≠ q.take 3) (hlength : 3 ≤ p.length) (hlength' : 3 ≤ q.length) :
    q.isPrefixOf key = false := by
  refine Bool.eq_false_iff.mpr fun hq => hne ?_
  rw [List.isPrefixOf_iff_prefix] at hp hq
  obtain ⟨s, hs⟩ := hp
  obtain ⟨t, ht⟩ := hq
  have hsame := congrArg (List.take 3) (hs.trans ht.symm)
  rwa [List.take_append_of_le_length hlength, List.take_append_of_le_length hlength'] at hsame

omit [Records] [Builtins] in
/-- The comparison panics just where it does not find a tag. -/
theorem verifyCardanoValueMatchesExpected_ne_panic {key expectedValue committedValue : Bytes} :
    verifyCardanoValueMatchesExpected key expectedValue committedValue ≠ .error .panic ↔
      Tagged key expectedValue committedValue := by
  unfold verifyCardanoValueMatchesExpected
  by_cases hconnection : (utf8 "connections/").isPrefixOf key = true
  · have hchannel : (utf8 "channelEnds/").isPrefixOf key = false :=
      isPrefixOf_false_of_ne hconnection (by decide) (by decide) (by decide)
    rw [if_pos hconnection, Ne, connectionsAgree_eq_panic]
    constructor
    · intro h
      refine ⟨fun _ expected datum hexpected hdatum hclient hversions => ?_, fun hc => ?_⟩
      · rw [← Option.ne_none_iff_isSome]
        intro hnone
        exact h ⟨expected, datum, hexpected, hdatum, hclient, hversions, hnone⟩
      · rw [hchannel] at hc
        cases hc
    · rintro h ⟨expected, datum, hexpected, hdatum, hclient, hversions, hnone⟩
      have hsome := h.connection hconnection expected datum hexpected hdatum hclient hversions
      rw [hnone] at hsome
      cases hsome
  · rw [if_neg hconnection]
    by_cases hchannel : (utf8 "channelEnds/").isPrefixOf key = true
    · have hclients : (utf8 "clients/").isPrefixOf key = false :=
        isPrefixOf_false_of_ne hchannel (by decide) (by decide) (by decide)
      simp only [hclients, Bool.false_and, Bool.false_eq_true, if_false, if_pos hchannel, Ne,
        channelsAgree_eq_panic]
      constructor
      · intro h
        refine ⟨fun hc => absurd hc hconnection, fun _ expected datum hexpected hdatum => ?_⟩
        cases hstate : datum.State with
        | none => exact absurd ⟨expected, datum, hexpected, hdatum, .inl hstate⟩ h
        | some state =>
          refine ⟨state, rfl, ?_⟩
          intro hsame
          rw [← Option.ne_none_iff_isSome]
          intro hnone
          exact h ⟨expected, datum, hexpected, hdatum, .inr ⟨state, hstate, hsame, hnone⟩⟩
      · rintro h ⟨expected, datum, hexpected, hdatum, hcase⟩
        obtain ⟨state, hstate, hordering⟩ := h.channel hchannel expected datum hexpected hdatum
        rcases hcase with hnone | ⟨state', hstate', hsame, hnone⟩
        · rw [hstate] at hnone
          cases hnone
        · rw [hstate, Option.some.injEq] at hstate'
          have hsome := hordering (hstate' ▸ hsame)
          rw [hnone] at hsome
          cases hsome
    · -- no other kind of key comes to a type assertion
      have htagged : Tagged key expectedValue committedValue :=
        ⟨fun hc => absurd hc hconnection, fun hc => absurd hc hchannel⟩
      refine ⟨fun _ => htagged, fun _ => ?_⟩
      rw [if_neg hchannel]
      split
      · simp [clientStatesAgree, bind_eq_panic, ClientStateDatum.Cmp_ne_panic]
      split
      · simp [consensusStatesAgree, bind_eq_panic, ConsensusStateDatum.Cmp_ne_panic]
      split
      · simp [bind_eq_panic]
      · simp

end Verifying

/-! ### A number for a state -/

section Sample

/-- The channel that is expected, and its bytes. -/
def expectedChannel : Channel where
  State := 2
  Ordering := 1
  Counterparty := { PortId := utf8 "transfer", ChannelId := utf8 "channel-0" }
  ConnectionHops := [utf8 "connection-0"]
  Version := utf8 "ics20-1"

def expectedChannelBytes : Bytes :=
  [0x08, 0x02, 0x10, 0x01] ++ messageField 3 (messageField 1 (utf8 "transfer") ++
    messageField 2 (utf8 "channel-0")) ++ messageField 4 (utf8 "connection-0") ++
    messageField 5 (utf8 "ics20-1")

/-- Five fields as a channel has them, with the number 0 for its state. -/
def numberForState : Bytes := [0x85, 0x00, 0x00, 0x82, 0x40, 0x40, 0x80, 0x40]

def crashingProof : Bytes := messageField 1 (messageField 1 (messageField 2 numberForState))

local instance crashRecords : Records where
  unmarshalMerkleProof bz :=
    if bz = crashingProof then some [.exist { key := [], value := numberForState, path := [] }]
    else none
  unmarshalJsonProof _ := none
  connectionsAgree _ _ := .error "failed to decode expected ConnectionEnd protobuf"
  clientStatesAgree _ _ := .error "failed to decode expected Tendermint ClientState protobuf"
  consensusStatesAgree _ _ := .error "failed to decode expected Tendermint ConsensusState protobuf"
  channelsAgree _ _ := .error "failed to decode expected Channel protobuf"

/-- Numbers become numbers and strings become strings. -/
local instance crashDatums : Datums where
  unmarshalConnectionEnd _ := none
  unmarshalAny _ := none
  unmarshalClientState _ := none
  unmarshalConsensusState _ := none
  unmarshalChannel bz := if bz = expectedChannelBytes then some expectedChannel else none
  decodeInterface
    | .tag number content => if 3 < number then some (some number.toUInt64) else
        (unmarshal.untag (.tag number content)).map fun _ => none
    | _ => some none

local instance crashBuiltins : Builtins := ledgerBuiltins

/-- The proof shows eight bytes that are no channel. Whatever the root is, the code panics. -/
theorem crashingProof_panics (root : Bytes) :
    VerifyIbcStateMembership root (utf8 "channelEnds/ports/transfer/channels/channel-0")
      expectedChannelBytes crashingProof = .error .panic := by
  have hproof : decodeExistenceProof crashingProof =
      .ok { key := [], value := numberForState, path := [] } := by
    simp [decodeExistenceProof, Records.unmarshalMerkleProof]
  have hcompare : verifyCardanoValueMatchesExpected
      (utf8 "channelEnds/ports/transfer/channels/channel-0") expectedChannelBytes numberForState =
        .error .panic := by decide +kernel
  have hcompared : (!numberForState.isEmpty && numberForState != expectedChannelBytes) = true := by
    decide +kernel
  refine bind_eq_panic.mpr (.inr ⟨_, failing_eq_ok.mpr hproof, ?_⟩)
  refine bind_eq_panic.mpr (.inr ⟨(), rfl, ?_⟩)
  simp only [if_pos hcompared]
  exact bind_eq_panic.mpr (.inl hcompare)

end Sample

end cardanodatum

end cardano_ibc.probabilistic
