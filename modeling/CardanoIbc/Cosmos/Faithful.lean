-- What ibc-go would make of a record that Cardano commits to, field by field, and when the
-- comparators of tm_helper.go tell the record from every other one.
import CardanoIbc.Cosmos.Comparators

namespace cardano_ibc.probabilistic

namespace cardanodatum

/-! ## Whole records -/

structure LeafSpec where
  Hash : Int32
  PrehashKey : Int32
  PrehashValue : Int32
  Length : Int32
  Prefix : Bytes
deriving DecidableEq

structure InnerSpec where
  ChildOrder : List Int32
  ChildSize : Int32
  MinPrefixLength : Int32
  MaxPrefixLength : Int32
  EmptyChild : Bytes
  Hash : Int32
deriving DecidableEq

structure ProofSpecsDatum where
  LeafSpec : LeafSpec
  InnerSpec : InnerSpec
  MaxDepth : Int32
  MinDepth : Int32
  PrehashKeyBeforeComparison : Option UInt64

/-- `ics23.ProofSpec`, whose two parts are pointers. -/
structure ProofSpec where
  LeafSpec : Option LeafSpec
  InnerSpec : Option InnerSpec
  MaxDepth : Int32
  MinDepth : Int32
  PrehashKeyBeforeComparison : Bool
deriving DecidableEq

/-- The record of a client with the proof specs. -/
structure ClientStateRecord extends ClientStateDatum where
  ProofSpecs : List ProofSpecsDatum

/-- The client state of ibc-go with the fields that no comparator looks at. -/
structure IbcClientState extends TmClientState where
  ProofSpecs : List (Option ProofSpec)
  UpgradePath : List Bytes
  AllowUpdateAfterExpiry : Bool
  AllowUpdateAfterMisbehaviour : Bool

/-- The consensus state of ibc-go; its time is a number of nanoseconds since 1970. -/
structure IbcConsensusState where
  Time : Int
  NextValidatorsHash : Bytes
  RootHash : Bytes

/-- `uint64(t.UnixNano())`: the time in 64 bits. -/
def unixNano (time : Int) : UInt64 := UInt64.ofNat (time % 2 ^ 64).toNat

/-- What the comparator sees of it, by `GetTimestamp`. -/
def IbcConsensusState.seen (state : IbcConsensusState) : TmConsensusState where
  Timestamp := unixNano state.Time
  NextValidatorsHash := state.NextValidatorsHash
  RootHash := state.RootHash

/-! ## Translating

Plutus writes the constructors of a type as the tags from 121 on. -/

/-- The number of a constructor, of so many. -/
def constructorOf (count : Nat) (tag : Option UInt64) : Option Int32 :=
  tag.bind fun number =>
    if 121 ≤ number.toNat ∧ number.toNat < 121 + count then some (Int32.ofNat (number.toNat - 121))
    else none

def booleanOf (tag : Option UInt64) : Option Bool := (constructorOf 2 tag).map (· == 1)

/-- A number of nanoseconds, if ibc-go has it. -/
def durationOf (n : UInt64) : Option Int64 :=
  if n.toNat < 2 ^ 63 then some n.toInt64 else none

def ProofSpecsDatum.translate (spec : ProofSpecsDatum) : Option ProofSpec := do
  return { LeafSpec := some spec.LeafSpec
           InnerSpec := some spec.InnerSpec
           MaxDepth := spec.MaxDepth
           MinDepth := spec.MinDepth
           PrehashKeyBeforeComparison := ← booleanOf spec.PrehashKeyBeforeComparison }

/-- What Cardano has no field for is left out. -/
def ClientStateRecord.translate (record : ClientStateRecord) : Option IbcClientState := do
  return { ChainId := record.ChainId
           TrustLevel := record.TrustLevel
           TrustingPeriod := ← durationOf record.TrustingPeriod
           UnbondingPeriod := ← durationOf record.UnbondingPeriod
           MaxClockDrift := ← durationOf record.MaxClockDrift
           FrozenHeight := record.FrozenHeight
           LatestHeight := record.LatestHeight
           ProofSpecs := (← record.ProofSpecs.mapM ProofSpecsDatum.translate).map some
           UpgradePath := []
           AllowUpdateAfterExpiry := false
           AllowUpdateAfterMisbehaviour := false }

def ConsensusStateDatum.translate (datum : ConsensusStateDatum) : IbcConsensusState where
  Time := datum.Timestamp.toNat
  NextValidatorsHash := datum.NextValidatorsHash
  RootHash := datum.RootHash

def ConnectionEndDatum.translate (datum : ConnectionEndDatum) : Option ConnectionEnd := do
  return { ClientId := datum.ClientId
           Versions := datum.Versions
           State := ← constructorOf 4 datum.State
           Counterparty := datum.Counterparty
           DelayPeriod := datum.DelayPeriod }

def ChannelDatum.translate (datum : ChannelDatum) : Option Channel := do
  return { State := ← constructorOf 5 datum.State
           Ordering := ← constructorOf 3 datum.Ordering
           Counterparty := datum.Counterparty
           ConnectionHops := datum.ConnectionHops
           Version := datum.Version }

/-! ### Numbers -/

/-- A tag is a constructor of the type. -/
def IsConstructor (count : Nat) (tag : Option UInt64) : Prop :=
  ∃ number, tag = some number ∧ 121 ≤ number.toNat ∧ number.toNat < 121 + count

/-- What a comparator takes a tag for. -/
def Reads (tag : Option UInt64) (state : Int32) : Prop :=
  ∃ number, tag = some number ∧ enumeration number = state

theorem enumeration_eq {number : UInt64} (h : 121 ≤ number.toNat) (h' : number.toNat < 128) :
    enumeration number = Int32.ofNat (number.toNat - 121) := by
  obtain ⟨n, hn⟩ : ∃ n, number = UInt64.ofNat n ∧ number.toNat = n := ⟨number.toNat, by simp, rfl⟩
  rw [hn.2] at h h' ⊢
  rw [hn.1]
  have hcases : n = 121 ∨ n = 122 ∨ n = 123 ∨ n = 124 ∨ n = 125 ∨ n = 126 ∨ n = 127 := by omega
  rcases hcases with rfl | rfl | rfl | rfl | rfl | rfl | rfl <;> rfl

theorem constructorOf_eq_some {count : Nat} (hcount : count ≤ 7) {tag : Option UInt64}
    {state : Int32} :
    constructorOf count tag = some state ↔ IsConstructor count tag ∧ Reads tag state := by
  unfold constructorOf IsConstructor Reads
  cases tag with
  | none => simp
  | some number =>
    simp only [Option.bind_some, Option.some.injEq, exists_eq_left']
    split
    · rename_i hrange
      rw [enumeration_eq hrange.1 (by omega)]
      simp [hrange]
    · rename_i hrange
      simp [hrange]

theorem durationOf_eq_some {n : UInt64} {d : Int64} :
    durationOf n = some d ↔ n.toNat < 2 ^ 63 ∧ n = d.toUInt64 := by
  have hsame : n.toInt64 = d ↔ n = d.toUInt64 := by
    constructor
    · rintro rfl
      rfl
    · rintro rfl
      rfl
  unfold durationOf
  by_cases hlt : n.toNat < 2 ^ 63
  · rw [if_pos hlt, Option.some.injEq, hsame]
    exact ⟨fun h => ⟨hlt, h⟩, fun h => h.2⟩
  · rw [if_neg hlt]
    exact ⟨fun h => (by cases h), fun h => absurd h.1 hlt⟩

/-! ## What the comparators ask -/

theorem counterparty_eq_iff {a b : Counterparty} :
    a = b ↔ a.ClientId = b.ClientId ∧ a.ConnectionId = b.ConnectionId ∧
      a.KeyPrefix = b.KeyPrefix := by
  cases a
  cases b
  simp

theorem channelCounterparty_eq_iff {a b : ChannelCounterparty} :
    a = b ↔ a.PortId = b.PortId ∧ a.ChannelId = b.ChannelId := by
  cases a
  cases b
  simp

theorem ConnectionEndDatum.Cmp_eq_ok {datum : ConnectionEndDatum} {tm : ConnectionEnd} :
    datum.Cmp tm = .ok () ↔ datum.ClientId = tm.ClientId ∧
      VersionsAgree datum.Versions tm.Versions ∧ Reads datum.State tm.State ∧
      datum.Counterparty = tm.Counterparty ∧ datum.DelayPeriod = tm.DelayPeriod := by
  unfold ConnectionEndDatum.Cmp Reads
  simp only [bind_eq_ok, ensure_eq_ok, tagNumber_eq_ok, beq_iff_eq, counterparty_eq_iff]
  constructor
  · rintro ⟨_, hclient, _, hlength, _, hversions, number, hnumber, _, hstate, _, hc, _, hconn, _,
      hprefix, hdelay⟩
    exact ⟨hclient, (cmpVersions_eq_ok hlength).mp hversions, ⟨number, hnumber, hstate⟩,
      ⟨hc, hconn, hprefix⟩, hdelay⟩
  · rintro ⟨hclient, hversions, ⟨number, hnumber, hstate⟩, ⟨hc, hconn, hprefix⟩, hdelay⟩
    have hlength := hversions.length_eq
    exact ⟨(), hclient, (), hlength, (), (cmpVersions_eq_ok hlength).mpr hversions, number, hnumber,
      (), hstate, (), hc, (), hconn, (), hprefix, hdelay⟩

/-- The hops of two channels are of one number and, sorted and joined, one text. -/
def HopsAgree (hops expected : List Bytes) : Prop :=
  hops.length = expected.length ∧ sortedJoin hops = sortedJoin expected

theorem ChannelDatum.Cmp_eq_ok {datum : ChannelDatum} {expected : Channel} :
    datum.Cmp expected = .ok () ↔ Reads datum.State expected.State ∧
      Reads datum.Ordering expected.Ordering ∧ datum.Counterparty = expected.Counterparty ∧
      HopsAgree datum.ConnectionHops expected.ConnectionHops ∧
      datum.Version = expected.Version := by
  unfold ChannelDatum.Cmp Reads HopsAgree
  simp only [bind_eq_ok, ensure_eq_ok, tagNumber_eq_ok, beq_iff_eq, channelCounterparty_eq_iff]
  constructor
  · rintro ⟨s, hs, _, hstate, o, ho, _, hordering, _, hport, _, hchannel, _, hlength, _, hhops,
      hversion⟩
    exact ⟨⟨s, hs, hstate⟩, ⟨o, ho, hordering⟩, ⟨hport, hchannel⟩, ⟨hlength, hhops⟩, hversion⟩
  · rintro ⟨⟨s, hs, hstate⟩, ⟨o, ho, hordering⟩, ⟨hport, hchannel⟩, ⟨hlength, hhops⟩, hversion⟩
    exact ⟨s, hs, (), hstate, o, ho, (), hordering, (), hport, (), hchannel, (), hlength, (), hhops,
      hversion⟩

/-- The fields of a client state that are compared; periods are compared in 64 bits. -/
structure ClientStateDatum.Agrees (datum : ClientStateDatum) (tm : TmClientState) : Prop where
  chain : datum.ChainId = tm.ChainId
  trust : datum.TrustLevel = tm.TrustLevel
  trusting : datum.TrustingPeriod = tm.TrustingPeriod.toUInt64
  unbonding : datum.UnbondingPeriod = tm.UnbondingPeriod.toUInt64
  drift : datum.MaxClockDrift = tm.MaxClockDrift.toUInt64
  frozen : datum.FrozenHeight = tm.FrozenHeight
  latest : datum.LatestHeight = tm.LatestHeight

theorem ClientStateDatum.Cmp_eq_ok {datum : ClientStateDatum} {tm : TmClientState} :
    datum.Cmp tm = .ok () ↔ datum.Agrees tm := by
  unfold ClientStateDatum.Cmp
  simp only [bind_eq_ok, ensure_eq_ok, beq_iff_eq]
  constructor
  · rintro ⟨_, h1, _, h2, _, h3, _, h4, _, h5, _, h6, h7⟩
    exact ⟨h1, h2, h3, h4, h5, h6, h7⟩
  · rintro ⟨h1, h2, h3, h4, h5, h6, h7⟩
    exact ⟨(), h1, (), h2, (), h3, (), h4, (), h5, (), h6, h7⟩

theorem ConsensusStateDatum.Cmp_eq_ok {datum : ConsensusStateDatum} {tm : TmConsensusState} :
    datum.Cmp tm = .ok () ↔ datum.Timestamp = tm.Timestamp ∧
      datum.NextValidatorsHash = tm.NextValidatorsHash ∧ datum.RootHash = tm.RootHash := by
  unfold ConsensusStateDatum.Cmp
  simp only [bind_eq_ok, ensure_eq_ok, beq_iff_eq]
  constructor
  · rintro ⟨_, h1, _, h2, h3⟩
    exact ⟨h1, h2, h3⟩
  · rintro ⟨h1, h2, h3⟩
    exact ⟨(), h1, (), h2, h3⟩

/-! ## When they tell records apart -/

/-- What is not compared is what ibc-go would make of the record. -/
structure ClientStateRecord.Rest (record : ClientStateRecord) (expected : IbcClientState) :
    Prop where
  trusting : record.TrustingPeriod.toNat < 2 ^ 63
  unbonding : record.UnbondingPeriod.toNat < 2 ^ 63
  drift : record.MaxClockDrift.toNat < 2 ^ 63
  specs : ∃ specs, record.ProofSpecs.mapM ProofSpecsDatum.translate = some specs ∧
    expected.ProofSpecs = specs.map some
  upgrade : expected.UpgradePath = []
  expiry : expected.AllowUpdateAfterExpiry = false
  misbehaviour : expected.AllowUpdateAfterMisbehaviour = false

theorem ClientStateRecord.translate_eq_some {record : ClientStateRecord}
    {expected : IbcClientState} :
    record.translate = some expected ↔
      record.toClientStateDatum.Agrees expected.toTmClientState ∧ record.Rest expected := by
  simp only [ClientStateRecord.translate, bind_eq_some, pure_eq_some, durationOf_eq_some]
  constructor
  · rintro ⟨_, ⟨htrusting, htrusting'⟩, _, ⟨hunbonding, hunbonding'⟩, _, ⟨hdrift, hdrift'⟩, specs,
      hspecs, rfl⟩
    exact ⟨⟨rfl, rfl, htrusting', hunbonding', hdrift', rfl, rfl⟩,
      ⟨htrusting, hunbonding, hdrift, ⟨specs, hspecs, rfl⟩, rfl, rfl, rfl⟩⟩
  · rintro ⟨a, r⟩
    obtain ⟨specs, hspecs, hsame⟩ := r.specs
    refine ⟨_, ⟨r.trusting, a.trusting⟩, _, ⟨r.unbonding, a.unbonding⟩, _, ⟨r.drift, a.drift⟩,
      specs, hspecs, ?_⟩
    rw [a.chain, a.trust, a.frozen, a.latest, ← hsame, ← r.upgrade]
    have hexpiry := r.expiry
    have hmisbehaviour := r.misbehaviour
    clear a r hsame
    obtain ⟨tm, specs', path, expiry, misbehaviour⟩ := expected
    dsimp only at hexpiry hmisbehaviour ⊢
    rw [hexpiry, hmisbehaviour]

theorem ConnectionEndDatum.translate_eq_some {datum : ConnectionEndDatum}
    {expected : ConnectionEnd} :
    datum.translate = some expected ↔ datum.ClientId = expected.ClientId ∧
      datum.Versions = expected.Versions ∧
      (IsConstructor 4 datum.State ∧ Reads datum.State expected.State) ∧
      datum.Counterparty = expected.Counterparty ∧ datum.DelayPeriod = expected.DelayPeriod := by
  simp only [ConnectionEndDatum.translate, bind_eq_some, pure_eq_some,
    constructorOf_eq_some (show 4 ≤ 7 by decide)]
  constructor
  · rintro ⟨_, hstate, rfl⟩
    exact ⟨rfl, rfl, hstate, rfl, rfl⟩
  · rintro ⟨hclient, hversions, hstate, hcounterparty, hdelay⟩
    refine ⟨_, hstate, ?_⟩
    rw [hclient, hversions, hcounterparty, hdelay]

theorem ChannelDatum.translate_eq_some {datum : ChannelDatum} {expected : Channel} :
    datum.translate = some expected ↔
      (IsConstructor 5 datum.State ∧ Reads datum.State expected.State) ∧
      (IsConstructor 3 datum.Ordering ∧ Reads datum.Ordering expected.Ordering) ∧
      datum.Counterparty = expected.Counterparty ∧
      datum.ConnectionHops = expected.ConnectionHops ∧ datum.Version = expected.Version := by
  simp only [ChannelDatum.translate, bind_eq_some, pure_eq_some,
    constructorOf_eq_some (show 5 ≤ 7 by decide), constructorOf_eq_some (show 3 ≤ 7 by decide)]
  constructor
  · rintro ⟨_, hstate, _, hordering, rfl⟩
    exact ⟨hstate, hordering, rfl, rfl, rfl⟩
  · rintro ⟨hstate, hordering, hcounterparty, hhops, hversion⟩
    refine ⟨_, hstate, _, hordering, ?_⟩
    rw [hcounterparty, hhops, hversion]

theorem versionsAgree_refl (versions : List Version) : VersionsAgree versions versions :=
  List.forall₂_same.mpr fun _ _ => ⟨rfl, rfl, rfl⟩

theorem timestamp_eq_iff {n : UInt64} {time : Int} :
    (n.toNat : Int) = time ↔ n = unixNano time ∧ 0 ≤ time ∧ time < 2 ^ 64 := by
  constructor
  · rintro rfl
    have hlt := n.toNat_lt
    have hmod : ((n.toNat : Int) % 2 ^ 64).toNat = n.toNat := by omega
    refine ⟨?_, by omega, by omega⟩
    rw [unixNano, hmod, UInt64.ofNat_toNat]
  · rintro ⟨rfl, hnonneg, hlt⟩
    rw [unixNano, UInt64.toNat_ofNat']
    omega

section Sample

/-- The expected channel of before over two hops. -/
def expectedOver (hops : List Bytes) : Channel := { expectedChannel with ConnectionHops := hops }

def committedOver (hops : List Bytes) : ChannelDatum where
  State := some 123
  Ordering := some 122
  Counterparty := { PortId := utf8 "transfer", ChannelId := utf8 "channel-0" }
  ConnectionHops := hops
  Version := utf8 "ics20-1"

def plainClient : IbcClientState where
  ChainId := utf8 "c-1"
  TrustLevel := ⟨1, 3⟩
  TrustingPeriod := 1000
  UnbondingPeriod := 2000
  MaxClockDrift := 10
  FrozenHeight := ⟨0, 0⟩
  LatestHeight := ⟨1, 5⟩
  ProofSpecs := []
  UpgradePath := []
  AllowUpdateAfterExpiry := false
  AllowUpdateAfterMisbehaviour := false

/-- A client that takes proofs by a leaf without a hash. -/
def looseClient : ClientStateRecord where
  ChainId := utf8 "c-1"
  TrustLevel := ⟨1, 3⟩
  TrustingPeriod := 1000
  UnbondingPeriod := 2000
  MaxClockDrift := 10
  FrozenHeight := ⟨0, 0⟩
  LatestHeight := ⟨1, 5⟩
  ProofSpecs := [{
    LeafSpec := ⟨0, 0, 0, 0, []⟩
    InnerSpec := ⟨[0, 1], 32, 1, 1, [], 0⟩
    MaxDepth := 0
    MinDepth := 0
    PrehashKeyBeforeComparison := some 121 }]

end Sample

end cardanodatum

end cardano_ibc.probabilistic
