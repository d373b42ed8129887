-- The consolidation of a vessel's reports (keeper/msg_server_consolidate_reports.go) as every
-- replica of the chain runs it: what may differ between replicas, and when they agree.
import CardanoIbc.Vessel.Eta
import CardanoIbc.Vessel.Mirror

namespace cardano_ibc.vesseloracle

/-! ## The consolidation -/

/-- What a run may see otherwise than another run: the order that sorting leaves open, the order of
the entries of a map, and the clock. -/
structure Replica where
  keys : sort.Slice (sort.below rank)
  etas : sort.Slice (sort.below etaRank)
  ports : List (Bytes × ℕ) → List (Bytes × ℕ)
  ports_perm : ∀ portMap, (ports portMap).Perm portMap
  now : UInt64

inductive ConsolidationError where
  | departurePort (err : String)
  | eta (err : String)
  | unable (vesselData : List Vessel)

def portCounts (vesselData : List Vessel) : List (Bytes × ℕ) :=
  vesselData.foldl (fun portMap vessel =>
    table.put portMap vessel.Depport ((table.get portMap vessel.Depport).getD 0 + 1)) []

def consolidateDeparturePort (replica : Replica) (vesselData : List Vessel) :
    Except String (Bytes × ℕ) :=
  if vesselData.length = 0 then
    .error "Cannot determine consolidated departure port for empty vessel set."
  else
    let (maxPort, maxCount) := (replica.ports (portCounts vesselData)).foldl
      (fun found entry => if entry.2 > found.2 then entry else found) (utf8 "", 0)
    .ok (maxPort, 100 * maxCount / vesselData.length)

def ConsolidateVesselData (replica : Replica) (store : Store) (imo : Bytes) :
    Except ConsolidationError ConsolidatedDataReport :=
  let vesselData := store.GetVesselsInWindow replica.keys imo
    store.params.ConsolidationWindowIntervalWidth store.params.ConsolidationWindowMaxItemCount
  if vesselData ≠ [] ∧ store.params.ConsolidationWindowMinItemCount.toInt ≤ vesselData.length then
    match consolidateDeparturePort replica vesselData with
    | .error err => .error (.departurePort err)
    | .ok (departurePort, departurePortScore) =>
      match consolidateEta replica.etas vesselData with
      | .error err => .error (.eta err)
      | .ok statistics =>
        .ok
          { Imo := imo
            Ts := replica.now
            TotalSamples := Int32.ofNat vesselData.length
            EtaOutliers := statistics.numOutliers
            EtaMeanCleaned := statistics.etaMeanCleaned
            EtaStdCleaned := statistics.etaStdCleaned
            EtaMeanAll := statistics.etaMeanAll
            EtaStdAll := statistics.etaStdAll
            Depport := departurePort
            DepportScore := Int32.ofNat departurePortScore
            Creator := utf8 "" }
  else .error (.unable vesselData)

def ConsolidatedDataReportKey (imo : Bytes) (ts : UInt64) : Bytes :=
  imo ++ utf8 "/" ++ bigEndian 8 ts.toNat ++ utf8 "/"

def Store.SetConsolidatedDataReport (store : Store) (report : ConsolidatedDataReport) : Store :=
  { store with
    consolidatedDataReports := table.put store.consolidatedDataReports
      (ConsolidatedDataReportKey report.Imo report.Ts) report }

structure MsgConsolidateReportsResponse where
  Imo : Bytes
  Ts : UInt64

def ConsolidateReports (replica : Replica) (store : Store) (imo : Bytes) :
    Except ConsolidationError (Store × MsgConsolidateReportsResponse) :=
  match ConsolidateVesselData replica store imo with
  | .error err => .error err
  | .ok report => .ok (store.SetConsolidatedDataReport report, ⟨report.Imo, report.Ts⟩)

/-- The report that a replica writes, as it then lies in its store. -/
def written (replica : Replica) (store : Store) (imo : Bytes) : Option ConsolidatedDataReport :=
  match ConsolidateReports replica store imo with
  | .error _ => none
  | .ok (store', response) =>
    table.get store'.consolidatedDataReports (ConsolidatedDataReportKey response.Imo response.Ts)

/-! ## Orders of the index -/

/-- The keys of an IMO number from the newest to the oldest. -/
def NewestFirst (store : Store) (imo : Bytes) (ordered : List VesselIndexImo_Key) : Prop :=
  ordered.Perm (store.index imo) ∧ ordered.Pairwise fun a b => b.Ts ≤ a.Ts

/-- The first keys in the window, as many as the parameters let in. -/
def admitted (store : Store) (imo : Bytes) (ordered : List VesselIndexImo_Key) :
    List VesselIndexImo_Key :=
  (ordered.filter fun key => (store.index imo).all fun other => decide (other.Ts.toNat ≤
    key.Ts.toNat + store.params.ConsolidationWindowIntervalWidth.toNat)).take
    store.params.ConsolidationWindowMaxItemCount.toInt.toNat

/-- How many of them have a report. -/
def reported (store : Store) (keys : List VesselIndexImo_Key) : ℕ :=
  keys.countP fun key => (store.GetVessel key.Imo key.Ts key.Source).isSome

theorem window_eq (oldest : UInt64) (maxItemsCount : Int32) (keyIdx : ℕ)
    {keys : List VesselIndexImo_Key} (h : keys.Pairwise fun a b => rank a ≤ rank b) :
    window oldest maxItemsCount keyIdx keys =
      (keys.filter fun key => decide (oldest ≤ key.Ts)).take
        (maxItemsCount.toInt.toNat - keyIdx) := by
  induction keys generalizing keyIdx with
  | nil => rw [window, List.filter_nil, List.take_nil]
  | cons key keys ih =>
    rw [List.pairwise_cons] at h
    unfold window
    split
    · rename_i hstop
      rcases hstop with hold | hfull
      · have hnone : (key :: keys).filter (fun key => decide (oldest ≤ key.Ts)) = [] := by
          rw [List.filter_eq_nil_iff]
          intro key' hkey' hle
          rw [decide_eq_true_eq] at hle
          rcases List.mem_cons.mp hkey' with rfl | hkey'
          · exact UInt64.not_le.mpr hold hle
          · have hle' : key'.Ts.toNat ≤ key.Ts.toNat := h.1 key' hkey'
            rw [UInt64.le_iff_toNat_le] at hle
            rw [UInt64.lt_iff_toNat_lt] at hold
            omega
        rw [hnone, List.take_nil]
      · have hzero : maxItemsCount.toInt.toNat - keyIdx = 0 := by omega
        rw [hzero, List.take_zero]
    · rename_i hgo
      rw [not_or, UInt64.not_lt, not_le] at hgo
      have hsucc : maxItemsCount.toInt.toNat - keyIdx =
          maxItemsCount.toInt.toNat - (keyIdx + 1) + 1 := by omega
      have hkeep : (key :: keys).filter (fun key => decide (oldest ≤ key.Ts)) =
          key :: keys.filter fun key => decide (oldest ≤ key.Ts) :=
        List.filter_cons_of_pos (decide_eq_true hgo.1)
      rw [ih (keyIdx + 1) h.2, hkeep, hsucc, List.take_succ_cons]

theorem admitted_nil (store : Store) (imo : Bytes) : admitted store imo [] = [] := List.take_nil

/-- A window in a given order of the keys has the reports of the keys that are let in. -/
theorem length_vesselsInWindow (store : Store) (imo : Bytes)
    (slice : sort.Slice (sort.below rank)) :
    (store.GetVesselsInWindow slice imo store.params.ConsolidationWindowIntervalWidth
      store.params.ConsolidationWindowMaxItemCount).length =
      reported store (admitted store imo (slice.run (store.index imo))) := by
  have hordered := slice.ordered_key (store.index imo)
  have hmem : ∀ key, key ∈ slice.run (store.index imo) ↔ key ∈ store.index imo :=
    fun key => (slice.perm _).mem_iff
  unfold Store.GetVesselsInWindow
  split
  · rename_i hzero
    rw [admitted, hzero]
    rfl
  · split
    · rename_i hnone
      have hindex : store.index imo = [] := by
        rw [Store.index, hnone]
        rfl
      have hrun : slice.run (store.index imo) = [] := by
        rw [hindex]
        exact (slice.perm []).eq_nil
      rw [hrun, admitted_nil]
      rfl
    · rename_i keys hsome
      have hindex : store.index imo = keys := by
        rw [Store.index, hsome]
        rfl
      rw [← hindex]
      split
      · rename_i hnil
        rw [hnil, admitted_nil]
        rfl
      · rename_i first rest hrun
        rw [hrun] at hordered hmem
        have hfirst : ∀ other ∈ store.index imo, other.Ts.toNat ≤ first.Ts.toNat := by
          intro other hother
          rcases List.mem_cons.mp ((hmem other).mpr hother) with rfl | hrest
          · exact le_rfl
          · exact (List.pairwise_cons.mp hordered).1 other hrest
        have hwindow : ∀ key : VesselIndexImo_Key,
            decide (first.Ts - (if store.params.ConsolidationWindowIntervalWidth < first.Ts then
              store.params.ConsolidationWindowIntervalWidth else first.Ts) ≤ key.Ts) =
            (store.index imo).all fun other => decide (other.Ts.toNat ≤
              key.Ts.toNat + store.params.ConsolidationWindowIntervalWidth.toNat) := by
          intro key
          rw [Bool.eq_iff_iff, decide_eq_true_eq, oldest_le_iff, List.all_eq_true]
          simp only [decide_eq_true_eq]
          constructor
          · intro hle other hother
            exact (hfirst other hother).trans hle
          · intro hall
            exact hall first ((hmem first).mp List.mem_cons_self)
        simp only [window_eq _ _ _ hordered, hwindow, Nat.sub_zero]
        rw [List.length_filterMap_eq_countP, reported, admitted, hrun]

/-! ## What replicas write -/

section Written

variable (replica : Replica) (store : Store) (imo : Bytes)

theorem written_eq : written replica store imo =
    (ConsolidateVesselData replica store imo).toOption := by
  rw [written, ConsolidateReports]
  cases ConsolidateVesselData replica store imo with
  | error err => rfl
  | ok report =>
    exact (table.get_put _ _ _ _).trans (if_pos rfl)

/-- Departure port and arrival time are found for any reports there are. -/
theorem written_isSome_iff : (written replica store imo).isSome ↔
    reported store (admitted store imo (replica.keys.run (store.index imo))) ≠ 0 ∧
      store.params.ConsolidationWindowMinItemCount.toInt ≤
        reported store (admitted store imo (replica.keys.run (store.index imo))) := by
  rw [written_eq, ConsolidateVesselData, ← length_vesselsInWindow]
  generalize store.GetVesselsInWindow replica.keys imo
    store.params.ConsolidationWindowIntervalWidth
    store.params.ConsolidationWindowMaxItemCount = vesselData
  by_cases h : vesselData ≠ [] ∧
      store.params.ConsolidationWindowMinItemCount.toInt ≤ vesselData.length
  · have hlength : vesselData.length ≠ 0 := mt List.length_eq_zero_iff.mp h.1
    obtain ⟨statistics, hstatistics⟩ : ∃ statistics,
        consolidateEta replica.etas vesselData = .ok statistics := by
      unfold consolidateEta
      rw [dif_neg hlength]
      simp only
      split <;> exact ⟨_, rfl⟩
    simp only [if_pos h, consolidateDeparturePort, if_neg hlength, hstatistics]
    exact iff_of_true rfl ⟨hlength, h.2⟩
  · simp only [if_neg h]
    refine iff_of_false Bool.false_ne_true ?_
    rintro ⟨hlength, hmin⟩
    exact h ⟨mt List.length_eq_zero_iff.mpr hlength, hmin⟩

/-- The time in the report is that of the replica's clock. -/
theorem written_ts {replica : Replica} {store : Store} {imo : Bytes}
    {report : ConsolidatedDataReport} (h : written replica store imo = some report) :
    report.Ts = replica.now := by
  rw [written_eq, ConsolidateVesselData] at h
  split at h
  · split at h
    · cases h
    · split at h
      · cases h
      · cases h
        rfl
  · cases h

end Written

/-- Replicas write the same report exactly where none of them writes any: in no order of the keys
do those that are let in have enough reports. Where there are enough, the report has the time of
the replica's own clock. -/
theorem replicas_write_the_same_iff (store : Store) (imo : Bytes) :
    (∀ a b : Replica, written a store imo = written b store imo) ↔
      ∀ ordered, NewestFirst store imo ordered →
        reported store (admitted store imo ordered) = 0 ∨
          (reported store (admitted store imo ordered) : ℤ) <
            store.params.ConsolidationWindowMinItemCount.toInt := by
  have hordered : ∀ {ordered}, NewestFirst store imo ordered →
      ordered.Pairwise fun a b => sort.below rank b a = false :=
    fun h => h.2.imp fun hle => decide_eq_false (not_lt.mpr (UInt64.le_iff_toNat_le.mp hle))
  constructor
  · intro hsame ordered h
    by_contra hnot
    rw [not_or, not_lt] at hnot
    let early : Replica :=
      { keys := (sort.Slice.stable rank).giving h.1 (hordered h)
        etas := sort.Slice.stable etaRank
        ports := id
        ports_perm := fun _ => List.Perm.refl _
        now := 0 }
    have hrun : early.keys.run (store.index imo) = ordered := if_pos rfl
    obtain ⟨report, hreport⟩ := Option.isSome_iff_exists.mp
      ((written_isSome_iff early store imo).mpr (by rw [hrun]; exact hnot))
    have hlate := hsame early { early with now := 1 }
    rw [hreport] at hlate
    have hts : (0 : UInt64) = 1 := (written_ts hreport).symm.trans (written_ts hlate.symm)
    exact absurd hts (by decide)
  · intro h
    have hnone : ∀ replica : Replica, written replica store imo = none := by
      intro replica
      rw [← Option.not_isSome_iff_eq_none, written_isSome_iff, not_and_or, not_not, not_le]
      refine h _ ⟨replica.keys.perm _, ?_⟩
      exact (replica.keys.ordered_key _).imp fun hle => UInt64.le_iff_toNat_le.mpr hle
    intro a b
    rw [hnone a, hnone b]

/-- Two reports of one time from different ports, and room for both of them or for one. -/
def harbour (maxItemCount : Int32) : Store :=
  run { DefaultParams with
        ConsolidationWindowMinItemCount := 1
        ConsolidationWindowMaxItemCount := maxItemCount }
    [.SetVessel (arriving 1700000000),
      .SetVessel { arriving 1700000000 with Source := utf8 "port", Depport := utf8 "BEANR" }]

def node (now : UInt64) : Replica where
  keys := sort.Slice.stable rank
  etas := sort.Slice.stable etaRank
  ports := id
  ports_perm _ := List.Perm.refl _
  now

/-- The clock, the order of the map and the order of keys of one time each change the report. -/
theorem replicas_write_different_reports :
    written (node 1700000000) (harbour 2) (utf8 "9321483") ≠
      written (node 1700000001) (harbour 2) (utf8 "9321483") ∧
    written (node 1700000000) (harbour 2) (utf8 "9321483") ≠
      written { node 1700000000 with ports := List.reverse, ports_perm := List.reverse_perm }
        (harbour 2) (utf8 "9321483") ∧
    written (node 1700000000) (harbour 1) (utf8 "9321483") ≠
      written { node 1700000000 with keys := (sort.Slice.stable rank).backwards }
        (harbour 1) (utf8 "9321483") := by
  decide +kernel

end cardano_ibc.vesseloracle
