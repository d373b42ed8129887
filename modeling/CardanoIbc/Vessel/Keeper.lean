-- The vessel reports of the vessel oracle and their index by IMO number (keeper/vessel.go,
-- keeper/vessel_index_imo.go).
import CardanoIbc.Library.Sorting
import CardanoIbc.Library.Table
import CardanoIbc.Prelude

namespace cardano_ibc.vesseloracle

structure Vessel where
  Imo : Bytes
  Ts : UInt64
  Source : Bytes
  Lat : Int32
  Lon : Int32
  Speed : Int32
  Course : Int32
  Heading : Int32
  Adt : UInt64
  Eta : UInt64
  Name : Bytes
  Destport : Bytes
  Depport : Bytes
  Mmsi : Bytes
  Creator : Bytes
deriving DecidableEq, Repr

/-- A report of a vessel that is to arrive at some time. -/
def arriving (eta : UInt64) : Vessel where
  Imo := utf8 "9321483"
  Ts := 1700000000
  Source := utf8 "ais"
  Lat := 535
  Lon := 99
  Speed := 120
  Course := 270
  Heading := 270
  Adt := 0
  Eta := eta
  Name := utf8 "Emma"
  Destport := utf8 "DEHAM"
  Depport := utf8 "NLRTM"
  Mmsi := utf8 "219000000"
  Creator := utf8 "cosmos1"

structure VesselIndexImo_Key where
  Imo : Bytes
  Ts : UInt64
  Source : Bytes
deriving DecidableEq, Repr

structure ConsolidatedDataReport where
  Imo : Bytes
  Ts : UInt64
  TotalSamples : Int32
  EtaOutliers : Int32
  EtaMeanCleaned : UInt64
  EtaMeanAll : UInt64
  EtaStdCleaned : UInt64
  EtaStdAll : UInt64
  DepportScore : Int32
  Depport : Bytes
  Creator : Bytes
deriving DecidableEq, Repr

structure Params where
  ConsolidationWindowMinItemCount : Int32
  ConsolidationWindowMaxItemCount : Int32
  ConsolidationWindowIntervalWidth : UInt64

def DefaultParams : Params where
  ConsolidationWindowMinItemCount := 8
  ConsolidationWindowMaxItemCount := 16
  ConsolidationWindowIntervalWidth := 43200

def Vessel.key (vessel : Vessel) : VesselIndexImo_Key := ⟨vessel.Imo, vessel.Ts, vessel.Source⟩

/-! ## The store -/

def VesselKey (imo : Bytes) (ts : UInt64) (source : Bytes) : Bytes :=
  imo ++ utf8 "/" ++ bigEndian 8 ts.toNat ++ utf8 "/" ++ source ++ utf8 "/"

def VesselIndexImoKey (imo : Bytes) : Bytes := imo ++ utf8 "/"

/-- What lies under each of the oracle's prefixes. -/
structure Store where
  vessels : List (Bytes × Vessel)
  indexImo : List (Bytes × List VesselIndexImo_Key)
  consolidatedDataReports : List (Bytes × ConsolidatedDataReport)
  params : Params

namespace Store

variable (store : Store)

/-! ### The index -/

/-- An index that is not there yet starts as an empty list. -/
def AddVesselKeyToIndexImo (vesselIndexEntry : VesselIndexImo_Key) : Store :=
  let keys := (table.get store.indexImo (VesselIndexImoKey vesselIndexEntry.Imo)).getD []
  { store with
    indexImo := table.put store.indexImo (VesselIndexImoKey vesselIndexEntry.Imo)
      (keys ++ [vesselIndexEntry]) }

def GetVesselKeysFromIndexImo (imo : Bytes) : Option (List VesselIndexImo_Key) :=
  table.get store.indexImo (VesselIndexImoKey imo)

/-- Only the first of the entries that match is taken out. -/
def RemoveVesselKeyFromIndexImo (vesselIndexEntry : VesselIndexImo_Key) : Store :=
  match table.get store.indexImo (VesselIndexImoKey vesselIndexEntry.Imo) with
  | none => store
  | some keys =>
    { store with
      indexImo := table.put store.indexImo (VesselIndexImoKey vesselIndexEntry.Imo)
        (keys.eraseP fun vesselKey =>
          decide (vesselKey.Imo = vesselIndexEntry.Imo) &&
          decide (vesselKey.Source = vesselIndexEntry.Source) &&
          decide (vesselKey.Ts = vesselIndexEntry.Ts)) }

/-! ### The reports -/

def SetVessel (vessel : Vessel) : Store :=
  { store with
    vessels := table.put store.vessels (VesselKey vessel.Imo vessel.Ts vessel.Source) vessel
    }.AddVesselKeyToIndexImo ⟨vessel.Imo, vessel.Ts, vessel.Source⟩

def GetVessel (imo : Bytes) (ts : UInt64) (source : Bytes) : Option Vessel :=
  table.get store.vessels (VesselKey imo ts source)

def RemoveVessel (imo : Bytes) (ts : UInt64) (source : Bytes) : Store :=
  { store with vessels := table.erase store.vessels (VesselKey imo ts source)
    }.RemoveVesselKeyFromIndexImo ⟨imo, ts, source⟩

end Store

/-! ## The window -/

/-- Newest first. -/
def rank (key : VesselIndexImo_Key) : ℕᵒᵈ := OrderDual.toDual key.Ts.toNat

/-- The keys until one is too old or there are enough. -/
def window (oldest : UInt64) (maxItemsCount : Int32) :
    ℕ → List VesselIndexImo_Key → List VesselIndexImo_Key
  | _, [] => []
  | keyIdx, key :: rest =>
    if key.Ts < oldest ∨ maxItemsCount.toInt ≤ keyIdx then []
    else key :: window oldest maxItemsCount (keyIdx + 1) rest

namespace Store

variable (store : Store)

def GetVesselsInWindow (slice : sort.Slice (sort.below rank)) (imo : Bytes)
    (intervalWidth : UInt64) (maxItemsCount : Int32) : List Vessel :=
  if maxItemsCount = 0 then []
  else
    match store.GetVesselKeysFromIndexImo imo with
    | none => []
    | some keys =>
      match slice.run keys with
      | [] => []
      | first :: rest =>
        let maxTs := first.Ts
        let intervalWidth := if intervalWidth < maxTs then intervalWidth else maxTs
        (window (maxTs - intervalWidth) maxItemsCount 0 (first :: rest)).filterMap fun key =>
          store.GetVessel key.Imo key.Ts key.Source

end Store

end cardano_ibc.vesseloracle
