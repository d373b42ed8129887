-- When the index by IMO number lists the stored reports, each once, and what a window then gives.
import CardanoIbc.Vessel.Keeper
import Mathlib.Data.List.Induction

namespace cardano_ibc.vesseloracle

/-! ## Calls -/

inductive Call where
  | SetVessel (vessel : Vessel)
  | RemoveVessel (imo : Bytes) (ts : UInt64) (source : Bytes)
deriving DecidableEq

/-- The report a call is about. -/
def Call.key : Call → VesselIndexImo_Key
  | .SetVessel vessel => vessel.key
  | .RemoveVessel imo ts source => ⟨imo, ts, source⟩

def Call.apply (store : Store) : Call → Store
  | .SetVessel vessel => store.SetVessel vessel
  | .RemoveVessel imo ts source => store.RemoveVessel imo ts source

def VesselIndexImo_Key.storeKey (key : VesselIndexImo_Key) : Bytes :=
  VesselKey key.Imo key.Ts key.Source

def Store.empty (params : Params) : Store where
  vessels := []
  indexImo := []
  consolidatedDataReports := []
  params

def run (params : Params) (calls : List Call) : Store :=
  calls.foldl Call.apply (Store.empty params)

def Call.leaves : Call → Option Vessel
  | .SetVessel vessel => some vessel
  | .RemoveVessel _ _ _ => none

/-- What the last call with a store key left there. -/
def last (calls : List Call) (storeKey : Bytes) : Option Vessel :=
  calls.foldl (fun known call => if call.key.storeKey = storeKey then call.leaves else known) none

/-- Neither a report over another one, nor a removal of another report than the one that is
there. -/
def Fits (before : List Call) (call : Call) : Prop :=
  ∀ vessel, last before call.key.storeKey = some vessel →
    call = .RemoveVessel vessel.Imo vessel.Ts vessel.Source

/-! ## What is stored -/

def Store.Stored (store : Store) (vessel : Vessel) : Prop :=
  ∃ storeKey, table.get store.vessels storeKey = some vessel

def Store.index (store : Store) (imo : Bytes) : List VesselIndexImo_Key :=
  (store.GetVesselKeysFromIndexImo imo).getD []

/-- The index of each IMO number has its stored reports, each once, and nothing else. -/
def Store.Mirrors (store : Store) : Prop :=
  ∀ imo, (store.index imo).Nodup ∧
    ∀ key, key ∈ store.index imo ↔ key.Imo = imo ∧ ∃ vessel, store.Stored vessel ∧ vessel.key = key

/-- The reports of an IMO number that are not older than the window is wide, counted from the
newest one. -/
def Store.recent (store : Store) (imo : Bytes) (intervalWidth : UInt64) : Set Vessel :=
  {vessel | (store.Stored vessel ∧ vessel.Imo = imo) ∧
    ∀ other, store.Stored other ∧ other.Imo = imo →
      other.Ts.toNat ≤ vessel.Ts.toNat + intervalWidth.toNat}

/-- Different reports out of some, at most so many, and the newest where there are more. -/
structure Newest (among : Set Vessel) (maxItemsCount : Int32) (vessels : List Vessel) : Prop where
  distinct : vessels.Nodup
  recent : ∀ vessel ∈ vessels, vessel ∈ among
  atMost : vessels.length ≤ maxItemsCount.toInt.toNat
  left : ∀ vessel ∈ among, vessel ∉ vessels →
    vessels.length = maxItemsCount.toInt.toNat ∧ ∀ other ∈ vessels, vessel.Ts ≤ other.Ts

section Store

variable (store : Store)

theorem indexKey_inj {imo imo' : Bytes} : VesselIndexImoKey imo = VesselIndexImoKey imo' ↔ imo = imo' :=
  List.append_left_inj _

theorem eraseP_entry (keys : List VesselIndexImo_Key) (entry : VesselIndexImo_Key) :
    (keys.eraseP fun vesselKey => decide (vesselKey.Imo = entry.Imo) &&
      decide (vesselKey.Source = entry.Source) && decide (vesselKey.Ts = entry.Ts)) =
      keys.erase entry := by
  rw [List.erase_eq_eraseP]
  congr 1
  funext vesselKey
  rw [Bool.eq_iff_iff]
  simp only [Bool.and_eq_true, decide_eq_true_eq, beq_iff_eq]
  constructor
  · rintro ⟨⟨himo, hsource⟩, hts⟩
    cases vesselKey
    cases entry
    simp only at himo hsource hts
    rw [himo, hsource, hts]
  · rintro rfl
    exact ⟨⟨rfl, rfl⟩, rfl⟩

theorem get_apply (call : Call) (storeKey : Bytes) :
    table.get (call.apply store).vessels storeKey =
      if call.key.storeKey = storeKey then call.leaves else table.get store.vessels storeKey := by
  cases call with
  | SetVessel vessel => exact table.get_put _ _ _ _
  | RemoveVessel imo ts source =>
    rw [Call.apply, Store.RemoveVessel, Store.RemoveVesselKeyFromIndexImo]
    split <;> exact table.get_erase _ _ _

theorem index_set (vessel : Vessel) (imo : Bytes) :
    (store.SetVessel vessel).index imo =
      store.index imo ++ if vessel.Imo = imo then [vessel.key] else [] := by
  simp only [Store.index, Store.GetVesselKeysFromIndexImo, Store.SetVessel,
    Store.AddVesselKeyToIndexImo, table.get_put, indexKey_inj]
  by_cases h : vessel.Imo = imo
  · subst h
    rw [if_pos rfl, if_pos rfl]
    rfl
  · rw [if_neg h, if_neg h, List.append_nil]

theorem index_remove (imo : Bytes) (ts : UInt64) (source imo' : Bytes) :
    (store.RemoveVessel imo ts source).index imo' =
      if imo = imo' then (store.index imo').erase ⟨imo, ts, source⟩ else store.index imo' := by
  unfold Store.index Store.GetVesselKeysFromIndexImo Store.RemoveVessel
    Store.RemoveVesselKeyFromIndexImo
  split
  · rename_i hnone
    by_cases h : imo = imo'
    · subst h
      rw [if_pos rfl, hnone]
      rfl
    · rw [if_neg h]
  · rename_i keys hsome
    simp only [table.get_put, indexKey_inj]
    by_cases h : imo = imo'
    · subst h
      rw [if_pos rfl, if_pos rfl, hsome]
      exact eraseP_entry keys ⟨imo, ts, source⟩
    · rw [if_neg h, if_neg h]

end Store

/-! ## The steps of a run -/

section Steps

variable {params : Params} {before : List Call}

theorem run_concat (params : Params) (before : List Call) (call : Call) :
    run params (before ++ [call]) = call.apply (run params before) := by
  rw [run, List.foldl_append]
  rfl

theorem last_concat (before : List Call) (call : Call) (storeKey : Bytes) :
    last (before ++ [call]) storeKey =
      if call.key.storeKey = storeKey then call.leaves else last before storeKey := by
  rw [last, List.foldl_append]
  rfl

theorem last_own (before : List Call) (call : Call) :
    last (before ++ [call]) call.key.storeKey = call.leaves := by
  rw [last_concat, if_pos rfl]

/-- The reports in the store are what the last calls left. -/
theorem get_run (params : Params) (calls : List Call) (storeKey : Bytes) :
    table.get (run params calls).vessels storeKey = last calls storeKey := by
  induction calls using List.reverseRecOn with
  | nil => rfl
  | append_singleton before call ih => rw [run_concat, get_apply, last_concat, ih]

/-- A report lies at its own key. -/
theorem key_of_last {calls : List Call} {storeKey : Bytes} {vessel : Vessel}
    (h : last calls storeKey = some vessel) : vessel.key.storeKey = storeKey := by
  induction calls using List.reverseRecOn with
  | nil => cases h
  | append_singleton before call ih =>
    rw [last_concat] at h
    by_cases hkey : call.key.storeKey = storeKey
    · rw [if_pos hkey] at h
      cases call with
      | SetVessel vessel' =>
        cases h
        exact hkey
      | RemoveVessel imo ts source => cases h
    · rw [if_neg hkey] at h
      exact ih h

theorem stored_iff {calls : List Call} {vessel : Vessel} :
    (run params calls).Stored vessel ↔ last calls vessel.key.storeKey = some vessel := by
  simp only [Store.Stored, get_run]
  constructor
  · rintro ⟨storeKey, h⟩
    rwa [key_of_last h]
  · intro h
    exact ⟨_, h⟩

theorem mem_index_iff (h : (run params before).Mirrors) {key : VesselIndexImo_Key} :
    key ∈ (run params before).index key.Imo ↔
      ∃ vessel, last before key.storeKey = some vessel ∧ vessel.key = key := by
  rw [(h key.Imo).2 key]
  constructor
  · rintro ⟨-, vessel, hstored, rfl⟩
    exact ⟨vessel, stored_iff.mp hstored, rfl⟩
  · rintro ⟨vessel, hlast, rfl⟩
    exact ⟨rfl, vessel, stored_iff.mpr hlast, rfl⟩

/-- What is listed was left by the last call with its store key. -/
theorem Mirrors.last_of_mem (h : (run params before).Mirrors) {imo : Bytes}
    {key : VesselIndexImo_Key} (hmem : key ∈ (run params before).index imo) :
    ∃ vessel, last before key.storeKey = some vessel ∧ vessel.key = key := by
  have himo := (((h imo).2 key).mp hmem).1
  rw [← himo] at hmem
  exact (mem_index_iff h).mp hmem

theorem stored_concat {call : Call} {vessel : Vessel} :
    (run params (before ++ [call])).Stored vessel ↔
      if call.key.storeKey = vessel.key.storeKey then call.leaves = some vessel
      else (run params before).Stored vessel := by
  rw [stored_iff, last_concat, stored_iff]
  split <;> rfl

theorem mirrors_set (h : (run params before).Mirrors) {vessel : Vessel}
    (hlast : last before vessel.key.storeKey = none) :
    (run params (before ++ [.SetVessel vessel])).Mirrors := by
  intro imo
  have hnew : vessel.key ∉ (run params before).index imo := by
    intro hmem
    obtain ⟨other, hother, -⟩ := Mirrors.last_of_mem h hmem
    rw [hlast] at hother
    cases hother
  have hindex : (run params (before ++ [.SetVessel vessel])).index imo =
      (run params before).index imo ++ if vessel.Imo = imo then [vessel.key] else [] := by
    rw [run_concat]
    exact index_set _ vessel imo
  rw [hindex]
  refine ⟨?_, ?_⟩
  · split
    · exact List.nodup_append.mpr ⟨(h imo).1, List.nodup_singleton _, by
        rintro a ha b hb rfl
        rw [List.mem_singleton.mp hb] at ha
        exact hnew ha⟩
    · rw [List.append_nil]
      exact (h imo).1
  · intro key
    rw [List.mem_append, (h imo).2 key]
    constructor
    · rintro (⟨himo, other, hstored, hkey⟩ | hmem)
      · refine ⟨himo, other, stored_concat.mpr ?_, hkey⟩
        rw [if_neg]
        · exact hstored
        · intro hsame
          rw [stored_iff, ← hsame] at hstored
          exact absurd (hlast.symm.trans hstored) nofun
      · split at hmem
        · rename_i himo
          rw [List.mem_singleton.mp hmem]
          exact ⟨himo, vessel, stored_iff.mpr (last_own before (.SetVessel vessel)), rfl⟩
        · cases hmem
    · rintro ⟨rfl, other, hstored, rfl⟩
      rw [stored_concat] at hstored
      split at hstored
      · cases hstored
        exact .inr (by rw [if_pos (show vessel.Imo = vessel.key.Imo from rfl)]; simp)
      · exact .inl ⟨rfl, other, hstored, rfl⟩

/-- A report over another one stays in the index as well. -/
theorem not_mirrors_set (h : (run params before).Mirrors) {vessel other : Vessel}
    (hlast : last before vessel.key.storeKey = some other) :
    ¬ (run params (before ++ [.SetVessel vessel])).Mirrors := by
  intro hafter
  have hother : last before other.key.storeKey = some other := by rwa [key_of_last hlast]
  have hmem := (mem_index_iff h).mpr ⟨other, hother, rfl⟩
  have hindex : (run params (before ++ [.SetVessel vessel])).index other.key.Imo =
      (run params before).index other.key.Imo ++
        if vessel.Imo = other.key.Imo then [vessel.key] else [] := by
    rw [run_concat]
    exact index_set _ vessel _
  by_cases hkey : other.key = vessel.key
  · -- the same report is listed twice
    have hnodup := (hafter other.key.Imo).1
    have himo : vessel.Imo = other.key.Imo := by
      rw [hkey]
      rfl
    rw [hindex, if_pos himo, List.nodup_append] at hnodup
    exact hnodup.2.2 _ hmem _ (List.mem_singleton.mpr rfl) hkey
  · -- the other report is listed and no longer stored
    obtain ⟨left, hleft, hsame⟩ := Mirrors.last_of_mem hafter
      (hindex ▸ List.mem_append_left _ hmem)
    rw [key_of_last hlast] at hleft
    cases (last_own before (.SetVessel vessel)).symm.trans hleft
    exact hkey hsame.symm

theorem mirrors_remove (h : (run params before).Mirrors) {imo source : Bytes} {ts : UInt64}
    (hfits : Fits before (.RemoveVessel imo ts source)) :
    (run params (before ++ [.RemoveVessel imo ts source])).Mirrors := by
  intro imo'
  have hindex : (run params (before ++ [.RemoveVessel imo ts source])).index imo' =
      if imo = imo' then ((run params before).index imo').erase ⟨imo, ts, source⟩
      else (run params before).index imo' := by
    rw [run_concat]
    exact index_remove _ imo ts source imo'
  have hmem : ∀ key, key ∈ (run params (before ++ [.RemoveVessel imo ts source])).index imo' ↔
      key ≠ ⟨imo, ts, source⟩ ∧ key ∈ (run params before).index imo' := by
    intro key
    rw [hindex]
    split
    · exact List.Nodup.mem_erase_iff (h imo').1
    · rename_i hne
      refine ⟨fun hin => ⟨?_, hin⟩, fun hin => hin.2⟩
      rintro rfl
      exact hne (((h imo').2 _).mp hin).1
  refine ⟨?_, ?_⟩
  · rw [hindex]
    split
    · exact (h imo').1.erase _
    · exact (h imo').1
  · intro key
    rw [hmem, (h imo').2]
    constructor
    · rintro ⟨hne, himo, vessel, hstored, hkey⟩
      refine ⟨himo, vessel, stored_concat.mpr ?_, hkey⟩
      rw [if_neg]
      · exact hstored
      · intro hsame
        rw [stored_iff, ← hsame] at hstored
        cases hfits vessel hstored
        exact hne hkey.symm
    · rintro ⟨himo, vessel, hstored, hkey⟩
      rw [stored_concat] at hstored
      split at hstored
      · cases hstored
      · rename_i hother
        refine ⟨?_, himo, vessel, hstored, hkey⟩
        rintro rfl
        exact hother (by rw [hkey]; rfl)

/-- A removal of another report than the one at the store key leaves that one in the index. -/
theorem not_mirrors_remove (h : (run params before).Mirrors) {imo source : Bytes} {ts : UInt64}
    {other : Vessel} (hlast : last before (VesselKey imo ts source) = some other)
    (hne : other.key ≠ ⟨imo, ts, source⟩) :
    ¬ (run params (before ++ [.RemoveVessel imo ts source])).Mirrors := by
  intro hafter
  have hother : last before other.key.storeKey = some other := by rwa [key_of_last hlast]
  have hmem := (mem_index_iff h).mpr ⟨other, hother, rfl⟩
  have hkept : other.key ∈
      (run params (before ++ [.RemoveVessel imo ts source])).index other.key.Imo := by
    rw [run_concat]
    refine (index_remove _ imo ts source _).symm ▸ ?_
    split
    · exact (List.mem_erase_of_ne hne).mpr hmem
    · exact hmem
  obtain ⟨left, hleft, -⟩ := Mirrors.last_of_mem hafter hkept
  rw [key_of_last hlast] at hleft
  cases (last_own before (.RemoveVessel imo ts source)).symm.trans hleft

/-- What one call does to a mirrored store. -/
theorem mirrors_concat_iff (h : (run params before).Mirrors) (call : Call) :
    (run params (before ++ [call])).Mirrors ↔ Fits before call := by
  cases call with
  | SetVessel vessel =>
    cases hlast : last before vessel.key.storeKey with
    | none =>
      refine iff_of_true (mirrors_set h hlast) ?_
      intro other hother
      exact absurd (hlast.symm.trans hother) nofun
    | some other =>
      refine iff_of_false (not_mirrors_set h hlast) ?_
      intro hfits
      cases hfits other hlast
  | RemoveVessel imo ts source =>
    constructor
    · intro hafter other hlast
      by_contra hne
      refine not_mirrors_remove h hlast ?_ hafter
      intro hkey
      cases hkey
      exact hne rfl
    · exact mirrors_remove h

theorem mirrors_empty (params : Params) : (run params []).Mirrors := by
  intro imo
  refine ⟨List.nodup_nil, ?_⟩
  intro key
  refine iff_of_false List.not_mem_nil ?_
  rintro ⟨-, vessel, ⟨storeKey, hnone⟩, -⟩
  cases hnone

/-- The whole run is mirrored as long as every call keeps it. -/
theorem mirrors_run_iff (params : Params) (calls : List Call) :
    (∀ before, before <+: calls → (run params before).Mirrors) ↔
      ∀ before call, before ++ [call] <+: calls → Fits before call := by
  constructor
  · intro h before call hcall
    exact (mirrors_concat_iff (h before ((List.prefix_append _ _).trans hcall)) call).mp
      (h _ hcall)
  · intro h before
    induction before using List.reverseRecOn with
    | nil => exact fun _ => mirrors_empty params
    | append_singleton before call ih =>
      intro hcall
      exact (mirrors_concat_iff (ih ((List.prefix_append _ _).trans hcall)) call).mpr
        (h before call hcall)

end Steps

/-! ## The window of a mirrored store -/

theorem window_split (oldest : UInt64) (maxItemsCount : Int32) (keyIdx : ℕ)
    (keys : List VesselIndexImo_Key) :
    ∃ rest, keys = window oldest maxItemsCount keyIdx keys ++ rest ∧
      (∀ key ∈ window oldest maxItemsCount keyIdx keys, oldest ≤ key.Ts) ∧
      (window oldest maxItemsCount keyIdx keys = [] ∨
        keyIdx + (window oldest maxItemsCount keyIdx keys).length ≤ maxItemsCount.toInt) ∧
      ∀ next ∈ rest.head?, next.Ts < oldest ∨
        maxItemsCount.toInt ≤ keyIdx + (window oldest maxItemsCount keyIdx keys).length := by
  induction keys generalizing keyIdx with
  | nil => exact ⟨[], rfl, nofun, .inl rfl, nofun⟩
  | cons key keys ih =>
    unfold window
    split
    · rename_i hstop
      refine ⟨key :: keys, rfl, nofun, .inl rfl, ?_⟩
      intro next hnext
      cases hnext
      simpa using hstop
    · rename_i hgo
      obtain ⟨rest, heq, holdest, hmost, hnext⟩ := ih (keyIdx + 1)
      have hlength : (keyIdx : ℤ) + (key :: window oldest maxItemsCount (keyIdx + 1) keys).length =
          ((keyIdx + 1 : ℕ) : ℤ) + (window oldest maxItemsCount (keyIdx + 1) keys).length := by
        rw [List.length_cons]
        omega
      rw [not_or, UInt64.not_lt, not_le] at hgo
      refine ⟨rest, by rw [List.cons_append, ← heq], ?_, .inr ?_, ?_⟩
      · intro key' hkey'
        rcases List.mem_cons.mp hkey' with rfl | hkey'
        · exact hgo.1
        · exact holdest key' hkey'
      · rw [hlength]
        rcases hmost with hnil | hmost
        · rw [hnil, List.length_nil]
          omega
        · exact hmost
      · intro next hin
        rw [hlength]
        exact hnext next hin

theorem oldest_le_iff (maxTs intervalWidth ts : UInt64) :
    maxTs - (if intervalWidth < maxTs then intervalWidth else maxTs) ≤ ts ↔
      maxTs.toNat ≤ ts.toNat + intervalWidth.toNat := by
  rw [UInt64.le_iff_toNat_le]
  split
  · rename_i hlt
    rw [UInt64.lt_iff_toNat_lt] at hlt
    rw [UInt64.toNat_sub_of_le _ _ (UInt64.le_iff_toNat_le.mpr hlt.le)]
    omega
  · rename_i hge
    rw [UInt64.not_lt, UInt64.le_iff_toNat_le] at hge
    rw [UInt64.sub_self]
    exact iff_of_true (Nat.zero_le _) (by omega)

theorem map_key_filterMap {keys : List VesselIndexImo_Key} {f : VesselIndexImo_Key → Option Vessel}
    (h : ∀ key ∈ keys, ∃ vessel, f key = some vessel ∧ vessel.key = key) :
    (keys.filterMap f).map Vessel.key = keys := by
  induction keys with
  | nil => rfl
  | cons key keys ih =>
    obtain ⟨vessel, hf, hkey⟩ := h key List.mem_cons_self
    rw [List.filterMap_cons_some hf, List.map_cons, hkey,
      ih fun key' hkey' => h key' (List.mem_cons_of_mem _ hkey')]

theorem newest_nil {among : Set Vessel} {maxItemsCount : Int32}
    (h : (∀ vessel, vessel ∉ among) ∨ maxItemsCount = 0) : Newest among maxItemsCount [] where
  distinct := List.nodup_nil
  recent := nofun
  atMost := Nat.zero_le _
  left vessel hin _ := by
    rcases h with h | rfl
    · exact absurd hin (h vessel)
    · exact ⟨rfl, nofun⟩

section Window

variable {params : Params} {calls : List Call} {imo : Bytes}

theorem newest_window (h : (run params calls).Mirrors) (intervalWidth : UInt64)
    (maxItemsCount : Int32) {first : VesselIndexImo_Key} {others : List VesselIndexImo_Key}
    (hperm : (first :: others).Perm ((run params calls).index imo))
    (hordered : (first :: others).Pairwise fun a b => rank a ≤ rank b) :
    Newest ((run params calls).recent imo intervalWidth) maxItemsCount
      ((window (first.Ts - if intervalWidth < first.Ts then intervalWidth else first.Ts)
        maxItemsCount 0 (first :: others)).filterMap fun key =>
          (run params calls).GetVessel key.Imo key.Ts key.Source) := by
  obtain ⟨rest, hsplit, holdest, hmost, hnext⟩ := window_split
    (first.Ts - if intervalWidth < first.Ts then intervalWidth else first.Ts) maxItemsCount 0
    (first :: others)
  generalize window (first.Ts - if intervalWidth < first.Ts then intervalWidth else first.Ts)
    maxItemsCount 0 (first :: others) = picked at *
  simp only [Int.ofNat_zero, Int.zero_add, oldest_le_iff] at holdest hmost hnext
  have hlisted : ∀ {vessel}, (run params calls).Stored vessel → vessel.Imo = imo →
      vessel.key ∈ first :: others := by
    intro vessel hstored himo
    exact hperm.mem_iff.mpr (((h imo).2 _).mpr ⟨himo, vessel, hstored, rfl⟩)
  have hfound : ∀ key ∈ picked, ∃ vessel,
      (run params calls).GetVessel key.Imo key.Ts key.Source = some vessel ∧ vessel.key = key := by
    intro key hkey
    have hin : key ∈ first :: others := hsplit ▸ List.mem_append_left _ hkey
    obtain ⟨vessel, hlast, hsame⟩ := Mirrors.last_of_mem h (hperm.mem_iff.mp hin)
    exact ⟨vessel, (get_run params calls _).trans hlast, hsame⟩
  have hkeys := map_key_filterMap hfound
  have hnewest : ∀ key ∈ first :: others, key.Ts.toNat ≤ first.Ts.toNat := by
    intro key hkey
    rcases List.mem_cons.mp hkey with rfl | hkey
    · exact le_rfl
    · exact (List.pairwise_cons.mp hordered).1 key hkey
  have hstored : ∀ {vessel}, vessel ∈ picked.filterMap (fun key =>
      (run params calls).GetVessel key.Imo key.Ts key.Source) →
      vessel.key ∈ picked ∧ (run params calls).Stored vessel := by
    intro vessel hvessel
    refine ⟨hkeys ▸ List.mem_map_of_mem hvessel, ?_⟩
    obtain ⟨key, -, hget⟩ := List.mem_filterMap.mp hvessel
    exact ⟨_, hget⟩
  have hlength := congrArg List.length hkeys
  rw [List.length_map] at hlength
  refine ⟨?_, ?_, ?_, ?_⟩
  · have hnodup := hperm.nodup_iff.mpr (h imo).1
    rw [hsplit, List.nodup_append] at hnodup
    exact List.Nodup.of_map Vessel.key (hkeys.symm ▸ hnodup.1)
  · intro vessel hvessel
    obtain ⟨hpicked, hin⟩ := hstored hvessel
    have hmem : vessel.key ∈ first :: others := hsplit ▸ List.mem_append_left _ hpicked
    refine ⟨⟨hin, (((h imo).2 _).mp (hperm.mem_iff.mp hmem)).1⟩, ?_⟩
    rintro other ⟨hother, himo⟩
    have hle : other.Ts.toNat ≤ first.Ts.toNat := hnewest _ (hlisted hother himo)
    have hbound : first.Ts.toNat ≤ vessel.Ts.toNat + intervalWidth.toNat :=
      holdest _ hpicked
    omega
  · rw [hlength]
    rcases hmost with hnil | hmost
    · rw [hnil]
      exact Nat.zero_le _
    · omega
  · rintro vessel ⟨⟨hin, himo⟩, hrecent⟩ hnot
    have hrest : vessel.key ∈ rest := by
      have hmem := hlisted hin himo
      rw [hsplit] at hmem
      refine (List.mem_append.mp hmem).resolve_left ?_
      intro hpicked
      obtain ⟨found, hget, -⟩ := hfound _ hpicked
      have hsame : some vessel = some found := by
        rw [← hget, ← stored_iff.mp hin]
        exact (get_run params calls _).symm
      cases hsame
      exact hnot (List.mem_filterMap.mpr ⟨_, hpicked, hget⟩)
    rw [hsplit, List.pairwise_append] at hordered
    refine ⟨?_, ?_⟩
    · obtain ⟨next, later, rfl⟩ := List.exists_cons_of_ne_nil (List.ne_nil_of_mem hrest)
      have hnextTs : vessel.Ts.toNat ≤ next.Ts.toNat := by
        rcases List.mem_cons.mp hrest with hsame | hlater
        · rw [← hsame]
          exact le_rfl
        · exact (List.pairwise_cons.mp hordered.2.1).1 _ hlater
      have hfirst : first.Ts.toNat ≤ vessel.Ts.toNat + intervalWidth.toNat := by
        obtain ⟨himo', newest, hnewestStored, hkey⟩ :=
          ((h imo).2 first).mp (hperm.mem_iff.mp List.mem_cons_self)
        have hle := hrecent newest ⟨hnewestStored, (congrArg VesselIndexImo_Key.Imo hkey).trans himo'⟩
        have hts : newest.Ts = first.Ts := congrArg VesselIndexImo_Key.Ts hkey
        rwa [hts] at hle
      have hfull := (hnext next rfl).resolve_left ?_
      · rcases hmost with hnil | hmost
        · rw [hlength, hnil]
          rw [hnil] at hfull
          simp only [List.length_nil, Int.ofNat_zero] at hfull ⊢
          omega
        · omega
      · rw [← UInt64.not_le, oldest_le_iff, not_not]
        omega
    · intro other hother
      exact UInt64.le_iff_toNat_le.mpr (hordered.2.2 _ (hstored hother).1 _ hrest)

theorem newest_of_mirrors (h : (run params calls).Mirrors)
    (slice : sort.Slice (sort.below rank)) (imo : Bytes) (intervalWidth : UInt64)
    (maxItemsCount : Int32) :
    Newest ((run params calls).recent imo intervalWidth) maxItemsCount
      ((run params calls).GetVesselsInWindow slice imo intervalWidth maxItemsCount) := by
  have hempty : (run params calls).index imo = [] →
      ∀ vessel, vessel ∉ (run params calls).recent imo intervalWidth := by
    rintro hnil vessel ⟨⟨hstored, himo⟩, -⟩
    have hmem := ((h imo).2 vessel.key).mpr ⟨himo, vessel, hstored, rfl⟩
    rw [hnil] at hmem
    cases hmem
  unfold Store.GetVesselsInWindow
  split
  · rename_i hzero
    exact newest_nil (.inr hzero)
  · split
    · rename_i hnone
      exact newest_nil (.inl (hempty (by rw [Store.index, hnone]; rfl)))
    · rename_i keys hsome
      have hindex : (run params calls).index imo = keys := by
        rw [Store.index, hsome]
        rfl
      split
      · rename_i hnil
        have hkeys : keys = [] := (hnil ▸ slice.perm keys).nil_eq.symm
        exact newest_nil (.inl (hempty (hindex.trans hkeys)))
      · rename_i first others hrun
        exact newest_window h intervalWidth maxItemsCount (hindex ▸ hrun ▸ slice.perm keys)
          (hrun ▸ slice.ordered_key keys)

end Window

/-- The index lists the stored reports, each once, and windows are of different reports, the newest
there are, after every call of a sequence exactly when no call of it finds at its store key a
report other than the one it removes. -/
theorem index_mirrors_store_iff (params : Params) (calls : List Call) :
    (∀ before, before <+: calls → (run params before).Mirrors ∧
      ∀ (slice : sort.Slice (sort.below rank)) (imo : Bytes) (intervalWidth : UInt64)
        (maxItemsCount : Int32),
        Newest ((run params before).recent imo intervalWidth) maxItemsCount
          ((run params before).GetVesselsInWindow slice imo intervalWidth maxItemsCount)) ↔
      ∀ before call, before ++ [call] <+: calls → Fits before call := by
  rw [← mirrors_run_iff params]
  constructor
  · exact fun h before hbefore => (h before hbefore).1
  · intro h before hbefore
    exact ⟨h before hbefore, newest_of_mirrors (h before hbefore)⟩

def report : Vessel := arriving 1700080000

/-- A report that is set again, as an update does, is listed twice and counted twice. -/
theorem report_set_again_is_counted_twice :
    (run DefaultParams [.SetVessel report, .SetVessel report]).index report.Imo =
      [report.key, report.key] ∧
    (run DefaultParams [.SetVessel report, .SetVessel report]).GetVesselsInWindow
      (sort.Slice.stable rank) report.Imo 43200 16 = [report, report] := by
  decide

end cardano_ibc.vesseloracle
