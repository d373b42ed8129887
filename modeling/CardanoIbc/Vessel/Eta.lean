-- The consolidated arrival time of a vessel (keeper/msg_server_consolidate_reports.go): when the
-- means lie among the reports they are taken of.
import CardanoIbc.Vessel.Keeper
import Mathlib.Algebra.Order.BigOperators.Group.List

namespace cardano_ibc.vesseloracle

/-! ## The consolidation -/

def etaRank (vessel : Vessel) : ℕ := vessel.Eta.toNat

def calculateEtaMeanAndStd (vesselData : List Vessel) : UInt64 × UInt64 :=
  if vesselData.length = 0 then (0, 0)
  else
    let samples := vesselData.length.toUInt64
    let sum := vesselData.foldl (fun sum vessel => sum + vessel.Eta) 0
    let mean := sum / samples
    let squaredDeviationSum := vesselData.foldl (fun squaredDeviationSum vessel =>
      let deviation := vessel.Eta.toInt64 - mean.toInt64
      squaredDeviationSum + (deviation * deviation).toUInt64) 0
    (mean, (squaredDeviationSum / samples).toFloat.sqrt.toUInt64)

def isInlier (oneSigmaMedianMin oneSigmaMedianMax : UInt64) (vessel : Vessel) : Bool :=
  decide (oneSigmaMedianMin ≤ vessel.Eta) && decide (vessel.Eta ≤ oneSigmaMedianMax)

/-- The loop that counts the outliers and adds up the others. -/
def countOutliers (oneSigmaMedianMin oneSigmaMedianMax : UInt64) (vesselData : List Vessel) :
    Int32 × UInt64 :=
  vesselData.foldl (fun found vessel =>
    if isInlier oneSigmaMedianMin oneSigmaMedianMax vessel then (found.1, found.2 + vessel.Eta)
    else (found.1 + 1, found.2)) (0, 0)

structure EtaStatistics where
  etaMeanCleaned : UInt64
  etaStdCleaned : UInt64
  etaMeanAll : UInt64
  etaStdAll : UInt64
  numOutliers : Int32
deriving DecidableEq

section

variable (slice : sort.Slice (sort.below etaRank)) (vesselData : List Vessel)

/-- The sample in the middle. -/
def medianSample (h : vesselData.length ≠ 0) : Vessel :=
  (slice.run vesselData).get ⟨vesselData.length / 2, by
    rw [(slice.perm vesselData).length_eq]
    omega⟩

def oneSigmaMedianMin (h : vesselData.length ≠ 0) : UInt64 :=
  (medianSample slice vesselData h).Eta - (calculateEtaMeanAndStd vesselData).2

def oneSigmaMedianMax (h : vesselData.length ≠ 0) : UInt64 :=
  (medianSample slice vesselData h).Eta + (calculateEtaMeanAndStd vesselData).2

def consolidateEta : Except String EtaStatistics :=
  if h : vesselData.length = 0 then .error "Cannot determine eta for empty vessel set."
  else
    let samples := vesselData.length.toUInt64
    let (etaMeanAll, etaStdAll) := calculateEtaMeanAndStd vesselData
    let min := oneSigmaMedianMin slice vesselData h
    let max := oneSigmaMedianMax slice vesselData h
    let (numOutliers, etaMeanCleaned) := countOutliers min max vesselData
    if numOutliers.toInt64.toUInt64 < samples then
      .ok
        { etaMeanCleaned := etaMeanCleaned / (samples - numOutliers.toInt64.toUInt64)
          etaStdCleaned := (calculateEtaMeanAndStd (vesselData.filter (isInlier min max))).2
          etaMeanAll, etaStdAll, numOutliers }
    else .ok { etaMeanCleaned, etaStdCleaned := 0, etaMeanAll, etaStdAll, numOutliers }

end

/-! ## The figures of a list of arrival times -/

namespace etas

/-- The sum is taken modulo `2 ^ 64`, as everything is. -/
def mean (etas : List ℕ) : ℕ := etas.sum % 2 ^ 64 / etas.length

def squares (etas : List ℕ) : ℕ := (etas.map fun e => ((e - mean etas) + (mean etas - e)) ^ 2).sum

def deviation (etas : List ℕ) : ℕ :=
  (squares etas % 2 ^ 64 / etas.length).toUInt64.toFloat.sqrt.toUInt64.toNat

def median (etas : List ℕ) : ℕ := (etas.insertionSort (· ≤ ·)).getD (etas.length / 2) 0

/-- The arrival times at most one deviation from the median. -/
def near (etas : List ℕ) : List ℕ :=
  etas.filter fun e => decide (median etas ≤ e + deviation etas) &&
    decide (e ≤ median etas + deviation etas)

/-- How many the others are, as far as 32 bits count them. -/
def far (etas : List ℕ) : ℕ := (etas.length - (near etas).length) % 2 ^ 32

/-- The interval around the median does not pass the ends of the number range, and no sum loses so
much to it that its mean falls below all the arrival times. -/
structure Steady (etas : List ℕ) : Prop where
  low : deviation etas ≤ median etas
  high : median etas + deviation etas < 2 ^ 64
  mean : ∃ e ∈ etas, e * etas.length ≤ etas.sum % 2 ^ 64
  cleaned : far etas < 2 ^ 31 →
    ∃ e ∈ etas, e * (etas.length - far etas) ≤ (near etas).sum % 2 ^ 64
  uncleaned : 2 ^ 31 ≤ far etas →
    (∃ e ∈ etas, e ≤ (near etas).sum % 2 ^ 64) ∧ ∃ e ∈ etas, (near etas).sum % 2 ^ 64 ≤ e

theorem exists_ge {etas : List ℕ} {x : ℕ} (hx : 0 < x) (h : etas.length * x ≤ etas.sum)
    (hne : etas ≠ []) : ∃ e ∈ etas, x ≤ e := by
  by_contra hall
  push Not at hall
  have hsum : etas.sum ≤ etas.length * (x - 1) := by
    exact List.sum_le_card_nsmul etas (x - 1) fun e he => Nat.le_sub_one_of_lt (hall e he)
  have hpos := List.length_pos_of_ne_nil hne
  have : etas.length * (x - 1) < etas.length * x := Nat.mul_lt_mul_of_pos_left (by omega) hpos
  omega

/-- A mean of all that is taken of less does not pass the largest. -/
theorem exists_ge_div {etas : List ℕ} (hne : etas ≠ []) {sum d : ℕ} (hsum : sum ≤ etas.sum)
    (hd : etas.length ≤ d) : ∃ e ∈ etas, sum / d ≤ e := by
  rcases Nat.eq_zero_or_pos (sum / d) with hzero | hpos
  · obtain ⟨e, he⟩ := List.exists_mem_of_ne_nil _ hne
    exact ⟨e, he, hzero ▸ Nat.zero_le e⟩
  · refine exists_ge hpos ?_ hne
    calc etas.length * (sum / d) ≤ d * (sum / d) := Nat.mul_le_mul_right _ hd
      _ ≤ sum := Nat.mul_div_le _ _
      _ ≤ etas.sum := hsum

theorem near_le_divisor (etas : List ℕ) : (near etas).length ≤ etas.length - far etas := by
  have hle : (near etas).length ≤ etas.length := List.length_filter_le _ _
  have hmod : far etas ≤ etas.length - (near etas).length := Nat.mod_le _ _
  omega

theorem divisor_pos {etas : List ℕ} (h : 0 < (near etas).length) : 0 < etas.length - far etas :=
  Nat.lt_of_lt_of_le h (near_le_divisor etas)

end etas

/-! ## The machine's figures -/

section Machine

theorem toNat_foldl_add (f : Vessel → UInt64) (g : Vessel → ℕ)
    (h : ∀ vessel, (f vessel).toNat = g vessel % 2 ^ 64) (vesselData : List Vessel) (sum : UInt64) :
    (vesselData.foldl (fun sum vessel => sum + f vessel) sum).toNat =
      (sum.toNat + (vesselData.map g).sum) % 2 ^ 64 := by
  induction vesselData generalizing sum with
  | nil => exact (Nat.mod_eq_of_lt sum.toNat_lt).symm
  | cons vessel vesselData ih =>
    rw [List.foldl_cons, ih, UInt64.toNat_add, h, List.map_cons, List.sum_cons]
    omega

theorem toNat_length {vesselData : List Vessel} (h : vesselData.length < 2 ^ 63) :
    vesselData.length.toUInt64.toNat = vesselData.length :=
  UInt64.toNat_ofNat_of_lt' (by rw [UInt64.size]; omega)

/-- Signed or not, the square of a difference is the same. -/
theorem toNat_square (a b : UInt64) :
    ((a.toInt64 - b.toInt64) * (a.toInt64 - b.toInt64)).toUInt64.toNat =
      ((a.toNat - b.toNat) + (b.toNat - a.toNat)) ^ 2 % 2 ^ 64 := by
  have hunsigned : ((a.toInt64 - b.toInt64) * (a.toInt64 - b.toInt64)).toUInt64 =
      (a - b) * (a - b) := rfl
  have hsub : ∀ x y : UInt64, y ≤ x → ((x - y) * (x - y)).toNat =
      ((x.toNat - y.toNat) + (y.toNat - x.toNat)) ^ 2 % 2 ^ 64 := by
    intro x y hle
    have hle' := UInt64.le_iff_toNat_le.mp hle
    rw [UInt64.toNat_mul, UInt64.toNat_sub_of_le _ _ hle, Nat.sub_eq_zero_of_le hle', Nat.add_zero,
      pow_two]
  rw [hunsigned]
  rcases UInt64.le_total b a with hle | hle
  · exact hsub a b hle
  · have hneg : (a - b) * (a - b) = (b - a) * (b - a) := by grind
    rw [hneg, hsub b a hle, Nat.add_comm]

theorem mean_eq {vesselData : List Vessel} (hne : vesselData.length ≠ 0)
    (hlen : vesselData.length < 2 ^ 63) :
    (calculateEtaMeanAndStd vesselData).1.toNat = etas.mean (vesselData.map etaRank) := by
  have hsum := toNat_foldl_add Vessel.Eta etaRank
    (fun vessel => (Nat.mod_eq_of_lt vessel.Eta.toNat_lt).symm) vesselData 0
  rw [calculateEtaMeanAndStd, if_neg hne]
  simp only [UInt64.toNat_div, hsum, toNat_length hlen, etas.mean, List.length_map,
    UInt64.toNat_zero, Nat.zero_add]

theorem deviation_eq {vesselData : List Vessel} (hne : vesselData.length ≠ 0)
    (hlen : vesselData.length < 2 ^ 63) :
    (calculateEtaMeanAndStd vesselData).2.toNat = etas.deviation (vesselData.map etaRank) := by
  have hmean := mean_eq hne hlen
  rw [calculateEtaMeanAndStd, if_neg hne] at hmean ⊢
  simp only at hmean ⊢
  generalize (vesselData.foldl (fun sum vessel => sum + vessel.Eta) 0) /
    vesselData.length.toUInt64 = mean at hmean ⊢
  have hsquares := toNat_foldl_add
    (fun vessel => ((vessel.Eta.toInt64 - mean.toInt64) * (vessel.Eta.toInt64 - mean.toInt64)).toUInt64)
    (fun vessel => ((etaRank vessel - mean.toNat) + (mean.toNat - etaRank vessel)) ^ 2)
    (fun vessel => toNat_square vessel.Eta mean) vesselData 0
  rw [etas.deviation, etas.squares, List.map_map, ← hmean, List.length_map]
  congr 4
  have hbound : (vesselData.map ((fun e => (e - mean.toNat + (mean.toNat - e)) ^ 2) ∘ etaRank)).sum %
      2 ^ 64 / vesselData.length < UInt64.size :=
    lt_of_le_of_lt (Nat.div_le_self _ _) (Nat.mod_lt _ (by decide))
  rw [← UInt64.toNat_inj, UInt64.toNat_div, toNat_length hlen, hsquares, UInt64.toNat_zero,
    Nat.zero_add]
  exact (UInt64.toNat_ofNat_of_lt' hbound).symm

/-- The middle one of the arrival times does not depend on how ties are ordered. -/
theorem median_eq (slice : sort.Slice (sort.below etaRank)) {vesselData : List Vessel}
    (hne : vesselData.length ≠ 0) :
    (medianSample slice vesselData hne).Eta.toNat = etas.median (vesselData.map etaRank) := by
  have hsorted : (slice.run vesselData).map etaRank =
      (vesselData.map etaRank).insertionSort (· ≤ ·) := by
    rw [slice.map_run (sort.Slice.stable etaRank) (List.Perm.refl vesselData)]
    exact List.map_insertionSort _ _ _ _ fun _ _ _ _ => Iff.rfl
  have hlength : vesselData.length / 2 < (slice.run vesselData).length := by
    rw [(slice.perm vesselData).length_eq]
    omega
  rw [etas.median, ← hsorted, List.length_map, List.getD_eq_getElem?_getD, List.getElem?_map,
    List.getElem?_eq_getElem hlength]
  rfl

theorem countOutliers_from (min max : UInt64) (vesselData : List Vessel) (found : Int32 × UInt64) :
    vesselData.foldl (fun found vessel =>
      if isInlier min max vessel then (found.1, found.2 + vessel.Eta)
      else (found.1 + 1, found.2)) found =
    (found.1 + Int32.ofNat (vesselData.countP fun vessel => !isInlier min max vessel),
      (vesselData.filter (isInlier min max)).foldl (fun sum vessel => sum + vessel.Eta) found.2) := by
  induction vesselData generalizing found with
  | nil => simp
  | cons vessel vesselData ih =>
    rw [List.foldl_cons, ih]
    by_cases h : isInlier min max vessel = true
    · rw [if_pos h, List.filter_cons_of_pos h, List.countP_cons_of_neg (by simp [h]),
        List.foldl_cons]
    · rw [if_neg h, List.filter_cons_of_neg h, List.countP_cons_of_pos (by simp [h]),
        Int32.ofNat_add, Int32.add_assoc, Int32.add_comm (Int32.ofNat _)]
      rfl

theorem countOutliers_eq (min max : UInt64) (vesselData : List Vessel) :
    countOutliers min max vesselData =
      (Int32.ofNat (vesselData.countP fun vessel => !isInlier min max vessel),
        (vesselData.filter (isInlier min max)).foldl (fun sum vessel => sum + vessel.Eta) 0) := by
  rw [countOutliers, countOutliers_from, Int32.zero_add]

theorem toInt_count (count : ℕ) : (Int32.ofNat count).toInt = (count : ℤ).bmod (2 ^ 32) :=
  Int32.toInt_ofNat'

theorem toInt_count_lt {count n : ℕ} (h : count < n) : (Int32.ofNat count).toInt < n := by
  rw [toInt_count, Int.bmod_def]
  split <;> omega

/-- A count of outliers as an unsigned number of 64 bits. -/
theorem toNat_count (count : ℕ) :
    (Int32.ofNat count).toInt64.toUInt64.toNat =
      if count % 2 ^ 32 < 2 ^ 31 then count % 2 ^ 32 else 2 ^ 64 - 2 ^ 32 + count % 2 ^ 32 := by
  have hsigned : (Int32.ofNat count).toInt64.toBitVec.toInt = (count : ℤ).bmod (2 ^ 32) :=
    (Int32.toInt_toInt64 _).trans (toInt_count count)
  have hlt := (Int32.ofNat count).toInt64.toBitVec.isLt
  rw [BitVec.toInt_eq_toNat_bmod, Int64.toNat_toBitVec, Int.bmod_def, Int.bmod_def] at hsigned
  rw [Int64.toNat_toBitVec] at hlt
  split <;> omega

end Machine

/-! ## Robust means -/

def Between (vesselData : List Vessel) (eta : UInt64) : Prop :=
  (∃ vessel ∈ vesselData, vessel.Eta ≤ eta) ∧ ∃ vessel ∈ vesselData, eta ≤ vessel.Eta

/-- The sample in the middle counts as an inlier, so that not all are outliers, and both means lie
between the smallest and the largest arrival time. -/
def Robust (slice : sort.Slice (sort.below etaRank)) (vesselData : List Vessel)
    (h : vesselData.length ≠ 0) : Prop :=
  isInlier (oneSigmaMedianMin slice vesselData h) (oneSigmaMedianMax slice vesselData h)
    (medianSample slice vesselData h) = true ∧
  ∃ statistics, consolidateEta slice vesselData = .ok statistics ∧
    statistics.numOutliers.toInt < vesselData.length ∧
    Between vesselData statistics.etaMeanCleaned ∧ Between vesselData statistics.etaMeanAll

theorem between_iff {vesselData : List Vessel} {eta : UInt64} :
    Between vesselData eta ↔ (∃ e ∈ vesselData.map etaRank, e ≤ eta.toNat) ∧
      ∃ e ∈ vesselData.map etaRank, eta.toNat ≤ e := by
  simp only [Between, List.mem_map, UInt64.le_iff_toNat_le, exists_exists_and_eq_and, etaRank]

section Samples

variable (slice : sort.Slice (sort.below etaRank)) {vesselData : List Vessel}
  (hne : vesselData.length ≠ 0) (hlen : vesselData.length < 2 ^ 63)

include hlen

theorem median_inlier_iff :
    isInlier (oneSigmaMedianMin slice vesselData hne) (oneSigmaMedianMax slice vesselData hne)
        (medianSample slice vesselData hne) = true ↔
      etas.deviation (vesselData.map etaRank) ≤ etas.median (vesselData.map etaRank) ∧
      etas.median (vesselData.map etaRank) + etas.deviation (vesselData.map etaRank) < 2 ^ 64 := by
  rw [isInlier, Bool.and_eq_true, decide_eq_true_eq, decide_eq_true_eq, oneSigmaMedianMin,
    oneSigmaMedianMax, UInt64.le_iff_toNat_le, UInt64.le_iff_toNat_le, UInt64.toNat_sub,
    UInt64.toNat_add, ← deviation_eq hne hlen, ← median_eq slice hne]
  have hmedian := (medianSample slice vesselData hne).Eta.toNat_lt
  have hsigma := (calculateEtaMeanAndStd vesselData).2.toNat_lt
  omega

section Inside

variable (hlow : etas.deviation (vesselData.map etaRank) ≤ etas.median (vesselData.map etaRank))
  (hhigh : etas.median (vesselData.map etaRank) + etas.deviation (vesselData.map etaRank) < 2 ^ 64)

include hne slice hlow hhigh

/-- Where the interval does not wrap around, the inliers are the samples within it. -/
theorem near_eq :
    etas.near (vesselData.map etaRank) = (vesselData.filter (isInlier
      (oneSigmaMedianMin slice vesselData hne) (oneSigmaMedianMax slice vesselData hne))).map
      etaRank := by
  rw [etas.near, List.filter_map]
  congr 2
  funext vessel
  have hmin : (oneSigmaMedianMin slice vesselData hne).toNat =
      etas.median (vesselData.map etaRank) - etas.deviation (vesselData.map etaRank) := by
    rw [oneSigmaMedianMin, UInt64.toNat_sub, deviation_eq hne hlen, median_eq slice hne]
    omega
  have hmax : (oneSigmaMedianMax slice vesselData hne).toNat =
      etas.median (vesselData.map etaRank) + etas.deviation (vesselData.map etaRank) := by
    rw [oneSigmaMedianMax, UInt64.toNat_add, deviation_eq hne hlen, median_eq slice hne]
    omega
  rw [Bool.eq_iff_iff, isInlier, Function.comp_apply, Bool.and_eq_true, Bool.and_eq_true,
    decide_eq_true_eq, decide_eq_true_eq, decide_eq_true_eq, decide_eq_true_eq,
    UInt64.le_iff_toNat_le, UInt64.le_iff_toNat_le, hmin, hmax, etaRank]
  omega

theorem count_eq :
    vesselData.countP (fun vessel => !isInlier (oneSigmaMedianMin slice vesselData hne)
      (oneSigmaMedianMax slice vesselData hne) vessel) =
      (vesselData.map etaRank).length - (etas.near (vesselData.map etaRank)).length ∧
    (etas.near (vesselData.map etaRank)).length ≤ (vesselData.map etaRank).length := by
  have hcount := @List.length_eq_countP_add_countP _ (isInlier
    (oneSigmaMedianMin slice vesselData hne) (oneSigmaMedianMax slice vesselData hne)) vesselData
  rw [near_eq slice hne hlen hlow hhigh, List.length_map, List.length_map,
    ← List.countP_eq_length_filter]
  simp only [decide_not, Bool.decide_eq_true] at hcount
  omega

theorem near_pos : 0 < (etas.near (vesselData.map etaRank)).length := by
  rw [near_eq slice hne hlen hlow hhigh, List.length_map]
  have hsample : medianSample slice vesselData hne ∈ vesselData :=
    (slice.perm vesselData).mem_iff.mp (List.get_mem _ _)
  have hinlier := (median_inlier_iff slice hne hlen).mpr ⟨hlow, hhigh⟩
  exact List.length_pos_of_mem (List.mem_filter.mpr ⟨hsample, hinlier⟩)

/-- What the consolidation gives where the interval does not wrap around. -/
theorem consolidateEta_eq : ∃ statistics, consolidateEta slice vesselData = .ok statistics ∧
    statistics.numOutliers.toInt < vesselData.length ∧
    statistics.etaMeanAll.toNat = etas.mean (vesselData.map etaRank) ∧
    statistics.etaMeanCleaned.toNat =
      if etas.far (vesselData.map etaRank) < 2 ^ 31 then
        (etas.near (vesselData.map etaRank)).sum % 2 ^ 64 /
          (vesselData.length - etas.far (vesselData.map etaRank))
      else (etas.near (vesselData.map etaRank)).sum % 2 ^ 64 := by
  obtain ⟨hcount, hle⟩ := count_eq slice hne hlen hlow hhigh
  have hpos := near_pos slice hne hlen hlow hhigh
  have hnear := near_eq slice hne hlen hlow hhigh
  have hmean := mean_eq hne hlen
  have hsum := toNat_foldl_add Vessel.Eta etaRank
    (fun vessel => (Nat.mod_eq_of_lt vessel.Eta.toNat_lt).symm) (vesselData.filter (isInlier
      (oneSigmaMedianMin slice vesselData hne) (oneSigmaMedianMax slice vesselData hne))) 0
  rw [← hnear, UInt64.toNat_zero, Nat.zero_add] at hsum
  have hfar : etas.far (vesselData.map etaRank) = vesselData.countP (fun vessel =>
      !isInlier (oneSigmaMedianMin slice vesselData hne)
        (oneSigmaMedianMax slice vesselData hne) vessel) % 2 ^ 32 := by
    rw [hcount, etas.far]
  rw [List.length_map] at hcount hle
  unfold consolidateEta
  simp only [dif_neg hne, countOutliers_eq]
  generalize oneSigmaMedianMin slice vesselData hne = min at *
  generalize oneSigmaMedianMax slice vesselData hne = max at *
  generalize vesselData.countP (fun vessel => !isInlier min max vessel) = count at *
  have hunsigned := toNat_count count
  have hsigned : (Int32.ofNat count).toInt < vesselData.length := toInt_count_lt (by omega)
  simp only [UInt64.lt_iff_toNat_lt, toNat_length hlen]
  rw [← hfar] at hunsigned
  by_cases hsmall : etas.far (vesselData.map etaRank) < 2 ^ 31
  · rw [if_pos hsmall] at hunsigned
    have hlt : (Int32.ofNat count).toInt64.toUInt64.toNat < vesselData.length := by omega
    rw [if_pos hlt]
    refine ⟨_, rfl, hsigned, hmean, ?_⟩
    rw [if_pos hsmall, UInt64.toNat_div, hsum, UInt64.toNat_sub_of_le, toNat_length hlen, hunsigned]
    rw [UInt64.le_iff_toNat_le, toNat_length hlen]
    exact hlt.le
  · rw [if_neg hsmall] at hunsigned
    have hge : ¬ (Int32.ofNat count).toInt64.toUInt64.toNat < vesselData.length := by omega
    rw [if_neg hge]
    exact ⟨_, rfl, hsigned, hmean, by rw [if_neg hsmall, hsum]⟩

end Inside

end Samples

def samples : List Vessel := [arriving 1700000120, arriving 1700000000, arriving 1700000060]

end cardano_ibc.vesseloracle
