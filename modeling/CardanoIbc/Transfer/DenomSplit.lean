-- Texts cut and put together again, as utils/string.ak and voucher_metadata.ak do it: a text is the
-- parts between its separators, and a denomination is its path of ports and channels and its base.
import CardanoIbc.Ibc.Varints
import CardanoIbc.Library.Pieces
import CardanoIbc.Transfer.TraceRegistry

namespace cardano_ibc

/-! ## Spaces -/

theorem trim_left_eq (bz : Bytes) : trim_left bz = bz.dropWhile (· == 0x20) := by
  induction bz with
  | nil => rfl
  | cons b bz ih =>
    rw [trim_left, List.dropWhile_cons]
    by_cases hb : b = 0x20
    · rw [if_pos hb, if_pos (by simp [hb]), ih]
    · rw [if_neg hb, if_neg (by simp [hb])]

theorem trim_space_eq (str : Bytes) : trim_space str = text.strip (· == 0x20) str := by
  rw [trim_space, trim_left_eq, trim_left_eq]
  rfl

namespace string_utils

/-! ## Separators -/

/-- The parts are handed over through the continuation, the last one first. -/
def do_split {α : Type} (str : Bytes) (sep len i : Int) (fin : List Bytes → α) : Option α :=
  if i ≥ len then some (fin [str])
  else do
    let byte ← index_bytearray str i
    if byte = sep then
      do_split (str.drop (i + 1).toNat) sep (len - i - 1) 0 fun result =>
        fin ((if i > 0 then bytearray.slice str 0 (i - 1) else []) :: result)
    else do_split str sep len (i + 1) fin
termination_by (len - i).toNat

def split (str : Bytes) (sep : Int) : Option (List Bytes) := do
  expect (0 ≤ sep && sep ≤ 127)
  do_split str sep str.length 0 id

/-- With some of the text read, the parts of the rest follow, the first of them after what was
read. -/
theorem do_split_eq {α : Type} (read rest : Bytes) (sep : UInt8) (fin : List Bytes → α) :
    do_split (read ++ rest) sep.toNat (read ++ rest).length read.length fin =
      some (fin ((rest.splitOn sep).modifyHead (read ++ ·))) := by
  induction rest generalizing read fin with
  | nil =>
    rw [do_split, if_pos (by simp), List.splitOn_nil, List.append_nil, List.modifyHead_cons,
      List.append_nil]
  | cons b rest ih =>
    have hbyte : index_bytearray (read ++ b :: rest) read.length = some (b.toNat : Int) := by
      simp [index_bytearray]
    have hmore : ¬ (read.length : Int) ≥ ((read ++ b :: rest).length : Nat) := by
      rw [List.length_append, List.length_cons]
      omega
    rw [do_split, if_neg hmore, hbyte, Option.bind_eq_bind, Option.bind_some,
      List.splitOn_cons_eq_if_modifyHead]
    by_cases hb : b = sep
    · have hdrop : (read ++ b :: rest).drop ((read.length : Int) + 1).toNat = [] ++ rest := by
        rw [show ((read.length : Int) + 1).toNat = read.length + 1 by omega,
          List.drop_length_add_append]
        rfl
      have hlength : ((read ++ b :: rest).length : Int) - read.length - 1 =
          (([] ++ rest : Bytes).length : Nat) := by
        rw [List.length_append, List.length_cons, List.nil_append]
        omega
      have hfirst : (if (read.length : Int) > 0 then
          bytearray.slice (read ++ b :: rest) 0 (read.length - 1) else []) = read := by
        split
        · have hcount : ((read.length : Int) - 1 - 0 + 1).toNat = read.length := by omega
          rw [bytearray.slice, hcount, Int.toNat_zero, List.drop_zero, List.take_left]
        · exact (List.length_eq_zero_iff.mp (by omega)).symm
      have hnext := ih [] fun result => fin (read :: result)
      rw [List.length_nil, Nat.cast_zero] at hnext
      rw [if_pos (by rw [hb]), hdrop, hlength, hfirst, hnext, if_pos (by simp [hb])]
      cases hparts : rest.splitOn sep with
      | nil => exact absurd hparts (List.splitOn_ne_nil sep rest)
      | cons part parts => simp
    · have hnext := ih (read ++ [b]) fin
      have hread : ((read ++ [b]).length : Int) = read.length + 1 := by simp
      rw [← List.append_cons, hread] at hnext
      have hne : ¬ (b.toNat : Int) = sep.toNat :=
        fun heq => hb (UInt8.toNat_inj.mp (Nat.cast_inj.mp heq))
      rw [if_neg hne, hnext, if_neg (by simp [hb])]
      cases hparts : rest.splitOn sep with
      | nil => exact absurd hparts (List.splitOn_ne_nil sep rest)
      | cons part parts => simp

theorem split_eq {sep : UInt8} (h : sep.toNat ≤ 127) (str : Bytes) :
    split str sep.toNat = some (str.splitOn sep) := by
  have hsep : (decide (0 ≤ (sep.toNat : Int)) && decide ((sep.toNat : Int) ≤ 127)) = true := by
    rw [Bool.and_eq_true, decide_eq_true_eq, decide_eq_true_eq]
    omega
  have hsplit := do_split_eq [] str sep id
  rw [List.nil_append, List.length_nil, Nat.cast_zero] at hsplit
  rw [split, hsep, expect_true, Option.bind_eq_bind, Option.bind_some, hsplit]
  cases hparts : str.splitOn sep with
  | nil => exact absurd hparts (List.splitOn_ne_nil sep str)
  | cons part parts => rfl

end string_utils

theorem string.split_eq (str : Bytes) (sep : UInt8) : string.split str sep = str.splitOn sep := by
  induction str with
  | nil => rw [string.split, List.splitOn_nil]
  | cons b str ih =>
    rw [string.split, ih, List.splitOn_cons_eq_if_modifyHead]
    cases hparts : str.splitOn sep with
    | nil => exact absurd hparts (List.splitOn_ne_nil sep str)
    | cons part parts =>
      by_cases hb : b = sep
      · simp [hb]
      · simp [hb]

namespace voucher_metadata

/-! ## Paths -/

/-- The pairs of a port and a channel that the parts start with, and what is left. -/
def leadingPairs : List Bytes → List (Bytes × Bytes) × List Bytes
  | port :: channel :: rest =>
    if is_valid_channel_id channel then
      ((port, channel) :: (leadingPairs rest).1, (leadingPairs rest).2)
    else ([], port :: channel :: rest)
  | rest => ([], rest)

def flat (pairs : List (Bytes × Bytes)) : List Bytes := pairs.flatMap fun x => [x.1, x.2]

theorem flat_cons (x : Bytes × Bytes) (pairs : List (Bytes × Bytes)) :
    flat (x :: pairs) = x.1 :: x.2 :: flat pairs := rfl

theorem flat_append (pairs more : List (Bytes × Bytes)) :
    flat (pairs ++ more) = flat pairs ++ flat more := List.flatMap_append

theorem leadingPairs_append (segments : List Bytes) :
    flat (leadingPairs segments).1 ++ (leadingPairs segments).2 = segments := by
  fun_induction leadingPairs segments with
  | case1 port channel rest hvalid ih =>
    rw [flat_cons, List.cons_append, List.cons_append, ih]
  | case2 => rfl
  | case3 => rfl

theorem leadingPairs_valid (segments : List Bytes) :
    ∀ x ∈ (leadingPairs segments).1, is_valid_channel_id x.2 = true := by
  fun_induction leadingPairs segments with
  | case1 port channel rest hvalid ih =>
    intro x hx
    rcases List.mem_cons.mp hx with rfl | hx
    · exact hvalid
    · exact ih x hx
  | case2 => exact fun x hx => absurd hx List.not_mem_nil
  | case3 => exact fun x hx => absurd hx List.not_mem_nil

/-- Pairs with a channel are taken before the rest is looked at. -/
theorem leadingPairs_flat {pairs : List (Bytes × Bytes)}
    (h : ∀ x ∈ pairs, is_valid_channel_id x.2 = true) (rest : List Bytes) :
    (leadingPairs (flat pairs ++ rest)).1 = pairs ++ (leadingPairs rest).1 := by
  induction pairs with
  | nil => rfl
  | cons x pairs ih =>
    rw [flat_cons, List.cons_append, List.cons_append, leadingPairs,
      if_pos (h x List.mem_cons_self), ih fun y hy => h y (List.mem_cons_of_mem x hy),
      List.cons_append]

theorem join_segments_eq {segments : List Bytes} (h : [] ∉ segments) :
    join_segments segments = slash.intercalate segments := by
  have hfold : ∀ (rest : List Bytes) {acc : Bytes}, acc ≠ [] →
      rest.foldl (fun acc segment => if acc = [] then segment else acc ++ slash ++ segment) acc =
        slash.intercalate (acc :: rest) := by
    intro rest
    induction rest with
    | nil => simp
    | cons y rest ih =>
      intro acc hacc
      rw [List.foldl_cons, if_neg hacc, ih (by simp [hacc]), List.intercalate_cons_cons]
      cases rest with
      | nil => simp
      | cons z rest => simp [List.intercalate_cons_cons]
  cases segments with
  | nil => rfl
  | cons x rest =>
    have hx : x ≠ [] := fun hnil => h (hnil ▸ List.mem_cons_self)
    rw [join_segments, List.foldl_cons, if_pos rfl, hfold rest hx]

/-- What the recursion over the parts gives. -/
theorem do_split_full_denom_trace_eq {segments reversed : List Bytes} (h : [] ∉ segments)
    (hreversed : [] ∉ reversed) :
    do_split_full_denom_trace segments reversed =
      if (leadingPairs segments).2 = [] then none
      else some
        { path := slash.intercalate (reversed.reverse ++ flat (leadingPairs segments).1)
          base_denom := slash.intercalate (leadingPairs segments).2 } := by
  have hpath : join_segments reversed.reverse = slash.intercalate reversed.reverse :=
    join_segments_eq (by rwa [List.mem_reverse])
  fun_induction leadingPairs segments generalizing reversed with
  | case1 port channel rest hvalid ih =>
    simp only [List.mem_cons, not_or] at h
    have hmore : [] ∉ channel :: port :: reversed := by
      simp only [List.mem_cons, not_or]
      exact ⟨h.2.1, h.1, hreversed⟩
    rw [do_split_full_denom_trace, if_pos hvalid,
      ih h.2.2 hmore (join_segments_eq (by rwa [List.mem_reverse])), flat_cons]
    simp
  | case2 port channel rest hvalid =>
    rw [do_split_full_denom_trace, if_neg hvalid, hpath, join_segments_eq h]
    simp [flat]
  | case3 rest hrest =>
    match rest, hrest with
    | [], _ => rfl
    | [base], _ =>
      rw [do_split_full_denom_trace, hpath]
      simp [flat]
    | port :: channel :: rest, hrest => exact absurd rfl (hrest port channel rest)

/-- What a denomination is cut into. -/
theorem split_full_denom_trace_spec {full_denom : Bytes} {trace : DenomTrace}
    (h : split_full_denom_trace full_denom = some trace) :
    [] ∉ (trim_space full_denom).splitOn 47 ∧
      (leadingPairs ((trim_space full_denom).splitOn 47)).2 ≠ [] ∧
      trace.path = slash.intercalate
        (flat (leadingPairs ((trim_space full_denom).splitOn 47)).1) ∧
      trace.base_denom = slash.intercalate
        (leadingPairs ((trim_space full_denom).splitOn 47)).2 := by
  simp only [split_full_denom_trace, string.split_eq, bind_eq_some, expect_eq_some,
    string.slash_char] at h
  obtain ⟨-, -, -, hfull, h⟩ := h
  have hempty : [] ∉ (trim_space full_denom).splitOn 47 := by
    intro hmem
    rw [Bool.not_eq_true', List.any_eq_false] at hfull
    exact hfull [] hmem rfl
  rw [do_split_full_denom_trace_eq hempty List.not_mem_nil] at h
  split at h
  · cases h
  · rename_i hbase
    cases h
    exact ⟨hempty, hbase, rfl, rfl⟩

/-- A path and a base with a slash between them. -/
def rejoin (path base : Bytes) : Bytes := if path = [] then base else path ++ slash ++ base

/-- A path is pairs of a port and a channel between slashes. -/
structure IsPath (path : Bytes) (pairs : List (Bytes × Bytes)) : Prop where
  ports : ∀ x ∈ pairs, x.1 ≠ [] ∧ (47 : UInt8) ∉ x.1
  channels : ∀ x ∈ pairs, is_valid_channel_id x.2 = true
  joined : path = slash.intercalate (flat pairs)

theorem slash_notMem_channel_id {id : Bytes} (h : is_valid_channel_id id = true) :
    (47 : UInt8) ∉ id ∧ id ≠ [] := by
  simp only [is_valid_channel_id, isValidId, Bool.and_eq_true, beq_iff_eq] at h
  obtain ⟨hkind, hnumber⟩ := h
  have hdigits : ∀ b ∈ id.drop channel_prefix_with_separator.length, b ≠ 47 := by
    intro b hb
    unfold is_uint_string height.is_uint_string at hnumber
    split at hnumber
    · cases hnumber
    · split at hnumber
      · rename_i hzero
        rw [hzero] at hb
        rintro rfl
        exact absurd hb (by decide)
      · split at hnumber
        · cases hnumber
        · have hdigit := List.all_eq_true.mp hnumber b hb
          rintro rfl
          exact absurd hdigit (by decide)
  rw [← List.take_append_drop channel_prefix_with_separator.length id, hkind]
  constructor
  · rw [List.mem_append, not_or]
    exact ⟨by decide, fun hmem => hdigits 47 hmem rfl⟩
  · exact List.append_ne_nil_of_left_ne_nil (by decide) _

theorem IsPath.pieces {path : Bytes} {pairs : List (Bytes × Bytes)} (h : IsPath path pairs) :
    ∀ x ∈ flat pairs, (47 : UInt8) ∉ x ∧ x ≠ [] := by
  intro x hx
  obtain ⟨pair, hpair, hx⟩ := List.mem_flatMap.mp hx
  simp only [List.mem_cons, List.not_mem_nil, or_false] at hx
  rcases hx with rfl | rfl
  · exact (h.ports pair hpair).symm
  · exact slash_notMem_channel_id (h.channels pair hpair)

theorem intercalate_ne_nil {x : Bytes} {rest : List Bytes} (h : x ≠ []) :
    slash.intercalate (x :: rest) ≠ [] := by
  cases rest with
  | nil => simpa using h
  | cons y rest =>
    rw [List.intercalate_cons_cons]
    simp [h]

/-- A path before its base is the parts of both between slashes. -/
theorem rejoin_eq {path : Bytes} {pairs : List (Bytes × Bytes)} (h : IsPath path pairs)
    {base : List Bytes} (hbase : base ≠ []) :
    rejoin path (slash.intercalate base) = slash.intercalate (flat pairs ++ base) := by
  rw [rejoin, h.joined]
  cases pairs with
  | nil => rfl
  | cons x pairs =>
    rw [flat_cons, if_neg (intercalate_ne_nil (h.ports x List.mem_cons_self).1),
      text.intercalate_append (List.cons_ne_nil _ _) hbase]

/-- Nothing is lost where a denomination is cut: its path is the longest row of ports and channels it
starts with that leaves a base, path and base make up the denomination without the spaces around
it, and a text is what its parts make with the separators between them. -/
theorem denom_trace_is_lossless :
    (∀ full_denom trace, split_full_denom_trace full_denom = some trace →
      rejoin trace.path trace.base_denom = text.strip (· == 0x20) full_denom ∧
      trace.base_denom ≠ [] ∧ (∃ pairs, IsPath trace.path pairs) ∧
      ∀ path base pairs, IsPath path pairs → base ≠ [] →
        rejoin path base = text.strip (· == 0x20) full_denom →
        path.length ≤ trace.path.length) ∧
    ∀ str : Bytes, ∀ sep : UInt8, sep.toNat ≤ 127 →
      ∃ parts, string_utils.split str sep.toNat = some parts ∧ [sep].intercalate parts = str := by
  refine ⟨?_, ?_⟩
  · intro full_denom trace h
    rw [← trim_space_eq]
    obtain ⟨hempty, hbase, hpath, hdenom⟩ := split_full_denom_trace_spec h
    have hall := leadingPairs_append ((trim_space full_denom).splitOn 47)
    have hmem : ∀ x ∈ flat (leadingPairs ((trim_space full_denom).splitOn 47)).1,
        x ∈ (trim_space full_denom).splitOn 47 := by
      intro x hx
      rw [← hall]
      exact List.mem_append_left _ hx
    have hispath : IsPath trace.path (leadingPairs ((trim_space full_denom).splitOn 47)).1 := by
      refine ⟨?_, leadingPairs_valid _, hpath⟩
      intro x hx
      have hport := hmem x.1 (List.mem_flatMap.mpr ⟨x, hx, List.mem_cons_self⟩)
      exact ⟨fun hnil => hempty (hnil ▸ hport), text.notMem_of_mem_splitOn hport⟩
    refine ⟨?_, ?_, ⟨_, hispath⟩, ?_⟩
    · rw [hdenom, rejoin_eq hispath hbase, hall]
      exact List.intercalate_splitOn 47
    · obtain ⟨x, rest, hx⟩ := List.exists_cons_of_ne_nil hbase
      rw [hdenom, hx]
      refine intercalate_ne_nil ?_
      rintro rfl
      refine hempty ?_
      rw [← hall, hx]
      exact List.mem_append_right _ List.mem_cons_self
    · intro path base pairs hother hne hjoined
      -- the parts of the denomination start with the other path
      have hsplit : (trim_space full_denom).splitOn 47 = flat pairs ++ base.splitOn 47 := by
        have hparts : base.splitOn 47 ≠ [] := List.splitOn_ne_nil 47 base
        have hwhole : rejoin path base = slash.intercalate (flat pairs ++ base.splitOn 47) := by
          rw [← rejoin_eq hother hparts]
          exact congrArg (rejoin path) (List.intercalate_splitOn 47).symm
        rw [← hjoined, hwhole]
        refine List.splitOn_intercalate 47 ?_ (by simp [hparts])
        intro x hx
        rcases List.mem_append.mp hx with hx | hx
        · exact (hother.pieces x hx).1
        · exact text.notMem_of_mem_splitOn hx
      rw [hpath, hsplit, leadingPairs_flat hother.channels, flat_append, hother.joined]
      by_cases hmore : flat (leadingPairs (base.splitOn 47)).1 = []
      · rw [hmore, List.append_nil]
      · by_cases hnone : flat pairs = []
        · rw [hnone]
          simp
        · rw [text.intercalate_append hnone hmore, List.length_append, List.length_append]
          omega
  · intro str sep hsep
    exact ⟨_, string_utils.split_eq hsep str, List.intercalate_splitOn sep⟩

/-- The trace of a token that came over one channel. -/
theorem one_hop_is_lossless :
    split_full_denom_trace (utf8 " transfer/channel-0/gamm/pool ") =
      some { path := utf8 "transfer/channel-0", base_denom := utf8 "gamm/pool" } ∧
    rejoin (utf8 "transfer/channel-0") (utf8 "gamm/pool") =
      text.strip (· == 0x20) (utf8 " transfer/channel-0/gamm/pool ") := by
  have hsplit : split_full_denom_trace (utf8 " transfer/channel-0/gamm/pool ") =
      some { path := utf8 "transfer/channel-0", base_denom := utf8 "gamm/pool" } := by rfl
  exact ⟨hsplit, (denom_trace_is_lossless.1 _ _ hsplit).1⟩

end voucher_metadata

end cardano_ibc
