-- The gateway's own tree of the committed state: ics23-merkle-tree.ts. A text is the bytes it has in
-- UTF-8, and a hash that the source writes in hexadecimal is the hash.
import CardanoIbc.Cosmos.Proofs
import CardanoIbc.Library.TreeLevels

namespace cardano_ibc.gateway

open ibc_state_commitment

def MERKLE_DEPTH_BITS : Nat := 64

def EMPTY_HASH : Bytes := List.replicate 32 0

/-- The nodes of one level by their numbers, in the order in which they were set. -/
abbrev Level := List (Nat × Bytes)

/-- `get(index) ?? EMPTY_HASH`. -/
def nodeHash (level : Level) (index : Nat) : Bytes := (table.get level index).getD EMPTY_HASH

structure ICS23MerkleTree where
  leaves : List (Bytes × Bytes)
  root : Bytes
  dirty : Bool
  nodesByHeight : Option (List Level)

section Tree

variable [Builtins]

def keyHash (key : Bytes) : Bytes := sha2_256 key

def leafHash (key value : Bytes) : Bytes :=
  if value.length = 0 then EMPTY_HASH
  else sha2_256 ([0] ++ keyHash key ++ sha2_256 value)

def innerHash (left right : Bytes) : Bytes :=
  if left = EMPTY_HASH ∧ right = EMPTY_HASH then EMPTY_HASH
  else sha2_256 ([1] ++ left ++ right)

def keyIndex64 (key : Bytes) : Nat := cbor_item.ofBe ((keyHash key).take 8)

namespace ICS23MerkleTree

omit [Builtins]

def new : ICS23MerkleTree where
  leaves := []
  root := EMPTY_HASH
  dirty := true
  nodesByHeight := none

def set (tree : ICS23MerkleTree) (key value : Bytes) : ICS23MerkleTree :=
  { tree with
    leaves := if value.length = 0 then table.erase tree.leaves key
      else table.put tree.leaves key value
    dirty := true }

def get (tree : ICS23MerkleTree) (key : Bytes) : Option Bytes := table.get tree.leaves key

def delete (tree : ICS23MerkleTree) (key : Bytes) : ICS23MerkleTree :=
  { tree with leaves := table.erase tree.leaves key, dirty := true }

end ICS23MerkleTree

/-! ### Rebuilding -/

omit [Builtins] in
def collisionText (index : Nat) (previousKey key : Bytes) : Bytes :=
  utf8 "Merkle key collision at index " ++ decimal index ++ utf8 ": '" ++ previousKey ++
    utf8 "' and '" ++ key ++ utf8 "'"

/-- One turn of the loop over the leaves: the keys by their places, and the lowest level. An empty
text is no previous key. -/
def addLeaf (built : List (Nat × Bytes) × Level) (entry : Bytes × Bytes) :
    Except Bytes (List (Nat × Bytes) × Level) :=
  let index := keyIndex64 entry.1
  let previousKey := (table.get built.1 index).getD []
  if previousKey ≠ [] ∧ previousKey ≠ entry.1 then
    .error (collisionText index previousKey entry.1)
  else
    let h := leafHash entry.1 entry.2
    .ok (table.put built.1 index entry.1,
      if h ≠ EMPTY_HASH then table.put built.2 index h else built.2)

def leafLevel (leaves : List (Bytes × Bytes)) : Except Bytes Level := do
  return (← leaves.foldlM addLeaf ([], [])).2

omit [Builtins] in
/-- The set of the parents, in the order in which they are met. -/
def parents (childMap : Level) : List Nat :=
  childMap.foldl (fun met child => if child.1 / 2 ∈ met then met else met ++ [child.1 / 2]) []

def parentLevel (childMap : Level) : Level :=
  (parents childMap).foldl (fun parentMap parentIndex =>
    let leftIndex := parentIndex * 2
    let p := innerHash (nodeHash childMap leftIndex) (nodeHash childMap (leftIndex + 1))
    if p ≠ EMPTY_HASH then table.put parentMap parentIndex p else parentMap) []

/-- A level and as many above it. -/
def levels : Nat → Level → List Level
  | 0, level => [level]
  | count + 1, level => level :: levels count (parentLevel level)

namespace ICS23MerkleTree

def ensureRebuilt (tree : ICS23MerkleTree) : Except Bytes ICS23MerkleTree :=
  if tree.dirty = false ∧ tree.nodesByHeight.isSome then .ok tree
  else do
    let nodesByHeight := levels MERKLE_DEPTH_BITS (← leafLevel tree.leaves)
    return { tree with
      nodesByHeight := some nodesByHeight
      root := nodeHash (nodesByHeight.getD MERKLE_DEPTH_BITS []) 0
      dirty := false }

/-! ### Reading -/

def getRoot (tree : ICS23MerkleTree) : Except Bytes (Bytes × ICS23MerkleTree) := do
  let tree ← tree.ensureRebuilt
  return (tree.root, tree)

omit [Builtins] in
/-- The loop over the heights, so many of them from one on. -/
def siblingsLoop (nodesByHeight : List Level) : Nat → Nat → Nat → List Bytes
  | 0, _, _ => []
  | count + 1, height, index =>
    nodeHash (nodesByHeight.getD height []) (index ^^^ 1) ::
      siblingsLoop nodesByHeight count (height + 1) (index / 2)

def getSiblings (tree : ICS23MerkleTree) (key : Bytes) :
    Except Bytes (List Bytes × ICS23MerkleTree) := do
  let tree ← tree.ensureRebuilt
  return (siblingsLoop (tree.nodesByHeight.getD []) MERKLE_DEPTH_BITS 0 (keyIndex64 key), tree)

omit [Builtins] in
/-- The steps of a proof. The source gives each the number of SHA-256. -/
def proofPath : Nat → List Bytes → List probabilistic.InnerOp
  | _, [] => []
  | index, siblingHash :: rest =>
    (if index % 2 = 0 then { prefixBytes := [1], suffixBytes := siblingHash }
      else { prefixBytes := [1] ++ siblingHash, suffixBytes := [] }) :: proofPath (index / 2) rest

def generateProof (tree : ICS23MerkleTree) (key : Bytes) :
    Except Bytes (probabilistic.ExistenceProof × ICS23MerkleTree) :=
  if tree.leaves.length = 0 then .error (utf8 "Cannot generate proof: tree is empty")
  else
    match tree.get key with
    | none =>
      .error (utf8 "Cannot generate proof: key '" ++ key ++ utf8 "' not found in tree")
    | some value => do
      let (siblings, tree) ← tree.getSiblings key
      return ({ key, value, path := proofPath (keyIndex64 key) siblings }, tree)

def generateNonExistenceProof (tree : ICS23MerkleTree) (key : Bytes) :
    Except Bytes (probabilistic.NonExistenceProof × ICS23MerkleTree) :=
  if (tree.get key).isSome then
    .error (utf8 "Cannot generate non-existence proof: key '" ++ key ++ utf8 "' exists in tree")
  else if tree.leaves.length = 0 then
    .error (utf8 "Cannot generate non-existence proof: tree is empty")
  else do
    let (siblings, tree) ← tree.getSiblings key
    let emptyValueProof : probabilistic.ExistenceProof :=
      { key, value := [], path := proofPath (keyIndex64 key) siblings }
    return ({ key := some key, left := some emptyValueProof }, tree)

end ICS23MerkleTree

/-! ## Levels -/

theorem leafHash_eq {key value : Bytes} (h : value ≠ [] → sha2_256 value ≠ sha2_256 []) :
    leafHash key value = leaf key value := by
  unfold leafHash leaf
  by_cases hvalue : value = []
  · rw [if_pos (by simp [hvalue]), if_pos]
    · rfl
    · rw [hvalue]
      exact Builtins.sha2_256_empty
  · have hhash : value_hash value ≠ empty_value_hash := by
      intro heq
      exact h hvalue (heq.trans Builtins.sha2_256_empty.symm)
    rw [if_neg (by simpa using hvalue), if_neg hhash]
    rfl

theorem innerHash_eq (left right : Bytes) : innerHash left right = scheme.node left right := rfl

omit [Builtins] in
/-- A level filled from some numbers has at each of them what it was filled with. -/
theorem nodeHash_fill {f : Nat → Bytes} {indices : List Nat} {level : Level} {i : Nat} :
    nodeHash (indices.foldl (fun level j =>
      if f j ≠ EMPTY_HASH then table.put level j (f j) else level) level) i =
      if i ∈ indices ∧ f i ≠ EMPTY_HASH then f i else nodeHash level i := by
  induction indices generalizing level with
  | nil => simp
  | cons j indices ih =>
    rw [List.foldl_cons, ih]
    by_cases hi : i ∈ indices ∧ f i ≠ EMPTY_HASH
    · rw [if_pos hi, if_pos ⟨List.mem_cons_of_mem _ hi.1, hi.2⟩]
    · rw [if_neg hi]
      by_cases hj : f j ≠ EMPTY_HASH
      · rw [if_pos hj, nodeHash, table.get_put]
        by_cases hij : j = i
        · subst hij
          rw [if_pos rfl, if_pos ⟨List.mem_cons_self, hj⟩]
          rfl
        · rw [if_neg hij, if_neg]
          · rfl
          · rintro ⟨hmem, hne⟩
            rcases List.mem_cons.mp hmem with heq | hmem
            · exact hij heq.symm
            · exact hi ⟨hmem, hne⟩
      · rw [if_neg hj, if_neg]
        rintro ⟨hmem, hne⟩
        rcases List.mem_cons.mp hmem with heq | hmem
        · exact hj (heq ▸ hne)
        · exact hi ⟨hmem, hne⟩

omit [Builtins] in
theorem mem_parents {childMap : Level} {i : Nat} :
    i ∈ parents childMap ↔ ∃ j ∈ childMap.map Prod.fst, j / 2 = i := by
  have hfold : ∀ (met : List Nat), i ∈ childMap.foldl (fun met child =>
      if child.1 / 2 ∈ met then met else met ++ [child.1 / 2]) met ↔
      i ∈ met ∨ ∃ j ∈ childMap.map Prod.fst, j / 2 = i := by
    induction childMap with
    | nil => simp
    | cons c childMap ih =>
      intro met
      rw [List.foldl_cons, ih, List.map_cons]
      simp only [List.mem_cons, exists_eq_or_imp]
      split
      · rename_i hmet
        constructor
        · exact fun h => h.imp_right .inr
        · rintro (h | rfl | h)
          · exact .inl h
          · exact .inl hmet
          · exact .inr h
      · rw [List.mem_append, List.mem_singleton, or_assoc, @eq_comm _ i]
  rw [parents, hfold]
  simp

/-- A level is hashed from the level below it. -/
theorem nodeHash_parentLevel (childMap : Level) (i : Nat) :
    nodeHash (parentLevel childMap) i =
      scheme.node (nodeHash childMap (2 * i)) (nodeHash childMap (2 * i + 1)) := by
  have hfill := @nodeHash_fill (fun j => innerHash (nodeHash childMap (j * 2))
    (nodeHash childMap (j * 2 + 1))) (parents childMap) [] i
  rw [parentLevel, hfill, Nat.mul_comm i 2, ← innerHash_eq]
  by_cases hempty : innerHash (nodeHash childMap (2 * i)) (nodeHash childMap (2 * i + 1)) =
      EMPTY_HASH
  · rw [if_neg (fun h => h.2 hempty), hempty]
    rfl
  · by_cases hi : i ∈ parents childMap
    · rw [if_pos ⟨hi, hempty⟩]
    · -- both children are missing
      have hmissing : ∀ j, j / 2 = i → nodeHash childMap j = EMPTY_HASH := by
        intro j hj
        rw [nodeHash, table.get_eq_none_iff.mpr]
        · rfl
        · exact fun hmem => hi (mem_parents.mpr ⟨j, hmem, hj⟩)
      rw [hmissing (2 * i) (by omega), hmissing (2 * i + 1) (by omega)] at hempty
      exact absurd (if_pos ⟨rfl, rfl⟩) hempty

theorem getD_levels {count d : Nat} (h : d ≤ count) (level : Level) :
    (levels count level).getD d [] = parentLevel^[d] level := by
  induction count generalizing d level with
  | zero =>
    obtain rfl := Nat.le_zero.mp h
    rfl
  | succ count ih =>
    cases d with
    | zero => rfl
    | succ d =>
      rw [levels, List.getD_cons_succ, ih (by omega), Function.iterate_succ_apply]

-- the sixty-four levels of a tree are never written out
attribute [irreducible] levels

/-- A turn of a loop over the leaves, at a place that is free: the key is entered there, and its
leaf. -/
def AddsLeaf (add : List (Nat × Bytes) × Level → Bytes × Bytes →
    Except Bytes (List (Nat × Bytes) × Level)) : Prop :=
  ∀ built entry, table.get built.1 (keyIndex64 entry.1) = none →
    nodeHash built.2 (keyIndex64 entry.1) = EMPTY_HASH →
    ∃ level, add built entry = .ok (table.put built.1 (keyIndex64 entry.1) entry.1, level) ∧
      ∀ i, nodeHash level i =
        if keyIndex64 entry.1 = i then leafHash entry.1 entry.2 else nodeHash built.2 i

omit [Builtins] in
theorem nodeHash_put (level : Level) (i j : Nat) (h : Bytes) :
    nodeHash (table.put level i h) j = if i = j then h else nodeHash level j := by
  rw [nodeHash, table.get_put]
  split <;> rfl

theorem addsLeaf_addLeaf : AddsLeaf addLeaf := by
  intro built entry hfree hempty
  rw [addLeaf, hfree, if_neg (by simp)]
  refine ⟨_, rfl, ?_⟩
  intro i
  by_cases hleaf : leafHash entry.1 entry.2 ≠ EMPTY_HASH
  · rw [if_pos hleaf, nodeHash_put]
  · rw [if_neg hleaf]
    split
    · rename_i hi
      rw [← hi, hempty, not_not.mp hleaf]
    · rfl

/-- What such a loop leaves behind: the keys at their places, and the leaf at each place. -/
theorem AddsLeaf.foldlM {add : List (Nat × Bytes) × Level → Bytes × Bytes →
      Except Bytes (List (Nat × Bytes) × Level)} (hadd : AddsLeaf add)
    {entries : List (Bytes × Bytes)} (hnodup : (keys entries).Nodup)
    (hapart : Apart fun key => key ∈ keys entries)
    (hvalues : ∀ e ∈ entries, sha2_256 e.2 ≠ sha2_256 []) :
    ∃ built, entries.foldlM add ([], []) = .ok built ∧
      (∀ i k, table.get built.1 i = some k ↔ k ∈ keys entries ∧ keyIndex64 k = i) ∧
      ∀ i, nodeHash built.2 i =
        scheme.root 0 (sparse_tree.under index64 0 i (leaves entries)) := by
  -- the leaves are taken in their order, so the induction takes the last one off
  induction entries using List.reverseRecOn with
  | nil =>
    refine ⟨([], []), rfl, ?_, fun i => rfl⟩
    intro i k
    constructor
    · intro h
      cases h
    · rintro ⟨hk, -⟩
      cases hk
  | append_singleton entries e ih =>
    rw [keys, List.map_append, List.nodup_append] at hnodup
    obtain ⟨built, hbuilt, hplaces, hlevel⟩ := ih hnodup.1 (fun k k' hk hk' =>
      hapart k k' (by simp [hk]) (by simp [hk'])) (fun e' he' => hvalues e' (by simp [he']))
    have hmine : ∀ k ∈ keys entries, keyIndex64 k ≠ keyIndex64 e.1 := by
      intro k hk heq
      have hsame := hapart k e.1 (by simp [hk]) (by simp) (agree_of_index64
        (Builtins.sha2_256_length _) (Builtins.sha2_256_length _) heq)
      exact hnodup.2.2 k hk e.1 (by simp) hsame
    have hfree : table.get built.1 (keyIndex64 e.1) = none := by
      cases hget : table.get built.1 (keyIndex64 e.1) with
      | none => rfl
      | some k =>
        obtain ⟨hk, hindex⟩ := (hplaces _ _).mp hget
        exact absurd hindex (hmine k hk)
    have hothers : sparse_tree.under index64 0 (keyIndex64 e.1) (leaves entries) = [] := by
      rw [sparse_tree.under, List.filter_eq_nil_iff]
      intro p hp hindex
      obtain ⟨e', he', rfl⟩ := List.mem_map.mp hp
      rw [Nat.pow_zero, Nat.div_one, beq_iff_eq] at hindex
      exact hmine e'.1 (List.mem_map_of_mem he') hindex
    have hempty : nodeHash built.2 (keyIndex64 e.1) = EMPTY_HASH := by
      rw [hlevel, hothers]
      rfl
    obtain ⟨level, hadded, hnodes⟩ := hadd built e hfree hempty
    refine ⟨(table.put built.1 (keyIndex64 e.1) e.1, level), ?_, ?_, ?_⟩
    · rw [List.foldlM_append, hbuilt]
      show add built e >>= pure = _
      rw [hadded]
      rfl
    · intro i k
      rw [table.get_put]
      by_cases hi : keyIndex64 e.1 = i
      · rw [if_pos hi, Option.some.injEq]
        constructor
        · rintro rfl
          exact ⟨by simp, hi⟩
        · rintro ⟨hk, hindex⟩
          rw [keys, List.map_append, List.mem_append] at hk
          rcases hk with hk | hk
          · exact absurd (hindex.trans hi.symm) (hmine k hk)
          · exact (List.mem_singleton.mp hk).symm
      · rw [if_neg hi, hplaces]
        constructor
        · rintro ⟨hk, hindex⟩
          exact ⟨by simp [hk], hindex⟩
        · rintro ⟨hk, hindex⟩
          rw [keys, List.map_append, List.mem_append] at hk
          rcases hk with hk | hk
          · exact ⟨hk, hindex⟩
          · rw [List.map_singleton, List.mem_singleton] at hk
            exact absurd (hk ▸ hindex) hi
    · intro i
      have hleaf : leafHash e.1 e.2 = leaf e.1 e.2 :=
        leafHash_eq fun _ => hvalues e (by simp)
      have hunder : sparse_tree.under index64 0 i (leaves (entries ++ [e])) =
          sparse_tree.under index64 0 i (leaves entries) ++
            if keyIndex64 e.1 = i then [(sha2_256 e.1, leaf e.1 e.2)] else [] := by
        rw [leaves, List.map_append, sparse_tree.under, List.filter_append]
        congr 1
        have hindex : index64 (sha2_256 e.1) / 2 ^ 0 = keyIndex64 e.1 := Nat.div_one _
        rw [List.map_singleton, List.filter_singleton, hindex]
        simp
      rw [hunder, hnodes]
      by_cases hi : keyIndex64 e.1 = i
      · rw [if_pos hi, if_pos hi, ← hi, hothers, hleaf]
        rfl
      · rw [if_neg hi, if_neg hi, List.append_nil]
        exact hlevel i

/-- What the lowest level holds is the leaf at each place. -/
theorem leafLevel_spec {entries : List (Bytes × Bytes)} (hnodup : (keys entries).Nodup)
    (hapart : Apart fun key => key ∈ keys entries)
    (hvalues : ∀ e ∈ entries, sha2_256 e.2 ≠ sha2_256 []) :
    ∃ level, leafLevel entries = .ok level ∧ ∀ i, nodeHash level i =
      scheme.root 0 (sparse_tree.under index64 0 i (leaves entries)) := by
  obtain ⟨built, hbuilt, -, hlevel⟩ := addsLeaf_addLeaf.foldlM hnodup hapart hvalues
  exact ⟨built.2, by rw [leafLevel, hbuilt]; rfl, hlevel⟩

theorem indexed_hash {key_hash : Bytes} (h : key_hash.length = 32) :
    scheme.Indexed index64 merkle_depth_bits key_hash :=
  fun _ hd => onRight_eq h hd

theorem indexed_leaves (entries : List (Bytes × Bytes)) :
    ∀ e ∈ leaves entries, scheme.Indexed index64 merkle_depth_bits e.1 := by
  intro e he
  obtain ⟨e', -, rfl⟩ := List.mem_map.mp he
  exact indexed_hash (Builtins.sha2_256_length _)

/-- Level by level the nodes are the roots of what is under them. -/
theorem nodeHash_levels {entries : List (Bytes × Bytes)} {level : Level} {d : Nat}
    (hlevel : ∀ i, nodeHash level i =
      scheme.root 0 (sparse_tree.under index64 0 i (leaves entries)))
    (hd : d ≤ merkle_depth_bits) (i : Nat) :
    nodeHash ((levels MERKLE_DEPTH_BITS level).getD d []) i =
      scheme.root d (sparse_tree.under index64 d i (leaves entries)) := by
  have hcount : d ≤ MERKLE_DEPTH_BITS := hd
  rw [getD_levels hcount]
  clear hcount
  induction d generalizing i with
  | zero => exact hlevel i
  | succ d ih =>
    rw [Function.iterate_succ_apply', nodeHash_parentLevel, ih (by omega), ih (by omega),
      sparse_tree.root_under_succ i (indexed_leaves entries) hd]

omit [Builtins] in
theorem siblingsLoop_eq (nodesByHeight : List Level) (count height index : Nat) :
    ICS23MerkleTree.siblingsLoop nodesByHeight count height index =
      (List.range count).map fun k =>
        nodeHash (nodesByHeight.getD (height + k) []) (sparse_tree.beside (index / 2 ^ k)) := by
  induction count generalizing height index with
  | zero => rfl
  | succ count ih =>
    rw [ICS23MerkleTree.siblingsLoop, ih, List.range_succ_eq_map, List.map_cons, List.map_map]
    congr 1
    · rw [Nat.pow_zero, Nat.div_one]
      rfl
    · refine List.map_congr_left ?_
      intro k _
      have hhalf : index / 2 / 2 ^ k = index / 2 ^ (k + 1) := by
        rw [Nat.div_div_eq_div_mul, Nat.pow_succ']
      rw [Function.comp_apply, hhalf, show height + 1 + k = height + (k + 1) by omega]

omit [Builtins] in
/-- The steps are those beside the hashes, on the side the key stands. -/
theorem proofPath_eq {key_hash : Bytes} {siblings : List Bytes} {depth : Nat}
    (hkey : key_hash.length = 32) (hdepth : depth + siblings.length ≤ 64) :
    ICS23MerkleTree.proofPath (index64 key_hash / 2 ^ depth) siblings =
      probabilistic.innerOps key_hash depth siblings := by
  induction siblings generalizing depth with
  | nil => rfl
  | cons s siblings ih =>
    rw [List.length_cons] at hdepth
    have hhalf : index64 key_hash / 2 ^ depth / 2 = index64 key_hash / 2 ^ (depth + 1) := by
      rw [Nat.div_div_eq_div_mul, Nat.pow_succ]
    rw [ICS23MerkleTree.proofPath, hhalf, ih (by omega), probabilistic.innerOps,
      onRight_eq hkey (by omega)]
    congr 1
    rcases Nat.mod_two_eq_zero_or_one (index64 key_hash / 2 ^ depth) with h | h <;>
      simp [h, probabilistic.innerOp]

/-! ## Runs of calls -/

/-- The tree with its nodes as they are rebuilt from the lowest level. -/
def rebuilt (tree : ICS23MerkleTree) (level : Level) : ICS23MerkleTree :=
  { tree with
    nodesByHeight := some (levels MERKLE_DEPTH_BITS level)
    root := nodeHash ((levels MERKLE_DEPTH_BITS level).getD MERKLE_DEPTH_BITS []) 0
    dirty := false }

/-- The leaves are a map, and what is kept of the nodes is what rebuilding them would give. -/
structure Coherent (tree : ICS23MerkleTree) : Prop where
  nodup : (keys tree.leaves).Nodup
  written : ∀ e ∈ tree.leaves, e.2 ≠ []
  kept : tree.dirty = false → ∃ level, leafLevel tree.leaves = .ok level ∧
    tree = rebuilt tree level

theorem coherent_new : Coherent .new := by
  refine ⟨List.nodup_nil, ?_, ?_⟩
  · intro e he
    cases he
  · intro hdirty
    cases hdirty

omit [Builtins] in
theorem mem_leaves_set {tree : ICS23MerkleTree} {key value : Bytes} {e : Bytes × Bytes}
    (h : e ∈ (tree.set key value).leaves) : e = (key, value) ∧ value ≠ [] ∨ e ∈ tree.leaves := by
  rw [ICS23MerkleTree.set] at h
  split at h
  · exact .inr (List.mem_of_mem_filter h)
  · rename_i hvalue
    refine (table.mem_of_mem_put h).imp_left fun heq => ⟨heq, ?_⟩
    simpa using hvalue

omit [Builtins] in
theorem valueAt_set (tree : ICS23MerkleTree) (key value k : Bytes) :
    valueAt (tree.set key value).leaves k =
      if key = k then value else valueAt tree.leaves k := by
  rw [ICS23MerkleTree.set, valueAt, valueAt]
  by_cases hvalue : value.length = 0
  · rw [if_pos hvalue, table.get_erase, List.length_eq_zero_iff.mp hvalue]
    split <;> rfl
  · rw [if_neg hvalue, table.get_put]
    split <;> rfl

theorem Coherent.set {tree : ICS23MerkleTree} (h : Coherent tree) (key value : Bytes) :
    Coherent (tree.set key value) := by
  refine ⟨?_, ?_, fun hdirty => (by cases hdirty)⟩
  · rw [ICS23MerkleTree.set]
    split
    · exact table.nodup_keys_erase h.nodup key
    · exact table.nodup_keys_put h.nodup key value
  · intro e he
    rcases mem_leaves_set he with ⟨rfl, hvalue⟩ | he
    · exact hvalue
    · exact h.written e he

theorem Coherent.delete {tree : ICS23MerkleTree} (h : Coherent tree) (key : Bytes) :
    Coherent (tree.delete key) where
  nodup := table.nodup_keys_erase h.nodup key
  written e he := h.written e (List.mem_of_mem_filter he)
  kept hdirty := by cases hdirty

/-- Rebuilding gives the same whether the nodes were kept or not. -/
theorem ensureRebuilt_eq {tree : ICS23MerkleTree} (h : Coherent tree) :
    tree.ensureRebuilt = (leafLevel tree.leaves).map (rebuilt tree) := by
  unfold ICS23MerkleTree.ensureRebuilt
  split
  · rename_i hkept
    obtain ⟨level, hlevel, htree⟩ := h.kept hkept.1
    rw [hlevel]
    exact congrArg Except.ok htree
  · cases leafLevel tree.leaves <;> rfl

theorem Coherent.rebuilt {tree : ICS23MerkleTree} {level : Level} (h : Coherent tree)
    (hlevel : leafLevel tree.leaves = .ok level) : Coherent (rebuilt tree level) :=
  ⟨h.nodup, h.written, fun _ => ⟨level, hlevel, rfl⟩⟩

/-- A call from outside. -/
inductive Call where
  | set (key value : Bytes)
  | delete (key : Bytes)
  | getRoot
  | getSiblings (key : Bytes)
  | generateProof (key : Bytes)
  | generateNonExistenceProof (key : Bytes)

omit [Builtins] in
/-- The tree after a call that reads: as it was where the call throws. -/
def after {α : Type} (tree : ICS23MerkleTree) (result : Except Bytes (α × ICS23MerkleTree)) :
    ICS23MerkleTree :=
  match result with
  | .ok (_, tree') => tree'
  | .error _ => tree

def ICS23MerkleTree.call (tree : ICS23MerkleTree) : Call → ICS23MerkleTree
  | .set key value => tree.set key value
  | .delete key => tree.delete key
  | .getRoot => after tree tree.getRoot
  | .getSiblings key => after tree (tree.getSiblings key)
  | .generateProof key => after tree (tree.generateProof key)
  | .generateNonExistenceProof key => after tree (tree.generateNonExistenceProof key)

def run (calls : List Call) : ICS23MerkleTree := calls.foldl ICS23MerkleTree.call .new

omit [Builtins] in
/-- What a call writes: a key and its value, the empty one for a key that goes. -/
def Call.writes : Call → Option (Bytes × Bytes)
  | .set key value => some (key, value)
  | .delete key => some (key, [])
  | _ => none

omit [Builtins] in
/-- The value the last call that wrote a key wrote. -/
def written (calls : List Call) (key : Bytes) : Bytes :=
  calls.foldl (fun value call =>
    match call.writes with
    | some (k, v) => if k = key then v else value
    | none => value) []

/-- Rebuilding changes nothing but the nodes that are kept. -/
theorem Coherent.of_ensureRebuilt {tree tree' : ICS23MerkleTree} (h : Coherent tree)
    (hok : tree.ensureRebuilt = .ok tree') : Coherent tree' ∧ tree'.leaves = tree.leaves := by
  rw [ensureRebuilt_eq h] at hok
  cases hlevel : leafLevel tree.leaves with
  | error text =>
    rw [hlevel] at hok
    cases hok
  | ok level =>
    rw [hlevel] at hok
    have htree : gateway.rebuilt tree level = tree' := Except.ok.inj hok
    rw [← htree]
    exact ⟨h.rebuilt hlevel, rfl⟩

theorem after_read {α : Type} {tree : ICS23MerkleTree} (h : Coherent tree)
    {result : Except Bytes (α × ICS23MerkleTree)}
    (hresult : ∀ a tree', result = .ok (a, tree') → tree.ensureRebuilt = .ok tree') :
    Coherent (after tree result) ∧ (after tree result).leaves = tree.leaves := by
  cases result with
  | error text => exact ⟨h, rfl⟩
  | ok pair => exact h.of_ensureRebuilt (hresult pair.1 pair.2 rfl)

theorem getRoot_ok {tree tree' : ICS23MerkleTree} {root : Bytes}
    (h : tree.getRoot = .ok (root, tree')) : tree.ensureRebuilt = .ok tree' := by
  obtain ⟨t, ht, heq⟩ := probabilistic.bind_eq_ok.mp h
  cases heq
  exact ht

theorem getSiblings_ok {tree tree' : ICS23MerkleTree} {key : Bytes} {siblings : List Bytes}
    (h : tree.getSiblings key = .ok (siblings, tree')) : tree.ensureRebuilt = .ok tree' := by
  obtain ⟨t, ht, heq⟩ := probabilistic.bind_eq_ok.mp h
  cases heq
  exact ht

theorem generateProof_ok {tree tree' : ICS23MerkleTree} {key : Bytes}
    {proof : probabilistic.ExistenceProof} (h : tree.generateProof key = .ok (proof, tree')) :
    tree.ensureRebuilt = .ok tree' := by
  unfold ICS23MerkleTree.generateProof at h
  split at h
  · cases h
  · split at h
    · cases h
    · obtain ⟨⟨siblings, t⟩, ht, heq⟩ := probabilistic.bind_eq_ok.mp h
      cases heq
      exact getSiblings_ok ht

theorem generateNonExistenceProof_ok {tree tree' : ICS23MerkleTree} {key : Bytes}
    {proof : probabilistic.NonExistenceProof}
    (h : tree.generateNonExistenceProof key = .ok (proof, tree')) :
    tree.ensureRebuilt = .ok tree' := by
  unfold ICS23MerkleTree.generateNonExistenceProof at h
  split at h
  · cases h
  · split at h
    · cases h
    · obtain ⟨⟨siblings, t⟩, ht, heq⟩ := probabilistic.bind_eq_ok.mp h
      cases heq
      exact getSiblings_ok ht

/-- What a call does to a tree: it writes what it says, and keeps the tree coherent. -/
theorem Coherent.call {tree : ICS23MerkleTree} (h : Coherent tree) (call : Call) :
    Coherent (tree.call call) ∧ ∀ key, valueAt (tree.call call).leaves key =
      match call.writes with
      | some (k, v) => if k = key then v else valueAt tree.leaves key
      | none => valueAt tree.leaves key := by
  cases call with
  | set k v => exact ⟨h.set k v, valueAt_set tree k v⟩
  | delete k =>
    refine ⟨h.delete k, ?_⟩
    intro key
    show valueAt (tree.delete k).leaves key = if k = key then [] else valueAt tree.leaves key
    rw [ICS23MerkleTree.delete, valueAt, valueAt, table.get_erase]
    split <;> rfl
  | getRoot =>
    obtain ⟨hcoherent, hleaves⟩ := after_read h fun _ _ hok => getRoot_ok hok
    exact ⟨hcoherent, fun key => congrArg (valueAt · key) hleaves⟩
  | getSiblings k =>
    obtain ⟨hcoherent, hleaves⟩ := after_read h fun _ _ hok => getSiblings_ok hok
    exact ⟨hcoherent, fun key => congrArg (valueAt · key) hleaves⟩
  | generateProof k =>
    obtain ⟨hcoherent, hleaves⟩ := after_read h fun _ _ hok => generateProof_ok hok
    exact ⟨hcoherent, fun key => congrArg (valueAt · key) hleaves⟩
  | generateNonExistenceProof k =>
    obtain ⟨hcoherent, hleaves⟩ := after_read h fun _ _ hok => generateNonExistenceProof_ok hok
    exact ⟨hcoherent, fun key => congrArg (valueAt · key) hleaves⟩

theorem coherent_run (calls : List Call) :
    Coherent (run calls) ∧ ∀ key, valueAt (run calls).leaves key = written calls key := by
  induction calls using List.reverseRecOn with
  | nil => exact ⟨coherent_new, fun _ => rfl⟩
  | append_singleton calls call ih =>
    obtain ⟨hcoherent, hwrites⟩ := ih.1.call call
    rw [run, List.foldl_append]
    refine ⟨hcoherent, fun key => (hwrites key).trans ?_⟩
    rw [written, List.foldl_append, ih.2 key]
    rfl

/-! ## The tree and the map -/

/-- A tree that holds a map: it is coherent, and no value of the map has the hash of the empty
one. -/
structure Holds (tree : ICS23MerkleTree) (m : StateMap) : Prop where
  coherent : Coherent tree
  leaves : tree.leaves = m.entries
  told : ∀ e ∈ m.entries, sha2_256 e.2 ≠ sha2_256 []

variable {tree : ICS23MerkleTree} {m : StateMap} {key : Bytes}

theorem index_leaves_lt (entries : List (Bytes × Bytes)) :
    ∀ e ∈ ibc_state_commitment.leaves entries, index64 e.1 < 2 ^ merkle_depth_bits := by
  intro e he
  obtain ⟨e', -, rfl⟩ := List.mem_map.mp he
  exact index64_lt (Builtins.sha2_256_length _)

section Nodes

variable {level : Level}
  (hlevel : ∀ i, nodeHash level i =
    scheme.root 0 (sparse_tree.under index64 0 i (ibc_state_commitment.leaves m.entries)))

include hlevel

/-- The node over all the leaves of a map is the root of the map. -/
theorem root_of_leaves :
    nodeHash ((levels MERKLE_DEPTH_BITS level).getD MERKLE_DEPTH_BITS []) 0 = m.root := by
  have htop := nodeHash_levels hlevel (Nat.le_refl merkle_depth_bits) 0
  rw [sparse_tree.under_top (index_leaves_lt m.entries)] at htop
  exact htop

/-- The nodes beside the way to a key are the hashes beside it in the map. -/
theorem siblings_of_leaves (key : Bytes) :
    ICS23MerkleTree.siblingsLoop (levels MERKLE_DEPTH_BITS level) MERKLE_DEPTH_BITS 0
      (keyIndex64 key) = m.siblings key := by
  have hkey := Builtins.sha2_256_length key
  have hunder := sparse_tree.siblings_under (indexed_hash hkey) (indexed_leaves m.entries)
    (Nat.le_refl merkle_depth_bits)
  have htop : index64 (sha2_256 key) / 2 ^ merkle_depth_bits = 0 :=
    Nat.div_eq_of_lt (index64_lt hkey)
  rw [htop, sparse_tree.under_top (index_leaves_lt m.entries)] at hunder
  rw [siblingsLoop_eq, StateMap.siblings, hunder]
  refine List.map_congr_left ?_
  intro k hk
  rw [Nat.zero_add, nodeHash_levels hlevel (Nat.le_of_lt (List.mem_range.mp hk))]
  rfl

end Nodes

/-- The lowest level a tree rebuilds is that of the map's tree. -/
theorem Holds.ensureRebuilt (h : Holds tree m) : ∃ level,
    tree.ensureRebuilt = .ok (rebuilt tree level) ∧ ∀ i, nodeHash level i =
      scheme.root 0 (sparse_tree.under index64 0 i (ibc_state_commitment.leaves m.entries)) := by
  obtain ⟨level, hlevel, hnodes⟩ := leafLevel_spec m.nodup m.apart h.told
  refine ⟨level, ?_, hnodes⟩
  rw [ensureRebuilt_eq h.coherent, h.leaves, hlevel]
  rfl

/-- The root of the gateway's tree is the root of the map. -/
theorem Holds.getRoot (h : Holds tree m) : ∃ tree', tree.getRoot = .ok (m.root, tree') := by
  obtain ⟨level, hrebuilt, hnodes⟩ := h.ensureRebuilt
  refine ⟨rebuilt tree level, ?_⟩
  rw [ICS23MerkleTree.getRoot, hrebuilt, ← root_of_leaves hnodes]
  rfl

/-- The hashes the gateway gives for a key are those beside the way to it. -/
theorem Holds.getSiblings (h : Holds tree m) (key : Bytes) :
    ∃ tree', tree.getSiblings key = .ok (m.siblings key, tree') := by
  obtain ⟨level, hrebuilt, hnodes⟩ := h.ensureRebuilt
  refine ⟨rebuilt tree level, ?_⟩
  rw [ICS23MerkleTree.getSiblings, hrebuilt, ← siblings_of_leaves hnodes]
  rfl

theorem proofPath_siblings (m : StateMap) (key : Bytes) :
    ICS23MerkleTree.proofPath (keyIndex64 key) (m.siblings key) =
      probabilistic.innerOps (sha2_256 key) 0 (m.siblings key) := by
  have hcount : 0 + (m.siblings key).length ≤ 64 := by
    rw [StateMap.length_siblings]
    decide
  have hpath := proofPath_eq (Builtins.sha2_256_length key) hcount
  rwa [Nat.pow_zero, Nat.div_one] at hpath

/-- The proof of a key that is there. -/
theorem Holds.generateProof {value : Bytes} (h : Holds tree m) (hget : tree.get key = some value) :
    ∃ tree', tree.generateProof key = .ok ({
      key := key
      value := value
      path := probabilistic.innerOps (sha2_256 key) 0 (m.siblings key) }, tree') := by
  obtain ⟨tree', hsiblings⟩ := h.getSiblings key
  have hne : tree.leaves.length ≠ 0 := by
    intro hnil
    rw [ICS23MerkleTree.get, List.length_eq_zero_iff.mp hnil] at hget
    cases hget
  refine ⟨tree', ?_⟩
  rw [ICS23MerkleTree.generateProof, if_neg hne, hget]
  dsimp only
  rw [hsiblings, ← proofPath_siblings]
  rfl

/-- The proof that a key is missing. -/
theorem Holds.generateNonExistenceProof (h : Holds tree m) (hne : tree.leaves ≠ [])
    (hget : tree.get key = none) :
    ∃ tree', tree.generateNonExistenceProof key = .ok ({
      key := some key
      left := some (probabilistic.emptyProof m key) }, tree') := by
  obtain ⟨tree', hsiblings⟩ := h.getSiblings key
  refine ⟨tree', ?_⟩
  rw [ICS23MerkleTree.generateNonExistenceProof, hget, if_neg (by simp), if_neg (by simpa using hne),
    hsiblings, probabilistic.emptyProof, ← proofPath_siblings]
  rfl

omit [Builtins] in
theorem get_of_valueAt {value : Bytes} (h : valueAt tree.leaves key = value) (hne : value ≠ []) :
    tree.get key = some value := by
  rw [ICS23MerkleTree.get]
  rw [valueAt] at h
  cases hget : table.get tree.leaves key with
  | none =>
    rw [hget] at h
    exact absurd h.symm hne
  | some value' =>
    rw [hget] at h
    exact congrArg some h

/-- The gateway's tree after any calls holds what was written, and the three implementations agree
on it: its root is that of the map, the script takes its hashes, and the client takes its proofs,
for the value that is stored and no other (but for what a comparison lets pass). -/
theorem the_three_trees_agree (calls : List Call) (q : Bytes) (hne : (run calls).leaves ≠ [])
    (hapart : Apart fun key => key = q ∨ key ∈ keys (run calls).leaves)
    (hvalues : ∀ e ∈ (run calls).leaves, sha2_256 e.2 ≠ sha2_256 []) :
    ∃ m : StateMap, m.entries = (run calls).leaves ∧
      (∀ key, m.get key = written calls key) ∧
      (run calls).getRoot.map Prod.fst = .ok m.root ∧
      (∃ siblings, ((run calls).getSiblings q).map Prod.fst = .ok siblings ∧
        (do compute_root q (← leaf_hash (sha2_256 q) (value_hash (written calls q))) siblings) =
          some m.root) ∧
      (written calls q ≠ [] → ∃ proof, ((run calls).generateProof q).map Prod.fst = .ok proof ∧
        ∀ value cmp, probabilistic.VerifyIbcStateMembershipWithExistenceProof m.root q value proof
          cmp = .ok () ↔ value = written calls q ∨ cmp q value (written calls q) = .ok ()) ∧
      (written calls q = [] → ∃ proof,
        ((run calls).generateNonExistenceProof q).map Prod.fst = .ok proof ∧
        probabilistic.VerifyIbcStateNonMembershipWithNonExistenceProof m.root q proof =
          .ok ()) := by
  obtain ⟨hcoherent, hwritten⟩ := coherent_run calls
  let m : StateMap := {
    entries := (run calls).leaves
    nodup := hcoherent.nodup
    written := hcoherent.written
    apart := fun key key' hkey hkey' => hapart key key' (.inr hkey) (.inr hkey') }
  have holds : Holds (run calls) m := ⟨hcoherent, rfl, hvalues⟩
  have hfits : m.Fits q := fun k hk hagree => (hapart q k (.inl rfl) (.inr hk) hagree).symm
  have hget : m.get q = written calls q := hwritten q
  have hstanding : m.standing q = (q, written calls q) := by
    rw [StateMap.standing_of_fits hfits, hget]
  refine ⟨m, rfl, hwritten, ?_, ?_, ?_, ?_⟩
  · obtain ⟨tree', hroot⟩ := holds.getRoot
    rw [hroot]
    rfl
  · obtain ⟨tree', hsiblings⟩ := holds.getSiblings q
    exact ⟨m.siblings q, by rw [hsiblings]; rfl, StateMap.compute_root_siblings hstanding⟩
  · intro hvalue
    obtain ⟨tree', hproof⟩ := holds.generateProof (get_of_valueAt (hwritten q) hvalue)
    exact ⟨_, by rw [hproof]; rfl, fun value cmp =>
      probabilistic.honest_proof_is_taken_iff hvalue hstanding⟩
  · intro hvalue
    rw [hvalue] at hget hstanding
    have hout : (run calls).get q = none :=
      table.get_eq_none_iff.mpr (StateMap.get_eq_nil_iff.mp hget)
    obtain ⟨tree', hproof⟩ := holds.generateNonExistenceProof hne hout
    exact ⟨_, by rw [hproof]; rfl, probabilistic.emptyProof_proves_absence hstanding⟩

end Tree

/-! ### A tree that lost a key -/

section Sample

local instance merkleTreeBuiltins : Builtins := mapBuiltins

def sampleCalls : List Call :=
  [.set samplePort [2], .set (utf8 "ports/port-99") [1], .set samplePort [1],
    .delete (utf8 "ports/port-99")]

theorem leaves_sampleCalls : (run sampleCalls).leaves = [(samplePort, [1])] := by decide

theorem the_trees_agree_on_the_key_that_is_left :
    ∃ m : StateMap, m.entries = [(samplePort, [1])] ∧
      (run sampleCalls).getRoot.map Prod.fst = .ok m.root ∧
      ∃ proof, ((run sampleCalls).generateProof samplePort).map Prod.fst = .ok proof ∧
        probabilistic.VerifyIbcStateMembershipWithExistenceProof m.root samplePort [1] proof
          (fun _ _ _ => .error "existence proof value mismatch") = .ok () := by
  have hsame : ∀ key, key = samplePort ∨ key ∈ keys (run sampleCalls).leaves →
      key = samplePort := by
    rw [leaves_sampleCalls]
    simp
  have hhash : ∀ e ∈ [(samplePort, ([1] : Bytes))], sha2_256 e.2 ≠ sha2_256 [] := by
    decide +kernel
  obtain ⟨m, hentries, -, hroot, -, hproof, -⟩ := the_three_trees_agree sampleCalls samplePort
    (by rw [leaves_sampleCalls]; simp)
    (fun key key' hkey hkey' _ => (hsame key hkey).trans (hsame key' hkey').symm)
    (by rw [leaves_sampleCalls]; exact hhash)
  have hwritten : written sampleCalls samplePort = [1] := by decide
  rw [hwritten] at hproof
  obtain ⟨proof, hgenerated, htaken⟩ := hproof (by decide)
  exact ⟨m, hentries.trans leaves_sampleCalls, hroot, proof, hgenerated,
    (htaken [1] _).mpr (.inl rfl)⟩

end Sample

end cardano_ibc.gateway
