-- The app hash of a Cosmos chain: the stores of the chain, each an IAVL tree, in a Merkle tree of
-- their names and roots; and what a proof accepted under `tendermint_spec` against one shows.
import CardanoIbc.Ibc.Iavl

namespace cardano_ibc

open hash_tree

section Stores

variable [Builtins]

/-! ## Stores -/

/-- An IAVL tree with its leaves in the order of their keys. -/
structure IavlTree where
  tree : Tree IavlLeaf IavlInner
  heights : HeightsFall tree
  sorted : (tree.leaves.map IavlLeaf.key).Pairwise fun a b => bytearray.compare a b = .lt

/-- A store of the chain. One that nothing was written to has no tree. -/
structure CosmosStore where
  name : Bytes
  tree : Option IavlTree
  name_lt : name.length < 2 ^ 63

namespace CosmosStore

def root (s : CosmosStore) : Bytes :=
  match s.tree with
  | none => sha2_256 []
  | some t => t.tree.digest iavlLayout

theorem root_ne_nil (s : CosmosStore) : s.root ≠ [] := by
  have hsize : s.root.length = 32 := by
    unfold root
    split
    · exact Builtins.sha2_256_length _
    · exact Builtins.sha2_256_length _
  intro hnil
  rw [hnil] at hsize
  cases hsize

def leaves (s : CosmosStore) : List IavlLeaf :=
  match s.tree with
  | none => []
  | some t => t.tree.leaves

/-- Every string that is hashed for the store, its values too. -/
def hashed (s : CosmosStore) : List Bytes :=
  match s.tree with
  | none => [[]]
  | some t => t.tree.hashed iavlLayout ++ t.tree.leaves.map IavlLeaf.value

def Maps (s : CosmosStore) (key value : Bytes) : Prop := ∃ a ∈ s.leaves, a.key = key ∧ a.value = value

instance (s : CosmosStore) (key value : Bytes) : Decidable (s.Maps key value) :=
  inferInstanceAs (Decidable (∃ a ∈ s.leaves, a.key = key ∧ a.value = value))

end CosmosStore

/-- The nodes of the tree of stores as they are hashed: a leaf has a name and a root. -/
def tmLayout : Layout (Bytes × Bytes) Unit where
  hash := sha2_256
  size := 32
  length_hash := Builtins.sha2_256_length
  leaf a := 0 :: (sized a.1 ++ 32 :: sha2_256 a.2)
  beside _
    | .left, other => { before := [1], after := other }
    | .right, other => { before := 1 :: other, after := [] }
  agree _ l r := by simp [Step.wrap]

/-- The tree over a list, divided as the Merkle tree of a list is. -/
def treeOver {α : Type} : Nat → List α → Option (Tree α Unit)
  | _, [] => none
  | _, [x] => some (.leaf x)
  | 0, _ :: _ :: _ => none
  | depth + 1, x :: y :: zs => do
    let k := get_split_point (zs.length + 2)
    return .node () (← treeOver depth ((x :: y :: zs).take k))
      (← treeOver depth ((x :: y :: zs).drop k))

theorem treeOver_spec (depth : Nat) (xs : List (Bytes × Bytes)) (hne : xs ≠ [])
    (hlength : xs.length ≤ depth + 1) :
    ∃ t, treeOver depth xs = some t ∧ t.leaves = xs ∧
      t.top tmLayout = merkle_tree.top sha2_256 get_split_point depth
        (xs.map fun a => sized a.1 ++ 32 :: sha2_256 a.2) := by
  induction depth generalizing xs with
  | zero =>
    match xs with
    | [] => exact absurd rfl hne
    | [x] => exact ⟨.leaf x, rfl, rfl, rfl⟩
    | _ :: _ :: _ => simp at hlength
  | succ depth ih =>
    match xs with
    | [] => exact absurd rfl hne
    | [x] => exact ⟨.leaf x, rfl, rfl, rfl⟩
    | x :: y :: zs =>
      have hsplit := get_split_point_splits (zs.length + 2) (by omega)
      generalize hk : get_split_point (zs.length + 2) = k at hsplit
      simp only [List.length_cons] at hlength
      obtain ⟨l, hl, hlleaves, hltop⟩ := ih ((x :: y :: zs).take k)
        (by simp [List.take_eq_nil_iff]; omega)
        (by simp only [List.length_take, List.length_cons]; omega)
      obtain ⟨r, hr, hrleaves, hrtop⟩ := ih ((x :: y :: zs).drop k)
        (by simp only [ne_eq, List.drop_eq_nil_iff, List.length_cons]; omega)
        (by simp only [List.length_drop, List.length_cons]; omega)
      refine ⟨.node () l r, ?_, ?_, ?_⟩
      · rw [treeOver]
        simp only [hk, hl, hr]
        rfl
      · rw [Tree.leaves, hlleaves, hrleaves, List.take_append_drop]
      · rw [Tree.top, hltop, hrtop]
        simp only [List.map_take, List.map_drop, List.map_cons, merkle_tree.top, List.length_map,
          hk]
        rfl

/-! ## Commitments -/

/-- The stores of a chain in the order of their names. -/
structure StoreCommitment where
  stores : List CosmosStore
  sorted : (stores.map CosmosStore.name).Pairwise fun a b => bytearray.compare a b = .lt

namespace StoreCommitment

variable (c : StoreCommitment)

/-- The names and roots that are hashed. -/
def entries : List (Bytes × Bytes) := c.stores.map fun s => (s.name, s.root)

def appHash : Bytes :=
  hash_from_byte_slices_sha2_256 (c.entries.map fun a => sized a.1 ++ 32 :: sha2_256 a.2)

/-- The tree the app hash is the root of. -/
def tree : Option (Tree (Bytes × Bytes) Unit) := treeOver c.stores.length c.entries

/-- Every string that is hashed for the app hash. -/
def hashed : List Bytes :=
  (match c.tree with
    | none => [[]]
    | some t => t.hashed tmLayout) ++
    c.stores.flatMap fun s => s.root :: s.hashed

/-- The store of this name maps the key to the value. -/
def Maps (name key value : Bytes) : Prop := ∃ s ∈ c.stores, s.name = name ∧ s.Maps key value

instance (name key value : Bytes) : Decidable (c.Maps name key value) :=
  inferInstanceAs (Decidable (∃ s ∈ c.stores, s.name = name ∧ s.Maps key value))

variable {c}

theorem length_appHash : c.appHash.length = 32 := by
  rw [appHash, hash_from_byte_slices_sha2_256, hashFromByteSlices_eq_root, merkle_tree.root,
    Builtins.sha2_256_length]

/-- The app hash is the root of the tree, or the hash of nothing. -/
theorem appHash_cases : (c.stores = [] ∧ c.tree = none ∧ c.appHash = sha2_256 []) ∨
    ∃ t, c.tree = some t ∧ t.leaves = c.entries ∧ c.appHash = t.digest tmLayout := by
  rcases hstores : c.stores with _ | ⟨s, rest⟩
  · left
    have hentries : c.entries = [] := by
      rw [entries, hstores]
      rfl
    refine ⟨rfl, ?_, ?_⟩
    · rw [tree, hentries]
      unfold treeOver
      rfl
    · rw [appHash, hentries, hash_from_byte_slices_sha2_256, hashFromByteSlices_eq_root]
      rfl
  · right
    have hlength : c.entries.length = c.stores.length := by simp [entries]
    have hne : c.entries ≠ [] := by
      rw [entries, hstores]
      simp
    obtain ⟨t, ht, hleaves, htop⟩ := treeOver_spec c.stores.length c.entries hne (by omega)
    refine ⟨t, ht, hleaves, ?_⟩
    rw [appHash, hash_from_byte_slices_sha2_256, hashFromByteSlices_eq_root, merkle_tree.root,
      List.length_map, hlength, Tree.digest, htop]
    rfl

theorem root_hashed {s : CosmosStore} (hs : s ∈ c.stores) : s.root ∈ c.hashed :=
  List.mem_append_right _ (List.mem_flatMap.mpr ⟨s, hs, List.mem_cons_self⟩)

theorem store_hashed {s : CosmosStore} (hs : s ∈ c.stores) {m : Bytes} (hm : m ∈ s.hashed) :
    m ∈ c.hashed :=
  List.mem_append_right _ (List.mem_flatMap.mpr ⟨s, hs, List.mem_cons_of_mem _ hm⟩)

omit [Builtins] in
/-- Stores of one name are one store. -/
theorem store_unique {s s' : CosmosStore} (hs : s ∈ c.stores) (hs' : s' ∈ c.stores)
    (hname : s.name = s'.name) : s = s' := by
  have hdistinct : (c.stores.map CosmosStore.name).Nodup := by
    refine c.sorted.imp ?_
    rintro a b hlt rfl
    exact List.lt_irrefl a (bytearray.compare_eq_lt.mp hlt)
  exact List.inj_on_of_nodup_map hdistinct hs hs' hname

end StoreCommitment

/-! ## Proofs against the app hash -/

/-- A step with something before the digest that is not what a leaf starts with, and whole digests
after it. -/
structure TmStep (s : Step) : Prop where
  nonempty : s.before ≠ []
  inner : s.before.head? ≠ some 0
  after : s.after.length % 32 = 0

theorem tm_separates : Separates tmLayout StartsLeaf TmStep where
  leaf_node := by
    rintro x b l r hx rfl
    have hhead : (tmLayout.node b l r).head? = some 1 := rfl
    rw [StartsLeaf, hhead] at hx
    exact absurd hx (by decide)
  step_leaf := by
    intro s d a hs heq
    have hleaf : (tmLayout.leaf a).head? = some 0 := rfl
    rw [← heq, Step.wrap, List.append_assoc, List.head?_append_of_ne_nil _ hs.nonempty] at hleaf
    exact hs.inner hleaf
  step_node := by
    intro s d b l r hs hd hl hr heq
    have hd : d.length = 32 := hd
    have hl : l.length = 32 := hl
    have hr : r.length = 32 := hr
    have hwrap : s.before ++ (d ++ s.after) = (1 :: l) ++ r := by
      simpa [Layout.node, tmLayout, Step.wrap] using heq
    have hlength := congrArg List.length hwrap
    have hbefore := List.length_pos_iff.mpr hs.nonempty
    have hafter := hs.after
    simp only [List.length_append, List.length_cons] at hlength
    rcases (by omega : s.before.length = 1 ∨ s.before.length = 33) with hone | hlong
    · left
      have hsplit : s.before ++ (d ++ s.after) = [1] ++ (l ++ r) := by simpa using hwrap
      obtain ⟨hbefore, hrest⟩ := List.append_inj hsplit hone
      obtain ⟨hchild, hafter⟩ := List.append_inj hrest (hd.trans hl.symm)
      refine ⟨hchild, ?_⟩
      cases s
      simp_all [tmLayout]
    · right
      obtain ⟨hbefore, hrest⟩ := List.append_inj hwrap (by simp [hlong, hl])
      have hrest : d ++ s.after = r ++ [] := by simpa using hrest
      obtain ⟨hchild, hafter⟩ := List.append_inj hrest (hd.trans hr.symm)
      refine ⟨hchild, ?_⟩
      cases s
      simp_all [tmLayout]

omit [Builtins] in
theorem check_leaf_tm {op : LeafOp} :
    check_against_spec_leaf_op op tendermint_spec (tendermint_spec == iavl_spec) = some true ↔
      SpecLeaf op ∧ op.prefixBytes.head? = some 0 := by
  have hspec : (tendermint_spec == iavl_spec) = false := by decide
  simp only [check_against_spec_leaf_op, hspec, and_accepts, pure_eq_some, Bool.and_eq_true,
    beq_iff_eq]
  constructor
  · rintro ⟨⟨⟨⟨⟨hhash, hkey⟩, hvalue⟩, hlength⟩, hzero⟩, -⟩
    exact ⟨⟨hhash, hkey, hvalue, hlength⟩, has_prefix_zero.mp hzero⟩
  · rintro ⟨⟨hhash, hkey, hvalue, hlength⟩, hzero⟩
    exact ⟨⟨⟨⟨⟨hhash, hkey⟩, hvalue⟩, hlength⟩, has_prefix_zero.mpr hzero⟩, rfl⟩

omit [Builtins] in
theorem check_inner_tm {op : InnerOp} {layer : Int} :
    check_against_spec_inner_op op tendermint_spec layer tendermint_spec.inner_spec
        (maxOpPrefixLength tendermint_spec) (tendermint_spec == iavl_spec) = some true ↔
      op.hash = 1 ∧ op.prefixBytes.head? ≠ some 0 ∧ 1 ≤ op.prefixBytes.length ∧
        op.prefixBytes.length ≤ 33 ∧ op.suffix.length % 32 = 0 := by
  have hspec : (tendermint_spec == iavl_spec) = false := by decide
  have hmax : maxOpPrefixLength tendermint_spec = 33 := by decide
  have hzero : (! has_prefix op.prefixBytes [0]) = true ↔ op.prefixBytes.head? ≠ some 0 := by
    rw [ne_eq, ← has_prefix_zero]
    simp
  simp only [check_against_spec_inner_op, hspec, hmax, and_accepts, pure_eq_some,
    Bool.and_eq_true, beq_iff_eq, decide_eq_true_eq, bind_eq_some, expect_eq_some]
  constructor
  · rintro ⟨⟨⟨⟨hhash, hleaf⟩, hmin⟩, hlong⟩, ⟨-, -, hsuffix⟩, -⟩
    have hmin : (1 : Int) ≤ op.prefixBytes.length := hmin
    have hsuffix : (op.suffix.length : Int) % 32 = 0 := hsuffix
    exact ⟨hhash, hzero.mp hleaf, by omega, by omega, by omega⟩
  · rintro ⟨hhash, hleaf, hmin, hlong, hsuffix⟩
    refine ⟨⟨⟨⟨hhash, hzero.mpr hleaf⟩, ?_⟩, by omega⟩, ⟨(), by decide, ?_⟩, rfl⟩
    · show (1 : Int) ≤ op.prefixBytes.length
      omega
    · show (op.suffix.length : Int) % 32 = 0
      omega

omit [Builtins] in
theorem checksOps_tm {layer : Int} {ops : List InnerOp} :
    ChecksOps tendermint_spec layer ops ↔ ∀ op ∈ ops, op.hash = 1 ∧
      op.prefixBytes.head? ≠ some 0 ∧ 1 ≤ op.prefixBytes.length ∧ op.prefixBytes.length ≤ 33 ∧
        op.suffix.length % 32 = 0 := by
  induction ops generalizing layer with
  | nil => simp [ChecksOps]
  | cons op ops ih => rw [ChecksOps, check_inner_tm, ih, List.forall_mem_cons]

/-- The name of a store ends in another name with its length before it. The leaf operation of a
proof may start with more than the spec says, so a proof for the one is a proof for the other. -/
def EndsIn (long name : Bytes) : Prop := ∃ x, long = x ++ sized name

/-- A string for a leaf that is the string of a store. -/
theorem leafString_tm {p : ExistenceProof} (hop : SpecLeaf p.leaf) {bz : Bytes}
    (hbz : encode_varint p.key.length = some bz) {name root : Bytes} (hname : name.length < 2 ^ 63)
    (h : leafString p = tmLayout.leaf (name, root)) :
    p.leaf.prefixBytes ++ sized p.key = 0 :: sized name ∧ sha2_256 p.value = sha2_256 root := by
  have heq : (p.leaf.prefixBytes ++ (bz ++ p.key)) ++ 32 :: sha2_256 p.value =
      (0 :: sized name) ++ 32 :: sha2_256 root := by
    rw [leafString_eq hop hbz] at h
    simpa [tmLayout] using h
  obtain ⟨hkey, hvalue⟩ := List.append_inj' heq (by simp [Builtins.sha2_256_length])
  have hlong : p.key.length < 2 ^ 70 := by
    have hlength := congrArg List.length hkey
    have hten : (varint.encode name.length).length ≤ 9 + 1 := length_encode_le (by omega)
    simp only [sized, List.length_append, List.length_cons] at hlength
    omega
  rw [encode_varint_eq _ hlong, Option.some.injEq] at hbz
  subst hbz
  exact ⟨hkey, (List.cons.inj hvalue).2⟩

omit [Builtins] in
/-- A name after some bytes in place of a name: it is that name, or that name ends in it. -/
theorem name_of_sized {start key name : Bytes} (h : start ++ sized key = sized name) :
    name = key ∨ EndsIn name key := by
  rcases List.append_eq_append_iff.mp h with ⟨rest, hlength, hname⟩ | ⟨rest, hstart, hname⟩
  · -- the key starts within the length of the name
    by_cases hstart : start = []
    · subst hstart
      have hsame : sized name ++ [] = sized key ++ [] := by simpa using h.symm
      exact .inl (sized_append_inj hsame).1
    · by_cases hrest : rest = []
      · subst hrest
        exact .inr ⟨[], by simpa using hname.symm⟩
      · obtain ⟨m, hm, rfl⟩ := varint.encode_suffix hlength hstart hrest
        obtain ⟨hlen, hsame⟩ := varint.encode_append_inj hname
        rw [hsame] at hlen
        omega
  · exact .inr ⟨rest, hname⟩

namespace StoreCommitment

variable {c : StoreCommitment}

/-- The place of a store is not too deep for a proof. -/
def Shows (c : StoreCommitment) (s : CosmosStore) : Prop :=
  ∃ t path, c.tree = some t ∧ ((s.name, s.root), path) ∈ t.paths tmLayout ∧ path.length ≤ 128

omit c in
/-- No climb from a leaf ends in the hash of nothing. -/
theorem climb_ne_empty {p : ExistenceProof} (hleaf : leafString p ≠ [])
    (hsteps : ∀ op ∈ p.path, op.prefixBytes ≠ []) {strings : List Bytes}
    (free : CollisionFree ([] :: strings ++ existHashed p)) :
    climb sha2_256 (sha2_256 (leafString p)) (p.path.map stepOf) ≠ sha2_256 [] := by
  intro h
  rcases List.eq_nil_or_concat p.path with hnil | ⟨ops, op, hpath⟩
  · rw [hnil] at h
    have heq := free (leafString p) (by simp [existHashed]) [] (by simp) h
    exact hleaf heq
  · rw [hpath, List.concat_eq_append, List.map_append, List.map_singleton, climb_snoc] at h
    have hmem : (stepOf op).wrap (climb sha2_256 (sha2_256 (leafString p)) (ops.map stepOf)) ∈
        existHashed p := by
      rw [existHashed, hpath, List.concat_eq_append, List.map_append, List.map_singleton,
        climbed_snoc]
      simp
    have heq := free _ (List.mem_append_right _ hmem) [] (by simp) h
    simp only [Step.wrap, List.append_eq_nil_iff] at heq
    exact hsteps op (by simp [hpath]) heq.1.1

/-- An accepted proof is for a store that has the name, or whose name ends in it. -/
theorem store_of_proof {p : ExistenceProof} {name root : Bytes}
    (h : verify_existence_proof p tendermint_spec c.appHash name root = some true)
    (free : CollisionFree (c.hashed ++ existHashed p)) :
    ∃ s ∈ c.stores, (s.name = name ∨ EndsIn s.name name) ∧ s.root = root ∧ c.Shows s := by
  obtain ⟨hcheck, rfl, rfl, hroot⟩ := verify_existence_proof_eq_true.mp h
  obtain ⟨-, hleaf, hdepth, hops⟩ := (check_against_spec_eq_true (.inr rfl)).mp hcheck
  obtain ⟨hop, hzero⟩ := check_leaf_tm.mp hleaf
  have hsteps := checksOps_tm.mp hops
  obtain ⟨-, -, ⟨bz, hbz⟩, hclimb⟩ := (calculate_exist_internal_eq_some (.inr (by decide)) hop
    fun op hmem => (hsteps op hmem).1).mp hroot
  obtain ⟨start, hstart⟩ := List.head?_eq_some_iff.mp hzero
  have hstring : leafString p = 0 :: (start ++ (bz ++ p.key) ++ 32 :: sha2_256 p.value) := by
    rw [leafString_eq hop hbz, hstart]
    rfl
  have hnonempty : ∀ op ∈ p.path, op.prefixBytes ≠ [] := fun op hmem =>
    List.ne_nil_of_length_pos (hsteps op hmem).2.2.1
  rcases c.appHash_cases with ⟨-, hnone, happ⟩ | ⟨t, ht, hleaves, happ⟩
  · have hhashed : c.hashed = [] :: c.stores.flatMap fun s => s.root :: s.hashed := by
      rw [hashed, hnone]
      rfl
    rw [hhashed] at free
    rw [hclimb] at happ
    exact absurd happ (climb_ne_empty (by simp [hstring]) hnonempty free)
  · have hok : ∀ s ∈ p.path.map stepOf, TmStep s := by
      intro s hs
      obtain ⟨op, hmem, rfl⟩ := List.mem_map.mp hs
      obtain ⟨-, hinner, -, -, hafter⟩ := hsteps op hmem
      exact ⟨hnonempty op hmem, hinner, hafter⟩
    have htree : ∀ m ∈ t.hashed tmLayout, m ∈ c.hashed := by
      intro m hm
      rw [hashed, ht]
      exact List.mem_append_left _ hm
    have inj : Set.InjOn tmLayout.hash {m | m ∈ t.hashed tmLayout ∨
        m ∈ leafString p :: climbed tmLayout.hash (tmLayout.hash (leafString p))
          (p.path.map stepOf)} := by
      intro m hm m' hm' heq
      refine free m ?_ m' ?_ heq
      · exact List.mem_append.mpr (hm.imp (htree m) (List.mem_cons_of_mem _))
      · exact List.mem_append.mpr (hm'.imp (htree m') (List.mem_cons_of_mem _))
    have hstarts : StartsLeaf (leafString p) := by
      rw [hstring]
      rfl
    obtain ⟨a, path, hmem, hsame, hpath⟩ :=
      path_of_climb tm_separates hstarts hok inj (hclimb.symm.trans happ)
    have hentry : a ∈ c.entries := by
      rw [← hleaves]
      exact Tree.leaf_of_path hmem
    obtain ⟨s, hs, rfl⟩ := List.mem_map.mp hentry
    obtain ⟨hkey, hvalue⟩ := leafString_tm hop hbz s.name_lt hsame.symm
    have hvalue := free _ (List.mem_append_right _ List.mem_cons_self) _
      (List.mem_append_left _ (root_hashed hs)) hvalue
    have hlength : path.length ≤ 128 := by
      have := congrArg List.length hpath
      simp only [List.length_map, List.length_reverse] at this
      omega
    refine ⟨s, hs, ?_, hvalue.symm, t, path, ht, hmem, hlength⟩
    rw [hstart, List.cons_append, List.cons.injEq] at hkey
    exact name_of_sized hkey.2

end StoreCommitment

end Stores

end cardano_ibc
