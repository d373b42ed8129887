-- Proofs that a key is not in a store: the ones that are accepted against a store or an app hash
-- (ics23/proof.ak and merkle.ak), and which of the proofs that a store can give are among them.
import CardanoIbc.Ibc.Membership
import CardanoIbc.Ibc.Neighbours

namespace cardano_ibc

open hash_tree

section Absence

variable [Builtins]

/-! ## The proofs that are accepted -/

/-- A neighbour is proved to stand in a tree, under its own key and value. -/
def ProvedIn (root : Bytes) (p : ExistenceProof) : Prop :=
  verify_existence_proof p iavl_spec root p.key p.value = some true

theorem ProvedIn.ne_null {root : Bytes} {p : ExistenceProof} (h : ProvedIn root p) :
    p ≠ null_existance_proof := by
  rintro rfl
  exact (verified_parts (.inl rfl) h).1.ne_null rfl

theorem ProvedIn.key_ne_nil {root : Bytes} {p : ExistenceProof} (h : ProvedIn root p) :
    p.key ≠ [] := by
  obtain ⟨hop, hhash, hfits⟩ := verified_parts (.inl rfl) h
  obtain ⟨-, -, -, hroot⟩ := verify_existence_proof_eq_true.mp h
  exact ((calculate_exist_internal_eq_some hfits hop hhash).mp hroot).1

theorem neighbourKey_eq_some {root key : Bytes} {p : ExistenceProof} :
    neighbourKey p iavl_spec root = some key ↔
      (p = null_existance_proof ∧ key = []) ∨ (ProvedIn root p ∧ key = p.key) := by
  by_cases hnull : p = null_existance_proof
  · subst hnull
    simp only [neighbourKey, ne_eq, not_true_eq_false, if_false, Option.some.injEq, true_and]
    constructor
    · intro h
      exact .inl h.symm
    · rintro (rfl | ⟨h, -⟩)
      · rfl
      · exact absurd rfl h.ne_null
  · simp only [neighbourKey, ne_eq, hnull, not_false_eq_true, if_true, bind_eq_some,
      expect_eq_some, pure_eq_some, false_and, false_or]
    constructor
    · rintro ⟨_, h, -, rfl, rfl⟩
      exact ⟨h, rfl⟩
    · rintro ⟨h, rfl⟩
      exact ⟨true, h, (), rfl, rfl⟩

theorem key_for_comparison_iavl (key : Bytes) : key_for_comparison iavl_spec key = some key := rfl

/-- What is checked once the keys of the neighbours are known. -/
theorem verify_non_existence_keys {n : NonExistenceProof} {root key left_key right_key : Bytes}
    (hleft : neighbourKey n.left iavl_spec root = some left_key)
    (hright : neighbourKey n.right iavl_spec root = some right_key) :
    verify_non_existence_proof n iavl_spec root key = some true ↔
      (left_key ≠ [] ∨ right_key ≠ []) ∧ (right_key ≠ [] → key < right_key) ∧
        (left_key ≠ [] → left_key < key) ∧
        (if left_key = [] then is_left_most iavlInner n.right.path
          else if right_key = [] then is_right_most iavlInner n.left.path
          else is_left_neighbor iavlInner n.left.path n.right.path) = some true := by
  rw [verify_non_existence_proof, hleft, hright, Option.bind_eq_bind, Option.bind_some,
    Option.bind_some]
  by_cases hl : left_key = [] <;> by_cases hr : right_key = [] <;>
    simp [hl, hr, key_for_comparison_iavl, bytearray.compare_eq_lt, bytearray.compare_eq_gt,
      and_accepts]

/-- The three kinds of proof that are accepted: for a key before the first leaf, for one after the
last, and for one between two that pass for neighbours. -/
theorem verify_non_existence_iavl {n : NonExistenceProof} {root key : Bytes} :
    verify_non_existence_proof n iavl_spec root key = some true ↔
      (n.left = null_existance_proof ∧ ProvedIn root n.right ∧ key < n.right.key ∧
          ∀ op ∈ n.right.path, PadsLeft op) ∨
        (n.right = null_existance_proof ∧ ProvedIn root n.left ∧ n.left.key < key ∧
          ∀ op ∈ n.left.path, PadsRight op) ∨
        (ProvedIn root n.left ∧ ProvedIn root n.right ∧ n.left.key < key ∧ key < n.right.key ∧
          is_left_neighbor iavlInner n.left.path n.right.path = some true) := by
  rw [← is_left_most_iavl, ← is_right_most_iavl]
  constructor
  · intro h
    have hkeys := h
    simp only [verify_non_existence_proof, bind_eq_some] at hkeys
    obtain ⟨left_key, hleft, right_key, hright, -⟩ := hkeys
    obtain ⟨hsome, hlt, hgt, hpath⟩ := (verify_non_existence_keys hleft hright).mp h
    rcases neighbourKey_eq_some.mp hleft with ⟨hl, rfl⟩ | ⟨hl, rfl⟩ <;>
      rcases neighbourKey_eq_some.mp hright with ⟨hr, rfl⟩ | ⟨hr, rfl⟩
    · simp at hsome
    · rw [if_pos rfl] at hpath
      exact .inl ⟨hl, hr, hlt hr.key_ne_nil, hpath⟩
    · rw [if_neg hl.key_ne_nil, if_pos rfl] at hpath
      exact .inr (.inl ⟨hr, hl, hgt hl.key_ne_nil, hpath⟩)
    · rw [if_neg hl.key_ne_nil, if_neg hr.key_ne_nil] at hpath
      exact .inr (.inr ⟨hl, hr, hgt hl.key_ne_nil, hlt hr.key_ne_nil, hpath⟩)
  · rintro (⟨hl, hr, hlt, hpath⟩ | ⟨hr, hl, hgt, hpath⟩ | ⟨hl, hr, hgt, hlt, hpath⟩)
    · rw [verify_non_existence_keys (neighbourKey_eq_some.mpr (.inl ⟨hl, rfl⟩))
        (neighbourKey_eq_some.mpr (.inr ⟨hr, rfl⟩)), if_pos rfl]
      exact ⟨.inr hr.key_ne_nil, fun _ => hlt, fun hne => absurd rfl hne, hpath⟩
    · rw [verify_non_existence_keys (neighbourKey_eq_some.mpr (.inr ⟨hl, rfl⟩))
        (neighbourKey_eq_some.mpr (.inl ⟨hr, rfl⟩)), if_neg hl.key_ne_nil, if_pos rfl]
      exact ⟨.inl hl.key_ne_nil, fun hne => absurd rfl hne, fun _ => hgt, hpath⟩
    · rw [verify_non_existence_keys (neighbourKey_eq_some.mpr (.inr ⟨hl, rfl⟩))
        (neighbourKey_eq_some.mpr (.inr ⟨hr, rfl⟩)), if_neg hl.key_ne_nil, if_neg hr.key_ne_nil]
      exact ⟨.inl hl.key_ne_nil, fun _ => hlt, fun _ => hgt, hpath⟩

/-! ## What is not in a sorted list -/

section Sorted

variable {xs : List (IavlLeaf × Path)} {x y z : IavlLeaf × Path} {key : Bytes}

omit [Builtins] in
/-- A key before that of the first leaf is no key. -/
theorem not_before_first (sorted : xs.Pairwise fun x y => x.1.key < y.1.key)
    (hx : xs.head? = some x) (hlt : key < x.1.key) (hz : z ∈ xs) : z.1.key ≠ key := by
  obtain ⟨rest, rfl⟩ := List.head?_eq_some_iff.mp hx
  obtain ⟨hrest, -⟩ := List.pairwise_cons.mp sorted
  rintro rfl
  rcases List.mem_cons.mp hz with rfl | hz
  · exact List.lt_irrefl _ hlt
  · exact List.lt_irrefl _ (List.lt_trans hlt (hrest z hz))

omit [Builtins] in
/-- Neither is one after that of the last leaf. -/
theorem not_after_last (sorted : xs.Pairwise fun x y => x.1.key < y.1.key)
    (hx : xs.getLast? = some x) (hgt : x.1.key < key) (hz : z ∈ xs) : z.1.key ≠ key := by
  obtain ⟨rest, rfl⟩ := List.getLast?_eq_some_iff.mp hx
  obtain ⟨-, -, hrest⟩ := List.pairwise_append.mp sorted
  rintro rfl
  rcases List.mem_append.mp hz with hz | hz
  · exact List.lt_irrefl _ (List.lt_trans hgt (hrest z hz x (List.mem_singleton_self x)))
  · obtain rfl := List.mem_singleton.mp hz
    exact List.lt_irrefl _ hgt

omit [Builtins] in
/-- Nor one between those of two leaves next to one another. -/
theorem not_between_next (sorted : xs.Pairwise fun x y => x.1.key < y.1.key)
    (hnext : Next xs x y) (hgt : x.1.key < key) (hlt : key < y.1.key) (hz : z ∈ xs) :
    z.1.key ≠ key := by
  obtain ⟨before, after, rfl⟩ := hnext
  have hsplit : before ++ x :: y :: after = (before ++ [x]) ++ y :: after := by simp
  rw [hsplit] at sorted hz
  obtain ⟨hbefore, hafter, -⟩ := List.pairwise_append.mp sorted
  rcases List.mem_append.mp hz with hz | hz
  · exact not_after_last hbefore (by simp) hgt hz
  · exact not_before_first hafter rfl hlt hz

end Sorted

namespace IavlTree

variable (t : IavlTree)

def root : Bytes := t.tree.digest iavlLayout

omit [Builtins] in
def keys : List Bytes := t.tree.leaves.map IavlLeaf.key

theorem sorted_paths : (t.tree.paths iavlLayout).Pairwise fun x y => x.1.key < y.1.key := by
  have hsorted := t.sorted
  rw [← t.tree.map_fst_paths (L := iavlLayout), List.map_map, List.pairwise_map] at hsorted
  exact hsorted.imp bytearray.compare_eq_lt.mp

variable {t}

theorem mem_keys {key : Bytes} : key ∈ t.keys ↔ ∃ z ∈ t.tree.paths iavlLayout, z.1.key = key := by
  rw [keys, ← t.tree.map_fst_paths (L := iavlLayout), List.map_map, List.mem_map]
  rfl

end IavlTree

/-! ## Soundness -/

/-- The strings hashed for a neighbour. -/
def neighbourHashed (p : ExistenceProof) : List Bytes :=
  if p = null_existance_proof then [] else existHashed p

def absenceHashed (n : NonExistenceProof) : List Bytes :=
  neighbourHashed n.left ++ neighbourHashed n.right

/-- A neighbour that is proved is a leaf of the tree. -/
theorem IavlTree.leaf_of_neighbour {t : IavlTree} {p : ExistenceProof} (h : ProvedIn t.root p)
    (free : CollisionFree (t.tree.hashed iavlLayout ++ neighbourHashed p)) :
    ∃ a path, (a, path) ∈ t.tree.paths iavlLayout ∧ a.key = p.key ∧ p.path = opsOf path := by
  rw [neighbourHashed, if_neg h.ne_null] at free
  obtain ⟨a, path, hmem, hkey, -, hpath⟩ := iavl_path_of_proof h free
  exact ⟨a, path, hmem, hkey, hpath⟩

/-- A key that an accepted proof is for is not in the tree. -/
theorem IavlTree.absent_of_proof {t : IavlTree} {n : NonExistenceProof} {key : Bytes}
    (h : verify_non_existence_proof n iavl_spec t.root key = some true)
    (free : CollisionFree (t.tree.hashed iavlLayout ++ absenceHashed n)) : key ∉ t.keys := by
  have hfreeLeft : CollisionFree (t.tree.hashed iavlLayout ++ neighbourHashed n.left) :=
    free.subset fun m hm => by
      rw [absenceHashed, ← List.append_assoc]
      exact List.mem_append_left _ hm
  have hfreeRight : CollisionFree (t.tree.hashed iavlLayout ++ neighbourHashed n.right) :=
    free.subset fun m hm => by
      rcases List.mem_append.mp hm with hm | hm
      · exact List.mem_append_left _ hm
      · exact List.mem_append_right _ (List.mem_append_right _ hm)
  rw [mem_keys]
  rintro ⟨z, hz, hkey⟩
  refine absurd hkey ?_
  rcases verify_non_existence_iavl.mp h with ⟨-, hr, hlt, hpads⟩ | ⟨-, hl, hgt, hpads⟩ |
    ⟨hl, hr, hgt, hlt, hnext⟩
  · obtain ⟨a, path, hmem, hkey, hpath⟩ := leaf_of_neighbour hr hfreeRight
    rw [hpath, mem_opsOf] at hpads
    rw [← hkey] at hlt
    have hfirst := Tree.head?_paths.mpr ⟨hmem, fun x hx =>
      ((taken_of_path hmem x hx).padsLeft.mp (hpads x hx)).1⟩
    exact not_before_first t.sorted_paths hfirst hlt hz
  · obtain ⟨a, path, hmem, hkey, hpath⟩ := leaf_of_neighbour hl hfreeLeft
    rw [hpath, mem_opsOf] at hpads
    rw [← hkey] at hgt
    have hlast := Tree.getLast?_paths.mpr ⟨hmem, fun x hx =>
      ((taken_of_path hmem x hx).padsRight.mp (hpads x hx)).1⟩
    exact not_after_last t.sorted_paths hlast hgt hz
  · obtain ⟨a, p, hp, hkeyl, hpathl⟩ := leaf_of_neighbour hl hfreeLeft
    obtain ⟨b, q, hq, hkeyr, hpathr⟩ := leaf_of_neighbour hr hfreeRight
    rw [hpathl, hpathr, is_left_neighbor_iff hp hq] at hnext
    rw [← hkeyl] at hgt
    rw [← hkeyr] at hlt
    exact not_between_next t.sorted_paths hnext.2.1 hgt hlt hz

/-! ## Chained proofs -/

theorem ics23.verify_non_membership_nonexist {spec : ProofSpec} {root key : Bytes}
    {n : NonExistenceProof}
    (h : ics23.verify_non_membership spec root (.Nonexist n) key = some true) :
    verify_non_existence_proof n spec root key = some true := by
  simp only [ics23.verify_non_membership, bind_eq_some, expect_eq_some, bne_iff_ne] at h
  obtain ⟨between, -, -, hne, h⟩ := h
  by_cases hbetween : between = true
  · rwa [if_pos hbetween] at h
  · rw [if_neg hbetween] at hne
    exact absurd rfl hne

/-- A chain that is accepted for the absence of a key: a proof of absence in a tree, and the proof
of the store of that root. -/
theorem verify_non_membership_cosmos {proof : MerkleProof} {root : MerkleRoot} {name key : Bytes}
    (h : merkle.verify_non_membership proof cosmosSpecs root { key_path := [name, key] } =
      some true) :
    ∃ n q sub, proof.proofs = [.Nonexist n, .Exist q] ∧
      verify_non_existence_proof n iavl_spec sub key = some true ∧
      verify_existence_proof q tendermint_spec root.hash name sub = some true := by
  simp only [merkle.verify_non_membership, bind_eq_some, expect_eq_some,
    merkle.validate_verification_args, Bool.and_eq_true, beq_iff_eq] at h
  obtain ⟨-, ⟨-, htwo⟩, -, -, first, hfirst, spec, hspec, h⟩ := h
  obtain ⟨first', second, hproofs⟩ := List.length_eq_two.mp htwo.symm
  rw [hproofs, List.getElem?_cons_zero, Option.some.injEq] at hfirst
  subst hfirst
  obtain rfl : iavl_spec = spec := Option.some.inj hspec
  cases first' with
  | Exist p => cases h
  | Batch => cases h
  | Compressed => cases h
  | Nonexist n =>
    simp only [bind_eq_some, and_accepts, verify_chained_membership_proof_eq_true] at h
    obtain ⟨sub, -, ⟨_, hkey, hn⟩, i, hchain⟩ := h
    cases hkey
    rw [hproofs, List.foldlM_cons, bind_eq_some] at hchain
    obtain ⟨accum, haccum, hchain⟩ := hchain
    rw [List.foldlM_cons, bind_eq_some] at hchain
    obtain ⟨out, hout, hchain⟩ := hchain
    cases hchain
    cases haccum
    cases second with
    | Batch => cases hout
    | Compressed => cases hout
    | Nonexist n' => cases hout
    | Exist q =>
      obtain ⟨hq, -⟩ := (@chainStep_exist _ cosmosSpecs { key_path := [name, key] } sub 1 (sub, 1) q
        tendermint_spec name (.inr rfl) rfl rfl le_rfl (root.hash, i)).mp hout
      exact ⟨n, q, sub, hproofs, ics23.verify_non_membership_nonexist hn, hq⟩

/-- The strings hashed for the proofs of a chain. -/
def proofsHashed (proofs : List CommitmentProof) : List Bytes :=
  proofs.flatMap fun
    | .Exist p => existHashed p
    | .Nonexist n => absenceHashed n
    | _ => []

/-- A store has nothing under a key. -/
def CosmosStore.Lacks (s : CosmosStore) (key : Bytes) : Prop := ∀ a ∈ s.leaves, a.key ≠ key

/-- The store of this name has nothing under a key. -/
def StoreCommitment.Lacks (c : StoreCommitment) (name key : Bytes) : Prop :=
  ∀ s ∈ c.stores, s.name = name → s.Lacks key

theorem CosmosStore.lacks_of_proof {s : CosmosStore} {n : NonExistenceProof} {key : Bytes}
    (h : verify_non_existence_proof n iavl_spec s.root key = some true)
    (free : CollisionFree (s.hashed ++ absenceHashed n)) : s.Lacks key := by
  intro a ha hkey
  cases htree : s.tree with
  | none =>
    rw [leaves, htree] at ha
    cases ha
  | some t =>
    rw [root, htree] at h
    rw [leaves, htree] at ha
    rw [hashed, htree] at free
    have habsent := IavlTree.absent_of_proof h (free.subset fun m hm => by
      rcases List.mem_append.mp hm with hm | hm
      · exact List.mem_append_left _ (List.mem_append_left _ hm)
      · exact List.mem_append_right _ hm)
    exact habsent (List.mem_map.mpr ⟨a, ha, hkey⟩)

/-- What is proved not to be in a tree is not in it, and what is proved not to be in a store is not
in it, or not in one with a name that ends in that of the store. -/
theorem absence_proofs_sound :
    (∀ (t : IavlTree) (key : Bytes) (n : NonExistenceProof),
      CollisionFree (t.tree.hashed iavlLayout ++ absenceHashed n) →
      verify_non_existence_proof n iavl_spec t.root key = some true → key ∉ t.keys) ∧
    ∀ (c : StoreCommitment) (name key : Bytes) (proof : MerkleProof),
      CollisionFree (c.hashed ++ proofsHashed proof.proofs) →
      merkle.verify_non_membership proof cosmosSpecs { hash := c.appHash }
        { key_path := [name, key] } = some true →
      c.Lacks name key ∨ ∃ s ∈ c.stores, EndsIn s.name name ∧ s.Lacks key := by
  refine ⟨fun t key n free h => IavlTree.absent_of_proof h free, ?_⟩
  intro c name key proof free h
  obtain ⟨n, q, sub, hproofs, hn, hq⟩ := verify_non_membership_cosmos h
  have hsub : ∀ m, m ∈ c.hashed ∨ m ∈ absenceHashed n ∨ m ∈ existHashed q →
      m ∈ c.hashed ++ proofsHashed proof.proofs := by
    intro m hm
    rw [hproofs]
    simpa [proofsHashed] using hm
  obtain ⟨s, hs, hname, rfl, -⟩ := StoreCommitment.store_of_proof hq (free.subset fun m hm =>
    hsub m ((List.mem_append.mp hm).imp id .inr))
  have hlacks := CosmosStore.lacks_of_proof hn (free.subset fun m hm =>
    hsub m ((List.mem_append.mp hm).imp (StoreCommitment.store_hashed hs) .inl))
  rcases hname with hname | hends
  · left
    intro s' hs' hname'
    rwa [StoreCommitment.store_unique hs' hs (hname'.trans hname.symm)]
  · exact .inr ⟨s, hs, hends, hlacks⟩

/-! ## The proofs that a store gives -/

namespace IavlTree

variable (t : IavlTree) (key : Bytes)

/-- The last leaf before a key. -/
def leftNeighbour : Option (IavlLeaf × Path) :=
  ((t.tree.paths iavlLayout).filter fun x => bytearray.compare x.1.key key == .lt).getLast?

/-- The first leaf after a key. -/
def rightNeighbour : Option (IavlLeaf × Path) :=
  ((t.tree.paths iavlLayout).filter fun x => bytearray.compare x.1.key key == .gt).head?

def neighbourProof : Option (IavlLeaf × Path) → ExistenceProof
  | none => null_existance_proof
  | some x => proofOf x.1 x.2

/-- The proof made of the existence proofs of the two neighbours. -/
def absenceProof : NonExistenceProof :=
  { key
    left := neighbourProof (t.leftNeighbour key)
    right := neighbourProof (t.rightNeighbour key) }

/-- A leaf with a key and a value, and no prefix on the way down to it that is too long. -/
def Provable (x : IavlLeaf × Path) : Prop :=
  x.1.key ≠ [] ∧ x.1.value ≠ [] ∧ ∀ y ∈ x.2, y.2.before.length ≤ 45

instance (x : IavlLeaf × Path) : Decidable (Provable x) :=
  inferInstanceAs (Decidable (_ ∧ _ ∧ ∀ y ∈ x.2, y.2.before.length ≤ 45))

/-- The proofs of two neighbours show that nothing is between them. Neither must be a child of the
root. -/
def NeighboursShow : Option (IavlLeaf × Path) → Option (IavlLeaf × Path) → Prop
  | none, none => False
  | none, some r => Provable r ∧ ∀ y ∈ r.2, y.2.before.length ≤ 12
  | some l, none => Provable l
  | some l, some r =>
    Provable l ∧ Provable r ∧ (2 ≤ l.2.length ∧ 2 ≤ r.2.length) ∧ Narrow l.2 r.2

instance : (l r : Option (IavlLeaf × Path)) → Decidable (NeighboursShow l r)
  | none, none => inferInstanceAs (Decidable False)
  | none, some r => inferInstanceAs (Decidable (Provable r ∧ ∀ y ∈ r.2, y.2.before.length ≤ 12))
  | some l, none => inferInstanceAs (Decidable (Provable l))
  | some l, some r => inferInstanceAs (Decidable
      (Provable l ∧ Provable r ∧ (2 ≤ l.2.length ∧ 2 ≤ r.2.length) ∧ Narrow l.2 r.2))

variable {t key}

/-- A key that is not in the tree divides its leaves. -/
theorem paths_divided (h : key ∉ t.keys) :
    t.tree.paths iavlLayout =
      (t.tree.paths iavlLayout).filter (fun x => bytearray.compare x.1.key key == .lt) ++
        (t.tree.paths iavlLayout).filter (fun x => bytearray.compare x.1.key key == .gt) := by
  have hne : ∀ x ∈ t.tree.paths iavlLayout, x.1.key ≠ key := fun x hx hkey =>
    h (mem_keys.mpr ⟨x, hx, hkey⟩)
  have hsorted := t.sorted_paths
  generalize t.tree.paths iavlLayout = xs at hne hsorted
  induction xs with
  | nil => rfl
  | cons x xs ih =>
    obtain ⟨hx, hxs⟩ := List.pairwise_cons.mp hsorted
    obtain ⟨hnx, hnxs⟩ := List.forall_mem_cons.mp hne
    cases horder : bytearray.compare x.1.key key with
    | lt =>
      rw [List.filter_cons_of_pos (by simp [horder]), List.filter_cons_of_neg (by simp [horder]),
        List.cons_append, ← ih hnxs hxs]
    | eq => exact absurd (bytearray.compare_eq_eq.mp horder) hnx
    | gt =>
      -- every leaf after this one is after the key
      have hlater : ∀ y ∈ x :: xs, bytearray.compare y.1.key key = .gt := by
        intro y hy
        rcases List.mem_cons.mp hy with rfl | hy
        · exact horder
        · exact bytearray.compare_eq_gt.mpr
            (List.lt_trans (bytearray.compare_eq_gt.mp horder) (hx y hy))
      have hnone : (x :: xs).filter (fun x => bytearray.compare x.1.key key == .lt) = [] :=
        List.filter_eq_nil_iff.mpr fun y hy => by simp [hlater y hy]
      have hall : (x :: xs).filter (fun x => bytearray.compare x.1.key key == .gt) = x :: xs :=
        List.filter_eq_self.mpr fun y hy => by simp [hlater y hy]
      rw [hnone, hall]
      rfl

theorem leftNeighbour_spec {x : IavlLeaf × Path} (h : t.leftNeighbour key = some x) :
    x ∈ t.tree.paths iavlLayout ∧ x.1.key < key := by
  obtain ⟨hmem, hlt⟩ := List.mem_filter.mp (List.mem_of_getLast? h)
  exact ⟨hmem, bytearray.compare_eq_lt.mp (by simpa using hlt)⟩

theorem rightNeighbour_spec {x : IavlLeaf × Path} (h : t.rightNeighbour key = some x) :
    x ∈ t.tree.paths iavlLayout ∧ key < x.1.key := by
  obtain ⟨hmem, hgt⟩ := List.mem_filter.mp (List.mem_of_head? h)
  exact ⟨hmem, bytearray.compare_eq_gt.mp (by simpa using hgt)⟩

theorem provedIn_proofOf {x : IavlLeaf × Path} (hx : x ∈ t.tree.paths iavlLayout) :
    ProvedIn t.root (neighbourProof (some x)) ↔ Provable x := proofOf_accepted t.heights hx

theorem not_provedIn_null {root : Bytes} : ¬ ProvedIn root (neighbourProof none) :=
  fun h => h.ne_null rfl

omit [Builtins] in
theorem neighbourProof_ne_null (x : IavlLeaf × Path) :
    neighbourProof (some x) ≠ null_existance_proof := by
  intro h
  have hleaf := congrArg ExistenceProof.leaf h
  exact (specLeaf_header x.1.version).ne_null hleaf

/-- The proof of the neighbours of a missing key is accepted just if they are such that it shows the
absence of the key. -/
theorem absenceProof_accepted_iff (t : IavlTree) (key : Bytes) (habsent : key ∉ t.keys) :
    verify_non_existence_proof (t.absenceProof key) iavl_spec t.root key = some true ↔
      NeighboursShow (t.leftNeighbour key) (t.rightNeighbour key) := by
  have hdivided := paths_divided habsent
  rw [verify_non_existence_iavl, absenceProof]
  cases hleft : t.leftNeighbour key with
  | none =>
    rw [leftNeighbour, List.getLast?_eq_none_iff] at hleft
    rw [hleft, List.nil_append] at hdivided
    cases hright : t.rightNeighbour key with
    | none =>
      simp [not_provedIn_null, NeighboursShow]
    | some r =>
      obtain ⟨hmem, hlt⟩ := rightNeighbour_spec hright
      rw [rightNeighbour, ← hdivided] at hright
      obtain ⟨-, hsides⟩ := Tree.head?_paths.mp hright
      have hpads : (∀ op ∈ (neighbourProof (some r)).path, PadsLeft op) ↔
          ∀ y ∈ r.2, y.2.before.length ≤ 12 := by
        show (∀ op ∈ opsOf r.2, PadsLeft op) ↔ _
        rw [mem_opsOf]
        refine forall₂_congr fun y hy => ?_
        rw [(taken_of_path hmem y hy).padsLeft, hsides y hy, eq_self, true_and]
      simp only [provedIn_proofOf hmem, hpads, not_provedIn_null, neighbourProof_ne_null, false_and,
        or_false, NeighboursShow]
      constructor
      · rintro ⟨-, hr, -, hnarrow⟩
        exact ⟨hr, hnarrow⟩
      · rintro ⟨hr, hnarrow⟩
        exact ⟨rfl, hr, hlt, hnarrow⟩
  | some l =>
    obtain ⟨hlmem, hgt⟩ := leftNeighbour_spec hleft
    cases hright : t.rightNeighbour key with
    | none =>
      rw [rightNeighbour, List.head?_eq_none_iff] at hright
      rw [hright, List.append_nil] at hdivided
      rw [leftNeighbour, ← hdivided] at hleft
      obtain ⟨-, hsides⟩ := Tree.getLast?_paths.mp hleft
      have hpads : (∀ op ∈ (neighbourProof (some l)).path, PadsRight op) ↔
          ∀ y ∈ l.2, y.2.before.length ≤ 45 := by
        show (∀ op ∈ opsOf l.2, PadsRight op) ↔ _
        rw [mem_opsOf]
        refine forall₂_congr fun y hy => ?_
        rw [(taken_of_path hlmem y hy).padsRight, hsides y hy, eq_self, true_and]
      simp only [provedIn_proofOf hlmem, hpads, not_provedIn_null, neighbourProof_ne_null,
        false_and, and_false, or_false, false_or, NeighboursShow]
      constructor
      · rintro ⟨-, hl, -⟩
        exact hl
      · intro hl
        exact ⟨rfl, hl, hgt, hl.2.2⟩
    | some r =>
      obtain ⟨hrmem, hlt⟩ := rightNeighbour_spec hright
      have hnext : Next (t.tree.paths iavlLayout) l r := by
        rw [hdivided]
        exact Next.between hleft hright
      have hneighbor : is_left_neighbor iavlInner (neighbourProof (some l)).path
          (neighbourProof (some r)).path = some true ↔
            (2 ≤ l.2.length ∧ 2 ≤ r.2.length) ∧ Narrow l.2 r.2 := by
        show is_left_neighbor iavlInner (opsOf l.2) (opsOf r.2) = some true ↔ _
        rw [is_left_neighbor_iff hlmem hrmem]
        exact ⟨fun h => ⟨h.1, h.2.2⟩, fun h => ⟨h.1, hnext, h.2⟩⟩
      simp only [provedIn_proofOf hlmem, provedIn_proofOf hrmem, hneighbor,
        neighbourProof_ne_null, false_and, false_or, NeighboursShow]
      constructor
      · rintro ⟨hl, hr, -, -, hneighbour⟩
        exact ⟨hl, hr, hneighbour⟩
      · rintro ⟨hl, hr, hneighbour⟩
        exact ⟨hl, hr, hgt, hlt, hneighbour⟩

end IavlTree

end Absence

/-! ## Samples -/

section Sample

local instance absenceBuiltins : Builtins := storeBuiltins

/-- The proof that the store of a small chain has nothing before its only key. -/
def missingProof : NonExistenceProof :=
  { key := utf8 "a"
    left := null_existance_proof
    right := proofOf (storedLeaf (utf8 "key") (utf8 "value") length_key) [] }

def oneKey : IavlTree :=
  { tree := .leaf (storedLeaf (utf8 "key") (utf8 "value") length_key)
    heights := trivial
    sorted := List.pairwise_singleton _ _ }

/-- The key is not in the tree, and not in the only store of the chain. -/
theorem nothing_before_the_only_key :
    utf8 "a" ∉ oneKey.keys ∧ (smallChain.Lacks (utf8 "ibc") (utf8 "a") ∨
      ∃ s ∈ smallChain.stores, EndsIn s.name (utf8 "ibc") ∧ s.Lacks (utf8 "a")) :=
  ⟨absence_proofs_sound.1 oneKey (utf8 "a") missingProof (by decide +kernel) (by decide +kernel),
    absence_proofs_sound.2 smallChain (utf8 "ibc") (utf8 "a")
      { proofs := [.Nonexist missingProof,
          .Exist (StoreCommitment.storeProof [] (utf8 "ibc") oneKey.root [])] }
      (by decide +kernel) (by decide +kernel)⟩

/-- A name of 32 bytes. -/
def plainName : Bytes := List.replicate 32 0x61

/-- A chain with a store of that name, and one of a name that is the length 32 and that name. -/
def aliasChain : StoreCommitment :=
  { stores := [smallStore (0x20 :: plainName) (utf8 "key") (utf8 "value") (by decide) length_key,
      smallStore plainName (utf8 "a") (utf8 "value") (by decide) (by decide)]
    sorted := by decide }

/-- The proof that the first store lacks a key is taken for one that the second store does. -/
theorem a_longer_name_shows_a_key_missing :
    CollisionFree aliasChain.hashed ∧
      merkle.verify_non_membership
        { proofs := [.Nonexist missingProof, .Exist
            { key := plainName
              value := oneKey.root
              leaf := { specLeaf with prefixBytes := [0x00, 0x21] }
              path := [{ hash := 1
                         prefixBytes := [0x01]
                         suffix := tmLayout.hash (tmLayout.leaf (plainName,
                           (smallStore plainName (utf8 "a") (utf8 "value") (by decide)
                             (by decide)).root)) }] }] }
        cosmosSpecs { hash := aliasChain.appHash } { key_path := [plainName, utf8 "a"] } =
          some true ∧
      aliasChain.Maps plainName (utf8 "a") (utf8 "value") := by
  decide +kernel

def leafTree (key : Bytes) (key_lt : key.length < 2 ^ 63) : Tree IavlLeaf IavlInner :=
  .leaf (storedLeaf key (utf8 "value") key_lt)

/-- An inner node of the first version. -/
def joined (height size : Nat) (height_pos : 0 < height) (height_lt : height < 2 ^ 7)
    (size_lt : size < 2 ^ 63) (l r : Tree IavlLeaf IavlInner) : Tree IavlLeaf IavlInner :=
  .node { height, size, version := 1, height_pos, height_lt, size_lt,
          version_lt := first_version_lt } l r

def twoKeys : IavlTree :=
  { tree := joined 1 2 (by decide) (by decide) (by decide) (leafTree (utf8 "a") (by decide))
      (leafTree (utf8 "c") (by decide))
    heights := by simp [joined, leafTree, HeightsFall, iavlHeight]
    sorted := by decide }

def fourKeys : IavlTree :=
  { tree := joined 2 4 (by decide) (by decide) (by decide)
      (joined 1 2 (by decide) (by decide) (by decide) (leafTree (utf8 "a") (by decide))
        (leafTree (utf8 "b") (by decide)))
      (joined 1 2 (by decide) (by decide) (by decide) (leafTree (utf8 "d") (by decide))
        (leafTree (utf8 "e") (by decide)))
    heights := by simp [joined, leafTree, HeightsFall, iavlHeight]
    sorted := by decide }

/-- The proof for a key between two neighbours that are not children of the root. -/
theorem a_key_between_four_is_shown_missing :
    verify_non_existence_proof (fourKeys.absenceProof (utf8 "c")) iavl_spec fourKeys.root
      (utf8 "c") = some true :=
  (IavlTree.absenceProof_accepted_iff fourKeys (utf8 "c") (by decide)).mpr (by decide +kernel)

/-- The proof for a key between the only two leaves is refused. -/
theorem a_key_between_two_is_not_shown_missing :
    utf8 "b" ∉ twoKeys.keys ∧ (twoKeys.absenceProof (utf8 "b")).left.path.length = 1 ∧
      (twoKeys.absenceProof (utf8 "b")).right.path.length = 1 ∧
      verify_non_existence_proof (twoKeys.absenceProof (utf8 "b")) iavl_spec twoKeys.root
        (utf8 "b") = some false := by
  decide +kernel

end Sample

end cardano_ibc
