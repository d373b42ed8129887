-- Chained proofs that a key is in a store (merkle.ak): which of them are accepted against the app
-- hash of a chain, and where what they show is so.
import CardanoIbc.Ibc.AppHash
import CardanoIbc.Library.Sha256

namespace cardano_ibc

open hash_tree

section Chains

variable [Builtins]

/-! ## The links of a chain -/

/-- The specs of a Cosmos store: the tree of the store, and the tree of the stores. -/
def cosmosSpecs : List ProofSpec := [iavl_spec, tendermint_spec]

/-- What an accepted proof is made of, under either spec. -/
theorem verified_parts {p : ExistenceProof} {spec : ProofSpec} {root key value : Bytes}
    (hspec : spec = iavl_spec ∨ spec = tendermint_spec)
    (h : verify_existence_proof p spec root key value = some true) :
    SpecLeaf p.leaf ∧ (∀ op ∈ p.path, op.hash = 1) ∧ FitsDigests spec := by
  obtain ⟨hcheck, -⟩ := verify_existence_proof_eq_true.mp h
  obtain ⟨-, hleaf, -, hops⟩ := (check_against_spec_eq_true hspec).mp hcheck
  rcases hspec with rfl | rfl
  · exact ⟨(check_leaf_iavl.mp hleaf).1, fun op hmem => (hops.iavlSteps (by decide) op hmem).1,
      .inr (by decide)⟩
  · exact ⟨(check_leaf_tm.mp hleaf).1, fun op hmem => (checksOps_tm.mp hops op hmem).1,
      .inr (by decide)⟩

/-- The root of an accepted proof is the one computed without a spec. -/
theorem calculate_of_verified {p : ExistenceProof} {spec : ProofSpec} {root key value : Bytes}
    (hspec : spec = iavl_spec ∨ spec = tendermint_spec)
    (h : verify_existence_proof p spec root key value = some true) :
    calculate_exist p = some root := by
  obtain ⟨hop, hops, hfits⟩ := verified_parts hspec h
  obtain ⟨-, -, -, hroot⟩ := verify_existence_proof_eq_true.mp h
  rw [calculate_exist, calculate_exist_internal_eq_some (.inl rfl) hop hops]
  exact (calculate_exist_internal_eq_some hfits hop hops).mp hroot

theorem ics23.verify_membership_exist {spec : ProofSpec} {root key value : Bytes}
    {p : ExistenceProof} :
    ics23.verify_membership spec root (.Exist p) key value = some true ↔
      p ≠ null_existance_proof ∧ verify_existence_proof p spec root key value = some true := by
  have hnull : (CommitmentProof.Exist p != null_commitment_proof) = true ↔
      p ≠ null_existance_proof := by
    simp [null_commitment_proof]
  simp only [ics23.verify_membership, bind_eq_some, expect_eq_some, hnull, bne_iff_ne]
  constructor
  · rintro ⟨-, hp, -, hkey, h⟩
    by_cases hsame : p.key = key
    · rw [if_pos hsame] at h
      exact ⟨hp, h⟩
    · rw [if_neg hsame] at hkey
      exact absurd rfl hkey
  · rintro ⟨hp, h⟩
    obtain ⟨-, hkey, -⟩ := verify_existence_proof_eq_true.mp h
    rw [if_pos hkey.symm]
    exact ⟨(), hp, (), hp, h⟩

/-- A link of the chain that is an existence proof: it proves what the link before it came to. -/
theorem chainStep_exist {specs : List ProofSpec} {keys : MerklePath} {value : Bytes} {index : Nat}
    {accum : Bytes × Nat} {p : ExistenceProof} {spec : ProofSpec} {key : Bytes}
    (hspec : spec = iavl_spec ∨ spec = tendermint_spec) (hat : specs[accum.2]? = some spec)
    (hkey : merkle.get_key keys (keys.key_path.length - 1 - accum.2) = some key)
    (hindex : index ≤ accum.2) {out : Bytes × Nat} :
    merkle.chainStep specs keys value index accum (.Exist p) = some out ↔
      verify_existence_proof p spec out.1 key accum.1 = some true ∧ out.2 = accum.2 + 1 := by
  have hnot : ¬ accum.2 < index := by omega
  simp only [merkle.chainStep, if_neg hnot, bind_eq_some, expect_eq_some, pure_eq_some, hkey, hat,
    Option.some.injEq, exists_eq_left', calculate]
  constructor
  · rintro ⟨root, -, _, h, -, rfl, rfl⟩
    exact ⟨(ics23.verify_membership_exist.mp h).2, rfl⟩
  · rintro ⟨h, hout⟩
    have hne : p ≠ null_existance_proof := by
      rintro rfl
      exact (verified_parts hspec h).1.ne_null rfl
    exact ⟨out.1, calculate_of_verified hspec h, true, ics23.verify_membership_exist.mpr ⟨hne, h⟩,
      (), rfl, Prod.ext rfl hout.symm⟩

theorem verify_chained_membership_proof_eq_true {root : Bytes} {specs : List ProofSpec}
    {proofs : List CommitmentProof} {keys : MerklePath} {value : Bytes} {index : Nat} :
    merkle.verify_chained_membership_proof root specs proofs keys value index = some true ↔
      ∃ i, proofs.foldlM (merkle.chainStep specs keys value index) (value, 0) = some (root, i) := by
  simp only [merkle.verify_chained_membership_proof, bind_eq_some, pure_eq_some, beq_iff_eq,
    bytearray.compare_eq_eq]
  constructor
  · rintro ⟨⟨_, i⟩, h, rfl⟩
    exact ⟨i, h⟩
  · rintro ⟨i, h⟩
    exact ⟨(root, i), h, rfl⟩

/-- The chains that are accepted for a key and a value. A non-existence proof at the front is passed
over, and leaves the value to be proved as it was. -/
theorem verify_membership_cosmos {proof : MerkleProof} {root : MerkleRoot}
    {name key value : Bytes} :
    merkle.verify_membership proof cosmosSpecs root { key_path := [name, key] } value =
        some true ↔
      root.hash ≠ [] ∧ value ≠ [] ∧
        ((∃ p q sub, proof.proofs = [.Exist p, .Exist q] ∧
            verify_existence_proof p iavl_spec sub key value = some true ∧
            verify_existence_proof q tendermint_spec root.hash name sub = some true) ∨
          (∃ n p, proof.proofs = [.Nonexist n, .Exist p] ∧
            verify_existence_proof p iavl_spec root.hash key value = some true) ∨
          ∃ n n', proof.proofs = [.Nonexist n, .Nonexist n'] ∧ root.hash = value) := by
  have hiavl : ∀ accum : Bytes × Nat, accum.2 = 0 → ∀ p out,
      merkle.chainStep cosmosSpecs { key_path := [name, key] } value 0 accum (.Exist p) =
        some out ↔ verify_existence_proof p iavl_spec out.1 key accum.1 = some true ∧
          out.2 = accum.2 + 1 := by
    rintro ⟨acc, i⟩ rfl p out
    exact chainStep_exist (.inl rfl) rfl rfl (Nat.zero_le _)
  have htm : ∀ accum : Bytes × Nat, accum.2 = 1 → ∀ p out,
      merkle.chainStep cosmosSpecs { key_path := [name, key] } value 0 accum (.Exist p) =
        some out ↔ verify_existence_proof p tendermint_spec out.1 name accum.1 = some true ∧
          out.2 = accum.2 + 1 := by
    rintro ⟨acc, i⟩ rfl p out
    exact chainStep_exist (.inr rfl) rfl rfl (Nat.zero_le _)
  simp only [merkle.verify_membership, bind_eq_some, expect_eq_some, Bool.and_eq_true,
    merkle.validate_verification_args, bne_iff_ne, beq_iff_eq, decide_eq_true_eq,
    verify_chained_membership_proof_eq_true]
  constructor
  · rintro ⟨-, ⟨⟨-, hroot⟩, htwo⟩, -, -, -, hvalue, i, h⟩
    refine ⟨fun hnil => hroot (by rw [hnil]; rfl), List.ne_nil_of_length_pos hvalue, ?_⟩
    obtain ⟨first, second, hproofs⟩ := List.length_eq_two.mp htwo.symm
    rw [hproofs, List.foldlM_cons, bind_eq_some] at h
    obtain ⟨accum, hfirst, h⟩ := h
    rw [List.foldlM_cons, bind_eq_some] at h
    obtain ⟨out, hsecond, h⟩ := h
    cases h
    cases first with
    | Batch => cases hfirst
    | Compressed => cases hfirst
    | Exist p =>
      obtain ⟨hp, hone⟩ := (hiavl (value, 0) rfl p accum).mp hfirst
      cases second with
      | Batch => cases hsecond
      | Compressed => cases hsecond
      | Exist q =>
        obtain ⟨hq, -⟩ := (htm accum hone q (root.hash, i)).mp hsecond
        exact .inl ⟨p, q, accum.1, hproofs, hp, hq⟩
      | Nonexist n =>
        rw [merkle.chainStep, hone] at hsecond
        cases hsecond
    | Nonexist n =>
      cases hfirst
      cases second with
      | Batch => cases hsecond
      | Compressed => cases hsecond
      | Exist p =>
        obtain ⟨hp, -⟩ := (hiavl (value, 0) rfl p (root.hash, i)).mp hsecond
        exact .inr (.inl ⟨n, p, hproofs, hp⟩)
      | Nonexist n' =>
        rw [merkle.chainStep, if_pos rfl, Option.some.injEq, Prod.mk.injEq] at hsecond
        exact .inr (.inr ⟨n, n', hproofs, hsecond.1.symm⟩)
  · rintro ⟨hroot, hvalue, h⟩
    have hchain : proof.proofs.length = 2 ∧ ∃ i, proof.proofs.foldlM (merkle.chainStep cosmosSpecs
        { key_path := [name, key] } value 0) (value, 0) = some (root.hash, i) := by
      rcases h with ⟨p, q, sub, hproofs, hp, hq⟩ | ⟨n, p, hproofs, hp⟩ | ⟨n, n', hproofs, rfl⟩
      · have hfirst := (hiavl (value, 0) rfl p (sub, 1)).mpr ⟨hp, rfl⟩
        have hsecond := (htm (sub, 1) rfl q (root.hash, 2)).mpr ⟨hq, rfl⟩
        refine ⟨by rw [hproofs]; rfl, 2, ?_⟩
        rw [hproofs, List.foldlM_cons, hfirst, Option.bind_eq_bind, Option.bind_some,
          List.foldlM_cons, hsecond]
        rfl
      · have hsecond := (hiavl (value, 0) rfl p (root.hash, 1)).mpr ⟨hp, rfl⟩
        have hfirst : merkle.chainStep cosmosSpecs { key_path := [name, key] } value 0 (value, 0)
            (.Nonexist n) = some (value, 0) := rfl
        refine ⟨by rw [hproofs]; rfl, 1, ?_⟩
        rw [hproofs, List.foldlM_cons, hfirst, Option.bind_eq_bind, Option.bind_some,
          List.foldlM_cons, hsecond]
        rfl
      · rw [hproofs]
        exact ⟨rfl, 0, rfl⟩
    refine ⟨(), ⟨⟨?_, ?_⟩, hchain.1.symm⟩, (), rfl, (), List.length_pos_iff.mpr hvalue, hchain.2⟩
    · intro hnil
      rw [hnil] at hchain
      exact absurd hchain.1 (by decide)
    · exact fun hnil => hroot (List.length_eq_zero_iff.mp hnil)

/-- The strings hashed for the existence proofs of a chain. -/
def chainHashed (proofs : List CommitmentProof) : List Bytes :=
  proofs.flatMap fun
    | .Exist p => existHashed p
    | _ => []

/-! ## Proofs that a chain can give -/

theorem CollisionFree.subset {xs ys : List Bytes} (h : CollisionFree xs)
    (hsub : ∀ m ∈ ys, m ∈ xs) : CollisionFree ys :=
  fun m hm m' hm' heq => h m (hsub m hm) m' (hsub m' hm') heq

/-- A store can prove that it maps a key to a value: neither is empty, and no prefix on the way down
to the leaf is too long for the spec. -/
def CosmosStore.Proves (s : CosmosStore) (key value : Bytes) : Prop :=
  ∃ t a path, s.tree = some t ∧ (a, path) ∈ t.tree.paths iavlLayout ∧ a.key = key ∧
    a.value = value ∧ key ≠ [] ∧ value ≠ [] ∧ ∀ x ∈ path, x.2.before.length ≤ 45

namespace CosmosStore

variable {s : CosmosStore} {key value : Bytes}

theorem Proves.maps (h : s.Proves key value) : s.Maps key value := by
  obtain ⟨t, a, path, ht, hmem, hkey, hvalue, -⟩ := h
  refine ⟨a, ?_, hkey, hvalue⟩
  rw [leaves, ht]
  exact Tree.leaf_of_path hmem

theorem Proves.accepted (h : s.Proves key value) :
    ∃ p, verify_existence_proof p iavl_spec s.root key value = some true ∧
      ∀ m ∈ existHashed p, m ∈ s.hashed := by
  obtain ⟨t, a, path, ht, hmem, rfl, rfl, hkey, hvalue, hlong⟩ := h
  refine ⟨proofOf a path, ?_, ?_⟩
  · rw [root, ht]
    exact (proofOf_accepted t.heights hmem).mpr ⟨hkey, hvalue, hlong⟩
  · intro m hm
    rw [hashed, ht]
    rcases List.mem_cons.mp hm with rfl | hm
    · exact List.mem_append_right _ (List.mem_map.mpr ⟨a, Tree.leaf_of_path hmem, rfl⟩)
    · refine List.mem_append_left _ (climbed_path hmem ?_)
      rw [leafString_proofOf] at hm
      rw [← map_stepOf_opsOf]
      exact hm

/-- What an accepted proof shows, the store can prove. -/
theorem proves_of_proof {p : ExistenceProof}
    (h : verify_existence_proof p iavl_spec s.root key value = some true)
    (free : CollisionFree (s.hashed ++ existHashed p)) : s.Proves key value := by
  obtain ⟨hcheck, hkey, hvalue, hroot⟩ := verify_existence_proof_eq_true.mp h
  obtain ⟨-, hleaf, -, hops⟩ := (check_against_spec_eq_true (.inl rfl)).mp hcheck
  obtain ⟨hop, hhash, hfits⟩ := verified_parts (.inl rfl) h
  obtain ⟨hkeyne, hvaluene, ⟨bz, hbz⟩, hclimb⟩ :=
    (calculate_exist_internal_eq_some hfits hop hhash).mp hroot
  cases htree : s.tree with
  | none =>
    -- the root of an empty store is the hash of nothing
    rw [hashed, htree] at free
    rw [root, htree] at hclimb
    have hstring : leafString p ≠ [] := by
      rw [leafString_eq hop hbz]
      simp
    have hbytes : ∀ op ∈ p.path, op.prefixBytes ≠ [] := fun op hmem =>
      ((hops.iavlSteps (by decide) op hmem).2).ne_nil
    exact absurd hclimb.symm (StoreCommitment.climb_ne_empty hstring hbytes free)
  | some t =>
    rw [root, htree] at h
    rw [hashed, htree] at free
    have hpath := iavl_path_of_proof h (free.subset fun m hm => by
      rcases List.mem_append.mp hm with hm | hm
      · exact List.mem_append_left _ (List.mem_append_left _ hm)
      · exact List.mem_append_right _ hm)
    obtain ⟨a, path, hmem, rfl, hsame, hops'⟩ := hpath
    have hleafmem := Tree.leaf_of_path hmem
    have hvaluemem : value ∈ existHashed p := by
      rw [hvalue]
      exact List.mem_cons_self
    have hsame := free a.value
      (List.mem_append_left _ (List.mem_append_right _ (List.mem_map.mpr ⟨a, hleafmem, rfl⟩)))
      value (List.mem_append_right _ hvaluemem) hsame
    rw [hops'] at hops
    exact ⟨t, a, path, htree, hmem, rfl, hsame, hkey ▸ hkeyne, hvalue ▸ hvaluene,
      (checks_opsOf t.heights hmem).mp hops⟩

end CosmosStore

/-- A name reads as what comes before a key in a leaf of a store: the length of the name as a size,
then a version, then the key. -/
def SpellsKey (name key : Bytes) : Prop :=
  name.length % 2 = 0 ∧ ∃ w z, name = w ++ sized key ∧ read_varint w = some (z, []) ∧ 0 ≤ z

namespace StoreCommitment

variable (c : StoreCommitment)

/-- No name has a byte below that of the space. -/
def Printable : Prop := ∀ s ∈ c.stores, ∀ b ∈ s.name, 0x20 ≤ b

instance : Decidable c.Printable :=
  inferInstanceAs (Decidable (∀ s ∈ c.stores, ∀ b ∈ s.name, 0x20 ≤ b))

/-- The only store of the chain has the value for its root, and its name spells the key. -/
def Spells (key value : Bytes) : Prop :=
  ∃ s, c.stores = [s] ∧ value = s.root ∧ SpellsKey s.name key

/-- Another store proves what is asked of this one, and has a name that ends in its name. -/
def Aliases (name key value : Bytes) : Prop :=
  ∃ s ∈ c.stores, EndsIn s.name name ∧ s.Proves key value ∧ c.Shows s

variable {c}

omit [Builtins] in
theorem Printable.ne_nil (h : c.Printable) {s : CosmosStore} (hs : s ∈ c.stores) {w name : Bytes}
    (hname : s.name = w ++ sized name) : name ≠ [] := by
  rintro rfl
  have hzero : (0 : UInt8) ∈ s.name := by
    rw [hname]
    simp [sized, varint.encode_small]
  exact absurd (h s hs 0 hzero) (by decide)

theorem appHash_eq {t : Tree (Bytes × Bytes) Unit} (ht : c.tree = some t) :
    c.appHash = t.digest tmLayout := by
  rcases c.appHash_cases with ⟨-, hnone, -⟩ | ⟨t', ht', -, happ⟩
  · rw [hnone] at ht
    cases ht
  · rw [ht, Option.some.injEq] at ht'
    rw [happ, ht']

/-- The operations of a way down are as the spec has them. -/
theorem checks_opsOf_tm {t : Tree (Bytes × Bytes) Unit} {a : Bytes × Bytes} {path : Path}
    (hmem : (a, path) ∈ t.paths tmLayout) (layer : Int) :
    ChecksOps tendermint_spec layer (opsOf path) := by
  rw [checksOps_tm]
  intro op hop
  simp only [opsOf, List.mem_reverse, List.mem_map] at hop
  obtain ⟨⟨side, step⟩, hx, rfl⟩ := hop
  obtain ⟨b, other, hstep⟩ := Tree.step_of_path hmem hx
  simp only at hstep
  have hsize : (other.digest tmLayout).length = 32 := other.length_digest
  generalize other.digest tmLayout = digest at hsize hstep
  subst hstep
  cases side with
  | left => simp [opOf, tmLayout, hsize]
  | right => simp [opOf, tmLayout, hsize]

/-- The proof for a store, with bytes of its name in the prefix of the leaf. -/
def storeProof (start name root : Bytes) (path : Path) : ExistenceProof :=
  { key := name
    value := root
    leaf := { specLeaf with prefixBytes := 0 :: start }
    path := opsOf path }

omit [Builtins] in
theorem specLeaf_storeProof (start name root : Bytes) (path : Path) :
    SpecLeaf (storeProof start name root path).leaf := ⟨rfl, rfl, rfl, rfl⟩

/-- A store that is not too deep is proved under its name, and under each that its name ends in. -/
theorem Shows.accepted {s : CosmosStore} (h : c.Shows s) (hs : s ∈ c.stores) {start name : Bytes}
    (hname : start ++ sized name = sized s.name) (hne : name ≠ []) :
    ∃ q, verify_existence_proof q tendermint_spec c.appHash name s.root = some true ∧
      ∀ m ∈ existHashed q, m ∈ c.hashed := by
  obtain ⟨t, path, ht, hmem, hlength⟩ := h
  have hop := specLeaf_storeProof start name s.root path
  have hops := checks_opsOf_tm hmem 1
  have hbz : encode_varint name.length = some (varint.encode name.length) := by
    have hlen := congrArg List.length hname
    have hlt := s.name_lt
    have hten : (varint.encode s.name.length).length ≤ 9 + 1 := length_encode_le (by omega)
    simp only [sized, List.length_append] at hlen
    exact encode_varint_eq _ (by omega)
  have hstring : leafString (storeProof start name s.root path) =
      tmLayout.leaf (s.name, s.root) := by
    rw [leafString_eq hop hbz]
    show 0 :: start ++ sized name ++ 32 :: sha2_256 s.root = _
    rw [List.cons_append, hname]
    rfl
  have hclimb : climb sha2_256 (sha2_256 (leafString (storeProof start name s.root path)))
      ((opsOf path).map stepOf) = c.appHash := by
    rw [hstring, map_stepOf_opsOf, appHash_eq ht]
    exact climb_path hmem
  refine ⟨storeProof start name s.root path, ?_, ?_⟩
  · rw [verify_existence_proof_eq_true, check_against_spec_eq_true (.inr rfl),
      calculate_exist_internal_eq_some (.inr (by decide)) hop
        fun op hop => (checksOps_tm.mp hops op hop).1]
    refine ⟨⟨hop.ne_null, check_leaf_tm.mpr ⟨hop, rfl⟩, ?_, hops⟩, rfl, rfl, hne, s.root_ne_nil,
      ⟨_, hbz⟩, hclimb.symm⟩
    show (opsOf path).length ≤ 128
    rwa [length_opsOf]
  · intro m hm
    rcases List.mem_cons.mp hm with rfl | hm
    · exact root_hashed hs
    · rw [hashed, ht]
      refine List.mem_append_left _ (climbed_path hmem ?_)
      rw [hstring] at hm
      rw [← map_stepOf_opsOf]
      exact hm

/-! ## A leaf of the tree of stores as a leaf of a store -/

omit [Builtins] in
theorem read_varint_sized {name rest : Bytes} {y : Int}
    (h : read_varint (sized name) = some (y, rest)) (hy : 0 ≤ y) :
    name.length % 2 = 0 ∧ rest = name := by
  rw [sized, read_varint, read_uvarint_encode, Option.bind_eq_bind, Option.bind_some,
    pure_eq_some, Prod.mk.injEq] at h
  obtain ⟨hvalue, rfl⟩ := h
  refine ⟨?_, rfl⟩
  by_contra hodd
  rw [if_pos hodd] at hvalue
  omega

/-- The string at the top of the tree of stores starts as a leaf or as an inner node of it. -/
theorem head?_top (t : Tree (Bytes × Bytes) Unit) :
    (∃ a, t = .leaf a ∧ (t.top tmLayout).head? = some 0) ∨ (t.top tmLayout).head? = some 1 := by
  cases t with
  | leaf a => exact .inl ⟨a, rfl, rfl⟩
  | node b l r => exact .inr rfl

/-- A proof of a store that is accepted against the app hash takes the leaf of the only store for a
leaf of that store. -/
theorem spells_of_proof {p : ExistenceProof} {key value : Bytes}
    (h : verify_existence_proof p iavl_spec c.appHash key value = some true)
    (free : CollisionFree (c.hashed ++ existHashed p)) : c.Spells key value := by
  obtain ⟨hcheck, rfl, rfl, hroot⟩ := verify_existence_proof_eq_true.mp h
  obtain ⟨-, hleaf, -, hops⟩ := (check_against_spec_eq_true (.inl rfl)).mp hcheck
  obtain ⟨hop, hzero, x, y, z, ⟨r, r', hx, hr, hr'⟩, -, hy, hz⟩ := check_leaf_iavl.mp hleaf
  have hsteps := hops.iavlSteps (by decide)
  obtain ⟨-, -, ⟨bz, hbz⟩, hclimb⟩ := (calculate_exist_internal_eq_some (.inr (by decide)) hop
    fun op hmem => (hsteps op hmem).1).mp hroot
  obtain ⟨start, hstart⟩ := List.head?_eq_some_iff.mp hzero
  have hhead : (leafString p).head? = some 0 := by
    rw [leafString_eq hop hbz, hstart]
    rfl
  have hne : leafString p ≠ [] := by
    intro hnil
    rw [hnil] at hhead
    cases hhead
  rcases c.appHash_cases with ⟨-, hnone, happ⟩ | ⟨t, ht, hleaves, happ⟩
  · have hhashed : c.hashed = [] :: c.stores.flatMap fun s => s.root :: s.hashed := by
      rw [hashed, hnone]
      rfl
    rw [hhashed] at free
    rw [hclimb] at happ
    exact absurd happ (climb_ne_empty hne (fun op hmem => (hsteps op hmem).2.ne_nil) free)
  have htop : t.top tmLayout ∈ c.hashed := by
    rw [hashed, ht]
    exact List.mem_append_left _ t.top_hashed
  rw [happ, Tree.digest] at hclimb
  rcases List.eq_nil_or_concat p.path with hnil | ⟨ops, op, hpath⟩
  · rw [hnil] at hclimb
    have heq := free _ (List.mem_append_left _ htop) (leafString p)
      (List.mem_append_right _ (by simp [existHashed])) hclimb
    rcases head?_top t with ⟨a, rfl, -⟩ | hone
    · -- one store, and its leaf is read as the leaf of a key
      have hentries : c.entries = [a] := hleaves.symm
      obtain ⟨s, hstores, rfl⟩ : ∃ s, c.stores = [s] ∧ (s.name, s.root) = a := by
        rw [entries, List.map_eq_singleton_iff] at hentries
        exact hentries
      have hs : s ∈ c.stores := by
        rw [hstores]
        exact List.mem_singleton_self s
      obtain ⟨hkey, hvalue⟩ := leafString_tm hop hbz s.name_lt heq.symm
      have hvalue := free _ (List.mem_append_right _ List.mem_cons_self) _
        (List.mem_append_left _ (root_hashed hs)) hvalue
      have hzeroread : read_varint (0 :: start) = some (0, start) := rfl
      rw [hstart, hzeroread, Option.some.injEq, Prod.mk.injEq] at hx
      obtain ⟨-, rfl⟩ := hx
      rw [hstart, List.cons_append, List.cons.injEq] at hkey
      have hread := read_varint_append hr (sized p.key)
      rw [hkey.2] at hread
      obtain ⟨heven, hname⟩ := read_varint_sized hread hy
      exact ⟨s, hstores, hvalue, heven, r', z, hname.symm, hr', hz⟩
    · rw [heq, hhead] at hone
      exact absurd hone (by decide)
  · rw [hpath, List.concat_eq_append, List.map_append, List.map_singleton, climb_snoc] at hclimb
    have hmem : (stepOf op).wrap (climb sha2_256 (sha2_256 (leafString p)) (ops.map stepOf)) ∈
        existHashed p := by
      rw [existHashed, hpath, List.concat_eq_append, List.map_append, List.map_singleton,
        climbed_snoc]
      simp
    have heq := free _ (List.mem_append_left _ htop) _ (List.mem_append_right _ hmem) hclimb
    have hstep := (hsteps op (by simp [hpath])).2
    have hhead : (t.top tmLayout).head? = (stepOf op).before.head? := by
      rw [heq, Step.wrap, List.append_assoc, List.head?_append_of_ne_nil _ hstep.ne_nil]
    rcases head?_top t with ⟨a, -, hzero⟩ | hone
    · exact absurd (hhead.symm.trans hzero) hstep.inner
    · exact absurd (hhead.symm.trans hone) hstep.head?_ne_one

/-- The leaf of the only store is accepted as a leaf of it, if its name spells a key. -/
theorem Spells.accepted {key value : Bytes} (h : c.Spells key value) (hprint : c.Printable) :
    ∃ p, verify_existence_proof p iavl_spec c.appHash key value = some true ∧
      ∀ m ∈ existHashed p, m ∈ c.hashed := by
  obtain ⟨s, hstores, rfl, heven, w, z, hname, hread, hz⟩ := h
  have hs : s ∈ c.stores := by
    rw [hstores]
    exact List.mem_singleton_self s
  have hkey : key ≠ [] := hprint.ne_nil hs hname
  have hbz : encode_varint key.length = some (varint.encode key.length) := by
    have hlen := congrArg List.length hname
    have hlt := s.name_lt
    simp only [sized, List.length_append] at hlen
    exact encode_varint_eq _ (by omega)
  have htree : c.tree = some (.leaf (s.name, s.root)) := by
    rw [tree, entries, hstores]
    rfl
  have hop := specLeaf_storeProof (varint.encode s.name.length ++ w) key s.root []
  have hstring : leafString (storeProof (varint.encode s.name.length ++ w) key s.root []) =
      tmLayout.leaf (s.name, s.root) := by
    rw [leafString_eq hop hbz]
    show 0 :: (varint.encode s.name.length ++ w) ++ sized key ++ 32 :: sha2_256 s.root = _
    rw [List.cons_append, List.append_assoc, ← hname]
    rfl
  have hheader : ReadsHeader (0 :: (varint.encode s.name.length ++ w)) 0 (s.name.length / 2 : Nat)
      z [] := by
    have hhalf : 2 * (s.name.length / 2) = s.name.length := by omega
    have hsize := read_varint_encode (s.name.length / 2) w
    rw [hhalf] at hsize
    exact ⟨_, _, rfl, hsize, hread⟩
  refine ⟨storeProof (varint.encode s.name.length ++ w) key s.root [], ?_, ?_⟩
  · rw [verify_existence_proof_eq_true, check_against_spec_eq_true (.inl rfl),
      calculate_exist_internal_eq_some (.inr (by decide)) hop (by simp [storeProof, opsOf]),
      hstring]
    refine ⟨⟨hop.ne_null, check_leaf_iavl.mpr ⟨hop, rfl, 0, _, z, hheader, le_rfl, by omega, hz⟩,
      by simp [storeProof, opsOf], trivial⟩, rfl, rfl, hkey, s.root_ne_nil, ⟨_, hbz⟩, ?_⟩
    rw [appHash_eq htree]
    rfl
  · intro m hm
    rcases List.mem_cons.mp hm with rfl | hm
    · exact root_hashed hs
    · rw [hashed, htree]
      rw [hstring] at hm
      exact List.mem_append_left _ hm

/-! ## The law -/

/-- Whatever chain of proofs is accepted against the app hash, the store of this name maps the key
to the value. -/
def ProvesOnly (c : StoreCommitment) (name key value : Bytes) : Prop :=
  ∀ proof : MerkleProof, CollisionFree (c.hashed ++ chainHashed proof.proofs) →
    merkle.verify_membership proof cosmosSpecs { hash := c.appHash } { key_path := [name, key] }
      value = some true → c.Maps name key value

/-- Proofs are sound for a value that is not the app hash itself, where the names of the stores
leave no other reading. -/
theorem membership_proofs_sound_iff (printable : c.Printable) (free : CollisionFree c.hashed)
    (name key value : Bytes) : c.ProvesOnly name key value ↔
      c.Maps name key value ∨
        (value ≠ c.appHash ∧ ¬ c.Spells key value ∧ ¬ c.Aliases name key value) := by
  have hroot : c.appHash ≠ [] := by
    have hsize := c.length_appHash
    intro hnil
    rw [hnil] at hsize
    cases hsize
  constructor
  · intro hsound
    by_cases hmaps : c.Maps name key value
    · exact .inl hmaps
    refine .inr ⟨?_, ?_, ?_⟩
    · rintro rfl
      -- two non-existence proofs prove the app hash
      refine hmaps (hsound { proofs := [.Nonexist null_non_existance_proof,
        .Nonexist null_non_existance_proof] } (by simpa [chainHashed] using free) ?_)
      exact verify_membership_cosmos.mpr ⟨hroot, hroot, .inr (.inr ⟨_, _, rfl, rfl⟩)⟩
    · intro hspells
      obtain ⟨p, hp, hhashed⟩ := hspells.accepted printable
      refine hmaps (hsound { proofs := [.Nonexist null_non_existance_proof, .Exist p] } ?_ ?_)
      · refine free.subset fun m hm => ?_
        rcases List.mem_append.mp hm with hm | hm
        · exact hm
        · exact hhashed m (by simpa [chainHashed] using hm)
      · obtain ⟨s, -, rfl, -⟩ := hspells
        exact verify_membership_cosmos.mpr ⟨hroot, s.root_ne_nil, .inr (.inl ⟨_, p, rfl, hp⟩)⟩
    · rintro ⟨s, hs, ⟨x, hname⟩, hproves, hshows⟩
      obtain ⟨p, hp, hphashed⟩ := hproves.accepted
      have hlong : (varint.encode s.name.length ++ x) ++ sized name = sized s.name := by
        rw [List.append_assoc, ← hname]
        rfl
      obtain ⟨q, hq, hqhashed⟩ := hshows.accepted hs hlong (printable.ne_nil hs hname)
      refine hmaps (hsound { proofs := [.Exist p, .Exist q] } ?_ ?_)
      · refine free.subset fun m hm => ?_
        rcases List.mem_append.mp hm with hm | hm
        · exact hm
        · simp only [chainHashed, List.flatMap_cons, List.flatMap_nil, List.append_nil,
            List.mem_append] at hm
          rcases hm with hm | hm
          · exact store_hashed hs (hphashed m hm)
          · exact hqhashed m hm
      · obtain ⟨-, -, -, -, -, -, -, -, hvalue, -⟩ := hproves
        exact verify_membership_cosmos.mpr ⟨hroot, hvalue, .inl ⟨p, q, s.root, rfl, hp, hq⟩⟩
  · rintro (hmaps | ⟨hvalue, hspells, haliases⟩) proof hfree haccepted
    · exact hmaps
    obtain ⟨-, -, ⟨p, q, sub, hproofs, hp, hq⟩ | ⟨n, p, hproofs, hp⟩ | ⟨n, n', -, heq⟩⟩ :=
      verify_membership_cosmos.mp haccepted
    · have hsub : ∀ m, m ∈ c.hashed ∨ m ∈ existHashed p ∨ m ∈ existHashed q →
          m ∈ c.hashed ++ chainHashed proof.proofs := by
        intro m hm
        rw [hproofs]
        simpa [chainHashed] using hm
      obtain ⟨s, hs, hname, rfl, hshows⟩ := store_of_proof hq (hfree.subset fun m hm =>
        hsub m ((List.mem_append.mp hm).imp id .inr))
      have hproves := CosmosStore.proves_of_proof hp (hfree.subset fun m hm =>
        hsub m ((List.mem_append.mp hm).imp (store_hashed hs) .inl))
      rcases hname with hname | hends
      · exact ⟨s, hs, hname, hproves.maps⟩
      · exact absurd ⟨s, hs, hends, hproves, hshows⟩ haliases
    · refine absurd (spells_of_proof hp (hfree.subset fun m hm => ?_)) hspells
      rw [hproofs]
      simpa [chainHashed] using hm
    · exact absurd heq.symm hvalue

end StoreCommitment

end Chains

/-! ## A sample chain -/

section Sample

/-- SHA-256 as it is. -/
abbrev storeBuiltins : Builtins where
  sha2_256 := sha256.digest
  sha3_256 := sha256.digest
  blake2b_224 := sha256.digest
  blake2b_256 := sha256.digest
  verify_ed25519_signature _ _ _ := false
  sha2_256_length := sha256.length_digest
  sha2_256_empty := sha256.digest_nil

local instance membershipBuiltins : Builtins := storeBuiltins

theorem first_version_lt : 1 < 2 ^ 63 := by decide

def storedLeaf (key value : Bytes) (key_lt : key.length < 2 ^ 63) : IavlLeaf :=
  { key, value, version := 1, key_lt, version_lt := first_version_lt }

/-- A store with one leaf. -/
def smallStore (name key value : Bytes) (name_lt : name.length < 2 ^ 63)
    (key_lt : key.length < 2 ^ 63) : CosmosStore :=
  { name
    tree := some
      { tree := .leaf (storedLeaf key value key_lt)
        heights := trivial
        sorted := List.pairwise_singleton _ _ }
    name_lt }

theorem length_key : (utf8 "key").length < 2 ^ 63 := by decide

/-- A chain with one store, and one key in it. -/
def smallChain : StoreCommitment :=
  { stores := [smallStore (utf8 "ibc") (utf8 "key") (utf8 "value") (by decide) length_key]
    sorted := List.pairwise_singleton _ _ }

/-- No other value is proved for the key. -/
theorem no_other_value_is_proved :
    smallChain.ProvesOnly (utf8 "ibc") (utf8 "key") (utf8 "other") := by
  refine (StoreCommitment.membership_proofs_sound_iff (by decide +kernel) (by decide +kernel)
    _ _ _).mpr (.inr ⟨by decide +kernel, ?_, ?_⟩)
  · rintro ⟨s, hstores, hvalue, -⟩
    cases hstores
    exact absurd hvalue (by decide +kernel)
  · rintro ⟨s, hs, ⟨x, hname⟩, -⟩
    obtain rfl := List.mem_singleton.mp hs
    have hlength := congrArg List.length hname
    simp only [sized, List.length_append] at hlength
    have hthree : (smallStore (utf8 "ibc") (utf8 "key") (utf8 "value") (by decide)
        (by decide)).name.length = (utf8 "ibc").length := rfl
    have hone := List.length_pos_iff.mpr (encode_ne_nil (utf8 "ibc").length)
    omega

/-- Two non-existence proofs are taken for a proof that the store has the app hash under a key that
it does not have. -/
theorem two_absences_prove_the_app_hash :
    smallChain.Printable ∧ CollisionFree smallChain.hashed ∧ smallChain.appHash.length = 32 ∧
      merkle.verify_membership { proofs := [.Nonexist null_non_existance_proof,
          .Nonexist null_non_existance_proof] } cosmosSpecs { hash := smallChain.appHash }
        { key_path := [utf8 "ibc", utf8 "missing"] } smallChain.appHash = some true ∧
      ¬ smallChain.Maps (utf8 "ibc") (utf8 "missing") smallChain.appHash := by
  decide +kernel

end Sample

end cardano_ibc
