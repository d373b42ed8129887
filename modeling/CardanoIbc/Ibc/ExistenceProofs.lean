-- What an accepted existence proof says (ics23/proof.ak, ics23/ops.ak): a string for a leaf, steps
-- that are as the spec has them, and the root that the steps lead to.
import CardanoIbc.Ibc.Ics23
import CardanoIbc.Library.HashTree

namespace cardano_ibc

open hash_tree

/-- What an inner operation puts around a digest. -/
def stepOf (op : InnerOp) : Step := { before := op.prefixBytes, after := op.suffix }

/-- The inner operation with SHA-256 for a step. -/
def opOf (s : Step) : InnerOp := { hash := 1, prefixBytes := s.before, suffix := s.after }

theorem stepOf_opOf (s : Step) : stepOf (opOf s) = s := rfl

theorem opOf_stepOf {op : InnerOp} (h : op.hash = 1) : opOf (stepOf op) = op := by
  cases op
  cases h
  rfl

theorem map_opOf_stepOf {ops : List InnerOp} (h : ∀ op ∈ ops, op.hash = 1) :
    (ops.map stepOf).map opOf = ops := by
  induction ops with
  | nil => rfl
  | cons op ops ih =>
    rw [List.map_cons, List.map_cons, opOf_stepOf (h op List.mem_cons_self),
      ih fun op' hmem => h op' (List.mem_cons_of_mem _ hmem)]

section Proofs

variable [Builtins]

/-! ## The root of a proof -/

/-- The string that is hashed for the leaf of a proof. -/
def leafString (p : ExistenceProof) : Bytes :=
  p.leaf.prefixBytes ++ (prepare_leaf_data p.leaf.prehash_key p.leaf.length p.key).getD [] ++
    (prepare_leaf_data p.leaf.prehash_value p.leaf.length p.value).getD []

/-- Every string that is hashed to check a proof with SHA-256. -/
def existHashed (p : ExistenceProof) : List Bytes :=
  p.value :: leafString p :: climbed sha2_256 (sha2_256 (leafString p)) (p.path.map stepOf)

/-- The leaf operation of both specs: keys as they are, values by their SHA-256, both after their
length. -/
structure SpecLeaf (op : LeafOp) : Prop where
  hash : op.hash = 1
  prehash_key : op.prehash_key = 0
  prehash_value : op.prehash_value = 1
  length : op.length = 1

omit [Builtins] in
theorem SpecLeaf.ne_null {op : LeafOp} (h : SpecLeaf op) : op ≠ null_leaf_op := by
  rintro rfl
  exact absurd h.hash (by decide)

omit [Builtins] in
theorem encode_varint_32 : encode_varint 32 = some [32] := by decide

theorem prepare_key {op : LeafOp} (hop : SpecLeaf op) (key : Bytes) :
    prepare_leaf_data op.prehash_key op.length key =
      (encode_varint key.length).map (· ++ key) := by
  simp only [prepare_leaf_data, hop.prehash_key, hop.length, do_hash_or_no_op, if_true,
    Option.bind_eq_bind, Option.bind_some, do_length_op]
  cases encode_varint key.length <;> rfl

theorem prepare_value {op : LeafOp} (hop : SpecLeaf op) (value : Bytes) :
    prepare_leaf_data op.prehash_value op.length value = some (32 :: sha2_256 value) := by
  have hlen : ((sha2_256 value).length : Int) = 32 := by
    rw [Builtins.sha2_256_length]
    rfl
  have hhash : do_hash_or_no_op 1 value = some (sha2_256 value) := rfl
  rw [prepare_leaf_data, hop.prehash_value, hop.length, hhash, Option.bind_eq_bind,
    Option.bind_some, do_length_op, hlen, encode_varint_32]
  rfl

theorem leafString_eq {p : ExistenceProof} (hop : SpecLeaf p.leaf) {bz : Bytes}
    (hbz : encode_varint p.key.length = some bz) :
    leafString p = p.leaf.prefixBytes ++ (bz ++ p.key) ++ 32 :: sha2_256 p.value := by
  rw [leafString, prepare_key hop, prepare_value hop, hbz]
  rfl

/-- The digest of a leaf: there is one for a key and a value that are not empty, if the length of
the key can be written. -/
theorem apply_leaf_op_eq_some {p : ExistenceProof} (hop : SpecLeaf p.leaf) {digest : Bytes} :
    apply_leaf_op p.leaf p.key p.value = some digest ↔
      p.key ≠ [] ∧ p.value ≠ [] ∧ (∃ bz, encode_varint p.key.length = some bz) ∧
        digest = sha2_256 (leafString p) := by
  have hhash : ∀ m, do_hash p.leaf.hash m = some (sha2_256 m) := by
    intro m
    rw [hop.hash]
    rfl
  simp only [apply_leaf_op, bind_eq_some, expect_eq_some, decide_eq_true_eq, prepare_key hop,
    prepare_value hop, hhash, Option.map_eq_some_iff, Option.some.injEq]
  constructor
  · rintro ⟨-, hkey, -, hvalue, _, ⟨bz, hbz, rfl⟩, _, rfl, rfl⟩
    refine ⟨List.ne_nil_of_length_pos hkey, List.ne_nil_of_length_pos hvalue, ⟨bz, hbz⟩, ?_⟩
    rw [leafString_eq hop hbz]
  · rintro ⟨hkey, hvalue, ⟨bz, hbz⟩, rfl⟩
    refine ⟨(), List.length_pos_iff.mpr hkey, (), List.length_pos_iff.mpr hvalue, _,
      ⟨bz, hbz, rfl⟩, _, rfl, ?_⟩
    rw [leafString_eq hop hbz]

/-- A spec under which the digests of SHA-256 are of the right size. -/
def FitsDigests (spec : ProofSpec) : Prop :=
  spec = null_proof_spec ∨ 32 ≤ spec.inner_spec.child_size

/-- The operations of a path are steps of a climb. -/
theorem fold_inner_ops {spec : ProofSpec} (hspec : FitsDigests spec) {ops : List InnerOp}
    (hops : ∀ op ∈ ops, op.hash = 1) {digest : Bytes} (hdigest : digest.length = 32) :
    ops.foldlM (fun accum_res step => do
      let temp_accum_res ← apply_inner_op step accum_res
      expect (spec == null_proof_spec ||
        !(temp_accum_res.length > spec.inner_spec.child_size && spec.inner_spec.child_size ≥ 32))
      return temp_accum_res) digest = some (climb sha2_256 digest (ops.map stepOf)) := by
  induction ops generalizing digest with
  | nil => rfl
  | cons op ops ih =>
    have hop : apply_inner_op op digest = some (sha2_256 ((stepOf op).wrap digest)) := by
      simp only [apply_inner_op, hops op List.mem_cons_self, bind_eq_some, expect_eq_some,
        decide_eq_true_eq]
      exact ⟨(), by omega, rfl⟩
    have hlen := Builtins.sha2_256_length ((stepOf op).wrap digest)
    have hsize : (spec == null_proof_spec || !(decide (((sha2_256 ((stepOf op).wrap digest)).length
        : Int) > spec.inner_spec.child_size) && decide (spec.inner_spec.child_size ≥ 32))) =
        true := by
      rw [hlen]
      rcases hspec with rfl | hspec
      · rfl
      · have hnot : ¬ ((32 : Nat) : Int) > spec.inner_spec.child_size := by omega
        rw [decide_eq_false hnot]
        simp
    rw [List.foldlM_cons, hop, Option.bind_eq_bind, Option.bind_some, hsize]
    exact ih (fun op hmem => hops op (List.mem_cons_of_mem _ hmem)) hlen

theorem calculate_exist_internal_eq_some {p : ExistenceProof} {spec : ProofSpec}
    (hspec : FitsDigests spec) (hop : SpecLeaf p.leaf) (hops : ∀ op ∈ p.path, op.hash = 1)
    {root : Bytes} :
    calculate_exist_internal p spec = some root ↔
      p.key ≠ [] ∧ p.value ≠ [] ∧ (∃ bz, encode_varint p.key.length = some bz) ∧
        root = climb sha2_256 (sha2_256 (leafString p)) (p.path.map stepOf) := by
  have hfold := fold_inner_ops hspec hops (Builtins.sha2_256_length (leafString p))
  simp only [calculate_exist_internal, bind_eq_some, expect_eq_some, bne_iff_ne,
    apply_leaf_op_eq_some hop]
  constructor
  · rintro ⟨-, -, _, ⟨hkey, hvalue, hbz, rfl⟩, h⟩
    exact ⟨hkey, hvalue, hbz, (Option.some.inj (hfold.symm.trans h)).symm⟩
  · rintro ⟨hkey, hvalue, hbz, rfl⟩
    exact ⟨(), hop.ne_null, _, ⟨hkey, hvalue, hbz, rfl⟩, hfold⟩

/-! ## The shape of a proof -/

/-- The longest prefix an inner operation may have. -/
def maxOpPrefixLength (spec : ProofSpec) : Int :=
  (spec.inner_spec.child_order.length - 1) * spec.inner_spec.child_size +
    spec.inner_spec.max_prefix_length

/-- The operations from a layer up are as the spec has them. -/
def ChecksOps (spec : ProofSpec) : Int → List InnerOp → Prop
  | _, [] => True
  | layer, op :: ops =>
    check_against_spec_inner_op op spec layer spec.inner_spec (maxOpPrefixLength spec)
      (spec == iavl_spec) = some true ∧ ChecksOps spec (layer + 1) ops

omit [Builtins] in
theorem fold_checks_ops {spec : ProofSpec} {layer : Int} {ops : List InnerOp} :
    (∃ out, ops.foldlM (fun (accum_layer_num : Int) inner => do
      expect (← check_against_spec_inner_op inner spec accum_layer_num spec.inner_spec
        (maxOpPrefixLength spec) (spec == iavl_spec))
      return accum_layer_num + 1) layer = some out) ↔ ChecksOps spec layer ops := by
  induction ops generalizing layer with
  | nil => simp [ChecksOps]
  | cons op ops ih =>
    rw [ChecksOps, ← ih]
    simp only [List.foldlM_cons, bind_eq_some, expect_eq_some, pure_eq_some]
    constructor
    · rintro ⟨out, _, ⟨_, hop, -, rfl, rfl⟩, hrest⟩
      exact ⟨hop, out, hrest⟩
    · rintro ⟨hop, out, hrest⟩
      exact ⟨out, _, ⟨true, hop, (), rfl, rfl⟩, hrest⟩

omit [Builtins] in
theorem ChecksOps.append {spec : ProofSpec} {layer : Int} {ops ops' : List InnerOp} :
    ChecksOps spec layer (ops ++ ops') ↔
      ChecksOps spec layer ops ∧ ChecksOps spec (layer + ops.length) ops' := by
  induction ops generalizing layer with
  | nil => simp [ChecksOps]
  | cons op ops ih =>
    have hlayer : layer + 1 + (ops.length : Int) = layer + ((op :: ops).length : Nat) := by
      rw [List.length_cons]
      omega
    rw [List.cons_append, ChecksOps, ih, hlayer, ChecksOps, and_assoc]

omit [Builtins] in
/-- What is checked of the shape of a proof under the two specs of a Cosmos store. -/
theorem check_against_spec_eq_true {p : ExistenceProof} {spec : ProofSpec}
    (hspec : spec = iavl_spec ∨ spec = tendermint_spec) :
    check_against_spec p spec = some true ↔ p.leaf ≠ null_leaf_op ∧
      check_against_spec_leaf_op p.leaf spec (spec == iavl_spec) = some true ∧
      p.path.length ≤ 128 ∧ ChecksOps spec 1 p.path := by
  have hnull : spec ≠ null_proof_spec ∧ spec.leaf_spec ≠ null_leaf_op ∧
      spec.inner_spec ≠ null_inner_spec ∧ spec.min_depth = 0 ∧ maxDepth spec = 128 := by
    rcases hspec with rfl | rfl <;> decide
  obtain ⟨hspec, hleaf, hinner, hmin, hmax⟩ := hnull
  simp only [check_against_spec, bind_eq_some, expect_eq_some, bne_iff_ne, hmin, hmax,
    pure_eq_some, ← fold_checks_ops]
  constructor
  · rintro ⟨-, -, -, -, -, hop, _, hchecked, -, rfl, -, -, -, hlength, -, -, layers, hlayers, -⟩
    exact ⟨hop, hchecked, by simpa using hlength, layers, hlayers⟩
  · rintro ⟨hop, hchecked, hlength, layers, hlayers⟩
    exact ⟨(), hspec, (), hleaf, (), hop, true, hchecked, (), rfl, (), by simp, (),
      by simpa using hlength, (), hinner, layers, hlayers, trivial⟩

theorem verify_existence_proof_eq_true {p : ExistenceProof} {spec : ProofSpec}
    {root key value : Bytes} :
    verify_existence_proof p spec root key value = some true ↔
      check_against_spec p spec = some true ∧ key = p.key ∧ value = p.value ∧
        calculate_exist_internal p spec = some root := by
  simp only [verify_existence_proof, and_accepts, pure_eq_some, beq_iff_eq, bind_eq_some]
  constructor
  · rintro ⟨hcheck, hkey, hvalue, _, hroot, rfl⟩
    exact ⟨hcheck, hkey, hvalue, hroot⟩
  · rintro ⟨hcheck, hkey, hvalue, hroot⟩
    exact ⟨hcheck, hkey, hvalue, root, hroot, rfl⟩

end Proofs

end cardano_ibc
