-- Proofs against a counterparty's store: ics23/ops.ak, ics23/proof.ak, ics23/ics23.ak,
-- merkle.ak and the two verify functions of client_state.ak.
import CardanoIbc.Ibc.Keys

namespace cardano_ibc

structure InnerOp where
  hash : Int
  prefixBytes : Bytes
  suffix : Bytes
deriving DecidableEq, Repr

structure ExistenceProof where
  key : Bytes
  value : Bytes
  leaf : LeafOp
  path : List InnerOp
deriving DecidableEq, Repr

structure NonExistenceProof where
  key : Bytes
  left : ExistenceProof
  right : ExistenceProof
deriving DecidableEq, Repr

inductive CommitmentProof where
  | Exist (exist : ExistenceProof)
  | Nonexist (non_exist : NonExistenceProof)
  | Batch
  | Compressed
deriving DecidableEq, Repr

structure MerklePath where
  key_path : List Bytes
deriving DecidableEq, Repr

structure MerkleProof where
  proofs : List CommitmentProof
deriving DecidableEq, Repr

structure MerklePrefix where
  key_prefix : Bytes
deriving DecidableEq, Repr

def null_leaf_op : LeafOp :=
  { hash := 0, prehash_key := 0, prehash_value := 0, length := 0, prefixBytes := [] }

def null_inner_spec : InnerSpec :=
  { child_order := [], child_size := 0, min_prefix_length := 0, max_prefix_length := 0
    empty_child := [], hash := 0 }

def null_proof_spec : ProofSpec :=
  { leaf_spec := null_leaf_op, inner_spec := null_inner_spec, max_depth := 0, min_depth := 0
    prehash_key_before_comparison := false }

def null_existance_proof : ExistenceProof :=
  { key := [], value := [], leaf := null_leaf_op, path := [] }

def null_non_existance_proof : NonExistenceProof :=
  { key := [], left := null_existance_proof, right := null_existance_proof }

def null_commitment_proof : CommitmentProof := .Exist null_existance_proof

/-! ## Operations -/

def has_prefix (s start : Bytes) : Bool := s.take start.length == start

/-- `bytearray.compare`: the order of dictionaries. -/
def bytearray.compare : Bytes → Bytes → Ordering
  | [], [] => .eq
  | [], _ :: _ => .lt
  | _ :: _, [] => .gt
  | x :: xs, y :: ys => if x < y then .lt else if y < x then .gt else bytearray.compare xs ys

theorem bytearray.compare_eq_lt {a b : Bytes} : bytearray.compare a b = .lt ↔ a < b := by
  induction a generalizing b with
  | nil => cases b <;> simp [bytearray.compare]
  | cons x xs ih =>
    cases b with
    | nil => simp [bytearray.compare]
    | cons y ys =>
      rw [List.cons_lt_cons_iff, ← ih]
      by_cases hxy : x < y
      · simp [bytearray.compare, hxy]
      · by_cases hyx : y < x
        · have hne : x ≠ y := by
            rintro rfl
            exact hxy hyx
          simp [bytearray.compare, hxy, hyx, hne]
        · have heq : x = y := UInt8.le_antisymm (UInt8.not_lt.mp hyx) (UInt8.not_lt.mp hxy)
          subst heq
          simp [bytearray.compare]

theorem bytearray.compare_eq_gt {a b : Bytes} : bytearray.compare a b = .gt ↔ b < a := by
  rw [← bytearray.compare_eq_lt]
  induction a generalizing b with
  | nil => cases b <;> simp [bytearray.compare]
  | cons x xs ih =>
    cases b with
    | nil => simp [bytearray.compare]
    | cons y ys =>
      by_cases hxy : x < y
      · simp [bytearray.compare, hxy, UInt8.lt_asymm hxy]
      · by_cases hyx : y < x
        · simp [bytearray.compare, hxy, hyx]
        · simpa [bytearray.compare, hxy, hyx] using ih

theorem bytearray.compare_eq_eq {a b : Bytes} : bytearray.compare a b = .eq ↔ a = b := by
  constructor
  · intro h
    have hlt : ¬ a < b := by
      rw [← bytearray.compare_eq_lt, h]
      decide
    have hgt : ¬ b < a := by
      rw [← bytearray.compare_eq_gt, h]
      decide
    exact List.le_antisymm hgt hlt
  · rintro rfl
    cases h : bytearray.compare a a with
    | lt => exact absurd (bytearray.compare_eq_lt.mp h) (List.lt_irrefl a)
    | eq => rfl
    | gt => exact absurd (bytearray.compare_eq_gt.mp h) (List.lt_irrefl a)

/-- `bytearray.slice`: both ends are in it. -/
def bytearray.slice (bz : Bytes) (start «end» : Int) : Bytes :=
  (bz.drop start.toNat).take («end» - start + 1).toNat

/-- `list.slice`: both ends are in it, and one below zero counts from the end of the list. -/
def list.slice {α : Type} (self : List α) («from» «to» : Int) : List α :=
  let i := if «from» ≥ 0 then «from» else self.length + «from»
  let j := if «to» ≥ 0 then «to» - i + 1 else self.length + «to» - i + 1
  (self.drop i.toNat).take j.toNat

/-- `list.at`: there is nothing before the first item. -/
def list.«at» {α : Type} (self : List α) (index : Int) : Option α :=
  if index < 0 then none else self[index.toNat]?

/-- Reads one number off the front and gives what is left; stops where the bytes end. -/
def read_uvarint : Bytes → Option (Nat × Bytes)
  | [] => none
  | b :: rest =>
    if b.toNat < 128 then some (b.toNat, rest)
    else do
      let (more, rest') ← read_uvarint rest
      return (b.toNat % 128 + 128 * more, rest')

def read_varint (r : Bytes) : Option (Int × Bytes) := do
  let (ux, rest) ← read_uvarint r
  let x : Int := (ux / 2 : Nat)
  return (if ux % 2 ≠ 0 then -x - 1 else x, rest)

section Ops

variable [Builtins]

def do_hash (hash_op : Int) (preimage : Bytes) : Option Bytes := do
  expect (hash_op ≥ 0 && hash_op ≤ 9)
  return if hash_op = 1 then sha2_256 preimage else []

def do_hash_or_no_op (hash_op : Int) (preimage : Bytes) : Option Bytes :=
  if hash_op = 0 then some preimage else do_hash hash_op preimage

def do_length_op (length_op : Int) (data : Bytes) : Option Bytes := do
  expect (length_op ≥ 0 && length_op ≤ 8)
  if length_op = 0 then return data
  else if length_op = 1 then return (← encode_varint data.length) ++ data
  else if length_op = 7 then
    expect (data.length == 32)
    return data
  else if length_op = 8 then
    expect (data.length == 64)
    return data
  else return []

def prepare_leaf_data (hash_op length_op : Int) (data : Bytes) : Option Bytes := do
  do_length_op length_op (← do_hash_or_no_op hash_op data)

def apply_leaf_op (op : LeafOp) (key value : Bytes) : Option Bytes := do
  expect (key.length > 0)
  expect (value.length > 0)
  let pkey ← prepare_leaf_data op.prehash_key op.length key
  let pvalue ← prepare_leaf_data op.prehash_value op.length value
  do_hash op.hash (op.prefixBytes ++ pkey ++ pvalue)

def apply_inner_op (op : InnerOp) (child : Bytes) : Option Bytes := do
  expect (child.length > 0)
  do_hash op.hash (op.prefixBytes ++ child ++ op.suffix)

/-- The header an IAVL node carries in its `opPrefix`: a height, a size and a version. The leaf
and the inner checks are this one, with the hash of their own operation. -/
def validateIavlOps (opPrefix : Bytes) (opHash : Int) (b : Int) : Option Bool := do
  let (values_first_ele, r) ← read_varint opPrefix
  expect (values_first_ele ≥ 0)
  let (value2, r) ← read_varint r
  expect (value2 ≥ 0)
  let (value3, r) ← read_varint r
  expect (value3 ≥ 0)
  expect (values_first_ele ≥ b)
  let r2 := r.length
  return if b = 0 then r2 == 0 else (r2 == 1 || r2 == 34) && opHash == 1

def validate_iavl_ops_leaf_op (op : LeafOp) (b : Int) : Option Bool :=
  validateIavlOps op.prefixBytes op.hash b

def validate_iavl_ops_inner_op (op : InnerOp) (b : Int) : Option Bool :=
  validateIavlOps op.prefixBytes op.hash b

def check_against_spec_leaf_op (op : LeafOp) (spec : ProofSpec) (is_iavl_spec : Bool) :
    Option Bool :=
  let lspec := spec.leaf_spec
  pure (op.hash == lspec.hash && op.prehash_key == lspec.prehash_key &&
    op.prehash_value == lspec.prehash_value && op.length == lspec.length &&
    has_prefix op.prefixBytes lspec.prefixBytes) <&&>
  if is_iavl_spec then validate_iavl_ops_leaf_op op 0 else pure true

def check_against_spec_inner_op (op : InnerOp) (spec : ProofSpec) (b : Int)
    (inner_spec : InnerSpec) (max_op_prefix_length : Int) (is_iavl_spec : Bool) : Option Bool :=
  pure (op.hash == inner_spec.hash &&
    ! has_prefix op.prefixBytes spec.leaf_spec.prefixBytes &&
    op.prefixBytes.length ≥ inner_spec.min_prefix_length &&
    op.prefixBytes.length ≤ max_op_prefix_length) <&&>
  (do
    -- the script stops on a division by zero
    expect (inner_spec.child_size != 0)
    return (op.suffix.length : Int) % inner_spec.child_size == 0) <&&>
  if is_iavl_spec then validate_iavl_ops_inner_op op b else pure true

/-! ## Neighbours in a tree -/

def get_position (order : List Int) (branch : Int) : Option Int := do
  expect (!(branch < 0 || branch ≥ order.length))
  (order.idxOf? branch).map fun i => (i : Int)

def get_padding (spec : InnerSpec) (branch : Int) : Option (Int × Int × Int) := do
  let idx ← get_position spec.child_order branch
  let before := idx * spec.child_size
  let suffix := (spec.child_order.length - 1 - idx) * spec.child_size
  return (before + spec.min_prefix_length, before + spec.max_prefix_length, suffix)

def has_padding (op : InnerOp) (padding : Int × Int × Int) : Bool :=
  !(op.prefixBytes.length < padding.1 || op.prefixBytes.length > padding.2.1) &&
    op.suffix.length == padding.2.2

/-- The first branch whose padding the operation has. -/
def order_from_padding (spec : InnerSpec) (inner : InnerOp) : Option Int := do
  let (order, is_find) ← (List.range spec.child_order.length).foldlM (fun acc i => do
    if acc.2 then return acc
    else if has_padding inner (← get_padding spec i) then return ((i : Int), true)
    else return ((0 : Int), false)) (0, false)
  expect is_find
  return order

/-- The branches given are all placeholders in the padding, which starts at `start`. -/
def branchesAreEmpty (spec : InnerSpec) (padding : Bytes) (start branches : Int) : Option Bool :=
  (List.range branches.toNat).allM fun i => do
    let idx ← get_position spec.child_order i
    let «from» := start + idx * spec.child_size
    return spec.empty_child == bytearray.slice padding «from» («from» + spec.child_size - 1)

def left_branches_are_empty (spec : InnerSpec) (op : InnerOp) : Option Bool := do
  let left_branches ← order_from_padding spec op
  let actual_prefix := op.prefixBytes.length - left_branches * spec.child_size
  if left_branches = 0 ∨ actual_prefix < 0 then return false
  else branchesAreEmpty spec op.prefixBytes actual_prefix left_branches

def right_branches_are_empty (spec : InnerSpec) (op : InnerOp) : Option Bool := do
  let right_branches := spec.child_order.length - 1 - (← order_from_padding spec op)
  if right_branches = 0 ∨ (op.suffix.length : Int) ≠ right_branches * spec.child_size then
    return false
  else branchesAreEmpty spec op.suffix 0 right_branches

def is_left_most (spec : InnerSpec) (path : List InnerOp) : Option Bool := do
  let padding ← get_padding spec 0
  path.allM fun step =>
    if has_padding step padding then some true else left_branches_are_empty spec step

def is_right_most (spec : InnerSpec) (path : List InnerOp) : Option Bool := do
  let padding ← get_padding spec (spec.child_order.length - 1)
  path.allM fun step =>
    if has_padding step padding then some true else right_branches_are_empty spec step

def is_left_step (spec : InnerSpec) (left right : InnerOp) : Option Bool := do
  return (← order_from_padding spec right) == (← order_from_padding spec left) + 1

/-- Two paths on the way down from the root: what is left of each, the operations got to, and
whether they are different ones. -/
structure Descent where
  left : List InnerOp
  right : List InnerOp
  opt_top_left : Option InnerOp
  opt_top_right : Option InnerOp
  is_break : Bool
deriving DecidableEq, Repr

/-- What is left of a path once its top operation is taken. -/
def remaining (path : List InnerOp) : List InnerOp :=
  if path.length < 2 then [] else list.slice path 0 (path.length - 2)

def descend (accum : Descent) : Option Descent :=
  if accum.is_break then some accum
  else do
    let t_left ← accum.opt_top_left
    let t_right ← accum.opt_top_right
    if t_left.prefixBytes = t_right.prefixBytes ∧ t_left.suffix = t_right.suffix then
      return { left := remaining accum.left
               right := remaining accum.right
               opt_top_left := list.«at» accum.left (accum.left.length - 1)
               opt_top_right := list.«at» accum.right (accum.right.length - 1)
               is_break := false }
    else return { accum with is_break := true }

def is_left_neighbor (spec : InnerSpec) (left right : List InnerOp) : Option Bool := do
  let accum ← (List.range left.length).foldlM (fun accum _ => descend accum)
    -- the slice of a path of one operation is that path: its end is below zero
    { left := list.slice left 0 (left.length - 2)
      right := list.slice right 0 (right.length - 2)
      opt_top_left := list.«at» left (left.length - 1)
      opt_top_right := list.«at» right (right.length - 1)
      is_break := false }
  let top_left ← accum.opt_top_left
  let top_right ← accum.opt_top_right
  is_left_step spec top_left top_right <&&> is_right_most spec accum.left <&&>
    is_left_most spec accum.right

/-! ## Verification -/

def key_for_comparison (spec : ProofSpec) (key : Bytes) : Option Bytes :=
  if !spec.prehash_key_before_comparison then some key
  else do_hash_or_no_op spec.leaf_spec.prehash_key key

def calculate_exist_internal (p : ExistenceProof) (spec : ProofSpec) : Option Bytes := do
  expect (p.leaf != null_leaf_op)
  let res ← apply_leaf_op p.leaf p.key p.value
  p.path.foldlM (fun accum_res step => do
    let temp_accum_res ← apply_inner_op step accum_res
    expect (spec == null_proof_spec ||
      !(temp_accum_res.length > spec.inner_spec.child_size && spec.inner_spec.child_size ≥ 32))
    return temp_accum_res) res

def calculate_exist (p : ExistenceProof) : Option Bytes :=
  calculate_exist_internal p null_proof_spec

def calculate_non_exist (p : NonExistenceProof) : Option Bytes :=
  if p.left ≠ null_existance_proof then calculate_exist p.left
  else if p.right ≠ null_existance_proof then calculate_exist p.right
  else none

def calculate : CommitmentProof → Option Bytes
  | .Exist exist => calculate_exist exist
  | .Nonexist non_exist => calculate_non_exist non_exist
  | .Batch => some []
  | .Compressed => some []

/-- `default_max_depth`: an unset depth is a cap of 128 steps. -/
def maxDepth (spec : ProofSpec) : Int := if spec.max_depth = 0 then 128 else spec.max_depth

def check_against_spec (p : ExistenceProof) (spec : ProofSpec) : Option Bool := do
  expect (spec != null_proof_spec)
  expect (spec.leaf_spec != null_leaf_op)
  let is_iavl_spec := spec == iavl_spec
  expect (p.leaf != null_leaf_op)
  expect (← check_against_spec_leaf_op p.leaf spec is_iavl_spec)
  expect (!(spec.min_depth > 0 && p.path.length < spec.min_depth))
  expect (p.path.length ≤ maxDepth spec)
  let inner_spec := spec.inner_spec
  expect (inner_spec != null_inner_spec)
  let max_op_prefix_length :=
    (inner_spec.child_order.length - 1) * inner_spec.child_size + inner_spec.max_prefix_length
  let _ ← p.path.foldlM (fun (accum_layer_num : Int) inner => do
    expect (← check_against_spec_inner_op inner spec accum_layer_num inner_spec
      max_op_prefix_length is_iavl_spec)
    return accum_layer_num + 1) 1
  return true

def verify_existence_proof (p : ExistenceProof) (spec : ProofSpec) (root key value : Bytes) :
    Option Bool :=
  check_against_spec p spec <&&> pure (key == p.key) <&&> pure (value == p.value) <&&>
    (do return root == (← calculate_exist_internal p spec))

/-- The key of a neighbour, once it is proved to stand in the tree. No neighbour has no key. -/
def neighbourKey (p : ExistenceProof) (spec : ProofSpec) (root : Bytes) : Option Bytes :=
  if p ≠ null_existance_proof then do
    expect (← verify_existence_proof p spec root p.key p.value)
    return p.key
  else some []

def verify_non_existence_proof (p : NonExistenceProof) (spec : ProofSpec) (root key : Bytes) :
    Option Bool := do
  let left_key ← neighbourKey p.left spec root
  let right_key ← neighbourKey p.right spec root
  let has_left_neighbor := left_key != []
  let has_right_neighbor := right_key != []
  if !has_left_neighbor && !has_right_neighbor then return false
  else
    let comparison_key ← key_for_comparison spec key
    (if !has_right_neighbor then pure true
      else do return bytearray.compare comparison_key (← key_for_comparison spec right_key) == .lt)
      <&&>
    (if !has_left_neighbor then pure true
      else do return bytearray.compare comparison_key (← key_for_comparison spec left_key) == .gt)
      <&&>
    (if !has_left_neighbor then is_left_most spec.inner_spec p.right.path
      else if !has_right_neighbor then is_right_most spec.inner_spec p.left.path
      else is_left_neighbor spec.inner_spec p.left.path p.right.path)

namespace ics23

def verify_membership (spec : ProofSpec) (root : Bytes) (comm_proof : CommitmentProof)
    (key value : Bytes) : Option Bool := do
  expect (comm_proof != null_commitment_proof)
  match comm_proof with
  | .Exist exist =>
    let ep := if exist.key = key then exist else null_existance_proof
    expect (ep != null_existance_proof)
    verify_existence_proof ep spec root key value
  | _ => none

def is_left (spec : ProofSpec) (left : ExistenceProof) (key : Bytes) : Option Bool :=
  if left = null_existance_proof then some true
  else do
    return bytearray.compare (← key_for_comparison spec left.key)
      (← key_for_comparison spec key) == .lt

def is_right (spec : ProofSpec) (right : ExistenceProof) (key : Bytes) : Option Bool :=
  if right = null_existance_proof then some true
  else do
    return bytearray.compare (← key_for_comparison spec right.key)
      (← key_for_comparison spec key) == .gt

def verify_non_membership (spec : ProofSpec) (root : Bytes) (comm_proof : CommitmentProof)
    (key : Bytes) : Option Bool := do
  match comm_proof with
  | .Nonexist non_exist =>
    let between ← is_left spec non_exist.left key <&&> is_right spec non_exist.right key
    let np := if between then non_exist else null_non_existance_proof
    expect (np != null_non_existance_proof)
    verify_non_existence_proof np spec root key
  | _ => none

end ics23

namespace merkle

def new_merkle_path (key_path : List Bytes) : MerklePath := { key_path }

def apply_prefix (start : MerklePrefix) (path : MerklePath) : Option MerklePath := do
  expect (start.key_prefix.length != 0)
  return new_merkle_path (start.key_prefix :: path.key_path)

def get_key (mp : MerklePath) (i : Int) : Option Bytes :=
  if i < 0 then none else mp.key_path[i.toNat]?

/-- One proof of the chain: what it proves is the root of the proof before it. -/
def chainStep (specs : List ProofSpec) (keys : MerklePath) (value : Bytes) (index : Nat)
    (accum : Bytes × Nat) (ele_proof : CommitmentProof) : Option (Bytes × Nat) :=
  match ele_proof with
  | .Exist _ =>
    if accum.2 < index then some (value, index)
    else do
      let temp_accum_subroot ← calculate ele_proof
      let key ← get_key keys (keys.key_path.length - 1 - accum.2)
      let spec_i ← specs[accum.2]?
      expect (← ics23.verify_membership spec_i temp_accum_subroot ele_proof key accum.1)
      return (temp_accum_subroot, accum.2 + 1)
  | .Nonexist _ => if accum.2 = 0 then some (value, index) else none
  | _ => none

def verify_chained_membership_proof (root : Bytes) (specs : List ProofSpec)
    (proofs : List CommitmentProof) (keys : MerklePath) (value : Bytes) (index : Nat) :
    Option Bool := do
  let (subroot, _) ← proofs.foldlM (chainStep specs keys value index) (value, 0)
  return bytearray.compare root subroot == .eq

def validate_verification_args (mr_proof : MerkleProof) (specs : List ProofSpec)
    (root : MerkleRoot) : Bool :=
  mr_proof.proofs != [] && root.hash.length != 0 && specs.length == mr_proof.proofs.length

def verify_membership (mr_proof : MerkleProof) (specs : List ProofSpec) (root : MerkleRoot)
    (path : MerklePath) (value : Bytes) : Option Bool := do
  expect (validate_verification_args mr_proof specs root)
  expect (path.key_path.length == specs.length)
  expect (value.length > 0)
  verify_chained_membership_proof root.hash specs mr_proof.proofs path value 0

def verify_non_membership (mr_proof : MerkleProof) (specs : List ProofSpec) (root : MerkleRoot)
    (path : MerklePath) : Option Bool := do
  expect (validate_verification_args mr_proof specs root)
  expect (path.key_path.length == specs.length)
  let first_ele_proof ← mr_proof.proofs[0]?
  let first_ele_spec ← specs[0]?
  match first_ele_proof with
  | .Nonexist _ =>
    let sub_root ← calculate first_ele_proof
    (do ics23.verify_non_membership first_ele_spec sub_root first_ele_proof
          (← get_key path (path.key_path.length - 1))) <&&>
      verify_chained_membership_proof root.hash specs mr_proof.proofs path sub_root 1
  | _ => none

end merkle

/-! ## Proofs against a consensus state -/

omit [Builtins] in
def verify_delay_period_passed (processed_time processed_height current_time current_height
    delay_time_period delay_block_period : Int) : Bool :=
  delay_time_period ≥ 0 && delay_block_period ≥ 0 &&
    current_time ≥ processed_time + delay_time_period &&
    current_height ≥ processed_height + delay_block_period

/-- What both kinds of proof name: the consensus state at a height, when it was stored, the
delay of the connection, and a path below the store's root. -/
structure VerifyMembershipParams where
  cs : ClientState
  cons_state : ConsensusState
  height : Height
  processed_time : Int
  processed_height : Int
  delay_time_period : Int
  delay_block_period : Int
  proof : MerkleProof
  path : MerklePath
  value : Bytes
deriving DecidableEq, Repr

structure VerifyNonMembershipParams where
  cs : ClientState
  cons_state : ConsensusState
  height : Height
  processed_time : Int
  processed_height : Int
  delay_time_period : Int
  delay_block_period : Int
  proof : MerkleProof
  path : MerklePath
deriving DecidableEq, Repr

def client_state.verify_membership (p : VerifyMembershipParams)
    (current_time current_height : Int) : Option Bool := do
  expect (height.compare p.cs.latest_height p.height != .lt)
  expect (verify_delay_period_passed p.processed_time p.processed_height current_time
    current_height p.delay_time_period p.delay_block_period)
  merkle.verify_membership p.proof p.cs.proof_specs p.cons_state.root p.path p.value

def client_state.verify_non_membership (p : VerifyNonMembershipParams)
    (current_time current_height : Int) : Option Bool := do
  expect (height.compare p.cs.latest_height p.height != .lt)
  expect (verify_delay_period_passed p.processed_time p.processed_height current_time
    current_height p.delay_time_period p.delay_block_period)
  merkle.verify_non_membership p.proof p.cs.proof_specs p.cons_state.root p.path

end Ops

inductive VerifyProofRedeemer where
  | VerifyMembership (params : VerifyMembershipParams)
  | VerifyNonMembership (params : VerifyNonMembershipParams)
  | BatchVerifyMembership (items : List VerifyMembershipParams)
  | VerifyOther
deriving DecidableEq, Repr

end cardano_ibc
