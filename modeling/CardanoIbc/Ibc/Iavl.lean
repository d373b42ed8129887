-- The trees a Cosmos store is kept in (IAVL): how their nodes are written down, and that the proofs
-- accepted under `iavl_spec` against the root of one are the ways down to its leaves.
import CardanoIbc.Ibc.ExistenceProofs

namespace cardano_ibc

open hash_tree

/-! ## Numbers and strings -/

/-- A string after its length. -/
def sized (bz : Bytes) : Bytes := varint.encode bz.length ++ bz

theorem sized_append_inj {x y r s : Bytes} (h : sized x ++ r = sized y ++ s) : x = y ∧ r = s := by
  rw [sized, sized, List.append_assoc, List.append_assoc] at h
  obtain ⟨hlength, hrest⟩ := varint.encode_append_inj h
  exact List.append_inj hrest hlength

theorem read_uvarint_append {bz rest : Bytes} {n : Nat} (h : read_uvarint bz = some (n, rest))
    (more : Bytes) : read_uvarint (bz ++ more) = some (n, rest ++ more) := by
  induction bz generalizing n with
  | nil => cases h
  | cons b bz ih =>
    rw [List.cons_append]
    unfold read_uvarint at h ⊢
    split at h
    · rename_i hlast
      rw [if_pos hlast]
      cases h
      rfl
    · rename_i hmore
      rw [if_neg hmore]
      simp only [bind_eq_some, pure_eq_some, Prod.mk.injEq, Prod.exists] at h ⊢
      obtain ⟨high, rest', hread, rfl, rfl⟩ := h
      exact ⟨high, _, ih hread, rfl, rfl⟩

theorem read_uvarint_encode (n : Nat) (rest : Bytes) :
    read_uvarint (varint.encode n ++ rest) = some (n, rest) := by
  induction n using Nat.strongRecOn with
  | ind n ih =>
    rcases Nat.lt_or_ge n 128 with hn | hn
    · have hbyte : n.toUInt8.toNat = n := varint.toNat_toUInt8 (by omega)
      rw [varint.encode_small hn, List.cons_append, read_uvarint, hbyte, if_pos hn]
      rfl
    · have hbyte : (n % 128 + 128).toUInt8.toNat = n % 128 + 128 :=
        varint.toNat_toUInt8 (by omega)
      have hnot : ¬ n % 128 + 128 < 128 := by omega
      rw [varint.encode_large hn, List.cons_append, read_uvarint, hbyte, if_neg hnot,
        ih (n / 128) (by omega), Option.bind_eq_bind, Option.bind_some]
      have hn : (n % 128 + 128) % 128 + 128 * (n / 128) = n := by omega
      simp only [hn]
      rfl

theorem read_varint_append {bz rest : Bytes} {x : Int} (h : read_varint bz = some (x, rest))
    (more : Bytes) : read_varint (bz ++ more) = some (x, rest ++ more) := by
  simp only [read_varint, bind_eq_some, pure_eq_some, Prod.exists, Prod.mk.injEq] at h ⊢
  obtain ⟨n, _, hread, rfl, rfl⟩ := h
  exact ⟨n, _, read_uvarint_append hread more, rfl, rfl⟩

theorem read_varint_encode (n : Nat) (rest : Bytes) :
    read_varint (varint.encode (2 * n) ++ rest) = some ((n : Int), rest) := by
  have heven : ¬ 2 * n % 2 ≠ 0 := by omega
  have hhalf : 2 * n / 2 = n := by omega
  rw [read_varint, read_uvarint_encode, Option.bind_eq_bind, Option.bind_some]
  simp only [if_neg heven, hhalf]
  rfl

/-! ## The header of a node -/

/-- What a node starts with: its height, its size and its version. -/
def header.bytes (height size version : Nat) : Bytes :=
  varint.encode (2 * height) ++ (varint.encode (2 * size) ++ varint.encode (2 * version))

/-- The three numbers that are read off a string, and what is left of it. -/
def ReadsHeader (bz : Bytes) (height size version : Int) (rest : Bytes) : Prop :=
  ∃ r r', read_varint bz = some (height, r) ∧ read_varint r = some (size, r') ∧
    read_varint r' = some (version, rest)

theorem ReadsHeader.append {bz rest : Bytes} {x y z : Int} (h : ReadsHeader bz x y z rest)
    (more : Bytes) : ReadsHeader (bz ++ more) x y z (rest ++ more) := by
  obtain ⟨r, r', hx, hy, hz⟩ := h
  exact ⟨_, _, read_varint_append hx more, read_varint_append hy more, read_varint_append hz more⟩

theorem ReadsHeader.unique {bz rest rest' : Bytes} {x y z x' y' z' : Int}
    (h : ReadsHeader bz x y z rest) (h' : ReadsHeader bz x' y' z' rest') :
    x = x' ∧ y = y' ∧ z = z' ∧ rest = rest' := by
  obtain ⟨r, s, hx, hy, hz⟩ := h
  obtain ⟨r', s', hx', hy', hz'⟩ := h'
  cases hx.symm.trans hx'
  cases hy.symm.trans hy'
  cases hz.symm.trans hz'
  exact ⟨rfl, rfl, rfl, rfl⟩

theorem readsHeader_bytes (height size version : Nat) (rest : Bytes) :
    ReadsHeader (header.bytes height size version ++ rest) height size version rest := by
  refine ⟨varint.encode (2 * size) ++ (varint.encode (2 * version) ++ rest),
    varint.encode (2 * version) ++ rest, ?_, read_varint_encode _ _, read_varint_encode _ _⟩
  rw [header.bytes, List.append_assoc, List.append_assoc]
  exact read_varint_encode _ _

/-- A string that a header is read off, in a string that starts with a header: it is that header
and what is left of the string. -/
theorem ReadsHeader.split {bz rest more tail : Bytes} {x y z : Int} {height size version : Nat}
    (h : ReadsHeader bz x y z rest)
    (heq : bz ++ more = header.bytes height size version ++ tail) :
    bz = header.bytes height size version ++ rest ∧ rest ++ more = tail := by
  have hread := h.append more
  rw [heq] at hread
  obtain ⟨-, -, -, hrest⟩ := hread.unique (readsHeader_bytes height size version tail)
  refine ⟨?_, hrest⟩
  rw [← hrest, ← List.append_assoc] at heq
  exact List.append_cancel_right heq

theorem validateIavlOps_eq_true {bz : Bytes} {hash b : Int} :
    validateIavlOps bz hash b = some true ↔ ∃ x y z rest, ReadsHeader bz x y z rest ∧
      0 ≤ x ∧ 0 ≤ y ∧ 0 ≤ z ∧ b ≤ x ∧
      (if b = 0 then rest.length = 0 else (rest.length = 1 ∨ rest.length = 34) ∧ hash = 1) := by
  simp only [validateIavlOps, bind_eq_some, expect_eq_some, decide_eq_true_eq, ge_iff_le,
    pure_eq_some, Prod.exists]
  constructor
  · rintro ⟨x, r, hx, -, hx0, y, r', hy, -, hy0, z, rest, hz, -, hz0, -, hb, h⟩
    refine ⟨x, y, z, rest, ⟨r, r', hx, hy, hz⟩, hx0, hy0, hz0, hb, ?_⟩
    split at h
    · rename_i hzero
      rw [if_pos hzero]
      simpa using h
    · rename_i hzero
      rw [if_neg hzero]
      simpa using h
  · rintro ⟨x, y, z, rest, ⟨r, r', hx, hy, hz⟩, hx0, hy0, hz0, hb, h⟩
    refine ⟨x, r, hx, (), hx0, y, r', hy, (), hy0, z, rest, hz, (), hz0, (), hb, ?_⟩
    split at h
    · rename_i hzero
      rw [if_pos hzero]
      simpa using h
    · rename_i hzero
      rw [if_neg hzero]
      simpa using h

theorem head?_encode_ne {n : Nat} (h : n ≠ 0) (rest : Bytes) :
    (varint.encode n ++ rest).head? ≠ some 0 := by
  have hbyte : ∀ m, m < 256 → m ≠ 0 → m.toUInt8 ≠ 0 := by
    intro m hm hne hzero
    exact hne (varint.toUInt8_inj hm (by omega) hzero)
  rcases Nat.lt_or_ge n 128 with hn | hn
  · rw [varint.encode_small hn]
    simpa using hbyte n (by omega) h
  · rw [varint.encode_large hn]
    simpa using hbyte (n % 128 + 128) (by omega) (by omega)

/-! ## Trees -/

structure IavlLeaf where
  key : Bytes
  value : Bytes
  version : Nat
  key_lt : key.length < 2 ^ 63
  version_lt : version < 2 ^ 63
deriving DecidableEq

structure IavlInner where
  height : Nat
  size : Nat
  version : Nat
  height_pos : 0 < height
  height_lt : height < 2 ^ 7
  size_lt : size < 2 ^ 63
  version_lt : version < 2 ^ 63
deriving DecidableEq

def IavlInner.header (b : IavlInner) : Bytes := header.bytes b.height b.size b.version

section Trees

variable [Builtins]

/-- The nodes of an IAVL tree as they are hashed. -/
def iavlLayout : Layout IavlLeaf IavlInner where
  hash := sha2_256
  size := 32
  length_hash := Builtins.sha2_256_length
  leaf a := header.bytes 0 1 a.version ++ (sized a.key ++ 32 :: sha2_256 a.value)
  beside b
    | .left, other => { before := b.header ++ [32], after := 32 :: other }
    | .right, other => { before := b.header ++ 32 :: (other ++ [32]), after := [] }
  agree b l r := by simp [Step.wrap]

/-- A leaf string starts with the height zero. -/
def StartsLeaf (x : Bytes) : Prop := x.head? = some 0

/-- A step with a header that is not the one of a leaf, and the place of one child after it. -/
structure IavlStep (s : Step) : Prop where
  inner : s.before.head? ≠ some 0
  header : ∃ x y z rest, ReadsHeader s.before x y z rest ∧ 0 ≤ x ∧
    (rest.length = 1 ∨ rest.length = 34)

omit [Builtins] in
theorem IavlStep.ne_nil {s : Step} (h : IavlStep s) : s.before ≠ [] := by
  obtain ⟨x, y, z, rest, ⟨r, r', hx, -, -⟩, -, -⟩ := h.header
  rintro hnil
  rw [hnil] at hx
  cases hx

omit [Builtins] in
/-- No step of a store starts as an inner node of the tree of stores does. -/
theorem IavlStep.head?_ne_one {s : Step} (h : IavlStep s) : s.before.head? ≠ some 1 := by
  intro hone
  obtain ⟨rest, hbefore⟩ := List.head?_eq_some_iff.mp hone
  obtain ⟨x, y, z, r, ⟨r', -, hx, -, -⟩, hpos, -⟩ := h.header
  have hread : read_varint (1 :: rest) = some (-1, rest) := rfl
  rw [hbefore, hread, Option.some.injEq, Prod.mk.injEq] at hx
  omega

theorem iavl_separates : Separates iavlLayout StartsLeaf IavlStep where
  leaf_node := by
    rintro x b l r hx rfl
    have hnode : iavlLayout.node b l r = varint.encode (2 * b.height) ++
        (varint.encode (2 * b.size) ++ (varint.encode (2 * b.version) ++
          ([32] ++ l ++ 32 :: r))) := by
      simp [Layout.node, iavlLayout, Step.wrap, IavlInner.header, header.bytes]
    rw [hnode] at hx
    have := b.height_pos
    exact head?_encode_ne (by omega) _ hx
  step_leaf := by
    intro s d a hs heq
    have hleaf : (iavlLayout.leaf a).head? = some 0 := by
      simp [iavlLayout, header.bytes, varint.encode_small]
    rw [← heq, Step.wrap, List.append_assoc, List.head?_append_of_ne_nil _ hs.ne_nil] at hleaf
    exact hs.inner hleaf
  step_node := by
    intro s d b l r hs hd hl hr heq
    obtain ⟨x, y, z, rest, hread, -, hlen⟩ := hs.header
    have hwrap : s.before ++ (d ++ s.after) = b.header ++ ([32] ++ (l ++ 32 :: r)) := by
      simpa [Layout.node, iavlLayout, Step.wrap] using heq
    obtain ⟨hbefore, hrest⟩ := hread.split hwrap
    rcases hlen with hlen | hlen
    · -- one byte is left of the header: the child is the left one
      obtain ⟨hrest, hchild⟩ := List.append_inj hrest hlen
      obtain ⟨hchild, hafter⟩ := List.append_inj hchild (hd.trans hl.symm)
      left
      refine ⟨hchild, ?_⟩
      cases s
      simp_all [iavlLayout, IavlInner.header]
    · -- a whole child is left of it: the child is the right one
      have hsplit : rest ++ (d ++ s.after) = (32 :: (l ++ [32])) ++ (r ++ []) := by
        simpa using hrest
      have hlong : (32 :: (l ++ [32])).length = 34 := by
        have : l.length = 32 := hl
        simp [this]
      obtain ⟨hrest, hchild⟩ := List.append_inj hsplit (hlen.trans hlong.symm)
      obtain ⟨hchild, hafter⟩ := List.append_inj hchild (hd.trans hr.symm)
      right
      refine ⟨hchild, ?_⟩
      cases s
      simp_all [iavlLayout, IavlInner.header]

/-! ## The checks of the spec -/

omit [Builtins] in
theorem has_prefix_zero {bz : Bytes} : has_prefix bz [0] = true ↔ bz.head? = some 0 := by
  cases bz with
  | nil => decide
  | cons b bz => simp [ has_prefix]

omit [Builtins] in
theorem check_leaf_iavl {op : LeafOp} :
    check_against_spec_leaf_op op iavl_spec (iavl_spec == iavl_spec) = some true ↔
      SpecLeaf op ∧ op.prefixBytes.head? = some 0 ∧
        ∃ x y z, ReadsHeader op.prefixBytes x y z [] ∧ 0 ≤ x ∧ 0 ≤ y ∧ 0 ≤ z := by
  have hspec : (iavl_spec == iavl_spec) = true := by decide
  simp only [check_against_spec_leaf_op, hspec, if_true, and_accepts, pure_eq_some,
    Bool.and_eq_true, beq_iff_eq, validate_iavl_ops_leaf_op, validateIavlOps_eq_true]
  constructor
  · rintro ⟨⟨⟨⟨⟨hhash, hkey⟩, hvalue⟩, hlength⟩, hzero⟩, x, y, z, rest, hread, hx, hy, hz, -, hnil⟩
    rw [List.length_eq_zero_iff] at hnil
    subst hnil
    exact ⟨⟨hhash, hkey, hvalue, hlength⟩, has_prefix_zero.mp hzero, x, y, z, hread, hx, hy, hz⟩
  · rintro ⟨⟨hhash, hkey, hvalue, hlength⟩, hzero, x, y, z, hread, hx, hy, hz⟩
    exact ⟨⟨⟨⟨⟨hhash, hkey⟩, hvalue⟩, hlength⟩, has_prefix_zero.mpr hzero⟩, x, y, z, [], hread, hx,
      hy, hz, hx, rfl⟩

omit [Builtins] in
theorem check_inner_iavl {op : InnerOp} {layer : Int} (hlayer : 1 ≤ layer) :
    check_against_spec_inner_op op iavl_spec layer iavl_spec.inner_spec
        (maxOpPrefixLength iavl_spec) (iavl_spec == iavl_spec) = some true ↔
      op.hash = 1 ∧ op.prefixBytes.head? ≠ some 0 ∧ 4 ≤ op.prefixBytes.length ∧
        op.prefixBytes.length ≤ 45 ∧ op.suffix.length % 33 = 0 ∧
        ∃ x y z rest, ReadsHeader op.prefixBytes x y z rest ∧ 0 ≤ y ∧ 0 ≤ z ∧ layer ≤ x ∧
          (rest.length = 1 ∨ rest.length = 34) := by
  have hspec : (iavl_spec == iavl_spec) = true := by decide
  have hmax : maxOpPrefixLength iavl_spec = 45 := by decide
  have hne : ¬ layer = 0 := by omega
  have hzero : (! has_prefix op.prefixBytes [0]) = true ↔ op.prefixBytes.head? ≠ some 0 := by
    rw [ne_eq, ← has_prefix_zero]
    simp
  simp only [check_against_spec_inner_op, hspec, hmax, if_true, and_accepts, pure_eq_some,
    Bool.and_eq_true, beq_iff_eq, decide_eq_true_eq, bind_eq_some, expect_eq_some,
    validate_iavl_ops_inner_op, validateIavlOps_eq_true, if_neg hne]
  constructor
  · rintro ⟨⟨⟨⟨hhash, hleaf⟩, hmin⟩, hlong⟩, ⟨-, -, hsuffix⟩, x, y, z, rest, hread, hx, hy, hz, hb,
      hlen, -⟩
    have hmin : (4 : Int) ≤ op.prefixBytes.length := hmin
    have hsuffix : (op.suffix.length : Int) % 33 = 0 := hsuffix
    exact ⟨hhash, hzero.mp hleaf, by omega, by omega, by omega, x, y, z, rest, hread, hy, hz, hb,
      hlen⟩
  · rintro ⟨hhash, hleaf, hmin, hlong, hsuffix, x, y, z, rest, hread, hy, hz, hb, hlen⟩
    refine ⟨⟨⟨⟨hhash, hzero.mpr hleaf⟩, ?_⟩, by omega⟩, ⟨(), by decide, ?_⟩, x, y, z, rest, hread,
      by omega, hy, hz, hb, hlen, hhash⟩
    · show (4 : Int) ≤ op.prefixBytes.length
      omega
    · show (op.suffix.length : Int) % 33 = 0
      omega

omit [Builtins] in
/-- Operations that are as the spec has them are steps that tell the nodes apart. -/
theorem ChecksOps.iavlSteps {layer : Int} (hlayer : 1 ≤ layer) {ops : List InnerOp}
    (h : ChecksOps iavl_spec layer ops) : ∀ op ∈ ops, op.hash = 1 ∧ IavlStep (stepOf op) := by
  induction ops generalizing layer with
  | nil => simp
  | cons op ops ih =>
    obtain ⟨hop, hops⟩ := h
    obtain ⟨hhash, hleaf, -, -, -, x, y, z, rest, hread, -, -, hx, hlen⟩ :=
      (check_inner_iavl hlayer).mp hop
    intro op' hmem
    rcases List.mem_cons.mp hmem with rfl | hmem
    · exact ⟨hhash, hleaf, x, y, z, rest, hread, by omega, hlen⟩
    · exact ih (by omega) hops op' hmem

/-! ## Accepted proofs -/

omit [Builtins] in
/-- The operations of a way down, from the leaf up. -/
def opsOf (path : Path) : List InnerOp := (path.map fun x => opOf x.2).reverse

omit [Builtins] in
theorem length_encode_le {n k : Nat} (h : n < 128 ^ (k + 1)) :
    (varint.encode n).length ≤ k + 1 := by
  induction k generalizing n with
  | zero =>
    rw [varint.encode_small (by omega)]
    simp
  | succ k ih =>
    rcases Nat.lt_or_ge n 128 with hn | hn
    · rw [varint.encode_small hn]
      simp
    · have hhigh : n / 128 < 128 ^ (k + 1) := by
        rw [Nat.pow_succ] at h
        exact Nat.div_lt_of_lt_mul (by rwa [Nat.mul_comm])
      have := ih hhigh
      rw [varint.encode_large hn, List.length_cons]
      omega

/-- A string for a leaf that is the string of a leaf of the tree is for its key and its value. -/
theorem leafString_inj {p : ExistenceProof} (hop : SpecLeaf p.leaf) {bz : Bytes}
    (hbz : encode_varint p.key.length = some bz) {x y z : Int}
    (hread : ReadsHeader p.leaf.prefixBytes x y z []) {a : IavlLeaf}
    (h : leafString p = iavlLayout.leaf a) :
    p.leaf.prefixBytes = header.bytes 0 1 a.version ∧ p.key = a.key ∧
      sha2_256 p.value = sha2_256 a.value := by
  have heq : p.leaf.prefixBytes ++ (bz ++ (p.key ++ 32 :: sha2_256 p.value)) =
      header.bytes 0 1 a.version ++ (sized a.key ++ 32 :: sha2_256 a.value) := by
    rw [leafString_eq hop hbz] at h
    simpa [iavlLayout] using h
  obtain ⟨hheader, hrest⟩ := hread.split heq
  -- the key of the tree is not too long, so neither is the key of the proof
  have hlong : p.key.length < 2 ^ 70 := by
    have hlength := congrArg List.length hrest
    simp only [sized, List.nil_append, List.length_append, List.length_cons,
      Builtins.sha2_256_length] at hlength
    have hkey := a.key_lt
    have hten : (varint.encode a.key.length).length ≤ 9 + 1 := length_encode_le (by omega)
    omega
  rw [encode_varint_eq _ hlong, Option.some.injEq] at hbz
  subst hbz
  have hkey : sized p.key ++ 32 :: sha2_256 p.value = sized a.key ++ 32 :: sha2_256 a.value := by
    rw [List.nil_append, ← List.append_assoc] at hrest
    exact hrest
  obtain ⟨hkey, hvalue⟩ := sized_append_inj hkey
  exact ⟨by simpa using hheader, hkey, (List.cons.inj hvalue).2⟩

/-- An accepted proof is the way down to a leaf of the tree. -/
theorem iavl_path_of_proof {t : Tree IavlLeaf IavlInner} {p : ExistenceProof} {key value : Bytes}
    (h : verify_existence_proof p iavl_spec (t.digest iavlLayout) key value = some true)
    (free : CollisionFree (t.hashed iavlLayout ++ existHashed p)) :
    ∃ a path, (a, path) ∈ t.paths iavlLayout ∧ a.key = key ∧
      sha2_256 a.value = sha2_256 value ∧
      p.path = opsOf path := by
  obtain ⟨hcheck, rfl, rfl, hroot⟩ := verify_existence_proof_eq_true.mp h
  obtain ⟨-, hleaf, -, hops⟩ := (check_against_spec_eq_true (.inl rfl)).mp hcheck
  obtain ⟨hop, hzero, x, y, z, hread, -, -, -⟩ := check_leaf_iavl.mp hleaf
  have hsteps := hops.iavlSteps (by decide)
  obtain ⟨hkey, hvalue, ⟨bz, hbz⟩, hclimb⟩ := (calculate_exist_internal_eq_some
    (.inr (by decide)) hop fun op hmem => (hsteps op hmem).1).mp hroot
  have hstart : StartsLeaf (leafString p) := by
    cases hbytes : p.leaf.prefixBytes with
    | nil => simp [hbytes] at hzero
    | cons b rest =>
      rw [StartsLeaf, leafString_eq hop hbz, hbytes]
      simpa [hbytes] using hzero
  have inj : Set.InjOn iavlLayout.hash {m | m ∈ t.hashed iavlLayout ∨
      m ∈ leafString p :: climbed iavlLayout.hash (iavlLayout.hash (leafString p))
        (p.path.map stepOf)} := by
    intro m hm m' hm' heq
    refine free m ?_ m' ?_ heq
    · exact List.mem_append.mpr (hm.imp id (List.mem_cons_of_mem _))
    · exact List.mem_append.mpr (hm'.imp id (List.mem_cons_of_mem _))
  have hok : ∀ s ∈ p.path.map stepOf, IavlStep s := by
    intro s hs
    obtain ⟨op, hmem, rfl⟩ := List.mem_map.mp hs
    exact (hsteps op hmem).2
  obtain ⟨a, path, hmem, hstring, hpath⟩ :=
    path_of_climb iavl_separates hstart hok inj hclimb.symm
  obtain ⟨-, hkey, hvalue⟩ := leafString_inj hop hbz hread hstring.symm
  refine ⟨a, path, hmem, hkey.symm, hvalue.symm, ?_⟩
  have hreverse : (path.map fun x => opOf x.2) = ((p.path.map stepOf).map opOf).reverse := by
    rw [← List.map_reverse, ← hpath, List.map_map]
    rfl
  rw [opsOf, hreverse, List.reverse_reverse, map_opOf_stepOf fun op hmem => (hsteps op hmem).1]

/-! ## Proofs of a store -/

omit [Builtins] in
def iavlHeight : Tree IavlLeaf IavlInner → Nat
  | .leaf _ => 0
  | .node b _ _ => b.height

omit [Builtins] in
/-- The heights of the nodes go down towards the leaves. -/
def HeightsFall : Tree IavlLeaf IavlInner → Prop
  | .leaf _ => True
  | .node b l r => iavlHeight l < b.height ∧ iavlHeight r < b.height ∧ HeightsFall l ∧ HeightsFall r

/-- The proof that a store gives for a leaf. -/
def proofOf (a : IavlLeaf) (path : Path) : ExistenceProof :=
  { key := a.key
    value := a.value
    leaf := { specLeaf with prefixBytes := header.bytes 0 1 a.version }
    path := opsOf path }

omit [Builtins] in
theorem length_opsOf (path : Path) : (opsOf path).length = path.length := by simp [opsOf]

omit [Builtins] in
theorem opsOf_cons (x : Side × Step) (path : Path) :
    opsOf (x :: path) = opsOf path ++ [opOf x.2] := by
  simp [opsOf]

omit [Builtins] in
theorem map_stepOf_opsOf (path : Path) : (opsOf path).map stepOf = (path.map Prod.snd).reverse := by
  simp [opsOf, Function.comp_def, stepOf_opOf]

theorem length_path_le {t : Tree IavlLeaf IavlInner} (hfall : HeightsFall t) {a : IavlLeaf}
    {p : Path} (h : (a, p) ∈ t.paths iavlLayout) : p.length ≤ iavlHeight t := by
  induction t generalizing a p with
  | leaf a' =>
    simp only [Tree.paths, List.mem_singleton, Prod.mk.injEq] at h
    simp [h.2]
  | node b l r ihl ihr =>
    obtain ⟨hl, hr, hfl, hfr⟩ := hfall
    rcases Tree.mem_paths_node.mp h with ⟨p', hmem, rfl⟩ | ⟨p', hmem, rfl⟩
    · have := ihl hfl hmem
      simp only [List.length_cons, iavlHeight]
      omega
    · have := ihr hfr hmem
      simp only [List.length_cons, iavlHeight]
      omega

omit [Builtins] in
theorem iavlHeight_lt (t : Tree IavlLeaf IavlInner) : iavlHeight t < 128 := by
  cases t with
  | leaf a => exact Nat.zero_lt_succ _
  | node b l r => exact b.height_lt

omit [Builtins] in
theorem encode_ne_nil (n : Nat) : varint.encode n ≠ [] := by
  rcases Nat.lt_or_ge n 128 with hn | hn
  · simp [varint.encode_small hn]
  · simp [varint.encode_large hn]

omit [Builtins] in
theorem three_le_header (b : IavlInner) : 3 ≤ b.header.length := by
  have hheight := List.length_pos_iff.mpr (encode_ne_nil (2 * b.height))
  have hsize := List.length_pos_iff.mpr (encode_ne_nil (2 * b.size))
  have hversion := List.length_pos_iff.mpr (encode_ne_nil (2 * b.version))
  simp only [IavlInner.header, header.bytes, List.length_append]
  omega

theorem check_beside {b : IavlInner} {side : Side} {other : Bytes} (hother : other.length = 32)
    {layer : Nat} (hlayer : layer + 1 ≤ b.height) :
    check_against_spec_inner_op (opOf (iavlLayout.beside b side other)) iavl_spec (1 + layer)
        iavl_spec.inner_spec (maxOpPrefixLength iavl_spec) (iavl_spec == iavl_spec) = some true ↔
      (iavlLayout.beside b side other).before.length ≤ 45 := by
  have hheader := three_le_header b
  have hhead : ∀ rest, (b.header ++ rest).head? ≠ some 0 := by
    intro rest
    have := b.height_pos
    rw [IavlInner.header, header.bytes, List.append_assoc]
    exact head?_encode_ne (by omega) _
  rw [check_inner_iavl (by omega)]
  constructor
  · rintro ⟨-, -, -, hlong, -⟩
    exact hlong
  · intro hlong
    cases side with
    | left =>
      refine ⟨rfl, hhead _, ?_, hlong, ?_, b.height, b.size, b.version, [32],
        readsHeader_bytes _ _ _ _, by omega, by omega, by omega, .inl rfl⟩
      · simp only [opOf, iavlLayout, List.length_append, List.length_cons, List.length_nil]
        omega
      · simp [opOf, iavlLayout, hother]
    | right =>
      refine ⟨rfl, hhead _, ?_, hlong, ?_, b.height, b.size, b.version, 32 :: (other ++ [32]),
        readsHeader_bytes _ _ _ _, by omega, by omega, by omega, .inr (by simp [hother])⟩
      · simp only [opOf, iavlLayout, List.length_append, List.length_cons]
        omega
      · simp [opOf, iavlLayout]

/-- The operations of a way down are as the spec has them just if none has too long a prefix. -/
theorem checks_opsOf {t : Tree IavlLeaf IavlInner} (hfall : HeightsFall t) {a : IavlLeaf}
    {p : Path} (h : (a, p) ∈ t.paths iavlLayout) :
    ChecksOps iavl_spec 1 (opsOf p) ↔ ∀ x ∈ p, x.2.before.length ≤ 45 := by
  induction t generalizing a p with
  | leaf a' =>
    simp only [Tree.paths, List.mem_singleton, Prod.mk.injEq] at h
    simp [h.2, opsOf, ChecksOps]
  | node b l r ihl ihr =>
    obtain ⟨hl, hr, hfl, hfr⟩ := hfall
    rcases Tree.mem_paths_node.mp h with ⟨p', hmem, rfl⟩ | ⟨p', hmem, rfl⟩
    · have hlength := length_path_le hfl hmem
      rw [opsOf_cons, ChecksOps.append, ihl hfl hmem, length_opsOf, ChecksOps,
        check_beside (Tree.length_digest r) (by omega)]
      simp [ChecksOps, and_comm]
    · have hlength := length_path_le hfr hmem
      rw [opsOf_cons, ChecksOps.append, ihr hfr hmem, length_opsOf, ChecksOps,
        check_beside (Tree.length_digest l) (by omega)]
      simp [ChecksOps, and_comm]

omit [Builtins] in
theorem specLeaf_header (version : Nat) :
    SpecLeaf { specLeaf with prefixBytes := header.bytes 0 1 version } := ⟨rfl, rfl, rfl, rfl⟩

omit [Builtins] in
theorem IavlLeaf.encode_key (a : IavlLeaf) :
    encode_varint a.key.length = some (varint.encode a.key.length) := by
  have hkey := a.key_lt
  exact encode_varint_eq a.key.length (by omega)

theorem leafString_proofOf (a : IavlLeaf) (path : Path) :
    leafString (proofOf a path) = iavlLayout.leaf a := by
  have heq := @leafString_eq _ (proofOf a path) (specLeaf_header a.version) _ a.encode_key
  rw [heq]
  simp [proofOf, iavlLayout, sized]

/-- The proof of a leaf is accepted just if the leaf has a key and a value, and no prefix on the
way down is too long for the spec. -/
theorem proofOf_accepted {t : Tree IavlLeaf IavlInner} (hfall : HeightsFall t) {a : IavlLeaf}
    {p : Path} (h : (a, p) ∈ t.paths iavlLayout) :
    verify_existence_proof (proofOf a p) iavl_spec (t.digest iavlLayout) a.key a.value =
        some true ↔
      a.key ≠ [] ∧ a.value ≠ [] ∧ ∀ x ∈ p, x.2.before.length ≤ 45 := by
  have hop := specLeaf_header a.version
  have hdepth : (opsOf p).length ≤ 128 := by
    have hlength := length_path_le hfall h
    have hheight := iavlHeight_lt t
    rw [length_opsOf]
    omega
  have hhash : ∀ op ∈ (proofOf a p).path, op.hash = 1 := by
    intro op hmem
    simp only [proofOf, opsOf, List.mem_reverse, List.mem_map] at hmem
    obtain ⟨x, -, rfl⟩ := hmem
    rfl
  have hleaf : check_against_spec_leaf_op (proofOf a p).leaf iavl_spec (iavl_spec == iavl_spec) =
      some true := by
    refine check_leaf_iavl.mpr ⟨hop, ?_, 0, 1, a.version, ?_, by omega, by omega, by omega⟩
    · show (header.bytes 0 1 a.version).head? = some 0
      rw [header.bytes, varint.encode_small (by decide)]
      rfl
    · have hread := readsHeader_bytes 0 1 a.version []
      rwa [List.append_nil] at hread
  have hclimb : climb sha2_256 (sha2_256 (leafString (proofOf a p)))
      ((proofOf a p).path.map stepOf) = t.digest iavlLayout := by
    rw [leafString_proofOf]
    show climb sha2_256 _ ((opsOf p).map stepOf) = _
    rw [map_stepOf_opsOf]
    exact climb_path h
  rw [verify_existence_proof_eq_true, check_against_spec_eq_true (.inl rfl),
    calculate_exist_internal_eq_some (.inr (by decide)) hop hhash, hclimb]
  constructor
  · rintro ⟨⟨-, -, -, hops⟩, -, -, hkey, hvalue, -, -⟩
    exact ⟨hkey, hvalue, (checks_opsOf hfall h).mp hops⟩
  · rintro ⟨hkey, hvalue, hlong⟩
    exact ⟨⟨hop.ne_null, hleaf, hdepth, (checks_opsOf hfall h).mpr hlong⟩, rfl, rfl, hkey, hvalue,
      ⟨_, a.encode_key⟩, rfl⟩

end Trees

end cardano_ibc
