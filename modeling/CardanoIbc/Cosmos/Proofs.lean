-- What the proofs the Cosmos-side client takes say about the map Cardano committed to: a proof is
-- a way up the tree of that map.
import CardanoIbc.Cosmos.Membership
import CardanoIbc.Ibc.StateMap

namespace cardano_ibc.probabilistic

open ibc_state_commitment

section Proofs

variable [Builtins]

/-! ## Proofs as ways up the tree -/

theorem leafHash_eq (key value : Bytes) : leafHash key value = leaf key value := by
  unfold leafHash leaf
  rw [Builtins.sha2_256_empty]
  rfl

theorem innerHash_eq {left right : Bytes} (hleft : left.length = 32)
    (hright : right.length = 32) : innerHash left right = node left right := by
  unfold innerHash node
  rw [if_neg]
  · rfl
  · simp [hleft, hright]

omit [Builtins] in
/-- The step of a proof beside a hash, on the side the key stands. -/
def innerOp (right : Bool) (sibling : Bytes) : InnerOp :=
  if right then { prefixBytes := 1 :: sibling, suffixBytes := [] }
  else { prefixBytes := [1], suffixBytes := sibling }

omit [Builtins] in
/-- The steps of a proof beside some hashes, from a height on. -/
def innerOps (key_hash : Bytes) : Nat → List Bytes → List InnerOp
  | _, [] => []
  | depth, sibling :: rest =>
    innerOp (onRight key_hash depth) sibling :: innerOps key_hash (depth + 1) rest

omit [Builtins] in
/-- The hash a step of a proof stands beside. -/
def InnerOp.sibling (op : InnerOp) : Bytes :=
  if op.suffixBytes = [] then op.prefixBytes.drop 1 else op.suffixBytes

omit [Builtins] in
theorem length_innerOps (key_hash : Bytes) (depth : Nat) (siblings : List Bytes) :
    (innerOps key_hash depth siblings).length = siblings.length := by
  induction siblings generalizing depth with
  | nil => rfl
  | cons s siblings ih => simp [innerOps, ih]

omit [Builtins] in
theorem sibling_innerOp {right : Bool} {s : Bytes} (h : s.length = 32) :
    (innerOp right s).sibling = s := by
  cases right with
  | true => rfl
  | false =>
    refine if_neg ?_
    rintro rfl
    simp at h

omit [Builtins] in
theorem map_sibling_innerOps {key_hash : Bytes} {depth : Nat} {siblings : List Bytes}
    (h : ∀ s ∈ siblings, s.length = 32) :
    (innerOps key_hash depth siblings).map InnerOp.sibling = siblings := by
  induction siblings generalizing depth with
  | nil => rfl
  | cons s siblings ih =>
    rw [List.forall_mem_cons] at h
    rw [innerOps, List.map_cons, sibling_innerOp h.1, ih h.2]

omit [Builtins] in
/-- A step is taken where it has a hash on the other side of the key's. -/
theorem childOrderingFromInnerOp_eq_ok {right : Bool} {op : InnerOp} {pair : Bytes × Bytes} :
    childOrderingFromInnerOp (if right then 1 else 0) op = .ok pair ↔
      op.sibling.length = 32 ∧ op = innerOp right op.sibling ∧
        pair = if right then (op.sibling, []) else ([], op.sibling) := by
  obtain ⟨before, after⟩ := op
  cases right with
  | true =>
    simp only [childOrderingFromInnerOp, if_true, Nat.one_ne_zero, if_false, bind_eq_ok,
      demand_eq_ok, beq_iff_eq, Bool.and_eq_true, List.length_eq_zero_iff, pure_eq_ok, innerOp,
      InnerOp.sibling, InnerOp.mk.injEq]
    constructor
    · rintro ⟨_, rfl, _, ⟨hlength, hhead⟩, rfl⟩
      obtain ⟨tail, rfl⟩ := List.head?_eq_some_iff.mp hhead
      simpa using hlength
    · rintro ⟨hlength, ⟨hbefore, rfl⟩, rfl⟩
      rw [if_pos rfl] at hlength hbefore ⊢
      refine ⟨(), rfl, (), ⟨?_, ?_⟩, rfl⟩
      · rw [hbefore, List.length_cons, hlength]
      · rw [hbefore]
        rfl
  | false =>
    simp only [childOrderingFromInnerOp, Bool.false_eq_true, if_true, if_false, bind_eq_ok,
      demand_eq_ok, beq_iff_eq, pure_eq_ok, innerOp, InnerOp.sibling, InnerOp.mk.injEq]
    constructor
    · rintro ⟨_, rfl, _, hlength, rfl⟩
      have hne : after ≠ [] := by
        rintro rfl
        simp at hlength
      simp [hne, hlength]
    · rintro ⟨hlength, ⟨rfl, hafter⟩, rfl⟩
      rw [← hafter] at hlength ⊢
      exact ⟨(), rfl, (), hlength, rfl⟩

/-- A proof is taken step by step, and leads where its hashes lead. -/
theorem computeRootLoop_eq_ok {key_hash current root : Bytes} {depth : Nat}
    {path : List InnerOp} (hkey : key_hash.length = 32) (hcurrent : current.length = 32)
    (hdepth : depth + path.length ≤ 64) :
    computeRootLoop (index64 key_hash) depth current path = .ok root ↔
      (∀ op ∈ path, op.sibling.length = 32) ∧
        path = innerOps key_hash depth (path.map InnerOp.sibling) ∧
        scheme.climb key_hash depth current (path.map InnerOp.sibling) = root := by
  induction path generalizing depth current with
  | nil => simp [computeRootLoop, innerOps, sparse_tree.Scheme.climb]
  | cons op path ih =>
    rw [List.length_cons] at hdepth
    have hdirection : index64 key_hash / 2 ^ depth % 2 =
        if onRight key_hash depth then 1 else 0 := by
      rw [onRight_eq hkey (by omega)]
      rcases Nat.mod_two_eq_zero_or_one (index64 key_hash / 2 ^ depth) with h | h <;> simp [h]
    simp only [computeRootLoop, hdirection, bind_eq_ok, childOrderingFromInnerOp_eq_ok,
      List.forall_mem_cons, List.map_cons, innerOps, List.cons.injEq, sparse_tree.Scheme.climb]
    have hnext : ∀ beside, op.sibling.length = 32 →
        beside = (if onRight key_hash depth then (op.sibling, []) else ([], op.sibling)) →
        (if (if onRight key_hash depth then 1 else 0) = 0 then innerHash current beside.2
          else innerHash beside.1 current) =
        scheme.node (scheme.pair key_hash depth current op.sibling).1
          (scheme.pair key_hash depth current op.sibling).2 := by
      rintro _ hop rfl
      have hpair : scheme.pair key_hash depth current op.sibling =
        if onRight key_hash depth then (op.sibling, current) else (current, op.sibling) := rfl
      rw [hpair]
      cases onRight key_hash depth
      · exact innerHash_eq hcurrent hop
      · exact innerHash_eq hop hcurrent
    constructor
    · rintro ⟨beside, ⟨hop, hstep, hbeside⟩, hrest⟩
      rw [hnext beside hop hbeside] at hrest
      obtain ⟨hops, hsteps, hclimb⟩ := (ih (length_node _ _) (by omega)).mp hrest
      exact ⟨⟨hop, hops⟩, ⟨hstep, hsteps⟩, hclimb⟩
    · rintro ⟨⟨hop, hops⟩, ⟨hstep, hsteps⟩, hclimb⟩
      refine ⟨_, ⟨hop, hstep, rfl⟩, ?_⟩
      rw [hnext _ hop rfl]
      exact (ih (length_node _ _) (by omega)).mpr ⟨hops, hsteps, hclimb⟩

theorem ComputeRootFromProofPath_eq_ok {key value root : Bytes} {path : List InnerOp} :
    ComputeRootFromProofPath key value path = .ok root ↔
      path.length = 64 ∧ (∀ op ∈ path, op.sibling.length = 32) ∧
        path = innerOps (sha2_256 key) 0 (path.map InnerOp.sibling) ∧
        scheme.climb (sha2_256 key) 0 (leaf key value) (path.map InnerOp.sibling) = root := by
  rw [ComputeRootFromProofPath, bind_eq_ok]
  constructor
  · rintro ⟨_, hlength, hloop⟩
    rw [demand_eq_ok, beq_iff_eq] at hlength
    rw [leafHash_eq] at hloop
    exact ⟨hlength, (computeRootLoop_eq_ok (Builtins.sha2_256_length _) (length_leaf _ _)
      (by omega)).mp hloop⟩
  · rintro ⟨hlength, hpath⟩
    refine ⟨(), by simp [hlength], ?_⟩
    rw [leafHash_eq]
    exact (computeRootLoop_eq_ok (Builtins.sha2_256_length _) (length_leaf _ _)
      (by omega)).mpr hpath

/-- The steps beside the hashes of a map lead from a value to the root of the map that has it. -/
theorem ComputeRootFromProofPath_innerOps {m : StateMap} {key value : Bytes}
    (h : m.standing key = (key, value)) :
    ComputeRootFromProofPath key value (innerOps (sha2_256 key) 0 (m.siblings key)) =
      .ok m.root := by
  have hsized : ∀ s ∈ m.siblings key, s.length = 32 := fun s hs =>
    StateMap.length_of_mem_siblings hs
  rw [ComputeRootFromProofPath_eq_ok, map_sibling_innerOps hsized, length_innerOps,
    StateMap.length_siblings, StateMap.root_eq_climb m key, h]
  refine ⟨rfl, ?_, rfl, rfl⟩
  intro op hop
  have hmem : op.sibling ∈ (innerOps (sha2_256 key) 0 (m.siblings key)).map InnerOp.sibling :=
    List.mem_map_of_mem hop
  rw [map_sibling_innerOps hsized] at hmem
  exact hsized _ hmem

/-! ## Soundness -/

/-- The value a proof leads up from. -/
def committedValue (exist : ExistenceProof) (value : Bytes) : Bytes :=
  if exist.value.isEmpty then value else exist.value

/-- Somebody found no collision to make these steps with. -/
def Unforged (m : StateMap) (key value : Bytes) (path : List InnerOp) : Prop :=
  m.Unforged key value (path.map InnerOp.sibling)

/-- A way up to the root starts at what the map has. -/
theorem standing_of_path {m : StateMap} {key value : Bytes} {path : List InnerOp}
    (hunforged : Unforged m key value path)
    (h : ComputeRootFromProofPath key value path = .ok m.root) :
    m.standing key = (key, value) := by
  obtain ⟨hlength, hsized, -, hclimb⟩ := ComputeRootFromProofPath_eq_ok.mp h
  refine (StateMap.climb_root hunforged ?_ ?_ hclimb).1
  · rw [List.length_map, hlength]
    rfl
  · intro s hs
    obtain ⟨op, hop, rfl⟩ := List.mem_map.mp hs
    exact hsized op hop

theorem VerifyIbcStateMembershipWithExistenceProof_eq_ok {root key value : Bytes}
    {exist : ExistenceProof} {cmp : Bytes → Bytes → Bytes → Except String Unit} :
    VerifyIbcStateMembershipWithExistenceProof root key value exist cmp = .ok () ↔
      (exist.key = [] ∨ exist.key = key) ∧
        (committedValue exist value = value ∨
          cmp key value (committedValue exist value) = .ok ()) ∧
        ComputeRootFromProofPath key (committedValue exist value) exist.path = .ok root := by
  have hkey : (exist.key.isEmpty || exist.key == key) = true ↔
      exist.key = [] ∨ exist.key = key := by
    simp
  have hcommitted : committedValue exist value =
      if exist.value.isEmpty then value else exist.value := rfl
  simp only [VerifyIbcStateMembershipWithExistenceProof, ← hcommitted]
  rw [bind_eq_ok]
  split
  · -- the two values differ and are compared
    rename_i hdiffer
    rw [Bool.and_eq_true, Bool.not_eq_true', bne_iff_ne] at hdiffer
    have hvalue : committedValue exist value = exist.value := by
      rw [hcommitted, if_neg (by simp [hdiffer.1])]
    rw [hvalue]
    simp only [bind_eq_ok, demand_eq_ok, hkey, beq_iff_eq]
    constructor
    · rintro ⟨_, hk, _, hcmp, _, hpath, rfl⟩
      exact ⟨hk, .inr hcmp, hpath⟩
    · rintro ⟨hk, hsame | hcmp, hpath⟩
      · exact absurd hsame hdiffer.2
      · exact ⟨(), hk, (), hcmp, root, hpath, rfl⟩
  · rename_i hsame
    have hvalue : committedValue exist value = value := by
      rw [hcommitted]
      split
      · rfl
      · rename_i hne
        by_contra hdiffer
        exact hsame (by simp [hne, hdiffer])
    rw [hvalue]
    simp only [bind_eq_ok, demand_eq_ok, hkey, beq_iff_eq]
    constructor
    · rintro ⟨_, hk, _, hpath, rfl⟩
      exact ⟨hk, .inl trivial, hpath⟩
    · rintro ⟨hk, -, hpath⟩
      exact ⟨(), hk, root, hpath, rfl⟩

theorem VerifyIbcStateNonMembershipWithNonExistenceProof_eq_ok {root key : Bytes}
    {nonexist : NonExistenceProof} :
    VerifyIbcStateNonMembershipWithNonExistenceProof root key nonexist = .ok () ↔
      (∀ k, nonexist.key = some k → k = key) ∧ ∃ left, nonexist.left = some left ∧
        left.value = [] ∧ ComputeRootFromProofPath key [] left.path = .ok root := by
  have hkey : (nonexist.key.all fun k => k == key) = true ↔
      ∀ k, nonexist.key = some k → k = key := by
    cases nonexist.key <;> simp
  simp only [VerifyIbcStateNonMembershipWithNonExistenceProof, bind_eq_ok, demand_eq_ok,
    present_eq_ok, hkey, List.isEmpty_iff, beq_iff_eq]
  constructor
  · rintro ⟨_, hk, left, hleft, _, hvalue, _, hpath, rfl⟩
    exact ⟨hk, left, hleft, hvalue, hpath⟩
  · rintro ⟨hk, left, hleft, hvalue, hpath⟩
    exact ⟨(), hk, left, hleft, (), hvalue, root, hpath, rfl⟩

/-- What the proofs that are taken for a key and an expected value say, for a map and its root. -/
structure Sound (m : StateMap) (key value : Bytes) : Prop where
  present : ∀ exist cmp, Unforged m key (committedValue exist value) exist.path →
    VerifyIbcStateMembershipWithExistenceProof m.root key value exist cmp = .ok () →
      key ∈ keys m.entries ∧ (m.get key = value ∨ cmp key value (m.get key) = .ok ())
  absent : ∀ nonexist, (∀ left, nonexist.left = some left → Unforged m key [] left.path) →
    VerifyIbcStateNonMembershipWithNonExistenceProof m.root key nonexist = .ok () →
      key ∉ keys m.entries
  notBoth : ∀ exist cmp nonexist, Unforged m key (committedValue exist value) exist.path →
    (∀ left, nonexist.left = some left → Unforged m key [] left.path) →
    VerifyIbcStateMembershipWithExistenceProof m.root key value exist cmp = .ok () →
      VerifyIbcStateNonMembershipWithNonExistenceProof m.root key nonexist ≠ .ok ()

/-- A proof that a key is missing is taken only if it is. -/
theorem absent_of_nonexist {m : StateMap} {key : Bytes} {nonexist : NonExistenceProof}
    (hunforged : ∀ left, nonexist.left = some left → Unforged m key [] left.path)
    (h : VerifyIbcStateNonMembershipWithNonExistenceProof m.root key nonexist = .ok ()) :
    key ∉ keys m.entries := by
  obtain ⟨-, left, hleft, -, hpath⟩ := VerifyIbcStateNonMembershipWithNonExistenceProof_eq_ok.mp h
  rw [← StateMap.get_eq_nil_iff]
  exact StateMap.get_of_standing (standing_of_path (hunforged left hleft) hpath)

/-- A proof that starts from some value is taken only if the map has that value. -/
theorem present_of_exist {m : StateMap} {key value : Bytes} {exist : ExistenceProof}
    {cmp : Bytes → Bytes → Bytes → Except String Unit}
    (hne : committedValue exist value ≠ [])
    (hunforged : Unforged m key (committedValue exist value) exist.path)
    (h : VerifyIbcStateMembershipWithExistenceProof m.root key value exist cmp = .ok ()) :
    key ∈ keys m.entries ∧ (m.get key = value ∨ cmp key value (m.get key) = .ok ()) := by
  obtain ⟨-, hvalue, hpath⟩ := VerifyIbcStateMembershipWithExistenceProof_eq_ok.mp h
  have hget := StateMap.get_of_standing (standing_of_path hunforged hpath)
  constructor
  · by_contra habsent
    rw [StateMap.get_eq_nil_iff.mpr habsent] at hget
    exact hne hget.symm
  · rw [hget]
    exact hvalue

/-- The steps to a key's empty place are a proof that the key is there with nothing. -/
def emptyProof (m : StateMap) (key : Bytes) : ExistenceProof where
  key := key
  value := []
  path := innerOps (sha2_256 key) 0 (m.siblings key)

theorem committedValue_emptyProof (m : StateMap) (key : Bytes) :
    committedValue (emptyProof m key) [] = [] := if_pos rfl

theorem unforged_emptyProof {m : StateMap} {key : Bytes}
    (h : m.Unforged key [] (m.siblings key)) :
    Unforged m key (committedValue (emptyProof m key) []) (emptyProof m key).path := by
  have hpath : (innerOps (sha2_256 key) 0 (m.siblings key)).map InnerOp.sibling =
      m.siblings key := map_sibling_innerOps fun s hs => StateMap.length_of_mem_siblings hs
  rw [committedValue_emptyProof, Unforged, emptyProof]
  dsimp only
  rw [hpath]
  exact h

theorem emptyProof_is_taken {m : StateMap} {key : Bytes}
    (cmp : Bytes → Bytes → Bytes → Except String Unit) (h : m.standing key = (key, [])) :
    VerifyIbcStateMembershipWithExistenceProof m.root key [] (emptyProof m key) cmp = .ok () := by
  rw [VerifyIbcStateMembershipWithExistenceProof_eq_ok, committedValue_emptyProof, emptyProof]
  dsimp only
  exact ⟨.inr rfl, .inl rfl, ComputeRootFromProofPath_innerOps h⟩

theorem emptyProof_proves_absence {m : StateMap} {key : Bytes} (h : m.standing key = (key, [])) :
    VerifyIbcStateNonMembershipWithNonExistenceProof m.root key
      { key := some key, left := some (emptyProof m key) } = .ok () := by
  rw [VerifyIbcStateNonMembershipWithNonExistenceProof_eq_ok]
  refine ⟨fun k hk => (Option.some.inj hk).symm, emptyProof m key, rfl, rfl, ?_⟩
  rw [emptyProof]
  exact ComputeRootFromProofPath_innerOps h

/-- A proof with the value the map has is taken for that value, and for what is compared with it
and found the same. -/
theorem honest_proof_is_taken_iff {m : StateMap} {key stored value : Bytes}
    {cmp : Bytes → Bytes → Bytes → Except String Unit} (hstored : stored ≠ [])
    (h : m.standing key = (key, stored)) :
    VerifyIbcStateMembershipWithExistenceProof m.root key value {
        key := key
        value := stored
        path := innerOps (sha2_256 key) 0 (m.siblings key) } cmp = .ok () ↔
      value = stored ∨ cmp key value stored = .ok () := by
  have hcommitted : ∀ path, committedValue { key := key, value := stored, path := path } value =
      stored := fun path => if_neg (by simpa using hstored)
  rw [VerifyIbcStateMembershipWithExistenceProof_eq_ok, hcommitted]
  constructor
  · rintro ⟨-, hvalue, -⟩
    exact hvalue.imp_left Eq.symm
  · intro hvalue
    exact ⟨.inr rfl, hvalue.imp_left Eq.symm, ComputeRootFromProofPath_innerOps h⟩

omit [Builtins] in
theorem value_of_committedValue {exist : ExistenceProof} {value : Bytes}
    (h : committedValue exist value = []) : value = [] := by
  unfold committedValue at h
  split at h
  · exact h
  · rename_i hne
    exact absurd (List.isEmpty_iff.mpr h) hne

/-- Proofs are sound for a key and an expected value exactly if the value is something or a key of
the map stands at the key's place. -/
theorem proofs_are_sound_iff_value_or_place_is_taken (m : StateMap) (key value : Bytes)
    (hunforged : m.Unforged key [] (m.siblings key)) :
    Sound m key value ↔ value ≠ [] ∨ ∃ k ∈ keys m.entries,
      scheme.agree merkle_depth_bits (sha2_256 key) (sha2_256 k) = true := by
  constructor
  · intro hsound
    by_contra hno
    rw [not_or, not_not, not_exists] at hno
    obtain ⟨rfl, hplace⟩ := hno
    obtain ⟨hpresent, -⟩ := hsound.present (emptyProof m key) (fun _ _ _ => .ok ())
      (unforged_emptyProof hunforged) (emptyProof_is_taken _ (StateMap.standing_of_free fun k hk =>
        Bool.eq_false_iff.mpr fun hagree => hplace k ⟨hk, hagree⟩))
    exact hplace key ⟨hpresent, StateMap.agree_self key⟩
  · intro hcondition
    have hpresent : ∀ exist cmp, Unforged m key (committedValue exist value) exist.path →
        VerifyIbcStateMembershipWithExistenceProof m.root key value exist cmp = .ok () →
          key ∈ keys m.entries ∧ (m.get key = value ∨ cmp key value (m.get key) = .ok ()) := by
      intro exist cmp hexist hok
      refine present_of_exist ?_ hexist hok
      intro hnil
      rcases hcondition with hvalue | ⟨k, hk, hagree⟩
      · exact hvalue (value_of_committedValue hnil)
      · -- nobody comes up from nothing at a place that is taken
        obtain ⟨-, -, hpath⟩ := VerifyIbcStateMembershipWithExistenceProof_eq_ok.mp hok
        rw [hnil] at hexist hpath
        exact StateMap.standing_of_taken hk hagree (standing_of_path hexist hpath)
    refine ⟨hpresent, fun nonexist => absent_of_nonexist, ?_⟩
    intro exist cmp nonexist hexist hnonexist hok hok'
    exact absent_of_nonexist hnonexist hok' (hpresent exist cmp hexist hok).1

end Proofs

/-! ### A map with nothing in it -/

section Sample

local instance proofsBuiltins : Builtins := mapBuiltins

theorem proofs_of_a_value_are_sound : Sound StateMap.empty samplePort [1] :=
  (proofs_are_sound_iff_value_or_place_is_taken StateMap.empty samplePort [1]
    unforged_samplePort).mpr (.inl (by decide))

/-- One way up proves a key that is not there present with nothing, and absent. -/
theorem an_absent_key_is_proven_present :
    VerifyIbcStateMembershipWithExistenceProof StateMap.empty.root samplePort []
        (emptyProof StateMap.empty samplePort) (fun _ _ _ => .error "value mismatch") = .ok () ∧
      VerifyIbcStateNonMembershipWithNonExistenceProof StateMap.empty.root samplePort
        { key := some samplePort, left := some (emptyProof StateMap.empty samplePort) } = .ok () ∧
      samplePort ∉ keys StateMap.empty.entries :=
  ⟨by decide +kernel, by decide +kernel, by decide⟩

end Sample

end cardano_ibc.probabilistic
