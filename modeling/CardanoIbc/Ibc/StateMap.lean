-- What the commitment of the host state is for: a finite map, of which the root tells the value of
-- every key, and which one update of the root changes at one key.
import CardanoIbc.Ibc.CommitmentUpdates
import CardanoIbc.Library.CborItem
import CardanoIbc.Library.Sha256
import CardanoIbc.Library.Table

namespace cardano_ibc.ibc_state_commitment

/-! ## Places as numbers -/

/-- The first eight bytes of a key's hash as a number: the place of the key in the lowest level. -/
def index64 (key_hash : Bytes) : Nat := cbor_item.ofBe (key_hash.take 8)

theorem ofBe_concat (bz : Bytes) (b : UInt8) :
    cbor_item.ofBe (bz ++ [b]) = cbor_item.ofBe bz * 256 + b.toNat := by
  rw [cbor_item.ofBe, List.foldl_append]
  rfl

/-- A byte of a number, counted from the lowest. -/
theorem ofBe_digit {bz : Bytes} {q : Nat} (h : q < bz.length) :
    cbor_item.ofBe bz / 256 ^ q % 256 = (bz[bz.length - 1 - q]).toNat := by
  induction bz using List.reverseRecOn generalizing q with
  | nil => simp at h
  | append_singleton bz b ih =>
    have hb : b.toNat < 256 := b.toNat_lt
    rw [ofBe_concat]
    cases q with
    | zero =>
      have hlast : (bz ++ [b])[(bz ++ [b]).length - 1 - 0] = b := by simp
      rw [hlast]
      omega
    | succ q =>
      rw [List.length_append, List.length_singleton] at h
      have hbelow : (cbor_item.ofBe bz * 256 + b.toNat) / 256 = cbor_item.ofBe bz := by omega
      have hindex : (bz ++ [b])[(bz ++ [b]).length - 1 - (q + 1)] =
          bz[bz.length - 1 - q] := by
        rw [List.getElem_append_left (by simp; omega)]
        congr 1
        simp
        omega
      rw [Nat.pow_succ', ← Nat.div_div_eq_div_mul, hbelow, ih (by omega), hindex]

theorem ofBe_lt (bz : Bytes) : cbor_item.ofBe bz < 256 ^ bz.length := by
  induction bz using List.reverseRecOn with
  | nil => decide
  | append_singleton bz b ih =>
    have hb : b.toNat < 256 := b.toNat_lt
    rw [ofBe_concat, List.length_append, List.length_singleton, Nat.pow_succ]
    omega

theorem index64_lt {key_hash : Bytes} (hkey : key_hash.length = 32) :
    index64 key_hash < 2 ^ 64 := by
  have hlt := ofBe_lt (key_hash.take 8)
  rwa [List.length_take, hkey] at hlt

/-- The bits of the place are the bits of the hash. -/
theorem onRight_eq {key_hash : Bytes} {i : Nat} (hkey : key_hash.length = 32) (hi : i < 64) :
    onRight key_hash i = decide (index64 key_hash / 2 ^ i % 2 = 1) := by
  have hbyte : index64 key_hash / 256 ^ (i / 8) % 256 = (key_hash[7 - i / 8]).toNat := by
    have hlength : (key_hash.take 8).length = 8 := by simp [hkey]
    rw [index64, ofBe_digit (by rw [hlength]; omega), List.getElem_take]
    simp only [hlength]
  have hpow : (2 : Nat) ^ i = 256 ^ (i / 8) * 2 ^ (i % 8) := by
    have hsplit : (256 : Nat) ^ (i / 8) = 2 ^ (8 * (i / 8)) := by rw [Nat.pow_mul]
    rw [hsplit, ← Nat.pow_add]
    congr 1
    omega
  have hbit : ∀ n r : Nat, r < 8 → n / 2 ^ r % 2 = n % 256 / 2 ^ r % 2 := by
    intro n r hr
    rw [← Nat.toNat_testBit, ← Nat.toNat_testBit, show 256 = 2 ^ 8 by rfl,
      Nat.testBit_mod_two_pow]
    simp [hr]
  have hsame : index64 key_hash / 2 ^ i % 2 =
      (key_hash[7 - i / 8]).toNat / 2 ^ (i % 8) % 2 := by
    rw [hpow, ← Nat.div_div_eq_div_mul, hbit _ _ (Nat.mod_lt _ (by omega)), hbyte]
  have hindex : 7 - i / 8 < key_hash.length := by omega
  rw [hsame, onRight, bit_at, List.getElem?_eq_getElem hindex, Bool.eq_iff_iff]
  simp

/-- Keys with one number have one place. -/
theorem agree_of_index64 {p q : Bytes} [Builtins] (hp : p.length = 32) (hq : q.length = 32)
    (h : index64 p = index64 q) : scheme.agree merkle_depth_bits p q = true := by
  rw [sparse_tree.agree_iff]
  intro i hi
  show onRight p i = onRight q i
  rw [onRight_eq hp hi, onRight_eq hq hi, h]

section Maps

variable [Builtins]

/-- A finite map in which every key has a place of its own in the tree. -/
structure StateMap where
  entries : List (Bytes × Bytes)
  nodup : (keys entries).Nodup
  written : ∀ e ∈ entries, e.2 ≠ []
  apart : Apart fun key => key ∈ keys entries

/-- The value a list of entries has at a key; the empty one where it has none. -/
def valueAt (entries : List (Bytes × Bytes)) (key : Bytes) : Bytes :=
  (table.get entries key).getD []

namespace StateMap

def root (m : StateMap) : Bytes := treeRoot m.entries

def get (m : StateMap) (key : Bytes) : Bytes := valueAt m.entries key

/-- No other key of the map has the place of this one. -/
def Fits (m : StateMap) (key : Bytes) : Prop :=
  ∀ k ∈ keys m.entries,
    scheme.agree merkle_depth_bits (sha2_256 key) (sha2_256 k) = true → k = key

/-- The entry at the place of a key; the key with no value where there is none. -/
def standing (m : StateMap) (key : Bytes) : Bytes × Bytes :=
  (m.entries.find? fun e =>
    scheme.agree merkle_depth_bits (sha2_256 key) (sha2_256 e.1)).getD (key, [])

/-- The hashes beside the way to a key, sixty-four of them that are never written out. -/
@[irreducible] def siblings (m : StateMap) (key : Bytes) : List Bytes :=
  scheme.siblings (sha2_256 key) merkle_depth_bits (leaves m.entries)

variable {m : StateMap} {key key' value value' : Bytes}

theorem Fits.apart (h : m.Fits key) : Apart fun k => k = key ∨ k ∈ keys m.entries := by
  rintro k k' (rfl | hk) (rfl | hk') hagree
  · rfl
  · exact (h k' hk' hagree).symm
  · rw [sparse_tree.agree_comm] at hagree
    exact h k hk hagree
  · exact m.apart k k' hk hk' hagree

/-- The map with another value at a key. -/
def set (m : StateMap) (key value : Bytes) (h : m.Fits key) : StateMap where
  entries := edit key value m.entries
  nodup := nodup_keys_edit m.nodup
  written := by
    intro e he
    rw [edit, List.mem_append] at he
    rcases he with he | he
    · unfold slot at he
      split at he
      · cases he
      · rename_i hvalue
        rw [List.mem_singleton.mp he]
        exact hvalue
    · exact m.written e (List.mem_of_mem_filter he)
  apart := by
    intro k k' hk hk'
    exact h.apart k k' (mem_keys_edit hk) (mem_keys_edit hk')

end StateMap

/-! ## Values -/

/-- Keys apart have leaves apart. -/
theorem separated_leaves {entries : List (Bytes × Bytes)} (hnodup : (keys entries).Nodup)
    (hapart : Apart fun key => key ∈ keys entries) :
    scheme.Separated merkle_depth_bits (leaves entries) := by
  rw [sparse_tree.Scheme.Separated, leaves, List.pairwise_map]
  refine (List.pairwise_map.mp hnodup).imp_of_mem ?_
  intro e e' he he' hne
  rw [Bool.eq_false_iff]
  exact fun hagree => hne (hapart e.1 e'.1 (List.mem_map_of_mem he) (List.mem_map_of_mem he') hagree)

omit [Builtins] in
theorem valueAt_of_mem {entries : List (Bytes × Bytes)} {key value : Bytes}
    (hnodup : (keys entries).Nodup) (h : (key, value) ∈ entries) :
    valueAt entries key = value := by
  rw [valueAt, (table.get_eq_some_iff hnodup).mpr h]
  rfl

omit [Builtins] in
theorem valueAt_of_notMem {entries : List (Bytes × Bytes)} {key : Bytes}
    (h : key ∉ keys entries) : valueAt entries key = [] := by
  rw [valueAt, table.get_eq_none_iff.mpr h]
  rfl

namespace StateMap

variable {m : StateMap} {key key' value value' : Bytes}

theorem get_eq_nil_iff : m.get key = [] ↔ key ∉ keys m.entries := by
  constructor
  · intro h hkey
    obtain ⟨e, he, rfl⟩ := List.mem_map.mp hkey
    rw [get, valueAt_of_mem m.nodup he] at h
    exact m.written e he h
  · exact valueAt_of_notMem

theorem mem_entries_iff : (key, value) ∈ m.entries ↔ m.get key = value ∧ value ≠ [] := by
  constructor
  · intro h
    exact ⟨valueAt_of_mem m.nodup h, m.written _ h⟩
  · rintro ⟨hget, hne⟩
    rw [get, valueAt] at hget
    cases hfound : table.get m.entries key with
    | none =>
      rw [hfound] at hget
      exact absurd hget.symm hne
    | some value' =>
      rw [hfound] at hget
      have hvalue : value' = value := hget
      rw [← hvalue]
      exact table.mem_of_get hfound

/-- The root tells nothing of the order of the entries. -/
theorem root_of_mem_iff {m' : StateMap} (h : ∀ e, e ∈ m.entries ↔ e ∈ m'.entries) :
    m.root = m'.root := by
  refine sparse_tree.root_perm scheme (separated_leaves m.nodup m.apart) (List.Perm.map _ ?_)
  rw [List.perm_ext_iff_of_nodup m.nodup.of_map m'.nodup.of_map]
  exact h

/-- It tells nothing but the values. -/
theorem root_ext {m' : StateMap} (h : ∀ key, m.get key = m'.get key) : m.root = m'.root := by
  refine root_of_mem_iff ?_
  rintro ⟨key, value⟩
  rw [mem_entries_iff, mem_entries_iff, h]

theorem get_set_self (h : m.Fits key) : (m.set key value h).get key = value := by
  by_cases hvalue : value = []
  · subst hvalue
    rw [get_eq_nil_iff]
    intro hkey
    have hmem : key ∈ keys (m.entries.filter fun e => e.1 != key) := hkey
    obtain ⟨e, he, heq⟩ := List.mem_map.mp hmem
    simp only [List.mem_filter, bne_iff_ne, ne_eq] at he
    exact he.2 heq
  · refine valueAt_of_mem (m.set key value h).nodup ?_
    have hslot : (key, value) ∈ slot key value := by
      rw [slot_of_ne _ hvalue]
      exact List.mem_cons_self
    exact List.mem_append_left _ hslot

theorem get_set_ne (h : m.Fits key) (hne : key' ≠ key) :
    (m.set key value h).get key' = m.get key' := by
  by_cases hin : key' ∈ keys m.entries
  · obtain ⟨e, he, rfl⟩ := List.mem_map.mp hin
    have hkept : e ∈ (m.set key value h).entries := by
      refine List.mem_append_right _ (List.mem_filter.mpr ⟨he, ?_⟩)
      simpa using hne
    rw [get, get, valueAt_of_mem m.nodup he, valueAt_of_mem (m.set key value h).nodup hkept]
  · rw [get_eq_nil_iff.mpr hin, get_eq_nil_iff]
    intro hkey
    rcases mem_keys_edit hkey with heq | hkey
    · exact hne heq
    · exact hin hkey

/-- What stands at the place of a key is the leaf of the entry there. -/
theorem leafAt_eq (m : StateMap) (key : Bytes) :
    scheme.leafAt merkle_depth_bits (leaves m.entries) (sha2_256 key) =
      leaf (m.standing key).1 (m.standing key).2 := by
  have hfind : (leaves m.entries).find? (fun e =>
      scheme.agree merkle_depth_bits (sha2_256 key) e.1) =
      (m.entries.find? fun e => scheme.agree merkle_depth_bits (sha2_256 key)
        (sha2_256 e.1)).map fun e => (sha2_256 e.1, leaf e.1 e.2) := List.find?_map
  unfold sparse_tree.Scheme.leafAt standing
  rw [hfind]
  cases m.entries.find? fun e => scheme.agree merkle_depth_bits (sha2_256 key) (sha2_256 e.1) with
  | none => exact (leaf_nil key).symm
  | some e => rfl

theorem agree_self (key : Bytes) :
    scheme.agree merkle_depth_bits (sha2_256 key) (sha2_256 key) = true :=
  (sparse_tree.agree_iff scheme).mpr fun _ _ => rfl

/-- The entry at a key's place is the key's own, if it is for the key. -/
theorem get_of_standing (h : m.standing key = (key, value)) : m.get key = value := by
  unfold standing at h
  cases hfind : m.entries.find? fun e =>
      scheme.agree merkle_depth_bits (sha2_256 key) (sha2_256 e.1) with
  | none =>
    rw [hfind] at h
    cases h
    rw [get_eq_nil_iff]
    intro hkey
    obtain ⟨e, he, rfl⟩ := List.mem_map.mp hkey
    exact List.find?_eq_none.mp hfind e he (agree_self e.1)
  | some e =>
    rw [hfind] at h
    cases h
    exact valueAt_of_mem m.nodup (List.mem_of_find?_eq_some hfind)

theorem standing_of_free (h : ∀ k ∈ keys m.entries,
    scheme.agree merkle_depth_bits (sha2_256 key) (sha2_256 k) = false) :
    m.standing key = (key, []) := by
  rw [standing, List.find?_eq_none.mpr]
  · rfl
  · intro e he
    rw [h e.1 (List.mem_map_of_mem he)]
    exact Bool.false_ne_true

theorem standing_of_taken {k : Bytes} (hk : k ∈ keys m.entries)
    (hagree : scheme.agree merkle_depth_bits (sha2_256 key) (sha2_256 k) = true) :
    m.standing key ≠ (key, []) := by
  obtain ⟨e, he, rfl⟩ := List.mem_map.mp hk
  intro hstanding
  unfold standing at hstanding
  cases hfind : m.entries.find? fun e =>
      scheme.agree merkle_depth_bits (sha2_256 key) (sha2_256 e.1) with
  | none => exact List.find?_eq_none.mp hfind e he hagree
  | some e' =>
    rw [hfind] at hstanding
    exact m.written e' (List.mem_of_find?_eq_some hfind) (congrArg Prod.snd hstanding)

theorem standing_of_fits (h : m.Fits key) : m.standing key = (key, m.get key) := by
  have hkey : (m.standing key).1 = key := by
    unfold standing
    cases hfind : m.entries.find? fun e =>
        scheme.agree merkle_depth_bits (sha2_256 key) (sha2_256 e.1) with
    | none => rfl
    | some e =>
      exact h e.1 (List.mem_map_of_mem (List.mem_of_find?_eq_some hfind)) (by
        simpa using List.find?_some hfind)
  have hpair : m.standing key = (key, (m.standing key).2) := Prod.ext hkey rfl
  rw [hpair, get_of_standing hpair]

theorem root_set (h : m.Fits key) :
    (m.set key value h).root = scheme.climb (sha2_256 key) 0 (leaf key value) (m.siblings key) := by
  have hput : scheme.root merkle_depth_bits (scheme.put merkle_depth_bits (sha2_256 key)
      (leaf key value) (leaves m.entries)) = treeRoot (edit key value m.entries) :=
    root_put h.apart (fun k hk => .inr hk) (.inl rfl)
  rw [siblings, sparse_tree.climb_siblings, hput]
  rfl

theorem root_eq_climb (m : StateMap) (key : Bytes) :
    m.root = scheme.climb (sha2_256 key) 0 (leaf (m.standing key).1 (m.standing key).2)
      (m.siblings key) := by
  rw [siblings, ← leafAt_eq, sparse_tree.climb_leafAt]
  rfl

end StateMap

/-! ## Hashes -/

theorem length_root (d : Nat) (entries : List (Bytes × Bytes)) :
    (scheme.root d (leaves entries)).length = 32 := by
  cases d with
  | zero =>
    cases entries with
    | nil => rfl
    | cons e entries => exact length_leaf e.1 e.2
  | succ d =>
    rw [sparse_tree.root_succ]
    exact length_node _ _

/-- The hashes of the nodes above some pairs are the hashes of these messages. -/
def nodeMessages (pairs : List (Bytes × Bytes)) : List Bytes :=
  (pairs.filter fun p => p != (empty_hash, empty_hash)).map fun p => [1] ++ p.1 ++ p.2

def leafMessages (key value : Bytes) : List Bytes :=
  if value = [] then [] else [[0] ++ sha2_256 key ++ value_hash value]

/-- No two of these messages have one hash, and no node is what stands for nothing. -/
structure NoCollision (values nodes : List Bytes) : Prop where
  inj : ∀ a ∈ values ++ nodes, ∀ b ∈ values ++ nodes, sha2_256 a = sha2_256 b → a = b
  nonzero : ∀ a ∈ nodes, sha2_256 a ≠ empty_hash

/-- Pairs of hashes, as the tree has them. -/
def Sized (pairs : List (Bytes × Bytes)) : Prop := ∀ p ∈ pairs, p.1.length = 32 ∧ p.2.length = 32

theorem NoCollision.tells {values nodes : List Bytes} {pairs : List (Bytes × Bytes)}
    (h : NoCollision values nodes) (hpairs : nodeMessages pairs ⊆ nodes) (hsized : Sized pairs) :
    scheme.Tells pairs := by
  have hmessage : ∀ p ∈ pairs, p ≠ (empty_hash, empty_hash) → [1] ++ p.1 ++ p.2 ∈ nodes := by
    intro p hp hne
    exact hpairs (List.mem_map.mpr ⟨p, List.mem_filter.mpr ⟨hp, bne_iff_ne.mpr hne⟩, rfl⟩)
  have hnode : ∀ p : Bytes × Bytes, p ≠ (empty_hash, empty_hash) →
      scheme.node p.1 p.2 = sha2_256 ([1] ++ p.1 ++ p.2) := by
    intro p hne
    refine if_neg ?_
    rintro ⟨hleft, hright⟩
    exact hne (Prod.ext hleft hright)
  have hempty : scheme.node empty_hash empty_hash = empty_hash := scheme.node_empty
  intro a ha b hb heq
  by_cases hea : a = (empty_hash, empty_hash)
  · by_cases heb : b = (empty_hash, empty_hash)
    · rw [hea, heb]
    · rw [hnode b heb, hea, hempty] at heq
      exact absurd heq.symm (h.nonzero _ (hmessage b hb heb))
  · by_cases heb : b = (empty_hash, empty_hash)
    · rw [hnode a hea, heb, hempty] at heq
      exact absurd heq (h.nonzero _ (hmessage a ha hea))
    · rw [hnode a hea, hnode b heb] at heq
      have hsame := h.inj _ (List.mem_append_right _ (hmessage a ha hea)) _
        (List.mem_append_right _ (hmessage b hb heb)) heq
      rw [List.append_assoc, List.append_assoc, List.append_cancel_left_eq] at hsame
      obtain ⟨hleft, hright⟩ := List.append_inj hsame
        ((hsized a ha).1.trans (hsized b hb).1.symm)
      exact Prod.ext hleft hright

theorem NoCollision.leaf_of_ne {values nodes : List Bytes} {key value : Bytes}
    (h : NoCollision values nodes) (hvalues : [] ∈ values) (hvalue : value ∈ values)
    (hne : value ≠ []) : leaf key value = sha2_256 ([0] ++ sha2_256 key ++ value_hash value) := by
  refine if_neg ?_
  intro hempty
  exact hne (h.inj _ (List.mem_append_left _ hvalue) _ (List.mem_append_left _ hvalues)
    (hempty.trans Builtins.sha2_256_empty.symm))

theorem NoCollision.leaf_inj {values nodes : List Bytes} {key key' value value' : Bytes}
    (h : NoCollision values nodes) (hvalues : [[], key, value, key', value'] ⊆ values)
    (hnodes : leafMessages key value ++ leafMessages key' value' ⊆ nodes)
    (heq : leaf key value = leaf key' value') :
    value = value' ∧ (value ≠ [] → key = key') := by
  have hnil : [] ∈ values := hvalues (by simp)
  have hin : value ∈ values := hvalues (by simp)
  have hin' : value' ∈ values := hvalues (by simp)
  have hkey : key ∈ values := hvalues (by simp)
  have hkey' : key' ∈ values := hvalues (by simp)
  have hmessage : ∀ k v, leafMessages k v ⊆ nodes → v ≠ [] →
      [0] ++ sha2_256 k ++ value_hash v ∈ nodes := by
    intro k v hv hne
    rw [leafMessages, if_neg hne] at hv
    exact hv List.mem_cons_self
  have hleft := hmessage key value (List.append_subset.mp hnodes).1
  have hright := hmessage key' value' (List.append_subset.mp hnodes).2
  by_cases hv : value = []
  · by_cases hv' : value' = []
    · exact ⟨hv.trans hv'.symm, fun hne => absurd hv hne⟩
    · rw [hv, leaf_nil, h.leaf_of_ne hnil hin' hv'] at heq
      exact absurd heq.symm (h.nonzero _ (hright hv'))
  · by_cases hv' : value' = []
    · rw [hv', leaf_nil, h.leaf_of_ne hnil hin hv] at heq
      exact absurd heq (h.nonzero _ (hleft hv))
    · rw [h.leaf_of_ne hnil hin hv, h.leaf_of_ne hnil hin' hv'] at heq
      have hsame := h.inj _ (List.mem_append_right _ (hleft hv)) _
        (List.mem_append_right _ (hright hv')) heq
      rw [List.append_assoc, List.append_assoc, List.append_cancel_left_eq] at hsame
      obtain ⟨hkeys, hhashes⟩ := List.append_inj hsame (by
        rw [Builtins.sha2_256_length, Builtins.sha2_256_length])
      exact ⟨h.inj _ (List.mem_append_left _ hin) _ (List.mem_append_left _ hin') hhashes,
        fun _ => h.inj _ (List.mem_append_left _ hkey) _ (List.mem_append_left _ hkey') hkeys⟩

theorem sized_climbed {key_hash current : Bytes} {depth : Nat} {siblings : List Bytes}
    (hcurrent : current.length = 32) (hsiblings : ∀ s ∈ siblings, s.length = 32) :
    Sized (scheme.climbed key_hash depth current siblings) := by
  induction siblings generalizing current depth with
  | nil =>
    intro p hp
    cases hp
  | cons s siblings ih =>
    rw [List.forall_mem_cons] at hsiblings
    intro p hp
    rcases List.mem_cons.mp hp with rfl | hp
    · unfold sparse_tree.Scheme.pair
      split
      · exact ⟨hsiblings.1, hcurrent⟩
      · exact ⟨hcurrent, hsiblings.1⟩
    · exact ih (length_node _ _) hsiblings.2 p hp

theorem length_of_mem_scheme_siblings {key_hash s : Bytes} {d : Nat} {entries : List (Bytes × Bytes)}
    (h : s ∈ scheme.siblings key_hash d (leaves entries)) : s.length = 32 := by
  have hside : ∀ (d : Nat) (b : Bool) (entries : List (Bytes × Bytes)), ∃ entries',
      scheme.side d b (leaves entries) = leaves entries' := by
    intro d b entries
    refine ⟨entries.filter fun e => scheme.bit (sha2_256 e.1) d == b, ?_⟩
    rw [leaves, sparse_tree.Scheme.side, List.filter_map]
    rfl
  induction d generalizing entries with
  | zero => cases h
  | succ d ih =>
    rw [sparse_tree.Scheme.siblings, List.mem_append, List.mem_singleton] at h
    rcases h with h | rfl
    · obtain ⟨entries', hentries'⟩ := hside d (scheme.bit key_hash d) entries
      rw [hentries'] at h
      exact ih h
    · obtain ⟨entries', hentries'⟩ := hside d (!scheme.bit key_hash d) entries
      rw [hentries']
      exact length_root d entries'

/-! ## Updates -/

namespace StateMap

variable {m : StateMap} {key key' value value' : Bytes}

/-- The messages that are hashed on a way up from a value of a key and on the map's own way. -/
def wayMessages (m : StateMap) (key value : Bytes) (siblings : List Bytes) : List Bytes :=
  leafMessages key value ++ leafMessages (m.standing key).1 (m.standing key).2 ++
    nodeMessages (scheme.climbed (sha2_256 key) 0 (leaf key value) siblings ++
      scheme.climbed (sha2_256 key) 0 (leaf (m.standing key).1 (m.standing key).2)
        (m.siblings key))

/-- No collision between a way up to a root and the way there is. -/
def Unforged (m : StateMap) (key value : Bytes) (siblings : List Bytes) : Prop :=
  NoCollision [[], key, value, (m.standing key).1, (m.standing key).2]
    (m.wayMessages key value siblings)

theorem length_siblings (m : StateMap) (key : Bytes) :
    (m.siblings key).length = merkle_depth_bits := by
  rw [siblings, sparse_tree.length_siblings]

theorem length_of_mem_siblings {s : Bytes} (h : s ∈ m.siblings key) : s.length = 32 := by
  rw [siblings] at h
  exact length_of_mem_scheme_siblings h

theorem written_standing (h : (m.standing key).2 = []) : m.standing key = (key, []) := by
  unfold standing at h ⊢
  cases hfind : m.entries.find? fun e =>
      scheme.agree merkle_depth_bits (sha2_256 key) (sha2_256 e.1) with
  | none => rfl
  | some e =>
    rw [hfind] at h
    exact absurd h (m.written e (List.mem_of_find?_eq_some hfind))

/-- Who comes to the root from a value of a key came from the entry that stands there, beside the
hashes that are there. -/
theorem climb_root {siblings : List Bytes} (hunforged : m.Unforged key value siblings)
    (hlength : siblings.length = merkle_depth_bits) (hsized : ∀ s ∈ siblings, s.length = 32)
    (hroot : scheme.climb (sha2_256 key) 0 (leaf key value) siblings = m.root) :
    m.standing key = (key, value) ∧ siblings = m.siblings key := by
  rw [root_eq_climb m key] at hroot
  have htells := NoCollision.tells hunforged (List.subset_append_right _ _) (by
    intro p hp
    rcases List.mem_append.mp hp with hp | hp
    · exact sized_climbed (length_leaf _ _) hsized p hp
    · exact sized_climbed (length_leaf _ _) (fun s hs => length_of_mem_siblings hs) p hp)
  have hcount : siblings.length = (m.siblings key).length := by
    rw [hlength, length_siblings]
  obtain ⟨hleaf, hsame⟩ := sparse_tree.climb_inj scheme hcount htells hroot
  refine ⟨?_, hsame⟩
  obtain ⟨hvalue, hkey⟩ := NoCollision.leaf_inj hunforged (List.Subset.refl _)
    (List.subset_append_left _ _) hleaf
  by_cases hempty : value = []
  · rw [hempty]
    exact written_standing (hvalue.symm.trans hempty)
  · exact Prod.ext (hkey hempty).symm hvalue.symm

/-- The true hashes beside the way to a key let its value be changed to any other. -/
theorem apply_update_siblings (h : m.Fits key) :
    apply_update m.root key (m.get key) value (m.siblings key) =
      some (m.set key value h).root := by
  rw [apply_update_eq_some, root_set h, root_eq_climb m key, standing_of_fits h]
  exact ⟨length_siblings m key, fun s hs => length_of_mem_siblings hs, rfl, rfl⟩

/-- The true hashes lead from the value of a key to the root. -/
theorem compute_root_siblings (h : m.standing key = (key, value)) :
    (do compute_root key (← leaf_hash (sha2_256 key) (value_hash value)) (m.siblings key)) =
      some m.root := by
  have hlength : (leaf key value).length = hash_size_bytes := length_leaf key value
  have hcount : (m.siblings key).length + 0 = 64 := by
    rw [length_siblings]
    rfl
  have hsized : ∀ s ∈ m.siblings key, s.length = 32 := fun s hs => length_of_mem_siblings hs
  have hclimb : scheme.climb (sha2_256 key) 0 (leaf key value) (m.siblings key) = m.root := by
    rw [root_eq_climb m key, h]
  rw [leaf_hash_eq, bind_eq_some]
  refine ⟨leaf key value, rfl, ?_⟩
  simp only [compute_root, hlength, beq_self_eq_true, expect_true]
  exact (compute_root_go_eq_some (Builtins.sha2_256_length key) (length_leaf key value)).mpr
    ⟨hcount, hsized, hclimb⟩

/-- An update of the root that is taken is the update of the map. -/
theorem apply_update_sound {root : Bytes} {siblings : List Bytes} (h : m.Fits key)
    (hunforged : m.Unforged key value siblings)
    (hupdate : apply_update m.root key value value' siblings = some root) :
    m.get key = value ∧ (m.set key value' h).root = root := by
  obtain ⟨hlength, hsized, hold, hnew⟩ := apply_update_eq_some.mp hupdate
  obtain ⟨hstanding, hsiblings⟩ := climb_root hunforged hlength hsized hold
  rw [hsiblings] at hnew
  exact ⟨get_of_standing hstanding, (root_set h).trans hnew⟩

/-- Values at two keys can be changed in either order. -/
theorem root_set_comm (h : m.Fits key) (h' : m.Fits key') (hne : key ≠ key')
    (hthen : (m.set key value h).Fits key') (hthen' : (m.set key' value' h').Fits key) :
    ((m.set key value h).set key' value' hthen).root =
      ((m.set key' value' h').set key value hthen').root := by
  refine root_ext ?_
  intro k
  by_cases hk : k = key
  · subst hk
    rw [get_set_ne hthen hne, get_set_self, get_set_self]
  · by_cases hk' : k = key'
    · subst hk'
      rw [get_set_self, get_set_ne hthen' hne.symm, get_set_self]
    · rw [get_set_ne hthen hk', get_set_ne h hk, get_set_ne hthen' hk, get_set_ne h' hk']

/-- The root follows the map. An update that is taken starts from the value the map has at the key
and leads to the root of the map with the new value there and all others as they were; the hashes
that stand beside the way let every key be given every value; and two keys can be updated in
either order, whatever hashes were given for them. -/
theorem the_root_follows_the_map (m : StateMap) :
    (∀ key old new siblings root (h : m.Fits key), m.Unforged key old siblings →
      apply_update m.root key old new siblings = some root →
        m.get key = old ∧ root = (m.set key new h).root ∧ (m.set key new h).get key = new ∧
          ∀ other, other ≠ key → (m.set key new h).get other = m.get other) ∧
    (∀ key new (h : m.Fits key),
      apply_update m.root key (m.get key) new (m.siblings key) = some (m.set key new h).root) ∧
    (∀ (c c' : Change) (again again' : List Bytes) (root root' : Bytes), c.key ≠ c'.key →
      ∀ (h : m.Fits c.key) (h' : m.Fits c'.key), (m.set c.key c.new h).Fits c'.key →
        (m.set c'.key c'.new h').Fits c.key →
      m.Unforged c.key c.old c.siblings →
      (m.set c.key c.new h).Unforged c'.key c'.old c'.siblings →
      m.Unforged c'.key c'.old again' →
      (m.set c'.key c'.new h').Unforged c.key c.old again →
      apply_updates m.root [c, c'] = some root →
      apply_updates m.root [{ c' with siblings := again' }, { c with siblings := again }] =
        some root' → root = root') := by
  refine ⟨?_, fun key new h => apply_update_siblings h, ?_⟩
  · intro key old new siblings root h hunforged hupdate
    obtain ⟨hget, hroot⟩ := apply_update_sound h hunforged hupdate
    exact ⟨hget, hroot.symm, get_set_self h, fun other hne => get_set_ne h hne⟩
  · intro c c' again again' root root' hne h h' hthen hthen' hfirst hsecond hfirst' hsecond'
      hupdates hupdates'
    simp only [apply_updates_cons, bind_eq_some] at hupdates hupdates'
    obtain ⟨between, hone, last, htwo, hlast⟩ := hupdates
    obtain ⟨between', hone', last', htwo', hlast'⟩ := hupdates'
    obtain ⟨-, rfl⟩ := apply_update_sound h hfirst hone
    obtain ⟨-, rfl⟩ := apply_update_sound hthen hsecond htwo
    obtain ⟨-, rfl⟩ := apply_update_sound h' hfirst' hone'
    obtain ⟨-, rfl⟩ := apply_update_sound hthen' hsecond' htwo'
    cases hlast
    cases hlast'
    exact root_set_comm h h' hne hthen hthen'

def empty : StateMap where
  entries := []
  nodup := List.nodup_nil
  written := by
    intro e he
    cases he
  apart := by
    intro key key' hkey
    cases hkey

theorem fits_empty (key : Bytes) : empty.Fits key := by
  intro k hk
  cases hk

end StateMap

end Maps

/-! ### The first key of a map -/

section Sample

/-- SHA-256 as it is; the sample calls no other hash. -/
abbrev mapBuiltins : Builtins where
  sha2_256 := sha256.digest
  sha3_256 := sha256.digest
  blake2b_224 := sha256.digest
  blake2b_256 := sha256.digest
  verify_ed25519_signature _ _ _ := false
  sha2_256_length := sha256.length_digest
  sha2_256_empty := sha256.digest_nil

local instance stateMapBuiltins : Builtins := mapBuiltins

def samplePort : Bytes := utf8 "ports/port-100"

theorem unforged_samplePort :
    StateMap.empty.Unforged samplePort [] (StateMap.empty.siblings samplePort) := by
  have hmessages : StateMap.empty.wayMessages samplePort []
      (StateMap.empty.siblings samplePort) = [] := by decide +kernel
  rw [StateMap.Unforged, hmessages]
  constructor
  · have hhash : ∀ a ∈ [[], samplePort], ∀ b ∈ [[], samplePort],
        sha2_256 a = sha2_256 b → a = b := by decide +kernel
    have hvalues : ∀ v ∈ [[], samplePort, [], (StateMap.empty.standing samplePort).1,
        (StateMap.empty.standing samplePort).2] ++ [], v ∈ [[], samplePort] := by decide
    exact fun a ha b hb => hhash a (hvalues a ha) b (hvalues b hb)
  · intro a ha
    cases ha

theorem the_first_key_is_added :
    ∃ root, apply_update StateMap.empty.root samplePort [] [1]
        (StateMap.empty.siblings samplePort) = some root ∧
      root = (StateMap.empty.set samplePort [1] (StateMap.fits_empty _)).root ∧
      (StateMap.empty.set samplePort [1] (StateMap.fits_empty _)).get samplePort = [1] := by
  obtain ⟨hsound, hcomplete, -⟩ := StateMap.the_root_follows_the_map StateMap.empty
  have hupdate := hcomplete samplePort [1] (StateMap.fits_empty _)
  obtain ⟨-, hroot, hget, -⟩ := hsound samplePort [] [1] _ _ (StateMap.fits_empty _)
    unforged_samplePort hupdate
  exact ⟨_, hupdate, hroot, hget⟩

end Sample

end cardano_ibc.ibc_state_commitment
