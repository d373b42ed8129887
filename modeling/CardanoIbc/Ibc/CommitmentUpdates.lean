-- The commitment as a map from keys to values: what a list of single updates makes of the map
-- is what it makes of the root.
import CardanoIbc.Ibc.CommitmentTree

namespace cardano_ibc.ibc_state_commitment

/-! ## Maps -/

/-- One update: the value a key has, the value it gets, and the hashes given for it. -/
structure Change where
  key : Bytes
  old : Bytes
  new : Bytes
  siblings : List Bytes

/-- The entry of a key; the empty value is none. -/
def slot (key value : Bytes) : List (Bytes × Bytes) := if value = [] then [] else [(key, value)]

theorem slot_of_ne {value : Bytes} (key : Bytes) (h : value ≠ []) :
    slot key value = [(key, value)] := if_neg h

/-- The map with another value at a key. -/
def edit (key value : Bytes) (entries : List (Bytes × Bytes)) : List (Bytes × Bytes) :=
  slot key value ++ entries.filter fun e => e.1 != key

/-- The keys of a map. -/
abbrev keys (entries : List (Bytes × Bytes)) : List Bytes := entries.map Prod.fst

variable {key value : Bytes} {entries others base : List (Bytes × Bytes)} {changes : List Change}

theorem key_mem_slot {k : Bytes} (h : k ∈ keys (slot key value)) : k = key := by
  unfold slot at h
  split at h
  · cases h
  · simpa using h

theorem mem_keys_edit {k : Bytes} (h : k ∈ keys (edit key value entries)) :
    k = key ∨ k ∈ keys entries := by
  rw [edit, keys, List.map_append, List.mem_append] at h
  rcases h with h | h
  · exact .inl (key_mem_slot h)
  · exact .inr ((List.filter_sublist.map Prod.fst).subset h)

theorem nodup_keys_edit (h : (keys entries).Nodup) : (keys (edit key value entries)).Nodup := by
  rw [edit, keys, List.map_append, List.nodup_append]
  refine ⟨?_, h.sublist (List.filter_sublist.map Prod.fst), ?_⟩
  · unfold slot
    split <;> simp
  · intro k hk k' hk' heq
    obtain rfl := key_mem_slot hk
    obtain ⟨e, he, rfl⟩ := List.mem_map.mp hk'
    simp only [List.mem_filter, bne_iff_ne, ne_eq] at he
    exact he.2 heq.symm

/-! ## Roots -/

variable [Builtins]

/-- No two of these keys have one place in the tree. -/
def Apart (live : Bytes → Prop) : Prop :=
  ∀ key key', live key → live key' →
    scheme.agree merkle_depth_bits (sha2_256 key) (sha2_256 key') = true → key = key'

/-- The root after some updates, each checked against the root before it. -/
def apply_updates (root : Bytes) (changes : List Change) : Option Bytes :=
  changes.foldlM (fun root c => apply_update root c.key c.old c.new c.siblings) root

theorem apply_updates_cons (root : Bytes) (c : Change) (changes : List Change) :
    apply_updates root (c :: changes) =
      (do apply_updates (← apply_update root c.key c.old c.new c.siblings) changes) := rfl

theorem leaf_nil (key : Bytes) : leaf key [] = empty_hash :=
  if_pos Builtins.sha2_256_empty

variable {live : Bytes → Prop}

/-- A leaf put into the tree is the value put into the map. -/
theorem root_put (hlive : Apart live) (hentries : ∀ k ∈ keys entries, live k) (hkey : live key) :
    scheme.root merkle_depth_bits (scheme.put merkle_depth_bits (sha2_256 key) (leaf key value)
      (leaves entries)) = treeRoot (edit key value entries) := by
  -- the places that go are those of the key itself
  have hfilter : (leaves entries).filter (fun e => !scheme.agree merkle_depth_bits
      (sha2_256 key) e.1) = leaves (entries.filter fun e => e.1 != key) := by
    rw [leaves, List.filter_map]
    refine congrArg (List.map _) (List.filter_congr ?_)
    intro e he
    rw [Function.comp_apply, Bool.eq_iff_iff, Bool.not_eq_eq_eq_not, Bool.not_true, bne_iff_ne,
      Bool.eq_false_iff]
    refine not_congr ⟨fun hagree => (hlive _ _ hkey (hentries _ (List.mem_map_of_mem he))
      hagree).symm, ?_⟩
    rintro rfl
    exact (sparse_tree.agree_iff scheme).mpr fun i _ => rfl
  rw [sparse_tree.Scheme.put, hfilter, treeRoot, edit, slot]
  split
  · rename_i hnil
    rw [hnil, leaf_nil, List.nil_append]
    refine sparse_tree.root_cons_empty scheme ?_
    intro e he
    rw [← hfilter] at he
    simpa using (List.mem_filter.mp he).2
  · rfl

end cardano_ibc.ibc_state_commitment
