-- Tables: keys with a value each, in the order of the keys or in the order in which they came.
import Mathlib.Data.List.Nodup

namespace table

variable {κ α : Type} [DecidableEq κ]

def get (t : List (κ × α)) (key : κ) : Option α := (t.find? fun e => e.1 = key).map Prod.snd

def erase (t : List (κ × α)) (key : κ) : List (κ × α) := t.filter fun e => e.1 ≠ key

/-- In the place of the key's entry, or before the first greater key. -/
def set [LT κ] [DecidableLT κ] (t : List (κ × α)) (key : κ) (value : α) : List (κ × α) :=
  match t with
  | [] => [(key, value)]
  | e :: rest =>
    if key = e.1 then (key, value) :: rest
    else if key < e.1 then (key, value) :: e :: rest
    else e :: set rest key value

theorem get_cons (e : κ × α) (t : List (κ × α)) (key : κ) :
    get (e :: t) key = if e.1 = key then some e.2 else get t key := by
  by_cases h : e.1 = key <;> simp [get, h]

theorem get_set [LT κ] [DecidableLT κ] (t : List (κ × α)) (key key' : κ) (value : α) :
    get (set t key value) key' = if key = key' then some value else get t key' := by
  induction t with
  | nil => by_cases h : key = key' <;> simp [set, get, h]
  | cons e t ih =>
    unfold set
    split
    · rename_i heq
      rw [get_cons, get_cons]
      by_cases h : key = key'
      · simp [h]
      · simp [h, ← heq]
    · split
      · rw [get_cons]
      · rename_i hne _
        rw [get_cons, ih, get_cons]
        by_cases h : key = key'
        · subst h
          simp [Ne.symm hne]
        · simp [h]

theorem get_of_get_erase {t : List (κ × α)} {key key' : κ} {value : α}
    (h : get (erase t key) key' = some value) : get t key' = some value := by
  induction t with
  | nil => exact h
  | cons e t ih =>
    rw [get_cons]
    by_cases hkey : e.1 = key
    · rw [erase, List.filter_cons_of_neg (by simpa using hkey)] at h
      split
      · rename_i hkey'
        -- the entry that is erased is not found under any other key
        obtain ⟨e', he', -⟩ := Option.map_eq_some_iff.mp h
        have hfound : e'.1 = key' := by simpa using List.find?_some he'
        have hkept := (List.mem_filter.mp (List.mem_of_find?_eq_some he')).2
        simp [hfound, ← hkey', hkey] at hkept
      · exact ih h
    · rw [erase, List.filter_cons_of_pos (by simpa using hkey), get_cons] at h
      split
      · rename_i hkey'
        simpa [hkey'] using h
      · rename_i hkey'
        rw [if_neg hkey'] at h
        exact ih h

theorem mem_of_get {t : List (κ × α)} {key : κ} {value : α} (h : get t key = some value) :
    (key, value) ∈ t := by
  obtain ⟨e, he, rfl⟩ := Option.map_eq_some_iff.mp h
  have hkey : e.1 = key := by simpa using List.find?_some he
  rw [← hkey]
  exact List.mem_of_find?_eq_some he

theorem mem_of_mem_set [LT κ] [DecidableLT κ] {t : List (κ × α)} {key : κ} {value : α} {e : κ × α}
    (h : e ∈ set t key value) : e = (key, value) ∨ e ∈ t := by
  induction t with
  | nil => simpa [set] using h
  | cons d t ih =>
    unfold set at h
    split at h
    · rcases List.mem_cons.mp h with h | h
      · exact .inl h
      · exact .inr (List.mem_cons_of_mem d h)
    · split at h
      · simpa using h
      · rcases List.mem_cons.mp h with h | h
        · exact .inr (h ▸ List.mem_cons_self)
        · exact (ih h).imp_right (List.mem_cons_of_mem d)

/-! ## In the order in which the keys came -/

/-- In the place of the key's entry, or at the end. -/
def put (t : List (κ × α)) (key : κ) (value : α) : List (κ × α) :=
  match t with
  | [] => [(key, value)]
  | e :: rest => if key = e.1 then (key, value) :: rest else e :: put rest key value

theorem get_put (t : List (κ × α)) (key key' : κ) (value : α) :
    get (put t key value) key' = if key = key' then some value else get t key' := by
  induction t with
  | nil => by_cases h : key = key' <;> simp [put, get, h]
  | cons e t ih =>
    unfold put
    split
    · rename_i heq
      rw [get_cons, get_cons, ← heq]
      split <;> rfl
    · rename_i hne
      rw [get_cons, ih, get_cons]
      by_cases h : e.1 = key'
      · have hkey : key ≠ key' := fun hk => hne (hk.trans h.symm)
        simp [h, hkey]
      · simp [h]

theorem get_eq_none_iff {t : List (κ × α)} {key : κ} :
    get t key = none ↔ key ∉ t.map Prod.fst := by
  rw [get, Option.map_eq_none_iff, List.find?_eq_none]
  simp only [List.mem_map, not_exists, not_and, decide_eq_true_eq]

theorem get_eq_some_iff {t : List (κ × α)} {key : κ} {value : α} (h : (t.map Prod.fst).Nodup) :
    get t key = some value ↔ (key, value) ∈ t := by
  refine ⟨mem_of_get, ?_⟩
  intro hmem
  cases hget : get t key with
  | none => exact absurd (List.mem_map_of_mem hmem) (get_eq_none_iff.mp hget)
  | some value' =>
    have hsame := List.inj_on_of_nodup_map h (mem_of_get hget) hmem rfl
    exact congrArg (some ∘ Prod.snd) hsame

theorem get_erase (t : List (κ × α)) (key key' : κ) :
    get (erase t key) key' = if key = key' then none else get t key' := by
  split
  · rename_i heq
    subst heq
    rw [get_eq_none_iff]
    intro hmem
    obtain ⟨e, he, hkey⟩ := List.mem_map.mp hmem
    simp only [erase, List.mem_filter, decide_eq_true_eq] at he
    exact he.2 hkey
  · rename_i hne
    rw [get, erase, List.find?_filter, get]
    congr 2
    funext e
    by_cases h : e.1 = key'
    · simp [h, Ne.symm hne]
    · simp [h]

/-! ## Tables with the same keys -/

section SameKeys

variable {β : Type}

def SameKeys (t : List (κ × α)) (u : List (κ × β)) : Prop :=
  ∀ key, (get t key).isSome ↔ (get u key).isSome

theorem SameKeys.set [LT κ] [DecidableLT κ] {t : List (κ × α)} {u : List (κ × β)}
    (h : SameKeys t u) (key : κ) (value : α) (value' : β) :
    SameKeys (table.set t key value) (table.set u key value') := by
  intro key'
  rw [get_set, get_set]
  by_cases heq : key = key'
  · simp [heq]
  · rw [if_neg heq, if_neg heq]
    exact h key'

theorem SameKeys.erase {t : List (κ × α)} {u : List (κ × β)} (h : SameKeys t u) (key : κ) :
    SameKeys (table.erase t key) (table.erase u key) := by
  intro key'
  rw [get_erase, get_erase]
  by_cases heq : key = key'
  · simp [heq]
  · rw [if_neg heq, if_neg heq]
    exact h key'

end SameKeys

/-! ## The keys of a table -/

section HasKeys

def HasKeys (t : List (κ × α)) (keys : List κ) : Prop := ∀ key, (get t key).isSome ↔ key ∈ keys

theorem mem_map_fst {t : List (κ × α)} {key : κ} : key ∈ t.map Prod.fst ↔ (get t key).isSome := by
  rw [Option.isSome_iff_ne_none, ne_eq, get_eq_none_iff, not_not]

theorem HasKeys.set [LT κ] [DecidableLT κ] {t : List (κ × α)} {keys : List κ} (h : HasKeys t keys)
    (key : κ) (value : α) : HasKeys (table.set t key value) (key :: keys) := by
  intro key'
  rw [get_set, List.mem_cons]
  by_cases heq : key = key'
  · simp [heq]
  · rw [if_neg heq, h key']
    exact ⟨.inr, fun hmem => hmem.resolve_left (Ne.symm heq)⟩

end HasKeys

theorem mem_of_mem_put {t : List (κ × α)} {key : κ} {value : α} {e : κ × α}
    (h : e ∈ put t key value) : e = (key, value) ∨ e ∈ t := by
  induction t with
  | nil => simpa [put] using h
  | cons d t ih =>
    unfold put at h
    split at h
    · exact (List.mem_cons.mp h).imp_right (List.mem_cons_of_mem d)
    · rcases List.mem_cons.mp h with rfl | h
      · exact .inr List.mem_cons_self
      · exact (ih h).imp_right (List.mem_cons_of_mem d)

theorem mem_keys_put {t : List (κ × α)} {key key' : κ} {value : α} :
    key' ∈ (put t key value).map Prod.fst ↔ key' = key ∨ key' ∈ t.map Prod.fst := by
  induction t with
  | nil => simp [put]
  | cons e t ih =>
    unfold put
    split
    · rename_i heq
      simp [heq]
    · rw [List.map_cons, List.mem_cons, ih, List.map_cons, List.mem_cons]
      exact or_left_comm

theorem nodup_keys_put {t : List (κ × α)} (h : (t.map Prod.fst).Nodup) (key : κ) (value : α) :
    ((put t key value).map Prod.fst).Nodup := by
  induction t with
  | nil => simp [put]
  | cons e t ih =>
    rw [List.map_cons, List.nodup_cons] at h
    unfold put
    split
    · rename_i heq
      rw [List.map_cons, List.nodup_cons, heq]
      exact h
    · rename_i hne
      rw [List.map_cons, List.nodup_cons, mem_keys_put]
      refine ⟨?_, ih h.2⟩
      rintro (heq | hmem)
      · exact hne heq.symm
      · exact h.1 hmem

theorem nodup_keys_erase {t : List (κ × α)} (h : (t.map Prod.fst).Nodup) (key : κ) :
    ((erase t key).map Prod.fst).Nodup :=
  h.sublist (List.filter_sublist.map Prod.fst)

end table
