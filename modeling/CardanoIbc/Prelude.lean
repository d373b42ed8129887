import Mathlib.Data.List.Nodup
import Mathlib.Data.Set.Function
import Mathlib.Tactic.Ring
-- What every script of the bridge is written in: byte strings, checks that stop
-- the script, and the hash and signature functions the ledger gives to it.

namespace cardano_ibc

abbrev Bytes := List UInt8

/-- The UTF-8 bytes of a text literal. -/
def utf8 (s : String) : Bytes := s.toUTF8.data.toList

/-- The `len` low bytes of a number, highest first: how a digest is written down. -/
def bigEndian : Nat → Nat → Bytes
  | 0, _ => []
  | len + 1, n => (n / 256 ^ len % 256).toUInt8 :: bigEndian len n

/-! ## Scripts that stop

A script gives a Bool or stops. `none` is a script that stopped. -/

/-- `expect`: the script stops unless the condition holds. -/
def expect (c : Bool) : Option Unit := if c then some () else none

@[simp] theorem expect_eq_some (c : Bool) (u : Unit) : expect c = some u ↔ c = true := by
  cases c <;> simp [expect]

@[simp] theorem expect_true : expect true = some () := rfl

/-- `and { a, b }`: both sides accept. The right one runs only if the left one does. -/
@[simp] theorem and_accepts (a b : Option Bool) :
    (a <&&> b) = some true ↔ a = some true ∧ b = some true := by
  rcases a with _ | _ | _ <;> simp [andM, toBool]

/-- A step of a script and the rest of it give a value if each of them does. -/
theorem bind_eq_some {α β : Type} {x : Option α} {f : α → Option β} {b : β} :
    (x >>= f) = some b ↔ ∃ a, x = some a ∧ f a = some b := Option.bind_eq_some_iff

theorem pure_eq_some {α : Type} {a b : α} : (pure a : Option α) = some b ↔ a = b := by
  simp

/-- What a mapped script gave at a place comes from the item at that place. -/
theorem mapM_getElem? {α β : Type} {f : α → Option β} {xs : List α} {ys : List β} {i : Nat} {y : β}
    (h : xs.mapM f = some ys) (hy : ys[i]? = some y) :
    ∃ x, xs[i]? = some x ∧ f x = some y := by
  induction xs generalizing ys i with
  | nil =>
    simp only [List.mapM_nil, pure_eq_some] at h
    subst h
    simp at hy
  | cons x xs ih =>
    simp only [List.mapM_cons, bind_eq_some, pure_eq_some] at h
    obtain ⟨z, hz, zs, hzs, rfl⟩ := h
    cases i with
    | zero =>
      simp only [List.getElem?_cons_zero, Option.some.injEq] at hy
      subst hy
      exact ⟨x, by simp, hz⟩
    | succ i => simpa using ih hzs (by simpa using hy)

/-- `list.filter` with a test that may stop the script. -/
def filterScript {α : Type} (p : α → Option Bool) : List α → Option (List α)
  | [] => some []
  | x :: xs => do
    let keep ← p x
    let rest ← filterScript p xs
    return if keep then x :: rest else rest

theorem all_of_allM {α : Type} {test : α → Option Bool} {xs : List α}
    (h : xs.allM test = some true) : ∀ x ∈ xs, test x = some true := by
  induction xs with
  | nil => exact fun _ hx => absurd hx List.not_mem_nil
  | cons x xs ih =>
    rw [List.allM, bind_eq_some] at h
    obtain ⟨accepted, haccepted, hrest⟩ := h
    cases accepted with
    | false => cases hrest
    | true =>
      intro y hy
      rcases List.mem_cons.mp hy with rfl | hy
      · exact haccepted
      · exact ih hrest y hy

/-! ## What the ledger gives to a script -/

/-- The hash and signature functions of the ledger. `verify_ed25519_signature` is false
where the ledger stops the script: every caller puts it under `expect`. -/
class Builtins where
  sha2_256 : Bytes → Bytes
  sha3_256 : Bytes → Bytes
  blake2b_224 : Bytes → Bytes
  blake2b_256 : Bytes → Bytes
  verify_ed25519_signature : Bytes → Bytes → Bytes → Bool
  sha2_256_length : ∀ m, (sha2_256 m).length = 32
  sha2_256_empty : sha2_256 [] =
    bigEndian 32 0xe3b0c44298fc1c149afbf4c8996fb92427ae41e4649b934ca495991b7852b855

export Builtins (sha2_256 sha3_256 blake2b_224 blake2b_256 verify_ed25519_signature)

/-- `builtin.cons_bytearray`: the script stops on a number that is not a byte. -/
def push (bz : Bytes) (byte : Int) : Option Bytes :=
  if 0 ≤ byte ∧ byte ≤ 255 then some (byte.toNat.toUInt8 :: bz) else none

theorem push_eq_some {bz : Bytes} {byte : Int} {out : Bytes} :
    push bz byte = some out ↔ 0 ≤ byte ∧ byte ≤ 255 ∧ out = byte.toNat.toUInt8 :: bz := by
  unfold push
  split
  · rename_i h
    simp only [Option.some.injEq, h.1, h.2, true_and]
    exact eq_comm
  · rename_i h
    simp only [reduceCtorEq, false_iff]
    exact fun hc => h ⟨hc.1, hc.2.1⟩

/-- The `len` low bytes of a number, lowest first. -/
def littleEndian : Nat → Nat → Bytes
  | 0, _ => []
  | len + 1, n => (n % 256).toUInt8 :: littleEndian len (n / 256)

/-- `bytearray.from_int_little_endian`: stops on a number that does not fit in `size` bytes. -/
def from_int_little_endian (n : Int) (size : Nat) : Option Bytes :=
  if 0 ≤ n ∧ n < 256 ^ size then some (littleEndian size n.toNat) else none

/-- One digit of `int.from_utf8`, which reads a number from its last character on. A minus sign
negates what was read and starts again at the units. -/
def int.readDigit (byte : UInt8) (st : Option (Int × Nat)) : Option (Int × Nat) := do
  let (n, e) ← st
  if byte < 48 || byte > 57 then
    if byte = 45 then some (-n, 0) else none
  else if n < 0 then none
  else some (n + (byte.toNat - 48 : Int) * 10 ^ e, e + 1)

def int.from_utf8 (bytes : Bytes) : Option Int :=
  (bytes.foldr int.readDigit (some (0, 0))).map Prod.fst

/-- `pairs.get_first`. -/
def get_first {α β : Type} [BEq α] (pairs : List (α × β)) (key : α) : Option β :=
  (pairs.find? fun p => p.1 == key).map Prod.snd

def has_key {α β : Type} [BEq α] (pairs : List (α × β)) (key : α) : Bool :=
  pairs.any fun p => p.1 == key

theorem get_first_of_mem {α β : Type} [BEq α] [LawfulBEq α] {ps : List (α × β)} {k : α} {v : β}
    (hnodup : (ps.map Prod.fst).Nodup) (h : (k, v) ∈ ps) : get_first ps k = some v := by
  simp only [get_first, Option.map_eq_some_iff]
  have hsome : (ps.find? fun p => p.1 == k).isSome := by
    rw [List.find?_isSome]
    exact ⟨(k, v), h, by simp⟩
  obtain ⟨p, hp⟩ := Option.isSome_iff_exists.mp hsome
  have hk : p.1 = k := by simpa using List.find?_some hp
  have hpmem := List.mem_of_find?_eq_some hp
  have heq : p = (k, v) := List.inj_on_of_nodup_map hnodup hpmem h hk
  exact ⟨p, hp, by rw [heq]⟩

theorem mem_of_get_first {α β : Type} [BEq α] [LawfulBEq α] {ps : List (α × β)} {k : α} {v : β}
    (h : get_first ps k = some v) : (k, v) ∈ ps := by
  simp only [get_first, Option.map_eq_some_iff] at h
  obtain ⟨p, hp, rfl⟩ := h
  have hk : p.1 = k := by simpa using List.find?_some hp
  rw [← hk]
  exact List.mem_of_find?_eq_some hp

theorem has_key_iff {α β : Type} [BEq α] [LawfulBEq α] {ps : List (α × β)} {k : α} :
    has_key ps k = true ↔ k ∈ ps.map Prod.fst := by
  simp [has_key]

theorem has_key_eq_false_iff {α β : Type} [BEq α] [LawfulBEq α] {ps : List (α × β)} {k : α} :
    has_key ps k = false ↔ k ∉ ps.map Prod.fst := by
  rw [← has_key_iff, Bool.not_eq_true]

/-- `list.sort`: insertion, an item goes after those it is not less than. -/
def insertSorted {α : Type} (compare : α → α → Ordering) (e : α) : List α → List α
  | [] => [e]
  | x :: xs => if compare e x = .lt then e :: x :: xs else x :: insertSorted compare e xs

def sort {α : Type} (compare : α → α → Ordering) (items : List α) : List α :=
  items.foldr (insertSorted compare) []

/-- `list.indexed_foldr` with a step that may stop: the last item is folded first. -/
def indexed_foldr {α β : Type} (start : Nat) (items : List α) (zero : β)
    (step : Nat → α → β → Option β) : Option β :=
  match items with
  | [] => some zero
  | x :: xs => do step start x (← indexed_foldr (start + 1) xs zero step)

/-- The fold keeps any relation between the items not yet folded and the state. -/
theorem indexed_foldr_induction {α β : Type} {items : List α} {zero : β}
    {step : Nat → α → β → Option β} (P : Nat → β → Prop) (start : Nat) {out : β}
    (h : indexed_foldr start items zero step = some out)
    (base : P (start + items.length) zero)
    (one : ∀ i x acc acc', items[i - start]? = some x → start ≤ i → P (i + 1) acc →
      step i x acc = some acc' → P i acc') :
    P start out := by
  induction items generalizing start out with
  | nil =>
    simp only [indexed_foldr, Option.some.injEq] at h
    subst h
    simpa using base
  | cons x xs ih =>
    simp only [indexed_foldr, bind_eq_some] at h
    obtain ⟨acc, hacc, hout⟩ := h
    have hrest : P (start + 1) acc := by
      refine ih (start + 1) hacc ?_ ?_
      · simpa [Nat.add_assoc, Nat.add_comm 1] using base
      · intro i y a a' hy hi hP hstep
        refine one i y a a' ?_ (by omega) hP hstep
        rw [show i - start = (i - (start + 1)) + 1 by omega, List.getElem?_cons_succ]
        exact hy
    exact one start x acc out (by simp) (by omega) hrest hout

end cardano_ibc
