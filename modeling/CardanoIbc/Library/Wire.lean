-- Messages made of fields, each after a key byte and left out where it has its default. What
-- follows a field does not change how it is read, so the bytes of a message fix its fields.
import CardanoIbc.Library.Varint
import Mathlib.Data.List.Basic

namespace wire

/-- A code for some values that is read back whatever follows it. -/
structure Code (α : Type) where
  enc : α → List UInt8
  dom : α → Prop
  unique : ∀ {a b r s}, dom a → dom b → enc a ++ r = enc b ++ s → a = b ∧ r = s

namespace Code

variable {α β : Type}

theorem inj (c : Code α) {a b : α} (ha : c.dom a) (hb : c.dom b) (h : c.enc a = c.enc b) :
    a = b := by
  refine (c.unique (r := []) (s := []) ha hb ?_).1
  rw [h]

/-- Numbers in base 128. -/
def number : Code Nat where
  enc := varint.encode
  dom _ := True
  unique _ _ h := varint.encode_append_inj h

/-- Strings after their length. -/
def string : Code (List UInt8) where
  enc bs := varint.encode bs.length ++ bs
  dom _ := True
  unique _ _ h := by
    simp only [List.append_assoc] at h
    obtain ⟨hlength, hrest⟩ := varint.encode_append_inj h
    exact List.append_inj hrest hlength

/-- Values that are written with one length. -/
def fixed (enc : α → List UInt8) (dom : α → Prop) {n : Nat} (length : ∀ a, (enc a).length = n)
    (inj : ∀ {a b}, dom a → dom b → enc a = enc b → a = b) : Code α where
  enc := enc
  dom := dom
  unique ha hb h := by
    obtain ⟨henc, hrest⟩ := List.append_inj h (by rw [length, length])
    exact ⟨inj ha hb henc, hrest⟩

/-- Values that are written as the ones they stand for. -/
def along (c : Code β) (f : α → β) (dom : α → Prop) (into : ∀ {a}, dom a → c.dom (f a))
    (inj : ∀ {a b}, dom a → dom b → f a = f b → a = b) : Code α where
  enc a := c.enc (f a)
  dom := dom
  unique ha hb h := by
    obtain ⟨hf, hrest⟩ := c.unique (into ha) (into hb) h
    exact ⟨inj ha hb hf, hrest⟩

/-- A field with its key before it, or nothing for the default. -/
def field [DecidableEq α] (c : Code α) (key : UInt8) (default x : α) : List UInt8 :=
  if x = default then [] else key :: c.enc x

section Field

variable [DecidableEq α] {c : Code α} {key key' : UInt8} {default x y : α} {r s : List UInt8}

/-- A field that stands before others with other keys is read back. -/
theorem field_append_inj (hx : c.dom x) (hy : c.dom y) (hr : r.head? ≠ some key)
    (hs : s.head? ≠ some key) (h : c.field key default x ++ r = c.field key default y ++ s) :
    x = y ∧ r = s := by
  unfold field at h
  split at h <;> split at h
  · rename_i hx' hy'
    exact ⟨hx'.trans hy'.symm, by simpa using h⟩
  · refine absurd ?_ hr
    rw [List.nil_append] at h
    rw [h]
    rfl
  · refine absurd ?_ hs
    rw [List.nil_append] at h
    rw [← h]
    rfl
  · exact c.unique hx hy (List.cons.inj h).2

theorem field_inj (hx : c.dom x) (hy : c.dom y)
    (h : c.field key default x = c.field key default y) : x = y := by
  have happend : c.field key default x ++ [] = c.field key default y ++ [] := by rw [h]
  exact (field_append_inj hx hy (by simp) (by simp) happend).1

/-- A message that starts with a field of another key. -/
theorem head?_field_append_ne (hkey : key' ≠ key) (hr : r.head? ≠ some key) :
    (c.field key' default x ++ r).head? ≠ some key := by
  unfold field
  split
  · simpa using hr
  · simpa using hkey

theorem head?_field_ne (hkey : key' ≠ key) : (c.field key' default x).head? ≠ some key := by
  rw [← List.append_nil (c.field key' default x)]
  exact head?_field_append_ne hkey (by simp)

end Field

end Code

/-! ## Messages as lists of entries -/

/-- What stands after a key: a number, or bytes after their length. -/
inductive Payload where
  | number (n : Nat)
  | bytes (bs : List UInt8)
deriving DecidableEq, Repr

structure Entry where
  number : Nat
  payload : Payload
deriving DecidableEq, Repr

def Payload.wireType : Payload → Nat
  | .number _ => 0
  | .bytes _ => 2

def Payload.enc : Payload → List UInt8
  | .number n => Code.number.enc n
  | .bytes bs => Code.string.enc bs

/-- An entry after its key, which gives the number of the field and what kind of value it has. -/
def entry : Code Entry where
  enc e := varint.encode (8 * e.number + e.payload.wireType) ++ e.payload.enc
  dom _ := True
  unique := by
    intro a b r s _ _ h
    obtain ⟨i, x⟩ := a
    obtain ⟨j, y⟩ := b
    simp only [List.append_assoc] at h
    obtain ⟨hkey, hrest⟩ := varint.encode_append_inj h
    cases x <;> cases y <;> simp only [Payload.wireType] at hkey
    · obtain ⟨rfl, rfl⟩ := Code.number.unique trivial trivial hrest
      exact ⟨by rw [show i = j by omega], rfl⟩
    · omega
    · omega
    · obtain ⟨rfl, rfl⟩ := Code.string.unique trivial trivial hrest
      exact ⟨by rw [show i = j by omega], rfl⟩

def message (es : List Entry) : List UInt8 := es.flatMap entry.enc

@[simp] theorem message_nil : message [] = [] := rfl

@[simp] theorem message_cons (e : Entry) (es : List Entry) :
    message (e :: es) = entry.enc e ++ message es := rfl

@[simp] theorem message_append (es fs : List Entry) :
    message (es ++ fs) = message es ++ message fs := List.flatMap_append

theorem entry_ne_nil (e : Entry) : entry.enc e ≠ [] := by
  intro h
  have hkey := (List.append_eq_nil_iff.mp h).1
  rw [varint.encode] at hkey
  split at hkey <;> exact List.cons_ne_nil _ _ hkey

/-- The bytes of a message fix its entries. -/
theorem message_injective : Function.Injective message := by
  intro es
  induction es with
  | nil =>
    intro fs h
    cases fs with
    | nil => rfl
    | cons f fs => exact absurd (List.append_eq_nil_iff.mp h.symm).1 (entry_ne_nil f)
  | cons e es ih =>
    intro fs h
    cases fs with
    | nil => exact absurd (List.append_eq_nil_iff.mp h).1 (entry_ne_nil e)
    | cons f fs =>
      obtain ⟨rfl, hrest⟩ := entry.unique trivial trivial h
      rw [ih hrest]

/-! ### Fields of each kind

A scalar with its default is left out; a nested message and every element of a repeated field is
written whatever it is. -/

def scalar (i n : Nat) : List Entry := if n = 0 then [] else [⟨i, .number n⟩]

@[simp] theorem scalar_zero (i : Nat) : scalar i 0 = [] := rfl

def text (i : Nat) (bs : List UInt8) : List Entry := if bs = [] then [] else [⟨i, .bytes bs⟩]

def texts (i : Nat) (bss : List (List UInt8)) : List Entry := bss.map fun bs => ⟨i, .bytes bs⟩

def nested (i : Nat) (es : List Entry) : List Entry := [⟨i, .bytes (message es)⟩]

/-- What a message has under one number. -/
def valuesAt (i : Nat) (es : List Entry) : List Payload :=
  es.filterMap fun e => if e.number = i then some e.payload else none

section ValuesAt

variable {i j : Nat}

@[simp] theorem valuesAt_append (es fs : List Entry) :
    valuesAt i (es ++ fs) = valuesAt i es ++ valuesAt i fs := List.filterMap_append

@[simp] theorem valuesAt_scalar_of_ne (h : j ≠ i) (n : Nat) : valuesAt i (scalar j n) = [] := by
  unfold scalar
  split <;> simp [valuesAt, h]

@[simp] theorem valuesAt_text_of_ne (h : j ≠ i) (bs : List UInt8) :
    valuesAt i (text j bs) = [] := by
  unfold text
  split <;> simp [valuesAt, h]

@[simp] theorem valuesAt_texts_of_ne (h : j ≠ i) (bss : List (List UInt8)) :
    valuesAt i (texts j bss) = [] := by simp [valuesAt, texts, h]

@[simp] theorem valuesAt_nested_of_ne (h : j ≠ i) (es : List Entry) :
    valuesAt i (nested j es) = [] := by simp [valuesAt, nested, h]

theorem scalar_inj {m n : Nat} (h : valuesAt i (scalar i m) = valuesAt i (scalar i n)) :
    m = n := by
  unfold scalar at h
  by_cases hm : m = 0 <;> by_cases hn : n = 0 <;> simp_all [valuesAt]

theorem text_inj {bs cs : List UInt8} (h : valuesAt i (text i bs) = valuesAt i (text i cs)) :
    bs = cs := by
  unfold text at h
  by_cases hb : bs = [] <;> by_cases hc : cs = [] <;> simp_all [valuesAt]

theorem texts_inj {bss css : List (List UInt8)}
    (h : valuesAt i (texts i bss) = valuesAt i (texts i css)) : bss = css := by
  have hvalues : ∀ xs : List (List UInt8), valuesAt i (texts i xs) = xs.map Payload.bytes := by
    intro xs
    simp [valuesAt, texts, List.filterMap_map]
  rw [hvalues, hvalues] at h
  exact List.map_injective_iff.mpr (fun _ _ => Payload.bytes.inj) h

theorem nested_inj {es fs : List Entry}
    (h : valuesAt i (nested i es) = valuesAt i (nested i fs)) : es = fs := by
  refine message_injective ?_
  simpa [valuesAt, nested] using h

end ValuesAt

end wire
