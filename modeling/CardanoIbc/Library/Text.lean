-- UTF-8 as readers of text use it: a text is its characters, each is one to four bytes, and a
-- byte that begins no character is read as the replacement character.
import Mathlib.Tactic.Ring

namespace text

/-! ## Writing -/

/-- The bytes of a code point, as numbers. -/
def encodeNat (n : Nat) : List Nat :=
  if n < 0x80 then [n]
  else if n < 0x800 then [0xc0 + n / 64, 0x80 + n % 64]
  else if n < 0x10000 then [0xe0 + n / 4096, 0x80 + n / 64 % 64, 0x80 + n % 64]
  else [0xf0 + n / 262144, 0x80 + n / 4096 % 64, 0x80 + n / 64 % 64, 0x80 + n % 64]

def encodeChar (c : Char) : List UInt8 := (encodeNat c.toNat).map Nat.toUInt8

def encode (cs : List Char) : List UInt8 := cs.flatMap encodeChar

@[simp] theorem encode_nil : encode [] = [] := rfl

@[simp] theorem encode_cons (c : Char) (cs : List Char) :
    encode (c :: cs) = encodeChar c ++ encode cs := by simp [encode]

@[simp] theorem encode_append (cs ds : List Char) :
    encode (cs ++ ds) = encode cs ++ encode ds := by simp [encode]

/-! ## Reading -/

def replacement : Char := Char.ofNat 0xfffd

/-- A byte that goes on with a character. -/
def isTail (b : Nat) : Bool := 0x80 ≤ b && b ≤ 0xbf

/-- The second byte of a character of three bytes: no form longer than needed, no surrogate. -/
def second3 (b0 b1 : Nat) : Bool :=
  0xe0 ≤ b0 && b0 ≤ 0xef && isTail b1 && (b0 != 0xe0 || 0xa0 ≤ b1) && (b0 != 0xed || b1 ≤ 0x9f)

/-- The second byte of a character of four bytes: no form longer than needed, none over the
last code point. -/
def second4 (b0 b1 : Nat) : Bool :=
  0xf0 ≤ b0 && b0 ≤ 0xf4 && isTail b1 && (b0 != 0xf0 || 0x90 ≤ b1) && (b0 != 0xf4 || b1 ≤ 0x8f)

/-- The first character, if the bytes begin with one, and what comes after it. -/
def first : List Nat → Option (Nat × List Nat)
  | [] => none
  | b0 :: rest =>
    if b0 < 0x80 then some (b0, rest)
    else match rest with
    | [] => none
    | b1 :: rest1 =>
      if 0xc2 ≤ b0 ∧ b0 ≤ 0xdf ∧ isTail b1 then some ((b0 - 0xc0) * 64 + (b1 - 0x80), rest1)
      else match rest1 with
      | [] => none
      | b2 :: rest2 =>
        if second3 b0 b1 ∧ isTail b2 then
          some ((b0 - 0xe0) * 4096 + (b1 - 0x80) * 64 + (b2 - 0x80), rest2)
        else match rest2 with
        | [] => none
        | b3 :: rest3 =>
          if second4 b0 b1 ∧ isTail b2 ∧ isTail b3 then
            some ((b0 - 0xf0) * 262144 + (b1 - 0x80) * 4096 + (b2 - 0x80) * 64 + (b3 - 0x80), rest3)
          else none

/-- The characters of some bytes; the fuel is their number. -/
def decodeNat : Nat → List Nat → List Char
  | 0, _ => []
  | _ + 1, [] => []
  | fuel + 1, b :: rest =>
    match first (b :: rest) with
    | some (n, rest') => Char.ofNat n :: decodeNat fuel rest'
    | none => replacement :: decodeNat fuel rest

def decode (bz : List UInt8) : List Char := decodeNat bz.length (bz.map UInt8.toNat)

/-! ## What is written is read -/

theorem isTail_add {n : Nat} (h : n < 64) : isTail (0x80 + n) = true := by
  simp only [isTail, Bool.and_eq_true, decide_eq_true_eq]
  omega

/-- A code point that is no surrogate is read back from its bytes. -/
theorem first_encodeNat {n : Nat} (h : n < 0xd800 ∨ 0xdfff < n ∧ n < 0x110000) (rest : List Nat) :
    first (encodeNat n ++ rest) = some (n, rest) := by
  have tail0 := isTail_add (Nat.mod_lt n (show 64 > 0 by decide))
  have tail1 := isTail_add (Nat.mod_lt (n / 64) (show 64 > 0 by decide))
  have tail2 := isTail_add (Nat.mod_lt (n / 4096) (show 64 > 0 by decide))
  unfold encodeNat
  split
  · rename_i h1
    simp [first, h1]
  split
  · rename_i h1 h2
    have hlow : ¬ 0xc0 + n / 64 < 0x80 := by omega
    have hrange : 0xc2 ≤ 0xc0 + n / 64 ∧ 0xc0 + n / 64 ≤ 0xdf := by omega
    have hvalue : n / 64 * 64 + n % 64 = n := by omega
    simp [first, hlow, hrange, tail0, hvalue]
  split
  · rename_i h1 h2 h3
    have hlow : ¬ 0xe0 + n / 4096 < 0x80 := by omega
    have htwo : ¬ (0xe0 + n / 4096 ≤ 0xdf) := by omega
    have hsecond : second3 (0xe0 + n / 4096) (0x80 + n / 64 % 64) = true := by
      simp only [second3, tail1, Bool.and_eq_true, Bool.or_eq_true, decide_eq_true_eq, bne_iff_ne,
        and_true]
      omega
    have hvalue : n / 4096 * 4096 + n / 64 % 64 * 64 + n % 64 = n := by omega
    simp [first, hlow, htwo, hsecond, tail0, hvalue]
  · rename_i h1 h2 h3
    have hlow : ¬ 0xf0 + n / 262144 < 0x80 := by omega
    have htwo : ¬ (0xf0 + n / 262144 ≤ 0xdf) := by omega
    have hthree : second3 (0xf0 + n / 262144) (0x80 + n / 4096 % 64) = false := by
      simp [second3]
      omega
    have hsecond : second4 (0xf0 + n / 262144) (0x80 + n / 4096 % 64) = true := by
      simp only [second4, tail2, Bool.and_eq_true, Bool.or_eq_true, decide_eq_true_eq, bne_iff_ne,
        and_true]
      omega
    have hvalue : n / 262144 * 262144 + n / 4096 % 64 * 4096 + n / 64 % 64 * 64 + n % 64 = n := by
      omega
    simp [first, hlow, htwo, hthree, hsecond, tail0, tail1, hvalue]

theorem encodeNat_lt {n : Nat} (h : n < 0x110000) : ∀ b ∈ encodeNat n, b < 256 := by
  intro b hb
  unfold encodeNat at hb
  split_ifs at hb <;> simp only [List.mem_cons, List.not_mem_nil, or_false] at hb <;> omega

theorem encodeNat_ne_nil (n : Nat) : encodeNat n ≠ [] := by
  unfold encodeNat
  split_ifs <;> simp

/-- The bytes of a character beyond ASCII are all beyond ASCII. -/
theorem encodeNat_high {n : Nat} (h : 0x80 ≤ n) : ∀ b ∈ encodeNat n, 0x80 ≤ b := by
  intro b hb
  unfold encodeNat at hb
  split_ifs at hb <;> simp only [List.mem_cons, List.not_mem_nil, or_false] at hb <;> omega

theorem char_valid (c : Char) : c.toNat < 0xd800 ∨ 0xdfff < c.toNat ∧ c.toNat < 0x110000 :=
  c.valid

theorem map_encodeChar (c : Char) : (encodeChar c).map UInt8.toNat = encodeNat c.toNat := by
  have hvalid := char_valid c
  rw [encodeChar, List.map_map]
  refine (List.map_congr_left fun b hb => ?_).trans (List.map_id _)
  have hlt := encodeNat_lt (show c.toNat < 0x110000 by omega) b hb
  simp only [Function.comp_apply, UInt8.toNat_ofNat', id_eq]
  exact Nat.mod_eq_of_lt hlt

/-- A byte of ASCII is a character of its own wherever it stands. -/
theorem encodeChar_of_ascii {c : Char} {b : UInt8} (hb : b ∈ encodeChar c) (hlow : b.toNat < 0x80) :
    c.toNat = b.toNat := by
  have hmem : b.toNat ∈ encodeNat c.toNat := by
    rw [← map_encodeChar]
    exact List.mem_map_of_mem hb
  by_cases hc : c.toNat < 0x80
  · simp only [encodeNat, hc, if_true, List.mem_singleton] at hmem
    exact hmem.symm
  · have := encodeNat_high (by omega) _ hmem
    omega

/-! ### Two readers

Readers differ in how much of bytes that begin no character they take for one replacement. -/

/-- The characters of some bytes, where so many are given up as `skip` says; the fuel is their
number. -/
def readBy (skip : List Nat → Nat) : Nat → List Nat → List Char
  | 0, _ => []
  | _ + 1, [] => []
  | fuel + 1, b :: rest =>
    match first (b :: rest) with
    | some (n, rest') => Char.ofNat n :: readBy skip fuel rest'
    | none => replacement :: readBy skip fuel ((b :: rest).drop (skip (b :: rest)))

theorem decodeNat_eq (fuel : Nat) (bz : List Nat) :
    decodeNat fuel bz = readBy (fun _ => 1) fuel bz := by
  induction fuel generalizing bz with
  | zero => cases bz <;> rfl
  | succ fuel ih =>
    cases bz with
    | nil => rfl
    | cons b rest =>
      rw [decodeNat, readBy]
      cases first (b :: rest) with
      | none => exact congrArg _ (ih rest)
      | some found => exact congrArg _ (ih found.2)

theorem readBy_encode (skip : List Nat → Nat) (cs : List Char) (fuel : Nat)
    (h : ((encode cs).map UInt8.toNat).length ≤ fuel) :
    readBy skip fuel ((encode cs).map UInt8.toNat) = cs := by
  induction cs generalizing fuel with
  | nil => cases fuel <;> rfl
  | cons c cs ih =>
    rw [encode_cons, List.map_append, map_encodeChar] at h ⊢
    obtain ⟨b, bs, hb⟩ := List.exists_cons_of_ne_nil (encodeNat_ne_nil c.toNat)
    have hfirst := first_encodeNat (char_valid c) ((encode cs).map UInt8.toNat)
    rw [hb, List.cons_append] at h hfirst ⊢
    simp only [List.length_cons, List.length_append] at h
    obtain ⟨fuel, rfl⟩ : ∃ f, fuel = f + 1 := ⟨fuel - 1, by omega⟩
    rw [readBy, hfirst]
    simp only [Char.ofNat_toNat]
    rw [ih fuel (by omega)]

/-- What is written is read back. -/
@[simp] theorem decode_encode (cs : List Char) : decode (encode cs) = cs := by
  rw [decode, decodeNat_eq]
  exact readBy_encode _ cs _ (by simp)

theorem encode_injective : Function.Injective encode :=
  Function.LeftInverse.injective decode_encode

/-! ## Texts that end at a separator -/

/-- Of texts without the separator the first one is the end. -/
theorem first_inj {α : Type} {sep : α} {a b x y : List α} (ha : sep ∉ a) (hb : sep ∉ b)
    (h : a ++ sep :: x = b ++ sep :: y) : a = b ∧ x = y := by
  induction a generalizing b with
  | nil =>
    cases b with
    | nil => exact ⟨rfl, by simpa using h⟩
    | cons c b =>
      simp only [List.nil_append, List.cons_append, List.cons.injEq] at h
      exact absurd (h.1 ▸ List.mem_cons_self) hb
  | cons c a ih =>
    cases b with
    | nil =>
      simp only [List.nil_append, List.cons_append, List.cons.injEq] at h
      exact absurd (h.1 ▸ List.mem_cons_self) ha
    | cons c' b =>
      simp only [List.cons_append, List.cons.injEq] at h
      obtain ⟨rfl, hrest⟩ := h
      obtain ⟨rfl, rfl⟩ := ih (fun hmem => ha (List.mem_cons_of_mem c hmem))
        (fun hmem => hb (List.mem_cons_of_mem c hmem)) hrest
      exact ⟨rfl, rfl⟩

end text
