-- Base-128 numbers: seven bits in a byte, lowest first, the high bit set on every
-- byte but the last.

namespace varint

/-- The shortest base-128 form of a number. -/
def encode (n : Nat) : List UInt8 :=
  if n < 128 then [n.toUInt8] else (n % 128 + 128).toUInt8 :: encode (n / 128)
termination_by n

theorem toNat_toUInt8 {n : Nat} (h : n < 256) : n.toUInt8.toNat = n := by
  simp [Nat.mod_eq_of_lt h]

theorem toUInt8_inj {m n : Nat} (hm : m < 256) (hn : n < 256)
    (h : m.toUInt8 = n.toUInt8) : m = n := by
  rw [← toNat_toUInt8 hm, ← toNat_toUInt8 hn, h]

theorem encode_small {n : Nat} (h : n < 128) : encode n = [n.toUInt8] := by
  rw [encode, if_pos h]

theorem encode_large {n : Nat} (h : 128 ≤ n) :
    encode n = (n % 128 + 128).toUInt8 :: encode (n / 128) := by
  rw [encode, if_neg (by omega)]

/-- What follows a number does not change how it is read: the number and the rest are fixed
by the bytes. -/
theorem encode_append_inj {m n : Nat} {r s : List UInt8}
    (h : encode m ++ r = encode n ++ s) : m = n ∧ r = s := by
  induction m using Nat.strongRecOn generalizing n with
  | ind m ih =>
    rcases Nat.lt_or_ge m 128 with hm | hm <;> rcases Nat.lt_or_ge n 128 with hn | hn
    · rw [encode_small hm, encode_small hn] at h
      simp only [List.cons_append, List.nil_append, List.cons.injEq] at h
      exact ⟨toUInt8_inj (by omega) (by omega) h.1, h.2⟩
    · rw [encode_small hm, encode_large hn] at h
      have := toUInt8_inj (by omega) (by omega) (List.cons.inj h).1
      omega
    · rw [encode_large hm, encode_small hn] at h
      have := toUInt8_inj (by omega) (by omega) (List.cons.inj h).1
      omega
    · rw [encode_large hm, encode_large hn] at h
      have hlow := toUInt8_inj (by omega) (by omega) (List.cons.inj h).1
      obtain ⟨hhigh, hrest⟩ := ih (m / 128) (by omega) (List.cons.inj h).2
      exact ⟨by omega, hrest⟩

theorem encode_inj {m n : Nat} (h : encode m = encode n) : m = n :=
  (encode_append_inj (r := []) (s := []) (by simpa using h)).1

/-- What is left of a number when its first bytes are taken off is a smaller number. -/
theorem encode_suffix {n : Nat} {x rest : List UInt8} (h : encode n = x ++ rest) (hx : x ≠ [])
    (hrest : rest ≠ []) : ∃ m < n, rest = encode m := by
  induction n using Nat.strongRecOn generalizing x with
  | ind n ih =>
    obtain ⟨b, x, rfl⟩ := List.exists_cons_of_ne_nil hx
    rcases Nat.lt_or_ge n 128 with hn | hn
    · rw [encode_small hn, List.cons_append, List.cons.injEq] at h
      have hnil := (List.append_eq_nil_iff.mp h.2.symm).2
      exact absurd hnil hrest
    · rw [encode_large hn, List.cons_append, List.cons.injEq] at h
      rcases x with _ | ⟨b', x⟩
      · exact ⟨n / 128, by omega, h.2.symm⟩
      · obtain ⟨m, hm, hrest⟩ := ih (n / 128) (by omega) h.2 (List.cons_ne_nil _ _)
        exact ⟨m, by omega, hrest⟩

end varint
