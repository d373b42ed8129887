import Mathlib.Data.List.Basic
import Mathlib.Tactic.Ring
-- CBOR: the items a string of bytes is read as, within the limits a decoder is given, and the
-- rules by which the bytes of an item follow from those of its parts.

namespace cbor_item

/-- A map has its keys and values in turn. -/
inductive Item where
  | unsigned (n : Nat)
  | negative (n : Nat)
  | bytes (bz : List UInt8)
  | text (bz : List UInt8)
  | array (items : List Item)
  | map (items : List Item)
  | tag (number : Nat) (content : Item)
  | simple (n : Nat)
  | float (size bits : Nat)

/-- How deep and how long the containers may be. -/
structure Limits where
  nestedLevels : Nat
  arrayElements : Nat
  mapPairs : Nat

/-! ## Heads -/

/-- The low bytes of a number, the highest first. -/
def beBytes : Nat → Nat → List UInt8
  | 0, _ => []
  | len + 1, n => (n / 256 ^ len % 256).toUInt8 :: beBytes len n

def ofBe (bz : List UInt8) : Nat := bz.foldl (fun a b => a * 256 + b.toNat) 0

def takeBytes (n : Nat) (bs : List UInt8) : Option (List UInt8 × List UInt8) :=
  if n ≤ bs.length then some (bs.take n, bs.drop n) else none

/-- The argument of a head: `none` is that of a container or string without its length. -/
def argument (info : Nat) (bs : List UInt8) : Option (Option Nat × List UInt8) :=
  if info < 24 then some (some info, bs)
  else if info < 28 then (takeBytes (2 ^ (info - 24)) bs).map fun (n, rest) => (some (ofBe n), rest)
  else if info = 31 then some (none, bs)
  else none

/-- The major type, the low bits and the argument. -/
def head : List UInt8 → Option (Nat × Nat × Option Nat × List UInt8)
  | [] => none
  | b :: bs => (argument (b.toNat % 32) bs).map fun (arg, rest) =>
      (b.toNat / 32, b.toNat % 32, arg, rest)

/-- A head in the shortest of its five forms. -/
def write (major n : Nat) : List UInt8 :=
  let m := major * 32
  if n < 24 then [(m + n).toUInt8]
  else if n < 2 ^ 8 then (m + 24).toUInt8 :: beBytes 1 n
  else if n < 2 ^ 16 then (m + 25).toUInt8 :: beBytes 2 n
  else if n < 2 ^ 32 then (m + 26).toUInt8 :: beBytes 4 n
  else (m + 27).toUInt8 :: beBytes 8 n

@[simp] theorem length_beBytes (len n : Nat) : (beBytes len n).length = len := by
  induction len with
  | zero => rfl
  | succ len ih => simp [beBytes, ih]

theorem foldl_beBytes (len n a : Nat) :
    (beBytes len n).foldl (fun a b => a * 256 + b.toNat) a = a * 256 ^ len + n % 256 ^ len := by
  induction len generalizing a with
  | zero => simp [beBytes, Nat.mod_one]
  | succ len ih =>
    have hbyte : (n / 256 ^ len % 256).toUInt8.toNat = n / 256 ^ len % 256 := by
      simp [Nat.mod_eq_of_lt (Nat.mod_lt (n / 256 ^ len) (by decide : 0 < 256))]
    simp only [beBytes, List.foldl_cons]
    rw [ih, hbyte, Nat.pow_succ, Nat.mod_mul]
    ring

theorem ofBe_beBytes {len n : Nat} (h : n < 256 ^ len) : ofBe (beBytes len n) = n := by
  rw [ofBe, foldl_beBytes, Nat.mod_eq_of_lt h]
  simp

@[simp] theorem takeBytes_append (xs rest : List UInt8) :
    takeBytes xs.length (xs ++ rest) = some (xs, rest) := by
  simp [takeBytes]

theorem argument_long {size n : Nat} {rest : List UInt8} (hsize : size < 4)
    (hn : n < 256 ^ 2 ^ size) :
    argument (24 + size) (beBytes (2 ^ size) n ++ rest) = some (some n, rest) := by
  have htake : takeBytes (2 ^ size) (beBytes (2 ^ size) n ++ rest) =
      some (beBytes (2 ^ size) n, rest) := by
    simpa using takeBytes_append (beBytes (2 ^ size) n) rest
  unfold argument
  rw [if_neg (by omega), if_pos (by omega), Nat.add_sub_cancel_left, htake]
  simp [ofBe_beBytes hn]

theorem head_cons {major info : Nat} {arg : Option Nat} {bs rest : List UInt8}
    (hmajor : major < 8) (hinfo : info < 32) (h : argument info bs = some (arg, rest)) :
    head ((major * 32 + info).toUInt8 :: bs) = some (major, info, arg, rest) := by
  have hbyte : (major * 32 + info).toUInt8.toNat = major * 32 + info := by
    simp [Nat.mod_eq_of_lt (show major * 32 + info < 256 by omega)]
  have hlow : (major * 32 + info) % 32 = info := by omega
  have hhigh : (major * 32 + info) / 32 = major := by omega
  show (argument ((major * 32 + info).toUInt8.toNat % 32) bs).map _ = _
  rw [hbyte, hlow, h]
  simp only [Option.map_some, hhigh]

/-- What is written is read, whatever comes after it. -/
theorem head_write {major n : Nat} (hmajor : major < 8) (hn : n < 2 ^ 64) (rest : List UInt8) :
    ∃ info, head (write major n ++ rest) = some (major, info, some n, rest) := by
  unfold write
  dsimp only
  split_ifs with h24 h8 h16 h32
  · exact ⟨n, head_cons hmajor (by omega) (by simp [argument, h24])⟩
  · exact ⟨24, head_cons hmajor (by omega)
      (argument_long (by decide : 0 < 4) (by simpa using h8))⟩
  · exact ⟨25, head_cons hmajor (by omega)
      (argument_long (by decide : 1 < 4) (by simpa using h16))⟩
  · exact ⟨26, head_cons hmajor (by omega)
      (argument_long (by decide : 2 < 4) (by simpa using h32))⟩
  · exact ⟨27, head_cons hmajor (by omega)
      (argument_long (by decide : 3 < 4) (by simpa using hn))⟩

theorem write_ne_nil (major n : Nat) : write major n ≠ [] := by
  unfold write
  dsimp only
  split_ifs <;> simp

/-- The first byte of what is written begins an item of that major type. -/
theorem head?_write (major n : Nat) :
    ∃ info, info < 28 ∧ (write major n).head? = some (major * 32 + info).toUInt8 := by
  unfold write
  dsimp only
  split_ifs
  · exact ⟨n, by omega, rfl⟩
  · exact ⟨24, by omega, rfl⟩
  · exact ⟨25, by omega, rfl⟩
  · exact ⟨26, by omega, rfl⟩
  · exact ⟨27, by omega, rfl⟩

/-! ## Reading -/

/-- The byte that ends what has no length. -/
def stop : UInt8 := 0xff

/-- The pieces of a string without its length. -/
def readChunks (major : Nat) : Nat → List UInt8 → Option (List UInt8 × List UInt8)
  | 0, _ => none
  | fuel + 1, bs =>
    if bs.head? = some stop then some ([], bs.tail)
    else
      match head bs with
      | some (m, _, some n, bs) =>
        if m = major then do
          let (piece, bs) ← takeBytes n bs
          let (pieces, bs) ← readChunks major fuel bs
          return (piece ++ pieces, bs)
        else none
      | _ => none

/-- The next byte begins a tag. -/
def beginsTag (bs : List UInt8) : Bool := bs.head?.any fun b => b.toNat / 32 == 6

/-- One item, by a reader for the items inside it. That reader is given how deep they are and how
many there are, or no number where they go up to a stop. -/
def readItem (lim : Limits)
    (again : Nat → Option Nat → List UInt8 → Option (List Item × List UInt8)) (depth : Nat)
    (bs : List UInt8) : Option (Item × List UInt8) := do
  let (major, info, arg, bs) ← head bs
  match major, arg with
  | 0, some n => some (.unsigned n, bs)
  | 1, some n => some (.negative n, bs)
  | 2, some n => (takeBytes n bs).map fun (s, rest) => (.bytes s, rest)
  | 2, none => (readChunks 2 (bs.length + 1) bs).map fun (s, rest) => (.bytes s, rest)
  | 3, some n => (takeBytes n bs).map fun (s, rest) => (.text s, rest)
  | 3, none => (readChunks 3 (bs.length + 1) bs).map fun (s, rest) => (.text s, rest)
  | 4, count =>
    if depth < lim.nestedLevels then do
      let (items, bs) ← again (depth + 1) count bs
      if items.length ≤ lim.arrayElements then some (.array items, bs) else none
    else none
  | 5, count =>
    if depth < lim.nestedLevels then do
      let (items, bs) ← again (depth + 1) (count.map (2 * ·)) bs
      if items.length % 2 = 0 ∧ items.length / 2 ≤ lim.mapPairs then some (.map items, bs)
      else none
    else none
  | 6, some n =>
    let inner := if beginsTag bs then depth + 1 else depth
    if inner ≤ lim.nestedLevels then
      match again inner (some 1) bs with
      | some ([content], bs) => some (.tag n content, bs)
      | _ => none
    else none
  | 7, some n =>
    if info < 24 then some (.simple info, bs)
    else if info = 24 then if n < 32 then none else some (.simple n, bs)
    else some (.float (2 ^ (info - 24)) n, bs)
  | _, _ => none

def readItems (lim : Limits) :
    Nat → Nat → Option Nat → List UInt8 → Option (List Item × List UInt8)
  | 0, _, _, _ => none
  | fuel + 1, depth, count, bs =>
    if count = some 0 then some ([], bs)
    else if count = none ∧ bs.head? = some stop then some ([], bs.tail)
    else do
      let (item, bs) ← readItem lim (readItems lim fuel) depth bs
      let (items, bs) ← readItems lim fuel depth (count.map (· - 1)) bs
      return (item :: items, bs)

/-- The one item a string is, with nothing after it. -/
def read (lim : Limits) (bz : List UInt8) : Option Item :=
  match readItems lim (bz.length + 1) 0 (some 1) bz with
  | some ([item], []) => some item
  | _ => none

/-! ## The bytes of an item -/

/-- The bytes begin no stop. -/
def Begins (bs : List UInt8) : Prop := ∃ b, bs.head? = some b ∧ b ≠ stop

/-- The bytes are read as the item wherever they stand at this depth. -/
structure Item.ReadFrom (lim : Limits) (depth : Nat) (x : Item) (piece : List UInt8) : Prop where
  begins : Begins piece
  reads : ∀ fuel rest, piece.length ≤ fuel →
    readItem lim (readItems lim fuel) depth (piece ++ rest) = some (x, rest)

/-- The bytes are read as the items, by their number and up to a stop. -/
structure ReadFrom (lim : Limits) (depth : Nat) (xs : List Item) (bz : List UInt8) : Prop where
  counted : ∀ fuel rest, bz.length < fuel →
    readItems lim fuel depth (some xs.length) (bz ++ rest) = some (xs, rest)
  stopped : ∀ fuel rest, bz.length < fuel →
    readItems lim (fuel + 1) depth none (bz ++ stop :: rest) = some (xs, rest)

variable {lim : Limits} {depth fuel n : Nat} {x : Item} {xs : List Item}
  {bs bz piece rest : List UInt8}

theorem Begins.append (h : Begins bs) (rest : List UInt8) : (bs ++ rest).head? ≠ some stop := by
  obtain ⟨b, hb, hne⟩ := h
  cases bs with
  | nil => cases hb
  | cons b' bs =>
    cases hb
    simpa using hne

theorem Begins.length_pos (h : Begins bs) : 0 < bs.length := by
  obtain ⟨b, hb, -⟩ := h
  cases bs with
  | nil => cases hb
  | cons _ _ => simp

theorem begins_write {major : Nat} (hmajor : major < 8) (n : Nat) (rest : List UInt8) :
    Begins (write major n ++ rest) := by
  obtain ⟨info, hinfo, hhead⟩ := head?_write major n
  refine ⟨_, by rw [List.head?_append, hhead]; rfl, ?_⟩
  intro hstop
  have := congrArg UInt8.toNat hstop
  simp [stop, Nat.mod_eq_of_lt (show major * 32 + info < 256 by omega)] at this
  omega

theorem readItems_stop (fuel depth : Nat) (rest : List UInt8) :
    readItems lim (fuel + 1) depth none (stop :: rest) = some ([], rest) := by
  simp [readItems]

theorem readItems_done (fuel depth : Nat) (rest : List UInt8) :
    readItems lim (fuel + 1) depth (some 0) rest = some ([], rest) := by
  simp [readItems]

/-- One more item is read. -/
theorem readItems_succ {count : Option Nat} (hcount : count ≠ some 0)
    (hbegins : bs.head? ≠ some stop) :
    readItems lim (fuel + 1) depth count bs = (do
      let (item, bs) ← readItem lim (readItems lim fuel) depth bs
      let (items, bs) ← readItems lim fuel depth (count.map (· - 1)) bs
      return (item :: items, bs)) := by
  rw [readItems, if_neg hcount, if_neg fun h => hbegins h.2]

theorem ReadFrom.nil : ReadFrom lim depth [] [] where
  counted fuel rest h := by
    obtain ⟨fuel, rfl⟩ := Nat.exists_eq_add_of_lt h
    exact readItems_done _ _ _
  stopped fuel rest _ := readItems_stop fuel depth rest

theorem ReadFrom.cons (hx : x.ReadFrom lim depth piece) (hxs : ReadFrom lim depth xs bz) :
    ReadFrom lim depth (x :: xs) (piece ++ bz) where
  counted fuel rest h := by
    have hpos := hx.begins.length_pos
    rw [List.length_append] at h
    obtain ⟨fuel, rfl⟩ : ∃ f, fuel = f + 1 := ⟨fuel - 1, by omega⟩
    rw [List.append_assoc, readItems_succ (by simp) (hx.begins.append _),
      hx.reads fuel _ (by omega)]
    simp [hxs.counted fuel rest (by omega)]
  stopped fuel rest h := by
    have hpos := hx.begins.length_pos
    rw [List.length_append] at h
    obtain ⟨fuel, rfl⟩ : ∃ f, fuel = f + 1 := ⟨fuel - 1, by omega⟩
    rw [List.append_assoc, readItems_succ (by simp) (hx.begins.append _),
      hx.reads (fuel + 1) _ (by omega)]
    simp [hxs.stopped fuel rest (by omega)]

theorem read_of_readFrom (h : x.ReadFrom lim 0 bz) : read lim bz = some x := by
  have hone := (ReadFrom.cons h ReadFrom.nil).counted (bz.length + 1) [] (by simp)
  simp only [List.append_nil, List.length_cons, List.length_nil] at hone
  simp [read, hone]

namespace Item

theorem readFrom_unsigned (hn : n < 2 ^ 64) : (unsigned n).ReadFrom lim depth (write 0 n) where
  begins := by simpa using begins_write (by decide) n []
  reads fuel rest _ := by
    obtain ⟨info, hhead⟩ := head_write (by decide : 0 < 8) hn rest
    simp [readItem, hhead]

theorem readFrom_negative (hn : n < 2 ^ 64) : (negative n).ReadFrom lim depth (write 1 n) where
  begins := by simpa using begins_write (by decide) n []
  reads fuel rest _ := by
    obtain ⟨info, hhead⟩ := head_write (by decide : 1 < 8) hn rest
    simp [readItem, hhead]

theorem readFrom_bytes (hs : bs.length < 2 ^ 64) :
    (bytes bs).ReadFrom lim depth (write 2 bs.length ++ bs) where
  begins := begins_write (by decide) _ _
  reads fuel rest _ := by
    obtain ⟨info, hhead⟩ := head_write (by decide : 2 < 8) hs (bs ++ rest)
    simp [readItem, hhead]

theorem readChunks_pieces {pieces : List (List UInt8)} (hpieces : ∀ p ∈ pieces, p.length < 2 ^ 64)
    (hfuel : pieces.length < fuel) (rest : List UInt8) :
    readChunks 2 fuel ((pieces.flatMap fun p => write 2 p.length ++ p) ++ stop :: rest) =
      some (pieces.flatten, rest) := by
  induction pieces generalizing fuel with
  | nil =>
    obtain ⟨fuel, rfl⟩ : ∃ f, fuel = f + 1 := ⟨fuel - 1, by omega⟩
    simp [readChunks]
  | cons p pieces ih =>
    obtain ⟨fuel, rfl⟩ : ∃ f, fuel = f + 1 := ⟨fuel - 1, by omega⟩
    rw [List.length_cons] at hfuel
    obtain ⟨info, hhead⟩ := head_write (by decide : 2 < 8) (hpieces p List.mem_cons_self)
      (p ++ ((pieces.flatMap fun p => write 2 p.length ++ p) ++ stop :: rest))
    have hbegins := (begins_write (by decide : 2 < 8) p.length p).append
      ((pieces.flatMap fun p => write 2 p.length ++ p) ++ stop :: rest)
    simp only [List.append_assoc] at hbegins
    simp only [List.flatMap_cons, List.append_assoc, readChunks, if_neg hbegins, hhead]
    have hrest := ih (fun q hq => hpieces q (List.mem_cons_of_mem _ hq))
      (show pieces.length < fuel by omega)
    simp [hrest]

theorem length_le_length_pieces (pieces : List (List UInt8)) :
    pieces.length ≤ (pieces.flatMap fun p => write 2 p.length ++ p).length := by
  induction pieces with
  | nil => simp
  | cons p pieces ih =>
    have := List.length_pos_of_ne_nil (write_ne_nil 2 p.length)
    simp only [List.flatMap_cons, List.length_append, List.length_cons]
    omega

/-- A string in pieces. -/
theorem readFrom_chunks {pieces : List (List UInt8)}
    (hpieces : ∀ p ∈ pieces, p.length < 2 ^ 64) :
    (bytes pieces.flatten).ReadFrom lim depth
      ((0x5f : UInt8) :: (pieces.flatMap fun p => write 2 p.length ++ p) ++ [stop]) where
  begins := ⟨0x5f, rfl, by decide⟩
  reads fuel rest _ := by
    have hlength := length_le_length_pieces pieces
    have hhead : head ((0x5f : UInt8) :: ((pieces.flatMap fun p => write 2 p.length ++ p) ++
        stop :: rest)) = some (2, 31, none, (pieces.flatMap fun p => write 2 p.length ++ p) ++
        stop :: rest) := rfl
    have hfuel : pieces.length < ((pieces.flatMap fun p => write 2 p.length ++ p) ++
        stop :: rest).length + 1 := by
      rw [List.length_append]
      omega
    have hchunks := readChunks_pieces hpieces hfuel rest
    simp only [List.cons_append, List.append_assoc, List.nil_append]
    simp only [readItem, hhead, Option.bind_eq_bind, Option.bind_some, hchunks, Option.map_some]

/-- A tag on something that is not tagged itself. -/
theorem readFrom_tag (hn : n < 2 ^ 64) (hdepth : depth ≤ lim.nestedLevels)
    (hplain : beginsTag piece = false) (h : x.ReadFrom lim depth piece) :
    (tag n x).ReadFrom lim depth (write 6 n ++ piece) where
  begins := begins_write (by decide) _ _
  reads fuel rest hfuel := by
    have hwrite := List.length_pos_of_ne_nil (write_ne_nil 6 n)
    rw [List.length_append] at hfuel
    obtain ⟨info, hhead⟩ := head_write (by decide : 6 < 8) hn (piece ++ rest)
    have hplain' : beginsTag (piece ++ rest) = false := by
      obtain ⟨b, hb, -⟩ := h.begins
      cases piece with
      | nil => cases hb
      | cons b' piece => simpa [beginsTag] using hplain
    have hone := (cbor_item.ReadFrom.cons h .nil).counted fuel rest (by
      rw [List.append_nil]; omega)
    simp only [List.append_nil, List.length_cons, List.length_nil, Nat.zero_add] at hone
    simp [readItem, List.append_assoc, hhead, hplain', hdepth, hone]

end Item

/-! ## What was read -/

variable {again : Nat → Option Nat → List UInt8 → Option (List Item × List UInt8)}
  {items : List Item}

theorem head_write_major {major m info : Nat} {arg : Option Nat} (hmajor : major < 8)
    (h : head (write major n ++ bs) = some (m, info, arg, rest)) : m = major := by
  obtain ⟨low, hlow, hhead⟩ := head?_write major n
  cases hwrite : write major n with
  | nil => exact absurd hwrite (write_ne_nil major n)
  | cons b tail =>
    rw [hwrite] at h hhead
    simp only [List.head?_cons, Option.some.injEq] at hhead
    subst hhead
    simp only [List.cons_append, head, Option.map_eq_some_iff, Prod.mk.injEq] at h
    obtain ⟨-, -, hm, -⟩ := h
    simp [Nat.mod_eq_of_lt (show major * 32 + low < 256 by omega)] at hm
    omega

/-- What begins as a map is read as one, or not at all. -/
theorem map_of_readItem (h : readItem lim again depth (write 5 n ++ bs) = some (x, rest)) :
    ∃ items, x = .map items := by
  simp only [readItem, Option.bind_eq_bind, Option.bind_eq_some_iff] at h
  obtain ⟨⟨major, info, arg, tail⟩, hhead, h⟩ := h
  obtain rfl := head_write_major (by decide) hhead
  have h : (if depth < lim.nestedLevels then do
      let (items, bs) ← again (depth + 1) (arg.map (2 * ·)) tail
      if items.length % 2 = 0 ∧ items.length / 2 ≤ lim.mapPairs then some (Item.map items, bs)
      else none
    else none) = some (x, rest) := by
    cases arg <;> exact h
  split at h
  · simp only [Option.bind_eq_bind, Option.bind_eq_some_iff] at h
    obtain ⟨⟨items, tail⟩, -, h⟩ := h
    split at h
    · cases h
      exact ⟨_, rfl⟩
    · cases h
  · cases h

theorem tag_of_readItem (hn : n < 2 ^ 64)
    (h : readItem lim again depth (write 6 n ++ bs) = some (x, rest)) :
    ∃ content inner, x = .tag n content ∧ again inner (some 1) bs = some ([content], rest) := by
  obtain ⟨info, hhead⟩ := head_write (by decide : 6 < 8) hn bs
  simp only [readItem, hhead, Option.bind_eq_bind, Option.bind_some] at h
  generalize (if beginsTag bs = true then depth + 1 else depth) = inner at h
  by_cases hdepth : inner ≤ lim.nestedLevels
  · rw [if_pos hdepth] at h
    split at h
    · rename_i hagain
      cases h
      exact ⟨_, _, rfl, hagain⟩
    · cases h
  · rw [if_neg hdepth] at h
    cases h

theorem array_of_readItem (h : readItem lim again depth ((0x9f : UInt8) :: bs) = some (x, rest)) :
    depth < lim.nestedLevels ∧
      ∃ items, x = .array items ∧ again (depth + 1) none bs = some (items, rest) := by
  have hhead : head ((0x9f : UInt8) :: bs) = some (4, 31, none, bs) := rfl
  simp only [readItem, hhead, Option.bind_eq_bind, Option.bind_some] at h
  split at h
  · rename_i hdepth
    simp only [Option.bind_eq_some_iff] at h
    obtain ⟨⟨items, tail⟩, hagain, h⟩ := h
    split at h
    · cases h
      exact ⟨hdepth, items, rfl, hagain⟩
    · cases h
  · cases h

/-- Where an item is read first, the others are read after it. -/
theorem cons_of_readItems {count : Option Nat} (hcount : count ≠ some 0) (hbegins : Begins bs)
    (h : readItems lim fuel depth count bs = some (items, rest)) :
    ∃ f tail item others, fuel = f + 1 ∧ items = item :: others ∧
      readItem lim (readItems lim f) depth bs = some (item, tail) ∧
      readItems lim f depth (count.map (· - 1)) tail = some (others, rest) := by
  cases fuel with
  | zero => simp [readItems] at h
  | succ fuel =>
    have hstop : bs.head? ≠ some stop := by simpa using hbegins.append []
    rw [readItems_succ hcount hstop] at h
    simp only [Option.bind_eq_bind, Option.bind_eq_some_iff, Option.pure_def,
      Option.some.injEq, Prod.mk.injEq] at h
    obtain ⟨⟨item, tail⟩, hitem, ⟨others, rest'⟩, hothers, rfl, rfl⟩ := h
    exact ⟨fuel, tail, item, others, rfl, rfl, hitem, hothers⟩

/-- Where the bytes of an item come first, it is the first that is read. -/
theorem Item.ReadFrom.first_of_readItems (hx : x.ReadFrom lim depth piece)
    (hfuel : (piece ++ bs).length < fuel)
    (h : readItems lim fuel depth none (piece ++ bs) = some (items, rest)) :
    ∃ f others, items = x :: others ∧ bs.length < f ∧
      readItems lim f depth none bs = some (others, rest) := by
  have hpos := hx.begins.length_pos
  rw [List.length_append] at hfuel
  obtain ⟨b, hb, hne⟩ := hx.begins
  have hbegins : Begins (piece ++ bs) := ⟨b, by rw [List.head?_append, hb]; rfl, hne⟩
  obtain ⟨f, tail, item, others, rfl, rfl, hitem, hothers⟩ :=
    cons_of_readItems (by simp) hbegins h
  rw [hx.reads f bs (by omega)] at hitem
  cases hitem
  exact ⟨f, others, rfl, by omega, hothers⟩

end cbor_item
