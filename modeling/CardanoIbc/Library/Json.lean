import Mathlib.Data.List.Basic
import Mathlib.Tactic.Ring
-- JSON texts: a reader for the whole grammar, and how long a text must be to say something.

namespace json

inductive Json where
  | null
  | bool (b : Bool)
  | number (text : List Char)
  | string (cs : List Char)
  | array (items : List Json)
  | object (members : List (List Char × Json))

/-! ## Strings -/

/-- What a string is written with: a character, or one unit of UTF-16. -/
inductive Piece where
  | plain (c : Char)
  | unit (n : Nat)

def hexValue (c : Char) : Option Nat :=
  let n := c.toNat
  if 48 ≤ n ∧ n ≤ 57 then some (n - 48)
  else if 97 ≤ n ∧ n ≤ 102 then some (n - 87)
  else if 65 ≤ n ∧ n ≤ 70 then some (n - 55)
  else none

def hex4 (a b c d : Char) : Option Nat := do
  return (← hexValue a) * 4096 + (← hexValue b) * 256 + (← hexValue c) * 16 + (← hexValue d)

def unescape (e : Char) : Option Char :=
  if e = '"' ∨ e = '\\' ∨ e = '/' then some e
  else if e = 'b' then some (Char.ofNat 8)
  else if e = 'f' then some (Char.ofNat 12)
  else if e = 'n' then some (Char.ofNat 10)
  else if e = 'r' then some (Char.ofNat 13)
  else if e = 't' then some (Char.ofNat 9)
  else none

/-- What comes after a backslash. -/
def escape : List Char → Option (Piece × List Char)
  | [] => none
  | e :: rest =>
    if e = 'u' then
      match rest with
      | a :: b :: c :: d :: rest' => (hex4 a b c d).map fun n => (.unit n, rest')
      | _ => none
    else (unescape e).map fun c => (.plain c, rest)

/-- The pieces up to the closing quote; the fuel is the length of the text. -/
def pieces : Nat → List Char → Option (List Piece × List Char)
  | 0, _ => none
  | _ + 1, [] => none
  | fuel + 1, c :: rest =>
    if c = '"' then some ([], rest)
    else if c = '\\' then do
      let (p, rest) ← escape rest
      let (ps, rest) ← pieces fuel rest
      return (p :: ps, rest)
    else if c.toNat < 0x20 then none
    else do
      let (ps, rest) ← pieces fuel rest
      return (.plain c :: ps, rest)

def isHigh (n : Nat) : Bool := 0xd800 ≤ n && n < 0xdc00

def isLow (n : Nat) : Bool := 0xdc00 ≤ n && n < 0xe000

/-- A unit by itself; one half of a pair is no character. -/
def ofUnit (n : Nat) : Char := if isHigh n || isLow n then Char.ofNat 0xfffd else Char.ofNat n

/-- The characters of a string: two units that are a pair are one character. -/
def join : List Piece → List Char
  | [] => []
  | .plain c :: ps => c :: join ps
  | .unit n :: .unit m :: ps =>
    if isHigh n && isLow m then
      Char.ofNat (0x10000 + (n - 0xd800) * 1024 + (m - 0xdc00)) :: join ps
    else ofUnit n :: join (.unit m :: ps)
  | .unit n :: ps => ofUnit n :: join ps

def readString (s : List Char) : Option (List Char × List Char) :=
  (pieces s.length s).map fun p => (join p.1, p.2)

/-! ## Values -/

def isSpace (c : Char) : Bool := c == ' ' || c == '\t' || c == '\n' || c == '\r'

def skipSpace (s : List Char) : List Char := s.dropWhile isSpace

/-- The rest after this character, with space before it skipped. -/
def expectChar (c : Char) (s : List Char) : Option (List Char) :=
  match skipSpace s with
  | [] => none
  | x :: rest => if x = c then some rest else none

def literal (word s : List Char) : Option (List Char) :=
  if word.isPrefixOf s then some (s.drop word.length) else none

def isDigit (c : Char) : Bool := 48 ≤ c.toNat && c.toNat ≤ 57

/-- One digit or more. -/
def digits (s : List Char) : Option (List Char) :=
  match s with
  | [] => none
  | c :: rest => if isDigit c then some (rest.dropWhile isDigit) else none

def integer (s : List Char) : Option (List Char) :=
  match s with
  | [] => none
  | c :: rest => if c = '0' then some rest else digits s

def fraction (s : List Char) : Option (List Char) :=
  match s with
  | [] => some []
  | c :: rest => if c = '.' then digits rest else some s

def exponent (s : List Char) : Option (List Char) :=
  match s with
  | [] => some []
  | c :: rest =>
    if c = 'e' ∨ c = 'E' then
      match rest with
      | [] => none
      | x :: rest' => if x = '+' ∨ x = '-' then digits rest' else digits rest
    else some s

def unsigned (s : List Char) : List Char :=
  match s with
  | [] => []
  | c :: rest => if c = '-' then rest else s

def number (s : List Char) : Option (List Char) := do
  exponent (← fraction (← integer (unsigned s)))

mutual

/-- One value and what comes after it; the fuel bounds how deep values are nested and how many
stand side by side. -/
def value : Nat → List Char → Option (Json × List Char)
  | 0, _ => none
  | fuel + 1, text =>
    let s := skipSpace text
    match s with
    | [] => none
    | c :: rest =>
      if c = '"' then (readString rest).map fun p => (.string p.1, p.2)
      else if c = '{' then
        match expectChar '}' rest with
        | some rest => some (.object [], rest)
        | none => (members fuel rest).map fun p => (.object p.1, p.2)
      else if c = '[' then
        match expectChar ']' rest with
        | some rest => some (.array [], rest)
        | none => (items fuel rest).map fun p => (.array p.1, p.2)
      else if c = 't' then (literal "true".toList s).map fun rest => (.bool true, rest)
      else if c = 'f' then (literal "false".toList s).map fun rest => (.bool false, rest)
      else if c = 'n' then (literal "null".toList s).map fun rest => (.null, rest)
      else (number s).map fun rest => (.number (s.take (s.length - rest.length)), rest)

/-- The members of an object and its closing brace. -/
def members : Nat → List Char → Option (List (List Char × Json) × List Char)
  | 0, _ => none
  | fuel + 1, s => do
    let (key, s) ← readString (← expectChar '"' s)
    let (v, s) ← value fuel (← expectChar ':' s)
    match expectChar ',' s with
    | some s => (members fuel s).map fun p => ((key, v) :: p.1, p.2)
    | none => (expectChar '}' s).map fun rest => ([(key, v)], rest)

/-- The items of an array and its closing bracket. -/
def items : Nat → List Char → Option (List Json × List Char)
  | 0, _ => none
  | fuel + 1, s => do
    let (v, s) ← value fuel s
    match expectChar ',' s with
    | some s => (items fuel s).map fun p => (v :: p.1, p.2)
    | none => (expectChar ']' s).map fun rest => ([v], rest)

end

/-- The value a whole text is. -/
def parse (s : List Char) : Option Json :=
  match value (s.length + 1) s with
  | some (v, rest) => if skipSpace rest = [] then some v else none
  | none => none

/-! ## Texts that are read back -/

/-- A string with a backslash before each quote and nothing else changed. -/
def quoted (cs : List Char) : List Char :=
  cs.flatMap fun c => if c = '"' then ['\\', '"'] else [c]

@[simp] theorem quoted_nil : quoted [] = [] := rfl

theorem quoted_cons (c : Char) (cs : List Char) :
    quoted (c :: cs) = (if c = '"' then ['\\', '"'] else [c]) ++ quoted cs := by simp [quoted]

theorem quoted_eq_self {cs : List Char} (h : ∀ c ∈ cs, c ≠ '"') : quoted cs = cs := by
  induction cs with
  | nil => rfl
  | cons c cs ih =>
    rw [quoted_cons, if_neg (h c List.mem_cons_self),
      ih fun d hd => h d (List.mem_cons_of_mem c hd)]
    rfl

/-- A character that stands in a string as it is, or after a backslash if it is a quote. -/
def isSafe (c : Char) : Bool := c != '\\' && 0x20 ≤ c.toNat

theorem join_plain (cs : List Char) : join (cs.map .plain) = cs := by
  induction cs with
  | nil => rfl
  | cons c cs ih => rw [List.map_cons, join, ih]

theorem pieces_quoted {cs : List Char} (h : ∀ c ∈ cs, isSafe c = true) (rest : List Char)
    {fuel : Nat} (hfuel : cs.length < fuel) :
    pieces fuel (quoted cs ++ '"' :: rest) = some (cs.map .plain, rest) := by
  induction cs generalizing fuel with
  | nil =>
    obtain ⟨fuel, rfl⟩ : ∃ f, fuel = f + 1 := ⟨fuel - 1, by simp at hfuel; omega⟩
    simp [pieces]
  | cons c cs ih =>
    rw [List.length_cons] at hfuel
    obtain ⟨fuel, rfl⟩ : ∃ f, fuel = f + 1 := ⟨fuel - 1, by omega⟩
    have hsafe := h c List.mem_cons_self
    simp only [isSafe, Bool.and_eq_true, bne_iff_ne, decide_eq_true_eq] at hsafe
    have hrest : pieces fuel (quoted cs ++ '"' :: rest) = some (cs.map .plain, rest) :=
      ih (fun d hd => h d (List.mem_cons_of_mem c hd)) (by omega)
    rw [quoted_cons]
    by_cases hquote : c = '"'
    · subst hquote
      simp [pieces, escape, unescape, hrest]
    · have hcontrol : ¬ c.toNat < 0x20 := by omega
      simp [pieces, hquote, hsafe.1, hcontrol, hrest]

theorem readString_quoted {cs : List Char} (h : ∀ c ∈ cs, isSafe c = true) (rest : List Char) :
    readString (quoted cs ++ '"' :: rest) = some (cs, rest) := by
  have hlength : cs.length ≤ (quoted cs).length := by
    clear h
    induction cs with
    | nil => exact Nat.le_refl 0
    | cons c cs ih =>
      rw [quoted_cons, List.length_append, List.length_cons]
      split <;> simp <;> omega
  rw [readString, pieces_quoted h rest (by simp; omega)]
  simp [join_plain]

/-- The members of an object of strings, each with the text between its quotes, up to the closing
brace. -/
def writeMembers : List (List Char × List Char) → List Char
  | [] => ['}']
  | [(k, raw)] => '"' :: k ++ '"' :: ':' :: '"' :: raw ++ ['"', '}']
  | (k, raw) :: fs => '"' :: k ++ '"' :: ':' :: '"' :: raw ++ '"' :: ',' :: writeMembers fs

/-- The text of a field whose value is written with its quotes escaped. -/
def quotedField (f : List Char × List Char) : List Char × List Char := (f.1, quoted f.2)

theorem expectChar_cons {c : Char} (s : List Char) (h : isSpace c = false) :
    expectChar c (c :: s) = some s := by
  simp [expectChar, skipSpace, List.dropWhile, h]

theorem expectChar_ne {c d : Char} (s : List Char) (h : isSpace d = false) (hne : d ≠ c) :
    expectChar c (d :: s) = none := by
  simp [expectChar, skipSpace, List.dropWhile, h, hne]

@[simp] theorem skipSpace_nil : skipSpace [] = [] := rfl

theorem value_quoted {cs : List Char} (h : ∀ c ∈ cs, isSafe c = true) (rest : List Char)
    (fuel : Nat) :
    value (fuel + 1) ('"' :: (quoted cs ++ '"' :: rest)) = some (.string cs, rest) := by
  have hspace : skipSpace ('"' :: (quoted cs ++ '"' :: rest)) =
      '"' :: (quoted cs ++ '"' :: rest) := by simp [skipSpace, isSpace]
  simp [value, hspace, readString_quoted h]

/-- A field whose name is plain text and whose value has no backslash or control character. -/
def isReadable (f : List Char × List Char) : Bool :=
  f.1.all (fun c => isSafe c && c != '"') && f.2.all isSafe

theorem members_written {fs : List (List Char × List Char)} (hne : fs ≠ [])
    (h : ∀ f ∈ fs, isReadable f = true) {fuel : Nat} (hfuel : fs.length < fuel) :
    members fuel (writeMembers (fs.map quotedField)) =
      some (fs.map fun f => (f.1, .string f.2), []) := by
  induction fs generalizing fuel with
  | nil => exact absurd rfl hne
  | cons f fs ih =>
    obtain ⟨k, cs⟩ := f
    obtain ⟨fuel, rfl⟩ : ∃ n, fuel = n + 2 := ⟨fuel - 2, by rw [List.length_cons] at hfuel; omega⟩
    have hf := h (k, cs) List.mem_cons_self
    simp only [isReadable, Bool.and_eq_true, List.all_eq_true, bne_iff_ne] at hf
    have hkey : ∀ rest, readString (k ++ '"' :: rest) = some (k, rest) := by
      intro rest
      have := readString_quoted (fun c hc => (hf.1 c hc).1) rest
      rwa [quoted_eq_self fun c hc => (hf.1 c hc).2] at this
    cases fs with
    | nil =>
      have htext : writeMembers ([(k, cs)].map quotedField) =
          '"' :: (k ++ '"' :: ':' :: '"' :: (quoted cs ++ '"' :: ['}'])) := by
        simp [writeMembers, quotedField]
      have hopen := expectChar_cons (c := '"') (k ++ '"' :: ':' :: '"' :: (quoted cs ++ ['"', '}']))
        (by decide)
      have hcolon := expectChar_cons (c := ':') ('"' :: (quoted cs ++ ['"', '}'])) (by decide)
      have hcomma := expectChar_ne (c := ',') (d := '}') [] (by decide) (by decide)
      have hclose := expectChar_cons (c := '}') [] (by decide)
      rw [htext, members]
      simp only [hopen, hkey, hcolon, value_quoted hf.2 ['}'] fuel, hcomma, hclose, bind,
        Option.bind_some, Option.map_some, List.map_cons, List.map_nil]
    | cons g gs =>
      have htext : writeMembers (((k, cs) :: g :: gs).map quotedField) =
          '"' :: (k ++ '"' :: ':' :: '"' ::
            (quoted cs ++ '"' :: ',' :: writeMembers ((g :: gs).map quotedField))) := by
        simp [writeMembers, quotedField]
      have hrest : members (fuel + 1) (writeMembers ((g :: gs).map quotedField)) =
          some ((g :: gs).map fun f => (f.1, .string f.2), []) :=
        ih (by simp) (fun f hf => h f (List.mem_cons_of_mem _ hf))
          (by simp only [List.length_cons] at hfuel ⊢; omega)
      have hopen := expectChar_cons (c := '"')
        (k ++ '"' :: ':' :: '"' ::
          (quoted cs ++ '"' :: ',' :: writeMembers ((g :: gs).map quotedField))) (by decide)
      have hcolon := expectChar_cons (c := ':')
        ('"' :: (quoted cs ++ '"' :: ',' :: writeMembers ((g :: gs).map quotedField))) (by decide)
      have hcomma := expectChar_cons (c := ',') (writeMembers ((g :: gs).map quotedField))
        (by decide)
      rw [htext, members]
      simp only [hopen, hkey, hcolon, value_quoted hf.2 _ fuel, hcomma, hrest, bind,
        Option.bind_some, Option.map_some]
      rfl

theorem length_writeMembers {fs : List (List Char × List Char)} (hne : fs ≠ []) :
    (writeMembers fs).length = (fs.map fun f => f.1.length + f.2.length + 6).sum := by
  induction fs with
  | nil => exact absurd rfl hne
  | cons f fs ih =>
    obtain ⟨k, raw⟩ := f
    cases fs with
    | nil =>
      simp only [writeMembers, List.cons_append, List.length_append, List.length_cons,
        List.length_nil, List.map_cons, List.map_nil, List.sum_cons, List.sum_nil]
      omega
    | cons g gs =>
      have hrest := ih (by simp)
      rw [List.map_cons, List.sum_cons, ← hrest]
      simp only [writeMembers, List.cons_append, List.length_append, List.length_cons]
      omega

/-- An object of readable strings is read back as it was written. -/
theorem parse_written {fs : List (List Char × List Char)} (hne : fs ≠ [])
    (h : ∀ f ∈ fs, isReadable f = true) :
    parse ('{' :: writeMembers (fs.map quotedField)) =
      some (.object (fs.map fun f => (f.1, .string f.2))) := by
  have hlong : fs.length ≤ (writeMembers (fs.map quotedField)).length := by
    rw [length_writeMembers (by simpa using hne)]
    clear h hne
    induction fs with
    | nil => simp
    | cons f fs ih =>
      simp only [List.map_cons, List.sum_cons, List.length_cons]
      omega
  obtain ⟨rest, hquote⟩ : ∃ rest, writeMembers (fs.map quotedField) = '"' :: rest := by
    match fs, hne with
    | [(k, cs)], _ => exact ⟨_, rfl⟩
    | (k, cs) :: g :: gs, _ => exact ⟨_, rfl⟩
  have hclose : expectChar '}' (writeMembers (fs.map quotedField)) = none := by
    rw [hquote]
    exact expectChar_ne _ (by decide) (by decide)
  have hspace : skipSpace ('{' :: writeMembers (fs.map quotedField)) =
      '{' :: writeMembers (fs.map quotedField) := by simp [skipSpace, isSpace]
  have hmembers : members ((writeMembers (fs.map quotedField)).length + 1)
      (writeMembers (fs.map quotedField)) = some (fs.map fun f => (f.1, .string f.2), []) :=
    members_written hne h (by omega)
  simp [parse, value, hspace, hclose, hmembers]

/-! ## How long a text must be -/

/-- How many characters it takes at least to write a character inside a string. -/
def charCost (c : Char) : Nat := if c = '"' ∨ c = '\\' ∨ c.toNat < 0x20 then 2 else 1

def cost (cs : List Char) : Nat := (cs.map charCost).sum

def Piece.cost : Piece → Nat
  | .plain c => charCost c
  | .unit _ => 6

/-- A member takes its key, its string if it has one, a colon and the sign after it. -/
def stringCost : Json → Nat
  | .string cs => cost cs + 2
  | _ => 0

def membersCost (ms : List (List Char × Json)) : Nat :=
  (ms.map fun m => cost m.1 + 4 + stringCost m.2).sum

def Json.cost : Json → Nat
  | .string cs => json.cost cs + 2
  | .object ms => 1 + membersCost ms
  | _ => 0

@[simp] theorem cost_cons (c : Char) (cs : List Char) : cost (c :: cs) = charCost c + cost cs := by
  simp [cost]

theorem charCost_pos (c : Char) : 1 ≤ charCost c := by
  unfold charCost
  split <;> omega

theorem charCost_le (c : Char) : charCost c ≤ 2 := by
  unfold charCost
  split <;> omega

theorem length_le_cost (cs : List Char) : cs.length ≤ cost cs := by
  induction cs with
  | nil => exact Nat.le_refl 0
  | cons c cs ih =>
    have := charCost_pos c
    rw [List.length_cons, cost_cons]
    omega

theorem stringCost_le (v : Json) : stringCost v ≤ v.cost := by
  cases v <;> simp [stringCost, Json.cost]

theorem cost_join (ps : List Piece) : cost (join ps) ≤ (ps.map Piece.cost).sum := by
  fun_induction join ps with
  | case1 => exact Nat.le_refl 0
  | case2 c ps ih =>
    simp only [cost_cons, List.map_cons, List.sum_cons, Piece.cost]
    omega
  | case3 n m ps _ ih =>
    have := charCost_le (Char.ofNat (0x10000 + (n - 0xd800) * 1024 + (m - 0xdc00)))
    simp only [cost_cons, List.map_cons, List.sum_cons, Piece.cost]
    omega
  | case4 n m ps _ ih =>
    have := charCost_le (ofUnit n)
    simp only [cost_cons, List.map_cons, List.sum_cons, Piece.cost] at ih ⊢
    omega
  | case5 n ps _ ih =>
    have := charCost_le (ofUnit n)
    simp only [cost_cons, List.map_cons, List.sum_cons, Piece.cost] at ih ⊢
    omega

theorem escape_cost {s rest : List Char} {p : Piece} (h : escape s = some (p, rest)) :
    rest.length + p.cost ≤ s.length + 1 := by
  unfold escape at h
  split at h
  · cases h
  · split at h
    · split at h
      · simp only [Option.map_eq_some_iff, Prod.mk.injEq] at h
        obtain ⟨n, -, rfl, rfl⟩ := h
        simp only [Piece.cost, List.length_cons]
        omega
      · cases h
    · simp only [Option.map_eq_some_iff, Prod.mk.injEq] at h
      obtain ⟨c, -, rfl, rfl⟩ := h
      have := charCost_le c
      simp only [Piece.cost, List.length_cons]
      omega

theorem pieces_cost {fuel : Nat} {s rest : List Char} {ps : List Piece}
    (h : pieces fuel s = some (ps, rest)) :
    rest.length + (ps.map Piece.cost).sum + 1 ≤ s.length := by
  induction fuel generalizing s ps with
  | zero => cases h
  | succ fuel ih =>
    cases s with
    | nil => cases h
    | cons c s =>
      simp only [pieces] at h
      split at h
      · cases h
        simp
      split at h
      · simp only [bind, Option.bind_eq_some_iff, pure, Option.some.injEq, Prod.exists,
          Prod.mk.injEq] at h
        obtain ⟨p, rest', hescape, ps', rest'', hpieces, rfl, rfl⟩ := h
        have := escape_cost hescape
        have := ih hpieces
        simp only [List.map_cons, List.sum_cons, List.length_cons]
        omega
      split at h
      · cases h
      · rename_i hquote hslash hcontrol
        simp only [bind, Option.bind_eq_some_iff, pure, Option.some.injEq, Prod.exists,
          Prod.mk.injEq] at h
        obtain ⟨ps', rest', hpieces, rfl, rfl⟩ := h
        have := ih hpieces
        have hone : charCost c = 1 := by simp [charCost, hquote, hslash, hcontrol]
        simp only [List.map_cons, List.sum_cons, List.length_cons, Piece.cost, hone]
        omega

theorem readString_cost {s cs rest : List Char} (h : readString s = some (cs, rest)) :
    rest.length + cost cs + 1 ≤ s.length := by
  simp only [readString, Option.map_eq_some_iff, Prod.mk.injEq] at h
  obtain ⟨⟨ps, rest'⟩, hpieces, rfl, rfl⟩ := h
  have := pieces_cost hpieces
  have := cost_join ps
  simp only
  omega

theorem skipSpace_length (s : List Char) : (skipSpace s).length ≤ s.length :=
  (List.dropWhile_suffix isSpace).length_le

theorem expectChar_length {c : Char} {s rest : List Char} (h : expectChar c s = some rest) :
    rest.length + 1 ≤ s.length := by
  have := skipSpace_length s
  unfold expectChar at h
  split at h
  · cases h
  · rename_i x rest' heq
    split at h
    · cases h
      rw [heq, List.length_cons] at this
      omega
    · cases h

theorem literal_length {word s rest : List Char} (h : literal word s = some rest) :
    rest.length ≤ s.length := by
  unfold literal at h
  split at h
  · cases h
    simp
  · cases h

theorem digits_length {s rest : List Char} (h : digits s = some rest) :
    rest.length ≤ s.length := by
  unfold digits at h
  split at h
  · cases h
  · rename_i c s'
    split at h
    · cases h
      have := (List.dropWhile_suffix isDigit (l := s')).length_le
      rw [List.length_cons]
      omega
    · cases h

theorem number_length {s rest : List Char} (h : number s = some rest) :
    rest.length ≤ s.length := by
  simp only [number, bind, Option.bind_eq_some_iff] at h
  obtain ⟨int, hint, frac, hfrac, hexp⟩ := h
  have hunsigned : (unsigned s).length ≤ s.length := by
    unfold unsigned
    split
    · exact Nat.le_refl _
    · split <;> simp
  have hinteger : int.length ≤ (unsigned s).length := by
    unfold integer at hint
    split at hint
    · cases hint
    · rename_i heq
      split at hint
      · cases hint
        rw [heq]
        simp
      · exact digits_length hint
  have hfraction : frac.length ≤ int.length := by
    unfold fraction at hfrac
    split at hfrac
    · cases hfrac
      simp
    · split at hfrac
      · have := digits_length hfrac
        rw [List.length_cons]
        omega
      · cases hfrac
        simp
  have hexponent : rest.length ≤ frac.length := by
    unfold exponent at hexp
    split at hexp
    · cases hexp
      simp
    · split at hexp
      · split at hexp
        · cases hexp
        · split at hexp
          all_goals
            have := digits_length hexp
            simp only [List.length_cons] at this ⊢
            omega
      · cases hexp
        simp
  omega

/-- What one round of the reader keeps: the text read was long enough for what it says. -/
structure Paid (fuel : Nat) : Prop where
  value : ∀ {s v rest}, json.value fuel s = some (v, rest) → rest.length + v.cost ≤ s.length
  members : ∀ {s ms rest}, json.members fuel s = some (ms, rest) →
    rest.length + membersCost ms ≤ s.length
  items : ∀ {s xs rest}, json.items fuel s = some (xs, rest) → rest.length ≤ s.length

theorem membersCost_cons (k : List Char) (v : Json) (ms : List (List Char × Json)) :
    membersCost ((k, v) :: ms) = cost k + 4 + stringCost v + membersCost ms := by
  simp [membersCost]

theorem Paid.value_succ {fuel : Nat} (paid : Paid fuel) {s rest : List Char} {v : Json}
    (h : json.value (fuel + 1) s = some (v, rest)) : rest.length + v.cost ≤ s.length := by
  have hspace := skipSpace_length s
  simp only [json.value] at h
  split at h
  · cases h
  rename_i c s' heq
  rw [heq] at hspace
  rw [List.length_cons] at hspace
  -- a value starts with its first character: one case for each kind of value
  split at h
  · simp only [Option.map_eq_some_iff, Prod.mk.injEq, Prod.exists] at h
    obtain ⟨cs, rest', hread, rfl, rfl⟩ := h
    have := readString_cost hread
    simp only [Json.cost]
    omega
  split at h
  · split at h
    · rename_i hclose
      cases h
      have := expectChar_length hclose
      simp only [Json.cost, membersCost, List.map_nil, List.sum_nil]
      omega
    · simp only [Option.map_eq_some_iff, Prod.mk.injEq, Prod.exists] at h
      obtain ⟨ms, rest', hread, rfl, rfl⟩ := h
      have := paid.members hread
      simp only [Json.cost]
      omega
  split at h
  · split at h
    · rename_i hclose
      cases h
      have := expectChar_length hclose
      simp only [Json.cost]
      omega
    · simp only [Option.map_eq_some_iff, Prod.mk.injEq, Prod.exists] at h
      obtain ⟨xs, rest', hread, rfl, rfl⟩ := h
      have := paid.items hread
      simp only [Json.cost]
      omega
  iterate 3
    split at h
    · simp only [Option.map_eq_some_iff, Prod.mk.injEq] at h
      obtain ⟨rest', hread, rfl, rfl⟩ := h
      have := literal_length hread
      rw [heq, List.length_cons] at this
      simp only [Json.cost]
      omega
  simp only [Option.map_eq_some_iff, Prod.mk.injEq] at h
  obtain ⟨rest', hread, rfl, rfl⟩ := h
  have := number_length hread
  rw [heq, List.length_cons] at this
  simp only [Json.cost]
  omega

theorem Paid.members_succ {fuel : Nat} (paid : Paid fuel) {s rest : List Char}
    {ms : List (List Char × Json)} (h : json.members (fuel + 1) s = some (ms, rest)) :
    rest.length + membersCost ms ≤ s.length := by
  simp only [json.members, bind, Option.bind_eq_some_iff, Prod.exists] at h
  obtain ⟨s₁, hquote, key, s₂, hkey, s₃, hcolon, v, s₄, hvalue, h⟩ := h
  have hquote := expectChar_length hquote
  have hkey := readString_cost hkey
  have hcolon := expectChar_length hcolon
  have hvalue := paid.value hvalue
  have hstring := stringCost_le v
  split at h
  · rename_i s₅ hcomma
    have hcomma := expectChar_length hcomma
    simp only [Option.map_eq_some_iff, Prod.mk.injEq, Prod.exists] at h
    obtain ⟨ms', rest', hread, rfl, rfl⟩ := h
    have := paid.members hread
    rw [membersCost_cons]
    omega
  · simp only [Option.map_eq_some_iff, Prod.mk.injEq] at h
    obtain ⟨rest', hclose, rfl, rfl⟩ := h
    have := expectChar_length hclose
    rw [membersCost_cons]
    simp only [membersCost, List.map_nil, List.sum_nil]
    omega

theorem Paid.items_succ {fuel : Nat} (paid : Paid fuel) {s rest : List Char} {xs : List Json}
    (h : json.items (fuel + 1) s = some (xs, rest)) : rest.length ≤ s.length := by
  simp only [json.items, bind, Option.bind_eq_some_iff, Prod.exists] at h
  obtain ⟨v, s₁, hvalue, h⟩ := h
  have hvalue := paid.value hvalue
  split at h
  · rename_i s₂ hcomma
    have hcomma := expectChar_length hcomma
    simp only [Option.map_eq_some_iff, Prod.mk.injEq, Prod.exists] at h
    obtain ⟨xs', rest', hread, rfl, rfl⟩ := h
    have := paid.items hread
    omega
  · simp only [Option.map_eq_some_iff, Prod.mk.injEq] at h
    obtain ⟨rest', hclose, rfl, rfl⟩ := h
    have := expectChar_length hclose
    omega

theorem paid (fuel : Nat) : Paid fuel := by
  induction fuel with
  | zero =>
    constructor
    all_goals
      intro _ _ _ h
      simp [json.value, json.members, json.items] at h
  | succ fuel ih => exact ⟨ih.value_succ, ih.members_succ, ih.items_succ⟩

/-- A text that is an object is at least as long as its members need. -/
theorem parse_object_cost {s : List Char} {ms : List (List Char × Json)}
    (h : parse s = some (.object ms)) : 1 + membersCost ms ≤ s.length := by
  unfold parse at h
  split at h
  · rename_i v rest hvalue
    split at h
    · cases h
      have := (paid (s.length + 1)).value hvalue
      simp only [Json.cost] at this
      omega
    · cases h
  · cases h

/-! ## Writing as ECMAScript does -/

def hexDigit (n : Nat) : Char := if n < 10 then Char.ofNat (48 + n) else Char.ofNat (87 + n)

/-- What `JSON.stringify` writes for a character of a string. -/
def escapeChar (c : Char) : List Char :=
  if c = '"' then ['\\', '"']
  else if c = '\\' then ['\\', '\\']
  else if c.toNat = 0x08 then ['\\', 'b']
  else if c.toNat = 0x0c then ['\\', 'f']
  else if c.toNat = 0x0a then ['\\', 'n']
  else if c.toNat = 0x0d then ['\\', 'r']
  else if c.toNat = 0x09 then ['\\', 't']
  else if c.toNat < 0x20 then
    ['\\', 'u', '0', '0', hexDigit (c.toNat / 16), hexDigit (c.toNat % 16)]
  else [c]

def escaped (cs : List Char) : List Char := cs.flatMap escapeChar

/-- The text of an object of strings. -/
def stringify (fs : List (List Char × List Char)) : List Char :=
  '{' :: writeMembers (fs.map fun f => (escaped f.1, escaped f.2))

theorem escaped_cons (c : Char) (cs : List Char) :
    escaped (c :: cs) = escapeChar c ++ escaped cs := by simp [escaped]

theorem charCost_le_escapeChar (c : Char) : charCost c ≤ (escapeChar c).length := by
  unfold charCost escapeChar
  by_cases hquote : c = '"'
  · simp [hquote]
  · by_cases hslash : c = '\\'
    · simp [hslash]
    · simp only [hquote, hslash, false_or, if_false]
      repeat' split
      all_goals simp

theorem cost_le_escaped (cs : List Char) : cost cs ≤ (escaped cs).length := by
  induction cs with
  | nil => exact Nat.le_refl 0
  | cons c cs ih =>
    have := charCost_le_escapeChar c
    rw [cost_cons, escaped_cons, List.length_append]
    omega

/-- Among characters that keep their meaning only quotes are escaped. -/
theorem escaped_eq_quoted {cs : List Char} (h : ∀ c ∈ cs, isSafe c = true) :
    escaped cs = quoted cs := by
  induction cs with
  | nil => rfl
  | cons c cs ih =>
    have hsafe := h c List.mem_cons_self
    simp only [isSafe, Bool.and_eq_true, bne_iff_ne, decide_eq_true_eq] at hsafe
    have hchar : escapeChar c = if c = '"' then ['\\', '"'] else [c] := by
      unfold escapeChar
      split
      · rfl
      · repeat rw [if_neg (by first | exact hsafe.1 | omega)]
    rw [escaped_cons, quoted_cons, hchar, ih fun d hd => h d (List.mem_cons_of_mem c hd)]

end json
