-- What the other chain reads in a packet sent from here. It decodes the data as JSON into a
-- struct with one text field for each field of the packet data.
import CardanoIbc.Library.Json
import CardanoIbc.Library.Sha256
import CardanoIbc.Transfer.Module
import CardanoIbc.Transfer.PacketBytes

namespace cardano_ibc

/-! ## Decoding -/

/-- The fields in the order they are written. -/
inductive PacketField where
  | amount | denom | memo | receiver | sender
deriving DecidableEq, Repr

namespace PacketField

def all : List PacketField := [.amount, .denom, .memo, .receiver, .sender]

def name : PacketField → List Char
  | .amount => ['a', 'm', 'o', 'u', 'n', 't']
  | .denom => ['d', 'e', 'n', 'o', 'm']
  | .memo => ['m', 'e', 'm', 'o']
  | .receiver => ['r', 'e', 'c', 'e', 'i', 'v', 'e', 'r']
  | .sender => ['s', 'e', 'n', 'd', 'e', 'r']

/-- A key is compared without regard to case. The long s and the Kelvin sign are the two letters
outside ASCII that count as one of it. -/
def foldChar (c : Char) : Char :=
  if 65 ≤ c.toNat ∧ c.toNat ≤ 90 then Char.ofNat (c.toNat + 32)
  else if c.toNat = 0x17f then 's'
  else if c.toNat = 0x212a then 'k'
  else c

def ofKey (key : List Char) : Option PacketField :=
  all.find? fun f => f.name == key.map foldChar

theorem mem_all (f : PacketField) : f ∈ all := by cases f <;> decide

theorem length_of_ofKey {key : List Char} {f : PacketField} (h : ofKey key = some f) :
    f.name.length = key.length := by
  have := List.find?_some h
  simp only [beq_iff_eq] at this
  rw [this, List.length_map]

theorem ofKey_name (f : PacketField) : ofKey f.name = some f := by cases f <;> decide

end PacketField

namespace FungibleTokenPacketData

def get (d : FungibleTokenPacketData) : PacketField → Bytes
  | .amount => d.amount
  | .denom => d.denom
  | .memo => d.memo
  | .receiver => d.receiver
  | .sender => d.sender

def set (d : FungibleTokenPacketData) (bz : Bytes) : PacketField → FungibleTokenPacketData
  | .amount => { d with amount := bz }
  | .denom => { d with denom := bz }
  | .memo => { d with memo := bz }
  | .receiver => { d with receiver := bz }
  | .sender => { d with sender := bz }

def blank : FungibleTokenPacketData :=
  { denom := [], amount := [], sender := [], receiver := [], memo := [] }

theorem get_set (d : FungibleTokenPacketData) (bz : Bytes) (f g : PacketField) :
    (d.set bz f).get g = if f = g then bz else d.get g := by
  cases f <;> cases g <;> rfl

theorem eq_of_get {d e : FungibleTokenPacketData} (h : ∀ f, d.get f = e.get f) : d = e := by
  obtain ⟨denom, amount, sender, receiver, memo⟩ := d
  obtain ⟨denom', amount', sender', receiver', memo'⟩ := e
  have hdenom := h .denom
  have hamount := h .amount
  have hsender := h .sender
  have hreceiver := h .receiver
  have hmemo := h .memo
  simp only [get] at hdenom hamount hsender hreceiver hmemo
  subst hdenom hamount hsender hreceiver hmemo
  rfl

end FungibleTokenPacketData

namespace counterparty

open json

/-- One member of the object: a text goes into its field, a null changes nothing, a key that
names no field is skipped, and any other value is an error. -/
def setMember (d : FungibleTokenPacketData) (m : List Char × Json) :
    Option FungibleTokenPacketData :=
  match PacketField.ofKey m.1, m.2 with
  | none, _ => some d
  | some f, .string cs => some (d.set (text.encode cs) f)
  | some _, .null => some d
  | some _, _ => none

/-- The members in the order they stand in, so that of two for one field the later counts. -/
def unmarshal (bz : Bytes) : Option FungibleTokenPacketData :=
  match parse (text.decode bz) with
  | some (.object ms) => ms.foldlM setMember .blank
  | some .null => some .blank
  | _ => none

/-! ## Data that is read as it was meant -/

/-- Whether the bytes are text. -/
def isText (bz : Bytes) : Bool := text.encode (text.decode bz) == bz

/-- Characters that keep their meaning between two quotes. Only the memo is written with its
quotes escaped. -/
def isPlain (f : PacketField) (c : Char) : Bool := isSafe c && (f == .memo || c != '"')

/-- Every field is text without a backslash, a control character or, outside the memo, a quote. -/
def isReadable (d : FungibleTokenPacketData) : Bool :=
  PacketField.all.all fun f => isText (d.get f) && (text.decode (d.get f)).all (isPlain f)

/-- The text a field is written as. -/
def raw (f : PacketField) (cs : List Char) : List Char :=
  if f = .memo then quoted cs else cs

/-- The fields that are written. -/
def written (d : FungibleTokenPacketData) : List PacketField :=
  PacketField.all.filter fun f => d.get f != []

def texts (d : FungibleTokenPacketData) : List (List Char × List Char) :=
  (written d).map fun f => (f.name, raw f (text.decode (d.get f)))

/-! ## The bytes as text -/

theorem escapeQuotes_append {xs : Bytes} (h : 34 ∉ xs) (ys : Bytes) :
    fungible_token_packet_data.escapeQuotes (xs ++ ys) =
      xs ++ fungible_token_packet_data.escapeQuotes ys := by
  induction xs with
  | nil => rfl
  | cons x xs ih =>
    simp only [List.mem_cons, not_or] at h
    have hrest := ih h.2
    simp only [fungible_token_packet_data.escapeQuotes] at hrest ⊢
    rw [List.cons_append, List.foldr_cons, if_neg (Ne.symm h.1), hrest, List.cons_append]

theorem escapeQuotes_encode (cs : List Char) :
    fungible_token_packet_data.escapeQuotes (text.encode cs) = text.encode (quoted cs) := by
  induction cs with
  | nil => rfl
  | cons c cs ih =>
    rw [text.encode_cons, quoted_cons, text.encode_append, ← ih]
    by_cases hquote : c = '"'
    · subst hquote
      rfl
    · have hnone : (34 : UInt8) ∉ text.encodeChar c := by
        intro hmem
        have hcode := text.encodeChar_of_ascii hmem (by decide)
        exact hquote (Char.toNat_inj.mp hcode)
      rw [escapeQuotes_append hnone, if_neg hquote]
      simp

theorem encode_raw (f : PacketField) (cs : List Char) :
    text.encode (raw f cs) = if f = .memo then
      fungible_token_packet_data.escapeQuotes (text.encode cs) else text.encode cs := by
  unfold raw
  split
  · rw [escapeQuotes_encode]
  · rfl

theorem escapeQuotes_eq_nil (bz : Bytes) :
    fungible_token_packet_data.escapeQuotes bz = [] ↔ bz = [] := by
  cases bz with
  | nil => simp [fungible_token_packet_data.escapeQuotes]
  | cons b bz =>
    simp only [fungible_token_packet_data.escapeQuotes, List.foldr_cons]
    split <;> simp

theorem encode_writeMembers_single (k cs : List Char) :
    text.encode (writeMembers [(k, cs)]) =
      fungible_token_packet_data.get_json (text.encode k) (text.encode cs) ++ [125] := by
  have hquote : text.encodeChar '"' = [34] := by decide
  have hcolon : text.encodeChar ':' = [58] := by decide
  have hclose : text.encodeChar '}' = [125] := by decide
  simp [writeMembers, fungible_token_packet_data.get_json, hquote, hcolon, hclose]

theorem encode_writeMembers_cons (k cs : List Char) {fs : List (List Char × List Char)}
    (hne : fs ≠ []) :
    text.encode (writeMembers ((k, cs) :: fs)) =
      fungible_token_packet_data.get_json (text.encode k) (text.encode cs) ++ [44] ++
        text.encode (writeMembers fs) := by
  obtain ⟨g, gs, rfl⟩ := List.exists_cons_of_ne_nil hne
  have hquote : text.encodeChar '"' = [34] := by decide
  have hcolon : text.encodeChar ':' = [58] := by decide
  have hcomma : text.encodeChar ',' = [44] := by decide
  simp [writeMembers, fungible_token_packet_data.get_json, hquote, hcolon, hcomma]

/-- The text of data whose fields are text. -/
def document (d : FungibleTokenPacketData) : List Char := '{' :: writeMembers (texts d)

theorem written_eq {d : FungibleTokenPacketData}
    (hne : d.amount ≠ [] ∧ d.denom ≠ [] ∧ d.receiver ≠ [] ∧ d.sender ≠ []) :
    written d = if d.memo = [] then [.amount, .denom, .receiver, .sender] else PacketField.all := by
  obtain ⟨hamount, hdenom, hreceiver, hsender⟩ := hne
  by_cases hmemo : d.memo = [] <;>
    simp [written, PacketField.all, FungibleTokenPacketData.get, hamount, hdenom, hreceiver,
      hsender, hmemo]

/-- Data whose fields are text is sent as its text. -/
theorem encode_document {d : FungibleTokenPacketData}
    (hne : d.amount ≠ [] ∧ d.denom ≠ [] ∧ d.receiver ≠ [] ∧ d.sender ≠ [])
    (htext : ∀ f, isText (d.get f) = true) :
    text.encode (document d) = fungible_token_packet_data.get_bytes d := by
  have hread : ∀ f, text.encode (raw f (text.decode (d.get f))) = if f = .memo then
      fungible_token_packet_data.escapeQuotes (d.get f) else d.get f := by
    intro f
    have hf : text.encode (text.decode (d.get f)) = d.get f := by simpa [isText] using htext f
    rw [encode_raw, hf]
  have hopen : text.encodeChar '{' = [123] := by decide
  have hname : ∀ f, text.encode (PacketField.name f) = match f with
      | .amount => utf8 "amount"
      | .denom => utf8 "denom"
      | .memo => utf8 "memo"
      | .receiver => utf8 "receiver"
      | .sender => utf8 "sender" := by
    intro f
    cases f <;> decide
  obtain ⟨hamount, hdenom, hreceiver, hsender⟩ := hne
  have ha : text.encode (raw .amount (text.decode d.amount)) = d.amount := hread .amount
  have hd : text.encode (raw .denom (text.decode d.denom)) = d.denom := hread .denom
  have hm : text.encode (raw .memo (text.decode d.memo)) =
    fungible_token_packet_data.escapeQuotes d.memo := hread .memo
  have hr : text.encode (raw .receiver (text.decode d.receiver)) = d.receiver := hread .receiver
  have hs : text.encode (raw .sender (text.decode d.sender)) = d.sender := hread .sender
  unfold document texts fungible_token_packet_data.get_bytes
  rw [written_eq ⟨hamount, hdenom, hreceiver, hsender⟩, text.encode_cons, hopen]
  by_cases hmemo : d.memo = []
  · simp [hmemo, encode_writeMembers_cons, encode_writeMembers_single, hname, ha, hd, hr, hs,
      FungibleTokenPacketData.get, hamount, hdenom, hreceiver, hsender,
      fungible_token_packet_data.escapeQuotes]
  · have hescaped := (escapeQuotes_eq_nil d.memo).not.mpr hmemo
    simp [hmemo, hescaped, PacketField.all, encode_writeMembers_cons, encode_writeMembers_single,
      hname, ha, hd, hm, hr, hs, FungibleTokenPacketData.get, hamount, hdenom, hreceiver, hsender]

/-! ## Readable data is read back -/

theorem raw_eq_quoted {f : PacketField} {cs : List Char} (h : ∀ c ∈ cs, isPlain f c = true) :
    raw f cs = quoted cs := by
  unfold raw
  split
  · rfl
  · rename_i hf
    refine (quoted_eq_self fun c hc => ?_).symm
    have := h c hc
    simp only [isPlain, Bool.and_eq_true, Bool.or_eq_true, beq_iff_eq, bne_iff_ne] at this
    exact this.2.resolve_left hf

/-- The members of these fields set them to what they are in the data, and leave the others. -/
theorem foldlM_setMember {d : FungibleTokenPacketData} (htext : ∀ f, isText (d.get f) = true)
    (fields : List PacketField) (start : FungibleTokenPacketData) :
    ∃ out, (fields.map fun f => (f.name, Json.string (text.decode (d.get f)))).foldlM
        setMember start = some out ∧
      ∀ g, out.get g = if g ∈ fields then d.get g else start.get g := by
  induction fields generalizing start with
  | nil => exact ⟨start, rfl, fun g => by simp⟩
  | cons f fields ih =>
    have hstep : setMember start (f.name, Json.string (text.decode (d.get f))) =
        some (start.set (d.get f) f) := by
      have hf : text.encode (text.decode (d.get f)) = d.get f := by simpa [isText] using htext f
      simp only [setMember, PacketField.ofKey_name, hf]
    obtain ⟨out, hout, hget⟩ := ih (start.set (d.get f) f)
    refine ⟨out, ?_, ?_⟩
    · simp only [List.map_cons, List.foldlM_cons, hstep, bind, Option.bind_some]
      exact hout
    · intro g
      rw [hget g, FungibleTokenPacketData.get_set]
      by_cases hfg : f = g
      · subst hfg
        simp
      · simp [hfg, Ne.symm hfg]

theorem isReadable_iff {d : FungibleTokenPacketData} :
    isReadable d = true ↔ ∀ f, isText (d.get f) = true ∧
      ∀ c ∈ text.decode (d.get f), isPlain f c = true := by
  simp only [isReadable, List.all_eq_true, Bool.and_eq_true]
  exact ⟨fun h f => h f f.mem_all, fun h f _ => h f⟩

theorem unmarshal_of_readable {d : FungibleTokenPacketData}
    (hvalid : fungible_token_packet_data.validate_basic d = true) (h : isReadable d = true) :
    unmarshal (fungible_token_packet_data.get_bytes d) = some d := by
  rw [isReadable_iff] at h
  have htext := fun f => (h f).1
  have hplain := fun f => (h f).2
  have hname : ∀ f, f ∈ PacketField.all →
      (PacketField.name f).all (fun c => isSafe c && c != '"') = true := by decide
  have hne : written d ≠ [] := by
    rw [written_eq (fungible_token_packet_data.fields_ne_nil hvalid)]
    split <;> simp [PacketField.all]
  -- what is written is readable members with their quotes escaped
  have hquoted : texts d =
      ((written d).map fun f => (f.name, text.decode (d.get f))).map quotedField := by
    simp only [texts, List.map_map]
    refine List.map_congr_left fun f _ => ?_
    simp only [Function.comp_apply, quotedField, raw_eq_quoted (hplain f)]
  have hparse : parse (document d) = some (.object ((written d).map fun f =>
      (f.name, .string (text.decode (d.get f))))) := by
    unfold document
    rw [hquoted, parse_written (by simpa using hne), List.map_map]
    · rfl
    · intro m hm
      obtain ⟨f, -, rfl⟩ := List.mem_map.mp hm
      simp only [json.isReadable, hname f f.mem_all, Bool.true_and, List.all_eq_true]
      intro c hc
      have := hplain f c hc
      simp only [isPlain, Bool.and_eq_true] at this
      exact this.1
  obtain ⟨out, hout, hget⟩ := foldlM_setMember htext (written d) .blank
  have hd : out = d := by
    refine FungibleTokenPacketData.eq_of_get fun f => ?_
    rw [hget f]
    split
    · rfl
    · rename_i hf
      simp only [written, List.mem_filter, f.mem_all, true_and, bne_iff_ne, not_not] at hf
      rw [hf]
      cases f <;> rfl
  rw [← encode_document (fungible_token_packet_data.fields_ne_nil hvalid) htext]
  simp only [unmarshal, text.decode_encode, hparse]
  rw [hout, hd]

/-! ## Only readable data is

A text that is read as the data has to pay for every field of it, and the text that is sent is
just long enough if no character of it stands for something else. -/

/-- What a field costs in any text it is read from. -/
def fieldCost (f : PacketField) (bz : Bytes) : Nat :=
  if bz = [] then 0 else f.name.length + cost (text.decode bz) + 6

/-- What a field takes in the text that is sent. -/
def fieldLength (f : PacketField) (bz : Bytes) : Nat :=
  if bz = [] then 0 else f.name.length + (raw f (text.decode bz)).length + 6

/-- The sum of a measure over the fields. -/
def total (measure : PacketField → Bytes → Nat) (d : FungibleTokenPacketData) : Nat :=
  (PacketField.all.map fun f => measure f (d.get f)).sum

theorem total_set (d : FungibleTokenPacketData) (bz : Bytes) (f : PacketField) :
    total fieldCost (d.set bz f) ≤ total fieldCost d + fieldCost f bz := by
  cases f <;>
    simp only [total, PacketField.all, FungibleTokenPacketData.set, FungibleTokenPacketData.get,
      List.map_cons, List.map_nil, List.sum_cons, List.sum_nil] <;>
    omega

/-- One member adds at most what it takes in the text, and leaves every field text. -/
theorem setMember_cost {d d' : FungibleTokenPacketData} {m : List Char × Json}
    (h : setMember d m = some d') :
    total fieldCost d' ≤ total fieldCost d + (cost m.1 + 4 + stringCost m.2) ∧
      ((∀ f, isText (d.get f) = true) → ∀ f, isText (d'.get f) = true) := by
  unfold setMember at h
  split at h
  · cases h
    exact ⟨by omega, id⟩
  · rename_i f cs hkey hvalue
    cases h
    have hname := PacketField.length_of_ofKey hkey
    have hlength := length_le_cost m.1
    have hset := total_set d (text.encode cs) f
    have hfield : fieldCost f (text.encode cs) ≤ f.name.length + cost cs + 6 := by
      unfold fieldCost
      split
      · omega
      · rw [text.decode_encode]
    rw [hvalue]
    refine ⟨by simp only [stringCost]; omega, ?_⟩
    intro htext g
    rw [FungibleTokenPacketData.get_set]
    split
    · simp [isText]
    · exact htext g
  · cases h
    exact ⟨by omega, id⟩
  · cases h

/-- All the members together. -/
theorem foldlM_setMember_cost {ms : List (List Char × Json)} {d d' : FungibleTokenPacketData}
    (h : ms.foldlM setMember d = some d') :
    total fieldCost d' ≤ total fieldCost d + membersCost ms ∧
      ((∀ f, isText (d.get f) = true) → ∀ f, isText (d'.get f) = true) := by
  induction ms generalizing d with
  | nil =>
    cases h
    exact ⟨by omega, id⟩
  | cons m ms ih =>
    simp only [List.foldlM_cons, bind_eq_some] at h
    obtain ⟨d₁, hstep, hrest⟩ := h
    obtain ⟨hone, htext⟩ := setMember_cost hstep
    obtain ⟨hall, htexts⟩ := ih hrest
    rw [← Prod.eta m, membersCost_cons]
    exact ⟨by omega, fun ht => htexts (htext ht)⟩

theorem raw_cons (f : PacketField) (c : Char) (cs : List Char) :
    (raw f (c :: cs)).length = (if f = .memo ∧ c = '"' then 2 else 1) + (raw f cs).length := by
  unfold raw
  by_cases hf : f = .memo
  · by_cases hc : c = '"' <;> simp [hf, hc, quoted_cons] <;> omega
  · simp [hf]
    omega

/-- A field is never longer than what it costs, and as long only if it is plain. -/
theorem raw_length (f : PacketField) (cs : List Char) :
    (raw f cs).length ≤ cost cs ∧
      ((raw f cs).length = cost cs → ∀ c ∈ cs, isPlain f c = true) := by
  induction cs with
  | nil => cases f <;> simp [raw]
  | cons c cs ih =>
    obtain ⟨hle, hplain⟩ := ih
    have hchar : (if f = .memo ∧ c = '"' then 2 else 1) ≤ charCost c ∧
        ((if f = .memo ∧ c = '"' then 2 else 1) = charCost c → isPlain f c = true) := by
      by_cases hquote : c = '"'
      · subst hquote
        cases f <;> decide
      · by_cases hslash : c = '\\'
        · subst hslash
          cases f <;> decide
        · by_cases hcontrol : c.toNat < 0x20
          · simp [charCost, hquote, hcontrol]
          · have : 32 ≤ c.toNat := by omega
            simp [charCost, hquote, hslash, hcontrol, isPlain, isSafe, this]
    rw [raw_cons, cost_cons]
    refine ⟨by omega, ?_⟩
    intro heq x hx
    rcases List.mem_cons.mp hx with rfl | hx
    · exact hchar.2 (by omega)
    · exact hplain (by omega) x hx

theorem sum_filter (fields : List PacketField) (d : FungibleTokenPacketData) :
    (((fields.filter fun f => d.get f != []).map fun f =>
        f.name.length + (raw f (text.decode (d.get f))).length + 6)).sum =
      (fields.map fun f => fieldLength f (d.get f)).sum := by
  induction fields with
  | nil => rfl
  | cons f fields ih =>
    by_cases hf : d.get f = [] <;> simp [hf, fieldLength, ih]

theorem length_document {d : FungibleTokenPacketData} (hne : written d ≠ []) :
    (document d).length = 1 + total fieldLength d := by
  have htexts : texts d ≠ [] := by simpa [texts] using hne
  rw [document, List.length_cons, length_writeMembers htexts, texts, List.map_map]
  have := sum_filter PacketField.all d
  simp only [written, total, Function.comp_def] at this ⊢
  omega

theorem readable_of_unmarshal {d : FungibleTokenPacketData}
    (hvalid : fungible_token_packet_data.validate_basic d = true)
    (h : unmarshal (fungible_token_packet_data.get_bytes d) = some d) : isReadable d = true := by
  have hne : written d ≠ [] := by
    rw [written_eq (fungible_token_packet_data.fields_ne_nil hvalid)]
    split <;> simp [PacketField.all]
  have hblank : ∀ f, isText (FungibleTokenPacketData.blank.get f) = true := by
    intro f
    cases f <;> decide
  unfold unmarshal at h
  split at h
  · rename_i ms hparse
    obtain ⟨hcost, htext⟩ := foldlM_setMember_cost h
    have htext := htext hblank
    rw [← encode_document (fungible_token_packet_data.fields_ne_nil hvalid) htext, text.decode_encode] at hparse
    have hlong := parse_object_cost hparse
    rw [length_document hne] at hlong
    have hzero : total fieldCost .blank = 0 := by decide
    have hfield : ∀ f, fieldLength f (d.get f) ≤ fieldCost f (d.get f) := by
      intro f
      have := (raw_length f (text.decode (d.get f))).1
      unfold fieldLength fieldCost
      split <;> omega
    -- the sums are equal, so each field is as long as it costs
    have hequal : ∀ f, fieldLength f (d.get f) = fieldCost f (d.get f) := by
      have ha := hfield .amount
      have hd := hfield .denom
      have hm := hfield .memo
      have hr := hfield .receiver
      have hs := hfield .sender
      simp only [total, PacketField.all, List.map_cons, List.map_nil, List.sum_cons,
        List.sum_nil] at hcost hlong hzero
      intro f
      cases f <;> omega
    rw [isReadable_iff]
    intro f
    refine ⟨htext f, ?_⟩
    have hf := hequal f
    unfold fieldLength fieldCost at hf
    split at hf
    · rename_i hnil
      rw [hnil]
      intro c hc
      cases hc
    · exact (raw_length f _).2 (by omega)
  · cases h
    cases hvalid
  · cases h

/-! ## Amounts -/

def unsigned (digits : Bytes) : Option Int :=
  if digits ≠ [] ∧ digits.all fun b => 48 ≤ b.toNat ∧ b.toNat ≤ 57 then
    some (fungible_token_packet_data.decimalValue digits : Int)
  else none

/-- How the other chain reads an amount: one sign at most, and digits. -/
def parseAmount (amount : Bytes) : Option Int :=
  match amount with
  | [] => none
  | b :: digits =>
    if b = 45 then (unsigned digits).map fun n => -n
    else if b = 43 then unsigned digits
    else unsigned amount

theorem parseAmount_of_digits {digits : Bytes} (hne : digits ≠ [])
    (h : ∀ b ∈ digits, 48 ≤ b.toNat ∧ b.toNat ≤ 57) :
    parseAmount digits = some (fungible_token_packet_data.decimalValue digits : Int) := by
  obtain ⟨b, rest, rfl⟩ := List.exists_cons_of_ne_nil hne
  have hdigit := h b List.mem_cons_self
  rw [parseAmount, if_neg, if_neg, unsigned, if_pos ⟨hne, by simpa using h⟩]
  · rintro rfl
    exact absurd hdigit (by decide)
  · rintro rfl
    exact absurd hdigit (by decide)

/-- The amount of accepted data is the decimal number that both chains read exactly if there is no
minus sign in it. -/
theorem amount_is_one_number_iff {data : FungibleTokenPacketData}
    (hvalid : fungible_token_packet_data.validate_basic data = true) :
    (∃ n : Int, 0 < n ∧ (∀ b ∈ data.amount, 48 ≤ b.toNat ∧ b.toNat ≤ 57) ∧
      int.from_utf8 data.amount = some n ∧
      n = fungible_token_packet_data.decimalValue data.amount ∧
      parseAmount data.amount = some n) ↔ 45 ∉ data.amount := by
  constructor
  · rintro ⟨n, -, hdigits, -⟩ hminus
    exact absurd (hdigits 45 hminus) (by decide)
  · intro hminus
    obtain ⟨n, hn, hpos⟩ := fungible_token_packet_data.validate_basic_reads hvalid
    have hdigits : ∀ b ∈ data.amount, 48 ≤ b.toNat ∧ b.toNat ≤ 57 := by
      intro b hb
      rcases fungible_token_packet_data.amount_byte hn hb with hdigit | rfl
      · exact hdigit
      · exact absurd hb hminus
    have hvalue : n = fungible_token_packet_data.decimalValue data.amount := by
      rw [fungible_token_packet_data.from_utf8_of_digits hdigits] at hn
      exact (Option.some.inj hn).symm
    refine ⟨n, hpos, hdigits, hn, hvalue, ?_⟩
    rw [hvalue]
    exact parseAmount_of_digits (fungible_token_packet_data.fields_ne_nil hvalid).1 hdigits

def dataOfAmount (amount : Bytes) : FungibleTokenPacketData where
  denom := utf8 "6c6f76656c616365"
  amount := amount
  sender := utf8 "addr1"
  receiver := utf8 "cosmos1r"
  memo := []

theorem amount_of_digits_is_one_number :
    fungible_token_packet_data.validate_basic (dataOfAmount (utf8 "0150")) = true ∧
    ∃ n : Int, 0 < n ∧ (∀ b ∈ utf8 "0150", 48 ≤ b.toNat ∧ b.toNat ≤ 57) ∧
      int.from_utf8 (utf8 "0150") = some n ∧
      n = fungible_token_packet_data.decimalValue (utf8 "0150") ∧
      parseAmount (utf8 "0150") = some n := by
  have hvalid : fungible_token_packet_data.validate_basic (dataOfAmount (utf8 "0150")) = true := by
    decide +kernel
  exact ⟨hvalid, (amount_is_one_number_iff hvalid).mpr (by decide)⟩

/-- The text 15--7 is taken for 22 here, and the other chain does not read it. -/
theorem amount_with_signs_is_read_here_only :
    fungible_token_packet_data.validate_basic (dataOfAmount (utf8 "15--7")) = true ∧
    int.from_utf8 (utf8 "15--7") = some 22 ∧ parseAmount (utf8 "15--7") = none := by
  decide +kernel

/-! ## Packets -/

open spend_transfer_module in
/-- The other chain reads a transfer as it was ordered exactly if its data is readable. -/
theorem transfer_is_read_as_ordered_iff [Builtins] {p : Params} {redeemer : IBCModuleRedeemer}
    {ref : OutputReference} {tx : Transaction} {channel_id : Bytes}
    {data : FungibleTokenPacketData} (haccepted : spend p redeemer ref tx = some true)
    (hordered : requested redeemer = some (channel_id, data)) :
    ∃ packet, channelRedeemer p tx channel_id = some (.SendPacket packet) ∧
      (unmarshal packet.data = some data ↔ isReadable data = true) := by
  obtain ⟨spent, host, hoperator⟩ := spend_requested haccepted hordered
  obtain ⟨hvalid, packet, hpacket, hdata⟩ := module_operator_packet hoperator
  refine ⟨packet, hpacket, ?_⟩
  rw [hdata]
  exact ⟨readable_of_unmarshal hvalid, unmarshal_of_readable hvalid⟩

section Sample

/-- SHA-256 as it is, and the other digests on the texts the names of the sample are made of. -/
abbrev transferBuiltins : Builtins where
  sha2_256 := sha256.digest
  sha3_256 m :=
    if m = List.replicate 28 1 ++ utf8 "ibc_host_state" then
      bigEndian 32 0x00a534446f3cc32f5e29f8397167a024e0f402a2e1f864ef1abc2c368f2c0ef8
    else bigEndian 32 0x239b722046c199b163647136366f31397fecf6e04ab9305e5e19411c64cd5051
  blake2b_224 _ := bigEndian 28 0x8d0344a33b55676b617fd7b15311ae26dd867028a4aa43280110cbd2
  blake2b_256 := sha256.digest
  verify_ed25519_signature _ _ _ := false
  sha2_256_length := sha256.length_digest
  sha2_256_empty := sha256.digest_nil

local instance : Builtins := transferBuiltins

open spend_transfer_module

def sampleParams : Params where
  port_token := { policy_id := List.replicate 28 9, name := utf8 "port" }
  module_token := { policy_id := List.replicate 28 30, name := utf8 "module" }
  port_id := utf8 "transfer"
  transfer_escrow_shard_policy_id := List.replicate 28 31
  channel_minting_policy_id := List.replicate 28 7
  voucher_minting_policy_id := List.replicate 28 32
  host_state_nft_policy_id := List.replicate 28 1

/-- One token of a native policy, to somebody on the other chain. -/
def sampleData (sender : Bytes) : FungibleTokenPacketData where
  denom := (List.replicate 28 (utf8 "2a")).flatten
  amount := utf8 "1"
  sender := sender
  receiver := utf8 "cosmos1r"
  memo := []

def samplePacket (data : FungibleTokenPacketData) : Packet where
  sequence := 1
  source_port := utf8 "transfer"
  source_channel := utf8 "channel-0"
  destination_port := utf8 "transfer"
  destination_channel := utf8 "channel-9"
  data := fungible_token_packet_data.get_bytes data
  timeout_height := { revision_number := 0, revision_height := 0 }
  timeout_timestamp := 1000000000

def scriptOutput (hash : ScriptHash) (value : Value) (datum : Datum) : Output :=
  { address := { payment_credential := .Script hash, stake_credential := none }, value, datum }

def outputRef (n : Nat) : OutputReference :=
  { transaction_id := List.replicate 32 91, output_index := n }

def sampleHostState (version : Int) : HostStateDatum :=
  { state :=
      { version, ibc_state_root := List.replicate 32 5, next_client_sequence := 1,
        next_connection_sequence := 1, next_channel_sequence := 1, bound_port := [],
        last_update_time := 0 }
    nft_policy := List.replicate 28 1
    deployer := List.replicate 28 80
    shutdown := .Active }

/-- The shard of the denomination with some of it escrowed. -/
def sampleShard (sender : Bytes) (quantity : Int) : Output :=
  scriptOutput (List.replicate 28 33)
    [(ada_policy_id, ada_asset_name, 2000000),
      (List.replicate 28 31,
        bigEndian 28 0x8d0344a33b55676b617fd7b15311ae26dd867028a4aa43280110cbd2, 1),
      (List.replicate 28 42, [], quantity)]
    (.InlineDatum (.transferEscrow
      { channel_id := utf8 "channel-0", denom := (sampleData sender).denom }))

def sampleHostOutputs (version : Int) : Output :=
  scriptOutput (List.replicate 28 2)
    [(ada_policy_id, ada_asset_name, 2000000), (List.replicate 28 1, host_state_token_name, 1)]
    (.InlineDatum (.hostState (sampleHostState version)))

def sampleChannelToken : Output :=
  scriptOutput (List.replicate 28 8)
    [(ada_policy_id, ada_asset_name, 2000000),
      (List.replicate 28 7,
        bigEndian 20 0x00a534446f3cc32f5e29f8397167a024e0f402a2 ++ bigEndian 4 0x239b7220 ++
          utf8 "0", 1)] .NoDatum

/-- A shard with five tokens takes in one more, and the channel sends the packet. -/
def sampleTransfer (sender : Bytes) : Transaction where
  inputs := [
    { output_reference := outputRef 0, output := sampleHostOutputs 4 },
    { output_reference := outputRef 1, output := sampleChannelToken },
    { output_reference := outputRef 2, output := sampleShard sender 5 }]
  reference_inputs := []
  outputs := [sampleHostOutputs 5, sampleChannelToken, sampleShard sender 6]
  fee := 0
  mint := []
  validity_range :=
    { lower_bound := { bound_type := .NegativeInfinity, is_inclusive := true }
      upper_bound := { bound_type := .Finite 100, is_inclusive := true } }
  extra_signatories := []
  redeemers := [
    (.Spend (outputRef 1), .spendChannelRedeemer (.SendPacket (samplePacket (sampleData sender))))]
  datums := []
  id := List.replicate 32 92

def sampleOrder (sender : Bytes) : IBCModuleRedeemer :=
  .Operator (.ModuleOperatorV1 (.transferOrder (.Transfer (utf8 "channel-0") (sampleData sender))))

/-- A sender with a plain name. -/
theorem a_plain_transfer_is_read :
    spend sampleParams (sampleOrder (utf8 "addr1")) (outputRef 2) (sampleTransfer (utf8 "addr1")) =
        some true ∧
      ∃ packet, channelRedeemer sampleParams (sampleTransfer (utf8 "addr1")) (utf8 "channel-0") =
          some (.SendPacket packet) ∧
        (unmarshal packet.data = some (sampleData (utf8 "addr1")) ↔
          isReadable (sampleData (utf8 "addr1")) = true) ∧
        isReadable (sampleData (utf8 "addr1")) = true := by
  have haccepted : spend sampleParams (sampleOrder (utf8 "addr1")) (outputRef 2)
      (sampleTransfer (utf8 "addr1")) = some true := by decide +kernel
  obtain ⟨packet, hpacket, hread⟩ := transfer_is_read_as_ordered_iff haccepted rfl
  exact ⟨haccepted, packet, hpacket, hread, by decide +kernel⟩

/-- A sender whose name closes its quotes and gives the amount again. -/
def forgedSender : Bytes := utf8 "addr1\",\"amount\":\"1000"

/-- One token is escrowed and the other chain reads a thousand. -/
theorem a_thousand_is_read_for_one :
    spend sampleParams (sampleOrder forgedSender) (outputRef 2) (sampleTransfer forgedSender) =
        some true ∧
      requested (sampleOrder forgedSender) = some (utf8 "channel-0", sampleData forgedSender) ∧
      channelRedeemer sampleParams (sampleTransfer forgedSender) (utf8 "channel-0") =
        some (.SendPacket (samplePacket (sampleData forgedSender))) ∧
      (sampleData forgedSender).amount = utf8 "1" ∧
      unmarshal (samplePacket (sampleData forgedSender)).data =
        some { sampleData (utf8 "addr1") with amount := utf8 "1000" } := by
  refine ⟨by decide +kernel, rfl, by decide +kernel, rfl, by decide +kernel⟩

end Sample

end counterparty

end cardano_ibc
