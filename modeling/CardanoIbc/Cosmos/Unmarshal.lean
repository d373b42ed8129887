-- What the Cosmos-side client makes of bytes that Cardano wrote: the decoder fxamacker/cbor with
-- its default options, for the Go types of host_state.go and ibc_state_proof.go.
import CardanoIbc.Cosmos.Block
import CardanoIbc.Ledger.Threads
import CardanoIbc.Library.CborItem

namespace cardano_ibc.probabilistic

open cbor_item (Item Limits)

namespace unmarshal

/-- MaxNestedLevels, MaxArrayElements and MaxMapPairs where nothing else is set. -/
def limits : Limits := { nestedLevels := 32, arrayElements := 131072, mapPairs := 131072 }

def isText : Item → Bool
  | .text _ => true
  | _ => false

def isBytes : Item → Bool
  | .bytes _ => true
  | _ => false

def isNumber : Item → Bool
  | .unsigned _ => true
  | .negative _ => true
  | .float _ _ => true
  | _ => false

/-- Tags that are not registered are passed over. Those of times and big numbers must stand on
content of their kind; a big number keeps its tag. -/
def untag : Item → Option Item
  | .tag number content =>
    if number = 0 then if isText content then some content else none
    else if number = 1 then if isNumber content then some content else none
    else if number = 2 ∨ number = 3 then
      if isBytes content then some (.tag number content) else none
    else untag content
  | item => some item

/-- `null` and `undefined` leave the variable as it is: the zero value. -/
def isNil (n : Nat) : Bool := n == 22 || n == 23

/-- Into an unsigned integer below a bound. -/
def unsigned (bound : Nat) (item : Item) : Option Nat := do
  match ← untag item with
  | .unsigned n => if n < bound then some n else none
  | .tag 2 (.bytes bz) => if cbor_item.ofBe bz < bound then some (cbor_item.ofBe bz) else none
  | .simple n => if isNil n then some 0 else none
  | _ => none

def uint64 (item : Item) : Option UInt64 := (unsigned (2 ^ 64) item).map Nat.toUInt64

def uint8 (item : Item) : Option UInt8 := (unsigned (2 ^ 8) item).map Nat.toUInt8

/-- Into a `[]byte`: a byte string, a big number, or an array of small numbers. -/
def byteSlice (item : Item) : Option Bytes := do
  match ← untag item with
  | .bytes bz => some bz
  | .tag _ (.bytes bz) => some bz
  | .array items => items.mapM uint8
  | .simple n => if isNil n then some [] else none
  | _ => none

/-- Into a `[]uint64`. -/
def uint64Slice (item : Item) : Option (List UInt64) := do
  match ← untag item with
  | .array items => items.mapM uint64
  | .simple n => if isNil n then some [] else none
  | _ => none

/-- The items for the fields of a struct with the option `toarray`; `none` inside is a struct
that stays as it is. -/
def structFields (item : Item) : Option (Option (List Item)) := do
  match ← untag item with
  | .array items => some (some items)
  | .simple n => if isNil n then some none else none
  | _ => none

end unmarshal

/-! ## What Cardano writes -/

section Reading

variable {lim : Limits} {depth : Nat}

theorem bigEndian_eq (len n : Nat) : bigEndian len n = cbor_item.beBytes len n := by
  induction len with
  | zero => rfl
  | succ len ih => simp [bigEndian, cbor_item.beBytes, ih]

theorem head_eq_write (major n : Nat) : cbor.head major n = cbor_item.write major n := by
  simp only [cbor.head, cbor_item.write, bigEndian_eq]

theorem flatten_chunks {fuel : Nat} {bz : Bytes} (h : bz.length ≤ fuel) :
    (cbor.chunks fuel bz).flatten = bz := by
  induction fuel generalizing bz with
  | zero =>
    rw [List.eq_nil_of_length_eq_zero (by omega : bz.length = 0)]
    rfl
  | succ fuel ih =>
    unfold cbor.chunks
    by_cases hnil : bz = []
    · rw [if_pos hnil, hnil]
      rfl
    · have hpos := List.length_pos_of_ne_nil hnil
      rw [if_neg hnil, List.flatten_cons, ih (by rw [List.length_drop]; omega),
        List.take_append_drop]

theorem length_le_of_mem_chunks {fuel : Nat} {bz p : Bytes} (h : p ∈ cbor.chunks fuel bz) :
    p.length ≤ 64 := by
  induction fuel generalizing bz with
  | zero => cases h
  | succ fuel ih =>
    unfold cbor.chunks at h
    split at h
    · cases h
    · rcases List.mem_cons.mp h with rfl | h
      · rw [List.length_take]
        omega
      · exact ih h

theorem readFrom_bytestring (bz : Bytes) :
    (Item.bytes bz).ReadFrom lim depth (cbor.bytestring bz) := by
  unfold cbor.bytestring
  split
  · rw [head_eq_write]
    exact Item.readFrom_bytes (by omega)
  · have hread : (Item.bytes (cbor.chunks bz.length bz).flatten).ReadFrom lim depth _ :=
      Item.readFrom_chunks fun p hp => by
        have := length_le_of_mem_chunks hp
        omega
    rw [flatten_chunks (Nat.le_refl _)] at hread
    simp only [head_eq_write]
    exact hread

theorem readFrom_natural {n : Int} (hn : 0 ≤ n ∧ n < 2 ^ 64) :
    (Item.unsigned n.toNat).ReadFrom lim depth (cbor.int n) := by
  rw [cbor.int, if_pos hn.1, if_pos hn.2, head_eq_write]
  exact Item.readFrom_unsigned (by omega)

theorem beginsTag_bytestring (bz : Bytes) : cbor_item.beginsTag (cbor.bytestring bz) = false := by
  unfold cbor.bytestring
  split
  · rename_i h
    rw [head_eq_write]
    unfold cbor_item.write
    dsimp only
    split_ifs
    · simp only [cbor_item.beginsTag, List.cons_append, List.head?_cons, Option.any_some,
        beq_eq_false_iff_ne]
      simp [Nat.mod_eq_of_lt (show 2 * 32 + bz.length < 256 by omega)]
      omega
    · rfl
    all_goals omega
  · rfl

/-- Every integer is read as some item. -/
theorem exists_readFrom_int (hdepth : depth ≤ lim.nestedLevels) (n : Int) :
    ∃ x : Item, x.ReadFrom lim depth (cbor.int n) := by
  unfold cbor.int
  dsimp only
  split_ifs with hsign hsmall hsmall
  · rw [head_eq_write]
    exact ⟨_, Item.readFrom_unsigned (by omega)⟩
  · rw [head_eq_write]
    exact ⟨_, Item.readFrom_tag (by decide) hdepth (beginsTag_bytestring _)
      (readFrom_bytestring _)⟩
  · rw [head_eq_write]
    exact ⟨_, Item.readFrom_negative hsmall⟩
  · rw [head_eq_write]
    exact ⟨_, Item.readFrom_tag (by decide) hdepth (beginsTag_bytestring _)
      (readFrom_bytestring _)⟩

theorem readFrom_integer {n : Int} (hn : 0 ≤ n ∧ n < 2 ^ 64) :
    (Item.unsigned n.toNat).ReadFrom lim depth (cbor.encode (.integer n)) := by
  rw [cbor.encode]
  exact readFrom_natural hn

end Reading

/-! ## The host state datum -/

/-- The Go structs as they are filled from bytes; what `Shutdown` is does not matter. -/
structure RawHostStateDatum where
  State : HostState
  NftPolicy : Bytes
  Deployer : Bytes
  Shutdown : Option Item

def zeroHostState : HostState :=
  { Version := 0
    IbcStateRoot := []
    NextClientSequence := 0
    NextConnectionSeq := 0
    NextChannelSeq := 0
    BoundPort := []
    LastUpdateTimeMillis := 0 }

def unmarshalHostState (item : Item) : Option HostState := do
  match ← unmarshal.structFields item with
  | some [version, root, client, connection, channel, ports, time] =>
    return {
      Version := ← unmarshal.uint64 version
      IbcStateRoot := ← unmarshal.byteSlice root
      NextClientSequence := ← unmarshal.uint64 client
      NextConnectionSeq := ← unmarshal.uint64 connection
      NextChannelSeq := ← unmarshal.uint64 channel
      BoundPort := ← unmarshal.uint64Slice ports
      LastUpdateTimeMillis := ← unmarshal.uint64 time }
  | some _ => none
  | none => some zeroHostState

def unmarshalHostStateDatum (datumCbor : Bytes) : Option RawHostStateDatum := do
  let item ← cbor_item.read unmarshal.limits datumCbor
  match ← unmarshal.structFields item with
  | some [state, policy, deployer, shutdown] =>
    return {
      State := ← unmarshalHostState state
      NftPolicy := ← unmarshal.byteSlice policy
      Deployer := ← unmarshal.byteSlice deployer
      Shutdown := some shutdown }
  | some _ => none
  | none => some { State := zeroHostState, NftPolicy := [], Deployer := [], Shutdown := none }

/-- `ExtractIbcStateRootFromHostStateDatum` on the bytes it is given. -/
def ExtractIbcStateRootFromHostStateDatumCbor (datumCbor expectedNftPolicyId : Bytes) :
    Except Err Bytes := do
  let datum ← found (unmarshalHostStateDatum datumCbor) .ErrInvalidHostStateCommitment
  require (expectedNftPolicyId.isEmpty || datum.NftPolicy == expectedNftPolicyId)
    .ErrInvalidHostStateCommitment
  require (datum.State.IbcStateRoot.length == 32) .ErrInvalidHostStateCommitment
  return datum.State.IbcStateRoot

/-! ### No datum of the host state is decoded -/

/-- A record in the place of the ports that is a map makes the decoder fail. -/
theorem unmarshalHostState_map {number : Nat} (hnumber : 3 < number) {a b c d e : Item}
    {ports rest : List Item} :
    unmarshalHostState (.tag number (.array (a :: b :: c :: d :: e :: .map ports :: rest))) =
      none := by
  have hfields : unmarshal.structFields
      (.tag number (.array (a :: b :: c :: d :: e :: .map ports :: rest))) =
      some (some (a :: b :: c :: d :: e :: .map ports :: rest)) := by
    simp [unmarshal.structFields, unmarshal.untag, show number ≠ 0 by omega,
      show number ≠ 1 by omega, show number ≠ 2 by omega, show number ≠ 3 by omega]
  cases h : unmarshalHostState
      (.tag number (.array (a :: b :: c :: d :: e :: .map ports :: rest))) with
  | none => rfl
  | some state =>
    simp only [unmarshalHostState, hfields, bind_eq_some, Option.some.injEq] at h
    obtain ⟨_, rfl, h⟩ := h
    split at h
    · rename_i heq
      cases heq
      simp only [bind_eq_some] at h
      obtain ⟨_, -, _, -, _, -, _, -, _, -, _, hports, -⟩ := h
      cases hports
    · cases h
    · rename_i heq
      cases heq

/-- The bytes of an array under a tag that begin with a known item. -/
theorem tagged_of_readItems {lim : Limits} {fuel depth number : Nat} {count : Option Nat}
    {bs rest : Bytes} {items : List Item} (hnumber : number < 2 ^ 64) (hcount : count ≠ some 0)
    (hfuel : (cbor_item.write 6 number ++ (0x9f : UInt8) :: bs).length < fuel)
    (h : cbor_item.readItems lim fuel depth count
      (cbor_item.write 6 number ++ (0x9f : UInt8) :: bs) = some (items, rest)) :
    ∃ f inner fields others tail, items = .tag number (.array fields) :: others ∧
      bs.length < f ∧ inner ≤ lim.nestedLevels ∧ cbor_item.readItems lim f inner none bs = some (fields, tail) := by
  have hwrite := List.length_pos_of_ne_nil (cbor_item.write_ne_nil 6 number)
  rw [List.length_append, List.length_cons] at hfuel
  obtain ⟨f, tail, item, others, rfl, rfl, hitem, -⟩ :=
    cbor_item.cons_of_readItems hcount (cbor_item.begins_write (by decide) _ _) h
  obtain ⟨content, inner, rfl, hcontent⟩ := cbor_item.tag_of_readItem hnumber hitem
  obtain ⟨f, _, _, _, rfl, heq, harray, -⟩ :=
    cbor_item.cons_of_readItems (by simp) ⟨0x9f, rfl, by decide⟩ hcontent
  cases heq
  obtain ⟨hdepth, fields, rfl, hfields⟩ := cbor_item.array_of_readItem harray
  exact ⟨f, inner + 1, fields, others, _, rfl, by omega, hdepth, hfields⟩

/-- The record of the host state as its bytes begin: five fields, and then the map of the ports. -/
def hostStateBegins (s : cardano_ibc.HostState) (tail : Bytes) : Bytes :=
  cbor.int s.version ++ (cbor.bytestring s.ibc_state_root ++ (cbor.int s.next_client_sequence ++
    (cbor.int s.next_connection_sequence ++ (cbor.int s.next_channel_sequence ++
      (cbor_item.write 5 s.bound_port.length ++ tail)))))

theorem fields_of_readItems {lim : Limits} {fuel depth : Nat} {s : cardano_ibc.HostState}
    {tail rest : Bytes} {items : List Item} (hdepth : depth ≤ lim.nestedLevels)
    (hfuel : (hostStateBegins s tail).length < fuel)
    (h : cbor_item.readItems lim fuel depth none (hostStateBegins s tail) = some (items, rest)) :
    ∃ a b c d e ports others, items = a :: b :: c :: d :: e :: .map ports :: others := by
  obtain ⟨a, ha⟩ := exists_readFrom_int hdepth s.version
  obtain ⟨c, hc⟩ := exists_readFrom_int hdepth s.next_client_sequence
  obtain ⟨d, hd⟩ := exists_readFrom_int hdepth s.next_connection_sequence
  obtain ⟨e, he⟩ := exists_readFrom_int hdepth s.next_channel_sequence
  obtain ⟨f, items, rfl, hf, h⟩ := ha.first_of_readItems hfuel h
  obtain ⟨f, items, rfl, hf, h⟩ := (readFrom_bytestring _).first_of_readItems hf h
  obtain ⟨f, items, rfl, hf, h⟩ := hc.first_of_readItems hf h
  obtain ⟨f, items, rfl, hf, h⟩ := hd.first_of_readItems hf h
  obtain ⟨f, items, rfl, hf, h⟩ := he.first_of_readItems hf h
  obtain ⟨f, _, item, others, -, rfl, hitem, -⟩ :=
    cbor_item.cons_of_readItems (by simp) (cbor_item.begins_write (by decide) _ _) h
  obtain ⟨ports, rfl⟩ := cbor_item.map_of_readItem hitem
  exact ⟨_, _, _, _, _, ports, others, rfl⟩

theorem serialise_hostStateDatum (d : cardano_ibc.HostStateDatum) :
    ∃ tail, cbor.serialise d = cbor_item.write 6 121 ++ (0x9f : UInt8) ::
      (cbor_item.write 6 121 ++ (0x9f : UInt8) :: hostStateBegins d.state tail) := by
  simp only [cbor.serialise, cbor.ToData.toData, cbor.encode, cbor.encodeItems, cbor.constrTag,
    cbor.wrapList, hostStateBegins, head_eq_write, List.isEmpty_cons, List.length_map,
    List.append_assoc, List.cons_append, List.nil_append, Bool.false_eq_true, if_false,
    Nat.ofNat_pos, if_true, Nat.add_zero]
  exact ⟨_, rfl⟩

end cardano_ibc.probabilistic
