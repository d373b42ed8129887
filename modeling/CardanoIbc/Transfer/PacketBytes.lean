-- How much of a transfer its packet's bytes say (fungible_token_packet_data.ak): all of it but for
-- where the denomination and the receiver end, since a quote in them is not escaped.
import CardanoIbc.Library.Text
import CardanoIbc.Transfer.PacketData

namespace cardano_ibc.fungible_token_packet_data

/-! ## Amounts -/

/-- A number is read from digits and minus signs only. -/
theorem amount_byte {amount : Bytes} {n : Int} (h : int.from_utf8 amount = some n) {b : UInt8}
    (hb : b ∈ amount) : (48 ≤ b.toNat ∧ b.toNat ≤ 57) ∨ b = 45 := by
  obtain ⟨st, hst, -⟩ := Option.map_eq_some_iff.mp h
  clear h
  induction amount generalizing st with
  | nil => exact absurd hb List.not_mem_nil
  | cons byte amount ih =>
    rw [List.foldr_cons, int.readDigit, bind_eq_some] at hst
    obtain ⟨⟨n, e⟩, hbefore, hbyte⟩ := hst
    rcases List.mem_cons.mp hb with rfl | hb
    · simp only at hbyte
      split at hbyte
      · split at hbyte
        · rename_i hminus
          exact .inr hminus
        · cases hbyte
      · rename_i hdigit
        simp only [Bool.or_eq_true, decide_eq_true_eq, not_or, UInt8.lt_iff_toNat_lt, gt_iff_lt,
          UInt8.reduceToNat] at hdigit
        exact .inl ⟨by omega, by omega⟩
    · exact ih hb (n, e) hbefore

theorem quote_not_mem_amount {amount : Bytes} {n : Int} (h : int.from_utf8 amount = some n) :
    34 ∉ amount := by
  intro hquote
  rcases amount_byte h hquote with ⟨hdigit, -⟩ | hminus
  · exact absurd hdigit (by decide)
  · cases hminus

/-- The number that decimal digits stand for, the highest first. -/
def decimalValue (digits : Bytes) : Nat :=
  Nat.ofDigits 10 (digits.reverse.map fun b => b.toNat - 48)

theorem decimalValue_cons (b : UInt8) (digits : Bytes) :
    decimalValue (b :: digits) = decimalValue digits + 10 ^ digits.length * (b.toNat - 48) := by
  rw [decimalValue, List.reverse_cons, List.map_append, Nat.ofDigits_append, List.length_map,
    List.length_reverse, List.map_singleton, Nat.ofDigits_singleton, decimalValue]

/-- Digits alone are read as the number they stand for. -/
theorem from_utf8_of_digits {digits : Bytes}
    (h : ∀ b ∈ digits, 48 ≤ b.toNat ∧ b.toNat ≤ 57) :
    int.from_utf8 digits = some (decimalValue digits : Int) := by
  have hfold : digits.foldr int.readDigit (some (0, 0)) =
      some ((decimalValue digits : Int), digits.length) := by
    induction digits with
    | nil => rfl
    | cons b digits ih =>
      have hdigit := h b List.mem_cons_self
      have hlow : ¬ ((b < 48 || b > 57) = true) := by
        simp only [Bool.or_eq_true, decide_eq_true_eq, not_or, UInt8.lt_iff_toNat_lt, gt_iff_lt,
          UInt8.reduceToNat]
        omega
      have hsub : ((b.toNat - 48 : Nat) : Int) = (b.toNat : Int) - 48 := by omega
      rw [List.foldr_cons, ih fun c hc => h c (List.mem_cons_of_mem b hc), int.readDigit,
        Option.bind_eq_bind, Option.bind_some]
      simp only [if_neg hlow]
      rw [if_neg (by omega), decimalValue_cons, Nat.cast_add, Nat.cast_mul, Nat.cast_pow, hsub,
        Int.mul_comm]
      rfl
  rw [int.from_utf8, hfold]
  rfl

/-- The amount of data that was checked is a positive number. -/
theorem validate_basic_reads {ftpd : FungibleTokenPacketData} (h : validate_basic ftpd = true) :
    ∃ n, int.from_utf8 ftpd.amount = some n ∧ 0 < n := by
  unfold validate_basic at h
  split at h
  · rename_i n hn
    simp only [Bool.and_eq_true, decide_eq_true_eq] at h
    exact ⟨n, hn, h.1.1.1⟩
  · cases h

theorem validate_basic_amount {ftpd : FungibleTokenPacketData} (h : validate_basic ftpd = true) :
    34 ∉ ftpd.amount := by
  obtain ⟨n, hn, -⟩ := validate_basic_reads h
  exact quote_not_mem_amount hn

/-! ## Texts that end at a quote -/

/-- Of texts without quotes the first quote is the end. -/
theorem text_inj {a b x y : Bytes} (ha : 34 ∉ a) (hb : 34 ∉ b)
    (h : a ++ 34 :: x = b ++ 34 :: y) : a = b ∧ x = y :=
  text.first_inj ha hb h

theorem escapeQuotes_cons (byte : UInt8) (memo : Bytes) :
    escapeQuotes (byte :: memo) =
      (if byte = 34 then [92, 34] else [byte]) ++ escapeQuotes memo := by
  simp only [escapeQuotes, List.foldr_cons]
  split <;> rfl

/-- An escaped text never starts with a quote. -/
theorem escapeQuotes_ne_quote {memo x y : Bytes} (h : escapeQuotes memo ++ x = 34 :: y) :
    memo = [] := by
  cases memo with
  | nil => rfl
  | cons byte memo =>
    rw [escapeQuotes_cons] at h
    split at h
    · simp at h
    · rename_i hne
      simp only [List.cons_append, List.nil_append, List.cons.injEq] at h
      exact absurd h.1 hne

/-- What follows the memo of a packet. -/
def afterMemo (rest : Bytes) : Bytes := 34 :: 44 :: 34 :: 114 :: rest

/-- The quote after a memo is no quote of another memo: a backslash before it could only be its
own, and then the next quote, after a comma, has none. -/
theorem quote_is_no_end {memo x y : Bytes} :
    escapeQuotes (34 :: memo) ++ afterMemo x ≠ 92 :: afterMemo y := by
  intro h
  rw [escapeQuotes_cons] at h
  simp only [afterMemo, if_true, List.cons_append, List.nil_append, List.cons.injEq,
    true_and] at h
  cases memo with
  | nil => simp [escapeQuotes] at h
  | cons byte memo =>
    rw [escapeQuotes_cons] at h
    split at h
    · simp at h
    · simp only [List.cons_append, List.nil_append, List.cons.injEq] at h
      rw [escapeQuotes_ne_quote h.2] at h
      simp [escapeQuotes] at h

/-- A quote in one memo stands against a quote in the other. -/
theorem memo_ne {memo memo' x y : Bytes} {byte : UInt8} (hbyte : byte ≠ 34) :
    escapeQuotes (34 :: memo) ++ afterMemo x ≠ escapeQuotes (byte :: memo') ++ afterMemo y := by
  intro h
  have hsplit := h
  rw [escapeQuotes_cons, escapeQuotes_cons, if_pos rfl, if_neg hbyte] at hsplit
  simp only [List.cons_append, List.nil_append, List.cons.injEq] at hsplit
  obtain ⟨rfl, hrest⟩ := hsplit
  rw [escapeQuotes_ne_quote hrest.symm] at h
  exact quote_is_no_end h

theorem memo_inj {memo memo' x y : Bytes}
    (h : escapeQuotes memo ++ afterMemo x = escapeQuotes memo' ++ afterMemo y) :
    memo = memo' ∧ x = y := by
  induction memo generalizing memo' with
  | nil =>
    have hnil : memo' = [] := escapeQuotes_ne_quote h.symm
    rw [hnil] at h
    exact ⟨hnil.symm, by simpa [escapeQuotes, afterMemo] using h⟩
  | cons byte memo ih =>
    cases memo' with
    | nil =>
      have hnil := escapeQuotes_ne_quote h
      cases hnil
    | cons byte' memo' =>
      by_cases hbyte : byte = 34
      · by_cases hbyte' : byte' = 34
        · rw [hbyte, hbyte', escapeQuotes_cons, escapeQuotes_cons] at h
          obtain ⟨rfl, rfl⟩ := ih (by simpa using h)
          exact ⟨by rw [hbyte, hbyte'], rfl⟩
        · rw [hbyte] at h
          exact absurd h (memo_ne hbyte')
      · by_cases hbyte' : byte' = 34
        · rw [hbyte'] at h
          exact absurd h.symm (memo_ne hbyte)
        · rw [escapeQuotes_cons, escapeQuotes_cons, if_neg hbyte, if_neg hbyte'] at h
          simp only [List.cons_append, List.nil_append, List.cons.injEq] at h
          obtain ⟨rfl, rfl⟩ := ih h.2
          exact ⟨by rw [h.1], rfl⟩

/-! ## The bytes of a packet -/

/-- The bytes from after the denomination on. -/
def fromMemo (ftpd : FungibleTokenPacketData) : Bytes :=
  (if ftpd.memo = [] then [] else utf8 "memo\":\"" ++ escapeQuotes ftpd.memo ++ utf8 "\",\"") ++
    utf8 "receiver\":\"" ++ ftpd.receiver ++ utf8 "\",\"sender\":\"" ++ ftpd.sender ++ utf8 "\"\x7d"

theorem escapeQuotes_length {memo : Bytes} : (escapeQuotes memo).length = 0 ↔ memo = [] := by
  cases memo with
  | nil => simp [escapeQuotes]
  | cons byte memo =>
    rw [escapeQuotes_cons]
    split <;> simp

theorem get_bytes_eq {ftpd : FungibleTokenPacketData} (h : validate_basic ftpd = true) :
    get_bytes ftpd = utf8 "\x7b\"amount\":\"" ++ (ftpd.amount ++ (34 :: (utf8 ",\"denom\":\"" ++
      (ftpd.denom ++ (utf8 "\",\"" ++ fromMemo ftpd))))) := by
  obtain ⟨hamount, hdenom, hreceiver, hsender⟩ := fields_ne_nil h
  have hlength : ∀ {bz : Bytes}, bz ≠ [] → bz.length ≠ 0 := fun hne hzero =>
    hne (List.length_eq_zero_iff.mp hzero)
  simp only [get_bytes, fromMemo, if_neg (hlength hamount), if_neg (hlength hdenom),
    if_neg (hlength hreceiver), if_neg (hlength hsender), escapeQuotes_length]
  split <;> simp [get_json, utf8] <;> rfl

/-- The bytes from after the start of the receiver on. -/
def fromReceiver (ftpd : FungibleTokenPacketData) : Bytes :=
  ftpd.receiver ++ 34 :: (utf8 ",\"sender\":\"" ++ (ftpd.sender ++ utf8 "\"\x7d"))

theorem fromMemo_inj {ftpd ftpd' : FungibleTokenPacketData} (h : fromMemo ftpd = fromMemo ftpd') :
    ftpd.memo = ftpd'.memo ∧ fromReceiver ftpd = fromReceiver ftpd' := by
  have hwithout : ∀ {d : FungibleTokenPacketData}, d.memo = [] →
      fromMemo d = 114 :: (utf8 "eceiver\":\"" ++ fromReceiver d) := by
    intro d hd
    rw [fromMemo, if_pos hd]
    simp only [fromReceiver, List.append_assoc]
    rfl
  have hwith : ∀ {d : FungibleTokenPacketData}, d.memo ≠ [] →
      fromMemo d = 109 :: (utf8 "emo\":\"" ++ (escapeQuotes d.memo ++
        afterMemo (utf8 "eceiver\":\"" ++ fromReceiver d))) := by
    intro d hd
    rw [fromMemo, if_neg hd]
    simp only [fromReceiver, afterMemo, List.append_assoc]
    rfl
  by_cases hmemo : ftpd.memo = []
  · by_cases hmemo' : ftpd'.memo = []
    · rw [hwithout hmemo, hwithout hmemo', List.cons.injEq] at h
      exact ⟨hmemo.trans hmemo'.symm, List.append_cancel_left h.2⟩
    · rw [hwithout hmemo, hwith hmemo', List.cons.injEq] at h
      exact absurd h.1 (by decide)
  · by_cases hmemo' : ftpd'.memo = []
    · rw [hwith hmemo, hwithout hmemo', List.cons.injEq] at h
      exact absurd h.1 (by decide)
    · rw [hwith hmemo, hwith hmemo', List.cons.injEq] at h
      obtain ⟨hsame, hrest⟩ := memo_inj (List.append_cancel_left h.2)
      exact ⟨hsame, List.append_cancel_left hrest⟩

/-- Where the denominations end is where what follows them starts. -/
theorem get_bytes_inj {ftpd ftpd' : FungibleTokenPacketData} (h : validate_basic ftpd = true)
    (h' : validate_basic ftpd' = true) (hbytes : get_bytes ftpd = get_bytes ftpd') :
    ftpd.amount = ftpd'.amount ∧
      ftpd.denom ++ 34 :: (utf8 ",\"" ++ fromMemo ftpd) =
        ftpd'.denom ++ 34 :: (utf8 ",\"" ++ fromMemo ftpd') := by
  rw [get_bytes_eq h, get_bytes_eq h'] at hbytes
  obtain ⟨hamount, hrest⟩ := text_inj (validate_basic_amount h) (validate_basic_amount h')
    (List.append_cancel_left hbytes)
  exact ⟨hamount, List.append_cancel_left hrest⟩

/-- With the denominations and the receivers the rest is the same. -/
theorem eq_of_ends {ftpd ftpd' : FungibleTokenPacketData} (h : validate_basic ftpd = true)
    (h' : validate_basic ftpd' = true) (hbytes : get_bytes ftpd = get_bytes ftpd')
    (hdenom : ftpd.denom = ftpd'.denom)
    (hreceiver : fromReceiver ftpd = fromReceiver ftpd' → ftpd.receiver = ftpd'.receiver) :
    ftpd = ftpd' := by
  obtain ⟨hamount, hrest⟩ := get_bytes_inj h h' hbytes
  rw [hdenom] at hrest
  have hrest := List.cons.inj (List.append_cancel_left hrest)
  obtain ⟨hmemo, hrest⟩ := fromMemo_inj (List.append_cancel_left hrest.2)
  have hreceiver := hreceiver hrest
  rw [fromReceiver, fromReceiver, hreceiver] at hrest
  have hrest := List.cons.inj (List.append_cancel_left hrest)
  have hsender := List.append_cancel_right (List.append_cancel_left hrest.2)
  cases ftpd
  cases ftpd'
  simp only [FungibleTokenPacketData.mk.injEq]
  exact ⟨hdenom, hamount, hsender, hreceiver, hmemo⟩

/-- Data with the same bytes is the same exactly if the denominations are of one length and the
receivers are, and it is if there is no quote in them. -/
theorem bytes_leave_open_where_denom_and_receiver_end {ftpd ftpd' : FungibleTokenPacketData}
    (h : validate_basic ftpd = true) (h' : validate_basic ftpd' = true)
    (hbytes : get_bytes ftpd = get_bytes ftpd') :
    (ftpd = ftpd' ↔ ftpd.denom.length = ftpd'.denom.length ∧
        ftpd.receiver.length = ftpd'.receiver.length) ∧
      (34 ∉ ftpd.denom → 34 ∉ ftpd.receiver → 34 ∉ ftpd'.denom → 34 ∉ ftpd'.receiver →
        ftpd = ftpd') := by
  obtain ⟨-, hdenoms⟩ := get_bytes_inj h h' hbytes
  refine ⟨⟨?_, ?_⟩, ?_⟩
  · rintro rfl
    exact ⟨rfl, rfl⟩
  · rintro ⟨hdenom, hreceiver⟩
    refine eq_of_ends h h' hbytes (List.append_inj hdenoms hdenom).1 ?_
    intro hrest
    exact (List.append_inj hrest hreceiver).1
  · intro hdenom hreceiver hdenom' hreceiver'
    refine eq_of_ends h h' hbytes (text_inj hdenom hdenom' hdenoms).1 ?_
    intro hrest
    exact (text_inj hreceiver hreceiver' hrest).1

/-- An ordinary transfer with a memo. -/
def transferWithMemo : FungibleTokenPacketData where
  denom := utf8 "uatom"
  amount := utf8 "10"
  sender := utf8 "cosmos1sender"
  receiver := utf8 "receiver"
  memo := utf8 "note"

/-- Its memo taken for a part of its denomination. -/
def transferOfAnotherDenom : FungibleTokenPacketData :=
  { transferWithMemo with denom := utf8 "uatom\",\"memo\":\"note", memo := [] }

/-- A transfer to a receiver who calls themselves by a sender, too. -/
def transferToSender : FungibleTokenPacketData :=
  { transferWithMemo with receiver := utf8 "receiver\",\"sender\":\"thief" }

def transferBySender : FungibleTokenPacketData :=
  { transferWithMemo with sender := utf8 "thief\",\"sender\":\"cosmos1sender" }

/-- Valid transfers of two denominations, and to two receivers by two senders, have the same
bytes. -/
theorem other_denoms_and_receivers_have_the_same_bytes :
    (validate_basic transferWithMemo = true ∧ validate_basic transferOfAnotherDenom = true ∧
        get_bytes transferWithMemo = get_bytes transferOfAnotherDenom ∧
        transferWithMemo.denom ≠ transferOfAnotherDenom.denom) ∧
      validate_basic transferToSender = true ∧ validate_basic transferBySender = true ∧
        get_bytes transferToSender = get_bytes transferBySender ∧
        transferToSender.receiver ≠ transferBySender.receiver ∧
        transferToSender.sender ≠ transferBySender.sender := by
  decide +kernel

/-- The denominations of the first two are of different lengths. -/
theorem the_denoms_end_elsewhere :
    ¬ (transferWithMemo.denom.length = transferOfAnotherDenom.denom.length ∧
      transferWithMemo.receiver.length = transferOfAnotherDenom.receiver.length) := by
  obtain ⟨hsame, -⟩ := bytes_leave_open_where_denom_and_receiver_end
    (show validate_basic transferWithMemo = true by decide +kernel)
    (show validate_basic transferOfAnotherDenom = true by decide +kernel) (by decide +kernel)
  rw [← hsame]
  decide +kernel

end cardano_ibc.fungible_token_packet_data
