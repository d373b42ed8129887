-- The packets of a channel between two points of a run. None that was sent gets lost: it is
-- committed to until it is acknowledged or times out.
import CardanoIbc.Channel.Outgoing
import CardanoIbc.Channel.Receive

namespace cardano_ibc

/-- The sequences from one on and up to another, the last one first. -/
def Counts (first next : Int) : List Int → Prop
  | [] => next = first
  | s :: log => next = s + 1 ∧ Counts first s log

variable {first between next : Int} {log log' sent sent' resolved resolved' received received' :
  List Int} {c c' c'' : ChannelDatum}

theorem Counts.bounds (h : Counts first next log) : first ≤ next ∧ ∀ s ∈ log, first ≤ s := by
  induction log generalizing next with
  | nil => exact ⟨Int.le_of_eq h.symm, by simp⟩
  | cons s log ih =>
    obtain ⟨hnext, hcounts⟩ := h
    obtain ⟨hle, hlog⟩ := ih hcounts
    exact ⟨by omega, List.forall_mem_cons.mpr ⟨hle, hlog⟩⟩

theorem Counts.trans (h : Counts first between log) (h' : Counts between next log') :
    Counts first next (log' ++ log) := by
  induction log' generalizing next with
  | nil =>
    cases h'
    exact h
  | cons s log' ih => exact ⟨h'.1, ih h'.2⟩

/-- What sending, resolving and receiving these sequences makes of a channel's record. -/
structure Accounts (sent resolved received : List Int) (c c' : ChannelDatum) : Prop where
  ordering : c'.state.channel.ordering = c.state.channel.ordering
  send : Counts c.state.next_sequence_send c'.state.next_sequence_send sent
  below : ∀ s ∈ resolved, s < c'.state.next_sequence_send
  in_flight : ∀ s, s ∈ sequences c'.state.packet_commitment ↔
    (s ∈ sequences c.state.packet_commitment ∨ s ∈ sent) ∧ s ∉ resolved
  receive : c.state.channel.ordering = .Ordered →
    Counts c.state.next_sequence_recv c'.state.next_sequence_recv received

theorem Accounts.trans (a : Accounts sent resolved received c c')
    (a' : Accounts sent' resolved' received' c' c'') :
    Accounts (sent' ++ sent) (resolved' ++ resolved) (received' ++ received) c c'' where
  ordering := a'.ordering.trans a.ordering
  send := a.send.trans a'.send
  below s hs := by
    rcases List.mem_append.mp hs with hs | hs
    · exact a'.below s hs
    · exact Int.lt_of_lt_of_le (a.below s hs) a'.send.bounds.1
  in_flight s := by
    -- what is sent later has a greater sequence than what was resolved before
    have hlater : s ∈ sent' → s ∉ resolved := by
      intro hs hresolved
      exact Int.not_lt.mpr (a'.send.bounds.2 s hs) (a.below s hresolved)
    rw [a'.in_flight s, a.in_flight s, List.mem_append, List.mem_append]
    tauto
  receive ho := (a.receive ho).trans (a'.receive (a.ordering.trans ho))

theorem SameOutbound.accounts (h : SameOutbound c c')
    (hreceive : c.state.channel.ordering = .Ordered →
      Counts c.state.next_sequence_recv c'.state.next_sequence_recv received) :
    Accounts [] [] received c c' :=
  ⟨h.ordering, h.send, by simp, by simp [h.commitments], hreceive⟩

section Steps

variable {d : Deployment} {n : AssetName} {past : History} {L start : Ledger} {tx : Transaction}
  {host : Input} {hd : HostStateDatum}

/-- The accounts of a channel over a part of a run. -/
def Deployment.Balances (d : Deployment) (n : AssetName) (past : History) (c c' : ChannelDatum) :
    Prop :=
  Accounts ((d.packets SpendChannelRedeemer.sent n past).map Packet.sequence)
    ((d.packets SpendChannelRedeemer.resolved n past).map Packet.sequence) (d.received n past) c c'

theorem Deployment.Balances.cons {e : Ledger × Transaction} (a : d.Balances n past c c')
    (a' : d.Balances n [e] c' c'') : d.Balances n (e :: past) c c'' := by
  have hall := Accounts.trans a a'
  simp only [Hashes.packets, Hashes.received, ← List.map_append, ← List.filterMap_append] at hall
  exact hall

variable [Builtins]

theorem Resolves.accounts {packet : Packet} (h : Resolves c c' packet) (hw : WellFormed c.state)
    (hnext : c'.state.next_sequence_recv = c.state.next_sequence_recv) :
    Accounts [] [packet.sequence] [] c c' := by
  obtain ⟨_, hpending, -⟩ := h.pending.committed
  have hbelow := (hw.commitments_sent _ (List.mem_map_of_mem (mem_of_get_first hpending))).2
  refine ⟨h.ordering, h.send, by simpa [h.send] using hbelow, fun s => ?_, fun _ => hnext⟩
  rw [h.commitments, sequences,
    pairs.mem_keys_delete_first_iff (nodup_of_ascending hw.commitments_ascend)]
  simp

/-- What each operation on a channel does to the packets it has. -/
theorem ChannelMove.balances (hmove : ChannelMove d.toHashes n tx c c') (hw : WellFormed c.state) :
    d.Balances n [(L, tx)] c c' := by
  unfold Deployment.Balances Hashes.packets Hashes.received
  cases hmove with
  | stays hnone =>
    simp only [List.filterMap, hnone]
    exact SameOutbound.accounts ⟨rfl, rfl, rfl, rfl⟩ fun _ => rfl
  | @moves op _ _ _ _ hordered reads performs =>
    simp only [List.filterMap, hordered, Option.bind_some]
    cases performs with
    | openAck h =>
      obtain ⟨_, _, _, hredeemer⟩ := h.ordered
      rw [hredeemer, h.effect]
      exact SameOutbound.accounts ⟨rfl, rfl, rfl, rfl⟩ fun _ => rfl
    | @send packet commitment h =>
      have hnext := h.next
      have hnew : packet.sequence ∉ sequences op.datum.state.packet_commitment := by
        intro hmem
        have := (hw.commitments_sent _ hmem).2
        omega
      rw [h.ordered, h.effect]
      show Accounts [packet.sequence] [] [] _ _
      refine ⟨rfl, ⟨?_, hnext⟩, by simp, fun s => ?_, fun _ => rfl⟩
      · rw [hnext]
        rfl
      · refine (pairs.mem_keys_insert_by_ascending_key hnew).trans ?_
        simp [or_comm]
    | recv h =>
      rw [h.ordered]
      rcases channel_datum.received_cases h.effect with ⟨ho, heq⟩ | ⟨ho, heq⟩
      · rw [heq]
        refine SameOutbound.accounts ⟨rfl, rfl, rfl, rfl⟩ fun _ => ⟨?_, h.sequence ho⟩
        rw [h.sequence ho]
      · rw [heq]
        refine SameOutbound.accounts ⟨rfl, rfl, rfl, rfl⟩ fun ho' => ?_
        cases ho.symm.trans ho'
    | acknowledge h =>
      rw [h.ordered, h.effect]
      exact Resolves.accounts ⟨⟨outbound_of_isOutbound reads h.outbound, _, h.pending, h.committed⟩,
        rfl, rfl, rfl⟩ hw rfl
    | timeout h =>
      obtain ⟨_, _, _, hredeemer⟩ := h.ordered
      rw [hredeemer, h.effect]
      exact Resolves.accounts ⟨⟨outbound_of_isOutbound reads h.outbound, _, h.pending, h.committed⟩,
        rfl, rfl, rfl⟩ hw rfl
    | prune h =>
      rw [h.ordered, h.effect]
      exact SameOutbound.accounts ⟨rfl, rfl, rfl, rfl⟩ fun _ => rfl

/-- Between any two points of a run a channel sends the next sequences, one after the other; it is
committed to what it was committed to and what it sent, but for what was acknowledged or timed out;
and an ordered channel receives the next sequences, one after the other. -/
theorem packets_are_accounted_for (t : Threads d.toHashes start host hd)
    (hrecord : d.Record .channel start n (.channel c)) (hw : WellFormed c.state)
    (hrun : Run d start past L) (hrecord' : d.Record .channel L n (.channel c')) :
    d.Balances n past c c' := by
  obtain ⟨_, hlast, -, hbalances⟩ := hrun.channel_induction
    (motive := fun past _ c₁ => WellFormed c₁.state ∧ d.Balances n past c c₁) t hrecord
    ⟨hw, SameOutbound.accounts ⟨rfl, rfl, rfl, rfl⟩ fun _ => rfl⟩
    (fun _ _ _ hmove ⟨hw, a⟩ => ⟨hmove.wellFormed hw, a.cons (hmove.balances hw)⟩)
  obtain ⟨_, _, t'⟩ := hrun.threads t
  cases t'.record_unique hlast hrecord'
  exact hbalances

end Steps

section Sample

local instance accountsBuiltins : Builtins := orderedBuiltins

theorem a_timed_out_packet_is_accounted_for :
    sampleBridge.Balances orderedChannel.token.name [(orderedLedger, timeoutTx)] orderedChannel
      (channel_datum.timedOut orderedChannel (pingPacket 1)) := by
  obtain ⟨u, hu, hheld, hc⟩ := orderedLedger_threads.timeout_closes orderedChannel_recorded rfl
    timeoutTx_accepted timeoutTx_ordered
  exact packets_are_accounted_for orderedLedger_threads orderedChannel_recorded
    orderedChannel_reachable.wellFormed (.step .start timeoutTx_accepted (by decide))
    ⟨u, hu, hheld, hc.datum⟩

end Sample

end cardano_ibc
