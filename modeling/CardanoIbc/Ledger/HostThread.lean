-- The host state as one thread: how its record goes on from transaction to transaction, from
-- the day it is deployed up to the order that ends it.
import CardanoIbc.Ledger.Authenticity
import CardanoIbc.Ledger.Runs

namespace cardano_ibc

/-! ## The order of the ports -/

theorem append_lt_append_left (a : Bytes) {b c : Bytes} : a ++ b < a ++ c ↔ b < c := by
  induction a with
  | nil => rfl
  | cons x xs ih => simp [ih]

namespace cbor

/-- A byte string in canonical form: its length in the shortest form, then its bytes. -/
def canonical (key : Bytes) : Bytes := head 2 key.length ++ key

/-- The keys of a canonical map: by the length of what they are written as, then by its bytes. -/
def KeyBefore (left right : Bytes) : Prop :=
  (canonical left).length < (canonical right).length ∨
    (canonical left).length = (canonical right).length ∧
      bytearray.compare (canonical left) (canonical right) = .lt

theorem length_head_le {n m : Nat} (h : n ≤ m) : (head 2 n).length ≤ (head 2 m).length := by
  unfold head
  simp only
  split_ifs <;> simp [bigEndian] <;> omega

/-- For byte strings that is their own length, then their own bytes. -/
theorem keyBefore_iff {left right : Bytes} : KeyBefore left right ↔
    left.length < right.length ∨ left.length = right.length ∧ left < right := by
  unfold KeyBefore canonical
  simp only [List.length_append]
  rcases Nat.lt_trichotomy left.length right.length with hlt | heq | hgt
  · have := length_head_le (Nat.le_of_lt hlt)
    constructor
    · intro _
      exact .inl hlt
    · intro _
      left
      omega
  · rw [heq, bytearray.compare_eq_lt, append_lt_append_left]
    simp
  · have := length_head_le (Nat.le_of_lt hgt)
    constructor
    · rintro (h | h) <;> omega
    · rintro (h | h) <;> omega

instance keyBefore_trans : IsTrans Bytes KeyBefore where
  trans a b c := by
    simp only [keyBefore_iff]
    rintro (hab | ⟨hab, hlt⟩) (hbc | ⟨hbc, hlt'⟩)
    · exact .inl (by omega)
    · exact .inl (by omega)
    · exact .inl (by omega)
    · exact .inr ⟨by omega, List.lt_trans hlt hlt'⟩

theorem keyBefore_irrefl (key : Bytes) : ¬ KeyBefore key key := by
  rw [keyBefore_iff]
  rintro (h | ⟨-, h⟩)
  · omega
  · exact List.lt_irrefl key h

theorem keyBefore_total {a b : Bytes} (h : a ≠ b) : KeyBefore a b ∨ KeyBefore b a := by
  simp only [keyBefore_iff]
  rcases Nat.lt_trichotomy a.length b.length with hlt | heq | hgt
  · exact .inl (.inl hlt)
  · rcases Std.lt_trichotomy a b with hlt | rfl | hgt
    · exact .inl (.inr ⟨heq, hlt⟩)
    · exact absurd rfl h
    · exact .inr (.inr ⟨heq.symm, hgt⟩)
  · exact .inr (.inl hgt)

end cbor

open cbor validator_utils

namespace host_state

/-- With the length as one byte in front, the order of dictionaries is the canonical one. -/
theorem compare_port_keys_for_insertion_iff {left right : Bytes} (hl : left.length ≤ 255)
    (hr : right.length ≤ 255) :
    compare_port_keys_for_insertion left right = .lt ↔ KeyBefore left right := by
  have hsmall : ∀ {n : Nat}, n ≤ 255 → n.toUInt8.toNat = n := by
    intro n hn
    simp only [Nat.toUInt8_eq, UInt8.toNat_ofNat']
    omega
  unfold compare_port_keys_for_insertion
  rw [keyBefore_iff]
  by_cases hlt : bytearray.compare (left.length.toUInt8 :: left)
    (right.length.toUInt8 :: right) = .lt
  all_goals
    rw [bytearray.compare_eq_lt, List.cons_lt_cons_iff, UInt8.lt_iff_toNat_lt, ← UInt8.toNat_inj,
      hsmall hl, hsmall hr] at hlt
    simp [bytearray.compare_eq_lt, List.cons_lt_cons_iff, UInt8.lt_iff_toNat_lt,
      ← UInt8.toNat_inj, hsmall hl, hsmall hr, hlt]

/-- The ports as they are kept: in the canonical order, and not too many. -/
structure PortsKept (ports : List (Bytes × ModuleRegistration)) : Prop where
  sorted : (ports.map Prod.fst).Pairwise KeyBefore
  short : ∀ port ∈ ports.map Prod.fst, port.length ≤ 128
  bounded : ports.length ≤ max_bound_ports

theorem PortsKept.nodup {ports : List (Bytes × ModuleRegistration)} (h : PortsKept ports) :
    (ports.map Prod.fst).Nodup := by
  refine h.sorted.imp ?_
  rintro a _ hbefore rfl
  exact keyBefore_irrefl a hbefore

theorem PortsKept.insert {ports : List (Bytes × ModuleRegistration)} {port_id : Bytes}
    {registration : ModuleRegistration} (h : PortsKept ports)
    (hnew : port_id ∉ ports.map Prod.fst) (hshort : port_id.length ≤ 128)
    (hroom : ports.length < max_bound_ports) :
    PortsKept (pairs.insert_by_ascending_key compare_port_keys_for_insertion ports port_id
      registration) where
  sorted := by
    refine pairs.sorted_insert_by_ascending_key h.sorted hnew ?_
    intro port hport
    have hlength := h.short port hport
    have hiff : compare_port_keys_for_insertion port_id port = .lt ↔ KeyBefore port_id port :=
      compare_port_keys_for_insertion_iff (by omega) (by omega)
    split
    · rename_i hless
      exact hiff.mp hless
    · rename_i hnot
      have hne : port_id ≠ port := fun heq => hnew (heq ▸ hport)
      exact (keyBefore_total hne).resolve_left fun hless => hnot (hiff.mpr hless)
  short := by
    intro port hport
    rcases (pairs.mem_keys_insert_by_ascending_key hnew).mp hport with rfl | hold
    · exact hshort
    · exact h.short port hold
  bounded := by
    rw [pairs.length_insert_by_ascending_key _ _ hnew]
    omega

end host_state

/-! ## One step of the thread -/

/-- The orders that are only for a bridge nobody is shutting down. -/
def HostStateRedeemer.needsActive : HostStateRedeemer → Bool
  | .CreateClient .. => true
  | .CreateConnection .. => true
  | .CreateChannel .. => true
  | .BindPort .. => true
  | .Heartbeat => true
  | .EnterShutdown _ => true
  | _ => false

/-- The port an order registers, and what for. -/
def HostStateRedeemer.binds : HostStateRedeemer → Option (Bytes × ModuleRegistration)
  | .BindPort port_id registration _ => some (port_id, registration)
  | _ => none

/-- What an order does to the record of the host state. -/
structure Advances (order : HostStateRedeemer) (old new : HostStateDatum) : Prop where
  version : new.state.version = old.state.version + 1
  next : ∀ k : Kind, k.next new.state = k.next old.state + host_state_stt.advance order k
  nft_policy : new.nft_policy = old.nft_policy
  deployer : new.deployer = old.deployer
  ports : order.binds = none → new.state.bound_port = old.state.bound_port
  bound : ∀ port_id registration, order.binds = some (port_id, registration) →
    port_id ∉ old.state.bound_port.map Prod.fst ∧ port_id.length ≤ 128 ∧
    old.state.bound_port.length < host_state.max_bound_ports ∧
    new.state.bound_port = pairs.insert_by_ascending_key
      host_state.compare_port_keys_for_insertion old.state.bound_port port_id registration
  active : order.needsActive = true → old.shutdown = .Active
  shutdown : (∀ grace_period_end, order ≠ .EnterShutdown grace_period_end) →
    new.shutdown = old.shutdown
  announced : ∀ grace_period_end, order = .EnterShutdown grace_period_end →
    new.shutdown = .ShuttingDown new.state.last_update_time grace_period_end ∧
      new.state.last_update_time < grace_period_end

namespace host_state

theorem is_active_iff {shutdown : ShutdownState} :
    is_active shutdown = true ↔ shutdown = .Active := by
  cases shutdown <;> simp [is_active]

theorem moves_keeps {old new : HostStateDatum} {clients connections channels : Int}
    (h : moves old new clients connections channels = true) :
    new.state.version = old.state.version + 1 ∧ new.nft_policy = old.nft_policy ∧
      new.deployer = old.deployer := by
  simp only [moves, validate_version_increment, Bool.and_eq_true, beq_iff_eq] at h
  exact ⟨h.1.1.1.1.1, h.1.2, h.2⟩

end host_state

theorem transition_advances [Builtins] {params : host_state_stt.Params} {tx : Transaction}
    {old new : HostStateDatum} {order : HostStateRedeemer}
    (h : host_state_stt.transition params tx old new order = some true) :
    Advances order old new := by
  have hnext := host_state_stt.transition_next h
  cases order <;>
    simp only [host_state_stt.transition, and_accepts, pure_eq_some, Option.some.injEq,
      Bool.and_eq_true, host_state.validate_create_client, host_state.validate_create_connection,
      host_state.validate_create_channel, host_state.createValid,
      host_state.validate_update_only_root, host_state.validate_bind_port, bind_eq_some,
      host_state.validate_enter_shutdown, host_state.validate_heartbeat, beq_iff_eq,
      host_state.is_active_iff, decide_eq_true_eq, expect_eq_some, reduceCtorEq] at h
  case CreateClient | CreateConnection | CreateChannel =>
    obtain ⟨⟨⟨⟨hmoves, hports⟩, hactive⟩, hshutdown⟩, -⟩ := h
    obtain ⟨hversion, hpolicy, hdeployer⟩ := host_state.moves_keeps hmoves
    exact ⟨hversion, hnext, hpolicy, hdeployer, fun _ => hports, fun _ _ hc => (by cases hc),
      fun _ => hactive, fun _ => hshutdown, fun _ hc => (by cases hc)⟩
  case BindPort =>
    obtain ⟨-, ⟨-, hnew, ⟨⟨⟨⟨⟨⟨-, hlong⟩, hroom⟩, hmoves⟩, hports⟩, hactive⟩, hshutdown⟩⟩, -⟩ := h
    obtain ⟨hversion, hpolicy, hdeployer⟩ := host_state.moves_keeps hmoves
    refine ⟨hversion, hnext, hpolicy, hdeployer, fun hc => (by cases hc), ?_, fun _ => hactive,
      fun _ => hshutdown, fun _ hc => (by cases hc)⟩
    rintro _ _ ⟨⟩
    rw [Bool.not_eq_true'] at hnew
    exact ⟨has_key_eq_false_iff.mp hnew, hlong, hroom, hports⟩
  case UpdateClient | UpdateConnection | UpdateChannel | HandlePacket =>
    obtain ⟨⟨⟨hmoves, hports⟩, hshutdown⟩, -⟩ := h
    obtain ⟨hversion, hpolicy, hdeployer⟩ := host_state.moves_keeps hmoves
    exact ⟨hversion, hnext, hpolicy, hdeployer, fun _ => hports, fun _ _ hc => (by cases hc),
      fun hc => (by cases hc), fun _ => hshutdown, fun _ hc => (by cases hc)⟩
  case EnterShutdown =>
    obtain ⟨-, ⟨⟨⟨⟨hmoves, hactive⟩, hshutdown⟩, hlate⟩, -⟩, hports⟩ := h
    obtain ⟨hversion, hpolicy, hdeployer⟩ := host_state.moves_keeps hmoves
    refine ⟨hversion, hnext, hpolicy, hdeployer, fun _ => hports, fun _ _ hc => (by cases hc),
      fun _ => hactive, fun hnot => absurd rfl (hnot _), ?_⟩
    rintro _ ⟨⟩
    exact ⟨hshutdown, hlate⟩
  case Heartbeat =>
    obtain ⟨-, ⟨⟨⟨⟨hmoves, hports⟩, hshutdown⟩, hactive⟩, -⟩, -⟩ := h
    obtain ⟨hversion, hpolicy, hdeployer⟩ := host_state.moves_keeps hmoves
    exact ⟨hversion, hnext, hpolicy, hdeployer, fun _ => hports, fun _ _ hc => (by cases hc),
      fun _ => hactive, fun _ => hshutdown, fun _ hc => (by cases hc)⟩

namespace Advances

variable {order : HostStateRedeemer} {old new : HostStateDatum}

theorem keeps_ports (h : Advances order old new)
    (hkept : host_state.PortsKept old.state.bound_port) :
    host_state.PortsKept new.state.bound_port := by
  cases hbinds : order.binds with
  | none =>
    rw [h.ports hbinds]
    exact hkept
  | some port =>
    obtain ⟨hnew, hshort, hroom, hports⟩ := h.bound port.1 port.2 hbinds
    rw [hports]
    exact hkept.insert hnew hshort hroom

/-- A port that is registered stays so, for the same module. -/
theorem keeps_registration (h : Advances order old new) {port : Bytes × ModuleRegistration}
    (hport : port ∈ old.state.bound_port) : port ∈ new.state.bound_port := by
  cases hbinds : order.binds with
  | none =>
    rw [h.ports hbinds]
    exact hport
  | some added =>
    obtain ⟨hnew, -, -, hports⟩ := h.bound added.1 added.2 hbinds
    rw [hports, (pairs.perm_insert_by_ascending_key hnew).mem_iff]
    exact List.mem_cons_of_mem _ hport

/-- A bridge that is shutting down takes none of the orders for an active one. -/
theorem shutting_down (h : Advances order old new) (hshut : old.shutdown ≠ .Active) :
    order.needsActive = false ∧ new.shutdown = old.shutdown := by
  have hno : order.needsActive = false := by
    by_contra hyes
    exact hshut (h.active (by simpa using hyes))
  refine ⟨hno, h.shutdown ?_⟩
  rintro grace rfl
  cases hno

end Advances

/-! ## The thread -/

/-- What the orders between two records of the host state, the last one first, have done. -/
structure HostThread (first last : HostStateDatum) (orders : List HostStateRedeemer) : Prop where
  version : last.state.version = first.state.version + orders.length
  next : ∀ k : Kind, k.next last.state = k.next first.state +
    orders.countP fun order => Kind.created order == some k
  nft_policy : last.nft_policy = first.nft_policy
  deployer : last.deployer = first.deployer
  registrations : ∀ port ∈ first.state.bound_port, port ∈ last.state.bound_port
  shutdown : first.shutdown ≠ .Active →
    last.shutdown = first.shutdown ∧ ∀ order ∈ orders, order.needsActive = false

namespace HostThread

variable {first last new : HostStateDatum} {orders : List HostStateRedeemer}
  {order : HostStateRedeemer}

theorem start (first : HostStateDatum) : HostThread first first [] where
  version := by simp
  next := by simp
  nft_policy := rfl
  deployer := rfl
  registrations := fun _ h => h
  shutdown := fun _ => ⟨rfl, nofun⟩

theorem step (t : HostThread first last orders) (h : Advances order last new) :
    HostThread first new (order :: orders) where
  version := by
    rw [h.version, t.version, List.length_cons]
    omega
  next := by
    intro k
    rw [h.next k, t.next k, host_state_stt.advance, List.countP_cons]
    by_cases hk : Kind.created order = some k
    · simp only [hk, beq_self_eq_true, if_true]
      omega
    · simp [hk]
  nft_policy := h.nft_policy.trans t.nft_policy
  deployer := h.deployer.trans t.deployer
  registrations := fun port hport => h.keeps_registration (t.registrations port hport)
  shutdown := by
    intro hshut
    obtain ⟨hsame, horders⟩ := t.shutdown hshut
    obtain ⟨horder, hkept⟩ := h.shutting_down (hsame ▸ hshut)
    refine ⟨hkept.trans hsame, ?_⟩
    intro o ho
    rcases List.mem_cons.mp ho with rfl | ho
    · exact horder
    · exact horders o ho

end HostThread

/-! ## The thread in the ledger -/

/-- The order the host state is spent with, if it is spent. -/
def Hashes.hostOrder (d : Hashes) (tx : Transaction) : Option HostStateRedeemer := do
  hostRedeemer tx.redeemers (← find_host_state_input tx.inputs d.host_state_nft)

section Runs

variable [Builtins]

/-- The orders the host state was spent with, the last one first. -/
def Hashes.hostOrders (d : Hashes) (past : History) : List HostStateRedeemer :=
  past.filterMap fun step => d.hostOrder step.2

/-- The one output with the host state's token, at the host state's script. -/
structure Hashes.OnlyHost (d : Hashes) (L : Ledger) (host : Input) (hd : HostStateDatum) :
    Prop where
  live : host ∈ L.utxos
  script : host.output.address.payment_credential = .Script d.host_state_stt
  datum : host.output.datum = .InlineDatum (.hostState hd)
  held : amount d.host_state_nft host_state_token_name host = 1
  only : ∀ u ∈ L.utxos, 0 < amount d.host_state_nft host_state_token_name u → u = host

variable {d : Deployment} {start L mid : Ledger} {tx : Transaction} {past later : History}
  {host host' : Input} {hd hd' : HostStateDatum}

theorem Threads.onlyHost (t : Threads d.toHashes L host hd) : d.OnlyHost L host hd where
  live := t.host_live
  script := t.host_script
  datum := t.host_datum
  held := t.host_nft
  only := by
    intro u hu hheld
    have hone := t.host_nft
    exact Ledger.holder_unique (by rw [t.host_supply]) hu t.host_live hheld (by omega)

/-- The host state is spent with the order it moves by, or not at all. -/
theorem Threads.hostOrder_eq (t : Threads d.toHashes L host hd) (h : d.Accepted L tx)
    (m : HostMove d.toHashes tx host hd host' hd') :
    (d.hostOrder tx = none ∧ hd' = hd) ∨
      ∃ order, d.hostOrder tx = some order ∧ Advances order hd hd' := by
  have hnft : hasHostNft host.output d.host_state_nft = true := assets.has_nft_iff.mpr t.host_nft
  cases m with
  | stays hunspent =>
    refine .inl ⟨?_, rfl⟩
    have hnone : find_host_state_input tx.inputs d.host_state_nft = none := by
      refine List.find?_eq_none.mpr ?_
      intro i hi hheld
      exact hunspent (t.host_unique (h.inputs_live i hi) hheld ▸ hi)
    rw [Hashes.hostOrder, hnone]
    rfl
  | moves hspent hordered _ _ _ _ htransition =>
    refine .inr ⟨_, ?_, transition_advances htransition⟩
    have hsome : (find_host_state_input tx.inputs d.host_state_nft).isSome := by
      rw [find_host_state_input, List.find?_isSome]
      exact ⟨host, hspent, hnft⟩
    obtain ⟨found, hfound⟩ := Option.isSome_iff_exists.mp hsome
    obtain ⟨hin, hheld⟩ := find_host_state_input_spec hfound
    obtain rfl := t.host_unique (h.inputs_live _ hin) hheld
    rw [Hashes.hostOrder, hfound]
    exact hordered

/-- From wherever a run sets out, the host state goes on as a thread. -/
theorem Run.hostThread (t : Threads d.toHashes start host hd) (hrun : Run d start past L) :
    ∃ host' hd', Threads d.toHashes L host' hd' ∧ HostThread hd hd' (d.hostOrders past) ∧
      (host_state.PortsKept hd.state.bound_port → host_state.PortsKept hd'.state.bound_port) := by
  induction hrun with
  | start => exact ⟨host, hd, t, HostThread.start hd, id⟩
  | step _ h notFinal ih =>
    obtain ⟨host₁, hd₁, t₁, hthread, hports⟩ := ih
    obtain ⟨host₂, hd₂, m⟩ := t₁.host_move h notFinal
    refine ⟨host₂, hd₂, t₁.step h m, ?_⟩
    rcases t₁.hostOrder_eq h m with ⟨hnone, rfl⟩ | ⟨order, hsome, hadvances⟩
    · simp only [Hashes.hostOrders, List.filterMap_cons, hnone]
      exact ⟨hthread, hports⟩
    · simp only [Hashes.hostOrders, List.filterMap_cons, hsome]
      exact ⟨hthread.step hadvances, fun hkept => hadvances.keeps_ports (hports hkept)⟩

/-- In every ledger a bridge gets to there is one host state. Its version is the number of its
steps and its ports are in order; and from there on it only goes forward. -/
theorem host_state_is_a_monotone_thread (hstart : Deployed d.toHashes start host hd)
    (hbefore : Run d start past mid) (hrun : Run d mid later L) :
    ∃ host₁ hd₁ host₂ hd₂, d.OnlyHost mid host₁ hd₁ ∧ d.OnlyHost L host₂ hd₂ ∧
      hd₁.state.version = (d.hostOrders past).length ∧
      (hd₁.state.bound_port.map Prod.fst).Nodup ∧
      (hd₁.state.bound_port.map Prod.fst).Pairwise KeyBefore ∧
      hd₁.state.bound_port.length ≤ host_state.max_bound_ports ∧
      HostThread hd₁ hd₂ (d.hostOrders later) := by
  have hinitial := hstart.initial
  simp only [host_state.is_initialized_valid, Bool.and_eq_true, beq_iff_eq] at hinitial
  obtain ⟨⟨⟨⟨hversion, hempty⟩, -⟩, -⟩, -⟩ := hinitial
  obtain ⟨⟨⟨hversion, -⟩, -⟩, -⟩ := hversion
  obtain ⟨host₁, hd₁, t₁, hthread₁, hports⟩ := hbefore.hostThread hstart.threads
  obtain ⟨host₂, hd₂, t₂, hthread₂, -⟩ := hrun.hostThread t₁
  have hkept : host_state.PortsKept hd₁.state.bound_port := hports <| by
    rw [hempty]
    exact ⟨List.Pairwise.nil, by simp, by simp [host_state.max_bound_ports]⟩
  refine ⟨host₁, hd₁, host₂, hd₂, t₁.onlyHost, t₂.onlyHost, ?_, hkept.nodup, hkept.sorted,
    hkept.bounded, hthread₂⟩
  rw [hthread₁.version, hversion]
  omega

end Runs

section Sample

local instance hostThreadBuiltins : Builtins := ledgerBuiltins

/-- The first client's order is one step of the thread. -/
theorem the_first_client_moves_the_thread :
    ∃ host₁ hd₁ host₂ hd₂, sampleBridge.OnlyHost sampleLedger host₁ hd₁ ∧
      sampleBridge.OnlyHost (sampleLedger.apply firstClientTx firstClientTx_accepted) host₂ hd₂ ∧
      HostThread hd₁ hd₂ [firstClientOrder] := by
  have hrun : Run sampleBridge sampleLedger [(sampleLedger, firstClientTx)] _ :=
    .step .start firstClientTx_accepted (by decide)
  obtain ⟨host₁, hd₁, host₂, hd₂, h₁, h₂, -, -, -, -, hthread⟩ :=
    host_state_is_a_monotone_thread sampleLedger_deployed .start hrun
  exact ⟨host₁, hd₁, host₂, hd₂, h₁, h₂, hthread⟩

end Sample

end cardano_ibc
