-- Runs of the ledger with their history, and the record of one object along a run: it stays as
-- it is until the object is spent, and then it becomes what the object's script lets it.
import CardanoIbc.Ledger.Threads

namespace cardano_ibc

open validator_utils

/-! ## When a transaction can be taken -/

/-- The ledger takes a transaction at a time inside its validity interval. -/
def ValidityRange.includes (range : ValidityRange) (time : Int) : Bool :=
  (match range.lower_bound.bound_type with
    | .NegativeInfinity => true
    | .Finite valid_from =>
      if range.lower_bound.is_inclusive then valid_from ≤ time else valid_from < time
    | .PositiveInfinity => false) &&
  match range.upper_bound.bound_type with
    | .NegativeInfinity => false
    | .Finite valid_to =>
      if range.upper_bound.is_inclusive then time ≤ valid_to else time < valid_to
    | .PositiveInfinity => true

theorem valid_from_le {range : ValidityRange} {valid_from time : Int}
    (h : get_tx_valid_from range = some valid_from) (hin : range.includes time = true) :
    valid_from ≤ time := by
  unfold get_tx_valid_from at h
  split at h
  · rename_i hinclusive
    split at h
    · rename_i hbound
      cases h
      simp only [ValidityRange.includes, hbound, hinclusive, if_true, Bool.and_eq_true,
        decide_eq_true_eq] at hin
      exact hin.1
    · cases h
  · cases h

section Runs

variable [Builtins]

/-- The transactions so far, the last one first, each with the ledger it was put on. -/
abbrev History := List (Ledger × Transaction)

/-- A run that does not end the bridge. -/
inductive Run (d : Deployment) (start : Ledger) : History → Ledger → Prop
  | start : Run d start [] start
  | step {past : History} {L : Ledger} {tx : Transaction} (before : Run d start past L)
      (h : d.Accepted L tx) (notFinal : d.finalises tx = false) :
    Run d start ((L, tx) :: past) (L.apply tx h)

variable {d : Deployment} {start L : Ledger} {tx : Transaction} {past : History}

theorem Run.threads {host : Input} {hd : HostStateDatum}
    (t : Threads d.toHashes start host hd) (hrun : Run d start past L) :
    ∃ host hd, Threads d.toHashes L host hd := by
  induction hrun with
  | start => exact ⟨host, hd, t⟩
  | step _ h notFinal ih =>
    obtain ⟨host, hd, t⟩ := ih
    obtain ⟨host', hd', m⟩ := t.host_move h notFinal
    exact ⟨host', hd', t.step h m⟩

/-! ## The record of an object -/

omit [Builtins] in
/-- The record that stands under the token of an object. -/
def Hashes.Record (d : Hashes) (k : Kind) (L : Ledger) (n : AssetName) (data : Data) : Prop :=
  ∃ u ∈ L.utxos, 0 < amount (d.policy k) n u ∧ u.output.datum = .InlineDatum data

namespace Threads

variable {host : Input} {hd : HostStateDatum} {k : Kind} {n : AssetName} {data : Data}

theorem holder_unique (t : Threads d.toHashes L host hd) {u v : Input} (hu : u ∈ L.utxos)
    (hv : v ∈ L.utxos) (hpu : 0 < amount (d.policy k) n u) (hpv : 0 < amount (d.policy k) n v) :
    u = v :=
  Ledger.holder_unique (t.unique k n) hu hv hpu hpv

theorem record_unique (t : Threads d.toHashes L host hd) {data' : Data}
    (h : d.Record k L n data) (h' : d.Record k L n data') : data = data' := by
  obtain ⟨u, hu, hheld, hdatum⟩ := h
  obtain ⟨v, hv, hheld', hdatum'⟩ := h'
  obtain rfl := t.holder_unique hu hv hheld hheld'
  rw [hdatum] at hdatum'
  injection hdatum'

/-- The record names the token it stands under. -/
theorem record_names (t : Threads d.toHashes L host hd) (h : d.Record k L n data) :
    k.tokenIn data = some { policy_id := d.policy k, name := n } := by
  obtain ⟨u, hu, hheld, hdatum⟩ := h
  obtain ⟨data', _, o⟩ := t.objects k u hu n hheld
  have heq := o.datum
  rw [hdatum] at heq
  injection heq with heq
  rw [heq]
  exact o.names

/-- A transaction leaves an object alone, or spends it and leaves its next record. -/
theorem record_step (t : Threads d.toHashes L host hd) (h : d.Accepted L tx)
    (hrecord : d.Record k L n data) :
    ((∀ i ∈ tx.inputs, ¬ 0 < amount (d.policy k) n i) ∧ d.Record k (L.apply tx h) n data) ∨
    ∃ i ∈ tx.inputs, 0 < amount (d.policy k) n i ∧
      ∃ new, ObjectStep d.toHashes tx i data new ∧ d.Record k (L.apply tx h) n new := by
  obtain ⟨u, hu, hheld, hdatum⟩ := hrecord
  by_cases hspent : u ∈ tx.inputs
  · right
    obtain ⟨old, s, out, new, o, hupdate, hstep⟩ := t.spent_object h hspent hheld
    have hold := o.datum
    rw [hdatum] at hold
    injection hold with hold
    obtain ⟨hout, -, hone⟩ := find_unique_continuation_output_spec hupdate.output
    obtain ⟨v, hv, rfl⟩ := Transaction.exists_created hout
    have hnew : 0 < amount (d.policy k) n v := by
      rw [amount, hone]
      exact Int.one_pos
    exact ⟨u, hspent, hheld, new, hold ▸ hstep, v, Ledger.mem_apply.mpr (.inr hv), hnew,
      hupdate.datum⟩
  · left
    refine ⟨?_, u, Ledger.mem_apply.mpr (.inl ⟨hu, hspent⟩), hheld, hdatum⟩
    intro i hi hpositive
    exact hspent (t.holder_unique hu (h.inputs_live i hi) hheld hpositive ▸ hi)

/-- The record of an object after a transaction is the one before, or it is made from it where the
object is spent, or the object is created by the transaction. -/
theorem record_origin (t : Threads d.toHashes L host hd) (h : d.Accepted L tx)
    (hrecord : d.Record k (L.apply tx h) n data) :
    (d.Record k L n data ∧ ∀ i ∈ tx.inputs, ¬ 0 < amount (d.policy k) n i) ∨
    (∃ i old s out, i ∈ tx.inputs ∧ 0 < amount (d.policy k) n i ∧ d.Record k L n old ∧
      Object d.toHashes k hd.state i n old s ∧
      Update k d.host_state_nft tx i.output { policy_id := d.policy k, name := n } out data ∧
      ObjectStep d.toHashes tx i old data) ∨
    ∃ order out, Creation k d.host_state_nft (d.policy k) (d.script k) tx host hd order
      { policy_id := d.policy k, name := n } out data := by
  obtain ⟨u, hu, hheld, hdatum⟩ := hrecord
  rcases Ledger.mem_apply.mp hu with ⟨hold, hunspent⟩ | hnew
  · refine .inl ⟨⟨u, hold, hheld, hdatum⟩, ?_⟩
    intro i hi hpositive
    exact hunspent (t.holder_unique hold (h.inputs_live i hi) hheld hpositive ▸ hi)
  right
  cases t.fate h hnew hheld with
  | created creation =>
    have hsame := creation.datum
    rw [hdatum] at hsame
    cases hsame
    exact .inr ⟨_, u.output, creation⟩
  | @updated i old new s hspent hheld' object update step =>
    have hsame := update.datum
    rw [hdatum] at hsame
    cases hsame
    exact .inl ⟨i, old, s, u.output, hspent, hheld', ⟨i, h.inputs_live i hspent, hheld',
      object.datum⟩, object, update, step⟩

end Threads

end Runs

end cardano_ibc
