-- The messages about reports (msg_server_vessel.go): nobody changes the report of another.
import CardanoIbc.Vessel.Mirror

namespace cardano_ibc.vesseloracle

inductive SdkError where
  | ErrInvalidRequest (text : String)
  | ErrKeyNotFound (text : String)
  | ErrUnauthorized (text : String)

/-- A message has the fields of the report, or of its key to delete it. -/
inductive Msg where
  | CreateVessel (msg : Vessel)
  | UpdateVessel (msg : Vessel)
  | DeleteVessel (creator : Bytes) (key : VesselIndexImo_Key)

def Msg.creator : Msg → Bytes
  | .CreateVessel msg | .UpdateVessel msg => msg.Creator
  | .DeleteVessel creator _ => creator

namespace Store

variable (store : Store)

def CreateVessel (msg : Vessel) : Except SdkError Store :=
  match store.GetVessel msg.Imo msg.Ts msg.Source with
  | some _ => .error (.ErrInvalidRequest "index already set")
  | none => .ok (store.SetVessel msg)

/-- Only the creator of a report updates or deletes it. -/
def owned (creator : Bytes) (key : VesselIndexImo_Key) (after : Store) : Except SdkError Store :=
  match store.GetVessel key.Imo key.Ts key.Source with
  | none => .error (.ErrKeyNotFound "index not set")
  | some valFound =>
    if creator ≠ valFound.Creator then .error (.ErrUnauthorized "incorrect owner") else .ok after

def UpdateVessel (msg : Vessel) : Except SdkError Store :=
  store.owned msg.Creator msg.key (store.SetVessel msg)

def DeleteVessel (creator : Bytes) (key : VesselIndexImo_Key) : Except SdkError Store :=
  store.owned creator key (store.RemoveVessel key.Imo key.Ts key.Source)

def handle : Msg → Except SdkError Store
  | .CreateVessel msg => store.CreateVessel msg
  | .UpdateVessel msg => store.UpdateVessel msg
  | .DeleteVessel creator key => store.DeleteVessel creator key

/-- A message that fails changes nothing. -/
def deliver (msgs : List Msg) : Store :=
  msgs.foldl (fun store msg => (store.handle msg).toOption.getD store) store

end Store

variable {store store' : Store} {msg : Msg}

theorem owned_ok {after : Store} {creator : Bytes} {key : VesselIndexImo_Key}
    (h : store.owned creator key after = .ok store') :
    (∀ vessel, table.get store.vessels key.storeKey = some vessel → creator = vessel.Creator) ∧
      store' = after := by
  grind [Store.owned, Store.GetVessel, VesselIndexImo_Key.storeKey]

/-- A message that is taken makes one call, at a report of its creator or at none. -/
theorem handle_ok (h : store.handle msg = .ok store') :
    ∃ call : Call, store' = call.apply store ∧ ∀ vessel,
      table.get store.vessels call.key.storeKey = some vessel → msg.creator = vessel.Creator := by
  cases msg with
  | CreateVessel msg =>
    simp only [Store.handle, Store.CreateVessel] at h
    split at h
    · cases h
    · rename_i hnone
      cases h
      refine ⟨.SetVessel msg, rfl, fun vessel hstored => ?_⟩
      cases hnone.symm.trans hstored
  | UpdateVessel msg =>
    obtain ⟨howner, rfl⟩ := owned_ok h
    exact ⟨.SetVessel msg, rfl, howner⟩
  | DeleteVessel creator key =>
    obtain ⟨howner, rfl⟩ := owned_ok h
    exact ⟨.RemoveVessel key.Imo key.Ts key.Source, rfl, howner⟩

/-- However many messages others send, a report stays as it is. -/
theorem reports_stay_with_their_creator {msgs : List Msg} {storeKey : Bytes} {vessel : Vessel}
    (hstored : table.get store.vessels storeKey = some vessel)
    (hothers : ∀ msg ∈ msgs, msg.creator ≠ vessel.Creator) :
    table.get (store.deliver msgs).vessels storeKey = some vessel := by
  induction msgs generalizing store with
  | nil => exact hstored
  | cons msg msgs ih =>
    obtain ⟨hother, hothers⟩ := List.forall_mem_cons.mp hothers
    refine ih ?_ hothers
    dsimp only
    cases h : store.handle msg with
    | error => exact hstored
    | ok store' =>
      obtain ⟨call, rfl, howner⟩ := handle_ok h
      refine (get_apply store call storeKey).trans ?_
      rw [if_neg]
      · exact hstored
      · rintro rfl
        exact hother (howner vessel hstored)

theorem another_cannot_delete_a_report :
    table.get ((run ⟨0, 0, 0⟩ [.SetVessel (arriving 0)]).deliver
      [.DeleteVessel (utf8 "cosmos2") (arriving 0).key]).vessels
      (arriving 0).key.storeKey = some (arriving 0) :=
  reports_stay_with_their_creator (by decide) (by decide)

end cardano_ibc.vesseloracle
