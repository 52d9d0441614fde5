import Mathlib.Data.List.Perm.Subperm
import RoomSync.Proofs.Room.Sessions

namespace RoomSync

open Table Room

theorem Schema.checkClient_eq_ok {s : Schema} {client : SchemaSummary}
    (h : s.checkClient client = .ok ()) :
    s.minVersion ≤ client.version ∧ client.version ≤ s.version := by
  rw [checkClient] at h
  split at h
  · cases h
  · split at h
    · cases h
    · omega

namespace Room

theorem admission_eq_ok {r : Room} {key : String} {request : ConnectRequest}
    (h : r.admission key request = .ok ()) :
    key ∉ r.forbidden ∧ r.config.schema.checkClient request.schema = .ok () ∧
      (r.connectedKeys.filter fun k => k ≠ key).length < r.config.maxSessions := by
  rw [admission] at h
  split at h
  · cases h
  · rename_i hforbidden
    split at h
    · cases h
    · rename_i hclient
      dsimp only at h
      split at h
      · cases h
      · rename_i hroom
        exact ⟨hforbidden, hclient, Nat.lt_of_not_le hroom⟩

structure Admits (r : Room) : Prop where
  count : r.connectedKeys.length ≤ r.config.maxSessions
  supported : ∀ key c, r.connected? key = some c →
    r.config.schema.minVersion ≤ c.schema.version ∧ c.schema.version ≤ r.config.schema.version

structure Barred (r : Room) (key : String) : Prop where
  forbidden : key ∈ r.forbidden
  gone : r.connected? key = none

end Room

namespace LiveRoom

variable {σ : Type} [Host σ] {l : LiveRoom σ} {call : Call} {key : String}

theorem Accepts.admission {request : ConnectRequest} {accepted : Accepted}
    (h : l.Accepts call key request accepted) : l.room.admission key request = .ok () := by
  obtain ⟨_, _, ha, -, -⟩ := h.perform
  exact ha.admission

theorem Accepts.unique {key' : String} {request request' : ConnectRequest}
    {accepted accepted' : Accepted} (h : l.Accepts call key request accepted)
    (h' : l.Accepts call key' request' accepted') : key = key' ∧ request = request' :=
  Deed.greets.inj (h.deed.symm.trans h'.deed)

theorem config_perform (l : LiveRoom σ) (call : Call) :
    (l.perform call).room.config = l.room.config := by
  obtain ⟨_, hwanes, -⟩ := l.perform_wanes call
  exact hwanes.config

theorem length_connectedKeys_perform (h : l.room.Admits) (call : Call) :
    (l.perform call).room.connectedKeys.length ≤ l.room.config.maxSessions := by
  have hnodup : (l.perform call).room.connectedKeys.Nodup := keys_nodup _
  by_cases hjoins : ∃ key request accepted, l.Accepts call key request accepted
  · obtain ⟨key, request, accepted, ha⟩ := hjoins
    obtain ⟨-, -, hroom⟩ := admission_eq_ok ha.admission
    have hsubset : (l.perform call).room.connectedKeys ⊆
        key :: l.room.connectedKeys.filter fun k => k ≠ key := by
      intro k hk
      by_cases hkey : k = key
      · exact hkey ▸ List.mem_cons_self
      · obtain ⟨c', hc'⟩ := mem_connectedKeys_iff.1 hk
        obtain ⟨c, hc, -⟩ | ⟨_, _, ha', -⟩ := (l.fate call k).connected hc'
        · exact List.mem_cons_of_mem _
            (List.mem_filter.2 ⟨mem_connectedKeys_iff.2 ⟨c, hc⟩, decide_eq_true hkey⟩)
        · exact absurd (ha'.unique ha).1 hkey
    exact Nat.le_trans (List.subperm_of_subset hnodup hsubset).length_le hroom
  · have hsubset : (l.perform call).room.connectedKeys ⊆ l.room.connectedKeys := by
      intro k hk
      obtain ⟨c', hc'⟩ := mem_connectedKeys_iff.1 hk
      obtain ⟨c, hc, -⟩ | ⟨_, _, ha, -⟩ := (l.fate call k).connected hc'
      · exact mem_connectedKeys_iff.2 ⟨c, hc⟩
      · exact absurd ⟨k, _, _, ha⟩ hjoins
    exact Nat.le_trans (List.subperm_of_subset hnodup hsubset).length_le h.count

theorem admits_perform (h : l.room.Admits) (call : Call) : (l.perform call).room.Admits := by
  refine ⟨?_, fun key c' hc' => ?_⟩ <;> rw [config_perform]
  · exact length_connectedKeys_perform h call
  · obtain ⟨c, hc, hschema⟩ | ⟨request, _, ha, hschema⟩ := (l.fate call key).connected hc'
    · exact hschema ▸ h.supported key c hc
    · obtain ⟨-, hclient, -⟩ := admission_eq_ok ha.admission
      exact hschema ▸ Schema.checkClient_eq_ok hclient

theorem barred_kick (l : LiveRoom σ) (key : String) (now : Nat) :
    (l.kick key now).1.room.Barred key := by
  let forbidden := if key ∈ l.room.forbidden then l.room.forbidden else key :: l.room.forbidden
  have hmem : key ∈ forbidden := by
    dsimp only [forbidden]
    split
    · assumption
    · exact List.mem_cons_self
  let noted : LiveRoom σ := { l with room := { l.room with forbidden } }
  have hgone : (noted.remove key .kicked now).room.session? key = none :=
    noted.session?_remove now key _
  refine ⟨(noted.wanes_remove now key .kicked).forbidden hmem, ?_⟩
  change (noted.remove key .kicked now).room.connected? key = none
  rw [connected?, hgone]
  rfl

theorem barred_perform (h : l.room.Barred key) (call : Call) :
    (l.perform call).room.Barred key := by
  obtain ⟨_, hwanes, -⟩ := l.perform_wanes call
  refine ⟨hwanes.forbidden h.forbidden, Option.eq_none_iff_forall_not_mem.2 fun c' hc' => ?_⟩
  obtain ⟨c, hc, -⟩ | ⟨_, _, ha, -⟩ := (l.fate call key).connected hc'
  · cases h.gone.symm.trans hc
  · exact (admission_eq_ok ha.admission).1 h.forbidden

theorem barred_run (h : l.room.Barred key) (calls : List Call) : (l.run calls).room.Barred key := by
  induction calls generalizing l with
  | nil => exact h
  | cons call rest ih => exact ih (barred_perform h call)

theorem admits_run (h : l.room.Admits) (calls : List Call) :
    (l.run calls).room.Admits ∧ (l.run calls).room.config = l.room.config := by
  induction calls generalizing l with
  | nil => exact ⟨h, rfl⟩
  | cons call rest ih =>
    obtain ⟨hadmits, hconfig⟩ := ih (admits_perform h call)
    exact ⟨hadmits, hconfig.trans (l.config_perform call)⟩

end LiveRoom

/-- Whatever is done with a room, its connected sessions are no more than its settings allow and
have schemas that they support, and no session is connected once it was kicked. -/
theorem admission_run {σ : Type} [Host σ] (config : Config) (store : Store) (host : σ)
    (calls : List LiveRoom.Call) :
    let room := (LiveRoom.run ⟨.withStore config store, host⟩ calls).room
    room.connectedKeys.length ≤ config.maxSessions ∧
      (∀ key c, room.connected? key = some c →
        config.schema.minVersion ≤ c.schema.version ∧
          c.schema.version ≤ config.schema.version) ∧
      ∀ before now key after, calls = before ++ ⟨now, .kick key⟩ :: after →
        room.connected? key = none := by
  have hstart : (Room.withStore config store).Admits := ⟨Nat.zero_le _, nofun⟩
  obtain ⟨hadmits, hconfig⟩ :=
    LiveRoom.admits_run (l := ⟨.withStore config store, host⟩) hstart calls
  have hcount := hadmits.count
  have hsupported := hadmits.supported
  rw [hconfig] at hcount hsupported
  refine ⟨hcount, hsupported, ?_⟩
  rintro before now key after rfl
  rw [LiveRoom.run_append]
  exact (LiveRoom.barred_run (LiveRoom.barred_kick _ key now) after).gone

end RoomSync
