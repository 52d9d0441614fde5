import RoomSync.Proofs.Room.InPlace

namespace RoomSync

open Table Room

namespace LiveRoom

variable {σ : Type} {l l' : LiveRoom (Journal σ)} {key : String} {socket : SocketId}
  {now : Nat} {deed : Deed} {past past' ms : List Moment}

/-- What happens to a room is told to every socket that it does not concern. -/
structure Proceeds (past past' : List Moment) (deed : Deed) (l l' : LiveRoom (Journal σ)) : Prop
    extends Unfolds deed l l' where
  sub : past ⊆ past'
  chronicle : l'.room.Chronicle past'
  passes : ∀ key socket, Attended past l key socket →
    ¬deed.Concerns key socket (l.seat key socket).stage → Passes past' l l' key socket

theorem Proceeds.congr (h : Proceeds past past' deed l l') {past'' : List Moment}
    (hmem : ∀ m, m ∈ past'' ↔ m ∈ past') : Proceeds past past'' deed l l' :=
  ⟨h.toUnfolds, fun m hm => (hmem m).2 (h.sub hm), h.chronicle.congr hmem,
    fun key socket ha hd => (h.passes key socket ha hd).congr hmem⟩

theorem proceeds_of_same (hc : l.room.Chronicle past) (hroom : l'.room = l.room)
    (htaken : l'.host.taken = l.host.taken) (hclosed : l'.host.closed = l.host.closed) :
    Proceeds past past deed l l' := by
  have hseat : ∀ key socket, l'.seat key socket = l.seat key socket := fun key socket => by
    rw [seat, seat, hroom, htaken, hclosed]
  refine ⟨unfolds_of_same hc.sound.placed hroom htaken hclosed, fun _ hm => hm, hroom ▸ hc,
    fun key socket ha _ => ?_⟩
  have hp := ha.passes
  refine ⟨⟨hroom ▸ ha.chronicle, hroom ▸ ha.alone, ?_⟩, ?_, fun past' own m before answered hp hs => ?_⟩
  · rw [hseat, hroom]
    exact ha.at_clock
  · rw [hseat]
    exact hp.takes
  · rw [hseat, hroom]
    exact hs

variable [Host σ]

theorem Episode.proceeds (he : Episode now deed ms l l') (hc : l.room.Chronicle past) :
    Proceeds past (past ++ ms) deed l l' :=
  ⟨he.unfolds hc.sound.placed, List.subset_append_left .., he.chronicle hc,
    fun _ _ ha hd => ha.episode he hd⟩

theorem Brief.proceeds (hb : Brief now deed l l') (hc : l.room.Chronicle past) :
    Proceeds past (past ++ [l'.room.moment]) deed l l' := by
  obtain ⟨ms, he, hmem⟩ := hb
  have hlast := he.last
  have hnow := hc.now
  refine (he.proceeds hc).congr fun m => ?_
  have hm := hmem m
  simp only [List.mem_append, List.mem_cons, List.not_mem_nil, or_false] at hlast ⊢
  grind

theorem Attended.heeds_connect (h : Attended past l key socket)
    (hw : (l.seat key socket).stage = some .waiting) {request : ConnectRequest}
    (hkey : request.sessionKey = key) (now : Nat)
    (hl' : l.heed key (.connect request) now = l') :
    Attended (past ++ [l'.room.moment]) l' key socket ∧
      ((l'.seat key socket).stage = none ∧ (l'.seat key socket).closed = true ∨
        ∃ accepted resumed, l'.seat key socket =
            { l.seat key socket with
              taken := (l.seat key socket).taken ++ [.connected accepted]
              stage := some (.connected (some request.presenceId) (.start l'.room.clock now)) } ∧
          accepted.clock = l'.room.clock ∧
          accepted.hydration =
            l'.room.hydration resumed request.lastKnownClock request.presenceId) := by
  have hc := ((l.brief_heed now key (.connect request)).proceeds h.chronicle).chronicle
  rw [hl'] at hc
  obtain ⟨hin, hseat⟩ := h.inPlace.heeds_connect hw hkey now hl'
  exact ⟨⟨hc, hin.alone, hin.at_clock⟩, hseat⟩

theorem Attended.heeds_push (h : Attended past l key socket) {own : RecordId} {o : Outbox}
    (hstage : (l.seat key socket).stage = some (.connected (some own) o)) {push : Push}
    (hkey : push.sessionKey = key) (now : Nat) (hl' : l.heed key (.push push) now = l') :
    Attended (past ++ [l'.room.moment]) l' key socket ∧
      (∃ posted, Takes posted (l.seat key socket) (l'.seat key socket)) ∧
      ∀ m before answered, Supplied own past m before answered l.room.moment (l.seat key socket) →
        Supplied own (past ++ [l'.room.moment]) m before (answered ++ [push]) l'.room.moment
          (l'.seat key socket) := by
  have hc := ((l.brief_heed now key (.push push)).proceeds h.chronicle).chronicle
  rw [hl'] at hc
  have hr := h.inPlace.heeds_push hstage hkey now hl'
  have hsettles : Settles (some own) l.room.moment l'.room.moment push.mutations
      (l.room.answer (some own) push) := by
    rw [hr.moment]
    exact h.chronicle.sound.settles_applyPush push
  have hle : l.room.moment.clock ≤ l'.room.moment.clock := by
    rw [hr.moment]
    exact l.room.clock_le_applyPush (some own) push
  refine ⟨⟨hc, hr.inPlace.alone, hr.inPlace.at_clock⟩, ⟨_, hr.takes⟩, fun m before answered hs => ?_⟩
  exact (hs.mono (List.subset_append_left ..)).takes hr.takes
    (.result rfl hle hsettles hc.now (.nil _))

theorem Free.openSocket (h : l.Free socket) (hc : l.room.Chronicle past) (info : Content) (now : Nat)
    (hl' : l.openSocket key socket info now = l') :
    Attended (past ++ [l'.room.moment]) l' key socket ∧
      l'.seat key socket = { l.seat key socket with stage := some .waiting } := by
  have hc' := ((l.brief_openSocket now key socket info).proceeds hc).chronicle
  rw [hl'] at hc'
  obtain ⟨hin, hseat⟩ := h.openSocket_inPlace hc.sound.placed info now hl'
  exact ⟨⟨hc', hin.alone, hin.at_clock⟩, hseat⟩

end LiveRoom

end RoomSync
