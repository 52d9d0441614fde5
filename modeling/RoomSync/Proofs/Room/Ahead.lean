import RoomSync.Proofs.Draft.PendingWrites
import RoomSync.Proofs.Room.Observer
import RoomSync.Proofs.Room.Sessions
import RoomSync.Proofs.Room.Tick

namespace RoomSync

open Table Room

def ServerMessage.NotAfter (clock : Nat) : ServerMessage → Prop
  | .connected accepted => accepted.clock ≤ clock ∧
      ∀ patch, accepted.hydration = .incremental patch →
        patch.fromClock ≤ clock ∧ patch.toClock ≤ clock
  | .data batch => ∀ msg ∈ batch, msg.clock ≤ clock
  | .rejectConnect _ | .pong | .error _ => True

namespace Draft

variable {clock : Nat} {d : Draft}

def Input.message? : Input → Option ServerMessage
  | .receive msg => some msg
  | .push _ | .presence => none

theorem clock_foldData_le {msg : DataMessage} (hmsg : msg.clock ≤ clock)
    (h : d.replica.clock ≤ clock) : (d.foldData msg).1.replica.clock ≤ clock := by
  cases msg with
  | pushResult result => exact Nat.max_le.2 ⟨h, hmsg⟩
  | patch p =>
    by_cases hmade : p.fromClock ≤ d.replica.clock ∧ d.replica.clock < p.toClock
    · rw [foldData_patch hmade.1 hmade.2, clock_rebase]
      exact hmsg
    · rw [foldData_patch_dropped hmade]
      exact h

theorem clock_foldBatch_le {batch : List DataMessage} (hbatch : ∀ msg ∈ batch, msg.clock ≤ clock)
    (h : d.replica.clock ≤ clock) : (d.foldBatch batch).1.replica.clock ≤ clock := by
  induction batch generalizing d with
  | nil => exact h
  | cons msg rest ih =>
    obtain ⟨hmsg, hrest⟩ := List.forall_mem_cons.1 hbatch
    exact ih hrest (clock_foldData_le hmsg h)

theorem clock_hydrate_le {accepted : Accepted}
    (h : (ServerMessage.connected accepted).NotAfter clock) (d : Draft) :
    (d.hydrate accepted).replica.clock ≤ clock := by
  rw [hydrate]
  cases hh : accepted.hydration with
  | full records =>
    rw [clock_rebase]
    exact h.1
  | incremental patch =>
    rw [clock_rebase]
    obtain ⟨hfrom, hto⟩ := h.2 patch hh
    by_cases hgap : patch.fromClock > d.replica.clock
    · simp only [Replica.catchUp, if_pos hgap, Except.toOption, Option.getD_none]
      omega
    · simpa only [Replica.catchUp, if_neg hgap, Except.toOption, Option.getD_some] using hto

theorem clock_take_le {input : Input}
    (hinput : ∀ msg, input.message? = some msg → msg.NotAfter clock)
    (h : d.replica.clock ≤ clock) : (d.take input).replica.clock ≤ clock := by
  cases input with
  | push mutations => exact Nat.le_trans (Nat.le_of_eq (Replica.clock_applyLocal ..)) h
  | presence => exact h
  | receive msg =>
    have hmsg := hinput msg rfl
    cases msg with
    | connected accepted => exact clock_hydrate_le hmsg d
    | data batch => exact clock_foldBatch_le hmsg h
    | rejectConnect _ | pong | error _ => exact h

theorem clock_takeAll_le {inputs : List Input}
    (hinputs : ∀ msg ∈ inputs.filterMap Input.message?, msg.NotAfter clock)
    (h : d.replica.clock ≤ clock) : (d.takeAll inputs).replica.clock ≤ clock := by
  induction inputs generalizing d with
  | nil => exact h
  | cons input rest ih =>
    refine ih (fun msg hm => hinputs msg ?_) (clock_take_le (fun msg hm => hinputs msg ?_) h)
    · obtain ⟨i, hi, he⟩ := List.mem_filterMap.1 hm
      exact List.mem_filterMap.2 ⟨i, List.mem_cons_of_mem _ hi, he⟩
    · exact List.mem_filterMap.2 ⟨input, List.mem_cons_self, hm⟩

theorem clock_takeAll_connected_le {inputs : List Input} {before later : List ServerMessage}
    {accepted : Accepted}
    (hinputs : inputs.filterMap Input.message? = before ++ .connected accepted :: later)
    (h : ∀ msg ∈ .connected accepted :: later, msg.NotAfter clock) (d : Draft) :
    (d.takeAll inputs).replica.clock ≤ clock := by
  obtain ⟨earlier, rest, rfl, -, hrest⟩ := List.filterMap_eq_append_iff.1 hinputs
  obtain ⟨between, input, rest', rfl, -, hinput, hlater⟩ := List.filterMap_eq_cons_iff.1 hrest
  cases input with
  | push _ | presence => cases hinput
  | receive msg =>
    obtain rfl := Option.some.inj hinput
    have hsplit : d.takeAll (earlier ++ (between ++ .receive (.connected accepted) :: rest')) =
        (((d.takeAll earlier).takeAll between).hydrate accepted).takeAll rest' := by
      rw [takeAll, List.foldl_append, List.foldl_append]
      rfl
    rw [hsplit]
    exact clock_takeAll_le (fun msg hm => h msg (List.mem_cons_of_mem _ (hlater ▸ hm)))
      (clock_hydrate_le (h _ List.mem_cons_self) _)

end Draft

theorem ServerMessage.NotAfter.mono {clock clock' : Nat} (hle : clock ≤ clock')
    {msg : ServerMessage} (h : msg.NotAfter clock) : msg.NotAfter clock' := by
  cases msg with
  | connected accepted =>
    exact ⟨Nat.le_trans h.1 hle, fun patch hp =>
      (h.2 patch hp).imp (Nat.le_trans · hle) (Nat.le_trans · hle)⟩
  | data batch => exact fun msg hm => Nat.le_trans (h msg hm) hle
  | rejectConnect _ | pong | error _ => trivial

/-- A connected session was let in, and was sent nothing after a clock and has nothing after it held
back. -/
def Seat.NotAfter (clock : Nat) (seat : Seat) : Prop :=
  ∀ own o, seat.stage = some (.connected own o) → (∀ msg ∈ o.held, msg.clock ≤ clock) ∧
    ∃ before accepted later, seat.taken = before ++ .connected accepted :: later ∧
      ∀ msg ∈ .connected accepted :: later, msg.NotAfter clock

theorem Seat.NotAfter.takes {x y : Seat} {clock clock' : Nat} {posted : List DataMessage}
    (h : x.NotAfter clock) (ht : Takes posted x y) (hle : clock ≤ clock')
    (hposted : ∀ msg ∈ posted, msg.clock ≤ clock') : y.NotAfter clock' := by
  intro own o hstage
  cases ht with
  | vacant hx hy =>
    subst hy
    cases hx.symm.trans hstage
  | waiting _ hx hy _ =>
    subst hy
    cases hx.symm.trans hstage
  | lost _ _ _ hy _ _ =>
    subst hy
    cases hstage
  | connected own' o₀ o' msgs hx hy hlater hm _ _ =>
    subst hy
    obtain ⟨-, rfl⟩ := Stage.connected.inj (Option.some.inj hstage)
    obtain ⟨hheld, before, accepted, later, htaken, hold⟩ := h own' o₀ hx
    have hall : ∀ msg ∈ msgs.flatMap ServerMessage.contents ++ o'.held, msg.clock ≤ clock' := by
      refine hm.all (fun p q _ hq => hq) fun msg hmsg => ?_
      exact (List.mem_append.1 hmsg).elim (fun hmsg => Nat.le_trans (hheld msg hmsg) hle)
        (hposted msg)
    obtain ⟨hsent, hheld'⟩ := List.forall_mem_append.1 hall
    refine ⟨hheld', before, accepted, later ++ msgs, ?_, fun msg hmsg => ?_⟩
    · rw [htaken, List.append_assoc]
      rfl
    · rw [← List.cons_append] at hmsg
      obtain hmsg | hmsg := List.mem_append.1 hmsg
      · exact (hold msg hmsg).mono hle
      · cases msg with
        | connected _ => cases hlater _ hmsg
        | data batch => exact fun m hb => hsent m (List.mem_flatMap.2 ⟨_, hmsg, hb⟩)
        | rejectConnect _ | pong | error _ => trivial

namespace Room

theorem hydration_notAfter (r : Room) (resumed : Bool) (last : Option Nat) (own : RecordId)
    {patch : Patch} (h : r.hydration resumed last own = .incremental patch) :
    patch.fromClock ≤ r.clock ∧ patch.toClock ≤ r.clock := by
  obtain he | ⟨since, -, hc, he⟩ := r.hydration_cases resumed last own
  · cases h.symm.trans he
  · obtain rfl := Hydration.incremental.inj (h.symm.trans he)
    exact ⟨(Store.canCatchUp_iff ..).1 hc |>.2, Nat.le_refl _⟩

end Room

namespace LiveRoom

variable {σ : Type} {l l' : LiveRoom (Journal σ)} {key : String} {socket : SocketId} {now : Nat}
  {deed : Deed} {sockets : List SocketId}

/-- A room without a client that is ahead of it, with what this rests on. -/
structure Leads (sockets : List SocketId) (l : LiveRoom (Journal σ)) : Prop where
  plugged : Plugged l.room sockets
  placed : l.room.Placed
  current : l.room.Current
  seats : ∀ key socket, (l.seat key socket).NotAfter l.room.clock

theorem at_clock_of_current (h : l.room.Current) (key : String) (socket : SocketId) :
    (l.seat key socket).At l.room.clock := by
  intro own o hstage
  obtain ⟨s, c, hs, hc, -, rfl, -⟩ := stage_eq_connected hstage
  have hup : c.outbox.UpTo l.room.clock := h key c.outbox
    (Option.map_eq_some_iff.2 ⟨c, connected?_eq_some.2 ⟨s, hs, hc⟩, rfl⟩)
  exact ⟨hup.lastSent, hup.windowed⟩

theorem Informed.notAfter (hi : Informed key socket l l')
    (h : (l.seat key socket).NotAfter l.room.clock) :
    (l'.seat key socket).NotAfter l'.room.clock := by
  cases hi with
  | quiet hr ht => exact h.takes ht (Nat.le_of_eq (congrArg Moment.clock hr.moment).symm) nofun
  | gone ht hgone => exact fun own o ho => nomatch hgone.symm.trans ho
  | moved changes hs _ ht =>
    refine h.takes ht (Nat.le_of_lt (Nat.lt_of_lt_of_eq (Nat.lt_succ_self _) hs.clock.symm)) ?_
    exact fun msg hm => List.mem_singleton.1 hm ▸ Nat.le_refl _

variable [Host σ]

theorem notAfter_accept (hp : l.room.Placed) (ha : l.room.Alone key socket) (s : Session)
    {waiting : Waiting} (hsocket : waiting.socket = socket) (request : ConnectRequest) :
    let l' := (l.accept key s waiting request now).1
    (l'.seat key socket).NotAfter l'.room.clock := by
  intro l' own o hstage
  obtain ⟨hclock, hhydration⟩ := l.accept_told key s waiting request now
  obtain he | he := seat_accept hp ha hsocket request now
  · rw [he] at hstage ⊢
    obtain ⟨-, rfl⟩ := Stage.connected.inj (Option.some.inj hstage)
    refine ⟨nofun, (l.seat key socket).taken, (l.accept key s waiting request now).2, [], rfl,
      fun msg hm => ?_⟩
    obtain rfl := List.mem_singleton.1 hm
    exact ⟨Nat.le_of_eq hclock, fun patch hpatch =>
      hydration_notAfter _ _ _ _ (hhydration.symm.trans hpatch)⟩
  · rw [he] at hstage
    cases hstage

theorem Turn.seats (ht : Turn now deed l l') (h : Leads sockets l)
    (hfresh : ∀ t, deed.opened? = some t → t ∉ sockets) (key : String) (socket : SocketId) :
    (l'.seat key socket).NotAfter l'.room.clock := by
  intro own o hstage
  obtain ⟨s, c, hs, hc, hsocket, -⟩ := stage_eq_connected hstage
  have hsocket : s.socket? = some socket := by rw [Session.socket?, hc, ← hsocket]
  by_cases hopens : ∃ k, deed = .opens k socket
  · -- A session that was just given its socket waits for its handshake.
    obtain ⟨k, rfl⟩ := hopens
    cases ht with
    | opens _ _ _ info =>
      obtain ⟨rfl, -⟩ | ⟨-, hold⟩ := sockets_succeed k socket info now hs hsocket
      · obtain ⟨info', hstart⟩ := l.session?_succeed now key socket info
        obtain rfl := Option.some.inj (hs.symm.trans hstart)
        cases hc
      · exact absurd (h.plugged.opened key s socket hold hsocket) (hfresh socket rfl)
  · obtain ⟨s₀, hs₀, hsocket₀⟩ := ht.socket (fun k he => hopens ⟨k, he⟩) hs hsocket
    have ha : l.room.Alone key socket := fun k s' hs' hsocket' =>
      h.plugged.distinct k key s' s₀ socket hs' hs₀ hsocket' hsocket₀
    have hat := at_clock_of_current h.current key socket
    suffices hseat : (l'.seat key socket).NotAfter l'.room.clock from hseat own o hstage
    by_cases hdeed : deed.Concerns key socket (l.seat key socket).stage
    · cases ht with
      | opens _ k t info => exact absurd ⟨k, by rw [show t = socket from hdeed]⟩ hopens
      | @greets _ k s' waiting request hs' hw _ =>
        obtain ⟨rfl, hwaiting⟩ := hdeed
        obtain ⟨t, w, hs₁, hw₁, hsocket₁⟩ := stage_eq_waiting hwaiting
        obtain rfl := Option.some.inj (hs'.symm.trans hs₁)
        obtain rfl := SessionState.awaitingConnect.inj (hw.symm.trans hw₁)
        exact notAfter_accept h.placed ha s' hsocket₁ request
      | @serves _ k s' push hs' _ =>
        obtain ⟨rfl, -⟩ := hdeed
        have hclock : (l.serve k s'.presenceId push now).room.clock =
            (l.room.applyPush s'.presenceId push).1.clock :=
          congrArg Moment.clock (l.moment_serve k s'.presenceId push now)
        have hle : l.room.clock ≤ (l.serve k s'.presenceId push now).room.clock := by
          rw [hclock]
          exact l.room.clock_le_applyPush s'.presenceId push
        refine (h.seats k socket).takes
          (takes_serve ha hat.ready s'.presenceId push now) hle fun msg hm => ?_
        obtain rfl := List.mem_singleton.1 hm
        exact Nat.le_of_eq hclock.symm
      | note | touch | cancel | tell | pong | flush | remove => exact hdeed.elim
    · exact (ht.informed h.placed ha hat hdeed).notAfter (h.seats key socket)

theorem Turn.leads (ht : Turn now deed l l') (h : Leads sockets l)
    (hfresh : ∀ t, deed.opened? = some t → t ∉ sockets) :
    Leads (sockets ++ deed.opened?.toList) l' :=
  ⟨ht.plugged h.plugged hfresh, ht.placed h.placed, ht.current h.current, ht.seats h hfresh⟩

theorem leads_run (config : Config) (snapshot : Snapshot) (host : σ) {calls : List Call}
    (hnodup : (opened calls).Nodup) :
    Leads (opened calls) (run ⟨.ofSnapshot config snapshot, .start host⟩ calls) := by
  let start : LiveRoom (Journal σ) := ⟨.ofSnapshot config snapshot, .start host⟩
  have hsession : ∀ key, start.room.session? key = none := fun _ => rfl
  have hstage : ∀ key socket, (start.seat key socket).stage = none := fun _ _ => rfl
  have houtbox : ∀ key, start.room.outbox? key = none := fun _ => rfl
  have hstart : Leads [] start := by
    refine ⟨⟨fun key _ _ h => ?_, fun key _ _ _ _ h => ?_⟩, placed_ofSnapshot config snapshot,
      fun key _ h => ?_, fun key socket _ _ h => ?_⟩
    · cases (hsession key).symm.trans h
    · cases (hsession key).symm.trans h
    · cases (houtbox key).symm.trans h
    · cases (hstage key socket).symm.trans h
  exact run_keeps_fresh (P := Leads)
    (fun _ h => ⟨h.plugged.more _, h.placed, h.current, h.seats⟩) Turn.leads hstart hnodup

omit [Host σ] in
theorem Leads.clock_le (h : Leads sockets l) {c : Connected} (hc : l.room.connected? key = some c) :
    (∀ msg ∈ c.outbox.held, msg.clock ≤ l.room.clock) ∧
      ∀ (d : Draft) inputs, inputs.filterMap Draft.Input.message? = l.host.taken c.socket →
        (d.takeAll inputs).replica.clock ≤ l.room.clock := by
  obtain ⟨s, hs, hstate⟩ := connected?_eq_some.1 hc
  have hstage := stage_of_connected hs hstate c.socket
  rw [if_pos rfl] at hstage
  obtain ⟨hheld, before, accepted, later, htaken, hsent⟩ := h.seats key c.socket _ _ hstage
  exact ⟨hheld, fun d inputs hinputs =>
    Draft.clock_takeAll_connected_le (hinputs.trans htaken) hsent d⟩

end LiveRoom

end RoomSync
