import RoomSync.Proofs.Room.Hydration
import RoomSync.Proofs.Room.Sessions

namespace RoomSync

open Table Room

namespace Room

def Holds (r : Room) (key : String) (id : RecordId) : Prop :=
  ∃ s, r.session? key = some s ∧ s.presenceId = some id

/-- A session that is left has its presence id and its presence record as before. -/
def Spares (key : String) (r r' : Room) : Prop :=
  ∀ s', r'.session? key = some s' → ∃ s, r.session? key = some s ∧
    s'.presenceId = s.presenceId ∧
    ∀ id, s.presenceId = some id → r'.presence.get? id = r.presence.get? id

variable {key : String} {r r' r'' : Room}

theorem Quiet.spares (h : r.Quiet r') : Spares key r r' := fun s' hs' =>
  have ⟨s, hs, hfades⟩ := h.sessions key s' hs'
  ⟨s, hs, hfades.presenceId, fun id _ => congrArg (get? · id) h.presence⟩

theorem Spares.trans (h : Spares key r r') (h' : Spares key r' r'') : Spares key r r'' := by
  intro s'' hs''
  obtain ⟨s', hs', hid', hpresence'⟩ := h' s'' hs''
  obtain ⟨s, hs, hid, hpresence⟩ := h s' hs'
  exact ⟨s, hs, hid'.trans hid,
    fun id he => (hpresence' id (hid.trans he)).trans (hpresence id he)⟩

theorem Placed.spares_dropped (h : r.Placed) {k : String} {t : Session} (hne : key ≠ k)
    (ht : r.session? k = some t) {id? : Option RecordId}
    (hid : ∀ id, id? = some id → t.presenceId = some id) :
    Spares key r ((r.without k).dropped id?) := by
  intro s hs
  rw [session?_dropped, session?_without, if_neg hne] at hs
  refine ⟨s, hs, rfl, fun id he => (get?_presence_dropped ..).trans (if_neg fun hd => ?_)⟩
  exact hne (h.apart key k s t id hs ht he (hid id hd))

theorem Placed.spares_applyPush (h : r.Placed) {k : String} {t : Session} (hne : key ≠ k)
    (ht : r.session? k = some t) (push : Push) :
    Spares key r (r.applyPush t.presenceId push).1 := by
  intro s hs
  rw [session?, (r.applyPush_frame t.presenceId push).2] at hs
  refine ⟨s, hs, rfl, fun id he => ?_⟩
  obtain ⟨_, ha, -⟩ | ⟨own, _, _, _, hown, -, -, ha⟩ := r.applyPush_cases t.presenceId push
  · rw [ha]
  · rw [ha]
    refine (get?_insert ..).trans (if_neg ?_)
    rintro rfl
    exact hne (h.apart key k s t id hs ht he hown)

theorem spares_seated (r : Room) {k : String} (hne : key ≠ k) (s : Session) :
    Spares key r (r.seated k s) := by
  intro s' hs'
  rw [session?_seated, if_neg hne] at hs'
  exact ⟨s', hs', rfl, fun _ _ => rfl⟩

end Room

namespace LiveRoom

def Deed.key? : Deed → Option String
  | .inner => none
  | .opens key _ | .greets key _ | .serves key _ => some key

variable {σ : Type} [Host σ] {l l' : LiveRoom σ} {now : Nat} {deed : Deed} {key : String}
  {call : Call}

theorem Turn.spares (h : Turn now deed l l') (hp : l.room.Placed) (hdeed : deed.key? ≠ some key) :
    Spares key l.room l'.room := by
  cases h with
  | note => exact (Quiet.spares ⟨rfl, rfl, rfl, fun _ s h => ⟨s, h, .refl s⟩⟩)
  | touch _ k => exact (l.room.steady_touch k now).spares
  | tell => exact (Quiet.refl _).spares
  | cancel _ k cause => exact (l.steady_cancel k cause now).spares
  | pong _ k => exact (l.steady_pong k now).spares
  | flush _ k => exact (l.steady_flushSession now k).spares
  | opens _ k socket info =>
    have hne : key ≠ k := fun he => hdeed (congrArg some he.symm)
    cases hs : l.room.session? k with
    | none =>
      rw [succeed_of_none hs]
      exact l.room.spares_seated hne _
    | some old =>
      obtain ⟨info', he⟩ := succeed_of_some hs socket info now
      rw [he]
      exact l.room.spares_seated hne _
  | remove _ k cause =>
    cases ht : l.room.session? k with
    | none =>
      rw [LiveRoom.remove, ht]
      exact (Quiet.refl _).spares
    | some t =>
      by_cases hk : key = k
      · subst hk
        intro s' hs'
        cases (session?_remove l now key cause).symm.trans hs'
      · exact (hp.spares_dropped hk ht fun _ he => he).trans (l.steady_remove ht cause now).spares
  | @greets _ k s waiting request ht _ _ =>
    have hne : key ≠ k := fun he => hdeed (congrArg some he.symm)
    let id? := s.presenceId.filter fun old => old ≠ request.presenceId
    have hdropped : Spares key l.room ((l.room.without k).dropped id?) :=
      hp.spares_dropped hne ht fun _ he => (Option.filter_eq_some_iff.1 he).1
    have hready : Spares key _ _ := (steady_dropPresence? (l.forget k) id? now).spares
    rw [accept_eq]
    exact ((hdropped.trans hready).trans ((l.readied k s request now).room.spares_seated hne _)).trans
      (steady_welcome _ k s waiting request now).spares
  | @serves _ k s push ht _ =>
    have hne : key ≠ k := fun he => hdeed (congrArg some he.symm)
    exact (hp.spares_applyPush hne ht push).trans (l.steady_serve k s.presenceId push now).spares

theorem Turns.spares {ms : List Moment} (h : Turns now ms l l') (hp : l.room.Placed) :
    l'.room.Placed ∧ Spares key l.room l'.room := by
  induction h with
  | refl l => exact ⟨hp, (Quiet.refl _).spares⟩
  | step ht _ ih =>
    obtain ⟨hplaced, hrest⟩ := ih (ht.placed hp)
    exact ⟨hplaced, (ht.spares hp nofun).trans hrest⟩

theorem spares_perform (hp : l.room.Placed) (hdeed : call.operation.deed.key? ≠ some key) :
    Spares key l.room (l.perform call).room := by
  obtain ⟨ms, hepisode, -⟩ := l.episode_perform call
  cases hepisode with
  | undone ht => exact (ht.spares hp).2
  | done ht hturn =>
    obtain ⟨hplaced, hspares⟩ : _ ∧ Spares key _ _ := ht.spares hp
    exact hspares.trans (hturn.spares hplaced hdeed)

/-- A socket is opened under a key, and the session that it finds can no longer be resumed. -/
def Vacates (l : LiveRoom σ) (call : Call) (key : String) : Prop :=
  (∃ socket info, call.operation = .openSocket key socket info) ∧ l.room.Lapsed key call.now

def Unbroken (key : String) (l : LiveRoom σ) : List Call → Prop
  | [] => (l.room.session? key).isSome
  | call :: rest => (l.room.session? key).isSome ∧ ¬l.Vacates call key ∧
      Unbroken key (l.perform call) rest

/-- A handshake under a key was accepted, and the room has had a session under the key ever since. -/
def HasJoined (l : LiveRoom σ) (calls : List Call) (key : String) : Prop :=
  ∃ before call after request accepted, calls = before ++ call :: after ∧
    (l.run before).Accepts call key request accepted ∧
    Unbroken key ((l.run before).perform call) after

/-- Nothing is pushed under a key, and every handshake that is accepted names the same presence
id. -/
def Undisturbed (key : String) (id : RecordId) (l : LiveRoom σ) : List Call → Prop
  | [] => True
  | call :: rest => (∀ push, ¬l.Serves call key push) ∧
      (∀ request accepted, l.Accepts call key request accepted → request.presenceId = id) ∧
      Undisturbed key id (l.perform call) rest

def Unanswered (key : String) (l : LiveRoom σ) : List Call → Prop
  | [] => True
  | call :: rest => (¬∃ request accepted, l.Accepts call key request accepted) ∧
      Unanswered key (l.perform call) rest

omit [Host σ] in
theorem isSome_of_successor (h : ((l.room.session? key).bind Session.successor).isSome) :
    (l.room.session? key).isSome := by
  obtain ⟨resume, hresume⟩ := Option.isSome_iff_exists.1 h
  obtain ⟨s, hs, -⟩ := Option.bind_eq_some_iff.1 hresume
  rw [hs]
  rfl

theorem Unbroken.isSome {calls : List Call} (h : Unbroken key l calls) :
    (l.room.session? key).isSome := by
  cases calls with
  | nil => exact h
  | cons call rest => exact h.1

theorem hasJoined_cons {rest : List Call} : l.HasJoined (call :: rest) key ↔
    ((∃ request accepted, l.Accepts call key request accepted) ∧
        Unbroken key (l.perform call) rest) ∨
      (l.perform call).HasJoined rest key := by
  constructor
  · rintro ⟨before, call', after, request, accepted, hcalls, haccepts, hafter⟩
    cases before with
    | nil =>
      obtain ⟨rfl, rfl⟩ := List.cons.inj hcalls
      exact .inl ⟨⟨request, accepted, haccepts⟩, hafter⟩
    | cons first before =>
      obtain ⟨rfl, rfl⟩ := List.cons.inj hcalls
      exact .inr ⟨before, call', after, request, accepted, rfl, haccepts, hafter⟩
  · rintro (⟨⟨request, accepted, haccepts⟩, hafter⟩ |
      ⟨before, call', after, request, accepted, rfl, haccepts, hafter⟩)
    · exact ⟨[], call, rest, request, accepted, rfl, haccepts, hafter⟩
    · exact ⟨call :: before, call', after, request, accepted, rfl, haccepts, hafter⟩

theorem successor_perform (l : LiveRoom σ) (call : Call)
    (h : ((l.perform call).room.session? key).isSome) :
    (((l.perform call).room.session? key).bind Session.successor).isSome ↔
      (((l.room.session? key).bind Session.successor).isSome ∧ ¬l.Vacates call key) ∨
        ∃ request accepted, l.Accepts call key request accepted := by
  have hfate := l.fate call key
  cases hfate with
  | stays hopen hjoin hstays =>
    obtain ⟨s', hs'⟩ := Option.isSome_iff_exists.1 h
    obtain ⟨s, hs, hages⟩ := hstays s' hs'
    rw [hs, hs', Option.bind_some, Option.bind_some, hages.successor]
    exact ⟨fun hsome => .inl ⟨hsome, fun hvacates => hopen hvacates.1⟩,
      fun hor => hor.elim And.left fun hjoined => absurd hjoined hjoin⟩
  | @opened socket info info' resume hopen hstart hlapsed hkept =>
    have hnot : ¬∃ request accepted, l.Accepts call key request accepted := by
      rintro ⟨request, accepted, haccepts⟩
      have hdeed := haccepts.deed
      rw [hopen] at hdeed
      cases hdeed
    rw [hstart, Option.bind_some, or_iff_left hnot]
    change resume.isSome ↔ _
    by_cases hl : l.room.Lapsed key call.now
    · rw [hlapsed hl]
      exact ⟨nofun, fun hsome => absurd ⟨⟨socket, info, hopen⟩, hl⟩ hsome.2⟩
    · rw [hkept hl]
      exact ⟨fun hsome => ⟨hsome, fun hvacates => hl hvacates.2⟩, And.left⟩
  | @joined request accepted c s s' haccepts hs' _ hstate _ hages =>
    rw [hs', Option.bind_some, hages.successor, Session.successor, hstate]
    exact ⟨fun _ => .inr ⟨request, accepted, haccepts⟩, fun _ => rfl⟩

/-- A session has something to pass on if its key had a handshake accepted, or had something to pass
on from the start, and the room has had a session under the key ever since. -/
theorem successor_run (l : LiveRoom σ) (calls : List Call) (key : String) :
    (((l.run calls).room.session? key).bind Session.successor).isSome ↔
      (((l.room.session? key).bind Session.successor).isSome ∧ Unbroken key l calls) ∨
        l.HasJoined calls key := by
  induction calls generalizing l with
  | nil =>
    have hnever : ¬l.HasJoined [] key := by
      rintro ⟨before, call, after, _, _, hcalls, -⟩
      cases before <;> cases hcalls
    rw [or_iff_left hnever]
    exact ⟨fun hsome => ⟨hsome, isSome_of_successor hsome⟩, And.left⟩
  | cons call rest ih =>
    have hrun : l.run (call :: rest) = (l.perform call).run rest := rfl
    rw [hrun, ih (l.perform call), hasJoined_cons, ← or_assoc]
    refine or_congr_left ?_
    constructor
    · rintro ⟨hsome, hrest⟩
      obtain ⟨hbefore, hvacates⟩ | hjoined := (l.successor_perform call hrest.isSome).1 hsome
      · exact .inl ⟨hbefore, isSome_of_successor hbefore, hvacates, hrest⟩
      · exact .inr ⟨hjoined, hrest⟩
    · rintro (⟨hbefore, -, hvacates, hrest⟩ | ⟨hjoined, hrest⟩)
      · exact ⟨(l.successor_perform call hrest.isSome).2 (.inl ⟨hbefore, hvacates⟩), hrest⟩
      · exact ⟨(l.successor_perform call hrest.isSome).2 (.inr hjoined), hrest⟩

theorem spares_openSocket (hp : l.room.Placed) {s : Session} (hs : l.room.session? key = some s)
    (hlapsed : ¬l.room.Lapsed key now) (socket : SocketId) (info : Content) :
    Spares key l.room (l.openSocket key socket info now).room := by
  obtain ⟨info', he⟩ := succeed_of_some hs socket info now
  rw [openSocket_eq, l.expire_of_not_lapsed now key hlapsed, he]
  intro s' hs'
  rw [session?_seated, if_pos rfl] at hs'
  obtain rfl := Option.some.inj hs'
  exact ⟨s, hs, successor_presenceId hp hs, fun _ _ => rfl⟩

theorem Accepts.spares {request : ConnectRequest} {accepted : Accepted}
    (h : l.Accepts call key request accepted) (hholds : l.room.Holds key request.presenceId) :
    Spares key l.room (l.perform call).room := by
  obtain ⟨s, waiting, ha, hperform, -⟩ := h.perform
  obtain ⟨t, ht, hid⟩ := hholds
  obtain rfl := Option.some.inj (ha.session.symm.trans ht)
  have hready : l.readied key s request call.now = l.forget key := by
    rw [readied, hid, Option.filter_some_neg (by simp)]
    rfl
  have hrests := l.rests_accept key s waiting request call.now
  rw [hready] at hrests
  rw [hperform]
  intro s' hs'
  obtain ⟨s'', hs'', hages⟩ := l.session?_accept call.now key s waiting request
  obtain rfl := Option.some.inj (hs''.symm.trans hs')
  exact ⟨s, ht, hages.presenceId.trans hid.symm, fun id _ => congrArg (get? · id) hrests.presence⟩

theorem Repels.spares (h : l.Repels call key) : Spares key l.room (l.perform call).room := by
  obtain he | ⟨socket, msg, cause, he⟩ := h <;> rw [he]
  · exact (Quiet.refl _).spares
  · intro s' hs'
    cases (session?_remove (l.tell socket msg) call.now key cause).symm.trans hs'

/-- Whatever is done, a session that stays keeps its presence id and its presence record, unless it
pushes or connects under another presence id. -/
theorem spares_of_undisturbed {id : RecordId} (hp : l.room.Placed)
    (hholds : l.room.Holds key id) (hvacates : ¬l.Vacates call key)
    (hserves : ∀ push, ¬l.Serves call key push)
    (haccepts : ∀ request accepted, l.Accepts call key request accepted → request.presenceId = id) :
    Spares key l.room (l.perform call).room := by
  by_cases hdeed : call.operation.deed.key? = some key
  · obtain ⟨now, operation⟩ := call
    cases hd : operation.deed with
    | inner =>
      rw [hd] at hdeed
      cases hdeed
    | opens k socket =>
      obtain rfl : k = key := by
        rw [hd] at hdeed
        exact Option.some.inj hdeed
      obtain ⟨info, rfl⟩ := Operation.deed_eq_opens hd
      obtain ⟨s, hs, -⟩ := hholds
      exact spares_openSocket hp hs (fun hlapsed => hvacates ⟨⟨socket, info, rfl⟩, hlapsed⟩) socket info
    | greets k request =>
      obtain rfl : k = key := by
        rw [hd] at hdeed
        exact Option.some.inj hdeed
      obtain ⟨accepted, ha⟩ | hr := accepts_or_repels l ⟨now, operation⟩ hd
      · exact ha.spares (haccepts request accepted ha ▸ hholds)
      · exact hr.spares
    | serves k push =>
      obtain rfl : k = key := by
        rw [hd] at hdeed
        exact Option.some.inj hdeed
      obtain hs | hr := serves_or_repels l ⟨now, operation⟩ hd
      · exact absurd hs (hserves push)
      · exact hr.spares
  · exact spares_perform hp hdeed

theorem holds_run {id : RecordId} {calls : List Call} (hp : l.room.Placed)
    (hholds : l.room.Holds key id) (hunbroken : Unbroken key l calls)
    (hundisturbed : Undisturbed key id l calls) :
    (l.run calls).room.Holds key id ∧
      (l.run calls).room.presence.get? id = l.room.presence.get? id := by
  induction calls generalizing l with
  | nil => exact ⟨hholds, rfl⟩
  | cons call rest ih =>
    obtain ⟨-, hvacates, hunbroken⟩ := hunbroken
    obtain ⟨hserves, haccepts, hundisturbed⟩ := hundisturbed
    have hspares := spares_of_undisturbed hp hholds hvacates hserves haccepts
    obtain ⟨s', hs'⟩ := Option.isSome_iff_exists.1 hunbroken.isSome
    obtain ⟨s, hs, hid, hpresence⟩ := hspares s' hs'
    obtain ⟨t, ht, hheld⟩ := hholds
    obtain rfl := Option.some.inj (hs.symm.trans ht)
    have hplaced : (l.perform call).room.Placed :=
      run_keeps (P := fun l => l.room.Placed) (fun _ _ _ _ ht h => ht.placed h) hp [call]
    obtain ⟨hend, hsame⟩ := ih hplaced ⟨s', hs', hid.trans hheld⟩ hunbroken hundisturbed
    exact ⟨hend, hsame.trans (hpresence id hheld)⟩

theorem Serves.connected {push : Push} (h : l.Serves call key push) :
    ∃ c, l.room.connected? key = some c := by
  obtain ⟨result, hresult⟩ := h.result
  obtain ⟨_, -, he⟩ | ⟨s, hs, hc, -⟩ := l.receivePush_cases call.now key push
  · cases he ▸ hresult
  · exact mem_connectedKeys_iff.1 (mem_connectedKeys.2 ⟨s, hs, hc⟩)

theorem Unanswered.undisturbed {calls : List Call} (h : Unanswered key l calls)
    (hlost : l.room.connected? key = none) (id : RecordId) : Undisturbed key id l calls := by
  induction calls generalizing l with
  | nil => trivial
  | cons call rest ih =>
    obtain ⟨hno, hrest⟩ := h
    refine ⟨fun push hserves => ?_, fun request accepted ha => absurd ⟨request, accepted, ha⟩ hno,
      ih hrest ?_⟩
    · obtain ⟨c, hc⟩ := hserves.connected
      cases hlost.symm.trans hc
    · refine Option.eq_none_iff_forall_not_mem.2 fun c' hc' => ?_
      obtain ⟨c, hc, -⟩ | ⟨request, accepted, ha, -⟩ := (l.fate call key).connected hc'
      · cases hlost.symm.trans hc
      · exact hno ⟨request, accepted, ha⟩

/-- What the sessions under a key pass on to each other in a run. -/
structure Lineage (start : LiveRoom σ) (calls : List Call) (key : String) : Prop where
  resumed : ∀ call request accepted, (start.run calls).Accepts call key request accepted →
    (accepted.resumed = true ↔ start.HasJoined calls key)
  full : ∀ call request accepted, (start.run calls).Accepts call key request accepted →
    accepted.resumed = false → ∃ records, accepted.hydration = .full records
  connected : ∀ c, (start.run calls).room.connected? key = some c → start.HasJoined calls key
  named : ∀ call request accepted, (start.run calls).Accepts call key request accepted →
    ((start.run calls).perform call).room.Holds key request.presenceId
  kept : ∀ id rest, (start.run calls).room.Holds key id → Unbroken key (start.run calls) rest →
    Undisturbed key id (start.run calls) rest →
    ((start.run calls).run rest).room.Holds key id ∧
      ((start.run calls).run rest).room.presence.get? id = (start.run calls).room.presence.get? id
  left : ∀ id rest, (start.run calls).room.Holds key id →
    (start.run calls).room.connected? key = none → Unbroken key (start.run calls) rest →
    Unanswered key (start.run calls) rest →
    ((start.run calls).run rest).room.Holds key id ∧
      ((start.run calls).run rest).room.presence.get? id = (start.run calls).room.presence.get? id

end LiveRoom

/-- In every run of a room, a handshake is resumed exactly if an earlier one was accepted since the
room last had no session under the key, a handshake that is not resumed gets everything, and as long
as the key has a session its presence record stays, up to its own pushes and to handshakes that name
another presence id. -/
theorem lineage_run {σ : Type} [Host σ] (config : Config) (snapshot : Snapshot) (host : σ)
    (calls : List LiveRoom.Call) (key : String) :
    LiveRoom.Lineage ⟨.ofSnapshot config snapshot, host⟩ calls key := by
  let start : LiveRoom σ := ⟨.ofSnapshot config snapshot, host⟩
  have hplaced : (start.run calls).room.Placed := by
    have hstart : (Room.ofSnapshot config snapshot).Placed :=
      ⟨Record.keyed_table snapshot.records, nofun, nofun, nofun, nofun, nofun, nofun⟩
    exact LiveRoom.run_keeps (P := fun l => l.room.Placed) (fun _ _ _ _ ht h => ht.placed h)
      (l := start) hstart calls
  have hjoined : (((start.run calls).room.session? key).bind Session.successor).isSome ↔
      start.HasJoined calls key := by
    refine (start.successor_run calls key).trans (or_iff_right fun h => ?_)
    cases h.1
  refine ⟨fun call request accepted h => ?_, fun call request accepted h hresumed => ?_,
    fun c hc => ?_, fun call request accepted h => ?_, fun id rest hholds => ?_,
    fun id rest hholds hlost hunbroken hunanswered => ?_⟩
  · obtain ⟨s, waiting, ha, -, rfl⟩ := h.perform
    rw [← hjoined, ha.session, Option.bind_some, Session.successor, ha.state]
    rfl
  · obtain ⟨s, waiting, -, -, rfl⟩ := h.perform
    have hfull := ((start.run calls).readied key s request call.now).room.hydration_of_not_resumed
      request.lastKnownClock request.presenceId
    rw [← show waiting.resume.isSome = false from hresumed] at hfull
    exact ⟨_, hfull⟩
  · obtain ⟨s, hs, hstate⟩ := Room.connected?_eq_some.1 hc
    rw [← hjoined, hs, Option.bind_some, Session.successor, hstate]
    rfl
  · obtain ⟨s, waiting, -, hperform, -⟩ := h.perform
    obtain ⟨s', hs', hages⟩ :=
      (start.run calls).session?_accept call.now key s waiting request
    exact ⟨s', hperform ▸ hs', hages.presenceId⟩
  · exact LiveRoom.holds_run hplaced hholds
  · exact LiveRoom.holds_run hplaced hholds hunbroken (hunanswered.undisturbed hlost id)

/-- A session shows itself and is lost, a socket is opened for it, and another one in its place. -/
theorem lineage_run_reopened :
    let request : ConnectRequest := ⟨"a", "presence:a", ⟨1, []⟩, none⟩
    let calls : List LiveRoom.Call :=
      [⟨0, .openSocket "a" 0 .null⟩, ⟨0, .connect "a" request⟩,
        ⟨0, .push "a" ⟨"a", 1, [], some (.object [])⟩⟩, ⟨1, .socketClosed "a" 0⟩,
        ⟨1, .openSocket "a" 1 .null⟩, ⟨2, .openSocket "a" 2 .null⟩]
    let start : LiveRoom Unit := ⟨.ofSnapshot .notes ⟨0, []⟩, ()⟩
    ∃ accepted, (start.run calls).Accepts ⟨2, .connect "a" request⟩ "a" request accepted ∧
      accepted.resumed = true ∧ start.HasJoined calls "a" ∧
      ((start.run calls).perform ⟨2, .connect "a" request⟩).room.Holds "a" "presence:a" := by
  intro request calls start
  have haccepted : ((start.run calls).connect "a" request 2).2 =
      .ok ⟨1, 1, true, .full []⟩ := eq_ok_of_toOption (by decide +kernel)
  have haccepts : (start.run calls).Accepts ⟨2, .connect "a" request⟩ "a" request
    ⟨1, 1, true, .full []⟩ := ⟨rfl, haccepted⟩
  have hlineage := lineage_run .notes ⟨0, []⟩ () calls "a"
  exact ⟨_, haccepts, rfl, (hlineage.resumed _ _ _ haccepts).1 rfl, hlineage.named _ _ _ haccepts⟩

end RoomSync
