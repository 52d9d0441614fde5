import RoomSync.Proofs.Gathering.Accord
import RoomSync.Proofs.Gathering.Member
import RoomSync.Proofs.Room.Stamps

namespace RoomSync

open Table Room LiveRoom

inductive Incident (σ : Type) where
  | within (happening : Happening σ)
  | outside (operation : LiveRoom.Operation)
deriving Inhabited

namespace Gathering

variable {σ : Type}

/-- Others open no sockets of members, and do not speak for a member that is connected. -/
def admits (g : Gathering σ) : LiveRoom.Operation → Bool
  | .openSocket _ _ _ => false
  | .receive key _ | .connect key _ | .push key _ =>
    ((g.members.get? key).bind fun m => m.link? g.live).isNone
  | .socketClosed _ _ | .tick | .kick _ | .takeEvents => true

/-- What an incident is to the working copy of a member. -/
def input? (g : Gathering σ) (key : String) : Incident σ → Option Draft.Input
  | .within (.pushes k mutations) =>
    if k = key ∧ g.members.contains key then some (.push mutations) else none
  | .within (.appears k _) =>
    if k = key ∧ (g.members.get? key).any (·.client.state = .connected) then some .presence else none
  | .within (.reads k) =>
    if k = key then
      ((g.members.get? key).bind fun m => m.incoming? g.live).map fun (_, _, msg) => .receive msg
    else none
  | _ => none

variable [Host σ]

def undergo (now : Nat) (g : Gathering σ) : Incident σ → Gathering σ
  | .within happening => g.step now happening
  | .outside operation =>
    if g.admits operation then { g with live := g.live.perform ⟨now, operation⟩ } else g

def undergoAll (g : Gathering σ) (incidents : List (Nat × Incident σ)) : Gathering σ :=
  incidents.foldl (fun g o => g.undergo o.1 o.2) g

def inputs (g : Gathering σ) (key : String) : List (Nat × Incident σ) → List Draft.Input
  | [] => []
  | (now, incident) :: rest =>
    (g.input? key incident).toList ++ (g.undergo now incident).inputs key rest

structure Answers (g : Gathering σ) (now : Nat) (incident : Incident σ) (key : String)
    (push : Push) (result : PushResult) : Prop where
  heard : incident = .within (.isHeard key)
  said : ((g.members.get? key).bind fun m => m.outgoing? g.live).map (·.2) = some (.push push)
  answer : (g.live.receivePush key push now).2 = .ok result

def Answered (key : String) (push : Push) (result : PushResult) :
    Gathering σ → List (Nat × Incident σ) → Prop
  | _, [] => False
  | g, (now, incident) :: rest =>
    g.Answers now incident key push result ∨ (g.undergo now incident).Answered key push result rest

end Gathering

variable {σ : Type} {answers answers' : Push → PushResult → Prop} {w w' : Watch}
  {l l' : LiveRoom (Journal σ)} {opened opened' : Nat} {key : String} {m : Member}

/-- A member whose working copy is watched, with a session that answers its pushes. -/
structure Member.Attuned (answers : Push → PushResult → Prop) (w : Watch) (l : LiveRoom (Journal σ))
    (opened : Nat) (key : String) (m : Member) : Prop where
  watched : m.client.draft = w.draft
  sessionKey : w.draft.sessionKey = key
  sound : w.Sound
  dialing : ∀ request, m.dialing = some request → request.sessionKey = key ∧ m.client.Lags
  attached : ∀ connection, m.client.line? = some connection →
    m.Attached (Accorded answers key l) opened connection

namespace Member.Attuned

theorem becomes (h : m.Attuned answers w l opened key) {c : Client} {draft : Draft}
    {g : List ClientMessage → List ClientMessage} {read : Nat}
    (hb : m.client.Becomes c draft g) (hwatched : draft = w'.draft)
    (hkey : w'.draft.sessionKey = key) (hsound : w'.Sound)
    (hstate : m.client.Lags → c.state ≠ .connected)
    (hlinked : ∀ connection, m.client.line? = some connection →
      Accorded answers key l m.socket m.client.state w.draft m.read connection.outgoing →
      Accorded answers' key l' m.socket c.state w'.draft read (g connection.outgoing)) :
    Member.Attuned answers' w' l' opened key { m with client := c, read } := by
  refine ⟨hb.draft.trans hwatched, hkey, hsound, fun request hr => ?_,
    Attached.becomes h.attached hb fun connection hl hlink => ?_⟩
  · obtain ⟨hrequest, hlags⟩ := h.dialing request hr
    exact ⟨hrequest, hb.lags hlags (hstate hlags)⟩
  · rw [hwatched]
    rw [h.watched] at hlink
    exact hlinked connection hl hlink

theorem unfolds (h : m.Attuned answers w l opened key) {deed : Deed} (hu : Unfolds deed l l')
    (himp : ∀ push result, answers push result → answers' push result) (hle : opened ≤ opened')
    (hdeed : ∀ connection, m.client.line? = some connection →
      m.Attached (Accorded answers key l) opened connection →
      ¬deed.Concerns key m.socket (l.seat key m.socket).stage) :
    m.Attuned answers' w l' opened' key := by
  refine ⟨h.watched, h.sessionKey, h.sound, h.dialing, fun connection hl => ?_⟩
  have hatt := h.attached connection hl
  refine hatt.imp hle fun hlinked => ?_
  have hb := hu.bypasses key m.socket hlinked.inPlace (hdeed connection hl hatt)
  exact (hlinked.bypassed hb).imp fun _ haccord => haccord.mono himp

theorem pushes (h : m.Attuned answers w l opened key) (mutations : List Mutation) :
    Member.Attuned answers (w.take (.push mutations)) l opened key
      { m with client := (m.client.push mutations).1 } := by
  obtain ⟨hb, hs⟩ := Client.becomes_push (Attached.writes h.attached) mutations
  simp only [h.watched] at hb
  refine h.becomes hb rfl h.sessionKey (h.sound.push mutations) (fun hlags => hs ▸ hlags.state)
    fun connection _ hlinked => ?_
  rw [hs]
  exact hlinked.imp fun _ haccord => haccord.push h.sessionKey mutations

theorem appears (h : m.Attuned answers w l opened key) (content : Content) :
    Member.Attuned answers (if m.client.state = .connected then w.take .presence else w) l opened key
      { m with client := (m.client.setPresence content).1 } := by
  obtain ⟨hb, hs⟩ := Client.becomes_setPresence (Attached.writes h.attached) content
  simp only [h.watched] at hb
  have hdraft : (if m.client.state = .connected then w.draft.allot.1 else w.draft) =
      (if m.client.state = .connected then w.take .presence else w).draft := by split <;> rfl
  refine h.becomes hb hdraft ?_ ?_ (fun hlags => hs ▸ hlags.state) fun connection _ hlinked => ?_
  · split <;> exact h.sessionKey
  · split
    · exact h.sound.allot
    · exact h.sound
  · rw [hs, ← hdraft]
    exact hlinked.imp fun _ haccord => haccord.publish h.sessionKey content

theorem pings (h : m.Attuned answers w l opened key) :
    Member.Attuned answers w l opened key { m with client := m.client.ping.1 } := by
  obtain ⟨hb, hs⟩ := Client.becomes_send (Attached.writes h.attached) .ping
  refine h.becomes hb h.watched h.sessionKey h.sound (fun hlags => hs ▸ hlags.state)
    fun connection _ hlinked => ?_
  change Accorded _ _ _ _ (m.client.send .ping).1.state _ _ _
  rw [hs]
  exact hlinked.imp fun _ haccord => haccord.ping

theorem losesTouch (h : m.Attuned answers w l opened key) (i : Nat) :
    Member.Attuned answers w l opened key { m with client := m.client.readEnd i } := by
  obtain ⟨hb, hs⟩ := m.client.becomes_readEnd i
  refine h.becomes hb h.watched h.sessionKey h.sound (fun hlags => ?_) fun connection _ hlinked => ?_
  · exact hs.elim (fun hs => hs ▸ hlags.state) id
  · obtain hs | hs := hs
    · rw [hs]
      exact hlinked
    · exact hlinked.imp fun _ haccord => haccord.idle hs

theorem reads (h : m.Attuned answers w l opened key)
    (hanswers : ∀ push result, answers push result → result.Answers push) :
    (m.reads l).Attuned answers
      ((m.incoming? l).elim w fun incoming => w.take (.receive incoming.2.2)) l opened key := by
  rw [Member.reads]
  cases hincoming : m.incoming? l with
  | none => exact h
  | some incoming =>
    obtain ⟨i, connection, msg⟩ := incoming
    obtain ⟨hlink, hmsg⟩ := incoming?_eq_some key hincoming
    obtain ⟨hopen, hi, hc⟩ := link?_eq_some key hlink
    have hl : m.client.line? = some connection := Client.line?_eq_some.2 ⟨i, hi, hc⟩
    obtain ⟨hb, hs⟩ := Client.becomes_fold (Attached.writes h.attached) hi connection msg
    simp only [h.watched] at hb
    have hstate : (∀ accepted, msg ≠ .connected accepted) →
        (m.client.fold i connection msg).state = m.client.state := fun hno =>
      hs.elim id fun h => h.1.elim fun accepted he => absurd he (hno accepted)
    have hdraft : (w.draft.fold msg).draft = (w.take (.receive msg)).draft :=
      (w.draft_take (.receive msg)).symm
    have hread := fun outgoing (haccord : Accord answers key (l.seat key m.socket) m.client.state
      w.draft m.read outgoing) => haccord.reads hanswers h.sound h.sessionKey hmsg hstate
    have haccord := ((h.attached connection hl).linked.accord hopen)
    rw [h.watched] at haccord
    change Member.Attuned answers (w.take (.receive msg)) l opened key _
    refine h.becomes hb hdraft ?_ (hread _ haccord).2 (fun hlags => ?_)
      fun connection _ hlinked => ?_
    · rw [← hdraft]
      exact (w.draft.keeps_fold msg).sessionKey.trans h.sessionKey
    · -- The connection is older than the one that the client waits for.
      obtain hs | ⟨-, hgeneration⟩ := hs
      · exact hs ▸ hlags.state
      · exact absurd hgeneration (Nat.ne_of_lt (hlags.generation connection hl))
    · rw [← hdraft]
      exact hlinked.imp fun _ haccord => (hread _ haccord).1

theorem dials (h : m.Attuned answers w l opened key) : m.dials.Attuned answers w l opened key := by
  refine ⟨h.watched, h.sessionKey, h.sound, fun request hr => ?_, fun connection hl => ?_⟩
  · obtain rfl := Option.some.inj hr
    refine ⟨(congrArg Draft.sessionKey h.watched).trans h.sessionKey, nofun, fun connection hl => ?_⟩
    exact Nat.lt_succ_of_le (h.attached connection hl).generation
  · obtain ⟨hwrites, hle, hopened, hlinked⟩ := h.attached connection hl
    exact ⟨hwrites, Nat.le_succ_of_le hle, hopened,
      hlinked.imp fun _ haccord => haccord.idle nofun⟩

theorem getsNowhere (h : m.Attuned answers w l opened key) :
    m.getsNowhere.Attuned answers w l opened key := by
  rw [Member.getsNowhere]
  split
  · refine ⟨h.watched, h.sessionKey, h.sound, fun request hr => ?_, fun connection hl => ?_⟩
    · cases hr
    · obtain ⟨hwrites, hle, hopened, hlinked⟩ := h.attached connection hl
      exact ⟨hwrites, hle, hopened, hlinked.imp fun _ haccord => haccord.idle fun hs => by cases hs⟩
  · exact h

theorem hangsUp (h : m.Attuned answers w l opened key) : m.hangsUp.Attuned answers w l opened key :=
  ⟨h.watched, h.sessionKey, h.sound, nofun, nofun⟩

theorem getsThrough (h : m.Attuned answers w l opened key) {request : ConnectRequest}
    (hr : m.dialing = some request) (hin : l'.InPlace key opened)
    (hseat : l'.seat key opened = ⟨[], false, some .waiting⟩) :
    (m.getsThrough request opened).Attuned answers w l' (opened + 1) key := by
  obtain ⟨hrequest, hlags⟩ := h.dialing request hr
  refine ⟨h.watched, h.sessionKey, h.sound, nofun, fun connection hl => ?_⟩
  obtain rfl := Option.some.inj ((m.client.line?_connectMade request).symm.trans hl)
  refine ⟨rfl, Nat.le_refl _, Nat.lt_succ_self _, hin, fun _ => congrArg Seat.closed hseat,
    fun _ => ?_⟩
  change Accord _ key (l'.seat key opened) _ _ 0 _
  rw [hseat]
  exact .waiting rfl (Nat.zero_le _) nofun hrequest rfl nofun hlags.state

theorem heard [Host σ] (h : m.Attuned answers w l opened key) {i : Nat} {msg : ClientMessage}
    (hout : m.outgoing? l = some (i, msg)) {now : Nat} (hl' : l.heed key msg now = l')
    (himp : ∀ push result, answers push result → answers' push result)
    (hanswers : ∀ push result, msg = .push push → (l.receivePush key push now).2 = .ok result →
      answers' push result) :
    Member.Attuned answers' w l' opened key { m with client := (m.client.write i).1 } := by
  obtain ⟨connection, rest, hlink, hrest⟩ := outgoing?_eq_some hout
  obtain ⟨hopen, hi, hc⟩ := link?_eq_some key hlink
  have hl : m.client.line? = some connection := Client.line?_eq_some.2 ⟨i, hi, hc⟩
  obtain ⟨hb, hs⟩ := Client.becomes_write (Attached.writes h.attached) hi hc hrest
  refine h.becomes hb h.watched h.sessionKey h.sound (fun hlags => hs ▸ hlags.state)
    fun connection' hline hlinked => ?_
  obtain rfl := Option.some.inj (hl.symm.trans hline)
  rw [hrest] at hlinked
  rw [hs, hrest]
  have hlinked := hlinked.imp fun _ haccord => haccord.mono himp
  exact hlinked.heard hopen now hl' hanswers

end Member.Attuned

theorem LiveRoom.concerns_ofMessage {k : String} {msg : ClientMessage} {socket : SocketId}
    {stage : Option Stage} (h : (Deed.ofMessage k msg).Concerns key socket stage) :
    k = key ∧ stage ≠ none := by
  cases msg with
  | connect request => exact ⟨h.1, fun hnone => nomatch hnone.symm.trans h.2⟩
  | push push => exact h
  | ping => exact h.elim

namespace Gathering

variable {ledger ledger' : String → Push → PushResult → Prop} {watch watch' : String → Watch}
  {g : Gathering σ}

/-- All members are in tune with their sessions. The ledger says which pushes under which keys the
room has answered. -/
structure Attuned (ledger : String → Push → PushResult → Prop) (watch : String → Watch)
    (g : Gathering σ) : Prop where
  placed : g.live.room.Placed
  fresh : g.live.Fresh g.opened
  answers : ∀ key push result, ledger key push result → result.Answers push
  absent : ∀ key, g.members.get? key = none → watch key = ⟨.start key, Table.empty⟩
  members : ∀ key m, g.members.get? key = some m →
    m.Attuned (ledger key) (watch key) g.live g.opened key

theorem attuned_start {room : Room} (hplaced : room.Placed) (h : ∀ key, room.session? key = none)
    (host : σ) :
    (start room host).Attuned (fun _ _ _ => False) fun key => ⟨.start key, Table.empty⟩ :=
  ⟨hplaced, fresh_start h host 0, nofun, fun _ _ => rfl, nofun⟩

theorem not_concerns_of_admits {operation : LiveRoom.Operation} (h : g.admits operation = true)
    (hm : g.members.get? key = some m) {connection : Connection}
    (hl : m.client.line? = some connection)
    (hopen : (g.live.seat key m.socket).stage ≠ none → (g.live.seat key m.socket).closed = false) :
    ¬operation.deed.Concerns key m.socket (g.live.seat key m.socket).stage := by
  have hsilent : ∀ k, ((g.members.get? k).bind fun m => m.link? g.live).isNone = true →
      ¬(k = key ∧ (g.live.seat key m.socket).stage ≠ none) := by
    rintro k hnone ⟨rfl, hstage⟩
    obtain ⟨i, hi, hc⟩ := Client.line?_eq_some.1 hl
    have hnot : m.socket ∉ g.live.host.closed := of_decide_eq_false (hopen hstage)
    simp [hm, Member.link?, hnot, hi, hc] at hnone
  cases operation with
  | openSocket k socket info => cases h
  | receive k frame =>
    intro hconcerns
    rw [LiveRoom.Operation.deed] at hconcerns
    cases hd : (ClientMessage.decode frame).toOption with
    | none => exact (hd ▸ hconcerns).elim
    | some msg => exact hsilent k h (concerns_ofMessage (hd ▸ hconcerns))
  | connect k request =>
    intro (hconcerns : (Deed.ofMessage k (.connect request)).Concerns _ _ _)
    exact hsilent k h (concerns_ofMessage hconcerns)
  | push k push =>
    intro (hconcerns : (Deed.ofMessage k (.push push)).Concerns _ _ _)
    exact hsilent k h (concerns_ofMessage hconcerns)
  | socketClosed k socket => exact id
  | tick => exact id
  | kick k => exact id
  | takeEvents => exact id

theorem deed_ne_opens_of_admits {operation : LiveRoom.Operation} (h : g.admits operation = true)
    (k : String) (t : SocketId) : operation.deed ≠ .opens k t := by
  cases operation with
  | openSocket _ _ _ => cases h
  | receive key frame =>
    rw [LiveRoom.Operation.deed]
    cases (ClientMessage.decode frame).toOption with
    | none => intro hd; cases hd
    | some msg => cases msg <;> intro hd <;> cases hd
  | _ => intro hd; cases hd

namespace Attuned

theorem congr (h : g.Attuned ledger watch)
    (hledger : ∀ key push result, ledger key push result ↔ ledger' key push result)
    (hwatch : ∀ key, watch key = watch' key) : g.Attuned ledger' watch' := by
  obtain rfl : ledger = ledger' := by
    funext key push result
    exact propext (hledger key push result)
  obtain rfl : watch = watch' := funext hwatch
  exact h

theorem modify (h : g.Attuned ledger watch) {f : Member → Member}
    (hothers : ∀ k, k ≠ key → watch' k = watch k)
    (habsent : g.members.get? key = none → watch' key = watch key)
    (hf : ∀ m, g.members.get? key = some m →
      m.Attuned (ledger key) (watch key) g.live g.opened key →
      (f m).Attuned (ledger key) (watch' key) g.live g.opened key) :
    (g.modify key f).Attuned ledger watch' := by
  refine ⟨h.placed, h.fresh, h.answers, fun k hk => ?_, fun k m hm => ?_⟩
  · have hnone : g.members.get? k = none := get?_of_modify_eq_none hk
    rw [← h.absent k hnone]
    by_cases he : k = key
    · subst he
      exact habsent hnone
    · exact hothers k he
  · obtain ⟨rfl, old, hold, rfl⟩ | ⟨hk, hm⟩ := get?_modify_cases hm
    · exact hf old hold (h.members k old hold)
    · rw [hothers k hk]
      exact h.members k m hm

theorem unfolds (h : g.Attuned ledger watch) {deed : Deed} (hu : Unfolds deed g.live l') {n : Nat}
    (hle : g.opened ≤ n) (hopens : ∀ k t, deed = .opens k t → t < n) {members : Table Member}
    (himp : ∀ key push result, ledger key push result → ledger' key push result)
    (hanswers : ∀ key push result, ledger' key push result → result.Answers push)
    (habsent : ∀ k, members.get? k = none → g.members.get? k = none)
    (hmembers : ∀ k m, members.get? k = some m →
      (g.members.get? k = some m ∧ ∀ connection, m.client.line? = some connection →
          m.Attached (Accorded (ledger k) k g.live) g.opened connection →
          ¬deed.Concerns k m.socket (g.live.seat k m.socket).stage) ∨
        m.Attuned (ledger' k) (watch k) l' n k) :
    Attuned ledger' watch ⟨l', members, n⟩ := by
  refine ⟨hu.placed, h.fresh.unfolds h.placed hu hle hopens, hanswers,
    fun k hk => h.absent k (habsent k hk), fun k m hm => ?_⟩
  obtain ⟨hm, hdeed⟩ | hm := hmembers k m hm
  · exact (h.members k m hm).unfolds hu (himp k) hle hdeed
  · exact hm

theorem inner (h : g.Attuned ledger watch) (hu : Unfolds .inner g.live l') :
    Attuned ledger watch { g with live := l' } :=
  h.unfolds hu (Nat.le_refl _) nofun (fun _ _ _ => id) h.answers (fun _ => id)
    fun _ _ hm => .inl ⟨hm, fun _ _ _ => id⟩

theorem joins (h : g.Attuned ledger watch) (hnone : g.members.get? key = none)
    (url documentId : String) (schema : Schema) :
    Attuned ledger watch { g with
      members := g.members.insert key ⟨.new url documentId key schema, none, 0, 0⟩ } := by
  refine ⟨h.placed, h.fresh, h.answers, fun k hk => ?_, fun k m hm => ?_⟩
  · rw [get?_insert] at hk
    split at hk
    · cases hk
    · exact h.absent k hk
  · rw [get?_insert] at hm
    split at hm
    · rename_i hk
      subst hk
      obtain rfl := Option.some.inj hm
      rw [h.absent k hnone]
      exact ⟨rfl, rfl, Watch.Sound.start k, nofun, nofun⟩
    · exact h.members k m hm

variable [Host σ]

theorem opens (h : g.Attuned ledger watch) (k : String) (info : Content) (now : Nat)
    {members : Table Member} (habsent : ∀ k, members.get? k = none → g.members.get? k = none)
    (hmembers : ∀ k' m, members.get? k' = some m → g.members.get? k' = some m ∨
      m.Attuned (ledger k') (watch k') (g.live.openSocket k g.opened info now) (g.opened + 1) k') :
    Attuned ledger watch ⟨g.live.openSocket k g.opened info now, members, g.opened + 1⟩ := by
  obtain ⟨ms, he, -⟩ := g.live.brief_openSocket now k g.opened info
  refine h.unfolds (he.unfolds h.placed) (Nat.le_succ _) (fun k t hdeed => ?_) (fun _ _ _ => id)
    h.answers habsent fun k' m hm => (hmembers k' m hm).imp_left fun hm => ⟨hm, ?_⟩
  · obtain ⟨-, rfl⟩ := Deed.opens.inj hdeed
    exact Nat.lt_succ_self _
  · exact fun _ _ hatt hsocket => Nat.lt_irrefl _ (hsocket ▸ hatt.opened)

theorem heard (h : g.Attuned ledger watch) (hm : g.members.get? key = some m) {i : Nat}
    {msg : ClientMessage} (hout : m.outgoing? g.live = some (i, msg)) (now : Nat) :
    Attuned (fun k push result => ledger k push result ∨
        g.Answers now (.within (.isHeard key)) k push result) watch
      { g.setClient key fun c => (c.write i).1 with live := g.live.heed key msg now } := by
  obtain ⟨ms, he, -⟩ := g.live.brief_heed now key msg
  refine h.unfolds (he.unfolds h.placed) (Nat.le_refl _) (fun k t hdeed => ?_) (fun _ _ _ => .inl)
    (fun k push result hl => ?_) (fun _ => get?_of_modify_eq_none) fun k m' hm' => ?_
  · cases msg <;> cases hdeed
  · exact hl.elim (h.answers k push result) fun ha => answers_of_receivePush h.placed ha.answer
  · obtain ⟨rfl, old, hold, rfl⟩ | ⟨hk, hm'⟩ := get?_modify_cases hm'
    · obtain rfl := Option.some.inj (hm.symm.trans hold)
      refine .inr ((h.members k m hm).heard hout rfl (fun _ _ => .inl) fun push result he ha => ?_)
      exact .inr ⟨rfl, by rw [hm, Option.bind_some, hout, he]; rfl, ha⟩
    · exact .inl ⟨hm', fun _ _ _ hconcerns => hk (concerns_ofMessage hconcerns).1.symm⟩

theorem getsThrough (h : g.Attuned ledger watch) (hm : g.members.get? key = some m)
    {request : ConnectRequest} (hr : m.dialing = some request) (info : Content) (now : Nat) :
    Attuned ledger watch ⟨g.live.openSocket key g.opened info now,
      g.members.modify key fun m => m.getsThrough request g.opened, g.opened + 1⟩ := by
  obtain ⟨hfree, hseat⟩ := h.fresh g.opened (Nat.le_refl _)
  obtain ⟨hin, hwaiting⟩ := hfree.openSocket_inPlace h.placed info now rfl
  rw [hseat key] at hwaiting
  refine h.opens key info now (fun _ => get?_of_modify_eq_none) fun k m' hm' => ?_
  obtain ⟨rfl, old, hold, rfl⟩ | ⟨-, hm'⟩ := get?_modify_cases hm'
  · obtain rfl := Option.some.inj (hm.symm.trans hold)
    exact .inr ((h.members k m hm).getsThrough hr hin hwaiting)
  · exact .inl hm'

theorem outside (h : g.Attuned ledger watch) (now : Nat) (operation : LiveRoom.Operation) :
    (g.undergo now (.outside operation)).Attuned ledger watch := by
  rw [Gathering.undergo]
  split
  · rename_i hadmits
    obtain ⟨ms, he, -⟩ := g.live.episode_perform ⟨now, operation⟩
    refine h.unfolds (he.unfolds h.placed) (Nat.le_refl _)
      (fun k t hdeed => absurd hdeed (deed_ne_opens_of_admits hadmits k t)) (fun _ _ _ => id)
      h.answers (fun _ => id) fun k m hm => .inl ⟨hm, fun connection hl hatt => ?_⟩
    exact not_concerns_of_admits hadmits hm hl hatt.linked.open_of_stage
  · exact h

/-- Whatever happens in a gathering leaves everyone in tune. Where the room hears nobody, it answers
no push. -/
theorem step (h : g.Attuned ledger watch) (now : Nat) {happening : Happening σ}
    (hunheard : ∀ key, happening ≠ .isHeard key) :
    (g.step now happening).Attuned ledger fun key =>
      (g.input? key (.within happening)).elim (watch key) (watch key).take := by
  cases happening with
  | joins key url documentId schema =>
    rw [Gathering.step]
    split
    · exact h
    · rename_i hcontains
      exact h.joins (Option.not_isSome_iff_eq_none.1 hcontains) url documentId schema
  | pushes key mutations =>
    refine h.modify (fun k hk => ?_) (fun hnone => ?_) fun m hm hatt => ?_
    · simp [input?, Ne.symm hk]
    · simp [input?, Table.contains, hnone]
    · have hinput : g.input? key (.within (.pushes key mutations)) = some (.push mutations) := by
        simp [input?, Table.contains, hm]
      rw [hinput]
      exact hatt.pushes mutations
  | appears key content =>
    refine h.modify (fun k hk => ?_) (fun hnone => ?_) fun m hm hatt => ?_
    · simp [input?, Ne.symm hk]
    · simp [input?, hnone]
    · have hinput : g.input? key (.within (.appears key content)) =
          if m.client.state = .connected then some .presence else none := by
        simp [input?, hm]
      rw [hinput, apply_ite (Option.elim · (watch key) (watch key).take)]
      exact hatt.appears content
  | reads key =>
    refine h.modify (fun k hk => ?_) (fun hnone => ?_) fun m hm hatt => ?_
    · simp [input?, Ne.symm hk]
    · simp [input?, hnone]
    · have hinput : g.input? key (.within (.reads key)) =
          (m.incoming? g.live).map fun incoming => .receive incoming.2.2 := by
        simp [input?, hm]
      have hreads := hatt.reads (h.answers key)
      rw [hinput]
      cases hincoming : m.incoming? g.live <;> rwa [hincoming] at hreads
  | pings key => exact h.modify (fun _ _ => rfl) (fun _ => rfl) fun m _ hatt => hatt.pings
  | dials key => exact h.modify (fun _ _ => rfl) (fun _ => rfl) fun m _ hatt => hatt.dials
  | getsNowhere key => exact h.modify (fun _ _ => rfl) (fun _ => rfl) fun m _ hatt => hatt.getsNowhere
  | hangsUp key => exact h.modify (fun _ _ => rfl) (fun _ => rfl) fun m _ hatt => hatt.hangsUp
  | losesTouch key i =>
    exact h.modify (fun _ _ => rfl) (fun _ => rfl) fun m _ hatt => hatt.losesTouch i
  | getsThrough key info =>
    rw [Gathering.step]
    split
    · exact h
    · rename_i request hr
      obtain ⟨m, hm, hr⟩ := Option.bind_eq_some_iff.1 hr
      exact h.getsThrough hm hr info now
  | opensInVain key info => exact h.opens key info now (fun _ => id) fun _ _ => .inl
  | isHeard key => exact absurd rfl (hunheard key)
  | closes key socket =>
    obtain ⟨ms, he, -⟩ := g.live.brief_socketClosed now key .inner socket
    exact h.inner (he.unfolds h.placed)
  | ticks =>
    obtain ⟨ms, hms, -⟩ := g.live.turns_tick now
    exact h.inner ((Episode.undone hms).unfolds h.placed)
  | kicks key =>
    obtain ⟨ms, he, -⟩ := g.live.brief_kick now key .inner
    exact h.inner (he.unfolds h.placed)
  | takesEvents =>
    obtain ⟨ms, he, -⟩ := g.live.brief_takeEvents now .inner
    exact h.inner (he.unfolds h.placed)
  | goesOn host => exact h.inner (unfolds_of_same h.placed rfl rfl rfl)

theorem isHeard (h : g.Attuned ledger watch) (now : Nat) (key : String) :
    (g.step now (.isHeard key)).Attuned (fun k push result => ledger k push result ∨
      g.Answers now (.within (.isHeard key)) k push result) watch := by
  rw [Gathering.step]
  split
  · rename_i hsilent
    refine h.congr (fun k push result => (or_iff_left fun ha => ?_).symm) fun _ => rfl
    have hsaid := ha.said
    cases ha.heard
    rw [hsilent] at hsaid
    cases hsaid
  · rename_i i msg hout
    obtain ⟨m, hm, hout⟩ := Option.bind_eq_some_iff.1 hout
    exact h.heard hm hout now

theorem undergo (h : g.Attuned ledger watch) (now : Nat) (incident : Incident σ) :
    (g.undergo now incident).Attuned
      (fun key push result => ledger key push result ∨ g.Answers now incident key push result)
      fun key => (g.input? key incident).elim (watch key) (watch key).take := by
  by_cases hheard : ∃ key, incident = .within (.isHeard key)
  · obtain ⟨key, rfl⟩ := hheard
    exact h.isHeard now key
  · have hunheard : ∀ key push result, ledger key push result ↔
        ledger key push result ∨ g.Answers now incident key push result := fun key push result =>
      (or_iff_left fun ha => hheard ⟨key, ha.heard⟩).symm
    refine congr ?_ hunheard fun _ => rfl
    cases incident with
    | outside operation => exact h.outside now operation
    | within happening => exact h.step now fun key he => hheard ⟨key, he ▸ rfl⟩

theorem undergoAll (h : g.Attuned ledger watch) (incidents : List (Nat × Incident σ)) :
    (g.undergoAll incidents).Attuned
      (fun key push result => ledger key push result ∨ g.Answered key push result incidents)
      fun key => (g.inputs key incidents).foldl Watch.take (watch key) := by
  induction incidents generalizing g ledger watch with
  | nil => exact h.congr (fun _ _ _ => (or_iff_left id).symm) fun _ => rfl
  | cons incident rest ih =>
    refine (ih (h.undergo incident.1 incident.2)).congr (fun _ _ _ => or_assoc) fun key => ?_
    rw [inputs, List.foldl_append]
    cases g.input? key incident.2 <;> rfl

omit [Host σ] in
/-- A result that a member is about to fold was given to its oldest unsettled push. -/
theorem settles (h : g.Attuned ledger watch) {d : Draft} {before after : List DataMessage}
    {result : PushResult}
    (hread : g.folded? (.reads key) = some (d, before ++ .pushResult result :: after)) :
    d = (watch key).draft ∧ ∃ made pushes unsent, ledger key made result ∧
      (before.foldl Watch.data (watch key)).Sound ∧
      Owes (before.foldl Watch.data (watch key)).draft (made :: pushes) unsent := by
  obtain ⟨m, hm, hread⟩ := Option.bind_eq_some_iff.1 hread
  obtain ⟨⟨i, connection, msg⟩, hincoming, hread⟩ := Option.bind_eq_some_iff.1 hread
  have hmember := h.members key m hm
  cases msg with
  | data batch =>
    obtain ⟨rfl, rfl⟩ := Prod.mk.inj (Option.some.inj hread)
    obtain ⟨hlink, hmsg⟩ := Member.incoming?_eq_some key hincoming
    obtain ⟨hopen, hi, hc⟩ := Member.link?_eq_some key hlink
    have hl : m.client.line? = some connection := Client.line?_eq_some.2 ⟨i, hi, hc⟩
    have haccord := (hmember.attached connection hl).linked.accord hopen
    rw [hmember.watched] at haccord
    exact ⟨hmember.watched, haccord.settles (h.answers key) hmember.sound hmsg⟩
  | _ => cases hread

end Attuned

end Gathering

end RoomSync
