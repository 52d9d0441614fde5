import RoomSync.Proofs.Gathering.Member

namespace RoomSync

open Table Room LiveRoom

/-- A gathering after the room has gone through some moments. -/
structure Gathering.Sound {σ : Type} (past : List Moment) (g : Gathering σ) : Prop where
  chronicle : g.live.room.Chronicle past
  fresh : g.live.Fresh g.opened
  members : ∀ key m, g.members.get? key = some m → m.Sound past g.live g.opened key

namespace Gathering

variable {σ : Type} {g : Gathering σ} {past past' : List Moment} {l' : LiveRoom (Journal σ)}
  {key : String}

theorem sound_start {room : Room} (h : Founded room) (host : σ) :
    (start room host).Sound [room.moment] :=
  ⟨h.chronicle, fresh_start h.session?_eq_none host 0, nofun⟩

namespace Sound

theorem modify (h : g.Sound past) {f : Member → Member}
    (hf : ∀ m, g.members.get? key = some m → m.Sound past g.live g.opened key →
      (f m).Sound past g.live g.opened key) : (g.modify key f).Sound past := by
  refine ⟨h.chronicle, h.fresh, fun k m hm => ?_⟩
  obtain ⟨rfl, old, hold, rfl⟩ | ⟨-, hm⟩ := get?_modify_cases hm
  · exact hf old hold (h.members k old hold)
  · exact h.members k m hm

theorem proceeds (h : g.Sound past) {deed : Deed} (hp : Proceeds past past' deed g.live l') {n : Nat}
    (hle : g.opened ≤ n) (hopens : ∀ k t, deed = .opens k t → t < n) {members : Table Member}
    (hmembers : ∀ k m, members.get? k = some m →
      g.members.get? k = some m ∧
          (m.socket < g.opened → ¬deed.Concerns k m.socket (g.live.seat k m.socket).stage) ∨
        m.Sound past' l' n k) :
    Sound past' ⟨l', members, n⟩ := by
  refine ⟨hp.chronicle, h.fresh.unfolds h.chronicle.sound.placed hp.toUnfolds hle hopens,
    fun k m hm => ?_⟩
  obtain ⟨hm, hdeed⟩ | hm := hmembers k m hm
  · exact (h.members k m hm).proceeds hp hle hdeed
  · exact hm

theorem inner (h : g.Sound past) (hp : Proceeds past past' .inner g.live l') :
    Sound past' { g with live := l' } :=
  h.proceeds hp (Nat.le_refl _) nofun fun _ _ hm => .inl ⟨hm, fun _ => id⟩

theorem joins (h : g.Sound past) (key url documentId : String) (schema : Schema) :
    Sound past { g with
      members := g.members.insert key ⟨.new url documentId key schema, none, 0, 0⟩ } := by
  refine ⟨h.chronicle, h.fresh, fun k m hm => ?_⟩
  rw [get?_insert] at hm
  split at hm
  · rename_i hk
    obtain rfl := Option.some.inj hm
    exact ⟨hk.symm, Draft.numbered_start key, nofun, nofun, nofun⟩
  · exact h.members k m hm

variable [Host σ]

theorem getsThrough (h : g.Sound past) {m : Member} (hm : g.members.get? key = some m)
    {request : ConnectRequest} (hr : m.dialing = some request) (info : Content) (now : Nat) :
    ∃ past', Sound past' ⟨g.live.openSocket key g.opened info now,
      g.members.modify key fun m => m.getsThrough request g.opened, g.opened + 1⟩ := by
  obtain ⟨hfree, hseat⟩ := h.fresh g.opened (Nat.le_refl _)
  obtain ⟨hatt, hwaiting⟩ := hfree.openSocket h.chronicle info now rfl
  rw [hseat key] at hwaiting
  have hp := (g.live.brief_openSocket now key g.opened info).proceeds h.chronicle
  refine ⟨_, h.proceeds hp (Nat.le_succ _) (fun k t he => ?_) fun k m' hm' => ?_⟩
  · obtain ⟨-, rfl⟩ := Deed.opens.inj he
    exact Nat.lt_succ_self _
  · obtain ⟨rfl, old, hold, rfl⟩ | ⟨-, hm'⟩ := get?_modify_cases hm'
    · obtain rfl := Option.some.inj (hm.symm.trans hold)
      exact .inr ((h.members k m hm).getsThrough hr hp.sub hatt hwaiting)
    · exact .inl ⟨hm', fun hlt he => Nat.lt_irrefl _ (he ▸ hlt)⟩

theorem heard (h : g.Sound past) {m : Member} (hm : g.members.get? key = some m) {i : Nat}
    {msg : ClientMessage} (hout : m.outgoing? g.live = some (i, msg)) (now : Nat) :
    ∃ past', Sound past' { g.setClient key fun c => (c.write i).1 with
      live := g.live.heed key msg now } := by
  have hp := (g.live.brief_heed now key msg).proceeds h.chronicle
  refine ⟨_, h.proceeds hp (Nat.le_refl _) (fun k t he => ?_) fun k m' hm' => ?_⟩
  · cases msg <;> cases he
  · obtain ⟨rfl, old, hold, rfl⟩ | ⟨hk, hm'⟩ := get?_modify_cases hm'
    · obtain rfl := Option.some.inj (hm.symm.trans hold)
      exact .inr ((h.members k m hm).heard hout rfl)
    · refine .inl ⟨hm', fun _ hconcerns => hk ?_⟩
      cases msg with
      | connect request => exact hconcerns.1.symm
      | push push => exact hconcerns.1.symm
      | ping => exact hconcerns.elim

/-- Everything that can happen leaves everyone in touch with the room. -/
theorem step (h : g.Sound past) (now : Nat) {happening : Happening σ}
    (hu : ∀ folded ∈ g.folded? happening, folded.1.Untangled folded.2) :
    ∃ past', (g.step now happening).Sound past' := by
  cases happening with
  | joins key url documentId schema =>
    rw [Gathering.step]
    split
    · exact ⟨past, h⟩
    · exact ⟨past, h.joins key url documentId schema⟩
  | pushes key mutations => exact ⟨past, h.modify fun m _ hm => hm.pushes mutations⟩
  | appears key content => exact ⟨past, h.modify fun m _ hm => hm.appears content⟩
  | pings key => exact ⟨past, h.modify fun m _ hm => hm.pings⟩
  | dials key => exact ⟨past, h.modify fun m _ hm => hm.dials⟩
  | getsThrough key info =>
    rw [Gathering.step]
    split
    · exact ⟨past, h⟩
    · rename_i request hr
      obtain ⟨m, hm, hr⟩ := Option.bind_eq_some_iff.1 hr
      exact h.getsThrough hm hr info now
  | getsNowhere key => exact ⟨past, h.modify fun m _ hm => hm.getsNowhere⟩
  | opensInVain key info =>
    have hp := (g.live.brief_openSocket now key g.opened info).proceeds h.chronicle
    refine ⟨_, h.proceeds hp (Nat.le_succ _) (fun k t he => ?_) fun k m hm => .inl ⟨hm, ?_⟩⟩
    · obtain ⟨-, rfl⟩ := Deed.opens.inj he
      exact Nat.lt_succ_self _
    · exact fun hlt he => Nat.lt_irrefl _ (he ▸ hlt)
  | hangsUp key => exact ⟨past, h.modify fun m _ hm => hm.hangsUp⟩
  | reads key =>
    refine ⟨past, h.modify fun m hm hs => hs.reads fun i connection batch hin => ?_⟩
    refine hu (m.client.draft, batch) ?_
    rw [folded?, hm]
    change (m.incoming? g.live).bind _ = _
    rw [hin]
    rfl
  | losesTouch key i => exact ⟨past, h.modify fun m _ hm => hm.losesTouch i⟩
  | isHeard key =>
    rw [Gathering.step]
    split
    · exact ⟨past, h⟩
    · rename_i i msg hout
      obtain ⟨m, hm, hout⟩ := Option.bind_eq_some_iff.1 hout
      exact h.heard hm hout now
  | closes key socket =>
    exact ⟨_, h.inner ((g.live.brief_socketClosed now key .inner socket).proceeds h.chronicle)⟩
  | ticks =>
    obtain ⟨ms, hms, -⟩ := g.live.turns_tick now
    exact ⟨_, h.inner ((Episode.undone hms).proceeds h.chronicle)⟩
  | kicks key => exact ⟨_, h.inner ((g.live.brief_kick now key .inner).proceeds h.chronicle)⟩
  | takesEvents =>
    exact ⟨_, h.inner ((g.live.brief_takeEvents now .inner).proceeds h.chronicle)⟩
  | goesOn host => exact ⟨past, h.inner (proceeds_of_same h.chronicle rfl rfl rfl)⟩

theorem run (h : g.Sound past) {happenings : List (Nat × Happening σ)}
    (hu : g.Untangled happenings) : ∃ past', (g.run happenings).Sound past' := by
  induction happenings generalizing g past with
  | nil => exact ⟨past, h⟩
  | cons happening rest ih =>
    obtain ⟨past', h'⟩ := h.step happening.1 hu.1
    exact ih h' hu.2

end Sound

end Gathering

/-- In a gathering around one room, a member whose session is connected, with nothing on its way in
either direction, nothing held back for it and no push unsettled, shows exactly the documents of the
room and the presence of everyone else. -/
theorem members_converge {σ : Type} [Host σ] {room : Room} (hroom : Founded room) (host : σ)
    {happenings : List (Nat × Happening σ)}
    (hu : (Gathering.start room host).Untangled happenings) {g : Gathering σ}
    (hg : (Gathering.start room host).run happenings = g) {key : String} {m : Member}
    (hm : g.members.get? key = some m) (hq : g.Quiescent key m) {id : RecordId}
    (hid : id ≠ m.client.presenceId) :
    Agrees (m.client.draft.replica.values.get? id)
      ((g.live.room.moment.view m.client.presenceId).get? id) := by
  obtain ⟨past, hsound⟩ := (Gathering.sound_start hroom host).run hu
  rw [hg] at hsound
  obtain ⟨c, hc, hsocket, hheld⟩ := hq.connected
  obtain ⟨s, hs, hstate⟩ := connected?_eq_some.1 hc
  obtain ⟨connection, hl, -⟩ := hq.sent
  have hstage : (g.live.seat key m.socket).stage = some (.connected s.presenceId c.outbox) := by
    rw [LiveRoom.stage_of_connected hs hstate, if_pos hsocket]
  have hlinked := ((hsound.members key m hm).attached connection hl).linked
  have hopen := hlinked.open_of_stage fun he => nomatch he.symm.trans hstage
  have hbased := (hlinked.inTouch hopen).based_of_read hq.read hstage hheld
  have hnone : m.client.draft.lastPending? id = none := by
    rw [Draft.lastPending?, hq.settled]
    rfl
  rw [Moment.get?_view_of_ne _ hid]
  exact hbased.settled id hid hnone

/-- The second member hangs up and writes three notes on its own, one of them in vain. It comes back,
and in the end both have heard of everything. -/
theorem members_converge_after_absence :
    let note (id : RecordId) (content : Content) : List Mutation := [⟨id, .upsert "note" content⟩]
    let happenings : List (Nat × Happening Unit) := [
      (0, .joins "a" "" "notes" Config.notes.schema), (0, .dials "a"), (0, .getsThrough "a" .null),
      (0, .isHeard "a"), (0, .reads "a"), (0, .appears "a" (.object [])), (0, .isHeard "a"),
      (1, .joins "b" "" "notes" Config.notes.schema), (1, .dials "b"), (1, .getsThrough "b" .null),
      (1, .isHeard "b"), (1, .reads "b"), (1, .appears "b" (.object [])), (1, .isHeard "b"),
      (2, .pushes "a" (note "k" (.object []))), (2, .isHeard "a"), (2, .hangsUp "b"),
      (3, .pushes "b" (note "l" (.object []))), (3, .pushes "b" (note "k" .null)),
      (3, .pushes "b" (note "m" (.object []))), (4, .dials "b"), (4, .getsThrough "b" .null),
      (4, .isHeard "b"), (4, .reads "b"), (5, .isHeard "b"), (5, .isHeard "b"), (5, .isHeard "b"),
      (900, .ticks), (901, .reads "b"), (901, .reads "b"), (901, .reads "b")]
    let g := (Gathering.start (.new .notes) ()).run happenings
    ∃ m, g.members.get? "b" = some m ∧
      (∀ id, id ≠ m.client.presenceId → Agrees (m.client.draft.replica.values.get? id)
        ((g.live.room.moment.view m.client.presenceId).get? id)) ∧
      m.client.draft.replica.values.keys = ["k", "l", "m", "presence:a"] := by
  intro note happenings g
  have hu : (Gathering.start (.new .notes) ()).Untangled happenings := by decide +kernel
  have h : ∃ m ∈ g.members.get? "b", g.Quiescent "b" m ∧
      m.client.draft.replica.values.keys = ["k", "l", "m", "presence:a"] := by decide +kernel
  obtain ⟨m, hm, hq, hkeys⟩ := h
  exact ⟨m, hm, fun id hid => members_converge (.new Config.notes_keepsPresence) () hu rfl hm hq hid,
    hkeys⟩

end RoomSync
