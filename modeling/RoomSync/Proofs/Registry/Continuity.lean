import RoomSync.Proofs.Registry.Lifetimes
import RoomSync.Proofs.Registry.Tasks

namespace RoomSync

open Table

variable {σ : Type} [Host σ]

/-- What the next section of a task does to a registry. -/
inductive Task.Does (r : Registry σ) : Task → Registry σ → Prop
  | nothing {t : Task} : (∀ document newcomer?, t ≠ .makes document newcomer?) → Does r t r
  | makes (document : String) (newcomer? : Option Newcomer) :
      Does r (.makes document newcomer?) (r.getOrCreate document).1
  | enrolls (document : String) (id : RoomId) (n : Newcomer) :
      Does r (.enrolls document id n)
        (r.onRoom id fun l => l.openSocket n.key n.socket n.info n.now)
  | retires (document : String) (snapshot : Snapshot) (sweep? : Option Sweep) :
      Does r (.retires document snapshot sweep?)
        { r.save document snapshot with live := r.live.erase document }
  | calls {t : Task} (id : RoomId) {call : LiveRoom.Call} :
      (∀ document newcomer?, t ≠ .makes document newcomer?) → call.OnOpenSockets →
      Does r t (r.onRoom id (·.perform call))

theorem Task.does_proceed (r : Registry σ) (t : Task) : t.Does r (t.proceed r).1 := by
  cases t with
  | finds document newcomer? =>
    rw [proceed]
    split <;> exact .nothing (by simp)
  | makes document newcomer? => exact .makes document newcomer?
  | confirms document id newcomer => exact .nothing (by simp)
  | enrolls document id newcomer => exact .enrolls document id newcomer
  | clears document sweep? =>
    rw [proceed]
    split <;> exact .nothing (by simp)
  | examines document id sweep? =>
    rw [proceed]
    split <;> exact .nothing (by simp)
  | retires document snapshot sweep? => exact .retires document snapshot sweep?
  | surveys now visit => exact .nothing (by simp)
  | ticks now rooms sweep =>
    cases rooms with
    | nil => exact .nothing (by simp)
    | cons entry rest =>
      have hticked := Registry.tickRoom_fst now (r, sweep.events, sweep.emptied) entry
      have hcall : LiveRoom.Call.OnOpenSockets ⟨now, .tick⟩ := by simp [LiveRoom.Call.OnOpenSockets]
      exact hticked.symm ▸ .calls entry.2 (by simp) hcall
  | seeks document key now =>
    rw [proceed]
    split <;> exact .nothing (by simp)
  | evicts id key now =>
    have hkicked := r.onRoom?_fst id fun l => l.kick key now
    have hcall : LiveRoom.Call.OnOpenSockets ⟨now, .kick key⟩ := by simp [LiveRoom.Call.OnOpenSockets]
    have hdoes : (Task.evicts id key now).Does r (r.onRoom id (·.perform ⟨now, .kick key⟩)) :=
      .calls id (by simp) hcall
    exact hkicked.symm ▸ hdoes
  | ended answer => exact .nothing (by simp)
  | dropped => exact .nothing (by simp)

/-- What a task relies on while it keeps the map locked. -/
def Task.Fits (r : Registry σ) : Task → Prop
  | .enrolls document id _ | .examines document id _ => r.live.get? document = some id
  | .retires document snapshot _ => ∃ id room, r.live.get? document = some id ∧
      r.room? id = some room ∧ room.sessions = Table.empty ∧ room.snapshot = snapshot
  | _ => True

/-- Who is to be enrolled by a task in the end, and in which document. -/
def Task.asks : Task → Option (String × Newcomer)
  | .finds document newcomer? | .makes document newcomer? => newcomer?.map (document, ·)
  | .confirms document _ newcomer | .enrolls document _ newcomer => some (document, newcomer)
  | _ => none

def Task.access (t : Task) : Access := if t.wants = .none then t.holds else t.wants

variable {r r' : Registry σ} {latest : Table RoomId} {t u : Task}

omit [Host σ] in
theorem Task.fits_of_holds_none (h : t.holds = .none) : t.Fits r := by
  cases t <;> first | exact trivial | cases h

namespace Task

theorem holds_found (document : String) (id : RoomId) (newcomer? : Option Newcomer) :
    (found document id newcomer?).holds = .none := by
  cases newcomer? <;> rfl

theorem holds_sweeps (sweep : Sweep) : (sweeps sweep).holds = .none := by
  obtain ⟨emptied, events⟩ := sweep
  cases emptied <;> rfl

theorem holds_cleared (gone : Bool) (sweep? : Option Sweep) :
    (cleared gone sweep?).holds = .none := by
  cases sweep? with
  | none => rfl
  | some sweep => exact holds_sweeps sweep

theorem asks_found (document : String) (id : RoomId) (newcomer? : Option Newcomer) :
    (found document id newcomer?).asks = newcomer?.map (document, ·) := by
  cases newcomer? <;> rfl

theorem asks_sweeps (sweep : Sweep) : (sweeps sweep).asks = none := by
  obtain ⟨emptied, events⟩ := sweep
  cases emptied <;> rfl

theorem asks_cleared (gone : Bool) (sweep? : Option Sweep) : (cleared gone sweep?).asks = none := by
  cases sweep? with
  | none => rfl
  | some sweep => exact asks_sweeps sweep

theorem asks_proceed {asked : String × Newcomer} (h : (t.proceed r).2.asks = some asked) :
    t.asks = some asked := by
  cases t with
  | finds document newcomer? =>
    rw [proceed] at h
    split at h
    · rwa [asks_found] at h
    · exact h
  | makes document newcomer? => rwa [proceed, asks_found] at h
  | confirms document id newcomer =>
    rw [proceed] at h
    dsimp only at h
    split at h <;> exact h
  | clears document sweep? =>
    rw [proceed] at h
    split at h
    · cases h
    · cases (asks_cleared ..).symm.trans h
  | examines document id sweep? =>
    rw [proceed] at h
    split at h
    · dsimp only at h
      split at h
      · cases h
      · cases (asks_cleared ..).symm.trans h
    · cases (asks_cleared ..).symm.trans h
  | retires document snapshot sweep? => cases (asks_cleared ..).symm.trans h
  | ticks now rooms sweep =>
    cases rooms with
    | nil => cases (asks_sweeps sweep).symm.trans h
    | cons entry rest => cases h
  | seeks document key now =>
    rw [proceed] at h
    split at h <;> cases h
  | enrolls | surveys | evicts | ended | dropped => cases h

theorem fits_proceed (h : t.Fits r) :
    ((t.proceed r).2.holds = .none ∨ (t.proceed r).2.holds = t.access) ∧
      (t.proceed r).2.Fits (t.proceed r).1 := by
  have hidle : ∀ {r' : Registry σ} {u : Task}, u.holds = .none →
      (u.holds = .none ∨ u.holds = t.access) ∧ u.Fits r' :=
    fun hu => ⟨.inl hu, fits_of_holds_none hu⟩
  cases t with
  | finds document newcomer? =>
    rw [proceed]
    split
    · exact hidle (holds_found ..)
    · exact hidle rfl
  | makes document newcomer? => exact hidle (holds_found ..)
  | confirms document id newcomer =>
    rw [proceed]
    dsimp only
    split
    · rename_i hlive
      exact ⟨.inr rfl, hlive⟩
    · exact hidle rfl
  | enrolls document id newcomer => exact hidle rfl
  | clears document sweep? =>
    rw [proceed]
    split
    · rename_i hlive
      exact ⟨.inr rfl, hlive⟩
    · exact hidle (holds_cleared ..)
  | examines document id sweep? =>
    rw [proceed]
    split
    · rename_i room hroom
      by_cases hempty : room.isEmpty = true
      · rw [if_pos hempty]
        exact ⟨.inr rfl, id, room, h, hroom, isEmpty_iff.1 hempty, rfl⟩
      · rw [if_neg hempty]
        exact hidle (holds_cleared ..)
    · exact hidle (holds_cleared ..)
  | retires document snapshot sweep? => exact hidle (holds_cleared ..)
  | surveys now visit => exact hidle rfl
  | ticks now rooms sweep =>
    cases rooms with
    | nil => exact hidle (holds_sweeps sweep)
    | cons entry rest => exact hidle rfl
  | seeks document key now =>
    rw [proceed]
    split <;> exact hidle rfl
  | evicts id key now => exact hidle rfl
  | ended answer => exact hidle rfl
  | dropped => exact hidle rfl

theorem Fits.perform (h : t.Fits r) (id : RoomId) {call : LiveRoom.Call}
    (hcall : call.OnOpenSockets) : t.Fits (r.onRoom id (·.perform call)) := by
  cases t with
  | enrolls document id' newcomer =>
    exact (congrArg (get? · document) (r.live_onRoom id _)).trans h
  | examines document id' sweep? =>
    exact (congrArg (get? · document) (r.live_onRoom id _)).trans h
  | retires document snapshot sweep? =>
    obtain ⟨id', room, hlive, hroom, hempty, rfl⟩ := h
    have hlive' : (r.onRoom id (·.perform call)).live.get? document = some id' := by
      rwa [Registry.live_onRoom]
    by_cases hid : id' = id
    · subst hid
      have hd := LiveRoom.deserted_perform (l := ⟨room, r.host⟩) hcall hempty
      exact ⟨id', _, hlive', Registry.room?_onRoom_self hroom, hd.sessions,
        congrArg Store.snapshot hd.store⟩
    · refine ⟨id', room, hlive', ?_, hempty, rfl⟩
      rwa [Registry.room?_onRoom, if_neg hid]
  | _ => exact trivial

theorem Does.opened (h : t.Does r r') {id : RoomId} {key : String} {socket : SocketId}
    (hheld : r'.HasSocket id key socket) : r.HasSocket id key socket ∨
      ∃ document n, t = .enrolls document id n ∧ n.key = key ∧ n.socket = socket := by
  cases h with
  | nothing => exact .inl hheld
  | makes => exact .inl (Registry.hasSocket_getOrCreate hheld)
  | enrolls document id' n =>
    obtain ⟨rfl, rfl, rfl⟩ | ⟨-, hheld⟩ := Registry.hasSocket_openSocket hheld
    · exact .inr ⟨document, n, rfl, rfl, rfl⟩
    · exact .inl hheld
  | retires => exact .inl hheld
  | calls _ _ hcall => exact .inl (Registry.hasSocket_perform hcall hheld)

theorem Does.live (h : t.Does r r') {document : String} {id : RoomId}
    (hlive : r.live.get? document = some id) : r'.live.get? document = some id ∨
      ∃ snapshot sweep?, t = .retires document snapshot sweep? := by
  cases h with
  | nothing => exact .inl hlive
  | makes d newcomer? =>
    obtain ⟨_, -, he⟩ | ⟨hnone, he⟩ := r.getOrCreate_cases d
    · exact .inl (by rwa [he])
    · refine .inl ?_
      have hne : document ≠ d := by
        rintro rfl
        rw [hlive] at hnone
        cases hnone
      rwa [he, get?_insert, if_neg hne]
  | enrolls => exact .inl (by rwa [Registry.live_onRoom])
  | retires d snapshot sweep? =>
    by_cases hd : document = d
    · exact .inr ⟨snapshot, sweep?, hd ▸ rfl⟩
    · exact .inl (by rwa [get?_erase, if_neg hd])
  | calls => exact .inl (by rwa [Registry.live_onRoom])

/-- A section leaves alone what the tasks rely on that may have their locks meanwhile. -/
theorem Fits.proceed (h : u.Fits r) (hadmits : t.access.admits u.holds = true)
    (hdoes : t.Does r r') : u.Fits r' := by
  have hexclusive : t.access = .exclusive → u.Fits r' := by
    intro ht
    rw [ht] at hadmits
    refine fits_of_holds_none ?_
    cases hu : u.holds with
    | none => rfl
    | shared => rw [hu] at hadmits; cases hadmits
    | exclusive => rw [hu] at hadmits; cases hadmits
  cases hdoes with
  | nothing => exact h
  | makes => exact hexclusive rfl
  | retires => exact hexclusive rfl
  | calls id _ hcall => exact h.perform id hcall
  | enrolls document id newcomer =>
    cases u with
    | enrolls document' id' newcomer' =>
      exact (congrArg (get? · document') (r.live_onRoom id _)).trans h
    | examines => cases hadmits
    | retires => cases hadmits
    | _ => exact trivial

end Task

namespace Registry

theorem Accounted.perform (h : r.Accounted latest) (id : RoomId) {call : LiveRoom.Call}
    (hcall : call.OnOpenSockets) : (r.onRoom id (·.perform call)).Accounted latest :=
  h.onRoom (·.store_perform call) (.inr fun _ hl => LiveRoom.deserted_perform hcall hl)

theorem Accounted.proceed (h : r.Accounted latest) (ht : t.Fits r) (hdoes : t.Does r r') :
    r'.Accounted (t.latest r latest) := by
  cases hdoes with
  | nothing hmakes =>
    cases t with
    | makes document newcomer? => exact absurd rfl (hmakes document newcomer?)
    | _ => exact h
  | makes document newcomer? => exact h.getOrCreate document
  | enrolls document id n =>
    exact h.onRoom (·.store_perform ⟨n.now, .openSocket n.key n.socket n.info⟩) (.inl ⟨document, ht⟩)
  | retires document snapshot sweep? =>
    obtain ⟨id, room, hlive, hroom, hempty, rfl⟩ := ht
    exact h.retire hlive hroom hempty
  | calls id hmakes hcall =>
    cases t with
    | makes document newcomer? => exact absurd rfl (hmakes document newcomer?)
    | _ => exact h.perform id hcall

theorem Accounted.durable_proceed (h : r.Accounted latest) (ht : t.Fits r) (hdoes : t.Does r r')
    (document : String) : r'.durable document = r.durable document ∨
      ∃ id, r.live.get? document = some id ∧ r'.live.get? document = some id ∧
        (r.durable document).clock ≤ (r'.durable document).clock := by
  cases hdoes with
  | nothing => exact .inl rfl
  | makes d newcomer? => exact .inl (durable_getOrCreate h d document)
  | enrolls d id n =>
    refine (durable_onRoom (·.store_perform ⟨n.now, .openSocket n.key n.socket n.info⟩) r id
      document).imp_right fun hused => ⟨id, hused.1, ?_, hused.2⟩
    rw [live_onRoom]
    exact hused.1
  | retires d snapshot sweep? =>
    obtain ⟨id, room, hlive, hroom, -, rfl⟩ := ht
    exact .inl (durable_retire h hlive hroom document)
  | @calls _ id call _ _ =>
    refine (durable_onRoom (·.store_perform call) r id document).imp_right
      fun hused => ⟨id, hused.1, ?_, hused.2⟩
    rw [live_onRoom]
    exact hused.1

/-- A room that no document has any more. -/
structure Gone (r : Registry σ) (id : RoomId) (store : Store) : Prop where
  deserted : ∃ room, r.room? id = some room ∧ room.sessions = Table.empty ∧ room.store = store
  nowhere : ∀ document, r.live.get? document ≠ some id

theorem Gone.perform {id : RoomId} {store : Store} (h : r.Gone id store) (id' : RoomId)
    {call : LiveRoom.Call} (hcall : call.OnOpenSockets) :
    (r.onRoom id' (·.perform call)).Gone id store := by
  obtain ⟨⟨room, hroom, hempty, rfl⟩, hnowhere⟩ := h
  refine ⟨?_, by simpa using hnowhere⟩
  by_cases hid : id = id'
  · subst hid
    have hd := LiveRoom.deserted_perform (l := ⟨room, r.host⟩) hcall hempty
    exact ⟨_, room?_onRoom_self hroom, hd.sessions, hd.store⟩
  · exact ⟨room, by rwa [room?_onRoom, if_neg hid], hempty, rfl⟩

theorem Gone.proceed {id : RoomId} {store : Store} (h : r.Gone id store) (ht : t.Fits r)
    (hdoes : t.Does r r') : r'.Gone id store := by
  cases hdoes with
  | nothing => exact h
  | makes document newcomer? =>
    obtain ⟨_, -, he⟩ | ⟨-, he⟩ := r.getOrCreate_cases document
    · rwa [he]
    · rw [he]
      obtain ⟨⟨room, hroom, hempty, hstore⟩, hnowhere⟩ := h
      have hlt : id < r.rooms.length := (List.getElem?_eq_some_iff.1 hroom).1
      refine ⟨⟨room, (List.getElem?_append_left hlt).trans hroom, hempty, hstore⟩, fun d hd => ?_⟩
      rw [get?_insert] at hd
      split at hd
      · exact Nat.lt_irrefl _ (Option.some.inj hd ▸ hlt)
      · exact hnowhere d hd
  | enrolls document id' n =>
    obtain ⟨⟨room, hroom, hempty, hstore⟩, hnowhere⟩ := h
    have hid : id ≠ id' := by
      rintro rfl
      exact hnowhere document ht
    exact ⟨⟨room, by rwa [room?_onRoom, if_neg hid], hempty, hstore⟩, by simpa using hnowhere⟩
  | retires document snapshot sweep? =>
    refine ⟨h.deserted, fun d hd => ?_⟩
    rw [get?_erase] at hd
    split at hd
    · cases hd
    · exact h.nowhere d hd
  | calls id' _ hcall => exact h.perform id' hcall

end Registry

namespace Site

/-- Nobody is in the way of anybody who has the map locked. -/
structure Sound (s : Site σ) : Prop where
  accounted : s.registry.Accounted s.latest
  fits : ∀ t ∈ s.tasks, t.Fits s.registry
  apart : ∀ (i j : Nat) (t u : Task), s.tasks[i]? = some t → s.tasks[j]? = some u → i ≠ j →
    t.holds.admits u.holds = true

variable {s : Site σ}

omit [Host σ] in
theorem Sound.admits (h : s.Sound) {i j : Nat} (ht : s.tasks[i]? = some t)
    (hu : s.tasks[j]? = some u) (hij : i ≠ j) (hgrants : s.grants t.wants = true) :
    t.access.admits u.holds = true := by
  rw [Task.access]
  split
  · exact h.apart i j t u ht hu hij
  · exact List.all_eq_true.1 hgrants u (List.mem_of_getElem? hu)

omit [Host σ] in
theorem Sound.set (h : s.Sound) {i : Nat} (ht : s.tasks[i]? = some t) {next : Task}
    {registry : Registry σ} {latest : Table RoomId} (haccounted : registry.Accounted latest)
    (hnext : next.Fits registry)
    (hothers : ∀ j u, j ≠ i → s.tasks[j]? = some u →
      u.Fits registry ∧ next.holds.admits u.holds = true) :
    (⟨registry, s.tasks.set i next, latest⟩ : Site σ).Sound := by
  have hlt : i < s.tasks.length := (List.getElem?_eq_some_iff.1 ht).1
  have hself : (s.tasks.set i next)[i]? = some next := List.getElem?_set_self hlt
  have hother : ∀ j, j ≠ i → (s.tasks.set i next)[j]? = s.tasks[j]? := fun j hj =>
    List.getElem?_set_ne (Ne.symm hj)
  refine ⟨haccounted, fun u hu => ?_, fun j k u v hu hv hjk => ?_⟩
  · obtain ⟨j, hj⟩ := List.mem_iff_getElem?.1 hu
    by_cases hji : j = i
    · subst hji
      cases hself.symm.trans hj
      exact hnext
    · exact (hothers j u hji (hother j hji ▸ hj)).1
  · dsimp only at hu hv
    by_cases hji : j = i
    · subst hji
      cases hself.symm.trans hu
      exact (hothers k v (Ne.symm hjk) (hother k (Ne.symm hjk) ▸ hv)).2
    · rw [hother j hji] at hu
      by_cases hki : k = i
      · subst hki
        cases hself.symm.trans hv
        exact (Access.admits_comm _ _).trans (hothers j u hji hu).2
      · exact h.apart j k u v hu (hother k hki ▸ hv) hjk

theorem proceed_cases (s : Site σ) (i : Nat) :
    s.proceed i = s ∨ ∃ t, s.tasks[i]? = some t ∧ s.grants t.wants = true ∧ s.proceed i =
      ⟨(t.proceed s.registry).1, s.tasks.set i (t.proceed s.registry).2,
        t.latest s.registry s.latest⟩ := by
  rw [proceed]
  split
  · exact .inl rfl
  · rename_i t ht
    split
    · rename_i hgrants
      exact .inr ⟨t, ht, hgrants, rfl⟩
    · exact .inl rfl

theorem Sound.proceed (h : s.Sound) (i : Nat) : (s.proceed i).Sound := by
  obtain he | ⟨t, ht, hgrants, he⟩ := s.proceed_cases i
  · rwa [he]
  · have hfits := h.fits t (List.mem_of_getElem? ht)
    obtain ⟨hholds, hnext⟩ := Task.fits_proceed hfits
    rw [he]
    refine h.set ht (h.accounted.proceed hfits (t.does_proceed _)) hnext fun j u hji hu => ?_
    have hadmits := h.admits ht hu (Ne.symm hji) hgrants
    refine ⟨(h.fits u (List.mem_of_getElem? hu)).proceed hadmits (t.does_proceed _), ?_⟩
    obtain hholds | hholds := hholds
    · rw [hholds]
      rfl
    · rwa [hholds]

omit [Host σ] in
theorem Sound.begin (h : s.Sound) (request : Request) :
    ({ s with tasks := s.tasks ++ [request.task] } : Site σ).Sound := by
  have hidle : request.task.holds = .none := by cases request <;> rfl
  refine ⟨h.accounted, fun t ht => ?_, fun i j t u ht hu hij => ?_⟩
  · obtain ht | ht := List.mem_append.1 ht
    · exact h.fits t ht
    · rw [List.mem_singleton.1 ht]
      exact Task.fits_of_holds_none hidle
  · obtain ht | ⟨rfl, rfl⟩ := getElem?_append_singleton ht
    · obtain hu | ⟨-, rfl⟩ := getElem?_append_singleton hu
      · exact h.apart i j t u ht hu hij
      · rw [hidle]
        cases t.holds <;> rfl
    · rw [hidle]
      rfl

omit [Host σ] in
theorem Sound.drop (h : s.Sound) (i : Nat) :
    ({ s with tasks := s.tasks.set i .dropped } : Site σ).Sound := by
  cases ht : s.tasks[i]? with
  | none => rwa [List.set_eq_of_length_le (List.getElem?_eq_none_iff.1 ht)]
  | some t =>
    exact h.set ht h.accounted trivial fun j u _ hu =>
      ⟨h.fits u (List.mem_of_getElem? hu), rfl⟩

omit [Host σ] in
theorem Sound.change (h : s.Sound) (host : σ) :
    ({ s with registry := { s.registry with host } } : Site σ).Sound where
  accounted := ⟨h.accounted.known, h.accounted.made, h.accounted.own, h.accounted.keyed,
    h.accounted.vacant, h.accounted.saved⟩
  fits t ht := by
    have hfits := h.fits t ht
    cases t <;> exact hfits
  apart := h.apart

theorem Sound.step (h : s.Sound) (event : Event σ) : (s.step event).Sound := by
  cases event with
  | begins request => exact h.begin request
  | proceeds i => exact h.proceed i
  | drops i => exact h.drop i
  | calls id call hcall =>
    exact ⟨h.accounted.perform id hcall, fun t ht => (h.fits t ht).perform id hcall, h.apart⟩
  | changes host => exact h.change host

theorem Sound.run (h : s.Sound) (events : List (Event σ)) : (s.run events).Sound := by
  induction events generalizing s with
  | nil => exact h
  | cons event rest ih => exact ih (h.step event)

omit [Host σ] in
theorem sound_start (config : Config) (snapshots : Table Snapshot) (host : σ) :
    (start config snapshots host).Sound where
  accounted := ⟨nofun, nofun, nofun, nofun, nofun, nofun⟩
  fits := nofun
  apart := nofun

theorem asked_step (event : Event σ) {document : String} {newcomer : Newcomer}
    (ht : t ∈ (s.step event).tasks) (hasks : t.asks = some (document, newcomer)) :
    (∃ u ∈ s.tasks, u.asks = some (document, newcomer)) ∨
      event = .begins (.openSession document newcomer) := by
  cases event with
  | begins request =>
    obtain ht | ht := List.mem_append.1 ht
    · exact .inl ⟨t, ht, hasks⟩
    · rw [List.mem_singleton.1 ht] at hasks
      cases request with
      | openSession d n =>
        cases hasks
        exact .inr rfl
      | _ => cases hasks
  | proceeds i =>
    refine .inl ?_
    obtain he | ⟨u, hu, -, he⟩ := s.proceed_cases i
    · rw [Site.step, he] at ht
      exact ⟨t, ht, hasks⟩
    · rw [Site.step, he] at ht
      obtain ht | rfl := List.mem_or_eq_of_mem_set ht
      · exact ⟨t, ht, hasks⟩
      · exact ⟨u, List.mem_of_getElem? hu, Task.asks_proceed hasks⟩
  | drops i =>
    obtain ht | rfl := List.mem_or_eq_of_mem_set ht
    · exact .inl ⟨t, ht, hasks⟩
    · cases hasks
  | calls id call hcall => exact .inl ⟨t, ht, hasks⟩
  | changes host => exact .inl ⟨t, ht, hasks⟩

theorem asked_run (events : List (Event σ)) {document : String} {newcomer : Newcomer}
    (ht : t ∈ (s.run events).tasks) (hasks : t.asks = some (document, newcomer)) :
    (∃ u ∈ s.tasks, u.asks = some (document, newcomer)) ∨
      .begins (.openSession document newcomer) ∈ events := by
  induction events generalizing s with
  | nil => exact .inl ⟨t, ht, hasks⟩
  | cons event rest ih =>
    obtain ⟨u, hu, hasked⟩ | hbegun := ih ht
    · obtain hfound | rfl := s.asked_step event hu hasked
      · exact .inl hfound
      · exact .inr List.mem_cons_self
    · exact .inr (List.mem_cons_of_mem _ hbegun)

theorem Sound.gone_step (h : s.Sound) {id : RoomId} {store : Store}
    (hgone : s.registry.Gone id store) (event : Event σ) :
    (s.step event).registry.Gone id store := by
  cases event with
  | begins request => exact hgone
  | proceeds i =>
    obtain he | ⟨t, ht, -, he⟩ := s.proceed_cases i
    · rw [Site.step, he]
      exact hgone
    · rw [Site.step, he]
      exact hgone.proceed (h.fits t (List.mem_of_getElem? ht)) (t.does_proceed _)
  | drops i => exact hgone
  | calls id' call hcall => exact hgone.perform id' hcall
  | changes host => exact ⟨hgone.deserted, hgone.nowhere⟩

theorem Sound.gone_run (h : s.Sound) {id : RoomId} {store : Store}
    (hgone : s.registry.Gone id store) (events : List (Event σ)) :
    (s.run events).registry.Gone id store := by
  induction events generalizing s with
  | nil => exact hgone
  | cons event rest ih => exact ih (h.step event) (h.gone_step hgone event)

theorem Sound.durable_step (h : s.Sound) (event : Event σ) (document : String) :
    (s.step event).registry.durable document = s.registry.durable document ∨
      ∃ id, s.registry.live.get? document = some id ∧
        (s.step event).registry.live.get? document = some id ∧
        (s.registry.durable document).clock ≤ ((s.step event).registry.durable document).clock := by
  cases event with
  | begins request => exact .inl rfl
  | proceeds i =>
    obtain he | ⟨t, ht, -, he⟩ := s.proceed_cases i
    · exact .inl (by rw [Site.step, he])
    · rw [Site.step, he]
      exact h.accounted.durable_proceed (h.fits t (List.mem_of_getElem? ht)) (t.does_proceed _)
        document
  | drops i => exact .inl rfl
  | calls id call hcall =>
    refine (Registry.durable_onRoom (·.store_perform call) s.registry id document).imp_right
      fun hused => ⟨id, hused.1, ?_, hused.2⟩
    rw [Site.step, Registry.live_onRoom]
    exact hused.1
  | changes host => exact .inl rfl

theorem Sound.clock_le_run (h : s.Sound) (events : List (Event σ)) (document : String) :
    (s.registry.durable document).clock ≤ ((s.run events).registry.durable document).clock := by
  induction events generalizing s with
  | nil => exact Nat.le_refl _
  | cons event rest ih =>
    refine Nat.le_trans ?_ (ih (h.step event))
    obtain he | ⟨_, _, _, hle⟩ := h.durable_step event document
    · exact Nat.le_of_eq (congrArg Durable.clock he.symm)
    · exact hle

theorem Sound.departed (h : s.Sound) (event : Event σ) {document : String} {id : RoomId}
    (hlive : s.registry.live.get? document = some id)
    (hlost : (s.step event).registry.live.get? document ≠ some id) :
    ∃ room, s.registry.room? id = some room ∧ room.sessions = Table.empty ∧
      (s.step event).registry.Gone id room.store := by
  cases event with
  | begins request => exact absurd hlive hlost
  | drops i => exact absurd hlive hlost
  | changes host => exact absurd hlive hlost
  | calls id' call hcall =>
    refine absurd ?_ hlost
    rwa [Site.step, Registry.live_onRoom]
  | proceeds i =>
    obtain he | ⟨t, ht, -, he⟩ := s.proceed_cases i
    · exact absurd (by rwa [Site.step, he]) hlost
    · have hnext := (h.proceed i).accounted
      rw [Site.step, he] at hlost ⊢
      rw [he] at hnext
      obtain hkept | ⟨snapshot, sweep?, rfl⟩ := (t.does_proceed s.registry).live hlive
      · exact absurd hkept hlost
      · obtain ⟨id', room, hlive', hroom, hempty, -⟩ := h.fits _ (List.mem_of_getElem? ht)
        cases hlive.symm.trans hlive'
        exact ⟨room, hroom, hempty, ⟨room, hroom, hempty, rfl⟩,
          hnext.not_live (h.accounted.known document id hlive) hlost⟩

/-- What a site does by one event, after which anything may happen. -/
structure Continues (s : Site σ) (event : Event σ) : Prop where
  /-- A session is opened in the room that its document has at that moment. -/
  enrolled : ∀ (i : Nat) document id newcomer,
    s.tasks[i]? = some (.enrolls document id newcomer) →
    s.registry.live.get? document = some id ∧ ∃ room, s.registry.room? id = some room
  /-- No session is opened otherwise. -/
  opened : ∀ id key socket, (s.step event).registry.HasSocket id key socket →
    s.registry.HasSocket id key socket ∨ ∃ i document newcomer, event = .proceeds i ∧
      s.tasks[i]? = some (.enrolls document id newcomer) ∧ newcomer.key = key ∧
      newcomer.socket = socket
  /-- A room that a document loses has no session, and never changes again. -/
  departed : ∀ document id, s.registry.live.get? document = some id →
    (s.step event).registry.live.get? document ≠ some id →
    ∃ room, s.registry.room? id = some room ∧ room.sessions = Table.empty ∧
      ∀ later, ∃ room', ((s.step event).run later).registry.room? id = some room' ∧
        room'.sessions = Table.empty ∧ room'.store = room.store
  /-- The room that was made last for a document is the one that it has, or is saved; and the next one
  starts with what is saved. -/
  saved : ∀ document id, s.latest.get? document = some id →
    s.registry.live.get? document = some id ∨
      s.registry.live.get? document = none ∧ ∃ room, s.registry.room? id = some room ∧
        s.registry.snapshots.get? document = some room.snapshot ∧
        (s.registry.createRoom document).durable = room.durable
  /-- What there is of a document does not change when a room is made or let go. -/
  durable : ∀ document, (s.step event).registry.durable document = s.registry.durable document ∨
    ∃ id, s.registry.live.get? document = some id ∧
      (s.step event).registry.live.get? document = some id
  clock : ∀ document later, (s.registry.durable document).clock ≤
    (((s.step event).run later).registry.durable document).clock

/-- Whatever the tasks of a site and those who have a room do, and in whatever order their sections
and calls take place, documents go on from one room to the next. -/
theorem continues_run (config : Config) (snapshots : Table Snapshot) (host : σ)
    (events : List (Event σ)) (event : Event σ) :
    ((start config snapshots host).run events).Continues event ∧
      ∀ document id newcomer,
        .enrolls document id newcomer ∈ ((start config snapshots host).run events).tasks →
        .begins (.openSession document newcomer) ∈ events := by
  refine ⟨?_, fun document id newcomer ht => (asked_run events ht rfl).resolve_left (by simp [start])⟩
  have h : ((start config snapshots host).run events).Sound :=
    (sound_start config snapshots host).run events
  generalize (start config snapshots host).run events = s at h
  refine ⟨fun i d id n ht => ?_, fun id key socket hs => ?_, fun d id hlive hlost => ?_,
    fun d id hlatest => ?_, fun d => ?_, fun d later => ?_⟩
  · have hlive : s.registry.live.get? d = some id := h.fits _ (List.mem_of_getElem? ht)
    exact ⟨hlive, h.accounted.room hlive⟩
  · cases event with
    | begins request => exact .inl hs
    | drops i => exact .inl hs
    | changes host => exact .inl hs
    | calls id' call hcall => exact .inl (Registry.hasSocket_perform hcall hs)
    | proceeds i =>
      obtain he | ⟨t, ht, -, he⟩ := s.proceed_cases i
      · rw [Site.step, he] at hs
        exact .inl hs
      · rw [Site.step, he] at hs
        refine (t.does_proceed s.registry).opened hs |>.imp_right ?_
        rintro ⟨d, n, rfl, hkey, hsocket⟩
        exact ⟨i, d, n, rfl, ht, hkey, hsocket⟩
  · obtain ⟨room, hroom, hempty, hgone⟩ := h.departed event hlive hlost
    exact ⟨room, hroom, hempty, fun later => ((h.step event).gone_run hgone later).deserted⟩
  · cases hlive : s.registry.live.get? d with
    | some id' => exact .inl ((h.accounted.known d id' hlive).symm.trans hlatest)
    | none =>
      obtain ⟨room, hroom⟩ : ∃ room, s.registry.room? id = some room :=
        ⟨_, List.getElem?_eq_getElem (h.accounted.made d id hlatest)⟩
      have hsaved := h.accounted.saved d id room hlatest hlive hroom
      refine .inr ⟨rfl, room, hroom, hsaved, ?_⟩
      rw [Registry.durable_createRoom hlive, Registry.durable_of_not_live hlive, Registry.load,
        hsaved, Option.elim_some, Room.durable_snapshot (h.accounted.keyed id room hroom)]
  · obtain hsame | ⟨id, hlive, hlive', -⟩ := h.durable_step event d
    · exact .inl hsame
    · exact .inr ⟨id, hlive, hlive'⟩
  · exact h.clock_le_run (event :: later) d

end Site

end RoomSync
