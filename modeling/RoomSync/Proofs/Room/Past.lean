import RoomSync.Proofs.Room.Run

namespace RoomSync

open Table

namespace Room

/-- A room together with all the moments that it went through. -/
structure Chronicle (r : Room) (past : List Moment) : Prop where
  keeps : r.config.schema.KeepsPresence
  sound : r.Sound
  now : r.moment ∈ past
  recalls : ∀ m ∈ past, r.store.Recalls m.clock m.documents
  moments : ∀ m ∈ past, m.Sound
  unique : ∀ m ∈ past, ∀ m' ∈ past, m.clock = m'.clock → m = m'

theorem Chronicle.congr {r : Room} {past past' : List Moment} (h : r.Chronicle past)
    (hmem : ∀ m, m ∈ past' ↔ m ∈ past) : r.Chronicle past' :=
  ⟨h.keeps, h.sound, (hmem _).2 h.now, fun m hm => h.recalls m ((hmem m).1 hm),
    fun m hm => h.moments m ((hmem m).1 hm),
    fun m hm m' hm' => h.unique m ((hmem m).1 hm) m' ((hmem m').1 hm')⟩

theorem chronicle_single {r : Room} (hk : r.config.schema.KeepsPresence) (hs : r.Sound) :
    r.Chronicle [r.moment] := by
  refine ⟨hk, hs, List.mem_cons_self, fun m hm => ?_, fun m hm => ?_, fun m hm m' hm' _ => ?_⟩
  · obtain rfl := List.mem_singleton.1 hm
    exact r.store.recalls_self
  · obtain rfl := List.mem_singleton.1 hm
    exact hs.moment
  · rw [List.mem_singleton.1 hm, List.mem_singleton.1 hm']

theorem sound_withStore {config : Config} {store : Store} (h : store.Sound)
    (htyped : ∀ id r, store.records.get? id = some r → r.isPresence = false) :
    (Room.withStore config store).Sound := by
  have hpresence : ∀ id r, (withStore config store).presence.get? id ≠ some r := by
    intro id r hr
    cases hr
  have hsession : ∀ key s, (withStore config store).session? key ≠ some s := by
    intro key s hs
    cases hs
  exact {
    store := h
    moment := {
      documents_keyed := h.keyed
      presence_keyed := fun id r hr => absurd hr (hpresence id r)
      documents_typed := htyped
      presence_typed := fun id r hr => absurd hr (hpresence id r)
      disjoint := fun id r hr => absurd hr (hpresence id r) }
    reserved := fun key s _ hs => absurd hs (hsession key s)
    waiting := fun key s _ hs => absurd hs (hsession key s)
    apart := fun key _ s _ _ hs => absurd hs (hsession key s) }

theorem sound_new (config : Config) : (Room.new config).Sound :=
  sound_withStore (Store.sound_empty _ _) fun id r hr => by cases hr

theorem Sound.ofSnapshot {r : Room} (h : r.Sound) (config : Config) :
    (Room.ofSnapshot config r.snapshot).Sound := by
  refine sound_withStore (h.store.ofSnapshot _ _) ?_
  change ∀ id r', (Record.table r.store.records.values).get? id = some r' → _
  rw [Record.table_values h.store.keyed]
  exact h.moment.documents_typed

theorem Chronicle.rests {r r' : Room} {past : List Moment} (h : r.Chronicle past)
    (hr : r.Rests r') (hs : r'.Sound) : r'.Chronicle past :=
  ⟨hr.config ▸ h.keeps, hs, hr.moment ▸ h.now, hr.store ▸ h.recalls, h.moments, h.unique⟩

theorem Chronicle.shift {r r' : Room} {past : List Moment} {changes : Changes}
    (h : r.Chronicle past) (hshift : Shift r r' changes) (hs : r'.Sound) :
    r'.Chronicle (past ++ [r'.moment]) := by
  obtain ⟨written, hf⟩ := hshift.follows
  have hlater : ∀ m ∈ past, m.clock < r'.clock := fun m hm => by
    have := (h.recalls m hm).le
    have : r'.clock = r.store.clock + 1 := hshift.clock
    omega
  have hmem : ∀ m ∈ past ++ [r'.moment], m ∈ past ∨ m = r'.moment := fun m hm =>
    (List.mem_append.1 hm).imp_right List.mem_singleton.1
  refine ⟨hshift.config ▸ h.keeps, hs, List.mem_append_right _ List.mem_cons_self, fun m hm => ?_,
    fun m hm => ?_, fun m hm m' hm' hc => ?_⟩
  · obtain hm | rfl := hmem m hm
    · exact hf.recalls (h.recalls m hm)
    · exact r'.store.recalls_self
  · obtain hm | rfl := hmem m hm
    · exact h.moments m hm
    · exact hs.moment
  · obtain hm | rfl := hmem m hm <;> obtain hm' | rfl := hmem m' hm'
    · exact h.unique m hm m' hm' hc
    · exact absurd hc (Nat.ne_of_lt (hlater m hm))
    · exact absurd hc (Nat.ne_of_gt (hlater m' hm'))
    · rfl

end Room

namespace LiveRoom

open Room

variable {σ : Type} [Host σ] {l l' : LiveRoom σ} {now : Nat} {past ms : List Moment} {deed : Deed}

theorem Turn.chronicle (ht : Turn now deed l l') (h : l.room.Chronicle past) :
    l'.room.Chronicle (past ++ [l'.room.moment]) := by
  have hs := ht.sound h.keeps h.sound
  obtain hr | ⟨changes, hshift⟩ := ht.change h.sound.placed
  · refine (h.rests hr hs).congr fun m => ?_
    have hm : l'.room.moment ∈ past := hr.moment ▸ h.now
    refine ⟨fun h => (List.mem_append.1 h).elim id fun h => ?_, List.mem_append_left _⟩
    exact List.mem_singleton.1 h ▸ hm
  · exact h.shift hshift hs

theorem Turns.chronicle (ht : Turns now ms l l') (h : l.room.Chronicle past) :
    l'.room.Chronicle (past ++ ms) := by
  induction ht generalizing past with
  | refl l => rwa [List.append_nil]
  | step ht _ ih =>
    rw [List.append_cons]
    exact ih (ht.chronicle h)

theorem Episode.chronicle (he : Episode now deed ms l l') (h : l.room.Chronicle past) :
    l'.room.Chronicle (past ++ ms) := by
  cases he with
  | undone ht => exact ht.chronicle h
  | done ht hdeed =>
    rw [← List.append_assoc]
    exact hdeed.chronicle (ht.chronicle h)

theorem chronicle_perform (h : l.room.Chronicle past) (call : Call) :
    (l.perform call).room.Chronicle
      (past ++ (l.passing call ++ [(l.perform call).room.moment])) := by
  obtain ⟨ms, hms, hmem⟩ := l.episode_perform call
  refine (hms.chronicle h).congr fun m => ?_
  have hnow := h.now
  have hm := hmem m
  simp only [List.mem_append, List.mem_cons] at hm ⊢
  grind

theorem moment_mem_history (l : LiveRoom σ) (calls : List Call) :
    l.room.moment ∈ l.history calls := by
  cases calls <;> exact List.mem_cons_self

/-- The moments of a run are all that there is to a room's past. -/
theorem chronicle_run (h : l.room.Chronicle past) (calls : List Call) :
    (l.run calls).room.Chronicle (past ++ l.history calls) := by
  induction calls generalizing l past with
  | nil =>
    refine h.congr fun m => ?_
    have hnow := h.now
    simp only [history, List.mem_append, List.mem_singleton]
    exact ⟨fun hm => hm.elim id fun hm => hm ▸ hnow, .inl⟩
  | cons call rest ih =>
    refine (ih (chronicle_perform h call)).congr fun m => ?_
    have hnow := h.now
    have hlast := moment_mem_history (l.perform call) rest
    simp only [history, List.mem_append, List.mem_cons]
    grind

end LiveRoom

/-- A room that a host starts with: a new one, or one that goes on from the snapshot of a room that
came from such a one. -/
inductive Founded : Room → Prop
  | new {config : Config} : config.schema.KeepsPresence → Founded (.new config)
  | restored {σ : Type} [Host σ] {start : Room} (host : σ) (calls : List LiveRoom.Call)
      {config : Config} : Founded start → config.schema.KeepsPresence →
      Founded (.ofSnapshot config (LiveRoom.run ⟨start, host⟩ calls).room.snapshot)

def Config.notes : Config := { schema := (Schema.base 1).withType (.document "note") }

theorem Config.notes_keepsPresence : Config.notes.schema.KeepsPresence := ⟨.presence, rfl, rfl⟩

namespace Founded

open Room

theorem session?_eq_none {r : Room} (h : Founded r) (key : String) : r.session? key = none := by
  cases h <;> rfl

theorem chronicle {r : Room} (h : Founded r) : r.Chronicle [r.moment] := by
  induction h with
  | @new config hk => exact chronicle_single hk (sound_new config)
  | restored host calls hk hkeeps ih =>
    exact chronicle_single hkeeps ((LiveRoom.chronicle_run ih calls).sound.ofSnapshot _)

end Founded

theorem LiveRoom.chronicle_history {σ : Type} [Host σ] {start : Room} (hstart : Founded start)
    (host : σ) (calls : List Call) :
    (run ⟨start, host⟩ calls).room.Chronicle (history ⟨start, host⟩ calls) := by
  refine (chronicle_run (l := ⟨start, host⟩) hstart.chronicle calls).congr fun m => ?_
  have := moment_mem_history ⟨start, host⟩ calls
  simp only [List.mem_append, List.mem_singleton]
  grind

end RoomSync
