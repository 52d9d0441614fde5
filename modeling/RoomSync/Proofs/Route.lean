import Mathlib.Data.List.TakeWhile
import RoomSync.Client
import RoomSync.Room.Handshake

namespace RoomSync

open Text

namespace Text

variable {separator : Char}

theorem pieces_eq_cons (separator : Char) (cs : List Char) :
    ∃ others, pieces separator cs = cs.takeWhile (· ≠ separator) :: others := by
  induction cs with
  | nil => exact ⟨[], rfl⟩
  | cons c cs ih =>
    by_cases hc : c = separator
    · exact ⟨pieces separator cs, by simp [pieces, hc]⟩
    · obtain ⟨others, ho⟩ := ih
      exact ⟨others, by simp [pieces, hc, ho]⟩

theorem mem_of_mem_pieces {cs piece : List Char} (h : piece ∈ pieces separator cs) {c : Char}
    (hc : c ∈ piece) : c ∈ cs := by
  induction cs generalizing piece with
  | nil => simp_all [pieces]
  | cons d cs ih =>
    simp only [pieces] at h
    split at h
    · obtain rfl | h := List.mem_cons.1 h
      · cases hc
      · exact List.mem_cons_of_mem _ (ih h hc)
    · obtain ⟨others, ho⟩ := pieces_eq_cons separator cs
      rw [ho] at h ih
      obtain rfl | h := List.mem_cons.1 h
      · obtain rfl | hc := List.mem_cons.1 hc
        · exact List.mem_cons_self
        · exact List.mem_cons_of_mem _ (ih List.mem_cons_self hc)
      · exact List.mem_cons_of_mem _ (ih (List.mem_cons_of_mem _ h) hc)

end Text

namespace Target

theorem of_mem_path {text : String} {c : Char} (h : c ∈ (split text).path.toList) :
    c ≠ '?' ∧ c ≠ '#' := by
  have hsharp : ∀ c ∈ (text.toList.dropWhile (!endsHost ·)).takeWhile (· ≠ '#'), c ≠ '#' :=
    fun c hc => by simpa using List.mem_takeWhile_imp hc
  simp only [split] at h
  split at h
  · rename_i hnone
    rw [String.toList_ofList] at h
    exact ⟨fun he => splitFirst?_eq_none_iff.1 hnone (he ▸ h), hsharp c h⟩
  · rename_i path query hsome
    rw [String.toList_ofList] at h
    obtain ⟨hcs, hmark⟩ := splitFirst?_eq_some_iff.1 hsome
    exact ⟨fun he => hmark (he ▸ h), hsharp c (hcs ▸ List.mem_append_left _ h)⟩

theorem of_mem_query {text : String} {c : Char}
    (h : c ∈ ((split text).query.getD "").toList) : c ≠ '#' := by
  simp only [split] at h
  split at h
  · simp at h
  · rename_i path query hsome
    obtain ⟨hcs, -⟩ := splitFirst?_eq_some_iff.1 hsome
    have hq : c ∈ query := by simpa using h
    have hc : c ∈ path ++ '?' :: query := List.mem_append_right _ (List.mem_cons_of_mem _ hq)
    rw [← hcs] at hc
    simpa using List.mem_takeWhile_imp hc

end Target

namespace Route

/-- A document and a session key that are written in a request as one part each. -/
structure Plain (documentId sessionKey : String) : Prop where
  noLeadingSlash : documentId.toList.head? ≠ some '/'
  noMark : '?' ∉ documentId.toList
  noNumberSign : '#' ∉ documentId.toList
  noAmpersand : '&' ∉ sessionKey.toList
  noKeyNumberSign : '#' ∉ sessionKey.toList

/-- Where the request for a document and a session key leads. -/
def landing (documentId sessionKey : String) : Except RouteError Route :=
  ofTarget (Target.split (request documentId sessionKey))

theorem keyName_plain : ∀ c ∈ keyName.toList, c ≠ '&' ∧ c ≠ '#' ∧ c ≠ '=' := by simp [keyName]

theorem keyOf?_key (rest : List Char) :
    keyOf? (keyName.toList ++ '=' :: rest) = some (rest.takeWhile (· ≠ '&')) := by
  obtain ⟨others, ho⟩ := pieces_eq_cons '&' (keyName.toList ++ '=' :: rest)
  have hfirst : (keyName.toList ++ '=' :: rest).takeWhile (· ≠ '&') =
      keyName.toList ++ '=' :: rest.takeWhile (· ≠ '&') := by
    rw [List.takeWhile_append_of_pos fun c hc => decide_eq_true (keyName_plain c hc).1,
      List.takeWhile_cons_of_pos (by decide)]
  have hsplit : splitFirst? '=' (keyName.toList ++ '=' :: rest.takeWhile (· ≠ '&')) =
      some (keyName.toList, rest.takeWhile (· ≠ '&')) :=
    splitFirst?_append _ fun hmem => (keyName_plain _ hmem).2.2 rfl
  rw [keyOf?, ho, hfirst]
  simp only [List.filterMap_cons, hsplit]
  rw [List.find?_cons_of_pos (by simp)]
  rfl

theorem of_mem_keyOf? {query key : List Char} (h : keyOf? query = some key) {c : Char}
    (hc : c ∈ key) : c ∈ query ∧ c ≠ '&' := by
  obtain ⟨pair, hfind, rfl⟩ := Option.map_eq_some_iff.1 h
  obtain ⟨piece, hpiece, hsplit⟩ := List.mem_filterMap.1 (List.mem_of_find?_eq_some hfind)
  obtain ⟨rfl, -⟩ := splitFirst?_eq_some_iff.1 hsplit
  have hmem : c ∈ pair.1 ++ '=' :: pair.2 := List.mem_append_right _ (List.mem_cons_of_mem _ hc)
  exact ⟨mem_of_mem_pieces hpiece hmem, fun he => notMem_of_mem_pieces hpiece (he ▸ hmem)⟩

theorem parse_eq_ok_iff {path : String} {query : Option String} {route : Route} :
    parse path query = .ok route ↔
      path.toList.dropWhile (· = '/') = route.documentId.toList ∧
        keyOf? (query.getD "").toList = some route.sessionKey.toList ∧
        route.documentId ≠ "" ∧ '/' ∉ route.documentId.toList ∧ route.sessionKey ≠ "" := by
  constructor
  · intro h
    simp only [parse] at h
    split at h
    · cases h
    · rename_i hdocument
      split at h
      · cases h
      · rename_i hslash
        split at h
        · cases h
        · cases h
        · rename_i key hne hkey
          obtain rfl := Except.ok.inj h
          have hkey' : key ≠ [] := hne
          exact ⟨by simp, by simpa using hkey, by simpa using hdocument, by simpa using hslash,
            by simpa using hkey'⟩
  · rintro ⟨hd, hk, hdocument, hslash, hkey⟩
    have hd' : route.documentId.toList ≠ [] := fun he => hdocument (String.toList_eq_nil_iff.1 he)
    have hk' : route.sessionKey.toList ≠ [] := fun he => hkey (String.toList_eq_nil_iff.1 he)
    simp only [parse, hd, hk, hd', hslash, if_false, String.ofList_toList]

theorem plain_of_ofTarget {text : String} {route : Route}
    (h : ofTarget (Target.split text) = .ok route) :
    Plain route.documentId route.sessionKey ∧ route.documentId ≠ "" ∧
      '/' ∉ route.documentId.toList ∧ route.sessionKey ≠ "" := by
  obtain ⟨hd, hkey, hne, hslash, hk⟩ := parse_eq_ok_iff.1 h
  have hpath : ∀ c ∈ route.documentId.toList, c ≠ '?' ∧ c ≠ '#' := fun c hc =>
    Target.of_mem_path ((List.dropWhile_sublist _).mem (hd ▸ hc))
  have hquery : ∀ c ∈ route.sessionKey.toList, c ≠ '#' ∧ c ≠ '&' := fun c hc =>
    have ⟨hq, ha⟩ := of_mem_keyOf? hkey hc
    ⟨Target.of_mem_query hq, ha⟩
  exact ⟨⟨fun hh => hslash (List.mem_of_head? hh), fun hm => (hpath _ hm).1 rfl,
    fun hm => (hpath _ hm).2 rfl, fun hm => (hquery _ hm).2 rfl, fun hm => (hquery _ hm).1 rfl⟩,
    hne, hslash, hk⟩

theorem split_request {documentId : String} (hmark : '?' ∉ documentId.toList)
    (hnumber : '#' ∉ documentId.toList) (sessionKey : String) :
    Target.split (request documentId sessionKey) =
      ⟨"/" ++ documentId, some (String.ofList
        (keyName.toList ++ '=' :: sessionKey.toList.takeWhile (· ≠ '#')))⟩ := by
  have htext : (request documentId sessionKey).toList = ('/' :: documentId.toList) ++
      '?' :: (keyName.toList ++ '=' :: sessionKey.toList) := by
    simp [request]
  have hpath : ∀ c ∈ '/' :: documentId.toList, decide (c ≠ '#') = true := by
    intro c hc
    obtain rfl | hc := List.mem_cons.1 hc
    · decide
    · exact decide_eq_true fun he => hnumber (he ▸ hc)
  have hcut : ((request documentId sessionKey).toList.dropWhile (!Target.endsHost ·)).takeWhile
      (· ≠ '#') = ('/' :: documentId.toList) ++
        '?' :: (keyName.toList ++ '=' :: sessionKey.toList.takeWhile (· ≠ '#')) := by
    rw [htext, List.cons_append, List.dropWhile_cons_of_neg (by decide), ← List.cons_append,
      List.takeWhile_append_of_pos hpath, List.takeWhile_cons_of_pos (by decide),
      List.takeWhile_append_of_pos fun c hc => decide_eq_true (keyName_plain c hc).2.1,
      List.takeWhile_cons_of_pos (by decide)]
  have hfirst : '?' ∉ '/' :: documentId.toList := by simp [hmark]
  simp only [Target.split, hcut, splitFirst?_append _ hfirst]
  simp

theorem landing_of_plain {documentId sessionKey : String} (h : Plain documentId sessionKey) :
    landing documentId sessionKey =
      if documentId = "" then .error .noDocument
      else if '/' ∈ documentId.toList then .error .nestedDocument
      else if sessionKey = "" then .error .noSessionKey
      else .ok ⟨documentId, sessionKey⟩ := by
  have hdocument : ("/" ++ documentId).toList.dropWhile (· = '/') = documentId.toList := by
    cases hd : documentId.toList with
    | nil => simp [hd]
    | cons c cs =>
      have hc : c ≠ '/' := fun he => h.noLeadingSlash (by simp [hd, he])
      simp [hd, hc]
  have hnumber : sessionKey.toList.takeWhile (· ≠ '#') = sessionKey.toList :=
    List.takeWhile_eq_self_iff.2 fun c hc => decide_eq_true fun he => h.noKeyNumberSign (he ▸ hc)
  have hampersand : sessionKey.toList.takeWhile (· ≠ '&') = sessionKey.toList :=
    List.takeWhile_eq_self_iff.2 fun c hc => decide_eq_true fun he => h.noAmpersand (he ▸ hc)
  rw [landing, split_request h.noMark h.noNumberSign, hnumber, ofTarget, parse]
  simp only [hdocument, Option.getD_some, String.toList_ofList, keyOf?_key, hampersand]
  by_cases hd : documentId = ""
  · simp [hd]
  · by_cases hs : '/' ∈ documentId.toList
    · simp [hd, hs]
    · cases hk : sessionKey.toList with
      | nil => simp [hd, hs, String.toList_eq_nil_iff.1 hk]
      | cons c cs =>
        have hne : sessionKey ≠ "" := fun he => by simp [he] at hk
        simp [hd, hs, hne, ← hk]

theorem eq_of_landing_of_plain {documentId sessionKey : String} {route : Route}
    (h : Plain documentId sessionKey) (hl : landing documentId sessionKey = .ok route) :
    ⟨documentId, sessionKey⟩ = route := by
  rw [landing_of_plain h] at hl
  split at hl
  · cases hl
  · split at hl
    · cases hl
    · split at hl
      · cases hl
      · exact Except.ok.inj hl

/-- The requests that lead to what they name. -/
theorem landing_eq_self_iff {documentId sessionKey : String} :
    landing documentId sessionKey = .ok ⟨documentId, sessionKey⟩ ↔
      Plain documentId sessionKey ∧ documentId ≠ "" ∧ '/' ∉ documentId.toList ∧
        sessionKey ≠ "" := by
  refine ⟨fun h => plain_of_ofTarget h, fun ⟨hp, hd, hs, hk⟩ => ?_⟩
  rw [landing_of_plain hp, if_neg hd, if_neg hs, if_neg hk]

end Route

namespace LiveRoom

variable {σ : Type} [Host σ]

theorem connect_eq_mismatch_iff (l : LiveRoom σ) (key : String) (request : ConnectRequest)
    (now : Nat) :
    (l.connect key request now).2 =
        .error (.protocol (.sessionKeyMismatch key request.sessionKey)) ↔
      request.sessionKey ≠ key := by
  refine ⟨fun h hkey => ?_, fun hkey => by rw [connect, if_pos hkey]⟩
  rw [connect, if_neg fun hne => hne hkey] at h
  split at h
  · cases h
  · split at h
    · split at h
      · cases h
      · split at h <;> cases h
    · cases h

end LiveRoom

namespace Route

theorem ofTarget_target? {c : Client} {target : Target} (h : c.target? = some target) :
    ofTarget target = landing c.documentId c.draft.sessionKey := by
  simp only [Client.target?, Target.ofText?] at h
  split at h
  · split at h
    · rw [← Option.some.inj h]
      rfl
    · cases h
  · cases h

/-- A request that is let in leads to the document and the session that it was made for just if the
two are plain. The route that it leads to is that of a plain request in any case, and of one only,
so one that is not plain is taken for another one; and its handshake is refused if the two differ in
the key. -/
theorem landing_faithful_iff {documentId sessionKey : String} {route : Route}
    (h : landing documentId sessionKey = .ok route) :
    (route = ⟨documentId, sessionKey⟩ ↔ Plain documentId sessionKey) ∧
      landing route.documentId route.sessionKey = .ok route ∧
      (∀ d k, Plain d k → landing d k = .ok route → ⟨d, k⟩ = route) ∧
      ∀ {σ : Type} [Host σ] (l : LiveRoom σ) (c : Client) (now : Nat),
        c.documentId = documentId → c.draft.sessionKey = sessionKey →
          (∀ target, c.target? = some target → ofTarget target = .ok route) ∧
          ((l.connect route.sessionKey c.beginConnect.2 now).2 =
              .error (.protocol (.sessionKeyMismatch route.sessionKey sessionKey)) ↔
            route.sessionKey ≠ sessionKey) := by
  refine ⟨⟨fun he => ?_, fun hp => (eq_of_landing_of_plain hp h).symm⟩,
    landing_eq_self_iff.2 (plain_of_ofTarget h), fun d k => eq_of_landing_of_plain,
    fun l c now hd hk => ⟨fun target ht => ?_, ?_⟩⟩
  · exact (landing_eq_self_iff.1 (he ▸ h)).1
  · rw [ofTarget_target? ht, hd, hk, h]
  · have hiff := l.connect_eq_mismatch_iff route.sessionKey c.beginConnect.2 now
    rw [show c.beginConnect.2.sessionKey = sessionKey from hk] at hiff
    exact hiff.trans ne_comm

/-- A question mark, a slash and an equals sign do no harm in a key. -/
theorem landing_faithful_board :
    landing "board-1" "a=b/c?" = .ok ⟨"board-1", "a=b/c?"⟩ ∧ Plain "board-1" "a=b/c?" := by
  have h : landing "board-1" "a=b/c?" = .ok ⟨"board-1", "a=b/c?"⟩ := by decide
  exact ⟨h, (landing_faithful_iff h).1.1 rfl⟩

/-- A key is cut at an ampersand, a document loses its first slashes, and a document with a question
mark chooses the key itself: three ways into the session of another client. -/
theorem landing_elsewhere :
    landing "doc" "bob&x" = .ok ⟨"doc", "bob"⟩ ∧ landing "/doc" "bob" = .ok ⟨"doc", "bob"⟩ ∧
      landing "doc?sessionKey=bob&" "eve" = .ok ⟨"doc", "bob"⟩ ∧
      landing "doc" "bob" = .ok ⟨"doc", "bob"⟩ := by
  decide

end Route

end RoomSync
