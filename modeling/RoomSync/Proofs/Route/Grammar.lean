import RoomSync.Proofs.Route

namespace RoomSync

open Text

namespace Text

variable {separator : Char}

theorem intercalate_eq_join (ps : List (List Char)) :
    [separator].intercalate ps = join separator ps := by
  induction ps with
  | nil => rfl
  | cons piece others ih =>
    cases others with
    | nil => simp [join]
    | cons next others =>
      rw [List.intercalate_cons_cons, ih]
      simp [join]

theorem pieces_eq_map_toList_iff {text : String} {ps : List String} :
    pieces separator text.toList = ps.map String.toList ↔
      ps ≠ [] ∧ (∀ p ∈ ps, separator ∉ p.toList) ∧
        text = (String.singleton separator).intercalate ps := by
  have htext : text = (String.singleton separator).intercalate ps ↔
      text.toList = join separator (ps.map String.toList) := by
    rw [← String.toList_inj, String.toList_intercalate, String.toList_singleton,
      intercalate_eq_join]
  rw [htext]
  constructor
  · intro h
    refine ⟨?_, fun p hp => ?_, by rw [← h, join_pieces]⟩
    · rintro rfl
      exact pieces_ne_nil _ h
    · exact notMem_of_mem_pieces (h ▸ List.mem_map_of_mem hp)
  · rintro ⟨hne, hfree, he⟩
    rw [he, pieces_join (by simpa using hne)]
    rintro p hp
    obtain ⟨q, hq, rfl⟩ := List.mem_map.1 hp
    exact hfree q hq

theorem dropWhile_eq_iff {c : Char} {cs rest : List Char} (h : c ∉ rest) :
    cs.dropWhile (· = c) = rest ↔ ∃ n, cs = List.replicate n c ++ rest := by
  constructor
  · rintro rfl
    refine ⟨(cs.takeWhile (· = c)).length, ?_⟩
    have hrun : cs.takeWhile (· = c) = List.replicate (cs.takeWhile (· = c)).length c :=
      List.eq_replicate_iff.2 ⟨rfl, fun d hd => by simpa using List.mem_takeWhile_imp hd⟩
    rw [← hrun, List.takeWhile_append_dropWhile]
  · rintro ⟨n, rfl⟩
    rw [List.dropWhile_append_of_pos fun d hd => decide_eq_true (List.eq_of_mem_replicate hd)]
    cases rest with
    | nil => rfl
    | cons d rest => exact List.dropWhile_cons_of_neg (by simpa using fun he => h (by simp [he]))

end Text

theorem find?_filterMap_eq_some_iff {α β : Type} {f : α → Option β} {p : β → Bool} {xs : List α}
    {b : β} :
    (xs.filterMap f).find? p = some b ↔
      ∃ earlier a later, xs = earlier ++ a :: later ∧
        (∀ x ∈ earlier, ∀ y, f x = some y → p y = false) ∧ f a = some b ∧ p b := by
  rw [List.find?_filterMap, Option.bind_eq_some_iff]
  constructor
  · rintro ⟨a, hfind, ha⟩
    obtain ⟨hp, earlier, later, rfl, hearlier⟩ := List.find?_eq_some_iff_append.1 hfind
    refine ⟨earlier, a, later, rfl, fun x hx y hy => ?_, ha, by simpa [ha] using hp⟩
    simpa [hy] using hearlier x hx
  · rintro ⟨earlier, a, later, rfl, hearlier, ha, hp⟩
    have hnone : ∀ x ∈ earlier, (!(f x).any p) = true := by
      intro x hx
      cases hy : f x with
      | none => rfl
      | some y => simp [hearlier x hx y hy]
    exact ⟨a, List.find?_eq_some_iff_append.2 ⟨by simpa [ha] using hp, earlier, later, rfl, hnone⟩,
      ha⟩

namespace Route

/-- A piece of a query gives a value to a name: the name is what stands before the first equals
sign, and the value is all that follows it. -/
structure Gives (piece name value : String) : Prop where
  eq : piece = name ++ "=" ++ value
  noEquals : '=' ∉ name.toList

/-- The first of the pieces of a query that give a name any value at all gives it this one. -/
def GivesFirst (query name value : String) : Prop :=
  ∃ earlier piece later,
    query = "&".intercalate (earlier ++ piece :: later) ∧
      (∀ p ∈ earlier ++ piece :: later, '&' ∉ p.toList) ∧
      (∀ p ∈ earlier, ∀ other, ¬Gives p name other) ∧ Gives piece name value

/-- The requests for a document and a session. -/
structure Names (path : String) (query : Option String) (route : Route) : Prop where
  path : ∃ n, path = String.ofList (List.replicate n '/') ++ route.documentId
  query : ∃ text, query = some text ∧ GivesFirst text "sessionKey" route.sessionKey
  named : route.documentId ≠ ""
  noSlash : '/' ∉ route.documentId.toList
  keyed : route.sessionKey ≠ ""

theorem gives_iff {piece name value : String} :
    Gives piece name value ↔
      splitFirst? '=' piece.toList = some (name.toList, value.toList) := by
  have heq : piece = name ++ "=" ++ value ↔ piece.toList = name.toList ++ '=' :: value.toList := by
    rw [← String.toList_inj]
    simp
  rw [splitFirst?_eq_some_iff, ← heq]
  exact ⟨fun h => ⟨h.eq, h.noEquals⟩, fun h => ⟨h.1, h.2⟩⟩

theorem keyOf?_eq_some_iff {query key : String} :
    keyOf? query.toList = some key.toList ↔ GivesFirst query keyName key := by
  simp only [keyOf?, Option.map_eq_some_iff, find?_filterMap_eq_some_iff]
  constructor
  · rintro ⟨⟨name, value⟩, ⟨earlier, piece, later, hps, hearlier, hpiece, hname⟩, rfl⟩
    obtain rfl : name = keyName.toList := by simpa using hname
    have hmap : pieces '&' query.toList = (earlier.map String.ofList ++
        String.ofList piece :: later.map String.ofList).map String.toList := by
      simp [hps, Function.comp_def]
    obtain ⟨-, hfree, hquery⟩ := pieces_eq_map_toList_iff.1 hmap
    refine ⟨_, _, _, hquery, hfree, fun p hp other hgives => ?_,
      gives_iff.2 (by simpa using hpiece)⟩
    obtain ⟨cs, hcs, rfl⟩ := List.mem_map.1 hp
    have hcs := hearlier cs hcs _ (by simpa using gives_iff.1 hgives)
    simp at hcs
  · rintro ⟨earlier, piece, later, hquery, hfree, hearlier, hpiece⟩
    have hps : pieces '&' query.toList = earlier.map String.toList ++
        piece.toList :: later.map String.toList := by
      rw [pieces_eq_map_toList_iff.2 ⟨by simp, hfree, hquery⟩]
      simp
    refine ⟨(keyName.toList, key.toList),
      ⟨_, _, _, hps, fun cs hcs pair hpair => ?_, gives_iff.1 hpiece, by simp⟩, rfl⟩
    obtain ⟨p, hp, rfl⟩ := List.mem_map.1 hcs
    refine decide_eq_false fun hname => hearlier p hp (String.ofList pair.2) (gives_iff.2 ?_)
    simp [hpair, ← hname]

theorem names_of_piece {documentId sessionKey : String} {others : List String}
    (hnamed : documentId ≠ "") (hslash : '/' ∉ documentId.toList) (hkeyed : sessionKey ≠ "")
    (hampersand : '&' ∉ sessionKey.toList)
    (hothers : ∀ p ∈ others, '&' ∉ p.toList ∧ ∀ value, ¬Gives p "sessionKey" value) :
    Names ("/" ++ documentId) (some ("&".intercalate (others ++ ["sessionKey=" ++ sessionKey])))
      ⟨documentId, sessionKey⟩ := by
  refine ⟨⟨1, rfl⟩, ⟨_, rfl, others, _, [], rfl, ?_, fun p hp => (hothers p hp).2, rfl, ?_⟩,
    hnamed, hslash, hkeyed⟩
  · intro p hp
    obtain hp | hp := List.mem_append.1 hp
    · exact (hothers p hp).1
    · obtain rfl := List.mem_singleton.1 hp
      simp [hampersand]
  · decide

theorem parse_eq_ok_iff_names {path : String} {query : Option String} {route : Route} :
    parse path query = .ok route ↔ Names path query route := by
  have hpath (hslash : '/' ∉ route.documentId.toList) :
      path.toList.dropWhile (· = '/') = route.documentId.toList ↔
        ∃ n, path = String.ofList (List.replicate n '/') ++ route.documentId := by
    rw [dropWhile_eq_iff hslash]
    simp [← String.toList_inj]
  have hquery : keyOf? (query.getD "").toList = some route.sessionKey.toList ↔
      ∃ text, query = some text ∧ GivesFirst text "sessionKey" route.sessionKey := by
    cases query with
    | none => simp [keyOf?, pieces, splitFirst?]
    | some text => simp [keyOf?_eq_some_iff, keyName]
  rw [parse_eq_ok_iff, hquery]
  constructor
  · rintro ⟨hp, hq, hnamed, hslash, hkeyed⟩
    exact ⟨(hpath hslash).1 hp, hq, hnamed, hslash, hkeyed⟩
  · intro h
    exact ⟨(hpath h.noSlash).2 h.path, h.query, h.named, h.noSlash, h.keyed⟩

/-- A request is let in just if it names a route, and to that one. Slashes in front of the document
do not count, pieces of the query that give no session key do not either, and the first one that
gives a key decides, even if the key is empty. So a single slash and the document, with any pieces
that give no key and then one that does, lead there. -/
theorem parse_accepts_iff :
    (∀ path query route, parse path query = .ok route ↔ Names path query route) ∧
      ∀ documentId sessionKey others,
        documentId ≠ "" → '/' ∉ documentId.toList → sessionKey ≠ "" → '&' ∉ sessionKey.toList →
        (∀ p ∈ others, '&' ∉ p.toList ∧ ∀ value, ¬Gives p "sessionKey" value) →
        parse ("/" ++ documentId)
            (some ("&".intercalate (others ++ ["sessionKey=" ++ sessionKey]))) =
          .ok ⟨documentId, sessionKey⟩ :=
  ⟨fun _ _ _ => parse_eq_ok_iff_names, fun _ _ _ hnamed hslash hkeyed hampersand hothers =>
    parse_eq_ok_iff_names.2 (names_of_piece hnamed hslash hkeyed hampersand hothers)⟩

/-- A piece without an equals sign is passed over, and so is a name that only ends like that of the
key; an empty key is not made up for by a later one. -/
theorem parse_accepts_iff_decoys :
    (∀ p ∈ ["v=2", "sessionKey", "xsessionKey=9"],
        '&' ∉ p.toList ∧ ∀ value, ¬Gives p "sessionKey" value) ∧
      parse "/board-1" (some "v=2&sessionKey&xsessionKey=9&sessionKey=a=b") =
        .ok ⟨"board-1", "a=b"⟩ ∧
      Names "//board-1" (some "sessionKey=a=b&sessionKey=k") ⟨"board-1", "a=b"⟩ ∧
      ¬Names "/board-1" (some "sessionKey=&sessionKey=k") ⟨"board-1", "k"⟩ := by
  have hothers : ∀ p ∈ ["v=2", "sessionKey", "xsessionKey=9"],
      '&' ∉ p.toList ∧ ∀ value, ¬Gives p "sessionKey" value := by
    simp [gives_iff, splitFirst?]
  refine ⟨hothers, ?_, (parse_accepts_iff.1 _ _ _).1 (by decide),
    fun h => absurd ((parse_accepts_iff.1 _ _ _).2 h) (by decide)⟩
  exact parse_accepts_iff.2 "board-1" "a=b" _ (by decide) (by decide) (by decide) (by decide)
    hothers

end Route

end RoomSync
