import Mathlib.Algebra.Group.Nat.Defs
import RoomSync.Proofs.Table
import RoomSync.Wire

namespace RoomSync.Wire

variable {α β : Type}

/-- The reader takes these bytes, and no others, and returns a value. -/
def Reads (read : Reader α) (bytes : Bytes) (a : α) : Prop :=
  ∀ rest, read (bytes ++ rest) = some (a, rest)

def Yields (read : Reader α) (P : α → Prop) : Prop :=
  ∀ bytes a rest, read bytes = some (a, rest) → P a

section
variable {read : Reader α} {f : α → Reader β} {a : α} {b : β} {first second : Bytes}

theorem Reads.of_eq (h : Reads read first a) (he : second = first) : Reads read second a := he ▸ h

theorem Reads.pure (a : α) : Reads (Pure.pure a : Reader α) [] a := fun _ => rfl

theorem Reads.bind (h : Reads read first a) (hf : Reads (f a) second b) :
    Reads (read >>= f) (first ++ second) b := by
  intro rest
  change (read (first ++ second ++ rest)).bind (fun r => f r.1 r.2) = _
  rw [List.append_assoc, h (second ++ rest)]
  exact hf rest

theorem Reads.map (h : Reads read first a) (g : α → β) : Reads (g <$> read) first (g a) := by
  intro rest
  change (read (first ++ rest)).bind (fun r => Pure.pure (g r.1, r.2)) = _
  rw [h rest]
  rfl

variable {P : α → Prop} {Q : β → Prop}

theorem Yields.pure (h : P a) : Yields (Pure.pure a : Reader α) P := by
  intro bytes b rest hb
  cases hb
  exact h

theorem Yields.failure : Yields (failure : Reader α) P := nofun

theorem Yields.bind (h : Yields read P) (hf : ∀ a, P a → Yields (f a) Q) :
    Yields (read >>= f) Q := by
  intro bytes b rest hb
  obtain ⟨⟨a, left⟩, ha, hb⟩ := Option.bind_eq_some_iff.1 hb
  exact hf a (h bytes a left ha) left b rest hb

theorem Yields.map {g : α → β} (h : Yields read fun a => Q (g a)) : Yields (g <$> read) Q := by
  intro bytes b rest hb
  obtain ⟨⟨a, left⟩, ha, hb⟩ := Option.bind_eq_some_iff.1 hb
  cases hb
  exact h bytes a rest ha

theorem Yields.any (read : Reader α) : Yields read fun _ => True := fun _ _ _ _ => trivial

end

theorem reads_byte (b : UInt8) : Reads readByte [b] b := fun _ => rfl

theorem reads_fixed {count n : Nat} (h : n < 256 ^ count) :
    Reads (readFixed count) (writeFixed count n) n := by
  induction count generalizing n with
  | zero =>
    obtain rfl : n = 0 := by omega
    exact .pure 0
  | succ count ih =>
    have hhigh : n / 256 < 256 ^ count := by
      rw [Nat.pow_succ] at h
      omega
    have hn : (UInt8.ofNat n).toNat + 256 * (n / 256) = n := by
      rw [UInt8.toNat_ofNat']
      omega
    have hread : Reads (readFixed (count + 1)) ([UInt8.ofNat n] ++ (writeFixed count (n / 256) ++ []))
        ((UInt8.ofNat n).toNat + 256 * (n / 256)) :=
      .bind (reads_byte _) (.bind (ih hhigh) (.pure _))
    rwa [hn, List.append_nil] at hread

theorem yields_fixed (count : Nat) : Yields (readFixed count) fun n => n < 256 ^ count := by
  induction count with
  | zero => exact .pure Nat.zero_lt_one
  | succ count ih =>
    refine .bind (.any readByte) fun low _ => .bind ih fun high hhigh => .pure ?_
    have hlow := low.toNat_lt
    rw [Nat.pow_succ]
    omega

theorem reads_nat {width n : Nat} (h : n < 2 ^ 32 ∨ width = 8 ∧ n < 2 ^ 64) :
    Reads (readNat width) (writeNat n) n := by
  have hmarked : ∀ {marker : UInt8} {count : Nat}, n < 256 ^ count → (∀ rest, readNat width
      (marker :: rest) = readFixed count rest) →
      Reads (readNat width) (marker :: writeFixed count n) n := by
    intro marker count hn hmarker rest
    rw [List.cons_append, hmarker]
    exact reads_fixed hn rest
  unfold writeNat
  split
  · rename_i hn
    intro rest
    have hbyte : (UInt8.ofNat n).toNat = n := by
      rw [UInt8.toNat_ofNat']
      omega
    have hle : UInt8.ofNat n ≤ 250 := by
      rw [UInt8.le_iff_toNat_le, hbyte]
      exact hn
    change (if UInt8.ofNat n ≤ 250 then _ else _ : Reader Nat) rest = _
    rw [if_pos hle, hbyte]
    rfl
  · split
    · exact hmarked (by simpa using ‹n < Nat.pow 2 16›) fun _ => rfl
    · split
      · exact hmarked (by simpa using ‹n < Nat.pow 2 32›) fun _ => rfl
      · rename_i hlarge
        obtain hn | ⟨rfl, hn⟩ := h
        · exact absurd hn hlarge
        · exact hmarked (by simpa using hn) fun _ => rfl

theorem reads32 {n : Nat} (h : n < 2 ^ 32) : Reads read32 (writeNat n) n := reads_nat (.inl h)

theorem reads64 {n : Nat} (h : n < 2 ^ 64) : Reads read64 (writeNat n) n := reads_nat (.inr ⟨rfl, h⟩)

theorem yields_nat (width : Nat) : Yields (readNat width) fun n =>
    n < if width = 8 then 2 ^ 64 else 2 ^ 32 := by
  refine .bind (.any readByte) fun first _ => ?_
  have hbound : 2 ^ 32 ≤ if width = 8 then 2 ^ 64 else 2 ^ 32 := by split <;> decide
  have hshort : ∀ {count : Nat}, count ≤ 4 → Yields (readFixed count) fun n =>
      n < if width = 8 then 2 ^ 64 else 2 ^ 32 := by
    intro count hcount bytes n rest hn
    have hn := yields_fixed count bytes n rest hn
    have hpow : 256 ^ count ≤ 256 ^ 4 := Nat.pow_le_pow_right (by decide) hcount
    omega
  split
  · refine .pure ?_
    have := first.toNat_lt
    omega
  · split
    · exact hshort (by decide)
    · split
      · exact hshort (by decide)
      · split
        · rename_i hwide
          rw [if_pos hwide.2]
          exact yields_fixed 8
        · exact .failure

theorem yields32 : Yields read32 (· < 2 ^ 32) := yields_nat 4

theorem yields64 : Yields read64 (· < 2 ^ 64) := yields_nat 8

theorem reads_bool (b : Bool) : Reads readBool (writeBool b) b := by
  intro rest
  cases b <;> rfl

theorem reads_option {read : Reader α} {write : α → Bytes} {o : Option α}
    (h : ∀ a, o = some a → Reads read (write a) a) :
    Reads (readOption read) (writeOption write o) o := by
  cases o with
  | none => exact fun _ => rfl
  | some a => exact (reads_bool true).bind ((h a rfl).map some)

theorem yields_option {read : Reader α} {P : α → Prop} (h : Yields read P) :
    Yields (readOption read) fun o => ∀ a, o = some a → P a := by
  refine .bind (.any readBool) fun present _ => ?_
  cases present with
  | false => exact .pure nofun
  | true => exact .map fun bytes a rest ha b hb => Option.some.inj hb ▸ h bytes a rest ha

def TextFits (s : String) : Prop := s.toUTF8.size < 2 ^ 64

instance : DecidablePred TextFits := fun _ => inferInstanceAs (Decidable (_ < _))

theorem reads_bytes (bytes : Bytes) : Reads (readBytes bytes.length) bytes bytes := by
  intro rest
  simp [readBytes]

theorem fromUTF8?_toUTF8 (s : String) : String.fromUTF8? s.toUTF8 = some s :=
  dif_pos s.isValidUTF8

theorem reads_text {s : String} (h : TextFits s) : Reads readText (writeText s) s := by
  have hlength : s.toUTF8.data.toList.length = s.toUTF8.size := rfl
  have hbytes := reads_bytes s.toUTF8.data.toList
  rw [hlength] at hbytes
  have hread : Reads readText
      (writeNat s.toUTF8.size ++ (s.toUTF8.data.toList ++ [])) s := by
    refine .bind (reads64 h) (.bind hbytes ?_)
    rw [Array.toArray_toList, fromUTF8?_toUTF8]
    exact .pure s
  rwa [List.append_nil] at hread

theorem yields_text : Yields readText TextFits := by
  refine .bind yields64 fun count hcount => ?_
  have hbytes : Yields (readBytes count) fun bytes => bytes.length = count := by
    intro bytes taken rest hread
    simp only [readBytes] at hread
    split at hread
    · cases hread
      assumption
    · cases hread
  refine .bind hbytes fun taken htaken => ?_
  split
  · rename_i s hs
    refine .pure ?_
    unfold String.fromUTF8? at hs
    split at hs
    · cases hs
      change taken.toArray.size < 2 ^ 64
      rw [List.size_toArray, htaken]
      exact hcount
    · cases hs
  · exact .failure

theorem reads_items {read : Reader α} {write : α → Bytes} {items : List α}
    (h : ∀ a ∈ items, Reads read (write a) a) :
    Reads (readItems read items.length) (items.flatMap write) items := by
  induction items with
  | nil => exact .pure []
  | cons a rest ih =>
    have hrest := ih fun b hb => h b (List.mem_cons_of_mem a hb)
    have hread : Reads (readItems read (rest.length + 1)) (write a ++ (rest.flatMap write ++ []))
        (a :: rest) := .bind (h a List.mem_cons_self) (.bind hrest (.pure _))
    rwa [List.append_nil] at hread

theorem yields_items {read : Reader α} {P : α → Prop} (h : Yields read P) (count : Nat) :
    Yields (readItems read count) fun items => items.length = count ∧ ∀ a ∈ items, P a := by
  induction count with
  | zero => exact .pure ⟨rfl, nofun⟩
  | succ count ih =>
    refine .bind h fun a ha => .bind ih fun rest hrest => .pure ⟨?_, ?_⟩
    · rw [List.length_cons, hrest.1]
    · exact List.forall_mem_cons.2 ⟨ha, hrest.2⟩

theorem reads_list {read : Reader α} {write : α → Bytes} {items : List α}
    (hlength : items.length < 2 ^ 64) (h : ∀ a ∈ items, Reads read (write a) a) :
    Reads (readList read) (writeList write items) items :=
  (reads64 hlength).bind (reads_items h)

theorem yields_list {read : Reader α} {P : α → Prop} (h : Yields read P) :
    Yields (readList read) fun items => items.length < 2 ^ 64 ∧ ∀ a ∈ items, P a :=
  .bind yields64 fun count hcount bytes items rest hitems => by
    obtain ⟨rfl, hall⟩ := yields_items h count bytes items rest hitems
    exact ⟨hcount, hall⟩

theorem reads_table {read : Reader α} {write : α → Bytes} {t : Table α}
    (hlength : t.entries.length < 2 ^ 64)
    (h : ∀ e ∈ t.entries, TextFits e.1 ∧ Reads read (write e.2) e.2) :
    Reads (readTable read) (writeTable write t) t := by
  have hentries : Reads (readList (readEntry read))
      (writeList (fun e => writeText e.1 ++ write e.2) t.entries) t.entries := by
    refine reads_list hlength fun e he => ?_
    have hread : Reads (readEntry read) (writeText e.1 ++ (write e.2 ++ [])) e :=
      .bind (reads_text (h e he).1) (.bind (h e he).2 (.pure _))
    rwa [List.append_nil] at hread
  have htable := hentries.map Table.ofList
  rw [Table.ofList_entries] at htable
  exact htable

theorem yields_table {read : Reader α} {P : α → Prop} (h : Yields read P) :
    Yields (readTable read) fun t =>
      t.entries.length < 2 ^ 64 ∧ ∀ e ∈ t.entries, TextFits e.1 ∧ P e.2 := by
  have hentry : Yields (readEntry read) fun e => TextFits e.1 ∧ P e.2 :=
    .bind yields_text fun key hkey => .bind h fun value hvalue => .pure ⟨hkey, hvalue⟩
  refine .map fun bytes entries rest hread => ?_
  obtain ⟨hlength, hall⟩ := yields_list hentry bytes entries rest hread
  exact ⟨Nat.lt_of_le_of_lt (Table.length_ofList_le entries) hlength,
    fun e he => hall e (Table.mem_ofList he)⟩

end RoomSync.Wire
