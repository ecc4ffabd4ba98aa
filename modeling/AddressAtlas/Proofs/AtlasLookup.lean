import AddressAtlas.Atlas.Basic
import AddressAtlas.Proofs.Ledger
import AddressAtlas.Proofs.TableLookup

/-!
# Lookups in an atlas

A record goes to one of two tables by both of its ends, and a key is looked up in one of them by itself
alone. For ranges that are not reversed the two rules agree as `Record.Serves` says: a range is found on
the side of `2 ^ 32` on which it ends.
-/

namespace AddressAtlas

open Ledger RangeTable

/-- A key lies in the range of a record and on the side of `2 ^ 32` on which the range ends. -/
def Record.Serves (r : Record) (key : Key .wide) : Prop :=
  r.start ≤ key ∧ key ≤ r.stop ∧ (r.stop.toNat ≤ 4294967295 ↔ key.toNat ≤ 4294967295)

instance (r : Record) (key : Key .wide) : Decidable (r.Serves key) :=
  inferInstanceAs (Decidable (_ ∧ _ ∧ (_ ↔ _)))

lemma Key.toNarrow?_eq_some_iff {key : Key .wide} {k : Key .narrow} :
    key.toNarrow? = some k ↔ k.toNat = key.toNat := by
  have hk : k.toNat < 4294967296 := k.isLt
  have hnarrow : ∀ n : Nat, n < 4294967296 → (BitVec.ofNat 32 n).toNat = n := fun n hn =>
    (BitVec.toNat_ofNat n 32).trans (Nat.mod_eq_of_lt hn)
  unfold Key.toNarrow?
  split
  · rename_i hlt
    rw [Option.some_inj]
    constructor
    · rintro rfl
      exact hnarrow _ hlt
    · intro h
      exact BitVec.eq_of_toNat_eq ((hnarrow _ hlt).trans h.symm)
  · constructor
    · intro h
      cases h
    · omega

lemma Key.toNarrow?_eq_none_iff {key : Key .wide} :
    key.toNarrow? = none ↔ 4294967296 ≤ key.toNat := by
  unfold Key.toNarrow?
  split
  · simp only [reduceCtorEq, false_iff]
    omega
  · simp only [true_iff]
    omega

lemma Place.country_unpack_pack (p : Place) : (Place.unpack p.pack).country = p.country := by
  have hfirst : p.bits.extractLsb' 5 5 = p.country.first := by
    unfold Place.bits
    rw [BitVec.extractLsb'_append_eq_of_le (by decide)]
    exact BitVec.extractLsb'_append_eq_right
  have hsecond : p.bits.extractLsb' 0 5 = p.country.second := by
    unfold Place.bits
    exact BitVec.extractLsb'_append_eq_right
  exact congrArg₂ Country.mk hfirst hsecond

lemma IpAddress.key_v6_setWidth (number : BitVec 32) :
    (IpAddress.v6 (number.setWidth 128)).key = number.setWidth 128 := by
  refine if_neg fun h => ?_
  have hnat := congrArg BitVec.toNat h
  have hlt := number.isLt
  rw [BitVec.extractLsb'_toNat, BitVec.toNat_setWidth, Nat.shiftRight_eq_div_pow,
    BitVec.toNat_ofNat] at hnat
  omega

lemma IpAddress.key_v6_mapped (number : BitVec 32) :
    (IpAddress.v6 (65535#96 ++ number)).key = number.setWidth 128 := by
  have hblock : (65535#96 ++ number).extractLsb' 32 96 = 65535#96 := BitVec.extractLsb'_append_eq_left
  have hnumber : (65535#96 ++ number).setWidth 32 = number := BitVec.setWidth_append_eq_right
  exact (if_pos hblock).trans (congrArg (BitVec.setWidth 128) hnumber)

lemma IpAddress.key_v6_of_unmapped {number : BitVec 128}
    (h : ¬(0xffff00000000 ≤ number.toNat ∧ number.toNat ≤ 0xffffffffffff)) :
    (IpAddress.v6 number).key = number := by
  refine if_neg fun hblock => ?_
  have hnat := congrArg BitVec.toNat hblock
  have hlt := number.isLt
  rw [BitVec.extractLsb'_toNat, Nat.shiftRight_eq_div_pow, BitVec.toNat_ofNat] at hnat
  omega

namespace Atlas

/-- The entry of a record in the narrow table, if it goes there. -/
def narrowPart? (r : Record) : Option (Entry .narrow) :=
  match r.start.toNarrow?, r.stop.toNarrow? with
  | some start, some stop => some ⟨start, stop, r.place.pack⟩
  | _, _ => none

/-- The entry of a record in the wide table, if it goes there. -/
def widePart? (r : Record) : Option (Entry .wide) :=
  if (narrowPart? r).isNone then some ⟨r.start, r.stop, r.place.pack⟩ else none

lemma narrowPart?_eq_some_iff {r : Record} {e : Entry .narrow} : narrowPart? r = some e ↔
    e.start.toNat = r.start.toNat ∧ e.stop.toNat = r.stop.toNat ∧ e.value = r.place.pack := by
  obtain ⟨start, stop, value⟩ := e
  rw [← Key.toNarrow?_eq_some_iff, ← Key.toNarrow?_eq_some_iff]
  unfold narrowPart?
  split
  · rename_i start' stop' hstart hstop
    simp only [hstart, hstop, Option.some.injEq, Entry.mk.injEq, eq_comm]
  · rename_i hne
    simp only [reduceCtorEq, false_iff]
    rintro ⟨hstart, hstop, -⟩
    exact hne start stop hstart hstop

lemma narrowPart?_eq_none_iff {r : Record} (hr : r.start ≤ r.stop) :
    narrowPart? r = none ↔ 4294967296 ≤ r.stop.toNat := by
  rw [BitVec.le_def] at hr
  unfold narrowPart?
  split
  · rename_i start stop hstart hstop
    have hlt : stop.toNat < 4294967296 := stop.isLt
    rw [Key.toNarrow?_eq_some_iff] at hstop
    simp only [reduceCtorEq, false_iff]
    omega
  · rename_i hne
    simp only [true_iff]
    by_contra hlt
    obtain ⟨start, hstart⟩ := Option.ne_none_iff_exists'.mp
      (mt Key.toNarrow?_eq_none_iff.mp (by omega : ¬4294967296 ≤ r.start.toNat))
    obtain ⟨stop, hstop⟩ := Option.ne_none_iff_exists'.mp (mt Key.toNarrow?_eq_none_iff.mp hlt)
    exact hne start stop hstart hstop

lemma widePart?_eq_some_iff {r : Record} (hr : r.start ≤ r.stop) {e : Entry .wide} :
    widePart? r = some e ↔ 4294967296 ≤ r.stop.toNat ∧ e = ⟨r.start, r.stop, r.place.pack⟩ := by
  rw [← narrowPart?_eq_none_iff hr]
  unfold widePart?
  rw [Option.ite_none_right_eq_some, Option.isNone_iff_eq_none, Option.some_inj, eq_comm (a := e)]

lemma serves_iff_narrowPart? {r : Record} {key : Key .wide} {k : Key .narrow}
    (hk : key.toNarrow? = some k) {v : Int32} :
    (∃ e, narrowPart? r = some e ∧ e.Contains k ∧ e.value = v) ↔ r.Serves key ∧ r.place.pack = v := by
  have hlt : k.toNat < 4294967296 := k.isLt
  rw [Key.toNarrow?_eq_some_iff] at hk
  unfold Record.Serves
  constructor
  · rintro ⟨e, he, ⟨hstart, hstop⟩, hv⟩
    have hle : e.stop.toNat < 4294967296 := e.stop.isLt
    obtain ⟨hestart, hestop, hevalue⟩ := narrowPart?_eq_some_iff.mp he
    rw [BitVec.le_def] at hstart hstop
    refine ⟨⟨?_, ?_, ?_⟩, hevalue.symm.trans hv⟩
    · rw [BitVec.le_def]
      omega
    · rw [BitVec.le_def]
      omega
    · omega
  · rintro ⟨⟨hstart, hstop, hside⟩, hv⟩
    rw [BitVec.le_def] at hstart hstop
    have hnone : narrowPart? r ≠ none := by
      rw [Ne, narrowPart?_eq_none_iff (BitVec.le_def.mpr (by omega))]
      omega
    obtain ⟨e, he⟩ := Option.ne_none_iff_exists'.mp hnone
    obtain ⟨hestart, hestop, hevalue⟩ := narrowPart?_eq_some_iff.mp he
    refine ⟨e, he, ⟨?_, ?_⟩, hevalue.trans hv⟩
    · rw [BitVec.le_def]
      omega
    · rw [BitVec.le_def]
      omega

lemma serves_iff_widePart? {r : Record} (hr : r.start ≤ r.stop) {key : Key .wide}
    (hk : key.toNarrow? = none) {v : Int32} :
    (∃ e, widePart? r = some e ∧ e.Contains key ∧ e.value = v) ↔ r.Serves key ∧ r.place.pack = v := by
  rw [Key.toNarrow?_eq_none_iff] at hk
  constructor
  · rintro ⟨e, he, ⟨hstart, hstop⟩, hv⟩
    obtain ⟨hwide, rfl⟩ := (widePart?_eq_some_iff hr).mp he
    exact ⟨⟨hstart, hstop, by omega⟩, hv⟩
  · rintro ⟨⟨hstart, hstop, hside⟩, hv⟩
    exact ⟨_, (widePart?_eq_some_iff hr).mpr ⟨by omega, rfl⟩, ⟨hstart, hstop⟩, hv⟩

lemma insert_of_narrow {a : Atlas} {r : Record} {e : Entry .narrow} (h : narrowPart? r = some e) :
    a.insert r = ((a.narrow.insert e).map fun t => { a with narrow := t }).mapFault
      .narrowOrdering := by
  obtain ⟨start, stop, value⟩ := e
  obtain ⟨hstart, hstop, rfl⟩ := narrowPart?_eq_some_iff.mp h
  rw [← Key.toNarrow?_eq_some_iff] at hstart hstop
  unfold insert
  rw [hstart, hstop]

lemma insert_of_wide {a : Atlas} {r : Record} {e : Entry .wide} (h : widePart? r = some e) :
    a.insert r = ((a.wide.insert e).map fun t => { a with wide := t }).mapFault .wideOrdering := by
  unfold widePart? at h
  rw [Option.ite_none_right_eq_some, Option.isNone_iff_eq_none] at h
  obtain ⟨hnone, he⟩ := h
  obtain rfl : (⟨r.start, r.stop, r.place.pack⟩ : Entry .wide) = e := Option.some.inj he
  unfold insert
  split
  · rename_i start stop hstart hstop
    rw [Key.toNarrow?_eq_some_iff] at hstart hstop
    have hsome : narrowPart? r = some ⟨start, stop, r.place.pack⟩ :=
      narrowPart?_eq_some_iff.mpr ⟨hstart, hstop, rfl⟩
    rw [hsome] at hnone
    cases hnone
  · rfl

lemma parts_cases (r : Record) :
    (∃ e, narrowPart? r = some e ∧ widePart? r = none) ∨
      ∃ e, widePart? r = some e ∧ narrowPart? r = none := by
  unfold widePart?
  cases h : narrowPart? r with
  | none => exact .inr ⟨_, rfl, rfl⟩
  | some e => exact .inl ⟨e, rfl, rfl⟩

/-- An atlas that is being filled, and the records that it has accepted. -/
structure Filling where
  atlas : Atlas
  accepted : List Record

namespace Filling

/-- Offers a record to the atlas. -/
def offer (s : Filling) (r : Record) : Filling where
  atlas := (s.atlas.insert r).state
  accepted := if (s.atlas.insert r).fault.isNone then s.accepted ++ [r] else s.accepted

/-- The tables of the atlas hold the parts of the accepted records. -/
structure Consistent (s : Filling) : Prop where
  narrow : s.atlas.narrow.entries = s.accepted.filterMap narrowPart?
  wide : s.atlas.wide.entries = s.accepted.filterMap widePart?

lemma offer_parts {w : Width} {t : RangeTable w} {part : Record → Option (Entry w)}
    {accepted : List Record} (h : t.entries = accepted.filterMap part) {r : Record} {e : Entry w}
    (he : part r = some e) : (t.insert e).state.entries =
      (if (t.insert e).fault.isNone then accepted ++ [r] else accepted).filterMap part := by
  by_cases hfollows : Follows t.entries e
  · obtain ⟨hfault, hentries⟩ := insert_of_follows hfollows
    rw [hfault, hentries, h, Option.isNone_none, if_pos rfl, List.filterMap_append]
    simp only [List.filterMap_cons, he, List.filterMap_nil]
  · have hsome : (t.insert e).fault.isNone = false := by
      rw [Option.isNone_eq_false_iff, Option.isSome_iff_ne_none, Ne, fault_insert_eq_none_iff_follows]
      exact hfollows
    rw [(insert_of_not_follows hfollows).2, hsome, if_neg (by decide), h]

lemma filterMap_ite_append {α β : Type} {f : α → Option β} {a : α} (ha : f a = none) (b : Bool)
    (l : List α) : (if b then l ++ [a] else l).filterMap f = l.filterMap f := by
  cases b with
  | false => rfl
  | true => simp [ha]

theorem Consistent.offer {s : Filling} (h : s.Consistent) (r : Record) : (s.offer r).Consistent := by
  unfold Filling.offer
  rcases parts_cases r with ⟨e, he, hnone⟩ | ⟨e, he, hnone⟩
  · rw [insert_of_narrow he]
    simp only [Outcome.mapFault, Outcome.map, Option.isNone_map]
    exact ⟨offer_parts h.narrow he, h.wide.trans (filterMap_ite_append hnone _ _).symm⟩
  · rw [insert_of_wide he]
    simp only [Outcome.mapFault, Outcome.map, Option.isNone_map]
    exact ⟨h.narrow.trans (filterMap_ite_append hnone _ _).symm, offer_parts h.wide he⟩

end Filling

/-- Offers records one by one to an empty atlas. -/
def fill (records : List Record) : Filling :=
  records.foldl Filling.offer ⟨.empty, []⟩

/-- However an atlas is filled, its tables hold the parts of the accepted records. -/
theorem consistent_fill (records : List Record) : (fill records).Consistent := by
  have hfold : ∀ s : Filling, s.Consistent → (records.foldl Filling.offer s).Consistent := by
    induction records with
    | nil => exact fun s hs => hs
    | cons r rest ih => exact fun s hs => ih (s.offer r) (hs.offer r)
  exact hfold ⟨.empty, []⟩ ⟨rfl, rfl⟩

lemma Filling.mem_offer {s : Filling} {r r' : Record} (h : r ∈ (s.offer r').accepted) :
    r ∈ s.accepted ∨ r = r' := by
  unfold Filling.offer at h
  simp only at h
  split at h
  · exact (List.mem_append.mp h).imp_right List.mem_singleton.mp
  · exact .inl h

lemma mem_of_mem_accepted {records : List Record} {r : Record} (h : r ∈ (fill records).accepted) :
    r ∈ records := by
  have hfold : ∀ s : Filling, r ∈ (records.foldl Filling.offer s).accepted →
      r ∈ s.accepted ∨ r ∈ records := by
    clear h
    induction records with
    | nil => exact fun s hs => .inl hs
    | cons r' rest ih =>
      intro s hs
      rcases ih (s.offer r') hs with hmem | hmem
      · rcases Filling.mem_offer hmem with hmem | rfl
        · exact .inl hmem
        · exact .inr List.mem_cons_self
      · exact .inr (List.mem_cons_of_mem r' hmem)
  rcases hfold _ h with hmem | hmem
  · cases hmem
  · exact hmem

lemma narrowPart?_proper {r : Record} (hr : r.start ≤ r.stop) {e : Entry .narrow}
    (he : narrowPart? r = some e) : e.start ≤ e.stop := by
  obtain ⟨hstart, hstop, -⟩ := narrowPart?_eq_some_iff.mp he
  rw [BitVec.le_def] at hr ⊢
  omega

lemma widePart?_proper {r : Record} (hr : r.start ≤ r.stop) {e : Entry .wide}
    (he : widePart? r = some e) : e.start ≤ e.stop := by
  obtain ⟨-, rfl⟩ := (widePart?_eq_some_iff hr).mp he
  exact hr

namespace Filling

section Part

variable {w : Width} {t : RangeTable w} {part : Record → Option (Entry w)} {accepted : List Record}
  {key : Key .wide} {k : Key w}

lemma proper_entries (h : t.entries = accepted.filterMap part)
    (hproper : ∀ r ∈ accepted, ∀ e, part r = some e → e.start ≤ e.stop) :
    ∀ e ∈ t.entries, e.start ≤ e.stop := by
  intro e he
  rw [h] at he
  obtain ⟨r, hr, hpart⟩ := List.mem_filterMap.mp he
  exact hproper r hr e hpart

lemma map_find?_eq_some_iff (h : t.entries = accepted.filterMap part)
    (hproper : ∀ r ∈ accepted, ∀ e, part r = some e → e.start ≤ e.stop)
    (hserves : ∀ r ∈ accepted, ∀ v,
      (∃ e, part r = some e ∧ e.Contains k ∧ e.value = v) ↔ r.Serves key ∧ r.place.pack = v)
    {p : Place} : (t.find? k).map Place.unpack = some p ↔
      ∃ r ∈ accepted, r.Serves key ∧ Place.unpack r.place.pack = p := by
  have hfind : ∀ v, t.find? k = some v ↔ ∃ r ∈ accepted, r.Serves key ∧ r.place.pack = v := by
    intro v
    rw [t.find?_eq_some_iff (proper_entries h hproper), h]
    constructor
    · rintro ⟨e, he, hkey, hv⟩
      obtain ⟨r, hr, hpart⟩ := List.mem_filterMap.mp he
      exact ⟨r, hr, (hserves r hr v).mp ⟨e, hpart, hkey, hv⟩⟩
    · rintro ⟨r, hr, hrecord⟩
      obtain ⟨e, hpart, hkey, hv⟩ := (hserves r hr v).mpr hrecord
      exact ⟨e, List.mem_filterMap.mpr ⟨r, hr, hpart⟩, hkey, hv⟩
  rw [Option.map_eq_some_iff]
  constructor
  · rintro ⟨v, hv, hp⟩
    obtain ⟨r, hr, hkey, rfl⟩ := (hfind v).mp hv
    exact ⟨r, hr, hkey, hp⟩
  · rintro ⟨r, hr, hkey, hp⟩
    exact ⟨r.place.pack, (hfind _).mpr ⟨r, hr, hkey, rfl⟩, hp⟩

lemma index_unique_part (h : t.entries = accepted.filterMap part)
    (hproper : ∀ r ∈ accepted, ∀ e, part r = some e → e.start ≤ e.stop)
    (hserves : ∀ r ∈ accepted, ∀ v,
      (∃ e, part r = some e ∧ e.Contains k ∧ e.value = v) ↔ r.Serves key ∧ r.place.pack = v)
    {i j : Nat} {r s : Record} (hr : accepted[i]? = some r) (hs : accepted[j]? = some s)
    (hrkey : r.Serves key) (hskey : s.Serves key) : i = j := by
  have hapart := t.ascending_entries.pairwise (proper_entries h hproper)
  rw [h, List.pairwise_filterMap] at hapart
  have hapart := List.pairwise_iff_getElem.mp hapart
  obtain ⟨a, ha, hakey, -⟩ := (hserves r (List.mem_of_getElem? hr) _).mpr ⟨hrkey, rfl⟩
  obtain ⟨b, hb, hbkey, -⟩ := (hserves s (List.mem_of_getElem? hs) _).mpr ⟨hskey, rfl⟩
  obtain ⟨hilt, rfl⟩ := List.getElem?_eq_some_iff.mp hr
  obtain ⟨hjlt, rfl⟩ := List.getElem?_eq_some_iff.mp hs
  rcases Nat.lt_trichotomy i j with hij | hij | hij
  · exact absurd hbkey (Entry.not_contains_of_stop_lt (hapart i j hilt hjlt hij a ha b hb) hakey)
  · exact hij
  · exact absurd hakey (Entry.not_contains_of_stop_lt (hapart j i hjlt hilt hij b hb a ha) hbkey)

end Part

variable {s : Filling} {key : Key .wide}

/-- A key is looked up among all accepted records. -/
theorem Consistent.findKey?_eq_some_iff (h : s.Consistent)
    (hproper : ∀ r ∈ s.accepted, r.start ≤ r.stop) {p : Place} : s.atlas.findKey? key = some p ↔
      ∃ r ∈ s.accepted, r.Serves key ∧ Place.unpack r.place.pack = p := by
  unfold findKey?
  cases hk : key.toNarrow? with
  | some k =>
    exact map_find?_eq_some_iff h.narrow (fun r hr e => narrowPart?_proper (hproper r hr))
      fun r hr v => serves_iff_narrowPart? hk
  | none =>
    exact map_find?_eq_some_iff h.wide (fun r hr e => widePart?_proper (hproper r hr))
      fun r hr v => serves_iff_widePart? (hproper r hr) hk

/-- A key is served by one accepted record at most. -/
theorem Consistent.index_unique (h : s.Consistent) (hproper : ∀ r ∈ s.accepted, r.start ≤ r.stop)
    {i j : Nat} {a b : Record} (ha : s.accepted[i]? = some a) (hb : s.accepted[j]? = some b)
    (hakey : a.Serves key) (hbkey : b.Serves key) : i = j := by
  cases hk : key.toNarrow? with
  | some k =>
    exact index_unique_part h.narrow (fun r hr e => narrowPart?_proper (hproper r hr))
      (fun r hr v => serves_iff_narrowPart? hk) ha hb hakey hbkey
  | none =>
    exact index_unique_part h.wide (fun r hr e => widePart?_proper (hproper r hr))
      (fun r hr v => serves_iff_widePart? (hproper r hr) hk) ha hb hakey hbkey

end Filling

/-- An atlas answers for every number and every address from the records that it has accepted. -/
structure Answers (a : Atlas) (accepted : List Record) : Prop where
  found : ∀ key, (a.findKey? key).isSome ↔ ∃ r ∈ accepted, r.Serves key
  unique : ∀ (key : Key .wide) (i j : Nat) (r s : Record), accepted[i]? = some r →
    accepted[j]? = some s → r.Serves key → s.Serves key → i = j
  place : ∀ r ∈ accepted, ∀ key, r.Serves key → a.findKey? key = some (Place.unpack r.place.pack)
  country : ∀ r ∈ accepted, ∀ key, r.Serves key →
    (a.findKey? key).map Place.country = some r.place.country
  v4 : ∀ number : BitVec 32, a.find? (.v4 number) = a.findKey? (number.setWidth 128)
  embedded : ∀ number : BitVec 32, a.find? (.v6 (number.setWidth 128)) = a.findKey? (number.setWidth 128)
  mapped : ∀ number : BitVec 32, a.find? (.v6 (65535#96 ++ number)) = a.findKey? (number.setWidth 128)
  unmapped : ∀ number : BitVec 128, ¬(0xffff00000000 ≤ number.toNat ∧ number.toNat ≤ 0xffffffffffff) →
    a.find? (.v6 number) = a.findKey? number

/-- However an atlas is filled with ranges that are not reversed, it answers from the records that it has
accepted: a range that reaches over `2 ^ 32` is found above only. -/
theorem answers_fill (records : List Record) (hproper : ∀ r ∈ records, r.start ≤ r.stop) :
    Answers (fill records).atlas (fill records).accepted := by
  have hconsistent := consistent_fill records
  have haccepted : ∀ r ∈ (fill records).accepted, r.start ≤ r.stop := fun r hr =>
    hproper r (mem_of_mem_accepted hr)
  have hplace : ∀ r ∈ (fill records).accepted, ∀ key, r.Serves key →
      (fill records).atlas.findKey? key = some (Place.unpack r.place.pack) := fun r hr key hserves =>
    (hconsistent.findKey?_eq_some_iff haccepted).mpr ⟨r, hr, hserves, rfl⟩
  exact {
    found := by
      intro key
      rw [Option.isSome_iff_exists]
      constructor
      · rintro ⟨p, hp⟩
        obtain ⟨r, hr, hserves, -⟩ := (hconsistent.findKey?_eq_some_iff haccepted).mp hp
        exact ⟨r, hr, hserves⟩
      · rintro ⟨r, hr, hserves⟩
        exact ⟨_, hplace r hr key hserves⟩
    unique := fun key i j r s hr hs => hconsistent.index_unique haccepted hr hs
    place := hplace
    country := by
      intro r hr key hserves
      rw [hplace r hr key hserves, Option.map_some, Place.country_unpack_pack]
    v4 := fun number => rfl
    embedded := fun number => congrArg _ (IpAddress.key_v6_setWidth number)
    mapped := fun number => congrArg _ (IpAddress.key_v6_mapped number)
    unmapped := fun number h => congrArg _ (IpAddress.key_v6_of_unmapped h) }

/-- A range on each side of `2 ^ 32`, one that reaches over it, one that is refused, and one of numbers
under which no address is looked up. -/
def borderRecords : List Record :=
  [⟨0, 10, ⟨⟨0, 20⟩, ⟨0.0, 0.0⟩⟩⟩, ⟨4294967285, 4294967305, ⟨⟨9, 15⟩, ⟨0.0, 0.0⟩⟩⟩,
    ⟨4294967290, 4294967295, ⟨⟨20, 18⟩, ⟨0.0, 0.0⟩⟩⟩, ⟨5, 7, ⟨⟨3, 4⟩, ⟨0.0, 0.0⟩⟩⟩,
    ⟨0xffff00000000, 0xffff000000ff, ⟨⟨5, 17⟩, ⟨0.0, 0.0⟩⟩⟩]

theorem borderRecords_lookups :
    (∀ r ∈ borderRecords, r.start ≤ r.stop) ∧
      ((fill borderRecords).atlas.findKey? 4294967288).isSome = false ∧
      ((fill borderRecords).atlas.findKey? 4294967300).map Place.country = some ⟨9, 15⟩ ∧
      ((fill borderRecords).atlas.find? (.v6 0xffff00000007)).map Place.country = some ⟨0, 20⟩ ∧
      ((fill borderRecords).atlas.findKey? 0xffff00000007).map Place.country = some ⟨5, 17⟩ := by
  have hproper : ∀ r ∈ borderRecords, r.start ≤ r.stop := by decide
  have hanswers := answers_fill borderRecords hproper
  have haccepted : (fill borderRecords).accepted = borderRecords.eraseIdx 3 := rfl
  rw [haccepted] at hanswers
  refine ⟨hproper, ?_, ?_, ?_, ?_⟩
  · rw [Bool.eq_false_iff, Ne, hanswers.found]
    decide
  · exact hanswers.country _ (List.mem_of_getElem? (i := 1) rfl) _ (by decide)
  · have hmapped := hanswers.mapped 7
    have hcountry := hanswers.country _ (List.mem_of_getElem? (i := 0) rfl) 7 (by decide)
    exact (congrArg (Option.map Place.country) hmapped).trans hcountry
  · exact hanswers.country _ (List.mem_of_getElem? (i := 3) rfl) _ (by decide)

end Atlas

end AddressAtlas
