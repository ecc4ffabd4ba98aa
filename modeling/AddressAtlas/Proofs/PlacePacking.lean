import AddressAtlas.Geo.Record
import AddressAtlas.Proofs.AtlasLookup
import AddressAtlas.Proofs.Quantisation

/-!
# Packed places

The four fields of a packed place lie side by side, so that each comes back by itself. Every pattern of
32 bits is the pack of the place it unpacks to; on the way a point moves to the start of its steps, and a
country stays as it is. Letters past `Z` take part like all others, they only belong to no accepted code.
-/

namespace AddressAtlas

namespace Country

/-- Both letters are among the 26 of the alphabet. -/
def Alphabetic (c : Country) : Prop :=
  c.first.toNat ≤ 25 ∧ c.second.toNat ≤ 25

instance (c : Country) : Decidable c.Alphabetic :=
  inferInstanceAs (Decidable (_ ∧ _))

lemma toNat_letterChar : ∀ l : Letter, (letterChar l).toNat = 'A'.toNat + l.toNat := by
  decide

lemma letterChar_inj {l m : Letter} (h : letterChar l = letterChar m) : l = m := by
  have hnat := congrArg Char.toNat h
  rw [toNat_letterChar, toNat_letterChar] at hnat
  exact BitVec.eq_of_toNat_eq (Nat.add_left_cancel hnat)

lemma letter?_eq_some_iff {c : Char} {l : Letter} :
    letter? c = some l ↔ c = letterChar l ∧ l.toNat ≤ 25 := by
  have hrange : 'A' ≤ c ∧ c ≤ 'Z' ↔ 65 ≤ c.toNat ∧ c.toNat ≤ 90 := Iff.rfl
  unfold letter?
  constructor
  · intro h
    split at h
    · rename_i hc
      rw [hrange] at hc
      have hl : (c.toNat - 65) % 2 ^ 5 = l.toNat := by
        rw [← Option.some.inj h]
        exact (BitVec.toNat_ofNat _ _).symm
      refine ⟨Char.toNat_inj.mp ?_, by omega⟩
      rw [toNat_letterChar]
      change c.toNat = 65 + l.toNat
      omega
    · cases h
  · rintro ⟨rfl, hl⟩
    have hnat : (letterChar l).toNat = 65 + l.toNat := toNat_letterChar l
    rw [if_pos (hrange.mpr (by omega)), toNat_letterChar, Nat.add_sub_cancel_left]
    rw [BitVec.ofNat_toNat, BitVec.setWidth_eq]

/-- The accepted codes are the texts of alphabetic countries. -/
lemma ofText?_eq_some_iff {code : String} {c : Country} :
    ofText? code = some c ↔ code = c.text ∧ c.Alphabetic := by
  unfold ofText?
  constructor
  · intro h
    split at h
    · rename_i a b hcode
      obtain ⟨first, hfirst, second, hsecond, rfl⟩ :
          ∃ first, letter? a = some first ∧ ∃ second, letter? b = some second ∧ ⟨first, second⟩ = c := by
        simpa [Option.bind_eq_some_iff] using h
      obtain ⟨ha, hfirst⟩ := letter?_eq_some_iff.mp hfirst
      obtain ⟨hb, hsecond⟩ := letter?_eq_some_iff.mp hsecond
      refine ⟨?_, hfirst, hsecond⟩
      rw [text, ← ha, ← hb, ← hcode, String.ofList_toList]
    · cases h
  · rintro ⟨rfl, hfirst, hsecond⟩
    rw [text, String.toList_ofList]
    simp [letter?_eq_some_iff.mpr ⟨rfl, hfirst⟩, letter?_eq_some_iff.mpr ⟨rfl, hsecond⟩]

lemma text_inj {c d : Country} (h : c.text = d.text) : c = d := by
  have hletters := List.cons_eq_cons.mp (String.ofList_inj.mp h)
  have hfirst := letterChar_inj hletters.1
  have hsecond := letterChar_inj (List.singleton_inj.mp hletters.2)
  cases c
  cases d
  exact congrArg₂ mk hfirst hsecond

lemma ofText?_text (c : Country) : ofText? c.text = if c.Alphabetic then some c else none := by
  split
  · rename_i halphabetic
    exact ofText?_eq_some_iff.mpr ⟨rfl, halphabetic⟩
  · rename_i halphabetic
    refine Option.eq_none_iff_forall_ne_some.mpr fun d hd => halphabetic ?_
    obtain ⟨htext, hd⟩ := ofText?_eq_some_iff.mp hd
    rwa [text_inj htext]

end Country

lemma Record.located_eq_ok_iff {code : String} {point : Point} {place : Place} :
    located code point = .ok place ↔
      code = place.country.text ∧ place.country.Alphabetic ∧ place.point = point := by
  unfold located
  split
  · rename_i c hc
    obtain ⟨hcode, hc⟩ := Country.ofText?_eq_some_iff.mp hc
    constructor
    · intro h
      cases h
      exact ⟨hcode, hc, rfl⟩
    · rintro ⟨hcode', -, rfl⟩
      rw [Country.text_inj (hcode.symm.trans hcode')]
  · rename_i hnone
    constructor
    · intro h
      cases h
    · rintro ⟨hcode, halphabetic, -⟩
      rw [Country.ofText?_eq_some_iff.mpr ⟨hcode, halphabetic⟩] at hnone
      cases hnone

namespace Place

open Binary64 Degrees

/-- The four fields of a pattern of 32 bits. -/
structure Fields where
  latitude : Step
  longitude : Step
  first : Letter
  second : Letter

def fields (packed : Int32) : Fields where
  latitude := packed.toBitVec.extractLsb' 21 11
  longitude := packed.toBitVec.extractLsb' 10 11
  first := packed.toBitVec.extractLsb' 5 5
  second := packed.toBitVec.extractLsb' 0 5

lemma fields_pack (p : Place) :
    fields p.pack =
      ⟨quantise p.point.latitude, quantise p.point.longitude, p.country.first, p.country.second⟩ := by
  have hlatitude : p.bits.extractLsb' 21 11 = quantise p.point.latitude := by
    unfold bits
    rw [BitVec.extractLsb'_append_eq_of_le (by decide), BitVec.extractLsb'_append_eq_of_le (by decide)]
    exact BitVec.extractLsb'_append_eq_left
  have hlongitude : p.bits.extractLsb' 10 11 = quantise p.point.longitude := by
    unfold bits
    rw [BitVec.extractLsb'_append_eq_of_le (by decide), BitVec.extractLsb'_append_eq_of_le (by decide)]
    exact BitVec.extractLsb'_append_eq_right
  have hcountry := country_unpack_pack p
  unfold fields
  congr 1
  · exact congrArg Country.first hcountry
  · exact congrArg Country.second hcountry

/-- The fields of a packed place as digits, none of them as large as its base. -/
lemma toNat_bits (p : Place) :
    p.bits.toNat =
      (quantise p.point.latitude).toNat * 2 ^ 21 + (quantise p.point.longitude).toNat * 2 ^ 10 +
        p.country.first.toNat * 2 ^ 5 + p.country.second.toNat := by
  have hlongitude := (quantise p.point.longitude).isLt
  have hfirst := p.country.first.isLt
  have hsecond := p.country.second.isLt
  unfold bits
  rw [BitVec.toNat_append, BitVec.toNat_append, BitVec.toNat_append]
  rw [← Nat.shiftLeft_add_eq_or_of_lt hlongitude, ← Nat.shiftLeft_add_eq_or_of_lt hfirst,
    ← Nat.shiftLeft_add_eq_or_of_lt hsecond]
  simp only [Nat.shiftLeft_eq]
  omega

lemma shiftLeft_or {k high low : ℕ} (hhigh : high * 2 ^ k < 2 ^ 32) (hlow : low < 2 ^ k) :
    high <<< k % 2 ^ 32 ||| low = high * 2 ^ k + low := by
  rw [Nat.shiftLeft_eq, Nat.mod_eq_of_lt hhigh, ← Nat.shiftLeft_eq]
  exact (Nat.shiftLeft_add_eq_or_of_lt hlow high).symm

/-- Packing by shifts, as no two fields share a bit. -/
lemma bits_eq_shifts (p : Place) :
    p.bits =
      ((quantise p.point.latitude).setWidth 32 <<< 11 ||| (quantise p.point.longitude).setWidth 32) <<< 10 |||
        (p.country.first.setWidth 32 <<< 5 ||| p.country.second.setWidth 32) := by
  have hlatitude := (quantise p.point.latitude).isLt
  have hlongitude := (quantise p.point.longitude).isLt
  have hfirst := p.country.first.isLt
  have hsecond := p.country.second.isLt
  apply BitVec.eq_of_toNat_eq
  rw [toNat_bits]
  simp only [BitVec.toNat_or, BitVec.toNat_shiftLeft, BitVec.toNat_setWidth]
  rw [Nat.mod_eq_of_lt (Nat.lt_trans hlatitude (by decide)),
    Nat.mod_eq_of_lt (Nat.lt_trans hlongitude (by decide)),
    Nat.mod_eq_of_lt (Nat.lt_trans hfirst (by decide)),
    Nat.mod_eq_of_lt (Nat.lt_trans hsecond (by decide))]
  rw [shiftLeft_or (by omega) hlongitude, shiftLeft_or (by omega) hsecond,
    shiftLeft_or (by omega) (by omega)]
  omega

lemma unpack_pack (p : Place) :
    unpack p.pack = ⟨p.country, ⟨restored p.point.latitude, restored p.point.longitude⟩⟩ := by
  have hfields := fields_pack p
  have hlatitude := congrArg Fields.latitude hfields
  have hlongitude := congrArg Fields.longitude hfields
  have hpoint : (unpack p.pack).point = ⟨restored p.point.latitude, restored p.point.longitude⟩ :=
    congrArg₂ Point.mk (congrArg ofStep hlatitude) (congrArg ofStep hlongitude)
  exact congrArg₂ Place.mk (country_unpack_pack p) hpoint

lemma append_fields (b : BitVec 32) :
    b.extractLsb' 21 11 ++ b.extractLsb' 10 11 ++ b.extractLsb' 5 5 ++ b.extractLsb' 0 5 = b := by
  have hpoint : b.extractLsb' 21 11 ++ b.extractLsb' 10 11 = b.extractLsb' 10 22 :=
    BitVec.extractLsb'_append_extractLsb'_eq_extractLsb' rfl
  have hletter : b.extractLsb' 10 22 ++ b.extractLsb' 5 5 = b.extractLsb' 5 27 :=
    BitVec.extractLsb'_append_extractLsb'_eq_extractLsb' rfl
  have hbits : b.extractLsb' 5 27 ++ b.extractLsb' 0 5 = b.extractLsb' 0 32 :=
    BitVec.extractLsb'_append_extractLsb'_eq_extractLsb' rfl
  rw [hpoint, hletter, hbits, BitVec.extractLsb'_eq_self]

lemma pack_unpack (packed : Int32) : (unpack packed).pack = packed := by
  have hbits : (unpack packed).bits = packed.toBitVec := by
    unfold bits unpack ofBits
    rw [quantise_ofStep, quantise_ofStep]
    exact append_fields packed.toBitVec
  rw [pack, hbits, Int32.ofBitVec_toBitVec]

lemma subtract_letters (c : Country) :
    c.text.toList.map Char.toNat = [c.first, c.second].map fun l => 'A'.toNat + l.toNat := by
  rw [Country.text, String.toList_ofList]
  simp only [List.map_cons, List.map_nil, Country.toNat_letterChar]

lemma located_unpack (packed : Int32) (point : Point) :
    Record.located (unpack packed).country.text point =
      if (fields packed).first.toNat ≤ 25 ∧ (fields packed).second.toNat ≤ 25 then
        .ok ⟨(unpack packed).country, point⟩
      else .error (.invalidCountry (unpack packed).country.text) := by
  have hcode := Country.ofText?_text (unpack packed).country
  unfold Record.located
  by_cases halphabetic : (unpack packed).country.Alphabetic
  · rw [hcode, if_pos halphabetic]
    exact (if_pos halphabetic).symm
  · rw [hcode, if_neg halphabetic]
    exact (if_neg halphabetic).symm

/-- What holds of all patterns of 32 bits and of the places they are packed from. -/
structure PatternsKept : Prop where
  stable : ∀ packed : Int32, (unpack packed).pack = packed
  injective : Function.Injective unpack
  accepted : ∀ (packed : Int32) (point : Point),
    Record.located (unpack packed).country.text point =
      if (fields packed).first.toNat ≤ 25 ∧ (fields packed).second.toNat ≤ 25 then
        .ok ⟨(unpack packed).country, point⟩
      else .error (.invalidCountry (unpack packed).country.text)
  /-- No letter of a place is below `A`, which packing takes away from it. -/
  letters : ∀ place : Place,
    place.country.text.toList.map Char.toNat =
      ['A'.toNat + place.country.first.toNat, 'A'.toNat + place.country.second.toNat]
  shifted : ∀ place : Place,
    place.pack.toBitVec =
      ((quantise place.point.latitude).setWidth 32 <<< 11 |||
          (quantise place.point.longitude).setWidth 32) <<< 10 |||
        (place.country.first.setWidth 32 <<< 5 ||| place.country.second.setWidth 32)
  /-- The fields are the digits of the pattern, so that none reaches into the next. -/
  digits : ∀ place : Place,
    place.pack.toBitVec.toNat =
      (quantise place.point.latitude).toNat * 2 ^ 21 + (quantise place.point.longitude).toNat * 2 ^ 10 +
        place.country.first.toNat * 2 ^ 5 + place.country.second.toNat
  separate : ∀ place : Place,
    fields place.pack =
      ⟨quantise place.point.latitude, quantise place.point.longitude, place.country.first,
        place.country.second⟩
  /-- Nothing is rounded between a step and its angle, in either direction. -/
  exact : ∀ step : Step, ∀ q ∈ intermediates step.toNat, Representable q
  angle : ∀ step : Step, Holds (ofStep step) (gridAngle step.toNat)
  back : ∀ step : Step, scaled (gridAngle step.toNat) = step.toNat

/-- Unpacking loses nothing of a pattern, whatever its letters are. -/
theorem pack_unpack_lossless : PatternsKept where
  stable := pack_unpack
  injective := Function.LeftInverse.injective pack_unpack
  accepted := located_unpack
  letters := fun place => subtract_letters place.country
  shifted := bits_eq_shifts
  digits := toNat_bits
  separate := fields_pack
  exact := fun step => representable_intermediates (Nat.le_of_lt step.isLt)
  angle := holds_ofStep
  back := fun step => scaled_gridAngle (Nat.le_of_lt step.isLt)

example : Country.ofText? (unpack (26 * 32 + 31)).country.text = none := by
  decide

/-- What is left of a place when it is packed. -/
structure PlacesKept : Prop where
  unpacked : ∀ place : Place,
    unpack place.pack =
      ⟨place.country, ⟨restored place.point.latitude, restored place.point.longitude⟩⟩
  codes : ∀ (code : String) (point : Point) (place : Place), Record.located code point = .ok place ↔
    code = place.country.text ∧ place.country.Alphabetic ∧ place.point = point
  accepted : ∀ (code : String) (point : Point) (place : Place), Record.located code point = .ok place →
    (unpack place.pack).country.text = code ∧
      (unpack place.pack).point = ⟨restored point.latitude, restored point.longitude⟩
  separate : ∀ place : Place,
    fields place.pack =
      ⟨quantise place.point.latitude, quantise place.point.longitude, place.country.first,
        place.country.second⟩
  near : ∀ degrees : Float, -180.0 ≤ degrees → degrees ≤ 180.0 →
    ∃ before after, Holds degrees before ∧ Holds (restored degrees) after ∧
      |after - before| ≤ 360 / 2048
  first : ∀ degrees : Float, degrees < -180.0 ∨ degrees.isNaN → quantise degrees = 0
  last : ∀ degrees : Float, 180.0 ≤ degrees → quantise degrees = 2047
  /-- The order of numbers leaves out what is none. -/
  monotone : ∀ degrees degrees' : Float, degrees ≤ degrees' → quantise degrees ≤ quantise degrees'

/-- Packing keeps the country of a place, and its point up to a step. -/
theorem unpack_pack_near : PlacesKept where
  unpacked := unpack_pack
  codes := fun _ _ _ => Record.located_eq_ok_iff
  accepted := by
    intro code point place h
    obtain ⟨hcode, -, rfl⟩ := Record.located_eq_ok_iff.mp h
    rw [unpack_pack]
    exact ⟨hcode.symm, rfl⟩
  separate := fields_pack
  near := fun _ => restored_near
  first := fun _ => quantise_eq_zero
  last := fun _ => quantise_eq_last
  monotone := fun _ _ => quantise_mono

end Place

end AddressAtlas
