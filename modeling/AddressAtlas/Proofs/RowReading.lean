import AddressAtlas.Proofs.AddressGrammar
import AddressAtlas.Proofs.CoordinateGrammar
import AddressAtlas.Proofs.PlacePacking

/-!
# Rows field by field

A row is judged by five of its fields. Whether the last two of them are there comes first, and whether
these are empty second; only then does each have to be what it stands for, the addresses before the
coordinates and these before the country.
-/

namespace AddressAtlas

/-- Two upper-case letters of ASCII. -/
def Country.IsCode (text : String) : Prop :=
  ∃ a b, text.toList = [a, b] ∧ a.isUpper ∧ b.isUpper

lemma Country.isSome_letter? (c : Char) : (letter? c).isSome ↔ c.isUpper := by
  have hupper : c.isUpper ↔ 'A' ≤ c ∧ c ≤ 'Z' := decide_eq_true_iff
  rw [hupper]
  unfold letter?
  by_cases h : 'A' ≤ c ∧ c ≤ 'Z'
  · simp [h]
  · simp [h]

lemma Country.isSome_ofText?_iff {text : String} : (ofText? text).isSome ↔ IsCode text := by
  unfold ofText? IsCode
  split
  · rename_i a b htext
    simp only [← isSome_letter?, htext, List.cons.injEq, and_true]
    cases ha : letter? a with
    | none => simp [ha]
    | some first =>
      cases hb : letter? b with
      | none => simp [ha, hb]
      | some second => simp [ha, hb]
  · rename_i hother
    refine iff_of_false Bool.false_ne_true ?_
    rintro ⟨a, b, htext, -⟩
    exact hother a b htext

lemma Country.isCode_iff {text : String} : IsCode text ↔ ∃ c : Country, text = c.text ∧ c.Alphabetic := by
  simp only [← isSome_ofText?_iff, Option.isSome_iff_exists, ofText?_eq_some_iff]

lemma bind_eq_error_iff {ε α β : Type} {x : Except ε α} {f : α → Except ε β} {e : ε} :
    x >>= f = .error e ↔ x = .error e ∨ ∃ a, x = .ok a ∧ f a = .error e := by
  cases x with
  | error e' => simp [bind, Except.bind]
  | ok a => simp [bind, Except.bind]

namespace Record

open Binary64 IpAddress

/-- The texts of the fields that are read. -/
structure Texts where
  start : String
  stop : String
  country : String
  latitude : String
  longitude : String

structure Texts.AreOf (t : Texts) (fields : List String) : Prop where
  start : fields[startField]? = some t.start
  stop : fields[stopField]? = some t.stop
  country : fields[countryField]? = some t.country
  latitude : fields[latitudeField]? = some t.latitude
  longitude : fields[longitudeField]? = some t.longitude

/-- A coordinate is empty. -/
def Texts.Unlocated (t : Texts) : Prop :=
  t.latitude = "" ∨ t.longitude = ""

instance : DecidablePred Texts.Unlocated := fun _ =>
  inferInstanceAs (Decidable (_ ∨ _))

/-- Each text is what it stands for. -/
structure Texts.WellFormed (t : Texts) : Prop where
  start : IsAddress t.start.toList
  stop : IsAddress t.stop.toList
  latitude : IsFloat t.latitude.toList
  longitude : IsFloat t.longitude.toList
  country : Country.IsCode t.country

/-- The text is no decimal number, for the given reason. -/
def NoFloat (text : List Char) : CoordinateFault → Prop
  | .empty => text = []
  | .invalid => text ≠ [] ∧ ¬IsFloat text

/-- What is wrong first, when all before it is well formed. -/
inductive Texts.Faulty (t : Texts) : GeoFault → Prop
  | start {cause : AddressFault} (h : Refused t.start.toList cause) : t.Faulty (.invalidAddress cause)
  | stop {cause : AddressFault} (hstart : IsAddress t.start.toList) (h : Refused t.stop.toList cause) :
      t.Faulty (.invalidAddress cause)
  | latitude (hstart : IsAddress t.start.toList) (hstop : IsAddress t.stop.toList)
      {cause : CoordinateFault} (h : NoFloat t.latitude.toList cause) : t.Faulty (.invalidCoordinate cause)
  | longitude (hstart : IsAddress t.start.toList) (hstop : IsAddress t.stop.toList)
      (hlatitude : IsFloat t.latitude.toList) {cause : CoordinateFault} (h : NoFloat t.longitude.toList cause) :
      t.Faulty (.invalidCoordinate cause)
  | country (hstart : IsAddress t.start.toList) (hstop : IsAddress t.stop.toList)
      (hlatitude : IsFloat t.latitude.toList) (hlongitude : IsFloat t.longitude.toList)
      (h : ¬Country.IsCode t.country) : t.Faulty (.invalidCountry t.country)

/-- The record is the one that the texts describe. -/
structure Texts.Describes (t : Texts) (r : Record) : Prop where
  start : SpellsNumber r.start.toNat t.start.toList
  stop : SpellsNumber r.stop.toNat t.stop.toList
  latitude : parse? t.latitude.toList = some r.place.point.latitude
  longitude : parse? t.longitude.toList = some r.place.point.longitude
  country : r.place.country.text = t.country

/-- Reads the texts of a row with coordinates. -/
def Texts.read (t : Texts) : Except GeoFault Record := do
  let start ← (parseNumber t.start.toList).mapError .invalidAddress
  let stop ← (parseNumber t.stop.toList).mapError .invalidAddress
  let latitude ← coordinate t.latitude
  let longitude ← coordinate t.longitude
  let place ← located t.country ⟨latitude, longitude⟩
  return ⟨start, stop, place⟩

variable {fields : List String} {t : Texts} {r : Record} {fault : GeoFault}

lemma exists_areOf (h : 9 ≤ fields.length) : ∃ t : Texts, t.AreOf fields := by
  have hget (i : ℕ) (hi : i < 9) : ∃ text, fields[i]? = some text :=
    ⟨fields[i], List.getElem?_eq_getElem (by omega)⟩
  obtain ⟨start, hstart⟩ := hget startField (by decide)
  obtain ⟨stop, hstop⟩ := hget stopField (by decide)
  obtain ⟨country, hcountry⟩ := hget countryField (by decide)
  obtain ⟨latitude, hlatitude⟩ := hget latitudeField (by decide)
  obtain ⟨longitude, hlongitude⟩ := hget longitudeField (by decide)
  exact ⟨⟨start, stop, country, latitude, longitude⟩, hstart, hstop, hcountry, hlatitude, hlongitude⟩

lemma field_eq {i : ℕ} {text : String} (h : fields[i]? = some text) : field fields i = .ok text := by
  unfold field
  rw [h]

lemma address_eq {i : ℕ} {text : String} (h : fields[i]? = some text) :
    address fields i = (parseNumber text.toList).mapError .invalidAddress := by
  unfold address
  rw [field_eq h]
  rfl

lemma ofFields_eq (h : t.AreOf fields) :
    ofFields fields = if t.Unlocated then .ok none else t.read.map some := by
  have hok {α : Type} (text : String) (f : String → Except GeoFault α) :
      ((.ok text : Except GeoFault String) >>= f) = f text := rfl
  have hmap : t.read.map some = some <$> t.read := rfl
  unfold ofFields
  rw [field_eq h.latitude, field_eq h.longitude, address_eq h.start, address_eq h.stop, field_eq h.country]
  simp only [hok]
  by_cases hempty : t.latitude = "" ∨ t.longitude = ""
  · rw [if_pos (by simpa using hempty)]
    exact (if_pos hempty).symm
  · rw [if_neg (by simpa using hempty)]
    refine Eq.trans ?_ (if_neg hempty).symm
    rw [hmap]
    unfold Texts.read
    simp only [map_bind, map_pure]

lemma mapError_parseNumber_eq_ok_iff {text : List Char} {k : Key .wide} :
    (parseNumber text).mapError GeoFault.invalidAddress = .ok k ↔ SpellsNumber k.toNat text := by
  rw [← parseNumber_eq_ok_iff]
  cases parseNumber text with
  | error cause => simp [Except.mapError]
  | ok k' => simp [Except.mapError]

lemma mapError_parseNumber_eq_error_iff {text : List Char} :
    (parseNumber text).mapError GeoFault.invalidAddress = .error fault ↔
      ∃ cause, Refused text cause ∧ .invalidAddress cause = fault := by
  simp only [← parseNumber_eq_error_iff]
  cases parseNumber text with
  | error cause => simp [Except.mapError]
  | ok k => simp [Except.mapError]

lemma coordinate_eq_ok_iff {text : String} {x : Float} :
    coordinate text = .ok x ↔ parse? text.toList = some x := by
  unfold coordinate
  cases parse? text.toList with
  | none => simp
  | some y => simp

lemma noFloat_iff {text : String} {cause : CoordinateFault} : NoFloat text.toList cause ↔
    parse? text.toList = none ∧ (if text.isEmpty then .empty else .invalid) = cause := by
  by_cases htext : text = ""
  · subst htext
    cases cause with
    | empty => exact iff_of_true rfl ⟨rfl, rfl⟩
    | invalid => exact iff_of_false (fun h => h.1 rfl) (by simp)
  · have hlist : text.toList ≠ [] := by simpa using htext
    have hempty : text.isEmpty = false := by simpa using htext
    rw [hempty, if_neg (by decide), ← Option.not_isSome_iff_eq_none, isSome_parse?_iff]
    cases cause with
    | empty => exact iff_of_false hlist (by simp)
    | invalid => exact ⟨fun h => ⟨h.2, rfl⟩, fun h => ⟨hlist, h.1⟩⟩

lemma coordinate_eq_error_iff {text : String} :
    coordinate text = .error fault ↔ ∃ cause, NoFloat text.toList cause ∧ .invalidCoordinate cause = fault := by
  simp only [noFloat_iff]
  unfold coordinate
  cases parse? text.toList with
  | none => simp
  | some y => simp

lemma located_eq_error_iff {code : String} {point : Point} :
    located code point = .error fault ↔ ¬Country.IsCode code ∧ .invalidCountry code = fault := by
  rw [← Country.isSome_ofText?_iff]
  unfold located
  cases Country.ofText? code with
  | none => simp
  | some c => simp

lemma exists_parse?_iff {text : List Char} : (∃ x, parse? text = some x) ↔ IsFloat text := by
  rw [← isSome_parse?_iff, Option.isSome_iff_exists]

/-- A row is read as a record exactly if all its texts are well formed and describe it. -/
lemma Texts.read_eq_ok_iff : t.read = .ok r ↔ t.WellFormed ∧ t.Describes r := by
  unfold read
  simp only [Json.bind_eq_ok, mapError_parseNumber_eq_ok_iff, coordinate_eq_ok_iff, located_eq_ok_iff]
  constructor
  · rintro ⟨start, hstart, stop, hstop, latitude, hlatitude, longitude, hlongitude, place, hplace, heq⟩
    obtain ⟨hcode, halphabetic, hpoint⟩ := hplace
    cases heq
    constructor
    · exact
        { start := SpellsNumber.isAddress hstart
          stop := SpellsNumber.isAddress hstop
          latitude := exists_parse?_iff.mp ⟨latitude, hlatitude⟩
          longitude := exists_parse?_iff.mp ⟨longitude, hlongitude⟩
          country := Country.isCode_iff.mpr ⟨place.country, hcode, halphabetic⟩ }
    · exact
        { start := hstart
          stop := hstop
          latitude := hpoint ▸ hlatitude
          longitude := hpoint ▸ hlongitude
          country := hcode.symm }
  · rintro ⟨hwell, hr⟩
    obtain ⟨c, hcode, halphabetic⟩ := Country.isCode_iff.mp hwell.country
    obtain rfl : c = r.place.country := Country.text_inj (hcode.symm.trans hr.country.symm)
    exact ⟨r.start, hr.start, r.stop, hr.stop, _, hr.latitude, _, hr.longitude, r.place,
      ⟨hcode, halphabetic, rfl⟩, rfl⟩

lemma Texts.exists_read_iff : (∃ r, t.read = .ok r) ↔ t.WellFormed := by
  simp only [read_eq_ok_iff, exists_and_left]
  constructor
  · rintro ⟨hwell, -⟩
    exact hwell
  · intro hwell
    obtain ⟨start, hstart⟩ := hwell.start.exists_spellsNumber
    obtain ⟨stop, hstop⟩ := hwell.stop.exists_spellsNumber
    obtain ⟨latitude, hlatitude⟩ := exists_parse?_iff.mpr hwell.latitude
    obtain ⟨longitude, hlongitude⟩ := exists_parse?_iff.mpr hwell.longitude
    obtain ⟨c, hcode, -⟩ := Country.isCode_iff.mp hwell.country
    exact ⟨hwell, ⟨start, stop, ⟨c, ⟨latitude, longitude⟩⟩⟩, hstart, hstop, hlatitude, hlongitude,
      hcode.symm⟩

lemma Texts.read_eq_error_iff : t.read = .error fault ↔ t.Faulty fault := by
  unfold read
  simp only [bind_eq_error_iff, mapError_parseNumber_eq_ok_iff, mapError_parseNumber_eq_error_iff,
    coordinate_eq_ok_iff, coordinate_eq_error_iff, located_eq_error_iff]
  constructor
  · rintro (⟨cause, h, rfl⟩ | ⟨start, hstart, h⟩)
    · exact Faulty.start h
    have hstart := SpellsNumber.isAddress hstart
    obtain ⟨cause, h, rfl⟩ | ⟨stop, hstop, h⟩ := h
    · exact Faulty.stop hstart h
    have hstop := SpellsNumber.isAddress hstop
    obtain ⟨cause, h, rfl⟩ | ⟨latitude, hlatitude, h⟩ := h
    · exact Faulty.latitude hstart hstop h
    have hlatitude := exists_parse?_iff.mp ⟨latitude, hlatitude⟩
    obtain ⟨cause, h, rfl⟩ | ⟨longitude, hlongitude, h⟩ := h
    · exact Faulty.longitude hstart hstop hlatitude h
    have hlongitude := exists_parse?_iff.mp ⟨longitude, hlongitude⟩
    obtain ⟨h, rfl⟩ | ⟨place, -, h⟩ := h
    · exact Faulty.country hstart hstop hlatitude hlongitude h
    · cases h
  · intro h
    cases h with
    | start h => exact Or.inl ⟨_, h, rfl⟩
    | stop hstart h =>
      obtain ⟨start, hstart⟩ := hstart.exists_spellsNumber
      exact Or.inr ⟨start, hstart, Or.inl ⟨_, h, rfl⟩⟩
    | latitude hstart hstop h =>
      obtain ⟨start, hstart⟩ := hstart.exists_spellsNumber
      obtain ⟨stop, hstop⟩ := hstop.exists_spellsNumber
      exact Or.inr ⟨start, hstart, Or.inr ⟨stop, hstop, Or.inl ⟨_, h, rfl⟩⟩⟩
    | longitude hstart hstop hlatitude h =>
      obtain ⟨start, hstart⟩ := hstart.exists_spellsNumber
      obtain ⟨stop, hstop⟩ := hstop.exists_spellsNumber
      obtain ⟨latitude, hlatitude⟩ := exists_parse?_iff.mpr hlatitude
      exact Or.inr ⟨start, hstart, Or.inr ⟨stop, hstop, Or.inr ⟨latitude, hlatitude, Or.inl ⟨_, h, rfl⟩⟩⟩⟩
    | country hstart hstop hlatitude hlongitude h =>
      obtain ⟨start, hstart⟩ := hstart.exists_spellsNumber
      obtain ⟨stop, hstop⟩ := hstop.exists_spellsNumber
      obtain ⟨latitude, hlatitude⟩ := exists_parse?_iff.mpr hlatitude
      obtain ⟨longitude, hlongitude⟩ := exists_parse?_iff.mpr hlongitude
      exact Or.inr ⟨start, hstart, Or.inr ⟨stop, hstop, Or.inr ⟨latitude, hlatitude,
        Or.inr ⟨longitude, hlongitude, Or.inl ⟨h, rfl⟩⟩⟩⟩⟩

lemma field_congr {fields' : List String} {i : ℕ} (h : fields[i]? = fields'[i]?) :
    field fields i = field fields' i := by
  unfold field
  rw [h]

lemma ofFields_congr {fields' : List String} (h : ∀ i ∈ [0, 1, 2, 7, 8], fields[i]? = fields'[i]?) :
    ofFields fields = ofFields fields' := by
  have hfield (i : ℕ) (hi : i ∈ [0, 1, 2, 7, 8]) : field fields i = field fields' i := field_congr (h i hi)
  unfold ofFields address
  rw [hfield latitudeField (by decide), hfield longitudeField (by decide), hfield startField (by decide),
    hfield stopField (by decide), hfield countryField (by decide)]

lemma field_of_length_le {i : ℕ} (h : fields.length ≤ i) : field fields i = .error (.missingField i) := by
  unfold field
  rw [List.getElem?_eq_none h]

lemma ofFields_of_length_le (h : fields.length ≤ 7) : ofFields fields = .error (.missingField 7) := by
  have hlatitude : field fields latitudeField = .error (.missingField 7) := field_of_length_le h
  unfold ofFields
  rw [hlatitude]
  rfl

lemma ofFields_of_length_eq (h : fields.length = 8) : ofFields fields = .error (.missingField 8) := by
  have hget : fields[7]? = some fields[7] := List.getElem?_eq_getElem (by omega)
  have hlatitude : field fields latitudeField = .ok fields[7] := field_eq hget
  have hlongitude : field fields longitudeField = .error (.missingField 8) := field_of_length_le h.le
  unfold ofFields
  rw [hlatitude, hlongitude]
  rfl

/-- What becomes of a row, by the texts of five fields. -/
structure RowsJudged : Prop where
  framed : ∀ fields fields' : List String, (∀ i ∈ [0, 1, 2, 7, 8], fields[i]? = fields'[i]?) →
    ofFields fields = ofFields fields'
  short : ∀ fields : List String, fields.length ≤ 7 → ofFields fields = .error (.missingField 7)
  oneShort : ∀ fields : List String, fields.length = 8 → ofFields fields = .error (.missingField 8)
  long : ∀ fields : List String, 9 ≤ fields.length → ∃ t : Texts, t.AreOf fields
  skipped : ∀ (fields : List String) (t : Texts), t.AreOf fields →
    (ofFields fields = .ok none ↔ t.Unlocated)
  faulty : ∀ (fields : List String) (t : Texts), t.AreOf fields → ¬t.Unlocated →
    ∀ fault, ofFields fields = .error fault ↔ t.Faulty fault
  recorded : ∀ (fields : List String) (t : Texts), t.AreOf fields → ¬t.Unlocated →
    ((∃ r, ofFields fields = .ok (some r)) ↔ t.WellFormed)
  described : ∀ (fields : List String) (t : Texts), t.AreOf fields →
    ∀ r, ofFields fields = .ok (some r) → t.Describes r

/-- A row is missing a field, passed over, faulty by its first bad text, or the record it describes. -/
theorem ofFields_judged : RowsJudged where
  framed := fun _ _ => ofFields_congr
  short := fun _ => ofFields_of_length_le
  oneShort := fun _ => ofFields_of_length_eq
  long := fun _ => exists_areOf
  skipped := by
    intro fields t h
    rw [ofFields_eq h]
    by_cases hempty : t.Unlocated
    · simp [hempty]
    · rw [if_neg hempty]
      cases t.read with
      | error fault => simp [Except.map, hempty]
      | ok r => simp [Except.map, hempty]
  faulty := by
    intro fields t h hlocated fault
    rw [ofFields_eq h, if_neg hlocated, map_eq_error_iff, Texts.read_eq_error_iff]
  recorded := by
    intro fields t h hlocated
    rw [ofFields_eq h, if_neg hlocated, ← Texts.exists_read_iff]
    cases t.read with
    | error fault => simp [Except.map]
    | ok r => simp [Except.map]
  described := by
    intro fields t h r hr
    rw [ofFields_eq h] at hr
    by_cases hempty : t.Unlocated
    · simp [hempty] at hr
    · rw [if_neg hempty] at hr
      have hread : t.read = .ok r := by
        cases hread : t.read with
        | error fault => simp [hread, Except.map] at hr
        | ok r' => simpa [hread, Except.map] using hr
      exact (Texts.read_eq_ok_iff.mp hread).2

end Record

end AddressAtlas
