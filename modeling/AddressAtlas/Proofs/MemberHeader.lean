import AddressAtlas.Gzip.Member
import AddressAtlas.Json.Basic
import Mathlib.Data.List.TakeWhile
import Mathlib.Tactic.Common

/-!
# Headers of members

A `Header` has the mark of the format, the method, six bytes that are passed over, and the parts that its
flags name, each of them complete and its checksum right. Reading a file gets past the header exactly if
there is such a header in front and neither its name nor its comment is too long; the format itself sets no
limit to these.
-/

namespace AddressAtlas.Gzip

variable {n : Nat}

/-- A number in two bytes, the low one first. -/
def IsShort (n : Nat) (bytes : List UInt8) : Prop :=
  ∃ a b, bytes = [a, b] ∧ littleEndian a b = n

/-- A number in four bytes, the lowest first. -/
def IsLong (n : Nat) (bytes : List UInt8) : Prop :=
  ∃ a b c d, bytes = [a, b, c, d] ∧ littleEndian32 a b c d = n

/-- Bytes behind the number of them. -/
def IsExtra (bytes : List UInt8) : Prop :=
  ∃ length more, bytes = length ++ more ∧ IsShort more.length length

/-- A text and the zero byte behind it. -/
def IsText (bytes : List UInt8) : Prop :=
  ∃ text, bytes = text ++ [0] ∧ ∀ b ∈ text, b ≠ 0

/-- The low half of the checksum of what stands in front. -/
def IsHeaderCrc (front bytes : List UInt8) : Prop :=
  IsShort ((crc32 front).toNat % 65536) bytes

/-- What is there only if a flag is set. -/
def Part (given : Bool) (field : List UInt8 → Prop) (bytes : List UInt8) : Prop :=
  if given then field bytes else bytes = []

lemma Part.absent {field : List UInt8 → Prop} : Part false field [] :=
  rfl

/-- What stands in front of the deflated data of a member. -/
structure Header where
  flags : UInt8
  /-- Time and origin. -/
  origin : List UInt8
  extra : List UInt8
  name : List UInt8
  comment : List UInt8
  checksum : List UInt8
  flags_lt : flags.toNat < 32
  length_origin : origin.length = 6
  isExtra : Part (flags.toNat.testBit 2) IsExtra extra
  isName : Part (flags.toNat.testBit 3) IsText name
  isComment : Part (flags.toNat.testBit 4) IsText comment
  isChecksum : Part (flags.toNat.testBit 1)
    (IsHeaderCrc (31 :: 139 :: 8 :: flags :: (origin ++ (extra ++ (name ++ comment))))) checksum

def Header.bytes (h : Header) : List UInt8 :=
  31 :: 139 :: 8 :: h.flags :: (h.origin ++ (h.extra ++ (h.name ++ (h.comment ++ h.checksum))))

/-- Name and comment are not too long to be read, each without the zero byte behind it. -/
def Header.Readable (h : Header) : Prop :=
  h.name.length ≤ longestText + 1 ∧ h.comment.length ≤ longestText + 1

instance : DecidablePred Header.Readable := fun _ =>
  inferInstanceAs (Decidable (_ ∧ _))

/-- No part at all, and zeros for time and origin. -/
def Header.bare : Header where
  flags := 0
  origin := [0, 0, 0, 0, 0, 0]
  extra := []
  name := []
  comment := []
  checksum := []
  flags_lt := by decide
  length_origin := rfl
  isExtra := .absent
  isName := .absent
  isComment := .absent
  isChecksum := .absent

variable {flags : UInt8} {given : Bool} {field : List UInt8 → Prop} {part bytes rest front file : List UInt8}
  {skip : List UInt8 → Except Fault (List UInt8)} {passed : Except Fault (List UInt8)}

lemma Part.skip_append (h : Part given field part) (hskip : field part → skip (part ++ rest) = passed)
    (habsent : part = [] → passed = .ok rest) :
    (if given then skip (part ++ rest) else .ok (part ++ rest)) = passed := by
  cases given with
  | true => exact hskip h
  | false =>
    obtain rfl : part = [] := h
    exact (habsent rfl).symm

lemma exists_part (hskip : skip bytes = .ok rest → ∃ part, bytes = part ++ rest ∧ field part)
    (h : (if given then skip bytes else .ok bytes) = .ok rest) :
    ∃ part, bytes = part ++ rest ∧ Part given field part := by
  cases given with
  | true => exact hskip h
  | false => exact ⟨[], Except.ok.inj h, rfl⟩

lemma skipExtra_append (h : IsExtra part) (rest : List UInt8) : skipExtra (part ++ rest) = .ok rest := by
  obtain ⟨length, more, rfl, a, b, rfl, hlength⟩ := h
  have henough : ¬(more ++ rest).length < littleEndian a b := by
    rw [hlength, List.length_append]
    omega
  change skipExtra (a :: b :: (more ++ rest)) = .ok rest
  rw [skipExtra, if_neg henough, hlength, List.drop_left]

lemma exists_extra (h : skipExtra bytes = .ok rest) : ∃ part, bytes = part ++ rest ∧ IsExtra part := by
  match bytes, h with
  | a :: b :: tail, h =>
    rw [skipExtra] at h
    split at h
    · cases h
    · rename_i hlength
      obtain rfl := Except.ok.inj h
      refine ⟨a :: b :: tail.take (littleEndian a b), by simp, [a, b], _, rfl, a, b, rfl, ?_⟩
      rw [List.length_take, Nat.min_eq_left (Nat.not_lt.mp hlength)]

lemma skipText_append (h : IsText part) (rest : List UInt8) :
    skipText (part ++ rest) = if part.length ≤ longestText + 1 then .ok rest else .error .longText := by
  obtain ⟨text, rfl, htext⟩ := h
  have htake : (text ++ [0] ++ rest).takeWhile (· != 0) = text := by
    rw [List.append_assoc, List.takeWhile_append_of_pos fun b hb => by simpa using htext b hb]
    exact List.append_nil text
  have hdrop : (text ++ [0] ++ rest).dropWhile (· != 0) = 0 :: rest := by
    rw [List.append_assoc, List.dropWhile_append_of_pos fun b hb => by simpa using htext b hb]
    rfl
  rw [skipText, htake, hdrop, List.length_append, List.length_singleton]
  by_cases hlong : longestText < text.length
  · rw [if_pos hlong, if_neg (by omega)]
  · rw [if_neg hlong, if_pos (by omega)]

lemma exists_text (h : skipText bytes = .ok rest) : ∃ part, bytes = part ++ rest ∧ IsText part := by
  have hbytes := List.takeWhile_append_dropWhile (p := (· != 0)) (l := bytes)
  have hhead := List.head?_dropWhile_not (· != 0) bytes
  unfold skipText at h
  split at h
  · cases h
  · split at h
    · cases h
    · rename_i zero tail htail
      rw [htail] at hbytes hhead
      obtain rfl := Except.ok.inj h
      obtain rfl : zero = 0 := by simpa using hhead
      refine ⟨bytes.takeWhile (· != 0) ++ [0], ?_, bytes.takeWhile (· != 0), rfl, ?_⟩
      · rw [List.append_assoc, List.singleton_append, hbytes]
      · intro b hb
        simpa using List.mem_takeWhile_imp hb

lemma take_length_sub_length (front bytes : List UInt8) :
    (front ++ bytes).take ((front ++ bytes).length - bytes.length) = front := by
  rw [List.length_append, Nat.add_sub_cancel, List.take_left]

lemma skipHeaderCrc_append (h : IsHeaderCrc front part) (rest : List UInt8) :
    skipHeaderCrc (front ++ (part ++ rest)) (part ++ rest) = .ok rest := by
  obtain ⟨a, b, rfl, hcrc⟩ := h
  unfold skipHeaderCrc
  rw [take_length_sub_length]
  exact if_pos hcrc.symm

lemma exists_headerCrc (h : skipHeaderCrc (front ++ bytes) bytes = .ok rest) :
    ∃ part, bytes = part ++ rest ∧ IsHeaderCrc front part := by
  unfold skipHeaderCrc at h
  rw [take_length_sub_length] at h
  match bytes, h with
  | a :: b :: tail, h =>
    simp only at h
    split at h
    · rename_i hcrc
      obtain rfl := Except.ok.inj h
      exact ⟨[a, b], rfl, a, b, rfl, hcrc.symm⟩
    · cases h

lemma skipParts_eq (file : List UInt8) (flags : UInt8) (bytes : List UInt8) : skipParts file flags bytes =
    (if flags.toNat.testBit 2 then skipExtra bytes else .ok bytes) >>= fun bytes =>
    (if flags.toNat.testBit 3 then skipText bytes else .ok bytes) >>= fun bytes =>
    (if flags.toNat.testBit 4 then skipText bytes else .ok bytes) >>= fun bytes =>
    if flags.toNat.testBit 1 then skipHeaderCrc file bytes else .ok bytes := by
  -- What follows a part stands in both branches of the choice whether to skip it.
  simp only [skipParts]
  cases flags.toNat.testBit 2 <;> cases flags.toNat.testBit 3 <;> cases flags.toNat.testBit 4 <;> rfl

lemma Header.skipParts_eq (h : Header) (rest : List UInt8) :
    skipParts (h.bytes ++ rest) h.flags (h.extra ++ (h.name ++ (h.comment ++ (h.checksum ++ rest)))) =
      if h.Readable then .ok rest else .error .longText := by
  have habsent : ∀ {part rest : List UInt8}, part = [] →
      (if part.length ≤ longestText + 1 then .ok rest else .error .longText) = (.ok rest : Except Fault _) := by
    rintro part rest rfl
    exact if_pos (Nat.zero_le _)
  have hextra := h.isExtra.skip_append (skipExtra_append · (h.name ++ (h.comment ++ (h.checksum ++ rest)))) fun _ => rfl
  have hname := h.isName.skip_append (skipText_append · (h.comment ++ (h.checksum ++ rest))) habsent
  have hcomment := h.isComment.skip_append (skipText_append · (h.checksum ++ rest)) habsent
  have hbytes : h.bytes ++ rest =
      31 :: 139 :: 8 :: h.flags :: (h.origin ++ (h.extra ++ (h.name ++ h.comment))) ++ (h.checksum ++ rest) := by
    simp only [Header.bytes, List.cons_append, List.append_assoc]
  have hchecksum := h.isChecksum.skip_append (skipHeaderCrc_append · rest) fun _ => rfl
  rw [← hbytes] at hchecksum
  rw [Gzip.skipParts_eq, hextra, Json.ok_bind, hname]
  by_cases hshortName : h.name.length ≤ longestText + 1
  · rw [if_pos hshortName, Json.ok_bind, hcomment]
    by_cases hshortComment : h.comment.length ≤ longestText + 1
    · have hreadable : h.Readable := ⟨hshortName, hshortComment⟩
      rw [if_pos hshortComment, Json.ok_bind, hchecksum, if_pos hreadable]
    · have hlong : ¬h.Readable := fun hreadable => hshortComment hreadable.2
      rw [if_neg hshortComment, if_neg hlong]
      rfl
  · have hlong : ¬h.Readable := fun hreadable => hshortName hreadable.1
    rw [if_neg hshortName, if_neg hlong]
    rfl

lemma skipHeader_of_origin {origin : List UInt8} (h : origin.length = 6) :
    skipHeader (31 :: 139 :: 8 :: flags :: origin ++ bytes) =
      if flags.toNat < 32 then skipParts (31 :: 139 :: 8 :: flags :: origin ++ bytes) flags bytes
      else .error .invalidHeader := by
  match origin, h with
  | [_, _, _, _, _, _], _ => simp [skipHeader]

/-- A header is passed over unless its name or its comment is too long. -/
theorem skipHeader_append (h : Header) (rest : List UInt8) :
    skipHeader (h.bytes ++ rest) = if h.Readable then .ok rest else .error .longText := by
  have hbytes : h.bytes ++ rest =
      31 :: 139 :: 8 :: h.flags :: h.origin ++ (h.extra ++ (h.name ++ (h.comment ++ (h.checksum ++ rest)))) := by
    simp only [Header.bytes, List.cons_append, List.append_assoc]
  rw [← h.skipParts_eq, hbytes, skipHeader_of_origin h.length_origin, if_pos h.flags_lt]

lemma exists_parts (h : skipParts (front ++ bytes) flags bytes = .ok rest) : ∃ extra name comment checksum,
    bytes = extra ++ (name ++ (comment ++ (checksum ++ rest))) ∧
    Part (flags.toNat.testBit 2) IsExtra extra ∧ Part (flags.toNat.testBit 3) IsText name ∧
    Part (flags.toNat.testBit 4) IsText comment ∧
    Part (flags.toNat.testBit 1) (IsHeaderCrc (front ++ (extra ++ (name ++ comment)))) checksum := by
  rw [skipParts_eq] at h
  obtain ⟨_, hpastExtra, h⟩ := Json.bind_eq_ok.mp h
  obtain ⟨_, hpastName, h⟩ := Json.bind_eq_ok.mp h
  obtain ⟨behind, hpastComment, h⟩ := Json.bind_eq_ok.mp h
  obtain ⟨extra, rfl, hextra⟩ := exists_part exists_extra hpastExtra
  obtain ⟨name, rfl, hname⟩ := exists_part exists_text hpastName
  obtain ⟨comment, rfl, hcomment⟩ := exists_part exists_text hpastComment
  have hfront : front ++ (extra ++ (name ++ (comment ++ behind))) = front ++ (extra ++ (name ++ comment)) ++ behind := by
    simp only [List.append_assoc]
  rw [hfront] at h
  obtain ⟨checksum, rfl, hchecksum⟩ := exists_part exists_headerCrc h
  exact ⟨extra, name, comment, checksum, rfl, hextra, hname, hcomment, hchecksum⟩

lemma exists_origin (h : skipHeader file = .ok rest) : ∃ (flags : UInt8) (origin bytes : List UInt8),
    origin.length = 6 ∧ file = 31 :: 139 :: 8 :: flags :: origin ++ bytes ∧ flags.toNat < 32 := by
  unfold skipHeader at h
  split at h
  · rename_i flags a b c d e f bytes
    split at h
    · rename_i hfront
      obtain ⟨rfl, rfl, rfl, hflags⟩ := hfront
      exact ⟨flags, [a, b, c, d, e, f], bytes, rfl, rfl, hflags⟩
    · cases h
  · cases h

/-- Reading gets past a header exactly if one stands in front that is not too long to be read. -/
theorem skipHeader_eq_ok_iff : skipHeader file = .ok rest ↔ ∃ h : Header, h.Readable ∧ file = h.bytes ++ rest := by
  constructor
  · intro h
    obtain ⟨flags, origin, bytes, hlength, rfl, hflags⟩ := exists_origin h
    have hparts := h
    rw [skipHeader_of_origin hlength, if_pos hflags] at hparts
    obtain ⟨extra, name, comment, checksum, rfl, hextra, hname, hcomment, hchecksum⟩ := exists_parts hparts
    let header : Header :=
      ⟨flags, origin, extra, name, comment, checksum, hflags, hlength, hextra, hname, hcomment, hchecksum⟩
    have hbytes : 31 :: 139 :: 8 :: flags :: origin ++ (extra ++ (name ++ (comment ++ (checksum ++ rest)))) =
        header.bytes ++ rest := by
      simp only [header, Header.bytes, List.cons_append, List.append_assoc]
    rw [hbytes, skipHeader_append] at h
    refine ⟨header, ?_, hbytes⟩
    by_contra hlong
    rw [if_neg hlong] at h
    cases h
  · rintro ⟨h, hreadable, rfl⟩
    rw [skipHeader_append, if_pos hreadable]

end AddressAtlas.Gzip
