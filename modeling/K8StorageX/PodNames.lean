import K8StorageX.GoPatterns
import K8StorageX.KubeObjects

/-!
# Names of job Pods

`ResourceName` appends a suffix to the name of an owner, or shortens the name and appends
a digest if the result would be too long for a label value. It slices bytes, so it is
modelled on the bytes of the names here. A shortened name ends with a hexadecimal digit,
the others end with their suffix, and the length of a shortened name tells its suffix.
-/

namespace K8StorageX.PodNames

open GoPatterns KubeObjects

/-- `crypto/sha256` -/
structure Sha256 where
  /-- The sum of a text. -/
  sum : List UInt8 → List UInt8
  /-- A sum has 32 bytes. -/
  length_sum : ∀ text, (sum text).length = 32

/-- `s[:n]`, which panics if it is out of range. -/
def sliceTo (s : List UInt8) (n : ℤ) : Option (List UInt8) :=
  if 0 ≤ n ∧ n ≤ s.length then some (s.take n.toNat) else none

/-- A lower-case hexadecimal digit. -/
def hexDigit (n : ℕ) : UInt8 := UInt8.ofNat (if n < 10 then 48 + n else 87 + n)

/-- The format `%x` -/
def hex (text : List UInt8) : List UInt8 :=
  text.flatMap fun b => [hexDigit (b.toNat / 16), hexDigit (b.toNat % 16)]

/-- The number of bytes that is kept of an owner's name. -/
def maxLen (suffix : List UInt8) : ℤ := 63 - 8 - 1 - suffix.length

/-- The name with its suffix. -/
def fullName (ownerName suffix : List UInt8) : List UInt8 := ownerName ++ '-'.toUInt8 :: suffix

/-- `nameDigest` of `utils.ResourceName` -/
def nameDigest (h : Sha256) (name : List UInt8) : Option (List UInt8) := sliceTo (hex (h.sum name)) 7

/-- `utils.ResourceName` on bytes, with `none` for a slice out of range. -/
def resourceNameBytes (h : Sha256) (ownerName suffix : List UInt8) : Option (List UInt8) :=
  if (ownerName.length : ℤ) > maxLen suffix then do
    let digest ← nameDigest h (fullName ownerName suffix)
    let kept ← sliceTo ownerName (maxLen suffix)
    return kept ++ '-'.toUInt8 :: digest
  else some (fullName ownerName suffix)

/-- The suffixes in use. -/
def suffixes : List (List UInt8) := [bytes provisioner, bytes deprovisioner]

/-- The name of the owner is too long for the suffix. -/
def Truncated (ownerName suffix : List UInt8) : Prop := (ownerName.length : ℤ) > maxLen suffix

section Parts

variable {h : Sha256} {ownerName ownerName' suffix suffix' name : List UInt8}

/-- A byte has two digits. -/
theorem length_hex (text : List UInt8) : (hex text).length = 2 * text.length := by
  induction text with
  | nil => rfl
  | cons b text ih =>
    rw [hex, List.flatMap_cons, List.length_append, ← hex, ih]
    simp only [List.length_cons, List.length_nil]
    omega

/-- All bytes are digits. -/
theorem mem_hex {text : List UInt8} {b : UInt8} (hb : b ∈ hex text) : ∃ n < 16, b = hexDigit n := by
  rw [hex, List.mem_flatMap] at hb
  obtain ⟨c, -, hc⟩ := hb
  have hlt : c.toNat < 256 := c.toNat_lt
  simp only [List.mem_cons, List.not_mem_nil, or_false] at hc
  rcases hc with hc | hc
  · exact ⟨c.toNat / 16, by omega, hc⟩
  · exact ⟨c.toNat % 16, by omega, hc⟩

/-- No digit is the letter r, which both suffixes contain. -/
theorem r_notMem_hex (text : List UInt8) : 'r'.toUInt8 ∉ hex text := by
  intro hmem
  obtain ⟨n, hn, hr⟩ := mem_hex hmem
  have hne : ∀ n < 16, 'r'.toUInt8 ≠ hexDigit n := by decide
  exact hne n hn hr

/-- The digest of a name are seven hexadecimal digits. -/
theorem nameDigest_eq (h : Sha256) (name : List UInt8) :
    nameDigest h name = some ((hex (h.sum name)).take 7) := by
  have hlength : (hex (h.sum name)).length = 64 := by rw [length_hex, h.length_sum]
  rw [nameDigest, sliceTo, if_pos (by omega)]
  rfl

/-- Seven digits are kept of a digest. -/
theorem length_nameDigest (h : Sha256) (name : List UInt8) :
    ((hex (h.sum name)).take 7).length = 7 := by
  rw [List.length_take, length_hex, h.length_sum]
  omega

/-- What is known of the suffixes in use. -/
theorem suffix_facts (hsuffix : suffix ∈ suffixes) :
    (suffix.length = 11 ∨ suffix.length = 13) ∧ suffix.getLast? = some 'r'.toUInt8 := by
  have hall : ∀ suffix ∈ suffixes, (suffix.length = 11 ∨ suffix.length = 13) ∧
      suffix.getLast? = some 'r'.toUInt8 := by decide
  exact hall suffix hsuffix

/-- The suffixes in use have different lengths. -/
theorem suffix_eq_of_length (hsuffix : suffix ∈ suffixes) (hsuffix' : suffix' ∈ suffixes)
    (hlength : suffix.length = suffix'.length) : suffix = suffix' := by
  have hall : ∀ suffix ∈ suffixes, ∀ suffix' ∈ suffixes, suffix.length = suffix'.length →
      suffix = suffix' := by decide
  exact hall suffix hsuffix suffix' hsuffix' hlength

/-- Names end with at most one of the suffixes. -/
theorem suffix_eq_of_fullName_eq (hsuffix : suffix ∈ suffixes) (hsuffix' : suffix' ∈ suffixes)
    (heq : fullName ownerName suffix = fullName ownerName' suffix') : suffix = suffix' := by
  have htails : ∀ suffix ∈ suffixes, ∀ suffix' ∈ suffixes,
      (('-'.toUInt8 :: suffix).reverse.take 12 = ('-'.toUInt8 :: suffix').reverse.take 12) →
        suffix = suffix' := by decide
  have hlong : ∀ suffix ∈ suffixes, 12 ≤ ('-'.toUInt8 :: suffix).reverse.length := by decide
  have htake : ∀ {owner suffix : List UInt8}, suffix ∈ suffixes →
      (fullName owner suffix).reverse.take 12 = ('-'.toUInt8 :: suffix).reverse.take 12 := by
    intro owner suffix hmem
    rw [fullName, List.reverse_append, List.take_append_of_le_length (hlong suffix hmem)]
  apply htails suffix hsuffix suffix' hsuffix'
  rw [← htake hsuffix, ← htake hsuffix', heq]

end Parts

section Names

variable {h : Sha256} {ownerName ownerName' suffix suffix' name : List UInt8}

/-- The bytes that are kept of a name that is too long. -/
theorem sliceTo_of_truncated (hsuffix : suffix ∈ suffixes) (htruncated : Truncated ownerName suffix) :
    sliceTo ownerName (maxLen suffix) = some (ownerName.take (54 - suffix.length)) ∧
      (ownerName.take (54 - suffix.length)).length = 54 - suffix.length := by
  have hlengths := (suffix_facts hsuffix).1
  unfold Truncated maxLen at htruncated
  have hnat : (maxLen suffix).toNat = 54 - suffix.length := by
    unfold maxLen
    omega
  constructor
  · rw [sliceTo, if_pos, hnat]
    unfold maxLen
    omega
  · rw [List.length_take]
    omega

/-- A long name is cut and followed by digits of its digest. -/
theorem resourceNameBytes_of_truncated (hsuffix : suffix ∈ suffixes)
    (htruncated : Truncated ownerName suffix) :
    resourceNameBytes h ownerName suffix = some (ownerName.take (54 - suffix.length) ++
      '-'.toUInt8 :: (hex (h.sum (fullName ownerName suffix))).take 7) := by
  have hlong : (ownerName.length : ℤ) > maxLen suffix := htruncated
  have hslice := (sliceTo_of_truncated hsuffix htruncated).1
  rw [resourceNameBytes, if_pos hlong, nameDigest_eq, hslice]
  rfl

/-- A short name is kept with its suffix. -/
theorem resourceNameBytes_of_not_truncated (htruncated : ¬ Truncated ownerName suffix) :
    resourceNameBytes h ownerName suffix = some (fullName ownerName suffix) :=
  if_neg htruncated

/-- No slice is out of range, and a name has at most 63 bytes. -/
theorem length_resourceNameBytes (h : Sha256) (ownerName : List UInt8) (hsuffix : suffix ∈ suffixes) :
    ∃ name, resourceNameBytes h ownerName suffix = some name ∧ name.length ≤ 63 := by
  have hlengths := (suffix_facts hsuffix).1
  by_cases htruncated : Truncated ownerName suffix
  · refine ⟨_, resourceNameBytes_of_truncated hsuffix htruncated, ?_⟩
    have hkept := (sliceTo_of_truncated hsuffix htruncated).2
    have hdigest := length_nameDigest h (fullName ownerName suffix)
    rw [List.length_append, List.length_cons, hkept, hdigest]
    omega
  · refine ⟨_, resourceNameBytes_of_not_truncated htruncated, ?_⟩
    unfold Truncated maxLen at htruncated
    rw [fullName, List.length_append, List.length_cons]
    omega

/-- A shortened name ends with a digit of the digest, so it is not a full name. -/
theorem truncated_ne_fullName (hsuffix' : suffix' ∈ suffixes) (kept : List UInt8) :
    kept ++ '-'.toUInt8 :: (hex (h.sum name)).take 7 ≠ fullName ownerName suffix' := by
  intro heq
  have hdigest := length_nameDigest h name
  have hlast := congrArg List.getLast? heq
  have hr : (fullName ownerName suffix').getLast? = some 'r'.toUInt8 := by
    rw [fullName, List.getLast?_append, List.getLast?_cons, (suffix_facts hsuffix').2]
    rfl
  rw [hr, List.getLast?_append, List.getLast?_cons] at hlast
  cases hend : ((hex (h.sum name)).take 7).getLast? with
  | none => simp [List.getLast?_eq_none_iff.mp hend] at hdigest
  | some b =>
    have hb : b = 'r'.toUInt8 := by simpa [hend] using hlast
    have hmem : b ∈ hex (h.sum name) := List.mem_of_mem_take (List.mem_of_getLast? hend)
    exact r_notMem_hex _ (hb ▸ hmem)

/-- The names of two Pods are equal exactly if the owners and suffixes are, or if both names
are shortened for the same suffix, to the same bytes and with the same digest. -/
theorem resourceNameBytes_eq_iff (hsuffix : suffix ∈ suffixes) (hsuffix' : suffix' ∈ suffixes) :
    resourceNameBytes h ownerName suffix = resourceNameBytes h ownerName' suffix' ↔
      (ownerName = ownerName' ∧ suffix = suffix') ∨
      (Truncated ownerName suffix ∧ Truncated ownerName' suffix' ∧ suffix = suffix' ∧
        sliceTo ownerName (maxLen suffix) = sliceTo ownerName' (maxLen suffix') ∧
        nameDigest h (fullName ownerName suffix) = nameDigest h (fullName ownerName' suffix')) := by
  constructor
  · intro heq
    by_cases htruncated : Truncated ownerName suffix
    · by_cases htruncated' : Truncated ownerName' suffix'
      · rw [resourceNameBytes_of_truncated hsuffix htruncated,
          resourceNameBytes_of_truncated hsuffix' htruncated', Option.some.injEq] at heq
        obtain ⟨hslice, hkept⟩ := sliceTo_of_truncated hsuffix htruncated
        obtain ⟨hslice', hkept'⟩ := sliceTo_of_truncated hsuffix' htruncated'
        have hdigest := length_nameDigest h (fullName ownerName suffix)
        have hdigest' := length_nameDigest h (fullName ownerName' suffix')
        have hlengths := (suffix_facts hsuffix).1
        have hlengths' := (suffix_facts hsuffix').1
        have htotal := congrArg List.length heq
        simp only [List.length_append, List.length_cons, hkept, hkept', hdigest, hdigest'] at htotal
        have hsame := suffix_eq_of_length hsuffix hsuffix' (by omega)
        obtain ⟨howner, hrest⟩ := List.append_inj heq (by omega)
        refine Or.inr ⟨htruncated, htruncated', hsame, ?_, ?_⟩
        · rw [hslice, hslice', howner]
        · rw [nameDigest_eq, nameDigest_eq, (List.cons.inj hrest).2]
      · rw [resourceNameBytes_of_truncated hsuffix htruncated,
          resourceNameBytes_of_not_truncated htruncated', Option.some.injEq] at heq
        exact absurd heq (truncated_ne_fullName hsuffix' _)
    · by_cases htruncated' : Truncated ownerName' suffix'
      · rw [resourceNameBytes_of_not_truncated htruncated,
          resourceNameBytes_of_truncated hsuffix' htruncated', Option.some.injEq] at heq
        exact absurd heq.symm (truncated_ne_fullName hsuffix _)
      · rw [resourceNameBytes_of_not_truncated htruncated,
          resourceNameBytes_of_not_truncated htruncated', Option.some.injEq] at heq
        obtain rfl := suffix_eq_of_fullName_eq hsuffix hsuffix' heq
        exact Or.inl ⟨List.append_cancel_right heq, rfl⟩
  · rintro (⟨rfl, rfl⟩ | ⟨htruncated, htruncated', -, hkept, hdigest⟩)
    · rfl
    · have hlong : (ownerName.length : ℤ) > maxLen suffix := htruncated
      have hlong' : (ownerName'.length : ℤ) > maxLen suffix' := htruncated'
      rw [resourceNameBytes, resourceNameBytes, if_pos hlong, if_pos hlong', hkept, hdigest]

end Names

section Ascii

/-- The text has one byte per character. -/
def Ascii (text : String) : Prop := ∀ c ∈ text.toList, c.utf8Size = 1

/-- The bytes of two texts follow one another. -/
theorem bytes_append (s t : String) : bytes (s ++ t) = bytes s ++ bytes t := by
  simp [bytes, String.toByteArray_append, ByteArray.data_append]

/-- Characters of one byte are their bytes. -/
theorem bytes_ofList {l : List Char} (h : ∀ c ∈ l, c.utf8Size = 1) :
    bytes (String.ofList l) = l.map (·.val.toUInt8) := by
  rw [bytes, String.toByteArray_ofList, List.utf8Encode, List.data_toByteArray, List.toList_toArray]
  induction l with
  | nil => rfl
  | cons c l ih =>
    rw [List.flatMap_cons, String.utf8EncodeChar_eq_singleton (h c List.mem_cons_self),
      ih fun d hd => h d (List.mem_cons_of_mem c hd)]
    rfl

/-- The digits of a digest as text. -/
def Sha256.digest (h : Sha256) : Digest where
  hex7 text := String.ofList (((hex (h.sum (bytes text))).take 7).map fun b => Char.ofNat b.toNat)
  length_hex7 text := by
    rw [String.length_ofList, List.length_map, length_nameDigest]

variable {h : Sha256} {ownerName suffix : String}

/-- The bytes of an ASCII text are its characters. -/
theorem Ascii.bytes_eq (hascii : Ascii ownerName) :
    bytes ownerName = ownerName.toList.map (·.val.toUInt8) := by
  rw [← bytes_ofList hascii, String.ofList_toList]

/-- An ASCII text is cut at the same place by bytes and by characters. -/
theorem Ascii.bytes_take (hascii : Ascii ownerName) (n : ℕ) :
    bytes (String.ofList (ownerName.toList.take n)) = (bytes ownerName).take n := by
  rw [bytes_ofList fun c hc => hascii c (List.mem_of_mem_take hc), hascii.bytes_eq, List.map_take]

/-- The digits of a digest as text have the bytes of the digits. -/
theorem bytes_hex7 (text : String) :
    bytes (h.digest.hex7 text) = (hex (h.sum (bytes text))).take 7 := by
  have hdigits : ∀ n < 16, (Char.ofNat (hexDigit n).toNat).utf8Size = 1 ∧
      (Char.ofNat (hexDigit n).toNat).val.toUInt8 = hexDigit n := by decide
  have hdigit : ∀ b ∈ (hex (h.sum (bytes text))).take 7,
      (Char.ofNat b.toNat).utf8Size = 1 ∧ (Char.ofNat b.toNat).val.toUInt8 = b := by
    intro b hb
    obtain ⟨n, hn, rfl⟩ := mem_hex (List.mem_of_mem_take hb)
    exact hdigits n hn
  rw [Sha256.digest, bytes_ofList, List.map_map]
  · exact (List.map_congr_left fun b hb => (hdigit b hb).2).trans (List.map_id _)
  · intro c hc
    obtain ⟨b, hb, rfl⟩ := List.mem_map.mp hc
    exact (hdigit b hb).1

/-- On names of Kubernetes objects the model of `ResourceName` over characters is the one
over bytes. -/
theorem resourceNameBytes_eq_bytes (hascii : Ascii ownerName)
    (hsuffix : suffix = provisioner ∨ suffix = deprovisioner) :
    resourceNameBytes h (bytes ownerName) (bytes suffix) =
      some (bytes (resourceName h.digest ownerName suffix)) := by
  have hlengths : (bytes suffix).length = suffix.length ∧ suffix.length ≤ 13 ∧
      bytes suffix ∈ suffixes := by
    rcases hsuffix with rfl | rfl <;> decide
  have howner : (bytes ownerName).length = ownerName.length := by
    rw [hascii.bytes_eq, List.length_map, String.length_toList]
  have hdash : bytes "-" = ['-'.toUInt8] := by decide
  have hfull : bytes (ownerName ++ "-" ++ suffix) = fullName (bytes ownerName) (bytes suffix) := by
    rw [bytes_append, bytes_append, hdash, List.append_assoc, List.singleton_append, fullName]
  have htruncated : Truncated (bytes ownerName) (bytes suffix) ↔
      63 - 8 - 1 - suffix.length < ownerName.length := by
    unfold Truncated maxLen
    omega
  unfold resourceName
  dsimp only
  by_cases hlong : 63 - 8 - 1 - suffix.length < ownerName.length
  · rw [resourceNameBytes_of_truncated hlengths.2.2 (htruncated.mpr hlong), if_pos hlong,
      bytes_append, bytes_append, hascii.bytes_take, bytes_hex7, hdash, hfull, hlengths.1,
      List.append_assoc, List.singleton_append]
  · rw [resourceNameBytes_of_not_truncated (mt htruncated.mp hlong), if_neg hlong, hfull]

end Ascii

/-- Names of job Pods are short and do not collide. For every owner name and the suffixes
in use no slice is out of range and the name has at most 63 bytes; names for different
owners or suffixes are equal only if both are shortened for the same suffix, to the same
bytes, and the digests of the full names collide. -/
theorem podNames_short_and_distinct (h : Sha256) :
    (∀ ownerName, ∀ suffix ∈ suffixes,
      ∃ name, resourceNameBytes h ownerName suffix = some name ∧ name.length ≤ 63) ∧
    ∀ ownerName ownerName', ∀ suffix ∈ suffixes, ∀ suffix' ∈ suffixes,
      (ownerName, suffix) ≠ (ownerName', suffix') →
      (resourceNameBytes h ownerName suffix = resourceNameBytes h ownerName' suffix' ↔
        Truncated ownerName suffix ∧ Truncated ownerName' suffix' ∧ suffix = suffix' ∧
        sliceTo ownerName (maxLen suffix) = sliceTo ownerName' (maxLen suffix') ∧
        nameDigest h (fullName ownerName suffix) = nameDigest h (fullName ownerName' suffix')) := by
  constructor
  · intro ownerName suffix hsuffix
    exact length_resourceNameBytes h ownerName hsuffix
  · intro ownerName ownerName' suffix hsuffix suffix' hsuffix' hne
    rw [resourceNameBytes_eq_iff hsuffix hsuffix', or_iff_right]
    rintro ⟨rfl, rfl⟩
    exact hne rfl

end K8StorageX.PodNames
