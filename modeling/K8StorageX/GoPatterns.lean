import Mathlib.Data.List.Basic

/-!
# Patterns of the Go code

`filepath.Match` of Go 1.15 for slash separated paths. A pattern is read while it is
matched, so that a malformed part is reported only if the matching gets there.
-/

namespace K8StorageX.GoPatterns

section Matching

/-- The bytes of a string. -/
def bytes (s : String) : List UInt8 := s.toByteArray.data.toList

/-- `utf8.DecodeRuneInString`: the rune and the bytes after it. A byte that starts no rune
counts as one, without a value. -/
def decodeRune (s : List UInt8) : Option Char × List UInt8 :=
  match (ByteArray.mk s.toArray).utf8DecodeChar? 0 with
  | some r => (some r, s.drop r.utf8Size)
  | none => (none, s.drop 1)

/-- `scanChunk` after the leading stars: the bytes up to the next star outside of brackets,
and the rest. -/
def scanText : Bool → List UInt8 → List UInt8 × List UInt8
  | _, [] => ([], [])
  | inrange, c :: pattern =>
    if c = '\\'.toUInt8 then
      match pattern with
      | [] => ([c], [])
      | d :: pattern =>
        let (chunk, rest) := scanText inrange pattern
        (c :: d :: chunk, rest)
    else if c = '*'.toUInt8 ∧ inrange = false then ([], c :: pattern)
    else
      let inrange := if c = '['.toUInt8 then true else if c = ']'.toUInt8 then false else inrange
      let (chunk, rest) := scanText inrange pattern
      (c :: chunk, rest)

/-- `scanChunk`: whether the pattern starts with stars, the chunk after them and the rest. -/
def scanChunk : List UInt8 → Bool × List UInt8 × List UInt8
  | [] => (false, [], [])
  | c :: pattern =>
    if c = '*'.toUInt8 then (true, (scanChunk pattern).2)
    else (false, scanText false (c :: pattern))

/-- `getEsc`: a character of a class, unless nothing follows it. -/
def getEsc : List UInt8 → Option (Char × List UInt8)
  | [] => none
  | c :: chunk =>
    if c = '-'.toUInt8 ∨ c = ']'.toUInt8 then none
    else
      match decodeRune (if c = '\\'.toUInt8 then chunk else c :: chunk) with
      | (none, _) => none
      | (some r, rest) => if rest = [] then none else some (r, rest)

/-- At least one byte is taken. -/
theorem length_decodeRune (s : List UInt8) : (decodeRune s).2.length ≤ s.length - 1 := by
  unfold decodeRune
  split
  · rename_i r _
    have hsize : 0 < r.utf8Size := r.utf8Size_pos
    simp only [List.length_drop]
    omega
  · simp

/-- A character of a class takes a byte. -/
theorem length_getEsc {chunk rest : List UInt8} {r : Char} (h : getEsc chunk = some (r, rest)) :
    rest.length < chunk.length := by
  cases chunk with
  | nil => cases h
  | cons c chunk =>
    rw [getEsc] at h
    split at h
    · cases h
    split at h
    · cases h
    · rename_i decoded hdecode
      split at h
      · cases h
      · have hdecoded := length_decodeRune (if c = '\\'.toUInt8 then chunk else c :: chunk)
        rw [hdecode] at hdecoded
        cases h
        have hlength : (if c = '\\'.toUInt8 then chunk else c :: chunk).length ≤ chunk.length + 1 := by
          split <;> simp
        simp only [List.length_cons] at hdecoded ⊢
        omega

/-- A range of a class: a character, or two of them with a dash between. -/
def getRange (chunk : List UInt8) : Option ((Char × Char) × List UInt8) :=
  match getEsc chunk with
  | none => none
  | some (lo, rest) =>
    match rest with
    | [] => none
    | c :: after =>
      if c = '-'.toUInt8 then (getEsc after).map fun hi => ((lo, hi.1), hi.2)
      else some ((lo, lo), rest)

/-- A range takes a byte. -/
theorem length_getRange {chunk rest : List UInt8} {range : Char × Char}
    (h : getRange chunk = some (range, rest)) : rest.length < chunk.length := by
  unfold getRange at h
  split at h
  · cases h
  · rename_i lo left hlo
    have hleft := length_getEsc hlo
    split at h
    · cases h
    · rename_i c after
      split at h
      · obtain ⟨⟨hi, last⟩, hhi, heq⟩ := Option.map_eq_some_iff.mp h
        have hlast := length_getEsc hhi
        cases heq
        simp only [List.length_cons] at hleft ⊢
        omega
      · cases h
        exact hleft

/-- The ranges of a class up to its bracket, after those that have been read. -/
def classRanges (found : List (Char × Char)) (chunk : List UInt8) :
    Option (List (Char × Char) × List UInt8) :=
  if found ≠ [] ∧ chunk.head? = some ']'.toUInt8 then some (found, chunk.tail)
  else
    match _h : getRange chunk with
    | none => none
    | some (range, rest) => classRanges (found ++ [range]) rest
termination_by chunk.length
decreasing_by exact length_getRange _h

/-- A class after its opening bracket: whether it is negated, and its ranges. -/
def parseClass (chunk : List UInt8) : Option (Bool × List (Char × Char) × List UInt8) :=
  if chunk.head? = some '^'.toUInt8 then (classRanges [] chunk.tail).map ((true, ·))
  else (classRanges [] chunk).map ((false, ·))

/-- The ranges of a class add no bytes. -/
theorem length_classRanges {found ranges : List (Char × Char)} {chunk rest : List UInt8}
    (h : classRanges found chunk = some (ranges, rest)) : rest.length ≤ chunk.length := by
  fun_induction classRanges found chunk with
  | case1 found chunk _ =>
    cases h
    simp
  | case2 found chunk _ _ => cases h
  | case3 found chunk _ range left hrange ih =>
    have hleft := length_getRange hrange
    have hrest := ih h
    omega

/-- Nor does the class. -/
theorem length_parseClass {negated : Bool} {ranges : List (Char × Char)} {chunk rest : List UInt8}
    (h : parseClass chunk = some (negated, ranges, rest)) : rest.length ≤ chunk.length := by
  unfold parseClass at h
  split at h
  · obtain ⟨⟨found, left⟩, hranges, heq⟩ := Option.map_eq_some_iff.mp h
    have hlength := length_classRanges hranges
    cases heq
    simp only [List.length_tail] at hlength
    omega
  · obtain ⟨⟨found, left⟩, hranges, heq⟩ := Option.map_eq_some_iff.mp h
    have hlength := length_classRanges hranges
    cases heq
    exact hlength

/-- A rune is in one of the ranges; what is no rune counts as U+FFFD. -/
def inRanges (ranges : List (Char × Char)) (r : Option Char) : Bool :=
  ranges.any fun range => decide (range.1 ≤ r.getD (Char.ofNat 0xFFFD) ∧ r.getD (Char.ofNat 0xFFFD) ≤ range.2)

/-- `matchChunk`: `none` for a malformed chunk, otherwise what is left of the name after
a match. -/
def matchChunk (chunk s : List UInt8) : Option (Option (List UInt8)) :=
  match chunk, s with
  | [], s => some (some s)
  | _ :: _, [] => some none
  | c :: chunk, b :: s =>
    if c = '['.toUInt8 then
      match _h : parseClass chunk with
      | none => none
      | some (negated, ranges, rest) =>
        if inRanges ranges (decodeRune (b :: s)).1 = negated then some none
        else matchChunk rest (decodeRune (b :: s)).2
    else if c = '?'.toUInt8 then
      if b = '/'.toUInt8 then some none else matchChunk chunk (decodeRune (b :: s)).2
    else if c = '\\'.toUInt8 then
      match chunk with
      | [] => none
      | d :: chunk => if d ≠ b then some none else matchChunk chunk s
    else if c ≠ b then some none
    else matchChunk chunk s
termination_by chunk.length
decreasing_by
  · have hrest := length_parseClass _h
    simp only [List.length_cons]
    omega
  · simp
  · simp only [List.length_cons]
    omega
  · simp

/-- The loop of `Match` that looks for a match of the chunk after some bytes, which cannot
be slashes. The last chunk must match all that is left. -/
def matchLater (chunk : List UInt8) (last : Bool) : List UInt8 → Option (Option (List UInt8))
  | [] => some none
  | b :: name =>
    if b = '/'.toUInt8 then some none
    else
      match matchChunk chunk name with
      | none => none
      | some none => matchLater chunk last name
      | some (some t) =>
        if last = true ∧ t ≠ [] then matchLater chunk last name else some (some t)

/-- One round of the loop of `Match`: what is left of the name. -/
def matchStep (star : Bool) (chunk : List UInt8) (last : Bool) (name : List UInt8) :
    Option (Option (List UInt8)) :=
  match matchChunk chunk name with
  | none => none
  | some none => if star then matchLater chunk last name else some none
  | some (some t) =>
    if t = [] ∨ last = false then some (some t)
    else if star then matchLater chunk last name
    else some none

/-- The text and the rest make up the pattern. -/
theorem length_scanText (inrange : Bool) (pattern : List UInt8) :
    (scanText inrange pattern).1.length + (scanText inrange pattern).2.length = pattern.length := by
  fun_induction scanText inrange pattern <;> simp_all <;> omega

/-- A text that does not start with a star has a chunk. -/
theorem length_scanText_lt {c : UInt8} {pattern : List UInt8} (h : c ≠ '*'.toUInt8) :
    (scanText false (c :: pattern)).2.length < (c :: pattern).length := by
  have hlength := length_scanText false (c :: pattern)
  have hchunk : (scanText false (c :: pattern)).1 ≠ [] := by
    cases pattern with
    | nil => simp [scanText, h]
    | cons d pattern =>
      rw [scanText]
      split
      · simp
      · rw [if_neg fun hstar => h hstar.1]
        simp
  have hpos := List.length_pos_of_ne_nil hchunk
  omega

/-- Every round takes something from the pattern. -/
theorem length_scanChunk {pattern : List UInt8} (h : pattern ≠ []) :
    (scanChunk pattern).2.2.length < pattern.length := by
  induction pattern with
  | nil => exact absurd rfl h
  | cons c pattern ih =>
    rw [scanChunk]
    split
    · by_cases hnil : pattern = []
      · subst hnil
        simp [scanChunk]
      · have hrest := ih hnil
        simp only [List.length_cons]
        omega
    · rename_i hstar
      exact length_scanText_lt hstar

/-- The loop of `Match`: `none` for a malformed pattern. -/
def matchBytes (pattern name : List UInt8) : Option Bool :=
  if _h : pattern = [] then some (name.isEmpty)
  else if (scanChunk pattern).1 = true ∧ (scanChunk pattern).2.1 = [] then
    some (decide ('/'.toUInt8 ∉ name))
  else
    match matchStep (scanChunk pattern).1 (scanChunk pattern).2.1 (scanChunk pattern).2.2.isEmpty
      name with
    | none => none
    | some none => some false
    | some (some t) => matchBytes (scanChunk pattern).2.2 t
termination_by pattern.length
decreasing_by exact length_scanChunk _h

/-- `filepath.Match` -/
def matchPattern (pattern name : String) : Option Bool := matchBytes (bytes pattern) (bytes name)

example : matchPattern "node-[0-9]*" "node-7b" = some true ∧ matchPattern "*" "a/b" = some false ∧
    matchPattern "x[" "test-node" = some false ∧ matchPattern "x[" "xa" = none := by decide +kernel

end Matching

section WellFormedness

/-- All classes of a chunk are complete, and a character follows each backslash. -/
def wellFormedChunk (chunk : List UInt8) : Bool :=
  match chunk with
  | [] => true
  | c :: chunk =>
    if c = '['.toUInt8 then
      match _h : parseClass chunk with
      | none => false
      | some (_, _, rest) => wellFormedChunk rest
    else if c = '\\'.toUInt8 then
      match chunk with
      | [] => false
      | _ :: chunk => wellFormedChunk chunk
    else wellFormedChunk chunk
termination_by chunk.length
decreasing_by
  · have hrest := length_parseClass _h
    simp only [List.length_cons]
    omega
  · simp only [List.length_cons]
    omega
  · simp

/-- All chunks of a pattern are well formed. -/
def wellFormedBytes (pattern : List UInt8) : Bool :=
  if _h : pattern = [] then true
  else wellFormedChunk (scanChunk pattern).2.1 && wellFormedBytes (scanChunk pattern).2.2
termination_by pattern.length
decreasing_by exact length_scanChunk _h

/-- A pattern without a malformed part. -/
def wellFormed (pattern : String) : Bool := wellFormedBytes (bytes pattern)

/-- A class is well formed if it is complete and what follows it is well formed. -/
theorem wellFormedChunk_class (chunk : List UInt8) :
    wellFormedChunk ('['.toUInt8 :: chunk) =
      (parseClass chunk).elim false fun found => wellFormedChunk found.2.2 := by
  rw [wellFormedChunk.eq_def]
  dsimp only
  rw [if_pos rfl]
  split <;> rename_i hclass <;> rw [hclass] <;> rfl

/-- What follows a byte that is no bracket and no backslash is well formed with it. -/
theorem wellFormedChunk_byte {c : UInt8} {chunk : List UInt8} (hclass : c ≠ '['.toUInt8)
    (hescape : c ≠ '\\'.toUInt8) : wellFormedChunk (c :: chunk) = wellFormedChunk chunk := by
  cases chunk <;> simp [wellFormedChunk, hclass, hescape]

/-- A well-formed chunk fails on no name. -/
theorem matchChunk_ne_none {chunk : List UInt8} (h : wellFormedChunk chunk = true)
    (s : List UInt8) : matchChunk chunk s ≠ none := by
  have hbracket : '?'.toUInt8 ≠ '['.toUInt8 := by decide
  have hquestion : '?'.toUInt8 ≠ '\\'.toUInt8 := by decide
  have hbackslash : '\\'.toUInt8 ≠ '['.toUInt8 := by decide
  fun_induction matchChunk chunk s with
  | case1 s => simp
  | case2 c chunk => simp
  | case3 chunk b s hclass =>
    rw [wellFormedChunk_class, hclass] at h
    cases h
  | case4 chunk b s ranges rest hclass => simp
  | case5 chunk b s negated ranges rest hclass _ ih =>
    rw [wellFormedChunk_class, hclass] at h
    exact ih h
  | case6 => simp
  | case7 chunk b s _ _ ih =>
    rw [wellFormedChunk_byte hbracket hquestion] at h
    exact ih h
  | case8 b s => simp [wellFormedChunk, hbackslash] at h
  | case9 => simp
  | case10 b s d chunk _ _ _ ih =>
    rw [wellFormedChunk, if_neg hbackslash, if_pos rfl] at h
    exact ih h
  | case11 => simp
  | case12 c chunk b s hclass _ hescape _ ih =>
    rw [wellFormedChunk_byte hclass hescape] at h
    exact ih h

/-- Nor does it later in the name. -/
theorem matchLater_ne_none {chunk : List UInt8} (h : wellFormedChunk chunk = true) (last : Bool)
    (name : List UInt8) : matchLater chunk last name ≠ none := by
  induction name with
  | nil => simp [matchLater]
  | cons b name ih =>
    rw [matchLater]
    split
    · simp
    · split
      · rename_i hchunk
        exact absurd hchunk (matchChunk_ne_none h name)
      · exact ih
      · split
        · exact ih
        · simp

/-- Nor does a round of the loop. -/
theorem matchStep_ne_none {chunk : List UInt8} (h : wellFormedChunk chunk = true)
    (star last : Bool) (name : List UInt8) : matchStep star chunk last name ≠ none := by
  have hlater := matchLater_ne_none h last name
  unfold matchStep
  split
  · rename_i hchunk
    exact absurd hchunk (matchChunk_ne_none h name)
  · split
    · exact hlater
    · simp
  · split
    · simp
    · split
      · exact hlater
      · simp

/-- Nor does a pattern of well-formed chunks. -/
theorem matchBytes_ne_none {pattern : List UInt8} (h : wellFormedBytes pattern = true)
    (name : List UInt8) : matchBytes pattern name ≠ none := by
  fun_induction matchBytes pattern name with
  | case1 name => simp
  | case2 pattern name _ _ => simp
  | case3 pattern name hne _ hstep =>
    rw [wellFormedBytes, dif_neg hne, Bool.and_eq_true] at h
    exact absurd hstep (matchStep_ne_none h.1 _ _ _)
  | case4 pattern name _ _ _ => simp
  | case5 pattern name hne _ t _ ih =>
    rw [wellFormedBytes, dif_neg hne, Bool.and_eq_true] at h
    exact ih h.2

/-- A well-formed pattern is never reported as malformed. -/
theorem matchPattern_ne_none {pattern : String} (h : wellFormed pattern = true) (name : String) :
    matchPattern pattern name ≠ none :=
  matchBytes_ne_none h (bytes name)

example : wellFormed "node-[0-9]*" = true ∧ wellFormed "x[" = false := by decide +kernel

end WellFormedness

end K8StorageX.GoPatterns
