import Mathlib.Data.List.Basic

/-!
# Paths of the Go code

The functions of `path/filepath` the code calls, for slash separated paths.
-/

namespace K8StorageX.GoPaths

/-- The parts of a path between its slashes. -/
def segments (path : String) : List String := (path.toList.splitOn '/').map String.ofList

/-- `filepath.IsAbs` -/
def isAbs (path : String) : Bool := path.startsWith "/"

/-- `filepath.Base` -/
def base (path : String) : String :=
  if path = "" then "." else ((segments path).filter (· ≠ "")).getLastD "/"

/-- The segments `filepath.Clean` keeps. Above the root `..` is dropped, above a
relative path it stays. -/
def cleanSegments (rooted : Bool) (path : String) : List String :=
  (segments path).foldl
    (fun kept segment =>
      if segment = "" ∨ segment = "." then kept
      else if segment ≠ ".." then kept ++ [segment]
      else if kept ≠ [] ∧ kept.getLast? ≠ some ".." then kept.dropLast
      else if rooted then kept
      else kept ++ [segment]) []

/-- `filepath.Clean` -/
def clean (path : String) : String :=
  let joined := "/".intercalate (cleanSegments (isAbs path) path)
  if isAbs path then "/" ++ joined else if joined = "" then "." else joined

theorem clean_ne_empty (path : String) : clean path ≠ "" := by
  unfold clean
  dsimp only
  split
  · intro hempty
    have hlength := congrArg String.length hempty
    simp at hlength
  · split
    · decide
    · assumption

/-- The parts of a list between separators have no separator. -/
theorem notMem_of_mem_splitOn {sep : Char} {chars part : List Char}
    (h : part ∈ chars.splitOn sep) : sep ∉ part := by
  rw [List.splitOn_eq_splitOnP] at h
  induction chars generalizing part with
  | nil =>
    rw [List.splitOnP_nil, List.mem_singleton] at h
    subst h
    exact List.not_mem_nil
  | cons c chars ih =>
    rw [List.splitOnP_cons_eq_if_modifyHead] at h
    split at h
    · rcases List.mem_cons.mp h with rfl | hrest
      · exact List.not_mem_nil
      · exact ih hrest
    · rename_i hc
      cases hsplit : chars.splitOnP (· == sep) with
      | nil => exact absurd hsplit (List.splitOnP_ne_nil _ _)
      | cons head tail =>
        rw [hsplit] at h ih
        rcases List.mem_cons.mp h with rfl | hrest
        · have hhead := ih List.mem_cons_self
          have hne : sep ≠ c := fun heq => hc (by simp [heq])
          simp [hhead, hne]
        · exact ih (List.mem_cons_of_mem head hrest)

/-- The segments that are kept are names: not empty and without a slash. -/
theorem cleanSegments_names (rooted : Bool) (path : String) :
    ∀ segment ∈ cleanSegments rooted path, segment ≠ "" ∧ '/' ∉ segment.toList := by
  refine List.foldlRecOn (segments path) _ (motive := fun kept =>
    ∀ segment ∈ kept, segment ≠ "" ∧ '/' ∉ segment.toList) (by simp) ?_
  intro kept hkept name hname
  have hslash : '/' ∉ name.toList := by
    obtain ⟨part, hpart, rfl⟩ := List.mem_map.mp hname
    rw [String.toList_ofList]
    exact notMem_of_mem_splitOn hpart
  have happend (hne : name ≠ "") :
      ∀ segment ∈ kept ++ [name], segment ≠ "" ∧ '/' ∉ segment.toList := by
    intro segment hsegment
    rcases List.mem_append.mp hsegment with hmem | hmem
    · exact hkept segment hmem
    · rw [List.mem_singleton.mp hmem]
      exact ⟨hne, hslash⟩
  split
  · exact hkept
  · rename_i hskip
    have hne : name ≠ "" := fun heq => hskip (Or.inl heq)
    split
    · exact happend hne
    · split
      · exact fun segment hsegment => hkept segment (List.dropLast_subset _ hsegment)
      · split
        · exact hkept
        · exact happend hne

theorem isAbs_iff (path : String) : isAbs path = true ↔ path.toList.head? = some '/' := by
  unfold isAbs
  rw [String.startsWith_string_iff]
  cases path.toList with
  | nil => simp
  | cons c chars => simp [eq_comm]

/-- A cleaned path is absolute if the path is. -/
theorem isAbs_clean (path : String) : isAbs (clean path) = isAbs path := by
  unfold clean
  dsimp only
  cases hpath : isAbs path with
  | true =>
    rw [if_pos rfl, isAbs_iff]
    simp
  | false =>
    rw [if_neg Bool.false_ne_true]
    split
    · decide +kernel
    · rename_i hjoined
      rw [Bool.eq_false_iff, ne_eq, isAbs_iff]
      have hnames := cleanSegments_names false path
      cases hsegments : cleanSegments false path with
      | nil => simp [hsegments] at hjoined
      | cons first rest =>
        have hmem : first ∈ cleanSegments false path := by
          rw [hsegments]
          exact List.mem_cons_self
        obtain ⟨hne, hslash⟩ := hnames first hmem
        -- the path starts with the first character of its first segment
        have hhead : ("/".intercalate (first :: rest)).toList.head? = first.toList.head? := by
          rw [String.toList_intercalate]
          cases hchars : first.toList with
          | nil => exact absurd (String.toList_eq_nil_iff.mp hchars) hne
          | cons c chars => cases rest <;> simp [List.intercalate, hchars]
        rw [hhead]
        exact fun hslash' => hslash (List.mem_of_mem_head? hslash')

/-- `filepath.Dir`: everything before the last slash, cleaned. -/
def dir (path : String) : String :=
  let parent := "/".intercalate (segments path).dropLast
  if isAbs path then clean ("/" ++ parent) else clean parent

example : clean "/data//a/../b/." = "/data/b" := by decide +kernel

example : dir "/data" = "/" ∧ dir "/" = "/" ∧ dir "data" = "." := by decide +kernel

end K8StorageX.GoPaths
