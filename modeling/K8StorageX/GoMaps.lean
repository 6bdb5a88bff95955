import Mathlib.Data.List.Dedup
import Mathlib.Data.List.Nodup
import Mathlib.Data.List.Sort
import Mathlib.Data.String.Basic

/-!
# Iterating over Go maps

A Go map is a function from names to values, and `range` yields its names in an order
that the language does not determine. Code that sorts the names first does not depend
on the order: the names come out strictly sorted, and a strictly sorted list is
determined by its members.
-/

namespace K8StorageX.GoMaps

variable {V : Type*}

/-- The names that `range` yields on a map. -/
structure Iterates (m : String → Option V) (names : List String) : Prop where
  /-- Every name is yielded once. -/
  nodup : names.Nodup
  /-- The names with a value are yielded. -/
  mem_iff : ∀ name, name ∈ names ↔ m name ≠ none

/-- `sort.Strings` -/
def sortStrings (names : List String) : List String := names.mergeSort fun a b => decide (a ≤ b)

@[simp] theorem mem_sortStrings {names : List String} {name : String} :
    name ∈ sortStrings names ↔ name ∈ names :=
  List.mem_mergeSort

/-- Names that are all different are strictly sorted by `sort.Strings`. -/
theorem pairwise_sortStrings {names : List String} (h : names.Nodup) :
    (sortStrings names).Pairwise (· < ·) := by
  have htrans : ∀ a b c : String, decide (a ≤ b) = true → decide (b ≤ c) = true →
      decide (a ≤ c) = true := fun a b c hab hbc =>
    decide_eq_true (le_trans (of_decide_eq_true hab) (of_decide_eq_true hbc))
  have htotal : ∀ a b : String, (decide (a ≤ b) || decide (b ≤ a)) = true := fun a b => by
    simpa using le_total a b
  have hsorted : (sortStrings names).Pairwise fun a b => decide (a ≤ b) = true :=
    List.pairwise_mergeSort htrans htotal _
  have hnodup : (sortStrings names).Nodup := (List.mergeSort_perm _ _).nodup_iff.mpr h
  exact (hsorted.and hnodup).imp fun hab => lt_of_le_of_ne (of_decide_eq_true hab.1) hab.2

/-- Lists that are strictly sorted by name are equal if they have the same members. -/
theorem eq_of_sorted_of_mem_iff (name : V → String) {a b : List V}
    (ha : a.Pairwise fun v w => name v < name w) (hb : b.Pairwise fun v w => name v < name w)
    (hmem : ∀ v, v ∈ a ↔ v ∈ b) : a = b := by
  have hnodup : ∀ {l : List V}, (l.Pairwise fun v w => name v < name w) → l.Nodup := fun hl =>
    hl.imp fun hlt heq => (heq ▸ hlt).ne rfl
  have hperm : a.Perm b := (List.perm_ext_iff_of_nodup (hnodup ha) (hnodup hb)).mpr hmem
  exact hperm.eq_of_pairwise (fun v w _ _ hvw hwv => absurd (hvw.trans hwv) (lt_irrefl _)) ha hb

end K8StorageX.GoMaps
