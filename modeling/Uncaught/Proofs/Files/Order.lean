import Mathlib.Data.List.Forall2
import Mathlib.Data.List.Sort
import Mathlib.Data.Prod.Lex
import Mathlib.Data.String.Basic
import Uncaught.Files.Path

/-!
Paths are ordered by their components, and two spellings of one path have the same components. Sorting
puts the spellings of a path side by side, so that dropping neighbours leaves each path once: a sorted
union is strictly increasing and depends on the set of paths alone.
-/

namespace Uncaught

namespace Path

namespace Component

def name : Component → String
  | .normal name => name
  | .root | .current | .parent => ""

/-- Components are compared by rank, names among themselves by their characters. -/
def key (c : Component) : ℕ ×ₗ String := toLex (c.rank, c.name)

theorem key_injective : Function.Injective key := by
  intro a b hkey
  obtain ⟨hrank, hname⟩ := Prod.mk.inj (toLex.injective hkey)
  cases a <;> cases b <;> simp_all [rank, name]

instance : LinearOrder Component := LinearOrder.lift' key key_injective

@[simp] theorem le_iff (a b : Component) : a.le b = true ↔ a ≤ b := by
  have hkey : a ≤ b ↔ a.rank < b.rank ∨ a.rank = b.rank ∧ a.name ≤ b.name :=
    Prod.Lex.toLex_le_toLex
  rw [hkey]
  cases a <;> cases b <;> simp [le, rank, name]

end Component

@[simp] theorem componentsLe_iff (as bs : List Component) : componentsLe as bs = true ↔ as ≤ bs := by
  induction as generalizing bs with
  | nil => exact iff_of_true rfl (not_lt.mp (List.not_lt_nil bs))
  | cons a as ih =>
      cases bs with
      | nil => exact iff_of_false Bool.false_ne_true (not_le.mpr (List.nil_lt_cons a as))
      | cons b bs =>
          rw [componentsLe, ← not_lt, List.cons_lt_cons_iff]
          by_cases hab : a = b
          · rw [if_pos hab, ih, hab]
            simp
          · rw [if_neg hab, Component.le_iff, ← not_lt]
            simp [Ne.symm hab]

@[simp] theorem le_iff (a b : String) : le a b = true ↔ components a ≤ components b :=
  componentsLe_iff _ _

@[simp] theorem same_iff (a b : String) : same a b = true ↔ components a = components b :=
  decide_eq_true_iff

/-! ### Sorted unions -/

/-- A path is dropped where the next path that is kept is the same. -/
theorem map_dedup_cons (path : String) (paths : List String) :
    (dedup (path :: paths)).map components =
      if ((dedup paths).map components).head? = some (components path) then
        (dedup paths).map components
      else components path :: (dedup paths).map components := by
  rw [dedup]
  cases hrest : dedup paths with
  | nil => rfl
  | cons next rest =>
      by_cases hsame : components path = components next
      · simp [(same_iff path next).mpr hsame, hsame]
      · have hnot : same path next = false := by
          rw [← Bool.not_eq_true, same_iff]
          exact hsame
        simp [hnot, Ne.symm hsame]

theorem mem_map_dedup (paths : List String) (c : List Component) :
    c ∈ (dedup paths).map components ↔ c ∈ paths.map components := by
  induction paths with
  | nil => rfl
  | cons path paths ih =>
      rw [map_dedup_cons, List.map_cons, List.mem_cons, ← ih]
      split
      next hhead =>
        have hmem : components path ∈ (dedup paths).map components := List.mem_of_head? hhead
        constructor
        · exact Or.inr
        · rintro (rfl | hc)
          · exact hmem
          · exact hc
      next => rw [List.mem_cons]

theorem dedup_sublist (paths : List String) : (dedup paths).Sublist paths := by
  induction paths with
  | nil => exact List.Sublist.refl []
  | cons path paths ih =>
      rw [dedup]
      cases hrest : dedup paths with
      | nil => exact (List.nil_sublist paths).cons_cons path
      | cons next rest =>
          rw [hrest] at ih
          dsimp only
          split
          · exact ((List.sublist_cons_self next rest).trans ih).cons_cons path
          · exact ih.cons_cons path

theorem pairwise_lt_dedup {paths : List String}
    (hsorted : (paths.map components).Pairwise (· ≤ ·)) :
    ((dedup paths).map components).Pairwise (· < ·) := by
  induction paths with
  | nil => exact List.Pairwise.nil
  | cons path paths ih =>
      rw [List.map_cons, List.pairwise_cons] at hsorted
      obtain ⟨hfirst, hrest⟩ := hsorted
      have hkept := ih hrest
      rw [map_dedup_cons]
      split
      next => exact hkept
      next hhead =>
        refine List.pairwise_cons.mpr ⟨fun c hc => ?_, hkept⟩
        -- what is kept starts with something larger, and only grows from there
        cases hdedup : (dedup paths).map components with
        | nil => simp [hdedup] at hc
        | cons next rest =>
            rw [hdedup] at hc hkept hhead
            have hnext : next ∈ paths.map components := by
              rw [← mem_map_dedup, hdedup]
              exact List.mem_cons_self
            have hlt : components path < next :=
              lt_of_le_of_ne (hfirst next hnext) fun heq => hhead (by rw [heq]; rfl)
            rcases List.mem_cons.mp hc with rfl | hc
            · exact hlt
            · exact hlt.trans ((List.pairwise_cons.mp hkept).1 c hc)

theorem pairwise_le_mergeSort (paths : List String) :
    ((paths.mergeSort le).map components).Pairwise (· ≤ ·) := by
  have htrans : ∀ a b c : String, le a b = true → le b c = true → le a c = true := by
    intro a b c
    simp only [le_iff]
    exact le_trans
  have htotal : ∀ a b : String, (le a b || le b a) = true := by
    intro a b
    simp only [Bool.or_eq_true, le_iff]
    exact le_total _ _
  rw [List.pairwise_map]
  exact (List.pairwise_mergeSort htrans htotal paths).imp fun {a b} hab => (le_iff a b).mp hab

theorem pairwise_lt_sortedUnion (paths : List String) :
    (sortedUnion paths).Pairwise fun a b => components a < components b :=
  List.pairwise_map.mp (pairwise_lt_dedup (pairwise_le_mergeSort paths))

theorem mem_of_mem_sortedUnion {path : String} {paths : List String} (hpath : path ∈ sortedUnion paths) :
    path ∈ paths :=
  List.mem_mergeSort.mp ((dedup_sublist _).mem hpath)

theorem mem_map_sortedUnion (paths : List String) (c : List Component) :
    c ∈ (sortedUnion paths).map components ↔ c ∈ paths.map components := by
  rw [sortedUnion, mem_map_dedup]
  simp only [List.mem_map, List.mem_mergeSort]

/-- Each path that is given is in the union, in one of its spellings. -/
theorem exists_same_sortedUnion_iff (paths : List String) (path : String) :
    (∃ p ∈ sortedUnion paths, same p path = true) ↔ ∃ p ∈ paths, same p path = true := by
  simpa using mem_map_sortedUnion paths (components path)

/-- Only the set of paths matters. -/
theorem sortedUnion_congr {paths paths' : List String}
    (hpaths : ∀ c, c ∈ paths.map components ↔ c ∈ paths'.map components) :
    List.Forall₂ (fun a b => same a b = true) (sortedUnion paths) (sortedUnion paths') := by
  have heq : (sortedUnion paths).map components = (sortedUnion paths').map components := by
    apply List.Pairwise.eq_of_mem_iff (r := (· < ·))
    · exact List.pairwise_map.mpr (pairwise_lt_sortedUnion paths)
    · exact List.pairwise_map.mpr (pairwise_lt_sortedUnion paths')
    · intro c
      rw [mem_map_sortedUnion, mem_map_sortedUnion, hpaths]
  simp only [same_iff]
  rw [← List.forall₂_map_right_iff (R := fun a c => components a = c), ← List.forall₂_map_left_iff,
    List.forall₂_eq_eq_eq]
  exact heq

end Path

end Uncaught
