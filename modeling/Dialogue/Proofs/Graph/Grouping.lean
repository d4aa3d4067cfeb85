import Dialogue.Document
import Mathlib.Data.List.Basic

/-!
# Grouping by kind

A document holds nodes by kind and properties by type, so a graph comes back from it with its nodes
and properties grouped. `grouped` is this rearrangement: one group for each key, each in the old
order. It loses nothing (`grouped_perm`), and what is read from one group only is read as before
(`filterMap_grouped`).
-/

namespace Dialogue

/-- A list in groups, one for each key in turn, each group in the order of the list. -/
def grouped {α κ : Type} [DecidableEq κ] (key : α → κ) (keys : List κ) (xs : List α) : List α :=
  keys.flatMap fun k => xs.filter fun x => key x = k

/-- The kinds of nodes in the order of a document. -/
def NodeKind.saveOrder : List String := ["basic", "choice", "condition", "focus", "event", "exit"]

/-- The kinds of properties in the order of a document. -/
def PropertyKind.saveOrder : List PropertyKind := [.int, .string, .bool]

section

variable {α κ : Type} [DecidableEq κ] {key : α → κ} {keys : List κ} {xs : List α}

theorem grouped_cons (k : κ) : grouped key (k :: keys) xs =
    (xs.filter fun x => key x = k) ++ grouped key keys xs :=
  List.flatMap_cons

theorem grouped_filter_ne {k : κ} (hk : k ∉ keys) :
    grouped key keys (xs.filter fun x => !decide (key x = k)) = grouped key keys xs := by
  refine List.flatMap_congr fun k' hk' => ?_
  have hne : k' ≠ k := fun h => hk (h ▸ hk')
  rw [List.filter_filter]
  refine List.filter_congr fun x _ => ?_
  by_cases hx : key x = k'
  · simp [hx, hne]
  · simp [hx]

theorem grouped_perm (hkeys : keys.Nodup) :
    (∀ x ∈ xs, key x ∈ keys) → (grouped key keys xs).Perm xs := by
  induction keys generalizing xs with
  | nil =>
    intro h
    cases xs with
    | nil => exact .nil
    | cons x xs => exact absurd (h x List.mem_cons_self) List.not_mem_nil
  | cons k keys ih =>
    intro h
    obtain ⟨hk, hkeys⟩ := List.nodup_cons.mp hkeys
    have hrest : (grouped key keys (xs.filter fun x => !decide (key x = k))).Perm
        (xs.filter fun x => !decide (key x = k)) := by
      refine ih hkeys fun x hx => ?_
      obtain ⟨hmem, hne⟩ := List.mem_filter.mp hx
      exact (List.mem_cons.mp (h x hmem)).resolve_left (by simpa using hne)
    rw [grouped_filter_ne hk] at hrest
    rw [grouped_cons]
    exact (hrest.append_left _).trans (List.filter_append_perm (fun x => decide (key x = k)) xs)

theorem grouped_map {f : α → α} (hf : ∀ x ∈ xs, key (f x) = key x) :
    grouped key keys (xs.map f) = (grouped key keys xs).map f := by
  unfold grouped
  rw [List.map_flatMap]
  refine List.flatMap_congr fun k _ => ?_
  rw [List.filter_map]
  congr 1
  refine List.filter_congr fun x hx => ?_
  simp only [Function.comp_apply, hf x hx]

theorem filterMap_grouped {β : Type} {f : α → Option β} {k : κ} (hkeys : keys.Nodup) (hk : k ∈ keys)
    (hf : ∀ x, key x ≠ k → f x = none) : (grouped key keys xs).filterMap f = xs.filterMap f := by
  have hown : (xs.filter fun x => key x = k).filterMap f = xs.filterMap f := by
    rw [List.filterMap_filter]
    refine List.filterMap_congr fun x _ => ?_
    by_cases hx : key x = k
    · simp [hx]
    · simp [hx, hf x hx]
  have hother : ∀ k', k' ≠ k → (xs.filter fun x => key x = k').filterMap f = [] := by
    intro k' hne
    rw [List.filterMap_eq_nil_iff]
    intro x hx
    have hkey : key x = k' := by simpa using (List.mem_filter.mp hx).2
    exact hf x (hkey ▸ hne)
  have hnone : ∀ ks : List κ, k ∉ ks → (grouped key ks xs).filterMap f = [] := by
    intro ks hks
    rw [grouped, List.filterMap_flatMap]
    exact List.flatMap_eq_nil_iff.mpr fun k' hk' => hother k' fun h => hks (h ▸ hk')
  induction keys with
  | nil => exact absurd hk List.not_mem_nil
  | cons k' keys ih =>
    obtain ⟨hk', hkeys⟩ := List.nodup_cons.mp hkeys
    rw [grouped_cons, List.filterMap_append]
    by_cases hsame : k' = k
    · subst hsame
      rw [hown, hnone keys hk', List.append_nil]
    · rw [hother k' hsame, List.nil_append]
      exact ih hkeys ((List.mem_cons.mp hk).resolve_left (Ne.symm hsame))

end

end Dialogue
