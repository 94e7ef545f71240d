import Mathlib.Data.List.Induction
import Mathlib.Data.List.Perm.Basic

/-!
# Multimaps, group by group

An ordered multimap that is traversed one key at a time. The values of a key are in the
order of their insertion. Whatever the order of the keys is, the pairs of a multimap are
those that were inserted.
-/

namespace Multimap

variable {κ ν : Type*}

/-- The pairs of a multimap. -/
def pairs (m : List (κ × List ν)) : List (κ × ν) := m.flatMap fun group => group.2.map (group.1, ·)

theorem mem_pairs {m : List (κ × List ν)} {k : κ} {v : ν} :
    (k, v) ∈ pairs m ↔ ∃ vs, (k, vs) ∈ m ∧ v ∈ vs := by
  simp only [pairs, List.mem_flatMap, List.mem_map, Prod.mk.injEq, Prod.exists]
  constructor
  · rintro ⟨k, vs, hmem, v, hv, rfl, rfl⟩
    exact ⟨vs, hmem, hv⟩
  · rintro ⟨vs, hmem, hv⟩
    exact ⟨k, vs, hmem, v, hv, rfl, rfl⟩

variable [DecidableEq κ] (lt : κ → κ → Bool)

/-- Insert a value behind the other values of its key. -/
def insert (k : κ) (v : ν) : List (κ × List ν) → List (κ × List ν)
  | [] => [(k, [v])]
  | group :: rest =>
    if k = group.1 then (group.1, group.2 ++ [v]) :: rest
    else if lt k group.1 then (k, [v]) :: group :: rest
    else group :: insert k v rest

/-- The groups of pairs that are inserted one after another. -/
def groups (pairs : List (κ × ν)) : List (κ × List ν) :=
  pairs.foldl (fun m p => insert lt p.1 p.2 m) []

variable {lt}

theorem pairs_insert_perm (k : κ) (v : ν) (m : List (κ × List ν)) :
    (pairs (insert lt k v m)).Perm (pairs m ++ [(k, v)]) := by
  induction m with
  | nil => exact .rfl
  | cons group rest ih =>
    unfold insert
    split
    · next heq =>
      simp only [pairs, List.flatMap_cons, List.map_append, List.append_assoc]
      refine List.Perm.append_left _ ?_
      rw [heq]
      exact List.perm_append_comm
    · split
      · simp only [pairs, List.flatMap_cons, List.map_cons, List.map_nil]
        exact (List.perm_append_comm : ([(k, v)] ++ _).Perm _)
      · simp only [pairs, List.flatMap_cons, List.append_assoc] at ih ⊢
        exact List.Perm.append_left _ ih

theorem pairs_groups_perm (ps : List (κ × ν)) : (pairs (groups lt ps)).Perm ps := by
  induction ps using List.reverseRecOn with
  | nil => exact .rfl
  | append_singleton ps p ih =>
    rw [groups, List.foldl_append]
    refine (pairs_insert_perm p.1 p.2 (groups lt ps)).trans ?_
    exact List.Perm.append_right [p] ih

theorem mem_of_mem_groups {ps : List (κ × ν)} {group : κ × List ν} {v : ν}
    (hgroup : group ∈ groups lt ps) (hv : v ∈ group.2) : (group.1, v) ∈ ps :=
  (pairs_groups_perm ps).mem_iff.mp (mem_pairs.mpr ⟨group.2, hgroup, hv⟩)

/-- A search through the groups finds what a search through the pairs does. -/
theorem any_groups (p : κ → ν → Bool) (ps : List (κ × ν)) :
    ((groups lt ps).any fun group => group.2.any (p group.1)) = ps.any fun q => p q.1 q.2 := by
  have hperm : (pairs (groups lt ps)).Perm ps := pairs_groups_perm ps
  rw [← hperm.any_eq, pairs, List.any_flatMap]
  simp only [List.any_map, Function.comp_def]

theorem values_groups_perm (ps : List (κ × ν)) :
    ((groups lt ps).flatMap (·.2)).Perm (ps.map (·.2)) := by
  have hmap : (pairs (groups lt ps)).map (·.2) = (groups lt ps).flatMap (·.2) := by
    simp only [pairs, List.map_flatMap, List.map_map, Function.comp_def, List.map_id']
  rw [← hmap]
  exact (pairs_groups_perm ps).map _

end Multimap
