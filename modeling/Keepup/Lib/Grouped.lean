import Keepup.Lib.Dict
import Mathlib.Data.List.Induction

/-!
A list split into groups by a key, beside the elements that have none. Nothing is lost of it and
nothing comes twice.
-/

namespace Keepup.Lib.Grouped

variable {κ α : Type} [DecidableEq κ] (key : α → Option κ)

def place (grouped : Dict κ (List α) × List α) (a : α) : Dict κ (List α) × List α :=
  match key a with
  | some k => (grouped.1.set k (grouped.1.getD k [] ++ [a]), grouped.2)
  | none => (grouped.1, grouped.2 ++ [a])

def group (as : List α) : Dict κ (List α) × List α := as.foldl (place key) (∅, [])

/-- The elements of all groups, and those without one. -/
def members (grouped : Dict κ (List α) × List α) :
    List α := grouped.1.values.flatMap id ++ grouped.2

variable {key}

theorem group_append (as : List α) (a : α) :
    group key (as ++ [a]) = place key (group key as) a := by
  rw [group, List.foldl_append, List.foldl_cons, List.foldl_nil, ← group]

theorem members_place (grouped : Dict κ (List α) × List α) (a : α) :
    (members (place key grouped a)).Perm (members grouped ++ [a]) := by
  rw [place]
  cases key a with
  | none => rw [members, members, List.append_assoc]
  | some k =>
      have hset := grouped.1.flatMap_set id k (grouped.1.getD k [] ++ [a])
      have hold : ((grouped.1.get? k).map id).getD [] = grouped.1.getD k [] := by
        rw [Option.map_id]
        rfl
      rw [hold, id_eq] at hset
      -- the elements that the group had are on both sides
      have hgroups : ((grouped.1.set k (grouped.1.getD k [] ++ [a])).values.flatMap id).Perm
          (grouped.1.values.flatMap id ++ [a]) := by
        rw [← List.perm_append_right_iff (grouped.1.getD k [])]
        refine hset.trans ?_
        rw [List.append_assoc]
        exact List.perm_append_comm.append_left _
      simp only [members, List.append_assoc]
      refine (hgroups.append_right grouped.2).trans ?_
      rw [List.append_assoc]
      exact List.perm_append_comm.append_left _

theorem members_group (as : List α) : (members (group key as)).Perm as := by
  induction as using List.reverseRecOn with
  | nil => exact .refl _
  | append_singleton as a ih =>
      rw [group_append]
      exact (members_place _ a).trans (ih.append_right [a])

end Keepup.Lib.Grouped
