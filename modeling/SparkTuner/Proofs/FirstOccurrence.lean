import Mathlib.Data.List.Induction
import Mathlib.Data.List.Nodup

/-!
# Lists in order of first occurrence

Dropping repetitions keeps the first occurrence of each member, where it stands
(`listsOnce_eraseDups`).
-/

namespace SparkTuner

variable {α : Type} [BEq α] {given listed : List α}

/-- The list has the members of the given one, each once, in the order in which they first occur
there. -/
structure ListsOnce (given listed : List α) : Prop where
  mem_iff : ∀ a, a ∈ listed ↔ a ∈ given
  ordered : listed.Pairwise fun a b => given.idxOf a < given.idxOf b

theorem ListsOnce.nodup (h : ListsOnce given listed) : listed.Nodup :=
  h.ordered.imp fun hlt heq => by simp [heq] at hlt

variable [LawfulBEq α]

/-- A member at the end is kept if it is a new one. -/
theorem eraseDups_concat (xs : List α) (x : α) :
    (xs ++ [x]).eraseDups = if x ∈ xs then xs.eraseDups else xs.eraseDups ++ [x] := by
  rw [List.eraseDups_append]
  split
  next h => simp [List.removeAll, h]
  next h => simp [List.removeAll, h, List.eraseDups_cons]

theorem listsOnce_eraseDups (xs : List α) : ListsOnce xs xs.eraseDups := by
  refine ⟨fun _ => List.mem_eraseDups, ?_⟩
  induction xs using List.reverseRecOn with
  | nil => exact List.Pairwise.nil
  | append_singleton xs x ih =>
    -- the members so far first occur where they did
    have hfirst : xs.eraseDups.Pairwise fun a b => (xs ++ [x]).idxOf a < (xs ++ [x]).idxOf b := by
      refine ih.imp_of_mem fun {a b} ha hb hlt => ?_
      rwa [List.idxOf_append_of_mem (List.mem_eraseDups.1 ha),
        List.idxOf_append_of_mem (List.mem_eraseDups.1 hb)]
    rw [eraseDups_concat]
    split
    next => exact hfirst
    next hnew =>
      refine List.pairwise_append.2 ⟨hfirst, List.pairwise_singleton _ x, fun a ha b hb => ?_⟩
      rw [List.mem_eraseDups] at ha
      rw [List.mem_singleton.1 hb, List.idxOf_append_of_mem ha, List.idxOf_append_of_notMem hnew]
      exact Nat.lt_add_right _ (List.idxOf_lt_length_of_mem ha)

theorem eraseDups_of_nodup (h : given.Nodup) : given.eraseDups = given := by
  induction given using List.reverseRecOn with
  | nil => rfl
  | append_singleton xs x ih =>
    obtain ⟨hxs, -, hnew⟩ := List.nodup_append.1 h
    rw [eraseDups_concat, if_neg fun hx => hnew x hx x List.mem_cons_self rfl, ih hxs]

end SparkTuner
