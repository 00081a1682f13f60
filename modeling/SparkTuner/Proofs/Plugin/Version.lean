import Mathlib.Data.Nat.Notation
import Mathlib.Order.Defs.LinearOrder
import SparkTuner.Plugin.Version

/-!
# The order of plugin versions

Comparing two versions is comparing what is left of their numbers when the zeros at the end are
taken away (`compare_eq`), and lists of numbers are totally ordered. Hence the versions are, up to
these zeros (`versions_are_ordered`).
-/

namespace SparkTuner

open Text

namespace PluginVersion

/-! ## Zeros at the end do not count -/

/-- The numbers without the zeros at their end. -/
def significant (ns : List ℕ) : List ℕ := dropEndWhile (· == 0) ns

/-- A number in front of others that do not end in a zero. With none of them, a zero is at the end
itself. -/
def inFront (n : ℕ) (ns : List ℕ) : List ℕ := if ns = [] ∧ n = 0 then [] else n :: ns

theorem significant_cons (n : ℕ) (ns : List ℕ) :
    significant (n :: ns) = inFront n (significant ns) := by
  unfold significant dropEndWhile inFront
  rw [List.reverse_cons, List.dropWhile_append]
  cases ns.reverse.dropWhile (· == 0) with
  | nil =>
    by_cases hzero : n = 0
    · subst hzero
      rfl
    · have hkept : [n].dropWhile (· == 0) = [n] :=
        List.dropWhile_cons_of_neg fun h => hzero (eq_of_beq h)
      simp [hkept, hzero]
  | cons m ms => simp

/-- A zero in front of nothing stands for the numbers that a shorter version does not have. -/
theorem compare_inFront (a b : ℕ) (as bs : List ℕ) :
    Ord.compare (inFront a as) (inFront b bs) = (Ord.compare a b).then (Ord.compare as bs) := by
  have hnone : ∀ (n : ℕ) (ns : List ℕ), ¬(ns = [] ∧ n = 0) →
      (Ord.compare 0 n).then (Ord.compare [] ns) = .lt := by
    intro n ns hsome
    cases n with
    | zero =>
      obtain ⟨m, ms, rfl⟩ := List.exists_cons_of_ne_nil fun h => hsome ⟨h, rfl⟩
      rfl
    | succ n =>
      have hless : Ord.compare 0 (n + 1) = .lt := Nat.compare_eq_lt.2 n.succ_pos
      rw [hless]
      rfl
  unfold inFront
  by_cases ha : as = [] ∧ a = 0
  · obtain ⟨rfl, rfl⟩ := ha
    by_cases hb : bs = [] ∧ b = 0
    · obtain ⟨rfl, rfl⟩ := hb
      rfl
    · rw [if_pos ⟨rfl, rfl⟩, if_neg hb, hnone b bs hb]
      rfl
  · rw [if_neg ha]
    by_cases hb : bs = [] ∧ b = 0
    · obtain ⟨rfl, rfl⟩ := hb
      have hless := hnone a as ha
      have hswap : (Ord.compare a 0).then (Ord.compare as []) = Ordering.gt := by
        rw [← Ordering.swap_eq_lt, Ordering.swap_then, ← Std.OrientedOrd.eq_swap,
          ← Std.OrientedOrd.eq_swap]
        exact hless
      rw [if_pos ⟨rfl, rfl⟩, hswap]
      rfl
    · rw [if_neg hb]
      exact List.compare_cons_cons

theorem compareNumbers_eq (as bs : List ℕ) :
    compareNumbers as bs = Ord.compare (significant as) (significant bs) := by
  fun_induction compareNumbers as bs with
  | case1 => rfl
  -- the list that is over is one whose next number is a zero
  | case2 a as ih =>
    rw [ih, significant_cons, ← compare_inFront]
    rfl
  | case3 b bs ih =>
    rw [ih, significant_cons, ← compare_inFront]
    rfl
  | case4 a as b bs ih => rw [ih, significant_cons, significant_cons, compare_inFront]

theorem compare_eq (v w : PluginVersion) :
    v.compare w = Ord.compare (significant v.numbers) (significant w.numbers) :=
  compareNumbers_eq v.numbers w.numbers

/-! ## The order -/

instance : Std.TransCmp compare where
  eq_swap := by
    intro v w
    rw [compare_eq, compare_eq]
    exact Std.OrientedOrd.eq_swap
  isLE_trans := by
    intro u v w huv hvw
    rw [compare_eq] at huv hvw ⊢
    exact Std.TransOrd.isLE_trans huv hvw

theorem compare_eq_eq_iff {v w : PluginVersion} :
    v.compare w = .eq ↔ significant v.numbers = significant w.numbers := by
  rw [compare_eq]
  exact Std.LawfulEqOrd.compare_eq_iff_eq

theorem same_iff {v w : PluginVersion} : v.same w = true ↔ v.compare w = .eq := beq_iff_eq

theorem same_equivalence : Equivalence fun v w : PluginVersion => v.same w = true := by
  simp only [same_iff, compare_eq_eq_iff]
  exact ⟨fun _ => rfl, Eq.symm, Eq.trans⟩

theorem isLE_total (v w : PluginVersion) :
    ((v.compare w).isLE || (w.compare v).isLE) = true := by
  have hswap : w.compare v = (v.compare w).swap := Std.OrientedCmp.eq_swap
  rw [hswap]
  cases v.compare w <;> rfl

theorem pairwise_sorted (vs : List PluginVersion) :
    (sorted vs).Pairwise fun v w => (v.compare w).isLE = true :=
  List.pairwise_mergeSort (fun _ _ _ => Std.TransCmp.isLE_trans) isLE_total vs

/-- Versions that are equal keep the order in which they are listed. -/
theorem sublist_sorted {us vs : List PluginVersion}
    (hequal : us.Pairwise fun v w => v.same w = true) (h : us.Sublist vs) :
    us.Sublist (sorted vs) := by
  have hascending : us.Pairwise fun v w => (v.compare w).isLE = true := by
    refine hequal.imp fun {v w} hsame => ?_
    rw [same_iff.1 hsame]
    rfl
  exact List.sublist_mergeSort (fun _ _ _ => Std.TransCmp.isLE_trans) isLE_total hascending h

end PluginVersion

open PluginVersion in
/-- Versions are totally ordered up to the zeros at their ends: by the first number that differs
among those that are left. Sorting puts the older version first, and leaves equal ones as they
stand. -/
theorem versions_are_ordered :
    (∀ v w : PluginVersion,
      v.compare w = Ord.compare (significant v.numbers) (significant w.numbers)) ∧
    (∀ v w : PluginVersion, v.compare w = (w.compare v).swap) ∧
    (∀ u v w : PluginVersion, (u.compare v).isLE = true → (v.compare w).isLE = true →
      (u.compare w).isLE = true) ∧
    (∀ v w : PluginVersion, v.compare w = .eq ↔ significant v.numbers = significant w.numbers) ∧
    (∀ v w : PluginVersion, v.compare w = .eq →
      ∀ u, v.compare u = w.compare u ∧ u.compare v = u.compare w) ∧
    (Equivalence fun v w : PluginVersion => v.same w = true) ∧
    (∀ v w : PluginVersion, v.same w = true ↔ v.compare w = .eq) ∧
    ∀ vs, (sorted vs).Perm vs ∧
      ((sorted vs).Pairwise fun v w => (v.compare w).isLE = true) ∧
      ∀ us : List PluginVersion, (us.Pairwise fun v w => v.same w = true) → us.Sublist vs →
        us.Sublist (sorted vs) := by
  refine ⟨compare_eq, fun _ _ => Std.OrientedCmp.eq_swap, fun _ _ _ => Std.TransCmp.isLE_trans,
    fun _ _ => compare_eq_eq_iff, ?_, same_equivalence, fun _ _ => same_iff, ?_⟩
  · intro v w hequal u
    exact ⟨Std.TransCmp.congr_left hequal, Std.TransCmp.congr_right hequal⟩
  · intro vs
    exact ⟨List.mergeSort_perm vs _, pairwise_sorted vs, fun _ => sublist_sorted⟩

/-- A zero at the end does not change the place of a version, and sorting leaves the two ways to
write it as they stand. -/
theorem zeroAtEnd_ordered :
    let short : PluginVersion := ⟨"24.08", [24, 8]⟩
    let long : PluginVersion := ⟨"24.08.0", [24, 8, 0]⟩
    let next : PluginVersion := ⟨"24.10", [24, 10]⟩
    short.same long = true ∧ short.compare next = long.compare next ∧
      (short.compare next).isLE = true ∧
      [short, long].Sublist (PluginVersion.sorted [next, short, long]) := by
  intro short long next
  obtain ⟨-, -, htrans, heq, hcongr, -, hsame, hsort⟩ := versions_are_ordered
  have hequal : short.compare long = .eq := (heq short long).2 rfl
  have hle : (short.compare long).isLE = true := by rw [hequal]; rfl
  have hnext : (long.compare next).isLE = true := by cbv
  have hpair : [short, long].Pairwise fun v w => v.same w = true :=
    List.pairwise_pair.2 ((hsame short long).2 hequal)
  refine ⟨(hsame short long).2 hequal, (hcongr short long hequal next).1,
    htrans short long next hle hnext, ?_⟩
  exact (hsort [next, short, long]).2.2 [short, long] hpair (List.sublist_cons_self next _)

end SparkTuner
