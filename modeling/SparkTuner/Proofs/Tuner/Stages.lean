import SparkTuner.Proofs.Ledger.Enforced
import SparkTuner.Proofs.Rules.Frame

/-!
# The stages of a run

A run opens the known keys, fixes the values of the user, sizes the executors, and then applies the
other rules. Up to the third stage every key that the user gave no value is untouched, and after it
a key changes only if a rule writes about it (`account_final`).
-/

namespace SparkTuner

open Ledger Number

namespace Tuner

variable {K : Type}

theorem account_initial (t : Tuner K) (key : String) : t.initial.ledger.account key = {} := by
  refine account_run_of_forall_ne fun op hop hk => ?_
  obtain ⟨c, -, rfl⟩ := List.mem_map.1 hop
  cases hk

variable {t : Tuner K} {key : String}

theorem isSkipped_of_policy {l : Ledger} (hpolicy : l.policy = t.policy)
    (hskip : key ∉ t.policy.skip) : l.isSkipped key = false := by
  simp [isSkipped, hpolicy, hskip]

variable [Quantity K]

/-! ## Opening a run -/

/-- The state once the known keys are opened. -/
def seeded (t : Tuner K) : State := Rule.seed.apply t.context t.initial

/-- The state once the values of the user are fixed. -/
def fixed (t : Tuner K) : State := Rule.enforce.apply t.context t.seeded

/-- The state once the executors are sized. -/
def sized (t : Tuner K) : State := Rule.executor.apply t.context t.fixed

theorem seeded_eq (t : Tuner K) :
    t.seeded = t.initial.write (Definition.all.map fun d => .seed d.key) := rfl

theorem fixed_eq (t : Tuner K) :
    t.fixed = t.seeded.write (t.enforced.toList.map fun p => .enforce p.1 p.2) := rfl

theorem sized_eq (t : Tuner K) : t.sized = Rules.executor t.context t.fixed := rfl

theorem memory_fixed (t : Tuner K) : t.fixed.memory = none := by
  rw [fixed_eq, State.memory_write, seeded_eq, State.memory_write]
  rfl

theorem final_eq (t : Tuner K) :
    t.final = Rule.applyAll t.context (Rule.all.drop 3) t.sized := by
  unfold final Rule.applyAll Rule.all sized fixed seeded
  rw [List.foldl_cons, List.foldl_cons, List.foldl_cons]
  rfl

theorem isSkipped_seeded (t : Tuner K) (key : String) :
    t.seeded.ledger.isSkipped key = t.policy.skip.contains key := by
  rw [seeded_eq, State.ledger_write, isSkipped_run]
  exact isSkipped_run ..

theorem untouched_seeded (t : Tuner K) (key : String) :
    (t.seeded.ledger.account key).IsUntouched (t.seeded.ledger.freshEntry key) := by
  rw [seeded_eq, State.ledger_write, freshEntry_run]
  refine account_run_induction (fun op hop _ a ha => ?_) ?_
  · obtain ⟨d, -, rfl⟩ := List.mem_map.1 hop
    exact ha.after_seed d.key
  · rw [account_initial]
    exact Or.inl rfl

/-! ## Rule by rule -/

/-- The state after so many rules. -/
def stage (t : Tuner K) (n : Nat) : State := Rule.applyAll t.context (Rule.all.take n) t.initial

theorem stage_add (t : Tuner K) (n : Nat) :
    t.stage (3 + n) = Rule.applyAll t.context ((Rule.all.drop 3).take n) t.sized := by
  rw [stage, List.take_add, Rule.applyAll, List.foldl_append]
  rfl

theorem stage_all (t : Tuner K) : t.stage (3 + 14) = t.final := by
  rw [stage_add, final_eq]
  rfl

theorem stage_succ (t : Tuner K) {n : Nat} {r : Rule} (h : Rule.all[n]? = some r) :
    t.stage (n + 1) = r.apply t.context (t.stage n) := by
  rw [stage, List.take_add_one, h, Rule.applyAll, List.foldl_append]
  rfl

/-- Once the values of the user are fixed, no rule changes anything of the key. -/
def LeavesAlone (t : Tuner K) (key : String) : Prop :=
  ∀ n, (t.stage (2 + n)).ledger.account key = t.fixed.ledger.account key

theorem LeavesAlone.account_final (h : t.LeavesAlone key) :
    t.final.ledger.account key = t.fixed.ledger.account key := by
  rw [← t.stage_all]
  exact h 15

/-- It is enough that neither the sizing of the executors nor any rule after it changes the key. -/
theorem leavesAlone_of_sized
    (hsized : t.sized.ledger.account key = t.fixed.ledger.account key)
    (hlater : ∀ n, (t.stage (3 + n)).ledger.account key = t.sized.ledger.account key) :
    t.LeavesAlone key := by
  intro n
  cases n with
  | zero => rfl
  | succ n =>
    have hstage : t.stage (2 + (n + 1)) = t.stage (3 + n) := by
      congr 1
      omega
    rw [hstage, hlater, hsized]

/-- Rules after that of the executors change a key only if they write about it. -/
theorem account_applyAll_later (t : Tuner K) {rules : List Rule} (hlater : rules ⊆ Rule.all.drop 3)
    (h : ∀ r ∈ rules, key ∉ r.keys) (s : State) :
    (Rule.applyAll t.context rules s).ledger.account key = s.ledger.account key := by
  have hothers : ∀ r ∈ Rule.all.drop 3, r ≠ .seed ∧ r ≠ .enforce := by decide
  refine Rule.account_applyAll_of_not_mem fun r hr => ?_
  obtain ⟨hseed, henforce⟩ := hothers r (hlater hr)
  exact ⟨hseed, henforce, h r hr⟩

/-- What no rule between writes about is as the sizing of the executors left it. -/
theorem account_stage_of_unwritten (t : Tuner K) {n : Nat}
    (h : ∀ r ∈ (Rule.all.drop 3).take n, key ∉ r.keys) :
    (t.stage (3 + n)).ledger.account key = t.sized.ledger.account key := by
  rw [stage_add]
  exact t.account_applyAll_later (List.take_subset n _) h t.sized

/-- After the executors are sized a key changes only if a later rule writes about it. -/
theorem account_stage (t : Tuner K) (h : ∀ r ∈ Rule.all.drop 3, key ∉ r.keys) (n : Nat) :
    (t.stage (3 + n)).ledger.account key = t.sized.ledger.account key :=
  t.account_stage_of_unwritten fun r hr => h r (List.mem_of_mem_take hr)

/-- What no rule after writes about stands at the end. -/
theorem account_final_of_unwritten (t : Tuner K) {n : Nat}
    (h : ∀ r ∈ (Rule.all.drop 3).drop n, key ∉ r.keys) :
    t.final.ledger.account key = (t.stage (3 + n)).ledger.account key := by
  have hfinal : t.final = Rule.applyAll t.context ((Rule.all.drop 3).drop n) (t.stage (3 + n)) := by
    rw [final_eq, stage_add, Rule.applyAll, Rule.applyAll, Rule.applyAll, ← List.foldl_append,
      List.take_append_drop]
  rw [hfinal]
  exact t.account_applyAll_later (List.drop_subset n _) h _

theorem memory_stage (t : Tuner K) (n : Nat) :
    (t.stage (3 + n)).memory = t.sized.memory ∧
      (t.stage (3 + n)).staysInWords = t.sized.staysInWords := by
  have hlater : ∀ r ∈ Rule.all.drop 3, r ≠ .executor := by decide
  rw [stage_add]
  exact Rule.memory_applyAll fun r hr => hlater r (List.mem_of_mem_take hr)

/-! ## From the values of the user to the end -/

theorem memory_final (t : Tuner K) :
    t.final.memory = t.sized.memory ∧ t.final.staysInWords = t.sized.staysInWords :=
  t.stage_all ▸ t.memory_stage 14

theorem policy_fixed (t : Tuner K) : t.fixed.ledger.policy = t.policy := by
  have hinitial : t.initial.ledger.policy = t.policy := policy_run ..
  exact (Rule.policy_apply .enforce).trans ((Rule.policy_apply .seed).trans hinitial)

theorem source_fixed (t : Tuner K) : t.fixed.ledger.source = t.source := by
  have hinitial : t.initial.ledger.source = t.source := source_run ..
  exact (Rule.source_apply .enforce).trans ((Rule.source_apply .seed).trans hinitial)

theorem policy_sized (t : Tuner K) : t.sized.ledger.policy = t.policy :=
  (Rule.policy_apply .executor).trans t.policy_fixed

theorem source_sized (t : Tuner K) : t.sized.ledger.source = t.source :=
  (Rule.source_apply .executor).trans t.source_fixed

theorem policy_final (t : Tuner K) : t.final.ledger.policy = t.policy := by
  rw [final_eq, Rule.policy_applyAll, policy_sized]

theorem source_final (t : Tuner K) : t.final.ledger.source = t.source := by
  rw [final_eq, Rule.source_applyAll, source_sized]

theorem account_fixed (h : t.enforced.get? key = none) :
    t.fixed.ledger.account key = t.seeded.ledger.account key := by
  rw [fixed_eq, State.ledger_write, account_run_of_forall_ne (key?_enforce_ne ?_)]
  rintro ⟨k, v⟩ hp rfl
  rw [KeyMap.get?_eq_some_iff.2 hp] at h
  cases h

theorem untouched_fixed (h : t.enforced.get? key = none) :
    (t.fixed.ledger.account key).IsUntouched (t.fixed.ledger.freshEntry key) := by
  have hfresh : t.fixed.ledger.freshEntry key = t.seeded.ledger.freshEntry key :=
    freshEntry_congr (Rule.source_apply .enforce) (Rule.policy_apply .enforce) key
  rw [account_fixed h, hfresh]
  exact t.untouched_seeded key

/-- What the rule of the executors leaves of a key stands at the end, if no later rule writes about
the key. -/
theorem account_final (t : Tuner K) (h : ∀ r ∈ Rule.all.drop 3, key ∉ r.keys) :
    t.final.ledger.account key = t.sized.ledger.account key :=
  t.stage_all ▸ t.account_stage h 14

theorem account_sized (t : Tuner K) (h : key ∉ Rule.keys .executor) :
    t.sized.ledger.account key = t.fixed.ledger.account key :=
  Rule.account_apply_of_not_mem (by decide) (by decide) h

theorem source_stage (t : Tuner K) (n : Nat) : (t.stage n).ledger.source = t.source :=
  (Rule.source_applyAll _).trans (source_run ..)

theorem policy_stage (t : Tuner K) (n : Nat) : (t.stage n).ledger.policy = t.policy :=
  (Rule.policy_applyAll _).trans (policy_run ..)

/-- A run recommends what its last ledger holds, if all sums on the way stay in words. -/
theorem of_recommend? {r : Recommendations} (h : t.recommend? = some r) :
    t.final.staysInWords = true ∧ t.final.ledger.finish = r := by
  unfold recommend? at h
  split at h
  next hwords => exact ⟨hwords, Option.some.inj h⟩
  next => cases h

end Tuner

end SparkTuner
