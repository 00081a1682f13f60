import SparkTuner.Proofs.Ledger.Reported
import SparkTuner.Proofs.Rules.Frame

/-!
# Limited keys under the rules

A suggestion asks whether its key is limited, and gives a limited key its default at most. Some
rules write without asking, about the keys of `uncheckedKeys`; for all other keys, every rule after
that of the executors respects the limits (`apply_respects`). The rule of the executors does so too,
unless the memory falls short (`executor_respects`).
-/

namespace SparkTuner

open Ledger Number

/-- The keys that rules recommend values for without asking whether the key is limited. -/
def Rule.uncheckedKeys : List String :=
  [Key.sqlEnabled, Key.fileCacheEnabled, Key.kryoRegistrator, Key.kryoBufferMax, Key.aqeEnabled,
    Key.databricksAutoOptimizeShuffle, Key.aqeParallelismFirst, Key.incompatibleDateFormats,
    Key.databricksDynamicFilePruning]

/-- The operation gives a limited key its default at most. -/
def Ledger.Op.Respects (source : KeyMap String) (policy : KeyPolicy) (op : Op) : Prop :=
  ∀ key, op.key? = some key → key ∈ policy.limited → key ∉ Rule.uncheckedKeys →
    op.GivesDefault (source.get? key) (defaultValue? key)

namespace Ledger

theorem respects_of_computable {l : Ledger} {op : Op} {key : String}
    (hcomputable : l.isComputable key = true) (hkey : op.key? = some key) :
    op.Respects l.source l.policy := by
  intro k hk hlimited
  cases hkey.symm.trans hk
  simp [isComputable, hlimited] at hcomputable

theorem suggestDefault_respects (l : Ledger) (key : String) :
    ∀ op ∈ l.suggestDefault key, op.Respects l.source l.policy := by
  intro op hop k hk _ _
  unfold suggestDefault at hop
  split at hop
  next value hgiven hdefault =>
    cases List.mem_singleton.1 hop
    cases hk
    exact ⟨hgiven, hdefault⟩
  next => cases hop

theorem suggest_respects (l : Ledger) (key : String) (value : Computed) :
    ∀ op ∈ l.suggest key value, op.Respects l.source l.policy := by
  intro op hop
  unfold suggest at hop
  split at hop
  next hcomputable =>
    obtain ⟨text, -, rfl⟩ := List.mem_map.1 hop
    exact respects_of_computable hcomputable rfl
  next => exact suggestDefault_respects l key op hop

end Ledger

namespace State

/-- Suggestions respect the limits whatever they suggest; recommendations do for unchecked keys. -/
theorem admits_respects (s : State) (suggested : List String) {recommended : List String}
    (h : recommended ⊆ Rule.uncheckedKeys) :
    s.Admits (Op.Respects s.ledger.source s.ledger.policy) suggested recommended where
  suggest := by
    intro t ht key _ value
    refine ht.trans (reaches_write ?_)
    rw [← ht.source, ← ht.policy]
    exact suggest_respects t.ledger key value
  recommend := by
    intro key hkey value k hk _ hchecked
    cases hk
    exact absurd (h hkey) hchecked

end State

namespace Rule

variable {K : Type} [Quantity K] {ctx : Context K} {s : State}

/-- A rule that recommends values for unchecked keys only respects the limits of all others. -/
theorem Writes.respects {r : Rule} {op : Op} (h : Writes ctx r op) (hseed : r ≠ .seed)
    (henforce : r ≠ .enforce) (hexecutor : r ≠ .executor) (hmanager : r ≠ .shuffleManager)
    (hkeys : r.recommends ⊆ uncheckedKeys) (source : KeyMap String) (policy : KeyPolicy) :
    op.Respects source policy := by
  intro key hkey _ hchecked
  cases h with
  | recommend h =>
    cases hkey
    exact absurd (hkeys h) hchecked
  | seed => exact absurd rfl hseed
  | enforce => exact absurd rfl henforce
  | invalidate => exact absurd rfl hexecutor
  | noManager => exact absurd rfl hmanager
  | _ => trivial

/-! ## Rules that ask by themselves -/

omit [Quantity K] in
theorem shuffleManager_respects :
    s.Reaches (Op.Respects s.ledger.source s.ledger.policy) (Rules.shuffleManager ctx s) := by
  unfold Rules.shuffleManager
  split
  next hcomputable =>
    refine (State.Reaches.refl s).write_one (respects_of_computable hcomputable ?_)
    cases ctx.platform.shuffleManager ctx.engine (s.ledger.source.get? Key.databricksRuntime) <;>
      rfl
  next => exact .refl s

theorem maxPartitionBytes_respects :
    s.Reaches (Op.Respects s.ledger.source s.ledger.policy) (Rules.maxPartitionBytes ctx s) := by
  have hsuggest := suggest_respects s.ledger Key.maxPartitionBytes
  unfold Rules.maxPartitionBytes
  dsimp only
  refine .ite (.refl s) (.ite (State.reaches_write fun op hop => ?_)
    (State.reaches_write (hsuggest _)))
  rcases List.mem_append.1 hop with hop | hop
  · exact hsuggest _ op hop
  · obtain ⟨c, -, rfl⟩ := List.mem_map.1 hop
    exact fun _ _ _ _ => trivial

omit [Quantity K] in
theorem shufflePartitions_respects :
    s.Reaches (Op.Respects s.ledger.source s.ledger.policy) (Rules.shufflePartitions ctx s) := by
  unfold Rules.shufflePartitions
  split
  next hcomputable =>
    refine State.reaches_write fun op hop => respects_of_computable hcomputable ?_
    rcases List.mem_append.1 hop with hop | hop
    · split at hop
      · cases hop
      · obtain ⟨text, -, rfl⟩ := List.mem_map.1 hop
        rfl
    · obtain ⟨c, -, rfl⟩ := List.mem_map.1 hop
      rfl
  next => exact State.reaches_write (suggestDefault_respects s.ledger _)

/-! ## Every rule -/

theorem apply_respects {r : Rule} (hseed : r ≠ .seed) (henforce : r ≠ .enforce)
    (hexecutor : r ≠ .executor) :
    s.Reaches (Op.Respects s.ledger.source s.ledger.policy) (r.apply ctx s) := by
  have hunchecked : ∀ r ≠ executor, r ≠ shuffleManager → r ≠ maxPartitionBytes →
      r ≠ shufflePartitions → r ≠ adaptive → r ≠ threads → r.recommends ⊆ uncheckedKeys := by
    intro r _ _ _ _ _ _
    cases r <;> first | contradiction | simp [recommends, uncheckedKeys]
  cases r with
  | seed => exact absurd rfl hseed
  | enforce => exact absurd rfl henforce
  | executor => exact absurd rfl hexecutor
  | shuffleManager => exact shuffleManager_respects
  | maxPartitionBytes => exact maxPartitionBytes_respects
  | shufflePartitions => exact shufflePartitions_respects
  | adaptive =>
    refine adaptive_reaches ctx (State.admits_respects s _ (by simp [uncheckedKeys])) ?_
    exact fun _ _ _ _ _ _ _ => trivial
  | threads => exact threads_reaches ctx (State.admits_respects s _ (List.nil_subset _))
  | _ =>
    refine (apply_reaches ctx s hexecutor).mono fun op hop => ?_
    refine hop.respects hseed henforce hexecutor (by decide)
      (hunchecked _ ?_ ?_ ?_ ?_ ?_ ?_) _ _ <;> decide

/-- The rule of the executors respects the limits, up to a shortfall that it reports. -/
theorem executor_respects (ctx : Context K) (s : State) :
    (∃ t, s.Reaches (Op.Respects s.ledger.source s.ledger.policy) t ∧
        (Rules.executor ctx s).ledger = t.ledger ∧
        ((Rules.executor ctx s).memory = s.memory ∨
          ∃ plan, (Rules.executor ctx s).memory = some (.planned plan))) ∨
      ∃ t shape required, s.Reaches (Op.Respects s.ledger.source s.ledger.policy) t ∧
        (Rules.executor ctx s).ledger = (Rules.reportShortfall t shape required).ledger ∧
        (Rules.executor ctx s).memory = some (.short required) := by
  have hadmits := State.admits_respects s (recommends executor) (List.nil_subset _)
  rcases executor_outcome ctx hadmits with h | h | h
  · left
    have hcomment : (Op.sayOnce Rules.noShapeComment).Respects s.ledger.source s.ledger.policy :=
      fun _ hk _ _ => by cases hk
    refine ⟨_, (State.Reaches.refl s).write_one hcomment, congrArg State.ledger h, Or.inl ?_⟩
    rw [h, State.memory_write]
  · exact Or.inl h
  · exact Or.inr h

end Rule

end SparkTuner
