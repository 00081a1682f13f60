import SparkTuner.Proofs.Ledger.Transcript
import SparkTuner.Proofs.Rules.Executor
import SparkTuner.Proofs.Tuner.Stages

/-!
# What each rule wrote in a run

A run writes the diagnostics to a fresh ledger, and then what each rule makes of the ledger before
it. A log tells the operations of each rule (`Tuner.IsLog`). Every run has one, and the last ledger
is what all operations of a log in order make of a fresh one (`IsLog.ledger_final`).
-/

namespace SparkTuner

open Ledger Number

variable {K : Type} [Quantity K]

namespace Rule

/-- What a rule writes from a state. Only the shuffle manager that the engine calls for is refused,
values are given up only as the shortfall of a budget is told, and besides it the rule of the
executors makes sure to say that no layout is known at most. -/
structure Wrote (ctx : Context K) (r : Rule) (s : State) (ops : List Op) : Prop where
  ledger_eq : (r.apply ctx s).ledger = s.ledger.run ops
  writes : ∀ op ∈ ops, Writes ctx r op
  refused : ∀ key c, .refuse key c ∈ ops →
    Rules.shuffleManagerOp (ctx.platform.shuffleManager ctx.engine
      (s.ledger.source.get? Key.databricksRuntime)) = .refuse key c
  invalidated : ∀ key, .invalidate key ∈ ops → ∃ shape required, ctx.shape = some shape ∧
    (r.apply ctx s).memory = some (.short required) ∧
    .sayOnce (Memory.shortfallComment required shape.executorsPerWorker) ∈ ops
  sized : r = .executor → ∀ c, .sayOnce c ∈ ops → c = Rules.noShapeComment ∨
    ∃ shape required, ctx.shape = some shape ∧ (r.apply ctx s).memory = some (.short required) ∧
      c = Memory.shortfallComment required shape.executorsPerWorker

variable (ctx : Context K) (s : State)

theorem layout_recommends (shape : Shape) :
    s.Reaches (IsRecommendation .executor) (Rules.executorLayout ctx shape s) :=
  executorLayout_reaches ctx
    ((admits_isRecommendation s .executor).mono (List.subset_append_left _ _)) shape

theorem layout_plan_recommends (shape : Shape) (plan : Memory.Plan) :
    s.Reaches (IsRecommendation .executor)
      (Rules.recommendPlan (Rules.executorLayout ctx shape s) plan) :=
  recommendPlan_reaches
    ((admits_isRecommendation s .executor).mono (List.subset_append_right _ _))
    (layout_recommends ctx s shape) plan

/-- Recommendations of the rule of the executors are among what it may write. -/
theorem exists_wrote_of_recommends {t : State} (ht : s.Reaches (IsRecommendation .executor) t)
    (hledger : (Rules.executor ctx s).ledger = t.ledger) : ∃ ops, Wrote ctx .executor s ops := by
  obtain ⟨ops, rfl, hops⟩ := ht
  have hwrites : ∀ op ∈ ops, Writes ctx .executor op :=
    fun op hop => IsRecommendation.writes ctx (hops op hop)
  have hrecommends : ∀ op ∈ ops, ∃ key value, op = .recommend key value := fun op hop => by
    obtain ⟨key, -, value, rfl⟩ := hops op hop
    exact ⟨key, value, rfl⟩
  refine ⟨ops, hledger, hwrites, fun key c hop => ?_, fun key hop => ?_, fun _ c hop => ?_⟩ <;>
    obtain ⟨k, v, heq⟩ := hrecommends _ hop <;> cases heq

theorem exists_wrote_executor : ∃ ops, Wrote ctx .executor s ops := by
  rcases Rules.executor_cases ctx s with ⟨-, heq⟩ | ⟨shape, -, -, heq⟩ |
    ⟨shape, container, plan, -, -, -, -, hledger, -⟩ |
    ⟨shape, container, required, hshape, -, -, hmemory, hledger⟩
  · refine ⟨[.sayOnce Rules.noShapeComment], ?_, fun op hop => ?_, by simp, by simp,
      fun _ c hop => ?_⟩
    · show (Rules.executor ctx s).ledger = _
      rw [heq, State.ledger_write]
    · rw [List.mem_singleton.1 hop]
      exact .noShape
    · cases List.mem_singleton.1 hop
      exact Or.inl rfl
  · exact exists_wrote_of_recommends ctx s (layout_recommends ctx s shape) (by rw [heq])
  · exact exists_wrote_of_recommends ctx s (layout_plan_recommends ctx s shape plan) hledger
  · -- The layout is recommended, and then the memory settings are given up.
    obtain ⟨ops, hlayout, hops⟩ := layout_recommends ctx s shape
    let report := Rules.memoryKeys.map Op.invalidate ++
      [.sayOnce (Memory.shortfallComment required shape.executorsPerWorker)]
    have hwrites : ∀ op ∈ ops ++ report, Writes ctx .executor op := by
      intro op hop
      rcases List.mem_append.1 hop with hop | hop
      · exact IsRecommendation.writes ctx (hops op hop)
      · rcases List.mem_append.1 hop with hop | hop
        · obtain ⟨key, hkey, rfl⟩ := List.mem_map.1 hop
          exact .invalidate hkey
        · rw [List.mem_singleton.1 hop]
          exact .shortfall required _
    refine ⟨ops ++ report, ?_, hwrites, fun key c hop => ?_, fun key _ => ?_, fun _ c hop => ?_⟩
    · show (Rules.executor ctx s).ledger = _
      rw [hledger, hlayout, run_append]
      rfl
    · cases hwrites _ hop
    · refine ⟨shape, required, hshape, hmemory, ?_⟩
      exact List.mem_append_right _ (List.mem_append_right _ (List.mem_singleton_self _))
    · rcases List.mem_append.1 hop with hop | hop
      · obtain ⟨k, -, v, heq⟩ := hops _ hop
        cases heq
      · rcases List.mem_append.1 hop with hop | hop
        · obtain ⟨key, -, heq⟩ := List.mem_map.1 hop
          cases heq
        · cases List.mem_singleton.1 hop
          exact Or.inr ⟨shape, required, hshape, hmemory, rfl⟩

theorem exists_wrote_shuffleManager : ∃ ops, Wrote ctx .shuffleManager s ops := by
  by_cases hcomputable : s.ledger.isComputable Key.shuffleManager = true
  · have happly : (shuffleManager.apply ctx s).ledger = s.ledger.run
        [Rules.shuffleManagerOp (ctx.platform.shuffleManager ctx.engine
          (s.ledger.source.get? Key.databricksRuntime))] := by
      show (Rules.shuffleManager ctx s).ledger = _
      rw [Rules.shuffleManager, if_pos hcomputable, State.ledger_write]
    have hwrites : Writes ctx .shuffleManager (Rules.shuffleManagerOp
        (ctx.platform.shuffleManager ctx.engine (s.ledger.source.get? Key.databricksRuntime))) := by
      cases hmanager : ctx.platform.shuffleManager ctx.engine
        (s.ledger.source.get? Key.databricksRuntime) with
      | supported className => exact .recommend (by simp [recommends])
      | unsupported version => exact .noManager (.unsupported version) rfl
      | undetermined => exact .noManager .undetermined rfl
    refine ⟨_, happly, fun op hop => ?_, fun key c hop => ?_, fun key hop => ?_,
      fun h => by cases h⟩
    · rw [List.mem_singleton.1 hop]
      exact hwrites
    · exact (List.mem_singleton.1 hop).symm
    · rw [← List.mem_singleton.1 hop] at hwrites
      cases hwrites
  · refine ⟨[], ?_, by simp, by simp, by simp, by simp⟩
    show (Rules.shuffleManager ctx s).ledger = _
    rw [Rules.shuffleManager, if_neg hcomputable]
    rfl

theorem exists_wrote (r : Rule) : ∃ ops, Wrote ctx r s ops := by
  by_cases hexecutor : r = .executor
  · subst hexecutor
    exact exists_wrote_executor ctx s
  · by_cases hmanager : r = .shuffleManager
    · subst hmanager
      exact exists_wrote_shuffleManager ctx s
    · obtain ⟨ops, happly, hops⟩ := apply_reaches ctx s hexecutor
      refine ⟨ops, congrArg State.ledger happly, hops, fun key c hop => ?_, fun key hop => ?_,
        fun h => absurd h hexecutor⟩
      · cases hops _ hop
        exact absurd rfl hmanager
      · cases hops _ hop
        exact absurd rfl hexecutor

end Rule

namespace Tuner

/-- The log has what each rule wrote from the state before it. -/
def IsLog (t : Tuner K) (log : Rule → List Op) : Prop :=
  ∀ before r later, Rule.all = before ++ r :: later →
    Rule.Wrote t.context r (Rule.applyAll t.context before t.initial) (log r)

/-- What a run writes: the diagnostics, and what its rules wrote. -/
def written (t : Tuner K) (log : Rule → List Op) : List Op :=
  t.diagnostics.map .sayOnce ++ Rule.all.flatMap log

theorem exists_log (t : Tuner K) : ∃ log, t.IsLog log := by
  have hwrote : ∀ r, ∃ ops, Rule.Wrote t.context r
      (Rule.applyAll t.context (Rule.all.takeWhile fun r' => r' ≠ r) t.initial) ops :=
    fun r => Rule.exists_wrote t.context _ r
  choose log hlog using hwrote
  refine ⟨log, fun before r later hall => ?_⟩
  -- No rule runs twice, so that the rules up to this one are those before it.
  have hnodup : Rule.all.Nodup := by decide
  rw [hall] at hnodup
  have hbefore : ∀ r' ∈ before, r' ≠ r := by
    rintro r' hr' rfl
    exact (List.nodup_append.1 hnodup).2.2 r' hr' r' List.mem_cons_self rfl
  have htake : (Rule.all.takeWhile fun r' => r' ≠ r) = before := by
    rw [hall, List.takeWhile_append_of_pos (by simpa using hbefore)]
    simp
  have hr := hlog r
  rw [htake] at hr
  exact hr

variable {t : Tuner K} {log : Rule → List Op}

theorem IsLog.ledger_applyAll (hlog : t.IsLog log) (before later : List Rule)
    (hall : Rule.all = before ++ later) :
    (Rule.applyAll t.context later (Rule.applyAll t.context before t.initial)).ledger =
      (Rule.applyAll t.context before t.initial).ledger.run (later.flatMap log) := by
  induction later generalizing before with
  | nil => rfl
  | cons r later ih =>
    have hstep := (hlog before r later hall).ledger_eq
    have hnext : r.apply t.context (Rule.applyAll t.context before t.initial) =
        Rule.applyAll t.context (before ++ [r]) t.initial := by
      rw [Rule.applyAll, Rule.applyAll, List.foldl_append]
      rfl
    have hrest := ih (before ++ [r]) (by rw [hall, List.append_assoc]; rfl)
    rw [List.flatMap_cons, run_append, ← hstep, hnext]
    exact hrest ▸ (congrArg (fun s => (Rule.applyAll t.context later s).ledger) hnext)

theorem IsLog.ledger_final (hlog : t.IsLog log) :
    t.final.ledger = (start t.source t.policy).run (t.written log) := by
  have hrules := hlog.ledger_applyAll [] Rule.all rfl
  rw [written, run_append]
  exact hrules

/-- What was said before the rules after that of the executors stays said. -/
theorem IsLog.mem_comments_final (hlog : t.IsLog log) {c : String}
    (h : c ∈ t.sized.ledger.comments) : c ∈ t.final.ledger.comments := by
  have hsized : Rule.applyAll t.context [.seed, .enforce, .executor] t.initial = t.sized := rfl
  have hledger := hlog.ledger_applyAll [.seed, .enforce, .executor] (Rule.all.drop 3) rfl
  rw [hsized, ← final_eq] at hledger
  rw [hledger, comments_run]
  exact List.mem_append_left _ h

/-- Whatever a run writes is a diagnostic or was written by a rule. -/
theorem IsLog.cases (hlog : t.IsLog log) {op : Op} (hop : op ∈ t.written log) :
    (∃ c ∈ t.diagnostics, op = .sayOnce c) ∨ ∃ r, op ∈ log r ∧ Rule.Writes t.context r op := by
  rcases List.mem_append.1 hop with hop | hop
  · obtain ⟨c, hc, rfl⟩ := List.mem_map.1 hop
    exact Or.inl ⟨c, hc, rfl⟩
  · obtain ⟨r, hr, hop⟩ := List.mem_flatMap.1 hop
    obtain ⟨before, later, hall⟩ := List.append_of_mem hr
    exact Or.inr ⟨r, hop, (hlog before r later hall).writes op hop⟩

omit [Quantity K] in
theorem mem_written {r : Rule} {op : Op} (hop : op ∈ log r) : op ∈ t.written log := by
  have hall : r ∈ Rule.all := by cases r <;> decide
  exact List.mem_append_right _ (List.mem_flatMap_of_mem hall hop)

theorem source_applyAll (t : Tuner K) (rules : List Rule) :
    (Rule.applyAll t.context rules t.initial).ledger.source = t.source :=
  (Rule.source_applyAll rules).trans (source_run ..)

/-- A shuffle manager is refused for the engine of the application. -/
theorem IsLog.refused (hlog : t.IsLog log) {key c : String} (hop : .refuse key c ∈ t.written log) :
    Rules.shuffleManagerOp (t.platform.shuffleManager t.context.engine
      (t.source.get? Key.databricksRuntime)) = .refuse key c := by
  rcases hlog.cases hop with ⟨c', -, heq⟩ | ⟨r, hr, -⟩
  · cases heq
  · have hall : r ∈ Rule.all := by cases r <;> decide
    obtain ⟨before, later, hall⟩ := List.append_of_mem hall
    have hrefused := (hlog before r later hall).refused key c hr
    rw [source_applyAll] at hrefused
    exact hrefused

/-- Only the shuffle manager is ever refused. -/
theorem IsLog.key_of_refuse (hlog : t.IsLog log) {key c : String}
    (hop : .refuse key c ∈ t.written log) : key = Key.shuffleManager := by
  have hrefused := hlog.refused hop
  cases hmanager : t.platform.shuffleManager t.context.engine
      (t.source.get? Key.databricksRuntime) with
  | supported className =>
    rw [hmanager] at hrefused
    cases hrefused
  | unsupported version =>
    rw [hmanager] at hrefused
    cases hrefused
    rfl
  | undetermined =>
    rw [hmanager] at hrefused
    cases hrefused
    rfl

/-- What the rule of the executors makes sure to say once. -/
theorem IsLog.sized (hlog : t.IsLog log) {c : String} (hop : .sayOnce c ∈ log .executor) :
    c = Rules.noShapeComment ∨ ∃ shape required, t.context.shape = some shape ∧
      t.final.memory = some (.short required) ∧
      c = Memory.shortfallComment required shape.executorsPerWorker := by
  have hwrote := hlog [.seed, .enforce] .executor (Rule.all.drop 3) rfl
  rw [t.memory_final.1]
  exact hwrote.sized rfl c hop

/-- Values are given up only when the budget of the run falls short, which is told. -/
theorem IsLog.invalidated (hlog : t.IsLog log) {key : String}
    (hop : .invalidate key ∈ t.written log) :
    key ∈ Rules.memoryKeys ∧ ∃ shape required, t.context.shape = some shape ∧
      t.final.memory = some (.short required) ∧
      .sayOnce (Memory.shortfallComment required shape.executorsPerWorker) ∈ t.written log := by
  rcases hlog.cases hop with ⟨c, -, heq⟩ | ⟨r, hr, hwrites⟩
  · cases heq
  · cases hwrites with
    | invalidate hkey =>
      have hwrote := hlog [.seed, .enforce] .executor (Rule.all.drop 3) rfl
      obtain ⟨shape, required, hshape, hmemory, hsaid⟩ := hwrote.invalidated key hr
      have hsized : (Rule.executor.apply t.context
          (Rule.applyAll t.context [.seed, .enforce] t.initial)) = t.sized := rfl
      rw [hsized] at hmemory
      exact ⟨hkey, shape, required, hshape, t.memory_final.1.trans hmemory, mem_written hsaid⟩

end Tuner

end SparkTuner
