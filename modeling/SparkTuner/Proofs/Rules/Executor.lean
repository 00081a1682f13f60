import SparkTuner.Proofs.Memory.Plan
import SparkTuner.Proofs.Rules.Suggestions
import SparkTuner.Proofs.Size

/-!
# Sizes on their way from the user to a plan and from a plan to the ledger

The rule of the executors reads the sizes that the user fixed, and suggests those of its plan. A
value of the user comes to the request as it was fixed (`enforcedMib_of_holds`), and a size of the
plan comes to the ledger for each key that nobody touched (`chosen?_recommendPlan`).
-/

namespace SparkTuner

open Ledger Number

variable {K : Type} [Quantity K] {ctx : Context K} {s t : State} {key value : String}

namespace State

/-- The step of a list of suggested sizes. -/
def suggestMib (s : State) (p : String × ℕ) : State := s.suggest p.1 (.mib (signed64 p.2))

theorem foldl_suggestMib (sizes : List (String × ℕ)) (s : State) :
    sizes.foldl suggestMib s = s.suggestAll (sizes.map fun p => (p.1, .mib (signed64 p.2))) := by
  rw [suggestAll, List.foldl_map]
  rfl

end State

namespace Rules

/-! ## What the rule reads -/

theorem get?_congr {l m : Ledger} (haccount : l.account key = m.account key)
    (hsource : l.source = m.source) : l.get? key = m.get? key := by
  have hentry : l.entry? key = m.entry? key := congrArg Account.entry haccount
  rw [Ledger.get?, Ledger.get?, hentry, hsource]

theorem enforcedMib_of_holds {l : Ledger} (h : (l.account key).Holds value) :
    enforcedMib K l key = Size.memory? K value := by
  obtain ⟨e, he, henforced, hvalue, hresolved, hskip⟩ := h
  rw [entry_account] at he
  have hget : l.get? key = some value := by
    simp [Ledger.get?, he, hskip, Entry.current?, hresolved, hvalue]
  rw [enforcedMib, isEnforced, he, Option.any_some, henforced, if_pos rfl, hget, Option.bind_some]

/-! ## What the rule writes -/

/-- The sizes of a plan, by the keys they are recommended for. -/
def sizes (plan : Memory.Plan) : List (String × ℕ) :=
  [(Key.executorMemory, plan.heap), (Key.executorMemoryOverhead, plan.overhead),
    (Key.pinnedPool, plan.pinned), (Key.spillStorage, plan.spill)]

theorem recommendPlan_eq (s : State) (plan : Memory.Plan) :
    recommendPlan s plan = (sizes plan).foldl State.suggestMib s := rfl

theorem mem_planKeys_of_mem_sizes {plan : Memory.Plan} {mib : ℕ} (h : (key, mib) ∈ sizes plan) :
    key ∈ Rule.planKeys :=
  List.mem_map_of_mem (f := Prod.fst) h

theorem chosen?_recommendPlan {plan : Memory.Plan} {mib : ℕ} (hmem : (key, mib) ∈ sizes plan)
    (huntouched : (s.ledger.account key).IsUntouched (s.ledger.freshEntry key))
    (hskip : s.ledger.isSkipped key = false) (hlimited : s.ledger.isComputable key = true) :
    ((recommendPlan s plan).ledger.account key).chosen? = (Computed.mib (signed64 mib)).text? := by
  have hkeys : Rule.planKeys.Nodup := by decide
  have hmem' : (key, Computed.mib (signed64 mib)) ∈
      (sizes plan).map fun p => (p.1, Computed.mib (signed64 p.2)) :=
    List.mem_map_of_mem (f := fun p : String × ℕ => (p.1, Computed.mib (signed64 p.2))) hmem
  rw [recommendPlan_eq, State.foldl_suggestMib]
  exact State.chosen?_suggestAll hmem' hkeys huntouched hskip hlimited

theorem account_executorLayout (shape : Shape) (hkey : key ∉ Rule.layoutKeys) :
    (executorLayout ctx shape s).ledger.account key = s.ledger.account key :=
  (Rule.executorLayout_reaches ctx (State.admits_isAbout s _) shape).account_of_not_mem hkey

/-- The rule of the executors knows no layout, or no memory of a worker, or it recommends the layout
and makes a budget for the request that follows from it, which is a plan or falls short. -/
theorem executor_cases (ctx : Context K) (s : State) :
    (ctx.shape = none ∧ executor ctx s = s.write [.sayOnce noShapeComment]) ∨
    (∃ shape, ctx.shape = some shape ∧ (shape.memoryPerExecutor? : Option K) = none ∧
      executor ctx s = executorLayout ctx shape s) ∨
    (∃ shape container plan, ctx.shape = some shape ∧
      shape.memoryPerExecutor? = some container ∧
      (memoryRequest ctx shape container (executorLayout ctx shape s).ledger).budget =
        .planned plan ∧
      (executor ctx s).memory = some (.planned plan) ∧
      (executor ctx s).ledger = (recommendPlan (executorLayout ctx shape s) plan).ledger ∧
      ((executor ctx s).staysInWords = true →
        (memoryRequest ctx shape container
          (executorLayout ctx shape s).ledger).staysInWords = true)) ∨
    ∃ shape container required, ctx.shape = some shape ∧
      shape.memoryPerExecutor? = some container ∧
      (memoryRequest ctx shape container (executorLayout ctx shape s).ledger).budget =
        .short required ∧
      (executor ctx s).memory = some (.short required) ∧
      (executor ctx s).ledger =
        (reportShortfall (executorLayout ctx shape s) shape required).ledger := by
  unfold executor
  split
  next hshape => exact Or.inl ⟨hshape, rfl⟩
  next shape hshape =>
    right
    unfold executorMemory
    split
    next hcontainer => exact Or.inl ⟨shape, hshape, hcontainer, rfl⟩
    next container hcontainer =>
      right
      cases hbudget : (memoryRequest ctx shape container
          (executorLayout ctx shape s).ledger).budget with
      | planned plan =>
        refine Or.inl ⟨shape, container, plan, hshape, hcontainer, hbudget, ?_, ?_, ?_⟩
        · simp only [hbudget]
        · simp only [hbudget]
        · intro hwords
          have hsums := (Bool.and_eq_true_iff.1 hwords).2
          rw [budgetSums, hbudget, List.append_nil] at hsums
          exact hsums
      | short required =>
        refine Or.inr ⟨shape, container, required, hshape, hcontainer, hbudget, ?_, ?_⟩
        · simp only [hbudget]
        · simp only [hbudget]

theorem memory_executorLayout (ctx : Context K) (shape : Shape) (s : State) :
    (executorLayout ctx shape s).memory = s.memory :=
  (Rule.executorLayout_reaches ctx (State.admits_isAbout s _) shape).memory

/-- A budget is planned for the request that the rule makes of the state after the layout, and its
sizes are recommended there. -/
theorem executor_planned {plan : Memory.Plan} (hmemory : s.memory = none)
    (h : (executor ctx s).memory = some (.planned plan)) :
    ∃ shape container, ctx.shape = some shape ∧ shape.memoryPerExecutor? = some container ∧
      (memoryRequest ctx shape container (executorLayout ctx shape s).ledger).budget =
        .planned plan ∧
      (executor ctx s).ledger = (recommendPlan (executorLayout ctx shape s) plan).ledger ∧
      ((executor ctx s).staysInWords = true →
        (memoryRequest ctx shape container
          (executorLayout ctx shape s).ledger).staysInWords = true) := by
  rcases executor_cases ctx s with ⟨-, heq⟩ | ⟨shape, -, -, heq⟩ |
    ⟨shape, container, plan', hshape, hcontainer, hbudget, hmemory', hledger, hwords⟩ |
    ⟨shape, container, required, -, -, -, hmemory', -⟩
  · rw [heq, State.memory_write, hmemory] at h
    cases h
  · rw [heq, memory_executorLayout, hmemory] at h
    cases h
  · cases hmemory'.symm.trans h
    exact ⟨shape, container, hshape, hcontainer, hbudget, hledger, hwords⟩
  · cases hmemory'.symm.trans h

/-! ## Bytes in flight -/

omit [Quantity K] in
/-- Without room in the memory budget nothing is said about the bytes in flight. -/
theorem account_threads_of_no_room (h : hasInFlightRoom s.memory = false) :
    (threads ctx s).ledger.account Key.shuffleMaxBytesInFlight =
      s.ledger.account Key.shuffleMaxBytesInFlight := by
  have hpools := Rule.threadPools_reaches (State.admits_isAbout s Rule.poolKeys)
    (ctx.executorCores s.ledger) ctx.platform.isCloud
  have hkey : Key.shuffleMaxBytesInFlight ∉ Rule.poolKeys := by decide
  unfold threads
  dsimp only
  rw [hpools.memory, h]
  exact hpools.account_of_not_mem hkey

/-- Nor is anything said about them by other rules. -/
theorem account_applyAll_of_no_room {rules : List Rule}
    (hrules : ∀ r ∈ rules, r ≠ .seed ∧ r ≠ .enforce ∧ r ≠ .executor)
    (h : hasInFlightRoom s.memory = false) :
    (Rule.applyAll ctx rules s).ledger.account Key.shuffleMaxBytesInFlight =
      s.ledger.account Key.shuffleMaxBytesInFlight := by
  have hother : ∀ r : Rule, r ≠ .threads → Key.shuffleMaxBytesInFlight ∉ r.keys := by
    have htable : ∀ r ∈ Rule.all, r ≠ .threads → Key.shuffleMaxBytesInFlight ∉ r.keys := by
      decide
    intro r
    exact htable r (by cases r <;> decide)
  induction rules generalizing s with
  | nil => rfl
  | cons r rules ih =>
    obtain ⟨hseed, henforce, hexecutor⟩ := hrules r List.mem_cons_self
    have hmemory : (r.apply ctx s).memory = s.memory :=
      (Rule.apply_reaches ctx s hexecutor).memory
    have hrest := ih (s := r.apply ctx s) (fun r' hr' => hrules r' (List.mem_cons_of_mem _ hr'))
      (hmemory ▸ h)
    refine hrest.trans ?_
    by_cases hthreads : r = .threads
    · subst hthreads
      exact account_threads_of_no_room h
    · exact Rule.account_apply_of_not_mem hseed henforce (hother r hthreads)

end Rules

end SparkTuner
