import SparkTuner.Proofs.Rules.Wording

/-!
# Values of the user under the rules

The rules after the one that fixes the values of the user neither fix nor tell of any, and none but
that of the executors gives such a value up (`Keeps.apply`): where the memory falls short it leaves
three of the memory settings open (`keeps_executor`).
-/

namespace SparkTuner

open Ledger Number

variable {K : Type}

/-! ## What rules do not write -/

namespace Rule

variable [Quantity K] {ctx : Context K} {r : Rule} {op : Op}

theorem Writes.ne_enforce (h : Writes ctx r op) (hr : r ≠ .enforce) (key value : String) :
    op ≠ .enforce key value := by
  rintro rfl
  cases h
  exact hr rfl

theorem Writes.ne_invalidate (h : Writes ctx r op) (hr : r ≠ .executor) (key : String) :
    op ≠ .invalidate key := by
  rintro rfl
  cases h
  exact hr rfl

/-- The memory settings are recommended by the rule of the executors alone. -/
theorem Writes.ne_recommend (h : Writes ctx r op) (hr : r ≠ .executor) {key : String}
    (hkey : key ∈ Rules.memoryKeys) (value : String) : op ≠ .recommend key value := by
  have htable : ∀ k ∈ Rules.memoryKeys, k ∉ r.recommends := by
    cases r with
    | executor => exact absurd rfl hr
    | _ => decide
  rintro rfl
  cases h with
  | recommend h => exact htable key hkey h

end Rule

/-! ## What rules keep -/

namespace State

/-- Whether the memory budget fell short. -/
def isShort (s : State) : Bool :=
  match s.memory with
  | some (.short _) => true
  | _ => false

/-- The user's value of a key is told of once, and held unless the memory fell short of the key. -/
structure Keeps (s : State) (key value : String) : Prop where
  notes : s.ledger.Notes key 1
  lacks : key ∈ Rules.memoryKeys → s.isShort = true → (s.ledger.account key).IsOpen
  holds : ¬(key ∈ Rules.memoryKeys ∧ s.isShort = true) → (s.ledger.account key).Holds value

variable [Quantity K] {ctx : Context K} {s : State} {key value : String}

/-- No rule tells of a value of the user, except the one that fixes them. -/
theorem notes_apply (hgaps : ∀ c ∈ ctx.clusterComments, startsPlain c = true) {r : Rule}
    (hr : r ≠ .enforce) {n : Nat} (h : s.ledger.Notes key n) :
    (r.apply ctx s).ledger.Notes key n := by
  obtain ⟨_, ⟨ops, rfl, hops⟩, hledger⟩ := Rule.apply_writes ctx s r
  rw [hledger, ledger_write]
  exact h.run (fun op hop => (hops op hop).isTame hgaps)
    fun op hop v => (hops op hop).ne_enforce hr key v

theorem isShort_apply {r : Rule} (hr : r ≠ .executor) : (r.apply ctx s).isShort = s.isShort := by
  rw [isShort, (Rule.apply_reaches ctx s hr).memory]
  rfl

/-- The rules beside those of the user's values and of the executors leave every value of the user
and every gap as it is. -/
theorem Keeps.apply (hgaps : ∀ c ∈ ctx.clusterComments, startsPlain c = true) {r : Rule}
    (hr : r ≠ .enforce) (hr' : r ≠ .executor) (h : s.Keeps key value) :
    (r.apply ctx s).Keeps key value := by
  have hnotes := notes_apply hgaps hr h.notes
  have hshort : (r.apply ctx s).isShort = s.isShort := isShort_apply hr'
  obtain ⟨ops, happly, hops⟩ := Rule.apply_reaches ctx s hr'
  refine ⟨hnotes, fun hkey hs => ?_, fun hs => ?_⟩
  · rw [hshort] at hs
    rw [happly, ledger_write]
    refine account_run_induction (fun op hop hk a ha => ?_) (h.lacks hkey hs)
    refine ha.after ((hops op hop).ne_enforce hr) fun k v hrecommend => ?_
    rw [hrecommend] at hk
    cases hk
    exact (hops op hop).ne_recommend hr' hkey v hrecommend
  · rw [hshort] at hs
    rw [happly, ledger_write]
    exact account_run_induction (fun op hop _ a ha =>
      ha.after ((hops op hop).ne_enforce hr) ((hops op hop).ne_invalidate hr')) (h.holds hs)

theorem Keeps.applyAll (hgaps : ∀ c ∈ ctx.clusterComments, startsPlain c = true)
    {rules : List Rule} (hrules : ∀ r ∈ rules, r ≠ .enforce ∧ r ≠ .executor)
    (h : s.Keeps key value) : (Rule.applyAll ctx rules s).Keeps key value := by
  induction rules generalizing s with
  | nil => exact h
  | cons r rules ih =>
    obtain ⟨hr, hr'⟩ := hrules r List.mem_cons_self
    exact ih (fun r' hmem => hrules r' (List.mem_cons_of_mem _ hmem)) (h.apply hgaps hr hr')

/-! ## The rule of the executors -/

theorem holds_of_recommendations {t : State} {r : Rule}
    (h : s.Reaches (Rule.IsRecommendation r) t) (hholds : (s.ledger.account key).Holds value) :
    (t.ledger.account key).Holds value := by
  obtain ⟨ops, rfl, hops⟩ := h
  refine account_run_induction (fun op hop _ a ha => ?_) hholds
  obtain ⟨k, -, v, rfl⟩ := hops op hop
  exact ha.after (fun _ _ h => by cases h) (fun _ h => by cases h)

/-- A shortfall leaves each of the memory settings open. -/
theorem isOpen_reportShortfall (shape : Shape) (required : Nat) (hkey : key ∈ Rules.memoryKeys)
    (hskip : s.ledger.isSkipped key = false)
    (h : ((s.ledger.account key).entryOr (s.ledger.freshEntry key)).skipped = false) :
    ((Rules.reportShortfall s shape required).ledger.account key).IsOpen := by
  rw [Rules.reportShortfall, ledger_write, run_append, account_run_of_forall_ne fun op hop hk => ?_]
  · exact isOpen_run_invalidate hkey hskip h
  · rw [List.mem_singleton.1 hop] at hk
    cases hk

/-- A shortfall leaves the account of every other key as it is. -/
theorem account_reportShortfall (shape : Shape) (required : Nat) (hkey : key ∉ Rules.memoryKeys) :
    (Rules.reportShortfall s shape required).ledger.account key = s.ledger.account key := by
  rw [Rules.reportShortfall, ledger_write, account_run_of_forall_ne fun op hop hk => ?_]
  rcases List.mem_append.1 hop with hop | hop
  · obtain ⟨k, hmem, rfl⟩ := List.mem_map.1 hop
    cases hk
    exact hkey hmem
  · rw [List.mem_singleton.1 hop] at hk
    cases hk

/-- The rule of the executors keeps the values of the user, but for the memory settings when the
memory falls short. -/
theorem keeps_executor (hgaps : ∀ c ∈ ctx.clusterComments, startsPlain c = true)
    (hmemory : s.memory = none) (hskip : s.ledger.isSkipped key = false)
    (hnotes : s.ledger.Notes key 1) (hholds : (s.ledger.account key).Holds value) :
    ((Rule.executor).apply ctx s).Keeps key value := by
  have happly : Rule.executor.apply ctx s = Rules.executor ctx s := rfl
  have hnotes' : (Rules.executor ctx s).ledger.Notes key 1 :=
    happly ▸ notes_apply hgaps (by decide) hnotes
  rw [happly]
  rcases Rule.executor_outcome ctx (Rule.admits_isRecommendation s .executor) with
    h | ⟨t, ht, hledger, hplan⟩ | ⟨t, shape, n, ht, hledger, hshort⟩
  · -- No layout is known: a comment, and no budget.
    have hshort : (Rules.executor ctx s).isShort = false := by
      rw [h, isShort, memory_write, hmemory]
    refine ⟨hnotes', fun _ hs => ?_, fun _ => ?_⟩
    · rw [hshort] at hs
      cases hs
    · rw [h, ledger_write, account_run_of_forall_ne fun op hop hk => ?_]
      · exact hholds
      · rw [List.mem_singleton.1 hop] at hk
        cases hk
  · -- Sizes are recommended only, which no value of the user gives way to.
    have hshort : (Rules.executor ctx s).isShort = false := by
      rcases hplan with hnone | ⟨plan, hplan⟩
      · rw [isShort, hnone, hmemory]
      · rw [isShort, hplan]
    refine ⟨hnotes', fun _ hs => ?_, fun _ => ?_⟩
    · rw [hshort] at hs
      cases hs
    · rw [hledger]
      exact holds_of_recommendations ht hholds
  · -- The memory falls short, and the memory settings are given up.
    have hshort' : (Rules.executor ctx s).isShort = true := by rw [isShort, hshort]
    have hskip' : t.ledger.isSkipped key = false := by
      obtain ⟨ops, rfl, -⟩ := ht
      rw [ledger_write, isSkipped_run]
      exact hskip
    have hholds' : (t.ledger.account key).Holds value := holds_of_recommendations ht hholds
    refine ⟨hnotes', fun hkey _ => ?_, fun hs => ?_⟩
    · rw [hledger]
      exact isOpen_reportShortfall shape n hkey hskip' hholds'.skipped
    · rw [hledger, account_reportShortfall shape n fun hkey => hs ⟨hkey, hshort'⟩]
      exact hholds'

end State

end SparkTuner
