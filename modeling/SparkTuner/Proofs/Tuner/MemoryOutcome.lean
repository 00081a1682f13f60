import SparkTuner.Proofs.Tuner.Explained
import SparkTuner.Proofs.Tuner.Limited
import SparkTuner.Proofs.Tuner.Memory

/-!
# The memory settings succeed or fail together

With a known layout and a known memory the rule of the executors makes a budget. If it falls short,
three of the memory settings are given up, even those of the user, and the shortfall is reported
once (`Tuner.GivesUp`); if it succeeds, none of the settings is left open (`Tuner.Follows`). Without
a layout the rules say nothing about them. Whatever the outcome, no later rule changes it
(`memory_outcome_all_or_nothing`).
-/

namespace SparkTuner

open Ledger Number

variable {K : Type} [Quantity K]

namespace Tuner

variable {t : Tuner K} {shape : Shape} {container : K} {key : String}

/-! ## Keys that the rules leave alone -/

/-- What the user or else the source gives for a key that is not to be skipped. -/
def given? (t : Tuner K) (key : String) : Option String :=
  if key ∈ t.policy.skip then none else (t.enforced.get? key).or (t.source.get? key)

theorem value?_of_skipped (hskip : key ∈ t.policy.skip) :
    t.final.ledger.finish.value? key = none := by
  refine (not_reported_of_skipped fun e he => ?_).1
  obtain ⟨log, hlog⟩ := t.exists_log
  have haccount : (((start t.source t.policy).run (t.written log)).account key).entry = some e := by
    rw [← hlog.ledger_final]
    exact he
  have hcontinues := (isSound_run t.source t.policy (t.written log) key e haccount).1
  rw [hcontinues.skipped, skipped_freshEntry, isSkipped, start]
  simpa using hskip

/-- A known key that the rules leave alone is reported with what was given for it. -/
theorem LeavesAlone.value?_eq (h : t.LeavesAlone key)
    (hknown : (Definition.find? key).isSome = true) :
    t.final.ledger.finish.value? key = t.given? key := by
  rw [given?]
  split
  next hskip => exact value?_of_skipped hskip
  next hskip =>
    have haccount := h.account_final
    cases hvalue : t.enforced.get? key with
    | some value =>
      have hholds : (t.final.ledger.account key).Holds value := by
        rw [haccount]
        exact holds_fixed hvalue (by simpa using hskip)
      exact value?_of_holds hholds
    | none =>
      have hfresh : t.fixed.ledger.freshEntry key = t.seeded.ledger.freshEntry key :=
        freshEntry_congr (Rule.source_apply .enforce) (Rule.policy_apply .enforce) key
      have hskip' := isSkipped_of_policy t.policy_fixed hskip
      rw [value?_finish, haccount, Option.none_or]
      cases hgiven : t.source.get? key with
      | some value =>
        have hentry : (t.fixed.ledger.account key).entry =
            some (t.fixed.ledger.freshEntry key) := by
          rw [account_fixed hvalue, hfresh]
          exact entry_seeded_of_known hknown (by rw [hgiven]; exact Option.some_ne_none value)
        rw [Account.reported?_of_entry_eq_fresh hskip' hentry, source_fixed, hgiven]
      | none =>
        have huntouched := untouched_fixed hvalue
        have hdefault : (t.fixed.ledger.account key).AtDefault (t.fixed.ledger.freshEntry key)
            none := Or.inl huntouched
        have hgiven' : t.fixed.ledger.source.get? key = none := by rw [source_fixed, hgiven]
        exact (hdefault.reported? hskip' hgiven').resolve_right fun ⟨_, hnone, _⟩ => by cases hnone

/-! ## The outcome of the rule of the executors -/

/-- With a known layout and memory a budget is made, and what the rule does is up to the budget. -/
theorem memory_eq (hshape : t.context.shape = some shape)
    (hcontainer : shape.memoryPerExecutor? = some container) :
    t.final.memory = some (t.request shape container).budget := by
  rw [t.memory_final.1, sized_eq]
  rcases Rules.executor_cases t.context t.fixed with ⟨hnone, -⟩ | ⟨shape', hshape', hnone, -⟩ |
    ⟨shape', container', plan, hshape', hcontainer', hbudget, hmemory, -, -⟩ |
    ⟨shape', container', required, hshape', hcontainer', hbudget, hmemory, -⟩
  · cases hshape.symm.trans hnone
  · cases hshape.symm.trans hshape'
    cases hcontainer.symm.trans hnone
  · cases hshape.symm.trans hshape'
    cases hcontainer.symm.trans hcontainer'
    rw [hmemory, request, laidOut, hbudget]
  · cases hshape.symm.trans hshape'
    cases hcontainer.symm.trans hcontainer'
    rw [hmemory, request, laidOut, hbudget]

/-- Without a layout or its memory the rule says nothing about the memory settings. -/
theorem leavesAlone_of_unknown
    (hunknown : ∀ shape, t.context.shape = some shape →
      (shape.memoryPerExecutor? : Option K) = none) :
    t.final.memory = none ∧ ∀ key ∈ Rule.planKeys, t.LeavesAlone key := by
  have hsized : t.sized.memory = none ∧ ∀ key ∈ Rule.planKeys,
      t.sized.ledger.account key = t.fixed.ledger.account key := by
    rw [sized_eq]
    rcases Rules.executor_cases t.context t.fixed with ⟨-, heq⟩ | ⟨shape, -, -, heq⟩ |
      ⟨shape, container, plan, hshape, hcontainer, -⟩ |
      ⟨shape, container, required, hshape, hcontainer, -⟩
    · rw [heq, State.memory_write, State.ledger_write]
      refine ⟨t.memory_fixed, fun key _ => account_run_of_forall_ne fun op hop hk => ?_⟩
      rw [List.mem_singleton.1 hop] at hk
      cases hk
    · rw [heq, Rules.memory_executorLayout]
      exact ⟨t.memory_fixed, fun key hkey => t.account_laidOut_of_mem shape hkey⟩
    · cases hcontainer.symm.trans (hunknown shape hshape)
    · cases hcontainer.symm.trans (hunknown shape hshape)
  refine ⟨t.memory_final.1.trans hsized.1, fun key hkey => ?_⟩
  exact leavesAlone_of_sized (hsized.2 key hkey)
    (t.account_stage (Rule.not_mem_keys_of_mem_planKeys hkey))

/-- A budget falls short for a known layout with a known memory, and the rule reports it. -/
theorem exists_shortfall {required : ℕ} (hshort : t.final.memory = some (.short required)) :
    ∃ shape, t.context.shape = some shape ∧ t.sized.ledger =
      (Rules.reportShortfall (Rules.executorLayout t.context shape t.fixed) shape
        required).ledger := by
  rw [t.memory_final.1, sized_eq] at hshort
  rw [sized_eq]
  rcases Rules.executor_cases t.context t.fixed with ⟨-, heq⟩ | ⟨shape, -, -, heq⟩ |
    ⟨shape, container, plan, -, -, -, hmemory, -, -⟩ |
    ⟨shape, container, required', hshape, -, -, hmemory, hledger⟩
  · rw [heq, State.memory_write, t.memory_fixed] at hshort
    cases hshort
  · rw [heq, Rules.memory_executorLayout, t.memory_fixed] at hshort
    cases hshort
  · cases hmemory.symm.trans hshort
  · cases hmemory.symm.trans hshort
    exact ⟨shape, hshape, hledger⟩

/-! ## When the memory falls short -/

section Short

variable {required : ℕ} (hshort : t.final.memory = some (.short required))

include hshort

theorem spill_leavesAlone : t.LeavesAlone Key.spillStorage := by
  have hkey : Key.spillStorage ∈ Rule.planKeys := by simp [Rule.planKeys]
  have hother : Key.spillStorage ∉ Rules.memoryKeys := by decide
  obtain ⟨shape, -, hledger⟩ := exists_shortfall hshort
  refine leavesAlone_of_sized ?_ (t.account_stage (Rule.not_mem_keys_of_mem_planKeys hkey))
  rw [hledger, State.account_reportShortfall shape required hother]
  exact t.account_laidOut_of_mem shape hkey

/-- The memory settings are open at the end, also those of the user. -/
theorem isOpen_of_short (hdiagnostics : ∀ c ∈ t.diagnostics, startsPlain c = true)
    (hkey : key ∈ Rules.memoryKeys) (hskip : key ∉ t.policy.skip) :
    (t.final.ledger.account key).IsOpen := by
  have hshort' : t.final.isShort = true := by rw [State.isShort, hshort]
  cases hvalue : t.enforced.get? key with
  | none => exact isOpen_final hskip hvalue hkey hshort'
  | some value => exact (keeps_final hdiagnostics hvalue (by simpa using hskip)).lacks hkey hshort'

/-- The report of the shortfall is the only one. -/
theorem filter_readsShortfall (hshape : t.context.shape = some shape)
    (hdiagnostics : ∀ c ∈ t.diagnostics, Memory.readsShortfall c = false) :
    t.final.ledger.comments.filter Memory.readsShortfall =
      [Memory.shortfallComment required shape.executorsPerWorker] := by
  obtain ⟨log, hlog⟩ := t.exists_log
  have hgaps : ∀ c ∈ t.context.clusterComments, firstLetter? c ≠ some 'T' := by
    intro c hc heq
    obtain ⟨letter, hletter, hfirst⟩ := firstLetter?_gapComments hc
    cases heq.symm.trans hfirst
    simp at hletter
  have hsaid : Memory.shortfallComment required shape.executorsPerWorker ∈
      t.final.ledger.comments := by
    obtain ⟨shape', hshape', hledger⟩ := exists_shortfall hshort
    cases hshape.symm.trans hshape'
    refine hlog.mem_comments_final ?_
    rw [hledger, Rules.reportShortfall, State.ledger_write]
    exact mem_comments_of_sayOnce (List.mem_append_right _ (List.mem_singleton_self _))
  rw [hlog.ledger_final] at hsaid ⊢
  refine filter_comments_run
    (fun key => Memory.not_readsShortfall_of_isQuoted (readsEnforced_enforcedComment key))
    (fun key => Memory.not_readsShortfall_of_isQuoted (readsMissing_missingComment key))
    (fun key c hc => Memory.not_readsShortfall_of_isQuoted (isQuoted_updateComment hc))
    (fun op hop c hc hreads => ?_) (Memory.readsShortfall_shortfallComment _ _) hsaid
  -- Whatever reads like a shortfall was written by the rule of the executors, about this one.
  rcases hlog.cases hop with ⟨diagnostic, hmem, rfl⟩ | ⟨rule, hrule, hwrites⟩
  · cases hc
    cases (hdiagnostics _ hmem).symm.trans hreads
  · rcases hwrites.firstLetter?_ne hgaps hc with ⟨rfl, required', executors, rfl⟩ | hletter
    · rcases hlog.sized hrule with hnone | ⟨shape', required'', hshape', hshort', heq⟩
      · have hreads' := Memory.readsShortfall_shortfallComment required' executors
        rw [hnone, Memory.not_readsShortfall_of_firstLetter?] at hreads'
        · cases hreads'
        · rw [Rules.noShapeComment, firstLetter?_ofList]
          decide
      · cases hshape.symm.trans hshape'
        cases hshort.symm.trans hshort'
        rw [heq]
    · cases (Memory.not_readsShortfall_of_firstLetter? hletter).symm.trans hreads

end Short

/-! ## When the plan succeeds -/

/-- What is open at the end was given up in a shortfall, or is the shuffle manager. -/
theorem resolved_of_planned {plan : Memory.Plan} (hplan : t.final.memory = some (.planned plan))
    (hkey : key ∈ Rule.planKeys) {e : Entry}
    (he : t.final.ledger.finish.entries.get? key = some e) : e.resolution ≠ .unresolved := by
  obtain ⟨log, hlog⟩ := t.exists_log
  rw [entries_finish] at he
  obtain ⟨hentry, hsubstantial⟩ := Option.filter_eq_some_iff.1 he
  intro hresolution
  have hskip : e.skipped = false := by
    refine Bool.eq_false_iff.2 fun hskipped => ?_
    rw [Entry.resolution, if_pos hskipped] at hresolution
    cases hresolution
  have hopen := (Entry.resolution_eq_unresolved_iff hskip hsubstantial).1 hresolution
  have hcause := (causes_run t.source t.policy (t.written log) key).2.1
  rw [← hlog.ledger_final, entryOf, hentry] at hcause
  rcases hcause hopen with hop | ⟨c, hop⟩
  · obtain ⟨-, -, required, -, hshort, -⟩ := hlog.invalidated hop
    cases hplan.symm.trans hshort
  · have hmanager := hlog.key_of_refuse hop
    have htable : Key.shuffleManager ∉ Rule.planKeys := by decide
    exact htable (hmanager ▸ hkey)

/-- A size of the plan that fits a signed word is shown, and one that does not is dropped. -/
theorem size_of_planned {plan : Memory.Plan} {n : ℕ} (hwords : t.final.staysInWords = true)
    (hplan : t.final.memory = some (.planned plan)) (hmem : (key, n) ∈ Rules.sizes plan)
    (hskip : key ∉ t.policy.skip) (hlimited : key ∉ t.policy.limited)
    (hfree : t.enforced.get? key = none) :
    (0 < n → n ≤ maxSigned64 →
        t.final.ledger.finish.value? key = some (Nat.repr n ++ "m")) ∧
      (maxSigned64 < n → n ≤ max64 → t.final.ledger.finish.chosen? key = none) := by
  obtain ⟨shape, container, hplans⟩ := exists_plans hwords hplan
  have hchosen := hplans.chosen?_of_free hmem hskip hlimited hfree
  refine ⟨fun hpos hsmall => value?_of_chosen? ?_, fun hlarge hword => ?_⟩
  · have hpos' : (0 : ℤ) < n := by exact_mod_cast hpos
    rw [hchosen, signed64_of_le hsmall, Computed.text?, if_pos hpos', Int.toNat_natCast]
    rfl
  · have hneg : ¬(0 : ℤ) < signed64 n := by
      rw [signed64, if_neg (Nat.not_le.2 hlarge)]
      omega
    rw [chosen?_finish, hchosen, Computed.text?, if_neg hneg]

/-- The three settings are given up, and with them the bytes in flight. -/
structure GivesUp (t : Tuner K) (r : Recommendations) (required executors : ℕ) : Prop where
  /-- A setting that is not to be skipped is a placeholder in every listing. -/
  placeholders : ∀ key ∈ Rules.memoryKeys, key ∉ t.policy.skip → ∀ filter value,
    (key, value) ∈ r.properties filter ↔ value = placeholder
  spill : t.LeavesAlone Key.spillStorage ∧ r.value? Key.spillStorage = t.given? Key.spillStorage
  inFlight : t.LeavesAlone Key.shuffleMaxBytesInFlight
  /-- Of the comments one is the report of a shortfall. -/
  told : r.comments.filter Memory.readsShortfall = [Memory.shortfallComment required executors]

/-- No setting is left open, and the sizes of the plan are shown where the ledger takes them. The
ledger takes sizes as signed words, so that those of 2 ^ 63 and more are lost. -/
structure Follows (t : Tuner K) (r : Recommendations) (plan : Memory.Plan) : Prop where
  resolved : ∀ key ∈ Rule.planKeys, ∀ e, r.entries.get? key = some e → e.resolution ≠ .unresolved
  sizes : ∀ key n, (key, n) ∈ Rules.sizes plan → key ∉ t.policy.skip → key ∉ t.policy.limited →
    t.enforced.get? key = none →
    (0 < n → n ≤ maxSigned64 → r.value? key = some (Nat.repr n ++ "m")) ∧
      (maxSigned64 < n → n ≤ max64 → r.chosen? key = none)

end Tuner

/-- The memory outcome of a run is all or nothing. With a known layout and memory there is a budget.
If it falls short, the three memory settings that are not to be skipped are placeholders, also those
that the user fixed, the spill pool has the value it was given, no rule recommends the bytes in
flight, and there is one report of a shortfall. If it succeeds, no memory setting is left open, and
each one that is free has the size of the plan, as far as it fits a signed word. Without a layout or
its memory the rules leave all four alone. No rule after that of the executors changes any of it. -/
theorem memory_outcome_all_or_nothing {readers : Readers K} {input : TunerInput K} {t : Tuner K}
    {r : Recommendations} (hbuild : input.build readers = .ok t) (hrun : t.recommend? = some r) :
    (∀ shape container, t.context.shape = some shape →
      shape.memoryPerExecutor? = some container →
      t.final.memory = some (t.request shape container).budget ∧
      (∀ required, (t.request shape container).budget = .short required →
        t.GivesUp r required shape.executorsPerWorker) ∧
      ∀ plan, (t.request shape container).budget = .planned plan → t.Follows r plan) ∧
    ((∀ shape, t.context.shape = some shape → (shape.memoryPerExecutor? : Option K) = none) →
      t.final.memory = none ∧
        ∀ key ∈ Rule.planKeys, t.LeavesAlone key ∧ r.value? key = t.given? key) ∧
    ∀ n, (t.stage (3 + n)).memory = t.final.memory ∧
      ∀ key ∈ Rule.planKeys,
        (t.stage (3 + n)).ledger.account key = t.final.ledger.account key := by
  obtain ⟨hwords, rfl⟩ := Tuner.of_recommend? hrun
  obtain ⟨-, -, hdiagnostics⟩ := TunerInput.of_build hbuild
  have hknown : ∀ key ∈ Rule.planKeys, (Definition.find? key).isSome = true := by decide
  refine ⟨fun shape container hshape hcontainer => ?_, fun hunknown => ?_, fun n => ?_⟩
  · have hmemory := Tuner.memory_eq hshape hcontainer
    refine ⟨hmemory, fun required hbudget => ?_, fun plan hbudget => ?_⟩
    · rw [hbudget] at hmemory
      have hspill := Tuner.spill_leavesAlone hmemory
      have hroom : Rules.hasInFlightRoom t.sized.memory = false := by
        rw [← t.memory_final.1, hmemory]
        rfl
      refine ⟨fun key hkey hskip _ _ => ?_, ⟨hspill, ?_⟩, Tuner.inFlight_leavesAlone hroom, ?_⟩
      · exact mem_properties_of_isOpen (Tuner.isOpen_of_short hmemory hdiagnostics hkey hskip)
      · exact hspill.value?_eq (hknown _ (by simp [Rule.planKeys]))
      · have hperm := (comments_finish_perm t.final.ledger).filter Memory.readsShortfall
        rw [Tuner.filter_readsShortfall hmemory hshape
          (TunerInput.not_readsShortfall hbuild)] at hperm
        exact List.perm_singleton.1 hperm
    · rw [hbudget] at hmemory
      exact ⟨fun key hkey _ => Tuner.resolved_of_planned hmemory hkey,
        fun key n hmem hskip hlimited hfree =>
          Tuner.size_of_planned hwords hmemory hmem hskip hlimited hfree⟩
  · obtain ⟨hmemory, hleaves⟩ := Tuner.leavesAlone_of_unknown hunknown
    refine ⟨hmemory, fun key hkey => ⟨hleaves key hkey, ?_⟩⟩
    exact (hleaves key hkey).value?_eq (hknown key hkey)
  · refine ⟨(t.memory_stage n).1.trans t.memory_final.1.symm, fun key hkey => ?_⟩
    have hlater := Rule.not_mem_keys_of_mem_planKeys hkey
    rw [t.account_stage hlater, t.account_final hlater]

/-- A heap of the user that no container of the cluster holds becomes a placeholder. -/
theorem tooLargeHeap_given_up :
    let t := Tuner.oneFixed "64g" Key.executorMemory "100g"
    let r := t.final.ledger.finish
    (∀ filter, (Key.executorMemory, placeholder) ∈ r.properties filter) ∧
      r.comments.filter Memory.readsShortfall = [Memory.shortfallComment 143360 1] := by
  intro t r
  let cluster : ClusterDescription :=
    { system := some { numCores := some 16, memory := some "64g", numWorkers := some 2 } }
  let target : TargetDescription ℚ := { enforced := KeyMap.ofList [(Key.executorMemory, "100g")] }
  have hbuild : TunerInput.build ⟨fun _ => .error .json, fun _ => .error .json⟩
      { app := AppSummary.blank, platform := .dataproc, cluster := .parsed cluster,
        target := .parsed target } = .ok t := rfl
  obtain ⟨hwords, hshape, hcontainer, hshort⟩ : t.final.staysInWords = true ∧
      t.context.shape = some ⟨16, 2, 2, 1, 24576, "L4", some 65536, true⟩ ∧
      (Shape.mk 16 2 2 1 24576 "L4" (some 65536) true).memoryPerExecutor? = some (65536 : ℚ) ∧
      (t.request ⟨16, 2, 2, 1, 24576, "L4", some 65536, true⟩ 65536).budget = .short 143360 := by
    decide +kernel
  have houtcome := (memory_outcome_all_or_nothing hbuild (if_pos hwords)).1 _ _ hshape hcontainer
  have hgivesUp := houtcome.2.1 143360 hshort
  refine ⟨fun filter => ?_, hgivesUp.told⟩
  exact (hgivesUp.placeholders _ (by simp [Rules.memoryKeys]) List.not_mem_nil filter _).2 rfl

/-- A worker with all the memory that a word can tell, and half of it for a pool of the user. -/
def TunerInput.hugePool : TunerInput ℚ where
  app := AppSummary.blank
  platform := .onPrem
  cluster := .parsed
    { system := some
        { numCores := some 8, memory := some "18446744073709551615m", numWorkers := some 1 } }
  target := .parsed
    { enforced :=
        KeyMap.ofList [(Key.pinnedPool, "9223372036854775808m"), (Key.spillStorage, "1g")] }

/-- The plan has an overhead, but it is larger than any signed word and the report does not show
it. -/
theorem hugePool_overhead_dropped :
    ∃ t, TunerInput.hugePool.build ⟨fun _ => .error .json, fun _ => .error .json⟩ = .ok t ∧
      t.recommend? = some t.final.ledger.finish ∧ t.policy = {} ∧
      t.enforced.get? Key.executorMemoryOverhead = none ∧
      t.final.memory =
        some (.planned ⟨16384, 9223372036854778470, 9223372036854775808, 1024, false⟩) ∧
      t.final.ledger.finish.value? Key.executorMemoryOverhead = none := by
  refine ⟨_, rfl, if_pos ?_, rfl, ?_⟩ <;> decide +kernel

end SparkTuner
