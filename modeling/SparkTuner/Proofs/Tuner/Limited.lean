import SparkTuner.Proofs.Rules.Enforced
import SparkTuner.Proofs.Rules.Limited
import SparkTuner.Proofs.Tuner.Stages

/-!
# Limited keys over a whole run

A limited key is reported with the value of the source, or with its default at most, unless it is
one of those that rules write about without asking (`Rule.uncheckedKeys`) or the memory falls short
of it (`limited_keys_keep_source_or_default`).
-/

namespace SparkTuner

open Ledger Number

variable {K : Type}

/-- The key is at its default at most, and if the source sets it, its entry is still this one. -/
structure Ledger.Spares (l : Ledger) (key : String) (opened : Option Entry) : Prop where
  atDefault : (l.account key).AtDefault (l.freshEntry key) (defaultValue? key)
  kept : l.source.get? key ≠ none → (l.account key).entry = opened

namespace State

variable {s t : State} {key : String} {opened : Option Entry}

theorem spares_of_reaches (h : s.ledger.Spares key opened)
    (hreach : s.Reaches (Op.Respects s.ledger.source s.ledger.policy) t)
    (hlimited : key ∈ s.ledger.policy.limited) (hchecked : key ∉ Rule.uncheckedKeys)
    (hskip : s.ledger.isSkipped key = false) : t.ledger.Spares key opened := by
  have hfresh := hreach.freshEntry key
  have hsource := hreach.source
  obtain ⟨ops, rfl, hops⟩ := hreach
  -- Each operation about the key gives the default at most, so both parts are kept step by step.
  have hgives : ∀ op ∈ ops, op.key? = some key →
      op.GivesDefault (s.ledger.source.get? key) (defaultValue? key) :=
    fun op hop hk => hops op hop key hk hlimited hchecked
  refine ⟨?_, fun hgiven => ?_⟩
  · rw [hfresh]
    exact account_run_induction (fun op hop hk a ha => ha.after rfl hskip (hgives op hop hk))
      h.atDefault
  · rw [hsource] at hgiven
    refine account_run_induction (P := fun a => a.entry = opened) (fun op hop hk a ha => ?_)
      (h.kept hgiven)
    exact (Account.entry_after_of_given hgiven (hgives op hop hk)).trans ha

variable [Quantity K] {ctx : Context K}

theorem spares_applyAll {rules : List Rule}
    (hrules : ∀ r ∈ rules, r ≠ .seed ∧ r ≠ .enforce ∧ r ≠ .executor)
    (h : s.ledger.Spares key opened) (hlimited : key ∈ s.ledger.policy.limited)
    (hchecked : key ∉ Rule.uncheckedKeys) (hskip : s.ledger.isSkipped key = false) :
    (Rule.applyAll ctx rules s).ledger.Spares key opened := by
  induction rules generalizing s with
  | nil => exact h
  | cons r rules ih =>
    obtain ⟨hseed, henforce, hexecutor⟩ := hrules r List.mem_cons_self
    have hreach : s.Reaches (Op.Respects s.ledger.source s.ledger.policy) (r.apply ctx s) :=
      Rule.apply_respects hseed henforce hexecutor
    refine ih (fun r' hr' => hrules r' (List.mem_cons_of_mem _ hr'))
      (spares_of_reaches h hreach hlimited hchecked hskip) ?_ ?_
    · rw [hreach.policy]
      exact hlimited
    · rw [isSkipped, hreach.policy]
      exact hskip

theorem spares_reportShortfall (h : s.ledger.Spares key opened) (shape : Shape) (required : Nat)
    (hkey : key ∉ Rules.memoryKeys) :
    (Rules.reportShortfall s shape required).ledger.Spares key opened := by
  have haccount := account_reportShortfall (s := s) shape required hkey
  have hsource : (Rules.reportShortfall s shape required).ledger.source = s.ledger.source :=
    source_run ..
  have hfresh : (Rules.reportShortfall s shape required).ledger.freshEntry key =
      s.ledger.freshEntry key := freshEntry_run ..
  refine ⟨?_, fun hgiven => ?_⟩
  · rw [haccount, hfresh]
    exact h.atDefault
  · rw [hsource] at hgiven
    rw [haccount]
    exact h.kept hgiven

end State

namespace Tuner

variable [Quantity K] {t : Tuner K} {key : String}

/-! ## Opening the known keys -/

/-- A known key that the source sets has a fresh entry once the known keys are opened. -/
theorem entry_seeded_of_known (hknown : (Definition.find? key).isSome = true)
    (hgiven : t.source.get? key ≠ none) :
    (t.seeded.ledger.account key).entry = some (t.seeded.ledger.freshEntry key) := by
  obtain ⟨d, hd⟩ := Option.isSome_iff_exists.1 hknown
  have hkey : d.key = key := by simpa using List.find?_some hd
  obtain ⟨before, later, hsplit⟩ := List.append_of_mem (mem_all_of_find? hd)
  have hsource : t.initial.ledger.source = t.source := source_run ..
  have hfresh : (t.initial.ledger.freshEntry key).given.isSome = true := by
    rw [given_freshEntry, hsource]
    exact Option.isSome_iff_ne_none.2 hgiven
  -- The operation for the key opens its entry, and none of the others closes it.
  have hopen : (t.seeded.ledger.account key).entry.isSome = true := by
    rw [seeded_eq, State.ledger_write, hsplit, List.map_append, List.map_cons, run_append, run_cons]
    refine account_run_induction (P := fun a => a.entry.isSome = true) (fun op hop _ a ha => ?_) ?_
    · obtain ⟨d', -, rfl⟩ := List.mem_map.1 hop
      simp only [Account.after]
      split
      · rfl
      · exact ha
    · have hopens : (Op.seed d.key).key? = some key := congrArg some hkey
      rw [account_apply_self _ hopens, freshEntry_run]
      simp only [Account.after, hfresh, if_true]
      rfl
  rcases t.untouched_seeded key with h | h
  · rw [h] at hopen
    cases hopen
  · exact h

theorem entry_seeded_of_unknown (hunknown : Definition.find? key = none) :
    (t.seeded.ledger.account key).entry = none := by
  rw [seeded_eq, State.ledger_write, account_run_of_forall_ne fun op hop hk => ?_, account_initial]
  obtain ⟨d, hd, rfl⟩ := List.mem_map.1 hop
  have hdiffers := List.find?_eq_none.1 hunknown d hd
  cases hk
  simp at hdiffers

/-! ## From the values of the user to the end -/

/-- What the source and the table of definitions say of a key alone. -/
def openedAs (t : Tuner K) (key : String) : Option Entry :=
  if (Definition.find? key).isSome then some (t.fixed.ledger.freshEntry key) else none

theorem spares_fixed (hfree : t.enforced.get? key = none) :
    t.fixed.ledger.Spares key (t.openedAs key) := by
  have hfresh : t.fixed.ledger.freshEntry key = t.seeded.ledger.freshEntry key :=
    freshEntry_congr (Rule.source_apply .enforce) (Rule.policy_apply .enforce) key
  refine ⟨Or.inl (untouched_fixed hfree), fun hgiven => ?_⟩
  rw [source_fixed] at hgiven
  rw [account_fixed hfree, openedAs, hfresh]
  split
  next hknown => exact entry_seeded_of_known hknown hgiven
  next hunknown => exact entry_seeded_of_unknown (by simpa using hunknown)

section Limited

variable (hlimited : key ∈ t.policy.limited) (hchecked : key ∉ Rule.uncheckedKeys)
  (hskip : key ∉ t.policy.skip) (hfree : t.enforced.get? key = none)

include hlimited hchecked hskip hfree

/-- The rule of the executors spares a limited key that the memory does not fall short of. -/
theorem spares_sized (h : ¬(key ∈ Rules.memoryKeys ∧ t.sized.isShort = true)) :
    t.sized.ledger.Spares key (t.openedAs key) := by
  have hlimited' : key ∈ t.fixed.ledger.policy.limited := t.policy_fixed ▸ hlimited
  have hskip' := isSkipped_of_policy t.policy_fixed hskip
  rw [sized_eq] at h ⊢
  rcases Rule.executor_respects t.context t.fixed with
    ⟨u, hu, hledger, -⟩ | ⟨u, shape, required, hu, hledger, hshort⟩
  · rw [hledger]
    exact State.spares_of_reaches (spares_fixed hfree) hu hlimited' hchecked hskip'
  · have hkey : key ∉ Rules.memoryKeys := fun hkey => h ⟨hkey, by rw [State.isShort, hshort]⟩
    have hspares := State.spares_of_reaches (spares_fixed hfree) hu hlimited' hchecked hskip'
    rw [hledger]
    exact State.spares_reportShortfall hspares shape required hkey

theorem spares_final (h : ¬(key ∈ Rules.memoryKeys ∧ t.final.isShort = true)) :
    t.final.ledger.Spares key (t.openedAs key) := by
  have hshort : t.final.isShort = t.sized.isShort := by
    rw [State.isShort, State.isShort, t.memory_final.1]
  rw [hshort] at h
  rw [final_eq]
  exact State.spares_applyAll (by decide) (spares_sized hlimited hchecked hskip hfree h)
    (t.policy_sized ▸ hlimited) hchecked (isSkipped_of_policy t.policy_sized hskip)

omit hlimited hchecked in
/-- A memory setting that the memory falls short of stays open, limited or not. -/
theorem isOpen_final (hkey : key ∈ Rules.memoryKeys) (h : t.final.isShort = true) :
    (t.final.ledger.account key).IsOpen := by
  have hlast := Rule.not_mem_keys_of_mem_planKeys (Rule.mem_planKeys_of_mem_memoryKeys hkey)
  have hskip' := isSkipped_of_policy t.policy_fixed hskip
  rw [State.isShort, t.memory_final.1, sized_eq] at h
  rw [t.account_final hlast, sized_eq]
  rcases Rule.executor_respects t.context t.fixed with
    ⟨u, -, -, hmemory | ⟨plan, hmemory⟩⟩ | ⟨u, shape, required, hu, hledger, -⟩
  · rw [hmemory, t.memory_fixed] at h
    cases h
  · rw [hmemory] at h
    cases h
  · obtain ⟨ops, rfl, -⟩ := hu
    rw [hledger]
    refine State.isOpen_reportShortfall shape required hkey ?_ ?_
    · rw [State.ledger_write, isSkipped_run]
      exact hskip'
    · rw [State.ledger_write, freshEntry_run, skipped_entryOr_run,
        (untouched_fixed hfree).entryOr]
      exact hskip'

end Limited

end Tuner

/-- A limited key that no rule writes about without asking is reported with the value of the source
if it is a known key that the source sets, and else with its default at most. Only where the memory
falls short of it, it is reported as a placeholder. -/
theorem limited_keys_keep_source_or_default [Quantity K] {t : Tuner K} {r : Recommendations}
    {key : String} (hrun : t.recommend? = some r) (hlimited : key ∈ t.policy.limited)
    (hskip : key ∉ t.policy.skip) (hfree : t.enforced.get? key = none)
    (hchecked : key ∉ Rule.uncheckedKeys) :
    (key ∈ Rules.memoryKeys → t.final.isShort = true → r.value? key = some placeholder) ∧
      (¬(key ∈ Rules.memoryKeys ∧ t.final.isShort = true) →
        (∀ value, t.source.get? key = some value →
          r.value? key = if (Definition.find? key).isSome then some value else none) ∧
        (t.source.get? key = none →
          r.value? key = none ∨
            ∃ value, defaultValue? key = some value ∧ r.value? key = some value)) := by
  obtain ⟨-, rfl⟩ := Tuner.of_recommend? hrun
  have hsource : t.final.ledger.source = t.source := t.source_final
  have hskip' := Tuner.isSkipped_of_policy t.policy_final hskip
  refine ⟨fun hkey hshort => value?_of_isOpen (Tuner.isOpen_final hskip hfree hkey hshort), ?_⟩
  intro h
  have hspares := Tuner.spares_final hlimited hchecked hskip hfree h
  rw [value?_finish]
  refine ⟨fun value hgiven => ?_, fun hunset => ?_⟩
  · have hentry := hspares.kept (by rw [hsource, hgiven]; exact Option.some_ne_none value)
    have hfresh : t.fixed.ledger.freshEntry key = t.final.ledger.freshEntry key :=
      freshEntry_congr (t.source_fixed.trans hsource.symm)
        (t.policy_fixed.trans t.policy_final.symm) key
    rw [Tuner.openedAs, hfresh] at hentry
    split
    next hknown =>
      rw [if_pos hknown] at hentry
      rw [Account.reported?_of_entry_eq_fresh hskip' hentry, hsource, hgiven]
    next hunknown =>
      rw [if_neg hunknown] at hentry
      rw [Account.reported?, hentry]
      rfl
  · exact hspares.atDefault.reported? hskip' (by rw [hsource, hunset])

/-- A tuner for an application with these properties and limited keys, and nothing else known. -/
def Tuner.ofLimited (properties : List (String × String)) (limited : List String) : Tuner Rat where
  app := { AppSummary.blank with properties := KeyMap.ofList properties, spillStages := [1] }
  driverLog := none
  platform := .onPrem
  tool := default
  strategy := default
  cluster := {}
  worker := none
  enforced := .empty
  policy := { limited }
  latest := .notChecked
  diagnostics := []

/-- Spilling calls for more shuffle partitions, but the limited key keeps its source value. -/
theorem shufflePartitions_limited :
    (Tuner.ofLimited [(Key.shufflePartitions, "64")]
      [Key.shufflePartitions]).final.ledger.finish.value? Key.shufflePartitions = some "64" := by
  let t := Tuner.ofLimited [(Key.shufflePartitions, "64")] [Key.shufflePartitions]
  have hwords : t.final.staysInWords = true := by decide +kernel
  have hchecked : Key.shufflePartitions ∉ Rule.uncheckedKeys := by decide +kernel
  have hmemory : Key.shufflePartitions ∉ Rules.memoryKeys := by decide +kernel
  have hlimits := limited_keys_keep_source_or_default (t := t) (if_pos hwords)
    List.mem_cons_self List.not_mem_nil rfl hchecked
  exact (hlimits.2 fun h => hmemory h.1).1 "64" (by decide +kernel)

/-- The registrators of the Kryo serializer are merged with the one for the GPU, limited or not. -/
theorem kryoRegistrator_not_limited :
    let t := Tuner.ofLimited
      [(Key.serializer, Rules.kryoClass), (Key.kryoRegistrator, "org.example.Registrator")]
      [Key.kryoRegistrator]
    let r := t.final.ledger.finish
    t.recommend? = some r ∧ Key.kryoRegistrator ∈ t.policy.limited ∧ t.policy.skip = [] ∧
      t.enforced = .empty ∧ t.source.get? Key.kryoRegistrator = some "org.example.Registrator" ∧
      r.value? Key.kryoRegistrator =
        some "org.example.Registrator,com.nvidia.spark.rapids.GpuKryoRegistrator" := by
  intro t r
  obtain ⟨hwords, hgiven, hvalue⟩ : t.final.staysInWords = true ∧
      t.source.get? Key.kryoRegistrator = some "org.example.Registrator" ∧
      r.value? Key.kryoRegistrator =
        some "org.example.Registrator,com.nvidia.spark.rapids.GpuKryoRegistrator" := by
    decide +kernel
  exact ⟨if_pos hwords, List.mem_cons_self, rfl, rfl, hgiven, hvalue⟩

end SparkTuner
