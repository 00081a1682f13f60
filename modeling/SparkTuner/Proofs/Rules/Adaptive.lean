import SparkTuner.Proofs.Rules.Cores
import SparkTuner.Proofs.Size

/-!
# Adaptive execution and the shuffle partitions

The engine's version decides which of two keys tells how partitions are merged
(`coalescing_reaches_merging`). How many partitions an application starts from is decided by what
the source says of it and by what was recommended for the shuffle partitions before
(`chosen?_adaptive_initial`), and what was recommended there is a number
(`exists_readCount64?_of_chosen?`).
-/

namespace SparkTuner

open Ledger Number Text

/-! ## Versions -/

/-- The numbers are 3.2.0 or later ones. -/
def Version.Triple.IsFrom32 (v : Version.Triple) : Prop :=
  3 < v.major ∨ v.major = 3 ∧ 2 ≤ v.minor

theorem EngineVersion.coalescing_eq_bySize_iff (v : EngineVersion) :
    v.coalescing = .bySize ↔ v.triple.IsFrom32 := by
  have hlater : v.atLeast 3 2 0 = true ↔ v.triple.IsFrom32 := by
    simp only [atLeast, Version.Triple.IsFrom32, Bool.or_eq_true, Bool.and_eq_true, beq_iff_eq,
      decide_eq_true_eq]
    omega
  rw [← hlater, coalescing]
  split
  next h => simp [h]
  next h => simp [h]

/-! ## Numerals -/

theorem readCount64?_repr {n : ℕ} (h : n ≤ max64) : readCount64? (Nat.repr n) = some n := by
  have hplus : ∀ ds, Nat.toDigits 10 n ≠ '+' :: ds := by
    intro ds hds
    have hdigit : isDigit '+' = true :=
      isDigit_of_mem_toDigits (n := n) (by rw [hds]; exact List.mem_cons_self)
    exact absurd hdigit (by decide)
  have hkept : (readDigits? (Nat.toDigits 10 n)).filter (· ≤ max64) = some n := by
    rw [readDigits?_toDigits]
    exact Option.filter_some_pos (by simpa using h)
  rw [readCount64?, Nat.toList_repr, readUpTo?]
  · exact hkept
  · exact hplus

/-! ## What later rules find -/

namespace Ledger

variable {l : Ledger} {key value : String}

theorem get?_of_isUntouched (h : (l.account key).IsUntouched (l.freshEntry key)) :
    l.get? key = l.source.get? key := by
  unfold get?
  rcases h with h | h
  · have hentry : l.entry? key = none := h
    rw [hentry]
  · have hentry : l.entry? key = some (l.freshEntry key) := h
    rw [hentry]
    dsimp only
    rw [freshEntry]
    split <;> rfl

theorem chosen?_of_recommended? (h : l.recommended? key = some value) :
    (l.account key).chosen? = some value := by
  unfold recommended? at h
  unfold Account.chosen?
  rw [entry_account]
  cases he : l.entry? key with
  | none =>
    rw [he] at h
    cases h
  | some e =>
    rw [he] at h
    dsimp only at h
    split at h
    next => cases h
    next hopen =>
      rw [Bool.or_eq_true, not_or, Bool.not_eq_true, Bool.not_eq_true] at hopen
      rw [Option.bind_some, h, Option.isSome_some, if_pos rfl]
      exact Entry.rendered?_of_recommended h hopen.1 hopen.2

theorem recommended?_of_chosen? (h : (l.account key).chosen? = some value)
    (hvalue : value ≠ placeholder) : l.recommended? key = some value := by
  obtain ⟨e, he, hshown⟩ := Option.bind_eq_some_iff.1 h
  rw [entry_account] at he
  split at hshown
  next hrecommended =>
    obtain ⟨v, hv⟩ := Option.isSome_iff_exists.1 hrecommended
    obtain ⟨hskip, hresolved, hcurrent⟩ := Entry.current?_of_rendered? hshown hvalue
    have hsame : e.recommended = some value := by
      simpa [Entry.current?, hresolved, hv] using hcurrent
    simp [recommended?, he, hresolved, hskip, hsame]
  next => cases hshown

end Ledger

namespace Account

variable {P : String → Prop} {fresh : Entry} {a : Account} {op : Op} {value : String}

/-- Nothing is missing in the account, and what it has as a recommendation is such a value. -/
def Has (P : String → Prop) (a : Account) : Prop :=
  ∀ e, a.entry = some e → e.unresolved = false ∧ ∀ value, e.recommended = some value → P value

theorem IsUntouched.has (h : a.IsUntouched fresh) (hresolved : fresh.unresolved = false)
    (hfresh : fresh.recommended = none) : a.Has P := by
  intro e he
  rcases h with hnone | hentry
  · cases he.symm.trans hnone
  · cases he.symm.trans hentry
    refine ⟨hresolved, fun value hvalue => ?_⟩
    cases hvalue.symm.trans hfresh

theorem Has.caution (h : a.Has P) (hresolved : fresh.unresolved = false)
    (hfresh : fresh.recommended = none) : (a.caution fresh).account.Has P := by
  unfold Account.caution
  split
  · exact h
  · dsimp only
    split
    · exact h
    · rintro e ⟨⟩
      rw [entryOr]
      cases hentry : a.entry with
      | none =>
        refine ⟨hresolved, fun value hvalue => ?_⟩
        cases hvalue.symm.trans hfresh
      | some e => exact h e hentry

/-- Recommendations of such values, and remarks, keep it so. -/
theorem Has.after (h : a.Has P) (hresolved : fresh.unresolved = false)
    (hfresh : fresh.recommended = none)
    (hop : (∃ key value, op = .recommend key value ∧ P value) ∨ ∃ key c, op = .remark key c) :
    (a.after fresh op).account.Has P := by
  rcases hop with ⟨key, value, rfl, hvalue⟩ | ⟨key, c, rfl⟩
  · rw [Account.after]
    split
    · exact h
    · split
      · exact h.caution hresolved hfresh
      · refine Has.caution ?_ hresolved hfresh
        rintro e ⟨⟩
        refine ⟨rfl, ?_⟩
        rintro v ⟨⟩
        exact hvalue
  · exact h

theorem Has.of_chosen? (h : a.Has P) (hchosen : a.chosen? = some value) : P value := by
  obtain ⟨e, he, hshown⟩ := Option.bind_eq_some_iff.1 hchosen
  obtain ⟨hresolved, hvalues⟩ := h e he
  split at hshown
  next hrecommended =>
    obtain ⟨v, hv⟩ := Option.isSome_iff_exists.1 hrecommended
    cases hskip : e.skipped with
    | true =>
      rw [Entry.rendered?_of_skipped hskip] at hshown
      cases hshown
    | false =>
      have hrendered := Entry.rendered?_of_recommended hv hresolved hskip
      cases hshown.symm.trans hrendered
      exact hvalues _ hv
  next => cases hshown

end Account

namespace Rules

variable {K : Type} [Quantity K] {ctx : Context K} {s : State} {key value : String}

/-! ## Merging partitions -/

/-- The key that tells how partitions are merged. -/
def mergingKey : Coalescing → String
  | .bySize => Key.aqeMinPartitionSize
  | .byCount => Key.aqeMinPartitionNum

theorem mergingKey_injective : ∀ m m', mergingKey m = mergingKey m' → m = m' := by
  intro m m'
  cases m <;> cases m' <;> decide

omit [Quantity K] in
/-- Nothing is written but about the key of the engine's version. -/
theorem coalescing_reaches_merging (ctx : Context K) (s : State) :
    s.Reaches (State.IsAbout ((ctx.engine.map (mergingKey ·.coalescing)).toList))
      (coalescing ctx s) := by
  unfold coalescing
  cases ctx.engine with
  | none => exact .refl s
  | some v =>
    rw [Option.map_some, Option.map_some, Option.toList_some]
    cases v.coalescing with
    | bySize =>
      exact .ite (.refl s) ((State.Reaches.refl s).suggest fun _ =>
        ⟨Key.aqeMinPartitionSize, List.mem_singleton.2 rfl, rfl⟩)
    | byCount =>
      cases ctx.shape with
      | none => exact .refl s
      | some shape =>
        exact (State.Reaches.refl s).suggest fun _ =>
          ⟨Key.aqeMinPartitionNum, List.mem_singleton.2 rfl, rfl⟩

omit [Quantity K] in
/-- With such a version the size is set unless the source sets it. -/
theorem chosen?_coalescing_size
    (huntouched : (s.ledger.account Key.aqeMinPartitionSize).IsUntouched
      (s.ledger.freshEntry Key.aqeMinPartitionSize))
    (hskip : s.ledger.isSkipped Key.aqeMinPartitionSize = false)
    (hlimited : s.ledger.isComputable Key.aqeMinPartitionSize = true) :
    ((coalescing ctx s).ledger.account Key.aqeMinPartitionSize).chosen? =
      if ctx.engine.map EngineVersion.coalescing = some .bySize ∧
        s.ledger.source.get? Key.aqeMinPartitionSize = none then some "4m" else none := by
  have hnone : (s.ledger.account Key.aqeMinPartitionSize).chosen? = none := huntouched.chosen? rfl
  by_cases hengine : ctx.engine.map EngineVersion.coalescing = some .bySize
  · unfold coalescing
    rw [hengine]
    dsimp only
    rw [get?_of_isUntouched huntouched]
    cases s.ledger.source.get? Key.aqeMinPartitionSize with
    | some value => simpa using hnone
    | none =>
      rw [if_neg (by simp), if_pos ⟨rfl, rfl⟩]
      exact State.chosen?_suggest huntouched hskip hlimited _
  · rw [if_neg fun h => hengine h.1]
    refine Eq.trans (congrArg Account.chosen? ?_) hnone
    refine (coalescing_reaches_merging ctx s).account_of_not_mem fun hmem => hengine ?_
    obtain ⟨v, hv, hkey⟩ := Option.map_eq_some_iff.1 (Option.mem_toList.1 hmem)
    rw [hv, Option.map_some, mergingKey_injective _ .bySize hkey]

/-! ## Partitions to start from -/

/-- The application is known to read and shuffle much. -/
def ReadsMuch (ctx : Context K) : Prop :=
  ctx.app.isInfoAvailable = true ∧ Quantity.ofNat muchInput < ctx.app.meanInputBytes ∧
    Quantity.ofNat muchShuffleRead < ctx.app.meanShuffleReadBytes

instance (ctx : Context K) : Decidable (ReadsMuch ctx) :=
  inferInstanceAs (Decidable (_ ∧ _ ∧ _))

/-- The state in which it is decided where to start from. -/
def beforePartitions (ctx : Context K) (s : State) : State :=
  advisorySize ctx (coalescing ctx (switchOffAutoShuffle ctx (switchOnAdaptive s)))

/-- The keys that adaptive execution is set up with before. -/
def earlierAdaptiveKeys : List String :=
  [Key.aqeEnabled, Key.databricksAutoOptimizeShuffle, Key.aqeMinPartitionSize,
    Key.aqeMinPartitionNum, Key.aqeAdvisoryPartitionSize]

omit [Quantity K] in
theorem coalescing_reaches_earlier (ctx : Context K) (s : State) :
    s.Reaches (State.IsAbout earlierAdaptiveKeys)
      (coalescing ctx (switchOffAutoShuffle ctx (switchOnAdaptive s))) := by
  have hswitches : [Key.aqeEnabled, Key.databricksAutoOptimizeShuffle] ⊆ earlierAdaptiveKeys :=
    List.subset_append_left _ _
  have hmerging : ∀ m, mergingKey m ∈ earlierAdaptiveKeys := by
    intro m
    cases m <;> decide
  refine ((switches_reach ctx s).mono fun op ⟨k, hk, hop⟩ => ⟨k, hswitches hk, hop⟩).trans
    ((coalescing_reaches_merging ctx _).mono fun op ⟨k, hk, hop⟩ => ⟨k, ?_, hop⟩)
  obtain ⟨v, -, rfl⟩ := Option.map_eq_some_iff.1 (Option.mem_toList.1 hk)
  exact hmerging _

theorem beforePartitions_reaches (ctx : Context K) (s : State) :
    s.Reaches (State.IsAbout earlierAdaptiveKeys) (beforePartitions ctx s) :=
  .ite ((coalescing_reaches_earlier ctx s).suggest fun _ =>
    ⟨Key.aqeAdvisoryPartitionSize, by simp [earlierAdaptiveKeys], rfl⟩)
    (coalescing_reaches_earlier ctx s)

/-- Much reading is the only reason to write about the keys that come after. -/
theorem account_adaptive (hearlier : key ∉ earlierAdaptiveKeys)
    (hbroadcast : key ≠ Key.aqeBroadcastThreshold) :
    (adaptive ctx s).ledger.account key =
      if ReadsMuch ctx then (initialPartitions (beforePartitions ctx s)).ledger.account key
      else s.ledger.account key := by
  have hlast : ∀ u, (broadcastThreshold K u).ledger.account key = u.ledger.account key := by
    intro u
    refine account_run_of_forall_ne fun op hop hk => hbroadcast ?_
    obtain ⟨c, -, rfl⟩ := List.mem_map.1 hop
    exact (Option.some.inj hk).symm
  rw [adaptive, hlast]
  by_cases hinfo : ctx.app.isInfoAvailable = true
  · rw [if_pos hinfo, partitionsForMuch]
    by_cases hmuch : Quantity.ofNat muchInput < ctx.app.meanInputBytes ∧
        Quantity.ofNat muchShuffleRead < ctx.app.meanShuffleReadBytes
    · rw [if_pos hmuch, if_pos ⟨hinfo, hmuch⟩, beforePartitions]
    · rw [if_neg hmuch, if_neg fun h => hmuch h.2]
      exact (beforePartitions_reaches ctx s).account_of_not_mem hearlier
  · rw [if_neg hinfo, if_neg fun h => hinfo h.1]
    exact (coalescing_reaches_earlier ctx s).account_of_not_mem hearlier

/-- What is recommended without a question is shown, unless the key is skipped. -/
theorem chosen?_write_recommend (huntouched : (s.ledger.account key).IsUntouched
      (s.ledger.freshEntry key)) (hskip : s.ledger.isSkipped key = false) (value : String) :
    ((s.write [.recommend key value]).ledger.account key).chosen? = some value := by
  show ((s.ledger.apply (.recommend key value)).account key).chosen? = some value
  rw [account_apply_self _ rfl]
  exact huntouched.chosen?_after_recommend rfl hskip key value

/-- Where much is read, small partitions are no longer merged for the sake of parallelism. -/
theorem chosen?_adaptive_parallelism
    (huntouched : (s.ledger.account Key.aqeParallelismFirst).IsUntouched
      (s.ledger.freshEntry Key.aqeParallelismFirst))
    (hskip : s.ledger.isSkipped Key.aqeParallelismFirst = false) (h : ReadsMuch ctx) :
    ((adaptive ctx s).ledger.account Key.aqeParallelismFirst).chosen? = some "false" := by
  have hkey : Key.aqeParallelismFirst ∉ earlierAdaptiveKeys ∧
      Key.aqeParallelismFirst ∉ [Key.aqeInitialPartitionNum] := by
    decide
  have hbefore := beforePartitions_reaches ctx s
  let first := (beforePartitions ctx s).write [.recommend Key.aqeParallelismFirst "false"]
  have hrest : first.Reaches (State.IsAbout [Key.aqeInitialPartitionNum])
      (initialPartitions (beforePartitions ctx s)) :=
    .ite ((State.Reaches.refl first).suggest fun _ =>
      ⟨Key.aqeInitialPartitionNum, List.mem_singleton.2 rfl, rfl⟩) (.refl first)
  rw [account_adaptive hkey.1 (by decide), if_pos h, hrest.account_of_not_mem hkey.2]
  refine chosen?_write_recommend ?_ ?_ "false"
  · rw [hbefore.account_of_not_mem hkey.1, hbefore.freshEntry]
    exact huntouched
  · rw [isSkipped, hbefore.policy]
    exact hskip

/-- Few partitions to start from, and few that were recommended for shuffles, are replaced where
much is read. -/
theorem chosen?_adaptive_initial
    (huntouched : (s.ledger.account Key.aqeInitialPartitionNum).IsUntouched
      (s.ledger.freshEntry Key.aqeInitialPartitionNum))
    (hskip : s.ledger.isSkipped Key.aqeInitialPartitionNum = false)
    (hlimited : s.ledger.isComputable Key.aqeInitialPartitionNum = true) :
    ((adaptive ctx s).ledger.account Key.aqeInitialPartitionNum).chosen? =
      if ReadsMuch ctx ∧ initialPartitionsInEffect s.ledger ≤ fewInitialPartitions ∧
          recommendedShufflePartitions s.ledger < manyInitialPartitions then some "2000"
      else none := by
  have hnone : (s.ledger.account Key.aqeInitialPartitionNum).chosen? = none :=
    huntouched.chosen? rfl
  have hkey : Key.aqeInitialPartitionNum ∉ Key.aqeParallelismFirst :: earlierAdaptiveKeys ∧
      Key.shufflePartitions ∉ Key.aqeParallelismFirst :: earlierAdaptiveKeys ∧
      Key.aqeInitialPartitionNum ∉ earlierAdaptiveKeys := by
    decide
  obtain ⟨hinitial, hshuffle, hearlier⟩ := hkey
  rw [account_adaptive hearlier (by decide)]
  by_cases hmuch : ReadsMuch ctx
  · rw [if_pos hmuch, initialPartitions]
    have hfirst : s.Reaches (State.IsAbout (Key.aqeParallelismFirst :: earlierAdaptiveKeys))
        ((beforePartitions ctx s).write [.recommend Key.aqeParallelismFirst "false"]) :=
      ((beforePartitions_reaches ctx s).mono fun op ⟨k, hk, hop⟩ =>
        ⟨k, List.mem_cons_of_mem _ hk, hop⟩).write_one
          ⟨Key.aqeParallelismFirst, List.mem_cons_self, rfl⟩
    generalize (beforePartitions ctx s).write [.recommend Key.aqeParallelismFirst "false"] = first
      at hfirst
    have haccount := hfirst.account_of_not_mem hinitial
    have hineffect : initialPartitionsInEffect first.ledger =
        initialPartitionsInEffect s.ledger := by
      rw [initialPartitionsInEffect, initialPartitionsInEffect, getOrDefault?, getOrDefault?,
        get?_congr haccount hfirst.source]
    have hrecommended : recommendedShufflePartitions first.ledger =
        recommendedShufflePartitions s.ledger := by
      have hentry : first.ledger.entry? Key.shufflePartitions =
          s.ledger.entry? Key.shufflePartitions :=
        congrArg Account.entry (hfirst.account_of_not_mem hshuffle)
      rw [recommendedShufflePartitions, recommendedShufflePartitions, recommended?, recommended?,
        hentry]
    rw [hineffect, hrecommended]
    by_cases hfew : initialPartitionsInEffect s.ledger ≤ fewInitialPartitions ∧
        recommendedShufflePartitions s.ledger < manyInitialPartitions
    · rw [if_pos hfew, if_pos ⟨hmuch, hfew⟩]
      refine State.chosen?_suggest ?_ ?_ ?_ _
      · rw [haccount, hfirst.freshEntry]
        exact huntouched
      · rw [isSkipped, hfirst.policy]
        exact hskip
      · rw [isComputable, hfirst.policy]
        exact hlimited
    · rw [if_neg hfew, if_neg fun h => hfew h.2, haccount, hnone]
  · rw [if_neg hmuch, if_neg fun h => hmuch h.1, hnone]

/-! ## Shuffle partitions -/

/-- A number for the shuffle partitions is recommended, or something is said of them. -/
def IsShuffleCount (op : Op) : Prop :=
  (∃ n, n ≤ max64 ∧ op = .recommend Key.shufflePartitions (Nat.repr n)) ∨
    ∃ c, op = .remark Key.shufflePartitions c

theorem isShuffleCount_of_mem {current : ℕ} {base target : Tool.Adjustment} {op : Op}
    (hword : target.value ≤ max64) (h : op ∈ shufflePartitionOps current base target) :
    IsShuffleCount op := by
  rcases List.mem_append.1 h with h | h
  · split at h
    · cases h
    · obtain ⟨text, htext, rfl⟩ := List.mem_map.1 h
      have hcount := Option.mem_toList.1 htext
      unfold Computed.text? at hcount
      dsimp only at hcount
      split at hcount
      next =>
        refine Or.inl ⟨(signed64 target.value).toNat, ?_, by rw [Option.some.inj hcount]⟩
        unfold signed64
        split <;> omega
      next => cases hcount
  · obtain ⟨c, -, rfl⟩ := List.mem_map.1 h
    exact Or.inr ⟨c, rfl⟩

theorem shufflePartitionsInEffect_le (l : Ledger) : shufflePartitionsInEffect l ≤ max64 := by
  unfold shufflePartitionsInEffect
  cases hread : ((l.getOrDefault? Key.shufflePartitions).bind fun v =>
    readCount64? (trimmed v)).filter (0 < ·) with
  | none => decide
  | some n =>
    obtain ⟨value, -, hvalue⟩ := Option.bind_eq_some_iff.1 (Option.filter_eq_some_iff.1 hread).1
    exact le_of_readUpTo? hvalue

omit [Quantity K] in
theorem spillBased_le (app : AppSummary K) {current : ℕ} (h : current ≤ max64) :
    (spillBased app current).value ≤ max64 := by
  unfold spillBased
  split
  · exact h
  · split
    · exact h
    · exact Nat.min_le_right _ _

omit [Quantity K] in
theorem toolShufflePartitions_le (tool : Tool) (app : AppSummary K) {current base : ℕ}
    (h : base ≤ max64) : (tool.shufflePartitions app current base).value ≤ max64 := by
  cases tool with
  | qualification => exact h
  | profiling =>
    unfold Tool.shufflePartitions
    dsimp only
    split
    · exact h
    · exact Nat.max_le.2 ⟨h, Nat.min_le_right _ _⟩

omit [Quantity K] in
theorem shufflePartitions_reaches_counts (ctx : Context K) (s : State) :
    s.Reaches IsShuffleCount (shufflePartitions ctx s) := by
  refine .ite (State.reaches_write fun _ => isShuffleCount_of_mem ?_) (State.reaches_write ?_)
  · exact toolShufflePartitions_le _ _ (spillBased_le _ (shufflePartitionsInEffect_le _))
  · intro op hop
    have hdefault : defaultValue? Key.shufflePartitions = some (Nat.repr 200) := by decide
    unfold suggestDefault at hop
    split at hop
    next value _ hvalue =>
      rw [List.mem_singleton.1 hop, Option.some.inj (hvalue.symm.trans hdefault)]
      exact Or.inl ⟨200, by decide, rfl⟩
    next => cases hop

omit [Quantity K] in
/-- What the rules recommend for the shuffle partitions is a number. -/
theorem exists_readCount64?_of_chosen?
    (huntouched : (s.ledger.account Key.shufflePartitions).IsUntouched
      (s.ledger.freshEntry Key.shufflePartitions))
    (h : ((shufflePartitions ctx s).ledger.account Key.shufflePartitions).chosen? = some value) :
    ∃ n, readCount64? value = some n := by
  obtain ⟨ops, hops, hcounts⟩ := shufflePartitions_reaches_counts ctx s
  have hall : ((shufflePartitions ctx s).ledger.account Key.shufflePartitions).Has
      fun value => ∃ n, readCount64? value = some n := by
    rw [hops]
    refine account_run_induction (fun op hop _ a ha => ha.after rfl rfl ?_)
      (huntouched.has rfl rfl)
    rcases hcounts op hop with ⟨n, hn, rfl⟩ | ⟨c, rfl⟩
    · exact Or.inl ⟨_, _, rfl, n, readCount64?_repr hn⟩
    · exact Or.inr ⟨_, c, rfl⟩
  exact hall.of_chosen? h

end Rules

end SparkTuner
