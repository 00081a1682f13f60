import SparkTuner.Tuner

/-!
# What rules write

Rules reach the ledger through its operations only. `Rule.Writes` lists, rule by rule, every
operation that can be among them (`Rule.apply_writes`), so that whatever a run does to the ledger is
proved about the list, and a rule is unfolded here alone. Only the executor rule touches more than
the ledger (`executor_outcome`).
-/

namespace SparkTuner

open Ledger Number

/-! ## Reaching a state -/

namespace State

/-- The second state is the first one after operations that all satisfy `P`. -/
def Reaches (P : Op → Prop) (s t : State) : Prop := ∃ ops, t = s.write ops ∧ ∀ op ∈ ops, P op

variable {P Q : Op → Prop} {s t u : State}

theorem Reaches.refl (s : State) : s.Reaches P s := ⟨[], rfl, fun _ h => by cases h⟩

theorem reaches_write {ops : List Op} (h : ∀ op ∈ ops, P op) : s.Reaches P (s.write ops) :=
  ⟨ops, rfl, h⟩

theorem Reaches.trans (h : s.Reaches P t) (h' : t.Reaches P u) : s.Reaches P u := by
  obtain ⟨ops, rfl, hops⟩ := h
  obtain ⟨more, rfl, hmore⟩ := h'
  refine ⟨ops ++ more, by simp [write, run_append], fun op hop => ?_⟩
  rcases List.mem_append.1 hop with hop | hop
  · exact hops op hop
  · exact hmore op hop

theorem Reaches.mono (h : s.Reaches P t) (hPQ : ∀ op, P op → Q op) : s.Reaches Q t := by
  obtain ⟨ops, rfl, hops⟩ := h
  exact ⟨ops, rfl, fun op hop => hPQ op (hops op hop)⟩

theorem Reaches.memory (h : s.Reaches P t) : t.memory = s.memory := by
  obtain ⟨ops, rfl, -⟩ := h
  rfl

theorem Reaches.write_one (h : s.Reaches P t) {op : Op} (hop : P op) :
    s.Reaches P (t.write [op]) :=
  h.trans (reaches_write fun op' hop' => by rw [List.mem_singleton.1 hop']; exact hop)

/-- A suggestion writes recommendations for its key only. -/
theorem mem_suggest {l : Ledger} {key : String} {value : Computed} {op : Op}
    (h : op ∈ l.suggest key value) : ∃ text, op = .recommend key text := by
  unfold Ledger.suggest suggestDefault at h
  split at h
  · obtain ⟨text, -, rfl⟩ := List.mem_map.1 h
    exact ⟨text, rfl⟩
  · split at h
    · exact ⟨_, List.mem_singleton.1 h⟩
    · cases h

theorem Reaches.suggest (h : s.Reaches P t) {key : String} {value : Computed}
    (hkey : ∀ text, P (.recommend key text)) : s.Reaches P (t.suggest key value) := by
  refine h.trans (reaches_write fun op hop => ?_)
  obtain ⟨text, rfl⟩ := mem_suggest hop
  exact hkey text

/-- Whatever is written in either case, the state is reached. -/
theorem Reaches.ite {p : Prop} [Decidable p] (ht : s.Reaches P t) (hu : s.Reaches P u) :
    s.Reaches P (if p then t else u) := by
  split
  · exact ht
  · exact hu

/-- Suggestions for some keys and recommendations for others write only what satisfies `P`. -/
structure Admits (s : State) (P : Op → Prop) (suggested recommended : List String) : Prop where
  suggest : ∀ {t}, s.Reaches P t → ∀ key ∈ suggested, ∀ value, s.Reaches P (t.suggest key value)
  recommend : ∀ key ∈ recommended, ∀ value, P (.recommend key value)

theorem admits_of_forall {suggested recommended : List String}
    (hs : ∀ key ∈ suggested, ∀ value, P (.recommend key value))
    (hr : ∀ key ∈ recommended, ∀ value, P (.recommend key value)) :
    s.Admits P suggested recommended where
  suggest h _ hkey _ := h.suggest (hs _ hkey)
  recommend := hr

theorem Admits.mono {suggested suggested' recommended : List String}
    (h : s.Admits P suggested recommended) (hsub : suggested' ⊆ suggested) :
    s.Admits P suggested' recommended where
  suggest hreach key hkey value := h.suggest hreach key (hsub hkey) value
  recommend := h.recommend

end State

/-! ## The operations of each rule -/

namespace Rule

variable {K : Type} [Quantity K]

/-- The sizes that a plan gives values to. -/
def planKeys : List String :=
  [Key.executorMemory, Key.executorMemoryOverhead, Key.pinnedPool, Key.spillStorage]

/-- The settings that the layout of the executors gives values to. -/
def layoutKeys : List String :=
  [Key.executorCores, Key.executorInstances, Key.taskGpuAmount, Key.concurrentGpuTasks,
    Key.batchSizeBytes]

/-- The settings of the thread pools. -/
def poolKeys : List String :=
  [Key.shuffleReaderThreads, Key.shuffleWriterThreads, Key.multiThreadedReadThreads,
    Key.readerCombineSize, Key.parquetCombineWait]

/-- The keys that a rule recommends values for. -/
def recommends : Rule → List String
  | executor =>
    [Key.executorCores, Key.executorInstances, Key.taskGpuAmount, Key.concurrentGpuTasks,
      Key.batchSizeBytes] ++ planKeys
  | plugin => [Key.sqlEnabled]
  | shuffleManager => [Key.shuffleManager]
  | fileCache => [Key.fileCacheEnabled]
  | maxPartitionBytes => [Key.maxPartitionBytes]
  | shufflePartitions => [Key.shufflePartitions]
  | kryo => [Key.kryoRegistrator, Key.kryoBufferMax]
  | adaptive =>
    [Key.aqeEnabled, Key.databricksAutoOptimizeShuffle, Key.aqeMinPartitionSize,
      Key.aqeMinPartitionNum, Key.aqeAdvisoryPartitionSize, Key.aqeParallelismFirst,
      Key.aqeInitialPartitionNum]
  | threads =>
    [Key.shuffleReaderThreads, Key.shuffleWriterThreads, Key.multiThreadedReadThreads,
      Key.readerCombineSize, Key.parquetCombineWait, Key.shuffleMaxBytesInFlight]
  | driverLogs => [Key.incompatibleDateFormats]
  | platform => [Key.databricksDynamicFilePruning]
  | seed | enforce | clusterDefaults | gc | classpath | systemProperties => []

/-- What a rule may write. -/
inductive Writes (ctx : Context K) : Rule → Op → Prop
  | seed {d : Definition} (h : d ∈ Definition.all) : Writes ctx .seed (.seed d.key)
  | enforce {key value : String} (h : (key, value) ∈ ctx.enforced.toList) :
    Writes ctx .enforce (.enforce key value)
  | recommend {r : Rule} {key value : String} (h : key ∈ r.recommends) :
    Writes ctx r (.recommend key value)
  | noShape : Writes ctx .executor (.sayOnce Rules.noShapeComment)
  | invalidate {key : String} (h : key ∈ Rules.memoryKeys) : Writes ctx .executor (.invalidate key)
  | shortfall (required executors : Nat) :
    Writes ctx .executor (.sayOnce (Memory.shortfallComment required executors))
  | gap {c : String} (h : c ∈ ctx.clusterComments) : Writes ctx .clusterDefaults (.sayOnce c)
  | missingPlugin :
    Writes ctx .plugin (.remark Key.plugins
      ("'" ++ Key.plugins ++ "' should include \"" ++ Rules.pluginClass ++ "\"."))
  | noManager (m : ShuffleManager) {c : String}
      (h : Rules.shuffleManagerOp m = .refuse Key.shuffleManager c) :
    Writes ctx .shuffleManager (.refuse Key.shuffleManager c)
  | cacheCaveat :
    Writes ctx .fileCache (.registerCaveat Key.fileCacheEnabled Rules.fileCacheCaveat)
  | gpuMemory {current inputBased : Nat} {c : String}
      (h : (ctx.tool.partitionMib ctx.app current inputBased).comment = some c) :
    Writes ctx .maxPartitionBytes (.remark Key.maxPartitionBytes c)
  | spilling {current : Nat} {c : String}
      (h : (Rules.spillBased ctx.app current).comment = some c) :
    Writes ctx .shufflePartitions (.remark Key.shufflePartitions c)
  | taskMemory {current spillBased : Nat} {c : String}
      (h : (ctx.tool.shufflePartitions ctx.app current spillBased).comment = some c) :
    Writes ctx .shufflePartitions (.remark Key.shufflePartitions c)
  | garbage : Writes ctx .gc (.sayOnce Rules.gcComment)
  | broadcast {value : Option String} {c : String} (h : Rules.broadcastComment? K value = some c) :
    Writes ctx .adaptive (.remark Key.aqeBroadcastThreshold c)
  | jars {entries : List String} {c : String} (h : Rules.jarComment? ctx.latest entries = some c) :
    Writes ctx .classpath (.sayOnce c)
  | encoding : Writes ctx .systemProperties (.sayOnce Rules.fileEncodingComment)
  | remedyCaveat {r : Rules.Remedy} (h : r ∈ Rules.remedies) :
    Writes ctx .driverLogs (.registerCaveat r.key r.caveat)

/-! ### Lists of operations -/

section Lists

variable {ctx : Context K} {r : Rule} {key : String} {l : Ledger} {op : Op}

theorem writes_of_mem_suggest (hkey : key ∈ r.recommends) {value : Computed}
    (hop : op ∈ l.suggest key value) : Writes ctx r op := by
  obtain ⟨text, rfl⟩ := State.mem_suggest hop
  exact .recommend hkey

theorem writes_of_mem_suggestDefault (hkey : key ∈ r.recommends)
    (hop : op ∈ l.suggestDefault key) : Writes ctx r op := by
  unfold suggestDefault at hop
  split at hop
  · rw [List.mem_singleton.1 hop]
    exact .recommend hkey
  · cases hop

theorem writes_of_mem_seeds (hop : op ∈ Definition.all.map fun d => Op.seed d.key) :
    Writes ctx .seed op := by
  obtain ⟨d, hd, rfl⟩ := List.mem_map.1 hop
  exact .seed hd

theorem writes_of_mem_enforced
    (hop : op ∈ ctx.enforced.toList.map fun (key, value) => Op.enforce key value) :
    Writes ctx .enforce op := by
  obtain ⟨p, hp, rfl⟩ := List.mem_map.1 hop
  exact .enforce hp

theorem writes_of_mem_gaps (hop : op ∈ ctx.clusterComments.map Op.sayOnce) :
    Writes ctx .clusterDefaults op := by
  obtain ⟨c, hc, rfl⟩ := List.mem_map.1 hop
  exact .gap hc

theorem writes_of_mem_partitionOps {value : Computed} {current inputBased : Nat}
    (hop : op ∈ l.suggest Key.maxPartitionBytes value ++
      (ctx.tool.partitionMib ctx.app current inputBased).comment.toList.map
        (.remark Key.maxPartitionBytes)) : Writes ctx .maxPartitionBytes op := by
  rcases List.mem_append.1 hop with hop | hop
  · exact writes_of_mem_suggest (by simp [recommends]) hop
  · obtain ⟨c, hc, rfl⟩ := List.mem_map.1 hop
    exact .gpuMemory (Option.mem_toList.1 hc)

theorem writes_of_mem_shufflePartitionOps {current base : Nat}
    (hop : op ∈ Rules.shufflePartitionOps current (Rules.spillBased ctx.app current)
      (ctx.tool.shufflePartitions ctx.app current base)) : Writes ctx .shufflePartitions op := by
  rcases List.mem_append.1 hop with hop | hop
  · split at hop
    · cases hop
    · obtain ⟨text, -, rfl⟩ := List.mem_map.1 hop
      exact .recommend (by simp [recommends])
  · obtain ⟨c, hc, rfl⟩ := List.mem_map.1 hop
    rcases List.mem_append.1 hc with hc | hc
    · exact .spilling (Option.mem_toList.1 hc)
    · exact .taskMemory (Option.mem_toList.1 hc)

theorem writes_of_mem_cacheOps (hop : op ∈ [.registerCaveat Key.fileCacheEnabled
    Rules.fileCacheCaveat, .recommend Key.fileCacheEnabled "true"]) : Writes ctx .fileCache op := by
  rcases List.mem_cons.1 hop with rfl | hop
  · exact .cacheCaveat
  · rw [List.mem_singleton.1 hop]
    exact .recommend (by simp [recommends])

theorem writes_shuffleManagerOp (m : ShuffleManager) :
    Writes ctx .shuffleManager (Rules.shuffleManagerOp m) := by
  cases m with
  | supported className => exact .recommend (by simp [recommends])
  | unsupported version => exact .noManager (.unsupported version) rfl
  | undetermined => exact .noManager .undetermined rfl

theorem writes_of_mem_broadcast {value : Option String}
    (hop : op ∈ (Rules.broadcastComment? K value).toList.map (.remark Key.aqeBroadcastThreshold)) :
    Writes ctx .adaptive op := by
  obtain ⟨c, hc, rfl⟩ := List.mem_map.1 hop
  exact .broadcast (Option.mem_toList.1 hc)

theorem writes_of_mem_shortfall {required executors : Nat}
    (hop : op ∈ Rules.memoryKeys.map .invalidate ++
      [.sayOnce (Memory.shortfallComment required executors)]) : Writes ctx .executor op := by
  rcases List.mem_append.1 hop with hop | hop
  · obtain ⟨key, hkey, rfl⟩ := List.mem_map.1 hop
    exact .invalidate hkey
  · rw [List.mem_singleton.1 hop]
    exact .shortfall required executors

theorem writes_of_mem_jars {entries : List String}
    (hop : op ∈ (Rules.jarComment? ctx.latest entries).toList.map Op.sayOnce) :
    Writes ctx .classpath op := by
  obtain ⟨c, hc, rfl⟩ := List.mem_map.1 hop
  exact .jars (Option.mem_toList.1 hc)

theorem writes_of_mem_remedies {p : Rules.Remedy → Bool}
    (hop : op ∈ (Rules.remedies.filter p).flatMap Rules.Remedy.ops) :
    Writes ctx .driverLogs op := by
  obtain ⟨r, hr, hop⟩ := List.mem_flatMap.1 hop
  have hmem := (List.mem_filter.1 hr).1
  rcases List.mem_cons.1 hop with rfl | hop
  · exact .remedyCaveat hmem
  · rw [List.mem_singleton.1 hop, List.mem_singleton.1 hmem]
    exact .recommend (by simp [recommends])

/-- What a platform wants is for one key at most. -/
theorem mem_recommends_of_wanted {p : Platform} {q : String × String}
    (hq : q ∈ p.wantedProperties) : q.1 ∈ recommends .platform := by
  unfold Platform.wantedProperties at hq
  split at hq
  · rw [List.mem_singleton.1 hq]
    exact List.mem_singleton_self _
  · cases hq

theorem writes_of_mem_wanted {p : String × String → Bool}
    (hop : op ∈ (ctx.platform.wantedProperties.filter p).map
      fun (key, value) => .recommend key value) : Writes ctx .platform op := by
  obtain ⟨q, hq, rfl⟩ := List.mem_map.1 hop
  exact .recommend (mem_recommends_of_wanted (List.mem_filter.1 hq).1)

end Lists

variable (ctx : Context K) (s : State)

/-! ### Partitions -/

theorem maxPartitionBytes_reaches :
    s.Reaches (Writes ctx .maxPartitionBytes) (Rules.maxPartitionBytes ctx s) := by
  have hkey : Key.maxPartitionBytes ∈ recommends .maxPartitionBytes := by simp [recommends]
  exact .ite (.refl s) (.ite (State.reaches_write fun _ => writes_of_mem_partitionOps)
    (State.reaches_write fun _ => writes_of_mem_suggest hkey))

theorem shufflePartitions_reaches :
    s.Reaches (Writes ctx .shufflePartitions) (Rules.shufflePartitions ctx s) := by
  have hkey : Key.shufflePartitions ∈ recommends .shufflePartitions := by simp [recommends]
  exact .ite (State.reaches_write fun _ => writes_of_mem_shufflePartitionOps)
    (State.reaches_write fun _ => writes_of_mem_suggestDefault hkey)

/-! ### The application -/

theorem fileCache_reaches : s.Reaches (Writes ctx .fileCache) (Rules.fileCache ctx s) :=
  .ite (.refl s) (State.reaches_write fun _ => writes_of_mem_cacheOps)

theorem kryo_reaches : s.Reaches (Writes ctx .kryo) (Rules.kryo K s) := by
  have hregistrator : ∀ value, Writes ctx .kryo (.recommend Key.kryoRegistrator value) :=
    fun value => .recommend (by simp [recommends])
  have hbuffer : ∀ value, Writes ctx .kryo (.recommend Key.kryoBufferMax value) :=
    fun value => .recommend (by simp [recommends])
  refine .ite (.ite ?_ ?_) (.refl s)
  · exact ((State.Reaches.refl s).write_one (hregistrator _)).write_one (hbuffer _)
  · exact (State.Reaches.refl s).write_one (hregistrator _)

theorem platform_reaches : s.Reaches (Writes ctx .platform) (Rules.platform ctx s) :=
  State.reaches_write fun _ => writes_of_mem_wanted

/-! ### The accelerator -/

theorem plugin_reaches : s.Reaches (Writes ctx .plugin) (Rules.plugin s) := by
  have hswitch : s.Reaches (Writes ctx .plugin) (s.write [.recommend Key.sqlEnabled "true"]) :=
    (State.Reaches.refl s).write_one (.recommend (by simp [recommends]))
  exact .ite hswitch (hswitch.write_one .missingPlugin)

theorem shuffleManager_reaches :
    s.Reaches (Writes ctx .shuffleManager) (Rules.shuffleManager ctx s) :=
  .ite ((State.Reaches.refl s).write_one (writes_shuffleManagerOp _)) (.refl s)

theorem driverLogs_reaches : s.Reaches (Writes ctx .driverLogs) (Rules.driverLogs ctx s) :=
  State.reaches_write fun _ => writes_of_mem_remedies

/-! ### Adaptive execution -/

section Adaptive

variable {s} {P : Op → Prop} {t : State}
  (hP : s.Admits P
    [Key.aqeMinPartitionSize, Key.aqeMinPartitionNum, Key.aqeAdvisoryPartitionSize,
      Key.aqeInitialPartitionNum]
    [Key.aqeEnabled, Key.databricksAutoOptimizeShuffle, Key.aqeParallelismFirst])
  (hremark : ∀ value c, Rules.broadcastComment? K value = some c →
    P (.remark Key.aqeBroadcastThreshold c))
  (h : s.Reaches P t)

include hP h

omit [Quantity K] in
theorem switchOnAdaptive_reaches : s.Reaches P (Rules.switchOnAdaptive t) :=
  .ite h (h.write_one (hP.recommend _ (by simp) _))

omit [Quantity K] in
theorem switchOffAutoShuffle_reaches : s.Reaches P (Rules.switchOffAutoShuffle ctx t) :=
  .ite (h.write_one (hP.recommend _ (by simp) _)) h

omit [Quantity K] in
theorem coalescing_reaches : s.Reaches P (Rules.coalescing ctx t) := by
  unfold Rules.coalescing
  split
  · exact .ite h (hP.suggest h _ (by simp) _)
  · exact hP.suggest h _ (by simp) _
  · exact h

theorem advisorySize_reaches : s.Reaches P (Rules.advisorySize ctx t) :=
  .ite (hP.suggest h _ (by simp) _) h

omit [Quantity K] in
theorem initialPartitions_reaches : s.Reaches P (Rules.initialPartitions t) := by
  have hfirst : s.Reaches P (t.write [.recommend Key.aqeParallelismFirst "false"]) :=
    h.write_one (hP.recommend _ (by simp) _)
  exact .ite (hP.suggest hfirst _ (by simp) _) hfirst

theorem partitionsForMuch_reaches : s.Reaches P (Rules.partitionsForMuch ctx t) :=
  .ite (initialPartitions_reaches hP h) h

omit hP in
include hremark in
theorem broadcastThreshold_reaches : s.Reaches P (Rules.broadcastThreshold K t) := by
  refine h.trans (State.reaches_write fun op hop => ?_)
  obtain ⟨c, hc, rfl⟩ := List.mem_map.1 hop
  exact hremark _ c (Option.mem_toList.1 hc)

omit h in
include hremark in
theorem adaptive_reaches : s.Reaches P (Rules.adaptive ctx s) := by
  have hswitch : s.Reaches P (Rules.switchOnAdaptive s) := switchOnAdaptive_reaches hP (.refl s)
  have hmerge := coalescing_reaches ctx hP (switchOffAutoShuffle_reaches ctx hP hswitch)
  refine broadcastThreshold_reaches hremark (.ite ?_ hmerge)
  exact partitionsForMuch_reaches ctx hP (advisorySize_reaches ctx hP hmerge)

end Adaptive

/-! ### Threads -/

section Threads

variable {s} {P : Op → Prop}

omit [Quantity K] in
theorem threadPools_reaches (hP : s.Admits P poolKeys []) (cores : Nat) (isCloud : Bool) :
    s.Reaches P (Rules.threadPools cores isCloud s) := by
  have hreader := hP.suggest (.refl s) Key.shuffleReaderThreads (by simp [poolKeys])
    (.text (Nat.repr cores))
  have hwriter := hP.suggest hreader Key.shuffleWriterThreads (by simp [poolKeys])
    (.text (Nat.repr cores))
  have hpools := hP.suggest hwriter Key.multiThreadedReadThreads (by simp [poolKeys])
    (.text (Nat.repr (Rules.readThreads cores isCloud)))
  refine .ite (hP.suggest (hP.suggest hpools _ ?_ _) _ ?_ _) hpools <;> simp [poolKeys]

omit [Quantity K] in
theorem threads_reaches (hP : s.Admits P (recommends .threads) []) :
    s.Reaches P (Rules.threads ctx s) := by
  have hsub : poolKeys ⊆ recommends .threads := List.subset_append_left _ _
  have hpools := threadPools_reaches (hP.mono hsub) (ctx.executorCores s.ledger)
    ctx.platform.isCloud
  exact .ite (hP.suggest hpools _ (by simp [recommends]) _) hpools

end Threads

/-! ### Executors -/

/-- A recommendation for one of the keys that a rule recommends values for. -/
def IsRecommendation (r : Rule) (op : Op) : Prop :=
  ∃ key ∈ r.recommends, ∃ value, op = .recommend key value

section Executors

variable {s} {P : Op → Prop} {t : State}

theorem recommendPlan_reaches (hP : s.Admits P planKeys []) (h : s.Reaches P t)
    (plan : Memory.Plan) : s.Reaches P (Rules.recommendPlan t plan) := by
  refine hP.suggest (hP.suggest (hP.suggest (hP.suggest h _ ?_ _) _ ?_ _) _ ?_ _) _ ?_ _ <;>
    simp [planKeys]

theorem executorLayout_reaches (hP : s.Admits P layoutKeys []) (shape : Shape) :
    s.Reaches P (Rules.executorLayout ctx shape s) := by
  refine hP.suggest (hP.suggest (hP.suggest (hP.suggest (hP.suggest (.refl s) _ ?_ _) _ ?_ _)
    _ ?_ _) _ ?_ _) _ ?_ _ <;> simp [layoutKeys]

/-- The executor rule says that it knows no layout, or recommends sizes, or recommends the layout
and reports that the memory falls short. -/
theorem executor_outcome (hP : s.Admits P (recommends .executor) []) :
    Rules.executor ctx s = s.write [.sayOnce Rules.noShapeComment] ∨
      (∃ t, s.Reaches P t ∧ (Rules.executor ctx s).ledger = t.ledger ∧
        ((Rules.executor ctx s).memory = s.memory ∨
          ∃ plan, (Rules.executor ctx s).memory = some (.planned plan))) ∨
      ∃ t shape required, s.Reaches P t ∧
        (Rules.executor ctx s).ledger = (Rules.reportShortfall t shape required).ledger ∧
        (Rules.executor ctx s).memory = some (.short required) := by
  unfold Rules.executor
  split
  · exact Or.inl rfl
  next shape _ =>
    right
    have hlayoutKeys : layoutKeys ⊆ recommends .executor := List.subset_append_left _ _
    have hplanKeys : planKeys ⊆ recommends .executor := List.subset_append_right _ _
    have hlayout := executorLayout_reaches ctx (hP.mono hlayoutKeys) shape
    unfold Rules.executorMemory
    split
    · exact Or.inl ⟨_, hlayout, rfl, Or.inl hlayout.memory⟩
    next container _ =>
      dsimp only
      cases hbudget : (Rules.memoryRequest ctx shape container
        (Rules.executorLayout ctx shape s).ledger).budget with
      | planned plan =>
        exact Or.inl ⟨_, recommendPlan_reaches (hP.mono hplanKeys) hlayout plan, rfl,
          Or.inr ⟨plan, rfl⟩⟩
      | short required => exact Or.inr ⟨_, shape, required, hlayout, rfl, rfl⟩

end Executors

theorem admits_isRecommendation (s : State) (r : Rule) :
    s.Admits (IsRecommendation r) r.recommends [] :=
  State.admits_of_forall (fun key hkey value => ⟨key, hkey, value, rfl⟩) fun _ h => by cases h

/-! ## Every rule -/

theorem IsRecommendation.writes {r : Rule} {op : Op} (h : IsRecommendation r op) :
    Writes ctx r op := by
  obtain ⟨key, hkey, value, rfl⟩ := h
  exact .recommend hkey

theorem reportShortfall_reaches (shape : Shape) (required : Nat) :
    s.Reaches (Writes ctx .executor) (Rules.reportShortfall s shape required) :=
  State.reaches_write fun _ => writes_of_mem_shortfall

/-- A rule other than that of the executors changes nothing but the ledger. -/
theorem apply_reaches {r : Rule} (hr : r ≠ .executor) :
    s.Reaches (Writes ctx r) (r.apply ctx s) := by
  cases r with
  | seed => exact State.reaches_write fun _ => writes_of_mem_seeds
  | enforce => exact State.reaches_write fun _ => writes_of_mem_enforced
  | executor => exact absurd rfl hr
  | clusterDefaults => exact State.reaches_write fun _ => writes_of_mem_gaps
  | plugin => exact plugin_reaches ctx s
  | shuffleManager => exact shuffleManager_reaches ctx s
  | fileCache => exact fileCache_reaches ctx s
  | maxPartitionBytes => exact maxPartitionBytes_reaches ctx s
  | shufflePartitions => exact shufflePartitions_reaches ctx s
  | kryo => exact kryo_reaches ctx s
  | gc => exact .ite ((State.Reaches.refl s).write_one .garbage) (.refl s)
  | adaptive =>
    have hsuggested : ∀ key ∈ [Key.aqeMinPartitionSize, Key.aqeMinPartitionNum,
        Key.aqeAdvisoryPartitionSize, Key.aqeInitialPartitionNum], key ∈ recommends adaptive := by
      simp [recommends]
    have hrecommended : ∀ key ∈ [Key.aqeEnabled, Key.databricksAutoOptimizeShuffle,
        Key.aqeParallelismFirst], key ∈ recommends adaptive := by
      simp [recommends]
    exact adaptive_reaches ctx (State.admits_of_forall
      (fun key hkey _ => .recommend (hsuggested key hkey))
      fun key hkey _ => .recommend (hrecommended key hkey)) fun _ _ => .broadcast
  | threads =>
    exact threads_reaches ctx (State.admits_of_forall (fun _ hkey _ => .recommend hkey)
      fun _ hkey => by cases hkey)
  | classpath => exact State.reaches_write fun _ => writes_of_mem_jars
  | systemProperties => exact .ite ((State.Reaches.refl s).write_one .encoding) (.refl s)
  | driverLogs => exact driverLogs_reaches ctx s
  | platform => exact platform_reaches ctx s

/-- Whatever a rule does to the ledger, it writes. -/
theorem apply_writes (r : Rule) :
    ∃ t, s.Reaches (Writes ctx r) t ∧ (r.apply ctx s).ledger = t.ledger := by
  by_cases hr : r = .executor
  · subst hr
    rcases executor_outcome ctx (admits_isRecommendation s .executor) with
      h | ⟨t, ht, hledger, -⟩ | ⟨t, shape, n, ht, hledger, -⟩
    · exact ⟨_, (State.Reaches.refl s).write_one .noShape, congrArg State.ledger h⟩
    · exact ⟨t, ht.mono fun _ => IsRecommendation.writes ctx, hledger⟩
    · have hlayout := ht.mono fun _ => IsRecommendation.writes ctx
      exact ⟨_, hlayout.trans (reportShortfall_reaches ctx t shape n), hledger⟩
  · exact ⟨_, apply_reaches ctx s hr, rfl⟩

end Rule

end SparkTuner
