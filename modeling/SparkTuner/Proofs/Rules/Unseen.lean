import SparkTuner.Proofs.Ledger.Carried
import SparkTuner.Proofs.Rules.Cores

/-!
# Changes that rules do not see

A rule goes by the entries, by the policy, and by what the source has for a few keys
(`Rule.concerns`). A change of the ledger that leaves these alone, and that the operations of the
rule carry along, can be made before the rule as well as after it (`Rule.Unseen.apply`), and before
a run of rules as well as after it (`Rule.applyAll_of_unseen`).
-/

namespace SparkTuner

open Ledger Number

namespace State

variable {f : Ledger → Ledger}

/-- The state with its ledger changed. -/
def changed (f : Ledger → Ledger) (s : State) : State := { s with ledger := f s.ledger }

@[simp] theorem ledger_changed (s : State) : (s.changed f).ledger = f s.ledger := rfl

@[simp] theorem memory_changed (s : State) : (s.changed f).memory = s.memory := rfl

theorem changed_ite {p : Prop} [Decidable p] (s t : State) :
    (if p then s else t).changed f = if p then s.changed f else t.changed f :=
  apply_ite _ p s t

theorem write_changed (s : State) {ops : List Op}
    (h : ∀ op ∈ ops, ∀ l : Ledger, (f l).apply op = f (l.apply op)) :
    (s.changed f).write ops = (s.write ops).changed f := by
  show State.mk ((f s.ledger).run ops) _ _ = _
  rw [run_comm s.ledger h]
  rfl

end State

namespace Rule

variable {K : Type} [Quantity K] {ctx : Context K} {r : Rule} {f : Ledger → Ledger} {key : String}

/-- The keys that a rule goes by or writes about, but for those that the user gives values. -/
def concerns : Rule → List String
  | seed => Definition.all.map Definition.key
  | executor => [Key.offHeapEnabled, Key.offHeapSize, Key.pysparkMemory] ++ keys executor
  | shuffleManager => Key.databricksRuntime :: keys shuffleManager
  | kryo => Key.serializer :: keys kryo
  | adaptive => Key.executorCores :: keys adaptive
  | threads => Key.executorCores :: keys threads
  | r => r.keys

theorem keys_subset_concerns (r : Rule) : r.keys ⊆ r.concerns := by
  cases r with
  | seed => exact List.nil_subset _
  | executor => exact List.subset_append_right _ _
  | shuffleManager | kryo | adaptive | threads => exact List.subset_cons_self _ _
  | _ => exact List.Subset.refl _

theorem mem_concerns_of_mem_recommends (h : key ∈ r.recommends) : key ∈ r.concerns :=
  keys_subset_concerns r (mem_keys_of_mem_recommends h)

/-- A rule does not see a change of the ledger: its operations carry the change along, the source
has the same for the keys that it goes by or writes about, and what it makes sure to say was said
before the change if it was said after it. -/
structure Unseen (ctx : Context K) (r : Rule) (f : Ledger → Ledger) : Prop where
  carried : IsCarried f
  source : ∀ key ∈ r.concerns, ∀ l, (f l).source.get? key = l.source.get? key
  written : ∀ op, Writes ctx r op → ∀ key, op.key? = some key →
    ∀ l, (f l).source.get? key = l.source.get? key
  said : ∀ c, Writes ctx r (.sayOnce c) → ∀ l, (f l).comments.contains c = l.comments.contains c

namespace Unseen

/-! ## What a rule reads -/

section Reading

variable (h : Unseen ctx r f) {l : Ledger}

include h

theorem get? (hkey : key ∈ r.concerns) : (f l).get? key = l.get? key :=
  h.carried.get? l (h.source key hkey)

theorem getOrDefault? (hkey : key ∈ r.concerns) :
    (f l).getOrDefault? key = l.getOrDefault? key := by
  rw [Ledger.getOrDefault?, h.get? hkey, Ledger.getOrDefault?]

theorem executorCores (hkey : Key.executorCores ∈ r.concerns) :
    ctx.executorCores (f l) = ctx.executorCores l := by
  rw [Context.executorCores, h.get? hkey, Context.executorCores]

theorem suggestDefault (hkey : key ∈ r.concerns) :
    (f l).suggestDefault key = l.suggestDefault key := by
  rw [Ledger.suggestDefault, h.source key hkey, Ledger.suggestDefault]

theorem suggestion (hkey : key ∈ r.concerns) (value : Computed) :
    (f l).suggest key value = l.suggest key value := by
  rw [Ledger.suggest, h.carried.isComputable, h.suggestDefault hkey, Ledger.suggest]

end Reading

/-! ## What a rule writes -/

section Writing

variable (h : Unseen ctx r f) (s : State)

include h

theorem write {ops : List Op} (hops : ∀ op ∈ ops, Writes ctx r op) :
    (s.changed f).write ops = (s.write ops).changed f :=
  s.write_changed fun op hop l => h.carried.apply l (h.written op (hops op hop))
    fun c hc => h.said c (hc ▸ hops op hop) l

theorem write_one {op : Op} (hop : Writes ctx r op) :
    (s.changed f).write [op] = (s.write [op]).changed f :=
  h.write s fun op' hop' => by rw [List.mem_singleton.1 hop']; exact hop

theorem recommend (hkey : key ∈ r.recommends) (value : String) :
    (s.changed f).write [.recommend key value] = (s.write [.recommend key value]).changed f :=
  h.write_one s (.recommend hkey)

theorem suggest (hkey : key ∈ r.recommends) (value : Computed) :
    (s.changed f).suggest key value = (s.suggest key value).changed f := by
  rw [State.suggest, State.ledger_changed, h.suggestion (mem_concerns_of_mem_recommends hkey),
    h.write s fun _ => writes_of_mem_suggest hkey, State.suggest]

theorem suggestAll {values : List (String × Computed)}
    (hkeys : values.map Prod.fst ⊆ r.recommends) :
    (s.changed f).suggestAll values = (s.suggestAll values).changed f := by
  induction values generalizing s with
  | nil => rfl
  | cons q values ih =>
    have hfirst := h.suggest s (hkeys List.mem_cons_self) q.2
    have hrest := ih (s.suggest q.1 q.2) fun key hkey => hkeys (List.mem_cons_of_mem _ hkey)
    rw [← hfirst] at hrest
    exact hrest

end Writing

/-! ## Each rule -/

variable (s : State)

/-! ### The application -/

theorem fileCache (h : Unseen ctx .fileCache f) :
    Rules.fileCache ctx (s.changed f) = (Rules.fileCache ctx s).changed f := by
  rw [Rules.fileCache, Rules.fileCache, State.changed_ite,
    h.write s fun _ => writes_of_mem_cacheOps]

theorem kryo (h : Unseen ctx .kryo f) :
    Rules.kryo K (s.changed f) = (Rules.kryo K s).changed f := by
  have hserializer : Key.serializer ∈ concerns .kryo := List.mem_cons_self
  have hregistrator : Key.kryoRegistrator ∈ recommends .kryo := by simp [recommends]
  have hbuffer : Key.kryoBufferMax ∈ recommends .kryo := by simp [recommends]
  have heffect : ∀ l, Rules.kryoBufferInEffect K (f l) = Rules.kryoBufferInEffect K l := by
    intro l
    rw [Rules.kryoBufferInEffect, h.getOrDefault? (mem_concerns_of_mem_recommends hbuffer),
      Rules.kryoBufferInEffect]
  simp only [Rules.kryo, State.ledger_changed, h.get? hserializer,
    h.get? (mem_concerns_of_mem_recommends hregistrator), h.recommend _ hregistrator,
    h.recommend _ hbuffer, heffect, State.changed_ite]

theorem gc (h : Unseen ctx .gc f) : Rules.gc ctx (s.changed f) = (Rules.gc ctx s).changed f := by
  rw [Rules.gc, Rules.gc, State.changed_ite, h.write_one s .garbage]

theorem systemProperties (h : Unseen ctx .systemProperties f) :
    Rules.systemProperties ctx (s.changed f) = (Rules.systemProperties ctx s).changed f := by
  rw [Rules.systemProperties, Rules.systemProperties, State.changed_ite, h.write_one s .encoding]

theorem platform (h : Unseen ctx .platform f) :
    Rules.platform ctx (s.changed f) = (Rules.platform ctx s).changed f := by
  have hfilter : (ctx.platform.wantedProperties.filter fun q =>
        !(f s.ledger).source.contains q.1) =
      ctx.platform.wantedProperties.filter fun q => !s.ledger.source.contains q.1 := by
    refine List.filter_congr fun q hq => ?_
    have hkey := mem_concerns_of_mem_recommends (mem_recommends_of_wanted hq)
    exact congrArg (fun value : Option String => !value.isSome) (h.source q.1 hkey s.ledger)
  show (s.changed f).write ((ctx.platform.wantedProperties.filter fun q =>
    !(f s.ledger).source.contains q.1).map fun q => Op.recommend q.1 q.2) = _
  rw [hfilter, h.write s fun _ => writes_of_mem_wanted]
  rfl

/-! ### The accelerator -/

theorem plugin (h : Unseen ctx .plugin f) :
    Rules.plugin (s.changed f) = (Rules.plugin s).changed f := by
  have hswitch : Key.sqlEnabled ∈ recommends .plugin := List.mem_singleton_self _
  have hplugins : Key.plugins ∈ concerns .plugin := List.mem_cons_self
  simp only [Rules.plugin, h.recommend _ hswitch, State.ledger_changed, h.get? hplugins,
    h.write_one _ .missingPlugin, State.changed_ite]

theorem shuffleManager (h : Unseen ctx .shuffleManager f) :
    Rules.shuffleManager ctx (s.changed f) = (Rules.shuffleManager ctx s).changed f := by
  rw [Rules.shuffleManager, State.ledger_changed, h.carried.isComputable,
    h.source _ List.mem_cons_self, h.write_one s (writes_shuffleManagerOp _),
    ← State.changed_ite, Rules.shuffleManager]

/-! ### Partitions -/

theorem maxPartitionBytes (h : Unseen ctx .maxPartitionBytes f) :
    Rules.maxPartitionBytes ctx (s.changed f) = (Rules.maxPartitionBytes ctx s).changed f := by
  have hkey : Key.maxPartitionBytes ∈ recommends .maxPartitionBytes := List.mem_singleton_self _
  have hconcerns := mem_concerns_of_mem_recommends hkey
  have heffect : Rules.partitionInEffect K (f s.ledger) = Rules.partitionInEffect K s.ledger := by
    rw [Rules.partitionInEffect, h.getOrDefault? hconcerns, Rules.partitionInEffect]
  unfold Rules.maxPartitionBytes
  dsimp only
  rw [State.ledger_changed, heffect, h.suggestion hconcerns, h.carried.accepts,
    h.write s fun _ => writes_of_mem_partitionOps, h.write s fun _ => writes_of_mem_suggest hkey,
    ← State.changed_ite, ← State.changed_ite]

theorem shufflePartitions (h : Unseen ctx .shufflePartitions f) :
    Rules.shufflePartitions ctx (s.changed f) = (Rules.shufflePartitions ctx s).changed f := by
  have hkey : Key.shufflePartitions ∈ recommends .shufflePartitions := List.mem_singleton_self _
  have hconcerns := mem_concerns_of_mem_recommends hkey
  have heffect : Rules.shufflePartitionsInEffect (f s.ledger) =
      Rules.shufflePartitionsInEffect s.ledger := by
    rw [Rules.shufflePartitionsInEffect, h.getOrDefault? hconcerns,
      Rules.shufflePartitionsInEffect]
  unfold Rules.shufflePartitions
  dsimp only
  rw [State.ledger_changed, h.carried.isComputable, heffect, h.suggestDefault hconcerns,
    h.write s fun _ => writes_of_mem_shufflePartitionOps,
    h.write s fun _ => writes_of_mem_suggestDefault hkey, ← State.changed_ite]

/-! ### Threads -/

theorem threads (h : Unseen ctx .threads f) :
    Rules.threads ctx (s.changed f) = (Rules.threads ctx s).changed f := by
  rw [Rules.threads_eq, Rules.threads_eq, State.ledger_changed, State.memory_changed,
    h.executorCores List.mem_cons_self]
  exact h.suggestAll s (Rules.threadSettings_sublist _ _ _).subset

/-! ### Adaptive execution -/

section Adaptive

variable (h : Unseen ctx .adaptive f)

include h

theorem switchOnAdaptive :
    Rules.switchOnAdaptive (s.changed f) = (Rules.switchOnAdaptive s).changed f := by
  have hkey : Key.aqeEnabled ∈ recommends .adaptive := by simp [recommends]
  simp only [Rules.switchOnAdaptive, State.ledger_changed,
    h.get? (mem_concerns_of_mem_recommends hkey), h.recommend _ hkey, State.changed_ite]

theorem switchOffAutoShuffle :
    Rules.switchOffAutoShuffle ctx (s.changed f) =
      (Rules.switchOffAutoShuffle ctx s).changed f := by
  have hkey : Key.databricksAutoOptimizeShuffle ∈ recommends .adaptive := by simp [recommends]
  simp only [Rules.switchOffAutoShuffle, State.ledger_changed,
    h.get? (mem_concerns_of_mem_recommends hkey), h.recommend _ hkey, State.changed_ite]

theorem coalescing :
    Rules.coalescing ctx (s.changed f) = (Rules.coalescing ctx s).changed f := by
  have hsize : Key.aqeMinPartitionSize ∈ recommends .adaptive := by simp [recommends]
  have hnum : Key.aqeMinPartitionNum ∈ recommends .adaptive := by simp [recommends]
  have hbusy : ∀ shape, Rules.busyPartitions ctx shape (f s.ledger) =
      Rules.busyPartitions ctx shape s.ledger := by
    intro shape
    rw [Rules.busyPartitions, h.executorCores List.mem_cons_self, Rules.busyPartitions]
  unfold Rules.coalescing
  split
  · simp only [State.ledger_changed, h.get? (mem_concerns_of_mem_recommends hsize),
      h.suggest _ hsize, State.changed_ite]
  · rw [State.ledger_changed, hbusy, h.suggest s hnum]
  · rfl

theorem initialPartitions :
    Rules.initialPartitions (s.changed f) = (Rules.initialPartitions s).changed f := by
  have hfirst : Key.aqeParallelismFirst ∈ recommends .adaptive := by simp [recommends]
  have hinitial : Key.aqeInitialPartitionNum ∈ recommends .adaptive := by simp [recommends]
  have heffect : ∀ l, Rules.initialPartitionsInEffect (f l) =
      Rules.initialPartitionsInEffect l := by
    intro l
    rw [Rules.initialPartitionsInEffect,
      h.getOrDefault? (mem_concerns_of_mem_recommends hinitial), Rules.initialPartitionsInEffect]
  have hrecommended : ∀ l, Rules.recommendedShufflePartitions (f l) =
      Rules.recommendedShufflePartitions l := by
    intro l
    rw [Rules.recommendedShufflePartitions, h.carried.recommended?,
      Rules.recommendedShufflePartitions]
  simp only [Rules.initialPartitions, h.recommend _ hfirst, State.ledger_changed, heffect,
    hrecommended, h.suggest _ hinitial, State.changed_ite]

theorem advisorySize :
    Rules.advisorySize ctx (s.changed f) = (Rules.advisorySize ctx s).changed f := by
  have hkey : Key.aqeAdvisoryPartitionSize ∈ recommends .adaptive := by simp [recommends]
  simp only [Rules.advisorySize, State.ledger_changed,
    h.get? (mem_concerns_of_mem_recommends hkey), h.suggest _ hkey, State.changed_ite]

theorem partitionsForMuch :
    Rules.partitionsForMuch ctx (s.changed f) = (Rules.partitionsForMuch ctx s).changed f := by
  rw [Rules.partitionsForMuch, h.initialPartitions s, ← State.changed_ite,
    Rules.partitionsForMuch]

theorem broadcastThreshold :
    Rules.broadcastThreshold K (s.changed f) = (Rules.broadcastThreshold K s).changed f := by
  have hkey : Key.aqeBroadcastThreshold ∈ concerns .adaptive := by simp [concerns, keys]
  rw [Rules.broadcastThreshold, State.ledger_changed, h.get? hkey,
    h.write s fun _ => writes_of_mem_broadcast, Rules.broadcastThreshold]

theorem adaptive : Rules.adaptive ctx (s.changed f) = (Rules.adaptive ctx s).changed f := by
  unfold Rules.adaptive
  rw [h.switchOnAdaptive s, h.switchOffAutoShuffle, h.coalescing]
  dsimp only
  rw [h.advisorySize, h.partitionsForMuch, ← State.changed_ite, h.broadcastThreshold]

end Adaptive

/-! ### Executors -/

section Executors

variable (h : Unseen ctx .executor f)

include h

theorem recommendPlan (plan : Memory.Plan) :
    Rules.recommendPlan (s.changed f) plan = (Rules.recommendPlan s plan).changed f := by
  have hkeys : ((Rules.sizes plan).map fun q => (q.1, Computed.mib (signed64 q.2))).map Prod.fst ⊆
      recommends .executor := List.subset_append_right _ _
  rw [Rules.recommendPlan_eq, Rules.recommendPlan_eq, State.foldl_suggestMib,
    State.foldl_suggestMib, h.suggestAll s hkeys]

theorem executorLayout (shape : Shape) :
    Rules.executorLayout ctx shape (s.changed f) =
      (Rules.executorLayout ctx shape s).changed f := by
  have hcounts : (Rules.layoutCounts shape).map Prod.fst ⊆ recommends .executor := by
    simp [Rules.layoutCounts, recommends]
  have hshares : ∀ cores, (Rules.layoutShares K shape cores).map Prod.fst ⊆
      recommends .executor := by
    simp [Rules.layoutShares, recommends]
  have hcores : Key.executorCores ∈ recommends .executor := List.mem_cons_self
  rw [Rules.executorLayout_eq, h.suggestAll s hcounts, State.ledger_changed,
    h.executorCores (mem_concerns_of_mem_recommends hcores), h.suggestAll _ (hshares _),
    Rules.executorLayout_eq]

theorem memoryRequest (shape : Shape) (container : K) (l : Ledger) :
    Rules.memoryRequest ctx shape container (f l) = Rules.memoryRequest ctx shape container l := by
  have hsetting : ∀ key ∈ concerns .executor,
      Rules.settingMib K (f l) key = Rules.settingMib K l key := by
    intro key hkey
    rw [Rules.settingMib, h.get? hkey, Rules.settingMib]
  have henforced : ∀ key ∈ planKeys,
      Rules.enforcedMib K (f l) key = Rules.enforcedMib K l key := by
    intro key hkey
    have hrecommends : key ∈ recommends .executor := List.mem_append_right _ hkey
    rw [Rules.enforcedMib, h.get? (mem_concerns_of_mem_recommends hrecommends),
      h.carried.isEnforced, Rules.enforcedMib]
  have hoffHeap : Rules.offHeapMib K (f l) = Rules.offHeapMib K l := by
    rw [Rules.offHeapMib, h.get? (by simp [concerns]), hsetting _ (by simp [concerns]),
      Rules.offHeapMib]
  have hcores : Key.executorCores ∈ recommends .executor := List.mem_cons_self
  rw [Rules.memoryRequest, h.executorCores (mem_concerns_of_mem_recommends hcores), hoffHeap,
    hsetting Key.pysparkMemory (by simp [concerns]),
    henforced Key.executorMemory (by simp [planKeys]),
    henforced Key.executorMemoryOverhead (by simp [planKeys]),
    henforced Key.pinnedPool (by simp [planKeys]), henforced Key.spillStorage (by simp [planKeys]),
    Rules.memoryRequest]

theorem executorMemory (shape : Shape) :
    Rules.executorMemory ctx shape (s.changed f) =
      (Rules.executorMemory ctx shape s).changed f := by
  unfold Rules.executorMemory
  split
  · rfl
  next container _ =>
    have hshortfall : ∀ required, Rules.reportShortfall (s.changed f) shape required =
        (Rules.reportShortfall s shape required).changed f :=
      fun _ => h.write s fun _ => writes_of_mem_shortfall
    rw [State.ledger_changed, h.memoryRequest]
    dsimp only
    cases (Rules.memoryRequest ctx shape container s.ledger).budget with
    | planned plan =>
      simp only [h.recommendPlan s]
      rfl
    | short required =>
      simp only [hshortfall]
      rfl

theorem executor : Rules.executor ctx (s.changed f) = (Rules.executor ctx s).changed f := by
  unfold Rules.executor
  split
  · exact h.write_one s .noShape
  next shape _ => rw [h.executorLayout s, h.executorMemory]

end Executors

/-! ## Every rule -/

/-- A change that a rule does not see can be made before it as well as after it. -/
theorem apply (h : Unseen ctx r f) : r.apply ctx (s.changed f) = (r.apply ctx s).changed f := by
  cases r with
  | seed => exact h.write s fun _ => writes_of_mem_seeds
  | enforce => exact h.write s fun _ => writes_of_mem_enforced
  | executor => exact h.executor s
  | clusterDefaults => exact h.write s fun _ => writes_of_mem_gaps
  | plugin => exact h.plugin s
  | shuffleManager => exact h.shuffleManager s
  | fileCache => exact h.fileCache s
  | maxPartitionBytes => exact h.maxPartitionBytes s
  | shufflePartitions => exact h.shufflePartitions s
  | kryo => exact h.kryo s
  | gc => exact h.gc s
  | adaptive => exact h.adaptive s
  | threads => exact h.threads s
  | classpath => exact h.write s fun _ => writes_of_mem_jars
  | systemProperties => exact h.systemProperties s
  | driverLogs => exact h.write s fun _ => writes_of_mem_remedies
  | platform => exact h.platform s

end Unseen

theorem applyAll_of_unseen {rules : List Rule} (h : ∀ r ∈ rules, Unseen ctx r f) (s : State) :
    applyAll ctx rules (s.changed f) = (applyAll ctx rules s).changed f := by
  induction rules generalizing s with
  | nil => rfl
  | cons r rules ih =>
    have hrest := ih (fun r' hr' => h r' (List.mem_cons_of_mem _ hr')) (r.apply ctx s)
    rw [← (h r List.mem_cons_self).apply s] at hrest
    exact hrest

end Rule

end SparkTuner
