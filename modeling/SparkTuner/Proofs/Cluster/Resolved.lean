import SparkTuner.Cluster.Resolved
import SparkTuner.Proofs.Size

/-!
# Filling the gaps of a description

A description leaves open what it does not tell or tells in a way that cannot be used
(`Gap.IsOpen`). Resolving it keeps all that can be used (`ClusterDescription.Keeps`), fills the gaps
(`ClusterDescription.Fills`) and explains each of them in one line (`exists_gaps`). What is resolved
is a description without gaps but for the cores and the memory of a worker, so that resolving it
again changes nothing (`resolve_describe`).
-/

namespace SparkTuner

open Number Text

/-! ## Names of GPUs -/

namespace Gpu

variable {gpu : Gpu} {text : String}

/-- The last word of the text is the name of the model, in letters of either case. -/
def IsNamedBy (gpu : Gpu) (text : String) : Prop :=
  ∃ before, (trim text.toList).map Char.toUpper = before ++ gpu.name.toList ∧
    ∀ c, before.getLast? = some c → isSeparator c = true

theorem find?_name_eq_some_iff {word : String} :
    (all.find? fun gpu => gpu.name == word) = some gpu ↔ gpu.name = word := by
  constructor
  · intro h
    exact eq_of_beq (List.find?_some (p := fun gpu : Gpu => gpu.name == word) h)
  · rintro rfl
    cases gpu <;> decide

theorem lastWord_append {before word : List Char} (hword : ∀ c ∈ word, isSeparator c = false)
    (hbefore : ∀ c, before.getLast? = some c → isSeparator c = true) :
    lastWord (before ++ word) = word := by
  have hrun : IsRun (!isSeparator ·) word.reverse before.reverse := by
    constructor
    · intro c hc
      rw [hword c (List.mem_reverse.1 hc)]
      rfl
    · intro c hc
      rw [List.head?_reverse] at hc
      rw [hbefore c hc]
      rfl
  rw [lastWord, List.reverse_append, hrun.takeWhile_eq, List.reverse_reverse]

theorem exists_lastWord (cs : List Char) :
    ∃ before, cs = before ++ lastWord cs ∧
      ∀ c, before.getLast? = some c → isSeparator c = true := by
  obtain ⟨run, rest, hcs, hrun⟩ := exists_run (!isSeparator ·) cs.reverse
  refine ⟨rest.reverse, ?_, fun c hc => ?_⟩
  · rw [lastWord, hcs, hrun.takeWhile_eq, ← List.reverse_append, ← hcs, List.reverse_reverse]
  · rw [List.getLast?_reverse] at hc
    simpa using hrun.stops c hc

theorem parse?_eq_some_iff : parse? text = some gpu ↔ gpu.IsNamedBy text := by
  have hplain : ∀ c ∈ gpu.name.toList, isSeparator c = false := by
    have hall : gpu.name.toList.all (!isSeparator ·) = true := by
      cases gpu <;> decide
    intro c hc
    simpa using List.all_eq_true.1 hall c hc
  rw [parse?, find?_name_eq_some_iff]
  constructor
  · intro hword
    obtain ⟨before, hsplit, hbefore⟩ := exists_lastWord ((trim text.toList).map Char.toUpper)
    refine ⟨before, ?_, hbefore⟩
    rw [hword, String.toList_ofList]
    exact hsplit
  · rintro ⟨before, hsplit, hbefore⟩
    rw [hsplit, lastWord_append hplain hbefore, String.ofList_toList]

end Gpu

/-! ## Counts and sizes that can be used -/

/-- No count is given, or a count of zero. -/
def NoCount (given : Option ℕ) : Prop := ∀ n, given = some n → n = 0

/-- No text is given, or one that is no size. -/
def NoSize (given : Option String) : Prop :=
  ∀ text, given = some text →
    ∀ digits places u, ¬Size.Spells .mib (trim text.toList) digits places u

theorem pos_of_usableCount? {n : Option ℕ} {k : ℕ} (h : usableCount? n = some k) : 0 < k := by
  obtain ⟨-, hk⟩ := Option.filter_eq_some_iff.1 h
  exact of_decide_eq_true hk

theorem usableCount?_of_pos {k : ℕ} (h : 0 < k) : usableCount? (some k) = some k :=
  Option.filter_eq_some_iff.2 ⟨rfl, decide_eq_true h⟩

theorem usableCount?_eq_none_iff {n : Option ℕ} : usableCount? n = none ↔ NoCount n := by
  cases n with
  | none => simp [usableCount?, NoCount]
  | some k =>
    have hpos : ¬0 < k ↔ k = 0 := by omega
    simp [usableCount?, NoCount, Option.filter, hpos]

theorem pos_value_orDefault {given : Option ℕ} {default : ℕ} (h : 0 < default) (c : String) :
    0 < (Filled.orDefault (usableCount? given) default c).value := by
  unfold Filled.orDefault
  split
  next k hk => exact pos_of_usableCount? hk
  next => exact h

theorem memory?_eq_none_iff {K : Type} [Quantity K] {given : Option String} :
    given.bind (Size.memory? K) = none ↔ NoSize given := by
  rw [Option.bind_eq_none_iff]
  exact forall_congr' fun text => imp_congr_right fun _ => Size.mib?_eq_none_iff K

/-! ## Gaps -/

/-- What a description can leave open. -/
inductive Gap where
  | workers
  | cores
  | workerMemory
  | gpuName
  | gpuCount
  | gpuMemory
  deriving DecidableEq

namespace Gap

/-- Every gap, in the order in which they are explained. -/
def all : List Gap := [workers, cores, workerMemory, gpuName, gpuCount, gpuMemory]

theorem mem_all (g : Gap) : g ∈ all := by
  cases g <;> decide

/-- The description does not tell it, or not so that it can be used. -/
def IsOpen (c : ClusterDescription) : Gap → Prop
  | workers => NoCount c.systemInfo.numWorkers
  | cores => NoCount c.systemInfo.numCores
  | workerMemory => NoSize c.systemInfo.memory
  | gpuName => c.gpuInfo.name = none
  | gpuCount => NoCount c.gpuInfo.count
  | gpuMemory => NoSize c.gpuInfo.memory

/-- The line that explains a gap with what stands for it in the record. -/
def explanation (r : ResolvedCluster) : Gap → String
  | workers => "Number of workers is missing. Setting default to " ++ Nat.repr r.numWorkers ++ "."
  | cores => "Number of cores per worker is missing. Executor sizing cannot be computed."
  | workerMemory => "Worker memory is missing. Executor memory cannot be computed."
  | gpuName => "GPU device is missing. Setting default to " ++ r.gpuName ++ "."
  | gpuCount => "GPU count is missing. Setting default to " ++ Nat.repr r.gpusPerWorker ++ "."
  | gpuMemory => "GPU memory is missing. Setting default to " ++ Nat.repr r.gpuMemoryMib ++ "m."

/-- The characters of an explanation by which its gap is known. -/
def mark : Gap → Char × Char
  | workers => ('e', 'w')
  | cores => ('e', 'c')
  | workerMemory => ('e', 'o')
  | gpuName => ('d', ' ')
  | gpuCount => ('c', 'i')
  | gpuMemory => ('m', ' ')

/-- Whether a text has these as its fifth and its eleventh character. -/
def HasMark (text : String) (mark : Char × Char) : Prop :=
  text.toList[4]? = some mark.1 ∧ text.toList[10]? = some mark.2

theorem HasMark.append {text : String} {mark : Char × Char} (h : HasMark text mark) (b : String) :
    HasMark (text ++ b) mark := by
  have hkeep : ∀ {i : ℕ} {c : Char}, text.toList[i]? = some c →
      (text ++ b).toList[i]? = some c := by
    intro i c hc
    obtain ⟨hlength, -⟩ := List.getElem?_eq_some_iff.1 hc
    rw [String.toList_append, List.getElem?_append_left hlength, hc]
  exact ⟨hkeep h.1, hkeep h.2⟩

theorem hasMark_ofList {cs : List Char} {mark : Char × Char} (h : cs[4]? = some mark.1)
    (h' : cs[10]? = some mark.2) : HasMark (String.ofList cs) mark := by
  unfold HasMark
  rw [String.toList_ofList]
  exact ⟨h, h'⟩

theorem hasMark_explanation (r : ResolvedCluster) (g : Gap) :
    HasMark (g.explanation r) g.mark := by
  cases g with
  | cores | workerMemory => exact hasMark_ofList rfl rfl
  | workers | gpuName | gpuCount | gpuMemory => exact ((hasMark_ofList rfl rfl).append _).append _

theorem explanation_injective {r : ResolvedCluster} {g g' : Gap}
    (h : g.explanation r = g'.explanation r) : g = g' := by
  have hmark : ∀ g g' : Gap, g.mark = g'.mark → g = g' := by
    intro g g'
    cases g <;> cases g' <;> decide
  obtain ⟨hfirst, hsecond⟩ := hasMark_explanation r g
  obtain ⟨hfirst', hsecond'⟩ := hasMark_explanation r g'
  rw [h] at hfirst hsecond
  refine hmark g g' (Prod.ext ?_ ?_)
  · exact Option.some.inj (hfirst.symm.trans hfirst')
  · exact Option.some.inj (hsecond.symm.trans hsecond')

end Gap

/-! ## Explanations -/

theorem Filled.value_of_some {α : Type} {given : Option α} {default a : α} {comment : String}
    (h : given = some a) : (Filled.orDefault given default comment).value = a := by
  rw [h]
  rfl

theorem Filled.value_of_none {α : Type} {given : Option α} {default : α} {comment : String}
    (h : given = none) : (Filled.orDefault given default comment).value = default := by
  rw [h]
  rfl

theorem Filled.comment_orDefault_iff {α : Type} {given : Option α} {default : α} {line : String}
    (say : α → String) : (Filled.orDefault given default (say default)).comment = some line ↔
      given = none ∧ line = say (Filled.orDefault given default (say default)).value := by
  cases given with
  | none => simp [orDefault, eq_comm]
  | some a => simp [orDefault]

theorem Filled.comment_orMissing_iff {α : Type} {given : Option α} {comment line : String} :
    (Filled.orMissing given comment).comment = some line ↔ given = none ∧ line = comment := by
  cases given with
  | none => simp [orMissing, eq_comm]
  | some a => simp [orMissing]

namespace ClusterDescription

variable (K : Type) [Quantity K] (c : ClusterDescription) (p : Platform)

/-- What is told of a gap. -/
def told : Gap → Option String
  | .workers => c.workers.comment
  | .cores => c.cores.comment
  | .workerMemory => (c.workerMemory K).comment
  | .gpuName => (c.gpuLabel p).comment
  | .gpuCount => c.gpus.comment
  | .gpuMemory => (c.gpuMemory K p).comment

theorem gapComments_eq : c.gapComments K p = Gap.all.filterMap (c.told K p) := rfl

theorem told_eq_some_iff {g : Gap} {line : String} :
    c.told K p g = some line ↔ g.IsOpen c ∧ line = g.explanation (c.resolve K p) := by
  cases g with
  | workers =>
    refine (Filled.comment_orDefault_iff fun n =>
      "Number of workers is missing. Setting default to " ++ Nat.repr n ++ ".").trans ?_
    exact and_congr_left' usableCount?_eq_none_iff
  | cores => exact Filled.comment_orMissing_iff.trans (and_congr_left' usableCount?_eq_none_iff)
  | workerMemory => exact Filled.comment_orMissing_iff.trans (and_congr_left' memory?_eq_none_iff)
  | gpuName =>
    exact Filled.comment_orDefault_iff fun name =>
      "GPU device is missing. Setting default to " ++ name ++ "."
  | gpuCount =>
    refine (Filled.comment_orDefault_iff fun n =>
      "GPU count is missing. Setting default to " ++ Nat.repr n ++ ".").trans ?_
    exact and_congr_left' usableCount?_eq_none_iff
  | gpuMemory =>
    refine (Filled.comment_orDefault_iff fun n =>
      "GPU memory is missing. Setting default to " ++ Nat.repr n ++ "m.").trans ?_
    exact and_congr_left' memory?_eq_none_iff

theorem told_of_isOpen {g : Gap} (h : g.IsOpen c) :
    c.told K p g = some (g.explanation (c.resolve K p)) :=
  (c.told_eq_some_iff K p).2 ⟨h, rfl⟩

theorem told_of_not_isOpen {g : Gap} (h : ¬g.IsOpen c) : c.told K p g = none := by
  refine Option.eq_none_iff_forall_ne_some.2 fun line hline => h ?_
  exact ((c.told_eq_some_iff K p).1 hline).1

theorem told_eq_ite {g : Gap} {q : Prop} [Decidable q] (h : g.IsOpen c ↔ q) :
    c.told K p g = if q then some (g.explanation (c.resolve K p)) else none := by
  split
  next hq => exact c.told_of_isOpen K p (h.2 hq)
  next hq => exact c.told_of_not_isOpen K p (mt h.1 hq)

theorem exists_gaps : ∃ gaps : List Gap, gaps.Sublist Gap.all ∧ (∀ g, g ∈ gaps ↔ g.IsOpen c) ∧
    c.gapComments K p = gaps.map (Gap.explanation (c.resolve K p)) := by
  refine ⟨Gap.all.filter fun g => (c.told K p g).isSome, List.filter_sublist, fun g => ?_, ?_⟩
  · rw [List.mem_filter, Option.isSome_iff_exists]
    constructor
    · rintro ⟨-, line, hline⟩
      exact ((c.told_eq_some_iff K p).1 hline).1
    · intro hopen
      exact ⟨g.mem_all, _, c.told_of_isOpen K p hopen⟩
  · rw [gapComments_eq, ← List.filterMap_eq_map, List.filterMap_filter]
    refine List.filterMap_congr fun g _ => ?_
    cases htold : c.told K p g with
    | none => rfl
    | some line =>
      obtain ⟨-, rfl⟩ := (c.told_eq_some_iff K p).1 htold
      rfl

/-! ## What stands in the record -/

/-- The record has what the description tells, memories in whole MiB. -/
structure Keeps (r : ResolvedCluster) : Prop where
  workers : ∀ n, c.systemInfo.numWorkers = some n → 0 < n → r.numWorkers = n
  cores : ∀ n, c.systemInfo.numCores = some n → 0 < n → r.coresPerWorker = some n
  workerMemory : ∀ text digits places u, c.systemInfo.memory = some text →
    Size.Spells .mib (trim text.toList) digits places u →
    r.memoryPerWorkerMib = some (Size.wholeMib K digits places u)
  gpuName : ∀ name, c.gpuInfo.name = some name → r.gpuName = name
  gpuCount : ∀ n, c.gpuInfo.count = some n → 0 < n → r.gpusPerWorker = n
  gpuMemory : ∀ text digits places u, c.gpuInfo.memory = some text →
    Size.Spells .mib (trim text.toList) digits places u →
    r.gpuMemoryMib = Size.wholeMib K digits places u

/-- The record has defaults for what the description leaves open. The cores and the memory of a
worker have none. The memory of a GPU is that of the model that is named, or of the platform's own
if there is no such model. -/
structure Fills (r : ResolvedCluster) : Prop where
  workers : Gap.workers.IsOpen c → r.numWorkers = 1
  cores : Gap.cores.IsOpen c → r.coresPerWorker = none
  workerMemory : Gap.workerMemory.IsOpen c → r.memoryPerWorkerMib = none
  gpuName : Gap.gpuName.IsOpen c → r.gpuName = p.defaultGpu.name
  gpuCount : Gap.gpuCount.IsOpen c → r.gpusPerWorker = 1
  gpuMemory_of_named : Gap.gpuMemory.IsOpen c → ∀ name gpu, c.gpuInfo.name = some name →
    Gpu.IsNamedBy gpu name → r.gpuMemoryMib = gpu.memoryMib
  gpuMemory_of_not_named : Gap.gpuMemory.IsOpen c →
    (∀ name gpu, c.gpuInfo.name = some name → ¬Gpu.IsNamedBy gpu name) →
    r.gpuMemoryMib = p.defaultGpu.memoryMib

variable {c p}

theorem gpuCapacity_of_named {name : String} {gpu : Gpu} (hname : c.gpuInfo.name = some name)
    (h : gpu.IsNamedBy name) : c.gpuCapacity p = gpu.memoryMib := by
  rw [gpuCapacity, gpuModel?, hname]
  dsimp only
  rw [Gpu.parse?_eq_some_iff.2 h, Option.getD_some]

theorem gpuCapacity_of_not_named
    (h : ∀ name gpu, c.gpuInfo.name = some name → ¬Gpu.IsNamedBy gpu name) :
    c.gpuCapacity p = p.defaultGpu.memoryMib := by
  rw [gpuCapacity, gpuModel?]
  cases hname : c.gpuInfo.name with
  | none => rfl
  | some name =>
    have hunknown : Gpu.parse? name = none := by
      refine Option.eq_none_iff_forall_ne_some.2 fun gpu hgpu => ?_
      exact h name gpu hname (Gpu.parse?_eq_some_iff.1 hgpu)
    dsimp only
    rw [hunknown, Option.getD_none]

variable (c p)

theorem keeps_resolve : c.Keeps K (c.resolve K p) := by
  have hcount : ∀ {given : Option ℕ} {n : ℕ}, given = some n → 0 < n →
      usableCount? given = some n := by
    rintro _ n rfl hn
    exact usableCount?_of_pos hn
  have hsize : ∀ {given : Option String} {text : String} {digits places : ℕ} {u : SizeUnit},
      given = some text → Size.Spells .mib (trim text.toList) digits places u →
      given.bind (Size.memory? K) = some (Size.wholeMib K digits places u) := by
    rintro _ text digits places u rfl hspells
    exact Size.mib?_of_spells K hspells
  constructor
  case workers => exact fun n hgiven hn => Filled.value_of_some (hcount hgiven hn)
  case cores => exact fun n hgiven hn => hcount hgiven hn
  case workerMemory => exact fun text digits places u hgiven hspells => hsize hgiven hspells
  case gpuName => exact fun name hgiven => Filled.value_of_some hgiven
  case gpuCount => exact fun n hgiven hn => Filled.value_of_some (hcount hgiven hn)
  case gpuMemory =>
    exact fun text digits places u hgiven hspells => Filled.value_of_some (hsize hgiven hspells)

theorem fills_resolve : c.Fills p (c.resolve K p) := by
  have hmemory : Gap.gpuMemory.IsOpen c → (c.resolve K p).gpuMemoryMib = c.gpuCapacity p :=
    fun hopen => Filled.value_of_none (memory?_eq_none_iff.2 hopen)
  constructor
  case workers => exact fun hopen => Filled.value_of_none (usableCount?_eq_none_iff.2 hopen)
  case cores => exact usableCount?_eq_none_iff.2
  case workerMemory => exact memory?_eq_none_iff.2
  case gpuName => exact Filled.value_of_none
  case gpuCount => exact fun hopen => Filled.value_of_none (usableCount?_eq_none_iff.2 hopen)
  case gpuMemory_of_named =>
    intro hopen name gpu hname hgpu
    exact (hmemory hopen).trans (gpuCapacity_of_named hname hgpu)
  case gpuMemory_of_not_named =>
    intro hopen hnone
    exact (hmemory hopen).trans (gpuCapacity_of_not_named hnone)

end ClusterDescription

section Resolve

variable (K : Type) [Quantity K] (c : ClusterDescription) (p : Platform)

theorem numWorkers_resolve_pos : 0 < (c.resolve K p).numWorkers :=
  pos_value_orDefault Nat.one_pos _

theorem gpusPerWorker_resolve_pos : 0 < (c.resolve K p).gpusPerWorker :=
  pos_value_orDefault Nat.one_pos _

end Resolve

/-! ## Describing what was resolved -/

attribute [ext] ResolvedCluster

/-- The description that tells a record. -/
def ResolvedCluster.describe (r : ResolvedCluster) : ClusterDescription where
  system := some
    { numCores := r.coresPerWorker
      memory := r.memoryPerWorkerMib.map Size.ofMib
      numWorkers := some r.numWorkers }
  gpu := some
    { count := some r.gpusPerWorker
      memory := some (Size.ofMib r.gpuMemoryMib)
      name := some r.gpuName }

section Describe

variable {r : ResolvedCluster} (hworkers : 0 < r.numWorkers) (hgpus : 0 < r.gpusPerWorker)
  (hcores : ∀ n, r.coresPerWorker = some n → 0 < n)
include hworkers hgpus hcores

theorem isOpen_describe_iff (g : Gap) : g.IsOpen r.describe ↔
    g = .cores ∧ r.coresPerWorker = none ∨ g = .workerMemory ∧ r.memoryPerWorkerMib = none := by
  have hcount : ∀ {n : ℕ}, 0 < n → ¬NoCount (some n) := by
    intro n hn hnone
    exact absurd (hnone n rfl) (Nat.pos_iff_ne_zero.1 hn)
  have hsize : ∀ n : ℕ, ¬NoSize (some (Size.ofMib n)) := by
    intro n hnone
    exact hnone _ rfl n 0 .mib (Size.spells_ofMib .mib n)
  cases g with
  | workers => exact iff_of_false (hcount hworkers) (by simp)
  | gpuCount => exact iff_of_false (hcount hgpus) (by simp)
  | gpuMemory => exact iff_of_false (hsize r.gpuMemoryMib) (by simp)
  | gpuName => exact iff_of_false (Option.some_ne_none r.gpuName) (by simp)
  | cores =>
    show NoCount r.coresPerWorker ↔ _
    cases hgiven : r.coresPerWorker with
    | none => simp [NoCount]
    | some n => simpa using hcount (hcores n hgiven)
  | workerMemory =>
    show NoSize (r.memoryPerWorkerMib.map Size.ofMib) ↔ _
    cases r.memoryPerWorkerMib with
    | none => simp [NoSize]
    | some n => simpa using hsize n

theorem gapComments_describe (K : Type) [Quantity K] (p : Platform) :
    r.describe.gapComments K p =
      (if r.coresPerWorker = none then [Gap.cores.explanation r] else []) ++
        if r.memoryPerWorkerMib = none then [Gap.workerMemory.explanation r] else [] := by
  have hopen := isOpen_describe_iff hworkers hgpus hcores
  have hclosed : ∀ g : Gap, g ≠ .cores → g ≠ .workerMemory → r.describe.told K p g = none :=
    fun g hg hg' => r.describe.told_of_not_isOpen K p (by simp [hopen, hg, hg'])
  have hcores' : Gap.cores.IsOpen r.describe ↔ r.coresPerWorker = none := by simp [hopen]
  have hmemory' : Gap.workerMemory.IsOpen r.describe ↔ r.memoryPerWorkerMib = none := by
    simp [hopen]
  simp only [ClusterDescription.gapComments_eq, Gap.all, List.filterMap_cons, List.filterMap_nil,
    hclosed .workers nofun nofun, hclosed .gpuName nofun nofun, hclosed .gpuCount nofun nofun,
    hclosed .gpuMemory nofun nofun, r.describe.told_eq_ite K p hcores',
    r.describe.told_eq_ite K p hmemory']
  split_ifs <;> rfl

/-- Nothing is lost when a record is described. -/
theorem resolve_describe {K : Type} [Quantity K] {bound : ℕ} (p : Platform)
    (hK : Size.KeepsWhole K bound) (hmemory : ∀ n, r.memoryPerWorkerMib = some n → n ≤ bound)
    (hgpuMemory : r.gpuMemoryMib ≤ bound) :
    r.describe.resolve K p = { r with missingInfo := false } := by
  have hkeeps := r.describe.keeps_resolve K p
  have hfills := r.describe.fills_resolve K p
  have hopen := isOpen_describe_iff hworkers hgpus hcores
  have hcores' : (r.describe.resolve K p).coresPerWorker = r.coresPerWorker := by
    cases hgiven : r.coresPerWorker with
    | none => exact hfills.cores ((hopen _).2 (Or.inl ⟨rfl, hgiven⟩))
    | some n => exact hkeeps.cores n hgiven (hcores n hgiven)
  have hmemory' : (r.describe.resolve K p).memoryPerWorkerMib = r.memoryPerWorkerMib := by
    cases hgiven : r.memoryPerWorkerMib with
    | none => exact hfills.workerMemory ((hopen _).2 (Or.inr ⟨rfl, hgiven⟩))
    | some n =>
      have htold : r.describe.systemInfo.memory = some (Size.ofMib n) := by
        show r.memoryPerWorkerMib.map Size.ofMib = _
        rw [hgiven, Option.map_some]
      rw [hkeeps.workerMemory _ n 0 .mib htold (Size.spells_ofMib .mib n),
        Size.wholeMib_mib hK (hmemory n hgiven)]
  have hgpuMemory' : (r.describe.resolve K p).gpuMemoryMib = r.gpuMemoryMib := by
    rw [hkeeps.gpuMemory _ r.gpuMemoryMib 0 .mib rfl (Size.spells_ofMib .mib _),
      Size.wholeMib_mib hK hgpuMemory]
  exact ResolvedCluster.ext hcores' hmemory' (hkeeps.workers _ rfl hworkers)
    (hkeeps.gpuCount _ rfl hgpus) (hkeeps.gpuName _ rfl) hgpuMemory' rfl

end Describe

/-- Every gap of a description is explained in one line, which no other gap has, and nothing else
is. What the description tells is kept, and defaults stand for the rest. The record that results can
be described, and resolving that description gives it again, with lines only for the cores and the
memory of a worker that are still not known. -/
theorem gaps_are_filled_once (K : Type) [Quantity K] (c : ClusterDescription) (p : Platform) :
    let r := c.resolve K p
    (∃ gaps : List Gap, gaps.Sublist Gap.all ∧ (∀ g, g ∈ gaps ↔ g.IsOpen c) ∧
      c.gapComments K p = gaps.map (Gap.explanation r)) ∧
    (∀ g g' : Gap, g.explanation r = g'.explanation r → g = g') ∧
    c.Keeps K r ∧ c.Fills p r ∧
    ∀ bound, Size.KeepsWhole K bound → (∀ n, r.memoryPerWorkerMib = some n → n ≤ bound) →
      r.gpuMemoryMib ≤ bound →
      r.describe.resolve K p = { r with missingInfo := false } ∧
      r.describe.gapComments K p =
        (if r.coresPerWorker = none then [Gap.cores.explanation r] else []) ++
          if r.memoryPerWorkerMib = none then [Gap.workerMemory.explanation r] else [] := by
  intro r
  have hworkers : 0 < r.numWorkers := numWorkers_resolve_pos K c p
  have hgpus : 0 < r.gpusPerWorker := gpusPerWorker_resolve_pos K c p
  have hcores : ∀ n, r.coresPerWorker = some n → 0 < n := fun _ hn => pos_of_usableCount? hn
  refine ⟨c.exists_gaps K p, fun _ _ => Gap.explanation_injective, c.keeps_resolve K p,
    c.fills_resolve K p, fun bound hK hmemory hgpuMemory => ?_⟩
  exact ⟨resolve_describe hworkers hgpus hcores p hK hmemory hgpuMemory,
    gapComments_describe hworkers hgpus hcores K p⟩

/-- A T4 under its longer name has its own memory. What is told of it again leaves open only the
cores, of which there cannot be none. -/
theorem namedGpu_filled_once :
    let c : ClusterDescription :=
      { system := some { numCores := some 0, memory := some "1.5g" }
        gpu := some { name := some "nvidia-tesla-t4" } }
    let r := c.resolve ℚ .emr
    r.memoryPerWorkerMib = some 1536 ∧ r.gpuMemoryMib = 15109 ∧
      r.describe.resolve ℚ .emr = { r with missingInfo := false } ∧
      r.describe.gapComments ℚ .emr =
        ["Number of cores per worker is missing. Executor sizing cannot be computed."] := by
  intro c r
  have hmemory : r.memoryPerWorkerMib = some 1536 := by decide +kernel
  have hgpuMemory : r.gpuMemoryMib = 15109 := rfl
  have hbound : ∀ n, r.memoryPerWorkerMib = some n → n ≤ max64 := by
    intro n hn
    cases hmemory.symm.trans hn
    decide
  obtain ⟨-, -, -, -, hagain⟩ := gaps_are_filled_once ℚ c .emr
  obtain ⟨hsame, hcomments⟩ := hagain max64 Size.keepsWhole_rat hbound (by rw [hgpuMemory]; decide)
  refine ⟨hmemory, hgpuMemory, hsame, hcomments.trans ?_⟩
  rw [hmemory]
  rfl

end SparkTuner
