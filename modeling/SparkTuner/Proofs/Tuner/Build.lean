import SparkTuner.Proofs.Rules.Wording

/-!
# Making a tuner

Only a target whose worker contradicts itself stops the making of a tuner. Each other part of the
inputs that fails is told of in one line (`TunerInput.exists_lines`), and the tuner is the one that
is made without the part but for those lines (`TunerInput.build_withoutFailures`).
-/

namespace SparkTuner

open Number

variable {K : Type}

/-! ## Workers -/

namespace WorkerInfo

/-- A machine type beside resources, or cores or memory without a GPU. -/
def IsContradictory (info : WorkerInfo K) : Prop :=
  info.instanceType.isSome ∧
      (info.cpuCores.isSome ∨ info.memoryGb.isSome ∨ info.gpu.isSome) ∨
    (info.cpuCores.isSome ∨ info.memoryGb.isSome) ∧ info.gpu = none

/-- A machine type that the platform does not have, or a GPU of a model that is not known. The text
tells which. -/
def IsUnknown (info : WorkerInfo K) (p : Platform) (text : String) : Prop :=
  (∃ name, info.instanceType = some name ∧ p.instance? name = none ∧
    text = "Instance type '" ++ name ++ "' is not known for platform '" ++ p.name ++ "'") ∨
  ∃ gpu name, info.gpu = some gpu ∧ gpu.name = some name ∧ Gpu.parse? name = none ∧
    text = "Unknown GPU device: " ++ name

variable {info : WorkerInfo K} {p : Platform} {name text : String}

theorem isContradictory_of_machine (h : info.instanceType = some name) :
    info.IsContradictory ↔ info.hasResources = true := by
  simp only [IsContradictory, hasResources, h]
  cases info.cpuCores <;> cases info.memoryGb <;> cases info.gpu <;> simp

theorem isContradictory_of_no_machine (h : info.instanceType = none) :
    info.IsContradictory ↔ info.hasResources = true ∧ info.gpu = none := by
  simp only [IsContradictory, hasResources, h]
  cases info.cpuCores <;> cases info.memoryGb <;> cases info.gpu <;> simp

variable [Quantity K]

theorem resolve_of_contradictory (h : info.IsContradictory) :
    ∃ text, info.resolve p = .error (.contradiction text) := by
  unfold resolve
  cases hmachine : info.instanceType with
  | some name =>
    have hresources := (isContradictory_of_machine hmachine).1 h
    exact ⟨_, if_pos hresources⟩
  | none =>
    obtain ⟨hresources, hgpu⟩ := (isContradictory_of_no_machine hmachine).1 h
    dsimp only
    rw [if_pos hresources, hgpu]
    exact ⟨_, rfl⟩

theorem resolve_of_unknown (h : ¬info.IsContradictory) (hunknown : info.IsUnknown p text) :
    info.resolve p = .error (.validation text) := by
  unfold resolve
  rcases hunknown with ⟨name, hmachine, hnone, rfl⟩ | ⟨gpu, name, hgpu, hname, hnone, rfl⟩
  · have hresources : ¬info.hasResources = true := mt (isContradictory_of_machine hmachine).2 h
    rw [hmachine]
    dsimp only
    rw [if_neg hresources, machineOf, hnone]
    rfl
  · have hresources : info.hasResources = true := by simp [hasResources, hgpu]
    have hmachine : info.instanceType = none := by
      refine Option.eq_none_iff_forall_not_mem.2 fun name hname => h ?_
      exact (isContradictory_of_machine hname).2 hresources
    rw [hmachine]
    dsimp only
    rw [if_pos hresources, hgpu]
    dsimp only
    rw [modelOf, hname]
    dsimp only
    rw [hnone]
    rfl

theorem resolve_of_known (h : ¬info.IsContradictory) (hknown : ∀ text, ¬info.IsUnknown p text) :
    ∃ worker, info.resolve p = .ok worker := by
  unfold resolve
  cases hmachine : info.instanceType with
  | some name =>
    have hresources : ¬info.hasResources = true := mt (isContradictory_of_machine hmachine).2 h
    dsimp only
    rw [if_neg hresources, machineOf]
    cases hinstance : p.instance? name with
    | none => exact absurd (Or.inl ⟨name, hmachine, hinstance, rfl⟩) (hknown _)
    | some hardware => exact ⟨_, rfl⟩
  | none =>
    by_cases hresources : info.hasResources = true
    · dsimp only
      rw [if_pos hresources]
      cases hgpu : info.gpu with
      | none => exact absurd ((isContradictory_of_no_machine hmachine).2 ⟨hresources, hgpu⟩) h
      | some gpu =>
        dsimp only
        rw [modelOf]
        cases hname : gpu.name with
        | none => exact ⟨_, rfl⟩
        | some name =>
          dsimp only
          cases hmodel : Gpu.parse? name with
          | none => exact absurd (Or.inr ⟨gpu, name, hgpu, hname, hmodel, rfl⟩) (hknown _)
          | some model => exact ⟨_, rfl⟩
    · exact ⟨_, if_neg hresources⟩

end WorkerInfo

/-- The target without a worker that cannot be resolved. -/
def TargetDescription.withKnownWorker [Quantity K] (target : TargetDescription K) (p : Platform) :
    TargetDescription K :=
  match target.resolveWorker p with
  | .ok _ => target
  | .error _ => { target with worker := none }

theorem TargetDescription.enforced_withKnownWorker [Quantity K] (target : TargetDescription K)
    (p : Platform) : (target.withKnownWorker p).enforced = target.enforced := by
  unfold withKnownWorker
  split <;> rfl

/-- The tuner with nothing to tell of its inputs. -/
def Tuner.silent (t : Tuner K) : Tuner K := { t with diagnostics := [] }

/-! ## Inputs -/

namespace TunerInput

/-- The parts of the inputs that can fail. -/
inductive Part where
  | cluster
  | target
  | worker
  deriving DecidableEq

/-- How the line about a part that failed starts. -/
def Part.opening : Part → String
  | cluster => "Exception reading the cluster description, using defaults: "
  | target => "Exception reading the target cluster description, using defaults: "
  | worker => "Target worker ignored: "

/-- Every part, in the order in which they are told of. -/
def Part.all : List Part := [cluster, target, worker]

section Failures

variable (readers : Readers K) (input : TunerInput K)

/-- The target can be read, and its worker contradicts itself. -/
def Contradicts : Prop :=
  ∃ target info, input.target.read readers.target = .ok (some target) ∧
    target.worker = some info ∧ info.IsContradictory

/-- A description cannot be read, or the worker of the target is not known. -/
def Fails (part : Part) (cause : Error) : Prop :=
  match part with
  | .cluster => input.cluster.read readers.cluster = .error cause
  | .target => input.target.read readers.target = .error cause
  | .worker => ∃ target info text, input.target.read readers.target = .ok (some target) ∧
      target.worker = some info ∧ ¬info.IsContradictory ∧ info.IsUnknown input.platform text ∧
      cause = .validation text

/-- The line tells why a part failed. -/
def Diagnoses (part : Part) (line : String) : Prop :=
  ∃ cause, input.Fails readers part cause ∧ line = part.opening ++ cause.message

/-- The inputs without the parts that failed: a description that cannot be read is absent, and a
worker that cannot be resolved is left out of its target. -/
def withoutFailures [Quantity K] : TunerInput K :=
  { input with
    cluster :=
      match input.cluster.read readers.cluster with
      | .ok (some cluster) => .parsed cluster
      | _ => .absent
    target :=
      match input.target.read readers.target with
      | .ok (some target) => .parsed (target.withKnownWorker input.platform)
      | _ => .absent }

end Failures

variable {readers : Readers K} {input : TunerInput K} {t : Tuner K} {part part' : Part}
  {cause : Error} {line : String}

/-! ### Lines about failures -/

theorem Diagnoses.firstLetter? (h : input.Diagnoses readers part line) :
    ∃ letter ∈ ['E', 'T'], SparkTuner.firstLetter? line = some letter := by
  obtain ⟨cause, -, rfl⟩ := h
  cases part with
  | cluster => exact ⟨'E', by decide, firstLetter?_append (firstLetter?_ofList _ _) _⟩
  | target => exact ⟨'E', by decide, firstLetter?_append (firstLetter?_ofList _ _) _⟩
  | worker => exact ⟨'T', by decide, firstLetter?_append (firstLetter?_ofList _ _) _⟩

theorem Diagnoses.not_readsShortfall (h : input.Diagnoses readers part line) :
    Memory.readsShortfall line = false := by
  have hexception : ∀ {start : String} (text : String), SparkTuner.firstLetter? start = some 'E' →
      Memory.readsShortfall (start ++ text) = false := by
    intro start text hstart
    refine Memory.not_readsShortfall_of_firstLetter? ?_
    rw [firstLetter?_append hstart]
    decide
  obtain ⟨cause, -, rfl⟩ := h
  cases part with
  | cluster => exact hexception _ (firstLetter?_ofList _ _)
  | target => exact hexception _ (firstLetter?_ofList _ _)
  | worker =>
    -- Both texts start with a T, but already their second letters differ.
    rw [Memory.readsShortfall, String.toList_append, Part.opening, String.toList_ofList]
    rfl

/-- The letter of a line by which its part is known. -/
def Part.letter : Part → Char
  | cluster => 'c'
  | target => 't'
  | worker => ' '

theorem Part.getElem?_opening_append (part : Part) (text : String) :
    (part.opening ++ text).toList[22]? = some part.letter := by
  rw [String.toList_append]
  cases part <;> rw [Part.opening, String.toList_ofList] <;> rfl

theorem Diagnoses.part_eq (h : input.Diagnoses readers part line)
    (h' : input.Diagnoses readers part' line) : part = part' := by
  have hletter : ∀ part part' : Part, part.letter = part'.letter → part = part' := by
    intro part part'
    cases part <;> cases part' <;> decide
  obtain ⟨cause, -, rfl⟩ := h
  obtain ⟨cause', -, heq⟩ := h'
  refine hletter part part' (Option.some.inj ?_)
  rw [← part.getElem?_opening_append cause.message, heq, Part.getElem?_opening_append]

/-! ### The worker of the target -/

section Worker

variable [Quantity K]

theorem chooseWorker_of_contradicts (h : input.Contradicts readers) :
    ∃ text, chooseWorker input.platform (input.readTarget readers).value =
      .error (.contradiction text) := by
  obtain ⟨target, info, hread, hworker, hcontradictory⟩ := h
  obtain ⟨text, hresolve⟩ := info.resolve_of_contradictory (p := input.platform) hcontradictory
  refine ⟨text, ?_⟩
  simp only [readTarget, hread, chooseWorker, TargetDescription.resolveWorker, hworker, hresolve]

theorem chooseWorker_of_fails (h : input.Fails readers .worker cause) :
    chooseWorker input.platform (input.readTarget readers).value =
      .ok ⟨none, some (Part.worker.opening ++ cause.message)⟩ := by
  obtain ⟨target, info, text, hread, hworker, hconsistent, hunknown, rfl⟩ := h
  have hresolve := WorkerInfo.resolve_of_unknown hconsistent hunknown
  simp only [readTarget, hread, chooseWorker, TargetDescription.resolveWorker, hworker, hresolve,
    Part.opening]

theorem chooseWorker_of_known (hconsistent : ¬input.Contradicts readers)
    (hknown : ∀ cause, ¬input.Fails readers .worker cause) :
    ∃ worker, chooseWorker input.platform (input.readTarget readers).value =
      .ok ⟨worker, none⟩ := by
  unfold readTarget
  cases hread : input.target.read readers.target with
  | error e => exact ⟨none, rfl⟩
  | ok target =>
    cases target with
    | none => exact ⟨none, rfl⟩
    | some target =>
      simp only [chooseWorker, TargetDescription.resolveWorker]
      cases hworker : target.worker with
      | none => exact ⟨none, rfl⟩
      | some info =>
        have hconsistent' : ¬info.IsContradictory :=
          fun h => hconsistent ⟨target, info, hread, hworker, h⟩
        have hknown' : ∀ text, ¬info.IsUnknown input.platform text :=
          fun text h => hknown _ ⟨target, info, text, hread, hworker, hconsistent', h, rfl⟩
        obtain ⟨worker, hresolve⟩ := WorkerInfo.resolve_of_known hconsistent' hknown'
        exact ⟨worker, by simp only [hresolve]⟩

end Worker

/-! ### The diagnostics -/

theorem diagnostic_readCluster :
    (input.readCluster readers).diagnostic = some line ↔ input.Diagnoses readers .cluster line := by
  unfold readCluster Diagnoses Fails Part.opening
  cases input.cluster.read readers.cluster <;> simp [eq_comm]

theorem diagnostic_readTarget :
    (input.readTarget readers).diagnostic = some line ↔ input.Diagnoses readers .target line := by
  unfold readTarget Diagnoses Fails Part.opening
  cases input.target.read readers.target <;> simp [eq_comm]

variable [Quantity K]

theorem diagnostic_chooseWorker {worker : Diagnosed (Option TargetWorker)}
    (h : chooseWorker input.platform (input.readTarget readers).value = .ok worker) :
    worker.diagnostic = some line ↔ input.Diagnoses readers .worker line := by
  constructor
  · intro hline
    have hconsistent : ¬input.Contradicts readers := by
      intro hcontradicts
      obtain ⟨text, herror⟩ := chooseWorker_of_contradicts hcontradicts
      cases h.symm.trans herror
    by_cases hfails : ∃ cause, input.Fails readers .worker cause
    · obtain ⟨cause, hfails⟩ := hfails
      cases h.symm.trans (chooseWorker_of_fails hfails)
      exact ⟨cause, hfails, (Option.some.inj hline).symm⟩
    · obtain ⟨worker', hworker⟩ := chooseWorker_of_known hconsistent (not_exists.1 hfails)
      cases h.symm.trans hworker
      cases hline
  · rintro ⟨cause, hfails, rfl⟩
    cases h.symm.trans (chooseWorker_of_fails hfails)
    rfl

/-! ### The tuner -/

/-- A contradiction is the only thing that stops the making of a tuner. -/
theorem exists_build (h : ¬input.Contradicts readers) : ∃ t, input.build readers = .ok t := by
  unfold build
  dsimp only
  by_cases hfails : ∃ cause, input.Fails readers .worker cause
  · obtain ⟨cause, hfails⟩ := hfails
    rw [chooseWorker_of_fails hfails]
    exact ⟨_, rfl⟩
  · obtain ⟨worker, hworker⟩ := chooseWorker_of_known h (not_exists.1 hfails)
    rw [hworker]
    exact ⟨_, rfl⟩

theorem build_of_contradicts (h : input.Contradicts readers) :
    ∃ text, input.build readers = .error (.contradiction text) := by
  obtain ⟨text, herror⟩ := chooseWorker_of_contradicts h
  unfold build
  dsimp only
  rw [herror]
  exact ⟨text, rfl⟩

/-- A tuner is made of what could be read and chosen. -/
theorem exists_chooseWorker (h : input.build readers = .ok t) :
    ∃ worker, chooseWorker input.platform (input.readTarget readers).value = .ok worker ∧
      t.worker = worker.value ∧
      t.enforced = ((input.readTarget readers).value.map (·.enforced)).getD .empty ∧
      t.policy.skip = input.policy.skip ++ input.platform.excludedKeys ∧
      t.diagnostics = [(input.readCluster readers).diagnostic,
        (input.readTarget readers).diagnostic, worker.diagnostic].filterMap id := by
  unfold build at h
  dsimp only at h
  cases hworker : chooseWorker input.platform (input.readTarget readers).value with
  | error e =>
    rw [hworker] at h
    cases h
  | ok worker =>
    rw [hworker] at h
    cases h
    exact ⟨worker, rfl, rfl, rfl, rfl, rfl⟩

/-- Each part that failed is told of in its line, and nothing else is told. -/
theorem exists_lines (h : input.build readers = .ok t) :
    ∃ line? : Part → Option String,
      (∀ part line, line? part = some line ↔ input.Diagnoses readers part line) ∧
        t.diagnostics = Part.all.filterMap line? := by
  obtain ⟨worker, hworker, -, -, -, hdiagnostics⟩ := exists_chooseWorker h
  let line? : Part → Option String
    | .cluster => (input.readCluster readers).diagnostic
    | .target => (input.readTarget readers).diagnostic
    | .worker => worker.diagnostic
  refine ⟨line?, fun part line => ?_, ?_⟩
  · cases part with
    | cluster => exact diagnostic_readCluster
    | target => exact diagnostic_readTarget
    | worker => exact diagnostic_chooseWorker hworker
  · have hmap : Part.all.map line? = [(input.readCluster readers).diagnostic,
        (input.readTarget readers).diagnostic, worker.diagnostic] := rfl
    rw [hdiagnostics, ← hmap, List.filterMap_map, Function.id_comp]

theorem mem_diagnostics_iff (h : input.build readers = .ok t) :
    line ∈ t.diagnostics ↔ ∃ part, input.Diagnoses readers part line := by
  obtain ⟨line?, hline, hdiagnostics⟩ := exists_lines h
  have hall : ∀ part, part ∈ Part.all := by
    intro part
    cases part <;> decide
  simp only [hdiagnostics, List.mem_filterMap, hline, hall, true_and]

/-- No diagnostic can be taken for the report of a shortfall. -/
theorem not_readsShortfall (h : input.build readers = .ok t) :
    ∀ line ∈ t.diagnostics, Memory.readsShortfall line = false := by
  intro line hline
  obtain ⟨part, hdiagnoses⟩ := (mem_diagnostics_iff h).1 hline
  exact hdiagnoses.not_readsShortfall

/-- No two parts are told of in the same words. -/
theorem nodup_diagnostics (h : input.build readers = .ok t) : t.diagnostics.Nodup := by
  obtain ⟨line?, hline, hdiagnostics⟩ := exists_lines h
  have hall : Part.all.Nodup := by decide
  rw [hdiagnostics]
  refine List.Pairwise.filterMap line? (fun part part' hne line hpart line' hpart' heq => hne ?_)
    hall
  subst heq
  exact ((hline part line).1 hpart).part_eq ((hline part' line).1 hpart')

theorem Diagnoses.line_eq {line' : String} (h : input.build readers = .ok t)
    (hline : input.Diagnoses readers part line) (hline' : input.Diagnoses readers part line') :
    line = line' := by
  obtain ⟨line?, hiff, -⟩ := exists_lines h
  exact Option.some.inj (((hiff part line).2 hline).symm.trans ((hiff part line').2 hline'))

/-! ### Inputs without failures -/

theorem readCluster_withoutFailures (readers : Readers K) (input : TunerInput K) :
    (input.withoutFailures readers).readCluster readers =
      ⟨(input.readCluster readers).value, none⟩ := by
  unfold readCluster withoutFailures
  dsimp only
  cases input.cluster.read readers.cluster with
  | error e => rfl
  | ok cluster => cases cluster <;> rfl

theorem readTarget_withoutFailures (readers : Readers K) (input : TunerInput K) :
    (input.withoutFailures readers).readTarget readers =
      ⟨(input.readTarget readers).value.map (·.withKnownWorker input.platform), none⟩ := by
  unfold readTarget withoutFailures
  dsimp only
  cases input.target.read readers.target with
  | error e => rfl
  | ok target => cases target <;> rfl

/-- A worker that cannot be resolved is no worker. -/
theorem chooseWorker_withKnownWorker {p : Platform} {target : Option (TargetDescription K)}
    {worker : Diagnosed (Option TargetWorker)} (h : chooseWorker p target = .ok worker) :
    chooseWorker p (target.map (·.withKnownWorker p)) = .ok ⟨worker.value, none⟩ := by
  cases target with
  | none =>
    cases h
    rfl
  | some target =>
    have hmap : (some target).map (·.withKnownWorker p) = some (target.withKnownWorker p) := rfl
    rw [hmap]
    unfold chooseWorker at h ⊢
    unfold TargetDescription.withKnownWorker
    dsimp only at h ⊢
    cases hresolve : target.resolveWorker p with
    | ok worker' =>
      rw [hresolve] at h
      cases h
      simp only [hresolve]
    | error e =>
      rw [hresolve] at h
      cases e <;> cases h <;> rfl

/-- Without the parts that failed the same tuner is made, but that there is nothing to tell. -/
theorem build_withoutFailures (h : input.build readers = .ok t) :
    (input.withoutFailures readers).build readers = .ok t.silent := by
  have henforced : ((input.readTarget readers).value.map
      (·.withKnownWorker input.platform)).map (·.enforced) =
      (input.readTarget readers).value.map (·.enforced) := by
    rw [Option.map_map]
    exact Option.map_congr fun target _ => target.enforced_withKnownWorker input.platform
  unfold build at h ⊢
  dsimp only at h ⊢
  rw [readCluster_withoutFailures, readTarget_withoutFailures]
  cases hworker : chooseWorker input.platform (input.readTarget readers).value with
  | error e =>
    rw [hworker] at h
    cases h
  | ok worker =>
    have hworker' : chooseWorker (input.withoutFailures readers).platform
        ((input.readTarget readers).value.map (·.withKnownWorker input.platform)) =
        .ok ⟨worker.value, none⟩ := chooseWorker_withKnownWorker hworker
    rw [hworker] at h
    cases h
    rw [hworker', henforced]
    rfl

end TunerInput

end SparkTuner
