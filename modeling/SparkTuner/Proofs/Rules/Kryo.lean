import SparkTuner.Proofs.FirstOccurrence
import SparkTuner.Proofs.Rules.Executor
import SparkTuner.Proofs.Rules.Free

/-!
# Registrators and the buffer of the Kryo serializer

The names in a list of registrators are what stands between its commas, without blanks. Merging
keeps the first occurrence of each and puts the one for the GPU after them if it is missing
(`parts_mergeRegistrators`). A merged list is read back as it was written, so that merging it again
changes nothing (`mergeRegistrators_mergeRegistrators`).
-/

namespace SparkTuner

open Ledger Number Text

namespace Rules

/-! ## Registrators -/

/-- The names that a list of registrators gives, with repetitions. -/
def givenRegistrators (existing : String) : List (List Char) :=
  ((parts ',' existing.toList).map trim).filter (· ≠ [])

/-- A name that stands in a list of registrators as it is. -/
structure IsRegistrator (name : List Char) : Prop where
  ne_nil : name ≠ []
  trim_eq : trim name = name
  comma_not_mem : ',' ∉ name

/-- The names in a merged list. -/
def mergedRegistrators (existing : String) : List (List Char) :=
  if gpuRegistrator.toList ∈ givenRegistrators existing then registratorNames existing
  else registratorNames existing ++ [gpuRegistrator.toList]

variable {existing : String} {name : List Char}

theorem listsOnce_registratorNames (existing : String) :
    ListsOnce (givenRegistrators existing) (registratorNames existing) :=
  listsOnce_eraseDups _

theorem isRegistrator_gpuRegistrator : IsRegistrator gpuRegistrator.toList := by
  constructor <;> decide +kernel

theorem isRegistrator_of_mem (h : name ∈ givenRegistrators existing) : IsRegistrator name := by
  obtain ⟨hmem, hne⟩ := List.mem_filter.1 h
  obtain ⟨part, hpart, rfl⟩ := List.mem_map.1 hmem
  exact ⟨of_decide_eq_true hne, trim_trim part,
    fun hcomma => not_mem_of_mem_parts hpart (mem_of_mem_trim hcomma)⟩

theorem mergedRegistrators_of_mem (h : gpuRegistrator.toList ∈ givenRegistrators existing) :
    mergedRegistrators existing = registratorNames existing := if_pos h

theorem mergedRegistrators_of_not_mem (h : gpuRegistrator.toList ∉ givenRegistrators existing) :
    mergedRegistrators existing = registratorNames existing ++ [gpuRegistrator.toList] := if_neg h

theorem mem_mergedRegistrators : name ∈ mergedRegistrators existing ↔
    name ∈ givenRegistrators existing ∨ name = gpuRegistrator.toList := by
  unfold mergedRegistrators
  split
  next hgpu =>
    rw [(listsOnce_registratorNames existing).mem_iff]
    exact ⟨Or.inl, fun h => h.elim id fun heq => heq ▸ hgpu⟩
  next => rw [List.mem_append, (listsOnce_registratorNames existing).mem_iff, List.mem_singleton]

theorem isRegistrator_of_mem_merged (h : name ∈ mergedRegistrators existing) :
    IsRegistrator name := by
  rcases mem_mergedRegistrators.1 h with hgiven | rfl
  · exact isRegistrator_of_mem hgiven
  · exact isRegistrator_gpuRegistrator

theorem nodup_mergedRegistrators (existing : String) : (mergedRegistrators existing).Nodup := by
  have hlists := listsOnce_registratorNames existing
  unfold mergedRegistrators
  split
  next => exact hlists.nodup
  next hgpu =>
    refine List.nodup_append.2 ⟨hlists.nodup, List.nodup_singleton _, fun a ha b hb heq => ?_⟩
    rw [List.mem_singleton.1 hb] at heq
    exact hgpu ((hlists.mem_iff _).1 (heq ▸ ha))

theorem mergeRegistrators_eq (existing : String) :
    mergeRegistrators existing = String.ofList (join [','] (mergedRegistrators existing)) := by
  have hcontains : (registratorNames existing).contains gpuRegistrator.toList = true ↔
      gpuRegistrator.toList ∈ givenRegistrators existing := by
    rw [List.contains_iff_mem, (listsOnce_registratorNames existing).mem_iff]
  unfold mergeRegistrators mergedRegistrators
  simp only [hcontains]

/-- What was joined is cut at the same places. -/
theorem parts_mergeRegistrators (existing : String) :
    parts ',' (mergeRegistrators existing).toList = mergedRegistrators existing := by
  rw [mergeRegistrators_eq, String.toList_ofList]
  have hmem : gpuRegistrator.toList ∈ mergedRegistrators existing :=
    mem_mergedRegistrators.2 (Or.inr rfl)
  exact parts_join (List.ne_nil_of_mem hmem) fun name hname =>
    (isRegistrator_of_mem_merged hname).comma_not_mem

theorem givenRegistrators_mergeRegistrators (existing : String) :
    givenRegistrators (mergeRegistrators existing) = mergedRegistrators existing := by
  have htrim : (mergedRegistrators existing).map trim = mergedRegistrators existing := by
    refine (List.map_congr_left fun name hname => ?_).trans (List.map_id _)
    exact (isRegistrator_of_mem_merged hname).trim_eq
  rw [givenRegistrators, parts_mergeRegistrators, htrim, List.filter_eq_self]
  exact fun name hname => decide_eq_true (isRegistrator_of_mem_merged hname).ne_nil

theorem mergeRegistrators_mergeRegistrators (existing : String) :
    mergeRegistrators (mergeRegistrators existing) = mergeRegistrators existing := by
  have hgiven := givenRegistrators_mergeRegistrators existing
  have hgpu : gpuRegistrator.toList ∈ givenRegistrators (mergeRegistrators existing) := by
    rw [hgiven]
    exact mem_mergedRegistrators.2 (Or.inr rfl)
  have hnames : registratorNames (mergeRegistrators existing) = mergedRegistrators existing := by
    show (givenRegistrators (mergeRegistrators existing)).eraseDups = _
    rw [hgiven, eraseDups_of_nodup (nodup_mergedRegistrators existing)]
  rw [mergeRegistrators_eq (mergeRegistrators existing), mergedRegistrators_of_mem hgpu, hnames,
    ← mergeRegistrators_eq]

/-! ## The serializer's settings -/

/-- The serializer in effect is the one that the rule is for. -/
def UsesKryo (l : Ledger) : Prop :=
  ∃ serializer, l.get? Key.serializer = some serializer ∧ kryoClass.toList <:+: serializer.toList

variable {K : Type} [Quantity K] {s : State} {text : String} {mib : ℕ}

/-- What the rule writes for the registrators. -/
def registratorOp (l : Ledger) : Op :=
  .recommend Key.kryoRegistrator (mergeRegistrators ((l.get? Key.kryoRegistrator).getD ""))

/-- What the rule writes for the buffer. -/
def bufferOps (K : Type) [Quantity K] (l : Ledger) : List Op :=
  if kryoBufferInEffect K l < leastKryoBuffer then
    [.recommend Key.kryoBufferMax (Size.ofMib leastKryoBuffer)]
  else []

theorem key?_registratorOp_ne {l : Ledger} {key : String} (hkey : Key.kryoRegistrator ≠ key) :
    (registratorOp l).key? ≠ some key :=
  fun h => hkey (Option.some.inj h)

theorem get?_registratorOp (l : Ledger) {key : String} (hkey : Key.kryoRegistrator ≠ key) :
    (l.apply (registratorOp l)).get? key = l.get? key :=
  get?_congr (account_apply_ne l (key?_registratorOp_ne hkey)) (source_apply l _)

/-- The buffer is read as it was before the registrators were merged. -/
theorem ledger_kryo (h : UsesKryo s.ledger) :
    (kryo K s).ledger = (s.ledger.apply (registratorOp s.ledger)).run (bufferOps K s.ledger) := by
  obtain ⟨serializer, hserializer, hinfix⟩ := h
  have huses : (s.ledger.get? Key.serializer).any
      (fun v => occursIn kryoClass.toList v.toList) = true := by
    rw [hserializer, Option.any_some, occursIn_iff]
    exact hinfix
  have hbuffer : kryoBufferInEffect K (s.ledger.apply (registratorOp s.ledger)) =
      kryoBufferInEffect K s.ledger := by
    unfold kryoBufferInEffect getOrDefault?
    rw [get?_registratorOp _ (by decide)]
  unfold kryo bufferOps
  rw [if_pos huses]
  show (if kryoBufferInEffect K (s.ledger.apply (registratorOp s.ledger)) < leastKryoBuffer then _
    else _ : State).ledger = _
  rw [hbuffer]
  split <;> rfl

theorem kryoBufferInEffect_of_get? (h : s.ledger.get? Key.kryoBufferMax = some text)
    (hmib : Size.memory? K text = some mib) : kryoBufferInEffect K s.ledger = mib := by
  rw [kryoBufferInEffect, getOrDefault?, h, Option.some_or, Option.bind_some, hmib]
  rfl

theorem memory?_ofMib (hK : Size.KeepsWhole K leastKryoBuffer) (h : mib ≤ leastKryoBuffer) :
    Size.memory? K (Size.ofMib mib) = some mib := by
  rw [Size.memory?, Size.mib?_of_spells K (Size.spells_ofMib .mib mib), Size.wholeMib_mib hK h]

theorem kryoBufferInEffect_of_unreadable (h : s.ledger.get? Key.kryoBufferMax = some text)
    (hmib : Size.memory? K text = none) : kryoBufferInEffect K s.ledger = 0 := by
  rw [kryoBufferInEffect, getOrDefault?, h, Option.some_or, Option.bind_some, hmib]
  rfl

theorem kryoBufferInEffect_of_not_set (hK : Size.KeepsWhole K leastKryoBuffer)
    (h : s.ledger.get? Key.kryoBufferMax = none) : kryoBufferInEffect K s.ledger = 64 := by
  have hdefault : defaultValue? Key.kryoBufferMax = some (Size.ofMib 64) := by decide
  rw [kryoBufferInEffect, getOrDefault?, h, Option.none_or, hdefault, Option.bind_some,
    memory?_ofMib hK (by decide)]
  rfl

/-- Only a value that is set makes the buffer large, since the default is a small one. -/
theorem exists_of_le_kryoBufferInEffect (hK : Size.KeepsWhole K leastKryoBuffer)
    (h : leastKryoBuffer ≤ kryoBufferInEffect K s.ledger) :
    ∃ text mib, s.ledger.get? Key.kryoBufferMax = some text ∧
      Size.memory? K text = some mib ∧ leastKryoBuffer ≤ mib := by
  cases hget : s.ledger.get? Key.kryoBufferMax with
  | none =>
    rw [kryoBufferInEffect_of_not_set hK hget] at h
    exact absurd h (by decide)
  | some text =>
    cases hmib : Size.memory? K text with
    | none =>
      rw [kryoBufferInEffect_of_unreadable hget hmib] at h
      exact absurd h (by decide)
    | some mib =>
      rw [kryoBufferInEffect_of_get? hget hmib] at h
      exact ⟨text, mib, rfl, hmib, h⟩

theorem key?_of_mem_bufferOps {op : Op} (h : op ∈ bufferOps K s.ledger) :
    op.key? = some Key.kryoBufferMax := by
  unfold bufferOps at h
  split at h
  · rw [List.mem_singleton.1 h]
    rfl
  · cases h

/-- What is registered afterwards is the merged list. -/
theorem get?_kryo_registrator (h : UsesKryo s.ledger)
    (htakes : s.ledger.Takes Key.kryoRegistrator) :
    (kryo K s).ledger.get? Key.kryoRegistrator =
      some (mergeRegistrators ((s.ledger.get? Key.kryoRegistrator).getD "")) := by
  have hother : ∀ op ∈ bufferOps K s.ledger, op.key? ≠ some Key.kryoRegistrator := by
    intro op hop
    rw [key?_of_mem_bufferOps hop]
    decide
  rw [ledger_kryo h, get?_congr (account_run_of_forall_ne hother) (source_run _ _)]
  exact htakes.get?_recommend _

/-- A buffer that is large enough stays as it is. -/
theorem account_kryo_buffer (h : UsesKryo s.ledger)
    (hlarge : leastKryoBuffer ≤ kryoBufferInEffect K s.ledger) :
    (kryo K s).ledger.account Key.kryoBufferMax = s.ledger.account Key.kryoBufferMax := by
  rw [ledger_kryo h, bufferOps, if_neg (Nat.not_lt.2 hlarge)]
  exact account_apply_ne _ (key?_registratorOp_ne (by decide))

theorem get?_kryo_buffer (h : UsesKryo s.ledger)
    (hlarge : leastKryoBuffer ≤ kryoBufferInEffect K s.ledger) :
    (kryo K s).ledger.get? Key.kryoBufferMax = s.ledger.get? Key.kryoBufferMax :=
  get?_congr (account_kryo_buffer h hlarge) (by rw [ledger_kryo h, source_run, source_apply])

/-- Afterwards the buffer is large enough. -/
theorem exists_get?_kryo_buffer (hK : Size.KeepsWhole K leastKryoBuffer) (h : UsesKryo s.ledger)
    (htakes : s.ledger.Takes Key.kryoBufferMax) :
    ∃ text mib, (kryo K s).ledger.get? Key.kryoBufferMax = some text ∧
      Size.memory? K text = some mib ∧ leastKryoBuffer ≤ mib := by
  by_cases hlarge : leastKryoBuffer ≤ kryoBufferInEffect K s.ledger
  · rw [get?_kryo_buffer h hlarge]
    exact exists_of_le_kryoBufferInEffect hK hlarge
  · have htakes' : (s.ledger.apply (registratorOp s.ledger)).Takes Key.kryoBufferMax :=
      htakes.apply_ne (key?_registratorOp_ne (by decide))
    refine ⟨Size.ofMib leastKryoBuffer, leastKryoBuffer, ?_, memory?_ofMib hK le_rfl, le_rfl⟩
    rw [ledger_kryo h, bufferOps, if_pos (Nat.not_le.1 hlarge)]
    exact htakes'.get?_recommend _

end Rules

open Rules

/-- Merged registrators are distinct names, the given ones in their order and the one for the GPU,
which comes last unless it was given. Where the Kryo serializer is used and the user fixed neither
setting, its rule leaves the merged list and a buffer that is large enough, the same one if it was
so before. -/
theorem kryo_settings_are_clean {K : Type} [Quantity K] (hK : Size.KeepsWhole K 512) :
    (∀ existing,
      let given := ((parts ',' existing.toList).map trim).filter (· ≠ [])
      let merged := parts ',' (mergeRegistrators existing).toList
      let gpu := gpuRegistrator.toList
      (∀ name ∈ merged, name ≠ [] ∧ trim name = name) ∧ merged.Nodup ∧ merged.count gpu = 1 ∧
        (gpu ∈ given → ListsOnce given merged) ∧
        (gpu ∉ given → ∃ names, merged = names ++ [gpu] ∧ ListsOnce given names) ∧
        mergeRegistrators (mergeRegistrators existing) = mergeRegistrators existing) ∧
    ∀ (source : KeyMap String) (policy : KeyPolicy) (ops : List Op) (s : State),
      s.ledger = (start source policy).run ops → UsesKryo s.ledger →
      (∀ key ∈ [Key.kryoRegistrator, Key.kryoBufferMax],
        s.ledger.isSkipped key = false ∧ s.ledger.isEnforced key = false) →
      let after := (kryo K s).ledger
      after.get? Key.kryoRegistrator =
          some (mergeRegistrators ((s.ledger.get? Key.kryoRegistrator).getD "")) ∧
        (∃ text mib, after.get? Key.kryoBufferMax = some text ∧
          Size.memory? K text = some mib ∧ 512 ≤ mib) ∧
        ∀ text mib, s.ledger.get? Key.kryoBufferMax = some text →
          Size.memory? K text = some mib → 512 ≤ mib →
          after.get? Key.kryoBufferMax = some text ∧
            after.entry? Key.kryoBufferMax = s.ledger.entry? Key.kryoBufferMax := by
  refine ⟨fun existing => ?_, fun source policy ops s hledger huses hkeys => ?_⟩
  · intro given merged gpu
    have hmerged : merged = mergedRegistrators existing := parts_mergeRegistrators existing
    have hnodup : merged.Nodup := hmerged ▸ nodup_mergedRegistrators existing
    refine ⟨fun name hname => ?_, hnodup, ?_, fun hgpu => ?_, fun hgpu => ?_, ?_⟩
    · have hregistrator := isRegistrator_of_mem_merged (hmerged ▸ hname)
      exact ⟨hregistrator.ne_nil, hregistrator.trim_eq⟩
    · rw [hmerged] at hnodup ⊢
      exact List.count_eq_one_of_mem hnodup (mem_mergedRegistrators.2 (Or.inr rfl))
    · rw [hmerged, mergedRegistrators_of_mem hgpu]
      exact listsOnce_registratorNames existing
    · rw [hmerged, mergedRegistrators_of_not_mem hgpu]
      exact ⟨_, rfl, listsOnce_registratorNames existing⟩
    · exact mergeRegistrators_mergeRegistrators existing
  · have htakes : ∀ key ∈ [Key.kryoRegistrator, Key.kryoBufferMax], s.ledger.Takes key := by
      intro key hkey
      obtain ⟨hskip, hunheld⟩ := hkeys key hkey
      refine ⟨hskip, ?_, hunheld⟩
      rw [← hskip, hledger]
      exact skipped_entryOf_run_start source policy ops key
    refine ⟨get?_kryo_registrator huses (htakes _ (by decide)),
      exists_get?_kryo_buffer hK huses (htakes _ (by decide)), fun text mib hget hmib hlarge => ?_⟩
    have hlarge' : leastKryoBuffer ≤ kryoBufferInEffect K s.ledger := by
      rw [kryoBufferInEffect_of_get? hget hmib]
      exact hlarge
    rw [get?_kryo_buffer huses hlarge', hget]
    exact ⟨rfl, congrArg Account.entry (account_kryo_buffer huses hlarge')⟩

/-- A registrator is given twice, and the buffer is too small. -/
theorem repeatedRegistrator_cleaned :
    let source := KeyMap.ofList [(Key.serializer, kryoClass),
      (Key.kryoRegistrator, "org.A,, org.B,org.A"), (Key.kryoBufferMax, "128m")]
    let s : State := { ledger := .start source {} }
    Size.KeepsWhole ℚ 512 ∧ UsesKryo s.ledger ∧
      (∀ key ∈ [Key.kryoRegistrator, Key.kryoBufferMax],
        s.ledger.isSkipped key = false ∧ s.ledger.isEnforced key = false) ∧
      (kryo ℚ s).ledger.get? Key.kryoRegistrator =
        some "org.A,org.B,com.nvidia.spark.rapids.GpuKryoRegistrator" ∧
      ∃ text mib, (kryo ℚ s).ledger.get? Key.kryoBufferMax = some text ∧
        Size.memory? ℚ text = some mib ∧ 512 ≤ mib := by
  intro source s
  have hK : Size.KeepsWhole ℚ 512 := Size.keepsWhole_rat.mono (by decide)
  have huses : UsesKryo s.ledger := ⟨kryoClass, by decide +kernel, List.infix_rfl⟩
  have hkeys : ∀ key ∈ [Key.kryoRegistrator, Key.kryoBufferMax],
      s.ledger.isSkipped key = false ∧ s.ledger.isEnforced key = false := by decide +kernel
  obtain ⟨-, hrule⟩ := kryo_settings_are_clean hK
  obtain ⟨hregistrator, hbuffer, -⟩ := hrule source {} [] s rfl huses hkeys
  refine ⟨hK, huses, hkeys, hregistrator.trans ?_, hbuffer⟩
  decide +kernel

end SparkTuner
