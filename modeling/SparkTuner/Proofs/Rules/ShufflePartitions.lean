import SparkTuner.Proofs.Rules.Adaptive
import SparkTuner.Proofs.Rules.Free

/-!
# Shuffle partitions follow the stages

The stages that spill, that have skew and that ran out of memory decide how many shuffle partitions
are called for (`calledForPartitions`). The rule recommends this number if it is not the one in
effect, and leaves the entries alone otherwise; either way it is the number in effect afterwards
(`shuffle_partitions_follow_stages`).
-/

namespace SparkTuner

open Ledger Number Text

variable {K : Type}

/-! ## Stages -/

namespace AppSummary

/-- Some stage spills and has skew. -/
def SpillsWithSkew (app : AppSummary K) : Prop := ∃ stage ∈ app.spillStages, stage ∈ app.skewStages

/-- Stages spill, and none of them has skew. -/
def SpillsEvenly (app : AppSummary K) : Prop := app.spillStages ≠ [] ∧ ¬app.SpillsWithSkew

instance (app : AppSummary K) : Decidable app.SpillsWithSkew :=
  inferInstanceAs (Decidable (∃ stage ∈ app.spillStages, stage ∈ app.skewStages))

instance (app : AppSummary K) : Decidable app.SpillsEvenly := inferInstanceAs (Decidable (_ ∧ _))

theorem any_skewed_iff (app : AppSummary K) :
    app.spillStages.any app.skewStages.contains = true ↔ app.SpillsWithSkew := by
  simp [SpillsWithSkew]

end AppSummary

namespace Rules

variable {ctx : Context K} {s : State} {app : AppSummary K} {tool : Tool} {current base : ℕ}

/-- Twice the partitions where stages spill and none of them has skew. -/
def spilledPartitions (app : AppSummary K) (current : ℕ) : ℕ :=
  if app.SpillsEvenly then 2 * current else current

/-- At least four times the partitions where a profile tells of tasks that ran out of memory. -/
def calledForPartitions (tool : Tool) (app : AppSummary K) (current : ℕ) : ℕ :=
  if tool = .profiling ∧ app.taskOomStages ≠ [] then
    max (spilledPartitions app current) (4 * current)
  else spilledPartitions app current

theorem spilledPartitions_eq_iff (hpos : 0 < current) :
    spilledPartitions app current = 2 * current ↔ app.SpillsEvenly := by
  unfold spilledPartitions
  by_cases heven : app.SpillsEvenly
  · simp [heven]
  · simp only [heven, if_false, iff_false]
    omega

theorem spilledPartitions_bounds (app : AppSummary K) (current : ℕ) :
    current ≤ spilledPartitions app current ∧ spilledPartitions app current ≤ 2 * current := by
  unfold spilledPartitions
  split <;> omega

theorem calledForPartitions_bounds (tool : Tool) (app : AppSummary K) (current : ℕ) :
    current ≤ calledForPartitions tool app current ∧
      calledForPartitions tool app current ≤ 4 * current := by
  obtain ⟨hlow, hhigh⟩ := spilledPartitions_bounds app current
  unfold calledForPartitions
  split <;> omega

/-- A profile never calls for fewer partitions than a qualification. -/
theorem calledForPartitions_qualification_le (app : AppSummary K) (current : ℕ) :
    calledForPartitions .qualification app current ≤
      calledForPartitions .profiling app current := by
  have hbase : calledForPartitions .qualification app current = spilledPartitions app current :=
    if_neg fun h => by cases h.1
  rw [hbase, calledForPartitions]
  split
  · exact Nat.le_max_left _ _
  · exact Nat.le_refl _

/-! ## What the rule computes -/

theorem value_spillBased (hword : 2 * current ≤ max64) :
    (spillBased app current).value = spilledPartitions app current := by
  unfold spillBased spilledPartitions
  by_cases hspill : app.spillStages = []
  · have heven : ¬app.SpillsEvenly := fun h => h.1 hspill
    rw [if_pos hspill, if_neg heven]
  · rw [if_neg hspill]
    by_cases hskew : app.SpillsWithSkew
    · have heven : ¬app.SpillsEvenly := fun h => h.2 hskew
      rw [if_pos (app.any_skewed_iff.2 hskew), if_neg heven]
    · have heven : app.SpillsEvenly := ⟨hspill, hskew⟩
      rw [if_neg (mt app.any_skewed_iff.1 hskew), if_pos heven]
      show min (current * spillFactor) max64 = 2 * current
      unfold spillFactor
      omega

theorem value_shufflePartitions (hword : 4 * current ≤ max64) :
    (tool.shufflePartitions app current (spilledPartitions app current)).value =
      calledForPartitions tool app current := by
  unfold calledForPartitions
  cases tool with
  | qualification =>
    rw [if_neg fun h => by cases h.1]
    rfl
  | profiling =>
    by_cases hoom : app.taskOomStages = []
    · rw [if_neg fun h => h.2 hoom]
      unfold Tool.shufflePartitions
      dsimp only
      rw [if_pos (List.isEmpty_iff.2 hoom)]
    · have hcapped : cappedMul64 current Tool.oomFactor = 4 * current := by
        unfold cappedMul64 Tool.oomFactor
        omega
      rw [if_pos ⟨rfl, hoom⟩]
      unfold Tool.shufflePartitions
      dsimp only
      rw [if_neg (mt List.isEmpty_iff.1 hoom), hcapped]

/-- What the rule says on its own: of the spilling, and of the tasks that ran out of memory. -/
def shuffleRemarks (ctx : Context K) (current : ℕ) : List String :=
  (spillBased ctx.app current).comment.toList ++
    (ctx.tool.shufflePartitions ctx.app current (spillBased ctx.app current).value).comment.toList

/-- The comment about tasks is neither of the two about spilling. -/
theorem not_mem_toolComment {c : String} (hc : c ∈ [spillComment, skewComment]) :
    c ∉ (tool.shufflePartitions app current base).comment.toList := by
  cases tool with
  | qualification => exact List.not_mem_nil
  | profiling =>
    unfold Tool.shufflePartitions
    dsimp only
    split
    · exact List.not_mem_nil
    · rw [Option.toList_some, List.mem_singleton]
      rintro rfl
      revert hc
      decide

theorem count_shuffleRemarks (ctx : Context K) (current : ℕ) :
    (shuffleRemarks ctx current).count spillComment = (if ctx.app.SpillsEvenly then 1 else 0) ∧
      (shuffleRemarks ctx current).count skewComment =
        if ctx.app.SpillsWithSkew then 1 else 0 := by
  have hapart : List.count skewComment [spillComment] = 0 ∧
      List.count spillComment [skewComment] = 0 := by
    decide
  have htool : ∀ c ∈ [spillComment, skewComment],
      (shuffleRemarks ctx current).count c =
        ((spillBased ctx.app current).comment.toList).count c := by
    intro c hc
    rw [shuffleRemarks, List.count_append, List.count_eq_zero.2 (not_mem_toolComment hc)]
    rfl
  rw [htool _ (by simp), htool _ (by simp)]
  unfold spillBased
  by_cases hspill : ctx.app.spillStages = []
  · have heven : ¬ctx.app.SpillsEvenly := fun h => h.1 hspill
    have hskew : ¬ctx.app.SpillsWithSkew := fun ⟨stage, hstage, _⟩ => by simp [hspill] at hstage
    rw [if_pos hspill, if_neg heven, if_neg hskew]
    exact ⟨rfl, rfl⟩
  · rw [if_neg hspill]
    by_cases hskew : ctx.app.SpillsWithSkew
    · have heven : ¬ctx.app.SpillsEvenly := fun h => h.2 hskew
      rw [if_pos (ctx.app.any_skewed_iff.2 hskew), if_neg heven, if_pos hskew]
      exact ⟨hapart.2, List.count_singleton_self⟩
    · have heven : ctx.app.SpillsEvenly := ⟨hspill, hskew⟩
      rw [if_neg (mt ctx.app.any_skewed_iff.1 hskew), if_pos heven, if_neg hskew]
      exact ⟨List.count_singleton_self, hapart.1⟩

/-! ## The number in effect -/

theorem shufflePartitionsInEffect_pos (l : Ledger) : 0 < shufflePartitionsInEffect l := by
  unfold shufflePartitionsInEffect
  cases hread : ((l.getOrDefault? Key.shufflePartitions).bind fun v =>
    readCount64? (trimmed v)).filter (0 < ·) with
  | none => decide
  | some n => exact of_decide_eq_true (Option.filter_eq_some_iff.1 hread).2

theorem trimmed_repr (n : ℕ) : trimmed (Nat.repr n) = Nat.repr n := by
  have hdigits : trim (Nat.toDigits 10 n) = Nat.toDigits 10 n :=
    trim_of_forall_not_blank fun c hc => isBlank_of_isDigit (isDigit_of_mem_toDigits hc)
  rw [trimmed, Nat.toList_repr, hdigits, ← Nat.toList_repr, String.ofList_toList]

theorem shufflePartitionsInEffect_of_get? {l : Ledger} {n : ℕ}
    (hvalue : l.get? Key.shufflePartitions = some (Nat.repr n)) (hpos : 0 < n)
    (hword : n ≤ max64) : shufflePartitionsInEffect l = n := by
  have hkept : (some n).filter (0 < ·) = some n := Option.filter_some_pos (by simpa using hpos)
  rw [shufflePartitionsInEffect, getOrDefault?, hvalue, Option.some_or, Option.bind_some,
    trimmed_repr, readCount64?_repr hword, hkept, Option.getD_some]

/-! ## What the rule writes -/

theorem text?_count {n : ℕ} (hpos : 0 < n) (hword : n ≤ maxSigned64) :
    (Computed.count (signed64 n)).text? = some (Nat.repr n) := by
  have hpos' : (0 : ℤ) < n := by exact_mod_cast hpos
  rw [signed64_of_le hword, Computed.text?, if_pos hpos', Int.toNat_natCast]

theorem shufflePartitionOps_eq {spilled target : Tool.Adjustment} (hpos : 0 < target.value)
    (hword : target.value ≤ maxSigned64) :
    shufflePartitionOps current spilled target =
      (if target.value = current then []
        else [.recommend Key.shufflePartitions (Nat.repr target.value)]) ++
      (spilled.comment.toList ++ target.comment.toList).map (.remark Key.shufflePartitions) := by
  rw [shufflePartitionOps, text?_count hpos hword]
  rfl

/-- A ledger that was told how many partitions are called for. -/
def withPartitions (l : Ledger) (current target : ℕ) : Ledger :=
  if target = current then l else l.apply (.recommend Key.shufflePartitions (Nat.repr target))

theorem ledger_shufflePartitions (hfree : s.ledger.IsFree Key.shufflePartitions)
    (hcurrent : shufflePartitionsInEffect s.ledger = current)
    (hword : 4 * current ≤ maxSigned64) :
    (shufflePartitions ctx s).ledger =
      (withPartitions s.ledger current (calledForPartitions ctx.tool ctx.app current)).sayAll
        (shuffleRemarks ctx current) := by
  have hmax : maxSigned64 ≤ max64 := by decide
  have hpos : 0 < current := hcurrent ▸ shufflePartitionsInEffect_pos s.ledger
  obtain ⟨hlow, hhigh⟩ := calledForPartitions_bounds ctx.tool ctx.app current
  have hspilled : (spillBased ctx.app current).value = spilledPartitions ctx.app current :=
    value_spillBased (by omega)
  have htarget : (ctx.tool.shufflePartitions ctx.app current
      (spillBased ctx.app current).value).value = calledForPartitions ctx.tool ctx.app current := by
    rw [hspilled]
    exact value_shufflePartitions (by omega)
  have hskip : (withPartitions s.ledger current
      (calledForPartitions ctx.tool ctx.app current)).isSkipped Key.shufflePartitions = false := by
    unfold withPartitions
    split
    · exact hfree.unskipped
    · rw [isSkipped_apply, hfree.unskipped]
  rw [shufflePartitions, if_pos hfree.unlimited, hcurrent]
  dsimp only
  rw [State.ledger_write, shufflePartitionOps_eq (by omega) (by omega), htarget, run_append,
    ← run_remarks hskip, shuffleRemarks]
  unfold withPartitions
  split <;> rfl

/-- The rule on a state with so many partitions in effect, while so many are called for. -/
structure FollowsStages (app : AppSummary K) (before after : Ledger) (current target : ℕ) :
    Prop where
  recommended : target ≠ current →
    after.recommended? Key.shufflePartitions = some (Nat.repr target)
  untouched : target = current → after.entries = before.entries
  inEffect : shufflePartitionsInEffect after = target
  /-- What goes with the recommendation comes first, and then what the rule itself says. -/
  comments : ∃ said remarks, after.comments = before.comments ++ said ++ remarks ∧
    said = (if target = current then []
      else before.saidBy (.recommend Key.shufflePartitions (Nat.repr target))) ∧
    remarks.count spillComment = (if spilledPartitions app current = 2 * current then 1 else 0) ∧
    remarks.count skewComment = if app.SpillsWithSkew then 1 else 0
  /-- No recommendation goes with either comment, unless it is registered as the caveat. -/
  apart : ∀ c ∈ [spillComment, skewComment],
    before.caveats.get? Key.shufflePartitions ≠ some c →
    c ∉ before.saidBy (.recommend Key.shufflePartitions (Nat.repr target))

theorem followsStages (ctx : Context K) (hfree : s.ledger.IsFree Key.shufflePartitions)
    (hcurrent : shufflePartitionsInEffect s.ledger = current)
    (hword : 4 * current ≤ maxSigned64) :
    FollowsStages ctx.app s.ledger (shufflePartitions ctx s).ledger current
      (calledForPartitions ctx.tool ctx.app current) := by
  have hmax : maxSigned64 ≤ max64 := by decide
  have hpos : 0 < current := hcurrent ▸ shufflePartitionsInEffect_pos s.ledger
  obtain ⟨hlow, hhigh⟩ := calledForPartitions_bounds ctx.tool ctx.app current
  obtain ⟨hspill, hskew⟩ := count_shuffleRemarks ctx current
  rw [ledger_shufflePartitions hfree hcurrent hword]
  generalize calledForPartitions ctx.tool ctx.app current = target at hlow hhigh
  constructor
  case recommended =>
    intro hchanged
    rw [withPartitions, if_neg hchanged]
    exact hfree.takes.recommended?_recommend (Nat.repr target)
  case untouched =>
    intro hkept
    rw [withPartitions, if_pos hkept]
    rfl
  case inEffect =>
    by_cases hkept : target = current
    · rw [withPartitions, if_pos hkept, hkept]
      exact hcurrent
    · rw [withPartitions, if_neg hkept]
      have hvalue := hfree.takes.get?_recommend (Nat.repr target)
      exact shufflePartitionsInEffect_of_get? hvalue (by omega) (by omega)
  case comments =>
    refine ⟨_, shuffleRemarks ctx current, ?_, rfl, ?_, hskew⟩
    · rw [comments_sayAll, withPartitions]
      by_cases hkept : target = current
      · rw [if_pos hkept, if_pos hkept, List.append_nil]
      · rw [if_neg hkept, if_neg hkept, comments_apply]
    · rw [hspill]
      simp only [spilledPartitions_eq_iff hpos]
  case apart =>
    have htexts : ∀ c ∈ [spillComment, skewComment], c ≠ missingComment Key.shufflePartitions ∧
        updateComment? Key.shufflePartitions ≠ some c := by
      decide
    intro c hc hcaveat hmem
    obtain ⟨hmissing, hupdate⟩ := htexts c hc
    rcases mem_saidBy_recommend hmem with h | h | h
    · exact hmissing h
    · exact hupdate h
    · exact hcaveat h

end Rules

/-- The number of shuffle partitions changes exactly when the stages say so. -/
theorem shuffle_partitions_follow_stages (ctx : Context K) {s : State}
    (hfree : s.ledger.IsFree Key.shufflePartitions)
    (hword : 4 * Rules.shufflePartitionsInEffect s.ledger ≤ maxSigned64) :
    let current := Rules.shufflePartitionsInEffect s.ledger
    let after := fun tool => (Rules.shufflePartitions { ctx with tool := tool } s).ledger
    (∀ tool, Rules.FollowsStages ctx.app s.ledger (after tool) current
      (Rules.calledForPartitions tool ctx.app current)) ∧
    Rules.shufflePartitionsInEffect (after .qualification) ≤
      Rules.shufflePartitionsInEffect (after .profiling) := by
  intro current after
  have hfollows : ∀ tool, Rules.FollowsStages ctx.app s.ledger (after tool) current
      (Rules.calledForPartitions tool ctx.app current) :=
    fun tool => Rules.followsStages { ctx with tool := tool } hfree rfl hword
  refine ⟨hfollows, ?_⟩
  rw [(hfollows .qualification).inEffect, (hfollows .profiling).inEffect]
  exact Rules.calledForPartitions_qualification_le ctx.app current

/-- Two stages spill, a third one has skew, and one ran out of memory. The source has blanks around
its number. -/
theorem spillingStages_followed :
    let ctx : Context ℚ :=
      { app := { AppSummary.blank with
          spillStages := [1, 2], skewStages := [7], taskOomStages := [2] }
        platform := .onPrem
        tool := .profiling }
    let s : State := { ledger := .start (KeyMap.ofList [(Key.shufflePartitions, " 300 ")]) {} }
    s.ledger.IsFree Key.shufflePartitions ∧
      4 * Rules.shufflePartitionsInEffect s.ledger ≤ maxSigned64 ∧
      (Rules.shufflePartitions { ctx with tool := .qualification } s).ledger.recommended?
        Key.shufflePartitions = some "600" ∧
      (Rules.shufflePartitions ctx s).ledger.recommended? Key.shufflePartitions = some "1200" := by
  intro ctx s
  have hfree : s.ledger.IsFree Key.shufflePartitions := by constructor <;> decide +kernel
  have hcurrent : Rules.shufflePartitionsInEffect s.ledger = 300 := by decide +kernel
  have hword : 4 * Rules.shufflePartitionsInEffect s.ledger ≤ maxSigned64 := by
    rw [hcurrent]
    decide
  obtain ⟨hfollows, -⟩ := shuffle_partitions_follow_stages ctx hfree hword
  have hchanged : ∀ tool, Rules.calledForPartitions tool ctx.app
      (Rules.shufflePartitionsInEffect s.ledger) ≠ Rules.shufflePartitionsInEffect s.ledger := by
    rw [hcurrent]
    intro tool
    cases tool <;> decide
  refine ⟨hfree, hword, ?_, ?_⟩
  · refine ((hfollows .qualification).recommended (hchanged _)).trans ?_
    rw [hcurrent]
    decide
  · refine ((hfollows .profiling).recommended (hchanged _)).trans ?_
    rw [hcurrent]
    decide

end SparkTuner
