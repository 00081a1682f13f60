import SparkTuner.Proofs.Rules.Enforced
import SparkTuner.Proofs.Tuner.Build
import SparkTuner.Proofs.Tuner.Stages

/-!
# Values of the user over a whole run

The value that the user gave for a key is what a run reports for it, unless the key is to be skipped
or the memory falls short of it (`enforced_values_win`).
-/

namespace SparkTuner

open Ledger Number

variable {K : Type}

namespace TunerInput

variable {readers : Readers K} {input : TunerInput K} {t : Tuner K}

/-- What a tuner takes over from its inputs. -/
theorem of_build [Quantity K] (h : input.build readers = .ok t) :
    t.enforced = (((input.readTarget readers).value.map (·.enforced)).getD .empty) ∧
      t.policy.skip = input.policy.skip ++ input.platform.excludedKeys ∧
      ∀ c ∈ t.diagnostics, startsPlain c = true := by
  obtain ⟨worker, -, -, henforced, hskip, -⟩ := exists_chooseWorker h
  refine ⟨henforced, hskip, fun c hc => ?_⟩
  obtain ⟨part, hdiagnoses⟩ := (mem_diagnostics_iff h).1 hc
  exact startsPlain_of_firstLetter? hdiagnoses.firstLetter? (by decide)

end TunerInput

/-! ## The run -/

namespace Tuner

variable {t : Tuner K} {key value : String}

/-- At first nothing is told of values of the user, and nothing is known of any key. -/
theorem notes_initial (hdiagnostics : ∀ c ∈ t.diagnostics, startsPlain c = true) (key : String) :
    t.initial.ledger.Notes key 0 := by
  have hstart : (Ledger.start t.source t.policy).Notes key 0 := ⟨rfl, fun _ _ h => by cases h⟩
  refine hstart.run (fun op hop => ?_) (fun op hop v hv => ?_)
  · obtain ⟨c, hc, rfl⟩ := List.mem_map.1 hop
    exact .of_text rfl (not_isQuoted_of_startsPlain (hdiagnostics c hc))
  · obtain ⟨c, -, rfl⟩ := List.mem_map.1 hop
    cases hv

theorem enforced_keys_ne (t : Tuner K) : t.enforced.toList.Pairwise fun p q => p.1 ≠ q.1 := by
  refine t.enforced.ascending.imp fun hlt heq => ?_
  rw [heq] at hlt
  exact String.lt_irrefl _ hlt

variable [Quantity K]

theorem gaps_startPlain (t : Tuner K) : ∀ c ∈ t.context.clusterComments, startsPlain c = true :=
  fun _ hc => startsPlain_of_firstLetter? (firstLetter?_gapComments hc) (by decide)

/-- The rule of the user's values holds each of them. -/
theorem holds_fixed (hvalue : t.enforced.get? key = some value)
    (hskip : t.policy.skip.contains key = false) : (t.fixed.ledger.account key).Holds value :=
  holds_run_enforce (KeyMap.get?_eq_some_iff.1 hvalue) t.enforced_keys_ne
    ((t.isSkipped_seeded key).trans hskip) (t.untouched_seeded key)

/-- The rule of the user's values tells of each of them once. -/
theorem notes_fixed (hdiagnostics : ∀ c ∈ t.diagnostics, startsPlain c = true)
    (hvalue : t.enforced.get? key = some value) (hskip : t.policy.skip.contains key = false) :
    t.fixed.ledger.Notes key 1 := by
  have hnotes : t.seeded.ledger.Notes key 0 :=
    State.notes_apply t.gaps_startPlain (by decide) (notes_initial hdiagnostics key)
  exact hnotes.run_enforce_of_mem (KeyMap.get?_eq_some_iff.1 hvalue) t.enforced_keys_ne
    ((t.isSkipped_seeded key).trans hskip) (t.untouched_seeded key)

theorem keeps_final (hdiagnostics : ∀ c ∈ t.diagnostics, startsPlain c = true)
    (hvalue : t.enforced.get? key = some value) (hskip : t.policy.skip.contains key = false) :
    t.final.Keeps key value := by
  have hskip' : t.fixed.ledger.isSkipped key = false := by
    rw [fixed_eq, State.ledger_write, isSkipped_run, isSkipped_seeded]
    exact hskip
  have hexecutor : t.sized.Keeps key value :=
    State.keeps_executor t.gaps_startPlain t.memory_fixed hskip'
      (notes_fixed hdiagnostics hvalue hskip) (holds_fixed hvalue hskip)
  rw [final_eq]
  exact hexecutor.applyAll t.gaps_startPlain (by decide)

end Tuner

/-- The user's values win. What the target fixes for a key that is not to be skipped is what the run
reports for it and is told of in exactly one line, whatever the rules recommend; but where the
memory falls short, three of the memory settings are reported as placeholders. -/
theorem enforced_values_win [Quantity K] {readers : Readers K} {input : TunerInput K} {t : Tuner K}
    {target : TargetDescription K} {key value : String} (hbuild : input.build readers = .ok t)
    (htarget : (input.readTarget readers).value = some target)
    (hvalue : target.enforced.get? key = some value) (hskip : key ∉ input.policy.skip)
    (hexcluded : key ∉ input.platform.excludedKeys) :
    let r := t.final.ledger.finish
    (t.final.staysInWords = true → t.recommend? = some r) ∧
      r.value? key =
        some (if key ∈ [Key.executorMemory, Key.executorMemoryOverhead, Key.pinnedPool] ∧
            t.final.isShort = true then placeholder else value) ∧
      r.comments.count ("'" ++ key ++ "' was user-enforced in the target cluster properties.") =
        1 := by
  intro r
  obtain ⟨henforced, hpolicy, hdiagnostics⟩ := TunerInput.of_build hbuild
  have hvalue' : t.enforced.get? key = some value := by
    rw [henforced, htarget]
    exact hvalue
  have hskip' : t.policy.skip.contains key = false := by
    rw [hpolicy]
    simp [hskip, hexcluded]
  have hkeeps : t.final.Keeps key value := Tuner.keeps_final hdiagnostics hvalue' hskip'
  refine ⟨fun hwords => if_pos hwords, ?_, ?_⟩
  · split
    next h => exact value?_of_isOpen (hkeeps.lacks h.1 h.2)
    next h => exact value?_of_holds (hkeeps.holds h)
  · rw [(comments_finish_perm t.final.ledger).count_eq]
    exact hkeeps.notes.count

/-- A target that fixes one value. -/
def TargetDescription.oneFixed : TargetDescription Rat :=
  { enforced := KeyMap.ofList [(Key.shufflePartitions, "400")] }

theorem oneFixed_wins :
    ∃ t : Tuner Rat,
      TunerInput.build ⟨fun _ => .error .json, fun _ => .ok .oneFixed⟩
        { app := AppSummary.blank, target := .text "" } = .ok t ∧
      t.final.ledger.finish.value? Key.shufflePartitions = some "400" := by
  refine ⟨_, rfl, ?_⟩
  have hbuild : TunerInput.build ⟨fun _ => .error .json, fun _ => .ok .oneFixed⟩
      { app := AppSummary.blank (K := Rat), target := .text "" } = .ok _ := rfl
  have hvalue : TargetDescription.oneFixed.enforced.get? Key.shufflePartitions = some "400" := by
    decide
  have hkey : Key.shufflePartitions ∉
      [Key.executorMemory, Key.executorMemoryOverhead, Key.pinnedPool] := by decide
  have hwins := enforced_values_win hbuild rfl hvalue (by decide) (by decide)
  rw [hwins.2.1, if_neg fun h => hkey h.1]

end SparkTuner
