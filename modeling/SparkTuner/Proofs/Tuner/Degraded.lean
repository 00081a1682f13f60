import Mathlib.Logic.ExistsUnique
import SparkTuner.Proofs.Ledger.Interleaving
import SparkTuner.Proofs.Rules.Prefaced
import SparkTuner.Proofs.Tuner.Build

/-!
# Degraded runs

Bad inputs degrade a run, they do not steer it. What a tuner has to tell of its inputs is said
before the rules, and no rule goes by it (`Tuner.final_eq_prefaced`): the run reports what it
reports without the parts that failed, and tells of them besides (`bad_inputs_degrade`).
-/

namespace SparkTuner

open Ledger Number

/-- The result with more lines among its comments. -/
def Recommendations.withLines (r : Recommendations) (lines : List String) : Recommendations :=
  { r with comments := sortComments (r.comments ++ lines) }

namespace Ledger

/-- Lines that are new and all different are said as they stand. -/
theorem run_map_sayOnce (l : Ledger) {lines : List String} (hnodup : lines.Nodup)
    (hnew : ∀ c ∈ lines, c ∉ l.comments) : l.run (lines.map .sayOnce) = l.sayAll lines := by
  induction lines generalizing l with
  | nil => simp [run, sayAll]
  | cons c lines ih =>
    obtain ⟨hc, hnodup⟩ := List.nodup_cons.1 hnodup
    have hsay : l.apply (.sayOnce c) = l.say c := by
      simpa [apply, sayOnce] using fun h => absurd h (hnew c List.mem_cons_self)
    have hrest : ∀ c' ∈ lines, c' ∉ (l.say c).comments := by
      intro c' hc' hsaid
      rcases List.mem_append.1 hsaid with hsaid | hsaid
      · exact hnew c' (List.mem_cons_of_mem _ hc') hsaid
      · rw [List.mem_singleton.1 hsaid] at hc'
        exact hc hc'
    calc l.run ((c :: lines).map .sayOnce)
        = (l.apply (.sayOnce c)).run (lines.map .sayOnce) := rfl
      _ = (l.say c).sayAll lines := by rw [hsay, ih (l.say c) hnodup hrest]
      _ = l.sayAll (c :: lines) := by simp [sayAll, say]

/-- Lines said before all others take their places among them in the result. -/
theorem finish_prefaced (l : Ledger) (lines : List String) :
    (l.prefaced lines).finish = l.finish.withLines lines := by
  have hperm : (lines ++ l.comments).Perm (sortComments l.comments ++ lines) :=
    List.perm_append_comm.trans ((sortComments_perm l.comments).symm.append_right lines)
  have hcomments := sortComments_eq_of_perm hperm
  unfold finish Recommendations.withLines
  rw [← hcomments]
  rfl

end Ledger

variable {K : Type} [Quantity K]

/-! ## The run -/

namespace Tuner

variable {t : Tuner K}

omit [Quantity K] in
/-- A run starts with what there is to tell of the inputs. -/
theorem initial_eq_prefaced (hnodup : t.diagnostics.Nodup) :
    t.initial = t.silent.initial.prefaced t.diagnostics := by
  have hstart : (start t.source t.policy).run (t.diagnostics.map .sayOnce) =
      (start t.source t.policy).prefaced t.diagnostics := by
    rw [run_map_sayOnce _ hnodup fun c _ => List.not_mem_nil]
    simp [sayAll, Ledger.prefaced, start]
  unfold initial State.write
  rw [hstart]
  rfl

end Tuner

/-- No rule makes sure to say what is told of the inputs. -/
theorem TunerInput.not_writes_diagnostic {readers : Readers K} {input : TunerInput K} {t : Tuner K}
    (hbuild : input.build readers = .ok t) {r : Rule} {line : String}
    (hline : line ∈ t.diagnostics) : ¬Rule.Writes t.context r (.sayOnce line) := by
  intro hwrites
  rcases hwrites.firstLetter?_sayOnce fun c hc => firstLetter?_gapComments hc with
    ⟨required, executors, rfl⟩ | ⟨letter, hletter, hfirst⟩
  · have hreads := Memory.readsShortfall_shortfallComment required executors
    rw [TunerInput.not_readsShortfall hbuild _ hline] at hreads
    cases hreads
  · have hapart : ∀ letter ∈ ['E', 'T'], letter ∉ ['C', 'N', 'W', 'G', 'A', 'R', 'M', 'f'] := by
      simp
    obtain ⟨part, hdiagnoses⟩ := (mem_diagnostics_iff hbuild).1 hline
    obtain ⟨letter', hletter', hfirst'⟩ := hdiagnoses.firstLetter?
    cases hfirst.symm.trans hfirst'
    exact hapart _ hletter' hletter

namespace Tuner

variable {readers : Readers K} {input : TunerInput K} {t : Tuner K}

/-- The whole run is that of the silent tuner, but for what is told of the inputs. -/
theorem final_eq_prefaced (hbuild : input.build readers = .ok t) :
    t.final = t.silent.final.prefaced t.diagnostics := by
  have hlines : ∀ r ∈ Rule.all, ∀ c ∈ t.diagnostics, ¬Rule.Writes t.context r (.sayOnce c) :=
    fun r _ c hc => TunerInput.not_writes_diagnostic hbuild hc
  have hinitial := initial_eq_prefaced (TunerInput.nodup_diagnostics hbuild)
  rw [final, hinitial, Rule.applyAll_prefaced hlines]
  rfl

theorem recommend?_eq_silent (hbuild : input.build readers = .ok t) :
    t.recommend? = t.silent.recommend?.map (·.withLines t.diagnostics) := by
  unfold recommend?
  rw [final_eq_prefaced hbuild, State.staysInWords_prefaced, State.ledger_prefaced,
    finish_prefaced]
  split <;> rfl

end Tuner

/-- Bad inputs degrade, contradictions stop. A tuner is made of all inputs but those whose target
has a worker that contradicts itself. It is degraded if a part of the inputs fails, and it has one
diagnostic for each part that does. What it recommends is what is recommended without the parts that
failed, with the diagnostics among the comments. -/
theorem bad_inputs_degrade (readers : Readers K) (input : TunerInput K) :
    (input.Contradicts readers →
      ∃ text, input.build readers = .error (.contradiction text)) ∧
    (¬input.Contradicts readers → ∃ t, input.build readers = .ok t ∧
      (t.isDegraded = true ↔ ∃ part cause, input.Fails readers part cause) ∧
      t.diagnostics.Nodup ∧
      (∀ line ∈ t.diagnostics, ∃! part, input.Diagnoses readers part line) ∧
      (∀ part cause, input.Fails readers part cause →
        ∃! line, line ∈ t.diagnostics ∧ input.Diagnoses readers part line) ∧
      ∃ t', (input.withoutFailures readers).build readers = .ok t' ∧ t'.isDegraded = false ∧
        t.recommend? = t'.recommend?.map (·.withLines t.diagnostics)) := by
  refine ⟨TunerInput.build_of_contradicts, fun hconsistent => ?_⟩
  obtain ⟨t, hbuild⟩ := TunerInput.exists_build hconsistent
  have hmem : ∀ line, line ∈ t.diagnostics ↔ ∃ part, input.Diagnoses readers part line :=
    fun _ => TunerInput.mem_diagnostics_iff hbuild
  refine ⟨t, hbuild, ?_, TunerInput.nodup_diagnostics hbuild, fun line hline => ?_,
    fun part cause hfails => ?_, t.silent, TunerInput.build_withoutFailures hbuild, rfl,
    Tuner.recommend?_eq_silent hbuild⟩
  · constructor
    · intro hdegraded
      obtain ⟨line, hline⟩ := List.exists_mem_of_ne_nil t.diagnostics
        (by simpa [Tuner.isDegraded] using hdegraded)
      obtain ⟨part, cause, hfails, -⟩ := (hmem line).1 hline
      exact ⟨part, cause, hfails⟩
    · rintro ⟨part, cause, hfails⟩
      have hline := (hmem _).2 ⟨part, cause, hfails, rfl⟩
      simpa [Tuner.isDegraded] using List.ne_nil_of_mem hline
  · obtain ⟨part, hpart⟩ := (hmem line).1 hline
    exact ⟨part, hpart, fun part' hpart' => hpart'.part_eq hpart⟩
  · have hdiagnoses : input.Diagnoses readers part (part.opening ++ cause.message) :=
      ⟨cause, hfails, rfl⟩
    exact ⟨_, ⟨(hmem _).2 ⟨part, hdiagnoses⟩, hdiagnoses⟩,
      fun line' hline' => TunerInput.Diagnoses.line_eq hbuild hline'.2 hdiagnoses⟩

/-- Beside a cluster that could not be loaded, a machine type that no platform has only degrades the
run, but with a number of cores it stops it. -/
theorem unknownMachine_degrades :
    let readers : Readers Rat := ⟨fun _ => .error .json, fun _ => .error .json⟩
    let input (cores : Option Nat) : TunerInput Rat :=
      { app := AppSummary.blank
        cluster := .failed .json
        target := .parsed
          { worker := some { instanceType := some "abacus", cpuCores := cores }
            enforced := KeyMap.ofList [(Key.shufflePartitions, "400")] } }
    (∃ text, (input (some 8)).build readers = .error (.contradiction text)) ∧
      ∃ t t', (input none).build readers = .ok t ∧ t.isDegraded = true ∧
        ((input none).withoutFailures readers).build readers = .ok t' ∧ t'.isDegraded = false ∧
        t.recommend? = t'.recommend?.map (·.withLines t.diagnostics) := by
  intro readers input
  have hcontradicts : (input (some 8)).Contradicts readers :=
    ⟨_, _, rfl, rfl, by simp [WorkerInfo.IsContradictory]⟩
  have hconsistent : ¬(input none).Contradicts readers := by
    rintro ⟨target, info, hread, hworker, h⟩
    cases hread
    cases hworker
    simp [WorkerInfo.IsContradictory] at h
  refine ⟨(bad_inputs_degrade readers (input (some 8))).1 hcontradicts, ?_⟩
  obtain ⟨t, hbuild, hdegraded, -, -, -, t', hbuild', hready, hrun⟩ :=
    (bad_inputs_degrade readers (input none)).2 hconsistent
  exact ⟨t, t', hbuild, hdegraded.2 ⟨.cluster, .json, rfl⟩, hbuild', hready, hrun⟩

end SparkTuner
