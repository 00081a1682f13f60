import SparkTuner.Proofs.Ledger.Transcript
import SparkTuner.Proofs.Tuner.Enforced
import SparkTuner.Proofs.Tuner.Log

/-!
# Every reported gap is explained

What the report shows for a key that the source leaves unset is a value of the user, a value that a
rule recommended, or a placeholder. The comments tell of each of them, and of the first two exactly
once, however many rules recommended the key (`gaps_explained_once`).
-/

namespace SparkTuner

open Ledger Number

variable {K : Type} [Quantity K]

namespace Tuner

variable {t : Tuner K} {log : Rule → List Op} {key value : String}

/-! ## Lines for unset keys -/

/-- What the diagnostics and the rules say themselves explains no value for an unset key. -/
theorem IsLog.not_readsMissing (hlog : t.IsLog log)
    (hdiagnostics : ∀ c ∈ t.diagnostics, startsPlain c = true) {op : Op} (hop : op ∈ t.written log)
    {c : String} (hc : op.text? = some c) :
    readsMissing c = false ∨ c = missingComment Key.aqeBroadcastThreshold := by
  rcases hlog.cases hop with ⟨diagnostic, hmem, rfl⟩ | ⟨r, -, hwrites⟩
  · cases hc
    exact Or.inl (not_isQuoted_of_startsPlain (hdiagnostics _ hmem))
  · exact hwrites.not_readsMissing t.gaps_startPlain hc

/-- Of the lines of a run, those with the explanation of an unset key are said to explain it. -/
theorem IsLog.text_eq_missing_iff (hlog : t.IsLog log)
    (hdiagnostics : ∀ c ∈ t.diagnostics, startsPlain c = true) (hunset : t.source.get? key = none)
    (hrecommend : .recommend key value ∈ t.written log) {line : Line}
    (hline : line ∈ (start t.source t.policy).transcript (t.written log)) :
    line.text = missingComment key ↔ line.reason = .explanation key := by
  have hreads := readsMissing_missingComment key
  have hkey : key ≠ Key.aqeBroadcastThreshold := by
    rcases hlog.cases hrecommend with ⟨c, -, heq⟩ | ⟨r, -, hwrites⟩
    · cases heq
    · exact hwrites.key_ne_broadcastThreshold
  have hspoken : ∀ {op : Op} {c : String}, op ∈ t.written log → op.text? = some c →
      c ≠ missingComment key := by
    rintro op c hop hc rfl
    rcases hlog.not_readsMissing hdiagnostics hop hc with h | h
    · rw [hreads] at h
      cases h
    · exact hkey (missingComment_injective h)
  have hother : ∀ {c : String}, readsMissing c = false → c ≠ missingComment key := by
    rintro c hc rfl
    rw [hreads] at hc
    cases hc
  cases stems_of_mem_transcript hline with
  | missing h hunset' =>
    refine ⟨fun htext => ?_, fun hreason => ?_⟩
    · rw [missingComment_injective htext]
    · cases hreason
      rfl
  | update h hset hne hc =>
    refine ⟨fun htext => absurd htext (hother ?_), fun hreason => ?_⟩
    · exact not_isQuoted_of_apart (isQuoted_updateComment hc) (by decide)
    · cases hreason
      rw [hunset] at hset
      cases hset
  | caveat h hc =>
    exact ⟨fun htext => absurd htext (hspoken hc rfl), fun hreason => by cases hreason⟩
  | fixed h =>
    refine ⟨fun htext => absurd htext (hother ?_), fun hreason => by cases hreason⟩
    exact not_isQuoted_of_apart (readsEnforced_enforcedComment _) (by decide)
  | carried hop hc _ =>
    exact ⟨fun htext => absurd htext (hspoken hop hc), fun hreason => by cases hreason⟩

/-- The user's values are the only ones that are fixed. -/
theorem IsLog.enforced (hlog : t.IsLog log) (hop : .enforce key value ∈ t.written log) :
    t.enforced.get? key = some value := by
  rcases hlog.cases hop with ⟨c, -, heq⟩ | ⟨r, -, hwrites⟩
  · cases heq
  · cases hwrites with
    | enforce hmem => exact KeyMap.get?_eq_some_iff.2 hmem

/-- A recommended value for an unset key is explained in exactly one line. -/
theorem IsLog.count_missing (hlog : t.IsLog log)
    (hdiagnostics : ∀ c ∈ t.diagnostics, startsPlain c = true) (hunset : t.source.get? key = none)
    (hskip : key ∉ t.policy.skip) (hfree : t.enforced.get? key = none)
    (hrecommend : .recommend key value ∈ t.written log) :
    t.final.ledger.comments.count (missingComment key) = 1 := by
  have henforce : ∀ v, .enforce key v ∉ t.written log := by
    intro v hop
    have henforced := hlog.enforced hop
    rw [hfree] at henforced
    cases henforced
  have htimes := times_explanation_eq_one hrecommend henforce hskip hunset
  have hcomments : t.final.ledger.comments =
      ((start t.source t.policy).transcript (t.written log)).map Line.text := by
    rw [hlog.ledger_final, comments_run]
    rfl
  rw [hcomments, ← htimes, times, List.count_eq_countP, List.countP_map]
  refine List.countP_congr fun line hline => ?_
  simpa using hlog.text_eq_missing_iff hdiagnostics hunset hrecommend hline

/-! ## Entries of the report -/

/-- What the report lists has an entry that is not to be skipped and says something. -/
theorem exists_entry_of_mem (hmem : (key, value) ∈ t.final.ledger.finish.properties .all) :
    key ∉ t.policy.skip ∧ ∃ e, t.final.ledger.entry? key = some e ∧
      t.final.ledger.finish.entries.get? key = some e ∧ e.isSubstantial = true ∧
      e.given = t.source.get? key ∧ e.skipped = false := by
  obtain ⟨e, hentry, hlists, hrendered⟩ := Recommendations.mem_properties.1 hmem
  have hfinish := hentry
  rw [entries_finish] at hentry
  obtain ⟨hledger, hsubstantial⟩ := Option.filter_eq_some_iff.1 hentry
  obtain ⟨log, hlog⟩ := t.exists_log
  have haccount : (((start t.source t.policy).run (t.written log)).account key).entry = some e := by
    rw [← hlog.ledger_final]
    exact hledger
  have hcontinues := (isSound_run t.source t.policy (t.written log) key e haccount).1
  have hshown : e.skipped = false := by
    refine Bool.eq_false_iff.2 fun hskipped => ?_
    rw [Entry.rendered?_of_skipped hskipped] at hrendered
    cases hrendered
  refine ⟨fun hskip => ?_, e, hledger, hfinish, hsubstantial, hcontinues.given, hshown⟩
  have hskipped : e.skipped = true := by
    rw [hcontinues.skipped, skipped_freshEntry, isSkipped, start]
    simpa using hskip
  rw [hshown] at hskipped
  cases hskipped

/-- What the comments say of a placeholder: that the memory falls short, and by how much, or why
there is no shuffle manager. -/
def TellsGap (t : Tuner K) (r : Recommendations) (key : String) : Prop :=
  (key ∈ Rules.memoryKeys ∧ ∃ shape required, t.context.shape = some shape ∧
    t.final.memory = some (.short required) ∧
    Memory.shortfallComment required shape.executorsPerWorker ∈ r.comments) ∨
  (key = Key.shuffleManager ∧ ∃ c,
    Rules.shuffleManagerOp (t.platform.shuffleManager t.context.engine
      (t.source.get? Key.databricksRuntime)) = .refuse Key.shuffleManager c ∧
    c ∈ r.comments)

theorem IsLog.tellsGap (hlog : t.IsLog log) (hskip : key ∉ t.policy.skip) {e : Entry}
    (he : t.final.ledger.entry? key = some e) (hopen : e.unresolved = true) :
    t.TellsGap t.final.ledger.finish key := by
  have hcomments : ∀ c, c ∈ t.final.ledger.finish.comments ↔
      c ∈ ((start t.source t.policy).run (t.written log)).comments := by
    intro c
    rw [← hlog.ledger_final]
    exact (comments_finish_perm _).mem_iff
  have hcause := (causes_run t.source t.policy (t.written log) key).2.1
  rw [← hlog.ledger_final, entryOf, he] at hcause
  rcases hcause hopen with hop | ⟨c, hop⟩
  · obtain ⟨hkey, shape, required, hshape, hmemory, hsaid⟩ := hlog.invalidated hop
    refine Or.inl ⟨hkey, shape, required, hshape, hmemory, ?_⟩
    exact (hcomments _).2 (mem_comments_of_sayOnce hsaid)
  · have hrefused := hlog.refused hop
    have hkey : key = Key.shuffleManager := hlog.key_of_refuse hop
    subst hkey
    have hskip' : (start t.source t.policy).isSkipped Key.shuffleManager = false := by
      simpa [isSkipped, start] using hskip
    exact Or.inr ⟨rfl, c, hrefused, (hcomments c).2 (mem_comments_of_refuse hskip' hop)⟩

end Tuner

/-- Of the entries that say something, those are unresolved whose value is needed but missing. -/
theorem Entry.resolution_eq_unresolved_iff {e : Entry} (hskip : e.skipped = false)
    (hsubstantial : e.isSubstantial = true) :
    e.resolution = .unresolved ↔ e.unresolved = true := by
  unfold resolution
  cases hopen : e.unresolved with
  | true => simp [hskip]
  | false =>
    cases hvalue : e.recommended with
    | some value =>
      cases e.given with
      | some old => by_cases hsame : value = old <;> simp [hskip, hsame]
      | none => simp [hskip]
    | none =>
      cases hgiven : e.given with
      | some old => simp [hskip]
      | none => simp [isSubstantial, hvalue, hgiven, hopen] at hsubstantial

/-- Every reported gap is explained, exactly once. What a run reports for a key that the source
leaves unset is a value of the user, and the comments have its one line; or rules recommended a
value, and the comments have one explanation of it, however many rules did; or it is a placeholder,
and the comments have the line that caused it. Whatever is asked of a ledger, a key is explained at
most once and gets at most one caveat, which comes with the first recommendation after it is
registered, and a key that is to be skipped gets neither. -/
theorem gaps_explained_once {readers : Readers K} {input : TunerInput K} {t : Tuner K}
    (hbuild : input.build readers = .ok t) :
    (let r := t.final.ledger.finish
    (t.final.staysInWords = true → t.recommend? = some r) ∧
      (∃ log, t.IsLog log) ∧
      ∀ log key value, t.IsLog log → (key, value) ∈ r.properties .all →
        t.source.get? key = none →
        ((t.enforced.get? key).isSome = true → r.comments.count (enforcedComment key) = 1) ∧
        (t.enforced.get? key = none → (∃ rule v, .recommend key v ∈ log rule) →
          r.comments.count (missingComment key) = 1) ∧
        (∀ e, r.entries.get? key = some e → e.resolution = .unresolved → t.TellsGap r key) ∧
        ((t.enforced.get? key).isSome = true ∨ (∃ rule v, .recommend key v ∈ log rule) ∨
          ∃ e, r.entries.get? key = some e ∧ e.resolution = .unresolved)) ∧
    ∀ source policy calls, SaysOnce source policy calls := by
  obtain ⟨-, -, hdiagnostics⟩ := TunerInput.of_build hbuild
  refine ⟨⟨fun hwords => if_pos hwords, t.exists_log, ?_⟩, saysOnce⟩
  intro log key value hlog hmem hunset
  obtain ⟨hskip, e, he, hfinish, hsubstantial, hgiven, hshown⟩ := Tuner.exists_entry_of_mem hmem
  have hresolution := Entry.resolution_eq_unresolved_iff hshown hsubstantial
  have hcount : ∀ c, t.final.ledger.finish.comments.count c = t.final.ledger.comments.count c :=
    fun c => (comments_finish_perm t.final.ledger).count_eq c
  refine ⟨fun henforced => ?_, fun hfree => ?_, fun e' he' hopen => ?_, ?_⟩
  · obtain ⟨v, hv⟩ := Option.isSome_iff_exists.1 henforced
    have hkeeps := Tuner.keeps_final hdiagnostics hv (by simpa using hskip)
    rw [hcount]
    exact hkeeps.notes.count
  · rintro ⟨rule, v, hop⟩
    rw [hcount]
    exact hlog.count_missing hdiagnostics hunset hskip hfree (Tuner.mem_written hop)
  · cases hfinish.symm.trans he'
    exact hlog.tellsGap hskip he (hresolution.1 hopen)
  · -- The entry says something, and the source gave nothing: it is open, or it has a value.
    by_cases hopen : e.unresolved = true
    · exact Or.inr (Or.inr ⟨e, hfinish, hresolution.2 hopen⟩)
    · have hvalue : e.recommended.isSome = true := by
        simpa [Entry.isSubstantial, hgiven, hunset, hopen] using hsubstantial
      have hcause := (causes_run t.source t.policy (t.written log) key).2.2
      rw [← hlog.ledger_final, entryOf, he] at hcause
      rcases hcause hvalue with ⟨v, hop⟩ | ⟨v, hop⟩
      · left
        rw [hlog.enforced hop]
        rfl
      · right
        left
        rcases hlog.cases hop with ⟨c, -, heq⟩ | ⟨rule, hrule, -⟩
        · cases heq
        · exact ⟨rule, v, hrule⟩

/-- The tuner for an application of which nothing is known. -/
def Tuner.blank : Tuner Rat where
  app := AppSummary.blank
  driverLog := none
  platform := default
  tool := default
  strategy := default
  cluster := {}
  worker := none
  enforced := .empty
  policy := { skip := (default : Platform).excludedKeys }
  latest := .notChecked
  diagnostics := []

/-- The switch of the accelerator is recommended for an application that leaves it unset. -/
theorem switch_explained_once :
    TunerInput.build ⟨fun _ => .error .json, fun _ => .error .json⟩
        { app := AppSummary.blank } = .ok Tuner.blank ∧
      Tuner.blank.final.ledger.finish.comments.count (missingComment Key.sqlEnabled) = 1 := by
  have hbuild : TunerInput.build ⟨fun _ => .error .json, fun _ => .error .json⟩
      { app := AppSummary.blank } = .ok Tuner.blank := rfl
  obtain ⟨⟨-, ⟨log, hlog⟩, hgaps⟩, -⟩ := gaps_explained_once hbuild
  have hlisted : (Key.sqlEnabled, "true") ∈ Tuner.blank.final.ledger.finish.properties .all ∧
      ∀ e ∈ Tuner.blank.final.ledger.finish.entries.get? Key.sqlEnabled,
        e.resolution ≠ .unresolved := by
    decide +kernel
  obtain ⟨-, hexplained, -, hcases⟩ := hgaps log Key.sqlEnabled "true" hlog hlisted.1 rfl
  refine ⟨hbuild, hexplained rfl ?_⟩
  rcases hcases with henforced | hrecommended | ⟨e, he, hopen⟩
  · exact absurd henforced Bool.false_ne_true
  · exact hrecommended
  · exact absurd hopen (hlisted.2 e he)

end SparkTuner
