import SparkTuner.Proofs.Cluster.Resolved
import SparkTuner.Proofs.Ledger.Enforced
import SparkTuner.Proofs.Rules.Writes

/-!
# How the lines of a run are worded

Lines of different origin are told apart by the letter they start with and by the way they end. A
text that a rule hands to the ledger is worded in one of five ways (`Wording`), which is found out
here once for each text (`Writes.wording`). So the report of a shortfall is the only text of a rule
that starts with its letter (`Writes.firstLetter?_ne`), and its first words tell it from all other
lines (`Memory.readsShortfall`). No other line that rules make sure to say once starts like a
diagnostic (`Writes.firstLetter?_sayOnce`).
-/

namespace SparkTuner

open Ledger Number

/-! ## The report of a shortfall -/

namespace Memory

/-- How the report of a shortfall starts. -/
def shortfallOpening : List Char := ['T', 'h', 'i', 's', ' ', 'n', 'o', 'd', 'e']

/-- Whether a text reads like the report of a shortfall. -/
def readsShortfall (text : String) : Bool := shortfallOpening.isPrefixOf text.toList

theorem readsShortfall_shortfallComment (required executors : Nat) :
    readsShortfall (shortfallComment required executors) = true := by
  unfold readsShortfall shortfallComment
  refine List.isPrefixOf_iff_prefix.2 ?_
  rw [String.toList_append, String.toList_append]
  refine List.IsPrefix.trans ?_ ((List.prefix_append _ _).trans (List.prefix_append _ _))
  rw [String.toList_ofList]
  exact ⟨_, rfl⟩

theorem not_readsShortfall_of_firstLetter? {text : String} (h : firstLetter? text ≠ some 'T') :
    readsShortfall text = false := by
  refine Bool.eq_false_iff.2 fun hreads => h ?_
  obtain ⟨rest, hrest⟩ := List.isPrefixOf_iff_prefix.1 hreads
  rw [firstLetter?, ← hrest]
  rfl

theorem not_readsShortfall_of_isQuoted {text : String} {endings : List (List Char)}
    (h : isQuoted endings text = true) : readsShortfall text = false :=
  not_readsShortfall_of_firstLetter? (firstLetter?_ne_of_isQuoted h (by decide))

theorem startsPlain_shortfallComment (required executors : Nat) :
    startsPlain (shortfallComment required executors) = true :=
  startsPlain_iff.2 ⟨'T', firstLetter?_append (firstLetter?_append (firstLetter?_ofList _ _) _) _,
    by decide⟩

end Memory

/-! ## Texts about the inputs -/

/-- What explains the gaps of a cluster tells of numbers, workers, or GPUs. -/
theorem firstLetter?_gapComments {K : Type} [Quantity K] {cluster : ClusterDescription}
    {p : Platform} {c : String} (h : c ∈ cluster.gapComments K p) :
    ∃ letter ∈ ['N', 'W', 'G'], firstLetter? c = some letter := by
  have hfilled : ∀ {a : String} {letter : Char} (value b : String),
      firstLetter? a = some letter → firstLetter? (a ++ value ++ b) = some letter :=
    fun value b ha => firstLetter?_append (firstLetter?_append ha value) b
  obtain ⟨gaps, -, -, heq⟩ := cluster.exists_gaps K p
  rw [heq] at h
  obtain ⟨gap, -, rfl⟩ := List.mem_map.1 h
  cases gap with
  | workers => exact ⟨'N', by decide, hfilled _ _ (firstLetter?_ofList _ _)⟩
  | cores => exact ⟨'N', by decide, firstLetter?_ofList _ _⟩
  | workerMemory => exact ⟨'W', by decide, firstLetter?_ofList _ _⟩
  | gpuName | gpuCount | gpuMemory => exact ⟨'G', by decide, hfilled _ _ (firstLetter?_ofList _ _)⟩

/-! ## Texts of the rules -/

namespace Rules

variable {K : Type}

/-- The letters that the texts of the rules start with, where it is not a quote. -/
def plainLetters : List Char := ['C', 'E', 'S', 'A', 'R', 'M', 'f']

/-- How the texts of the rules end that start with a quote. -/
def remarkEndings : List (List Char) := [['g', 'e', 's', '.'], ['i', 'o', 'n', '.'], ['"', '.']]

theorem isQuoted_partitionMib {tool : Tool} {app : AppSummary K} {current inputBased : Nat}
    {c : String} (h : (tool.partitionMib app current inputBased).comment = some c) :
    isQuoted remarkEndings c = true := by
  unfold Tool.partitionMib at h
  split at h
  · cases h
  · split at h
    · cases h
    · cases h
      exact isQuoted_append (firstLetter?_ofList _ _) (by decide)

theorem isQuoted_shufflePartitions {tool : Tool} {app : AppSummary K} {current spillBased : Nat}
    {c : String} (h : (tool.shufflePartitions app current spillBased).comment = some c) :
    isQuoted remarkEndings c = true := by
  unfold Tool.shufflePartitions at h
  split at h
  · cases h
  · split at h
    · cases h
    · cases h
      exact isQuoted_append (firstLetter?_ofList _ _) (by decide)

/-- What is said of spilling tells of skew, or it is about the partitions. -/
theorem spillBased_comment_cases {app : AppSummary K} {current : Nat} {c : String}
    (h : (spillBased app current).comment = some c) :
    firstLetter? c = some 'S' ∨ isQuoted remarkEndings c = true := by
  unfold spillBased at h
  split at h
  · cases h
  · split at h
    · cases h
      exact Or.inl (firstLetter?_append (firstLetter?_append (firstLetter?_ofList _ _) _) _)
    · cases h
      exact Or.inr (isQuoted_ofList (by decide))

/-- What is said of the broadcast threshold explains that it is unset, as for any other key, or that
it is too large. -/
theorem broadcastComment?_cases [Quantity K] {value : Option String} {c : String}
    (h : broadcastComment? K value = some c) :
    c = missingComment Key.aqeBroadcastThreshold ∨ firstLetter? c = some 'S' := by
  unfold broadcastComment? at h
  split at h
  · have hunexplained :
        (Definition.find? Key.aqeBroadcastThreshold).bind (·.missingComment) = none := by
      decide
    cases h
    left
    rw [missingComment, hunexplained]
    rfl
  · split at h
    · cases h
      exact Or.inr (firstLetter?_append (firstLetter?_append (firstLetter?_append
        (firstLetter?_append (firstLetter?_ofList _ _) _) _) _) _)
    · cases h

theorem firstLetter?_missingJarComment : firstLetter? missingJarComment = some 'R' :=
  firstLetter?_append (firstLetter?_ofList _ _) _

theorem firstLetter?_severalJarsComment (jars : List String) :
    firstLetter? (severalJarsComment jars) = some 'M' :=
  firstLetter?_append (firstLetter?_append (firstLetter?_ofList _ _) _) _

theorem firstLetter?_newerReleaseComment (latest current : PluginVersion) :
    firstLetter? (newerReleaseComment latest current) = some 'A' :=
  firstLetter?_append (firstLetter?_append (firstLetter?_append
    (firstLetter?_append (firstLetter?_ofList _ _) _) _) _) _

theorem firstLetter?_unverifiedReleaseComment :
    firstLetter? unverifiedReleaseComment = some 'C' := firstLetter?_ofList _ _

theorem firstLetter?_jarComment {latest : LatestRelease} {entries : List String} {c : String}
    (h : jarComment? latest entries = some c) :
    ∃ letter ∈ ['R', 'A', 'C', 'M'], firstLetter? c = some letter := by
  unfold jarComment? at h
  split at h
  · cases h
    exact ⟨'R', by decide, firstLetter?_missingJarComment⟩
  · unfold releaseComment? at h
    split at h
    · split at h
      · cases h
        exact ⟨'A', by decide, firstLetter?_newerReleaseComment _ _⟩
      · cases h
    · cases h
      exact ⟨'C', by decide, firstLetter?_unverifiedReleaseComment⟩
    · cases h
  · cases h
    exact ⟨'M', by decide, firstLetter?_severalJarsComment _⟩

theorem firstLetter?_refusal {m : ShuffleManager} {c : String}
    (h : shuffleManagerOp m = .refuse Key.shuffleManager c) : firstLetter? c = some 'C' := by
  cases m with
  | supported className => cases h
  | unsupported version =>
    cases h
    exact firstLetter?_append (firstLetter?_append (firstLetter?_ofList _ _) _) _
  | undetermined =>
    cases h
    exact firstLetter?_append (firstLetter?_ofList _ _) _

end Rules

namespace Rule

variable {K : Type} [Quantity K] {ctx : Context K} {r : Rule} {op : Op}

/-- How the text of an operation of a rule is worded. -/
inductive Wording (ctx : Context K) : Rule → Op → String → Prop
  /-- The report of a shortfall. -/
  | shortfall (required executors : Nat) :
    Wording ctx .executor (.sayOnce (Memory.shortfallComment required executors))
      (Memory.shortfallComment required executors)
  /-- What explains a gap of the cluster. -/
  | gap {r : Rule} {op : Op} {c : String} (h : c ∈ ctx.clusterComments) : Wording ctx r op c
  /-- A remark in the words of an explanation, for a key that no rule recommends a value for. -/
  | notSet {r : Rule} {op : Op} : Wording ctx r op (missingComment Key.aqeBroadcastThreshold)
  | plain {r : Rule} {op : Op} {c : String}
    (h : ∃ letter ∈ Rules.plainLetters, firstLetter? c = some letter) : Wording ctx r op c
  | quoted {r : Rule} {op : Op} {c : String} (h : isQuoted Rules.remarkEndings c = true) :
    Wording ctx r op c

omit [Quantity K] in
theorem Wording.of_firstLetter? {c : String} {letter : Char} (h : firstLetter? c = some letter)
    (hmem : letter ∈ Rules.plainLetters) : Wording ctx r op c :=
  .plain ⟨letter, hmem, h⟩

theorem Writes.wording (h : Writes ctx r op) {c : String} (hc : op.text? = some c) :
    Wording ctx r op c := by
  cases h with
  | seed _ => cases hc
  | enforce _ => cases hc
  | recommend _ => cases hc
  | invalidate _ => cases hc
  | shortfall required executors =>
    cases hc
    exact .shortfall required executors
  | gap h =>
    cases hc
    exact .gap h
  | noShape =>
    cases hc
    exact .of_firstLetter? (firstLetter?_ofList 'C' _) (by decide)
  | missingPlugin =>
    cases hc
    exact .quoted (isQuoted_append (firstLetter?_append (firstLetter?_append (firstLetter?_append
      (firstLetter?_ofList _ _) _) _) _) (by decide))
  | noManager m h =>
    cases hc
    exact .of_firstLetter? (Rules.firstLetter?_refusal h) (by decide)
  | cacheCaveat =>
    cases hc
    exact .of_firstLetter? (firstLetter?_append (firstLetter?_ofList 'E' _) _) (by decide)
  | gpuMemory h =>
    cases hc
    exact .quoted (Rules.isQuoted_partitionMib h)
  | spilling h =>
    cases hc
    rcases Rules.spillBased_comment_cases h with hfirst | hquoted
    · exact .of_firstLetter? hfirst (by decide)
    · exact .quoted hquoted
  | taskMemory h =>
    cases hc
    exact .quoted (Rules.isQuoted_shufflePartitions h)
  | garbage =>
    cases hc
    exact .of_firstLetter? (firstLetter?_ofList 'A' _) (by decide)
  | broadcast h =>
    cases hc
    rcases Rules.broadcastComment?_cases h with rfl | hfirst
    · exact .notSet
    · exact .of_firstLetter? hfirst (by decide)
  | jars h =>
    cases hc
    obtain ⟨letter, hmem, hfirst⟩ := Rules.firstLetter?_jarComment h
    have hsub : ['R', 'A', 'C', 'M'] ⊆ Rules.plainLetters := by decide
    exact .of_firstLetter? hfirst (hsub hmem)
  | encoding =>
    cases hc
    exact .of_firstLetter? (firstLetter?_append (firstLetter?_ofList 'f' _) _) (by decide)
  | remedyCaveat h =>
    cases hc
    rw [List.mem_singleton.1 h]
    exact .quoted (isQuoted_append (firstLetter?_ofList _ _) (by decide))

/-- The text that a rule hands to the ledger starts with another letter than the report of a
shortfall, or it is one, of the rule of the executors. -/
theorem Writes.firstLetter?_ne (hgaps : ∀ c ∈ ctx.clusterComments, firstLetter? c ≠ some 'T')
    (h : Writes ctx r op) {c : String} (hc : op.text? = some c) :
    (r = .executor ∧ ∃ required executors,
        op = .sayOnce (Memory.shortfallComment required executors)) ∨
      firstLetter? c ≠ some 'T' := by
  cases h.wording hc with
  | shortfall required executors => exact Or.inl ⟨rfl, required, executors, rfl⟩
  | gap h => exact Or.inr (hgaps c h)
  | notSet =>
    exact Or.inr (firstLetter?_ne_of_isQuoted (readsMissing_missingComment _) (by decide))
  | plain h =>
    obtain ⟨letter, hmem, hfirst⟩ := h
    have hletter : letter ≠ 'T' := fun heq => absurd (heq ▸ hmem) (by decide)
    rw [hfirst]
    exact Or.inr fun heq => hletter (Option.some.inj heq)
  | quoted h => exact Or.inr (firstLetter?_ne_of_isQuoted h (by decide))

/-- A text of a rule that starts with a quote ends like a remark, but for the explanation that the
broadcast threshold is unset. So it ends in no way that is apart from those. -/
theorem Writes.not_isQuoted {endings : List (List Char)}
    (hapart : endingsApart Rules.remarkEndings endings = true)
    (hgaps : ∀ c ∈ ctx.clusterComments, startsPlain c = true) (h : Writes ctx r op) {c : String}
    (hc : op.text? = some c) :
    isQuoted endings c = false ∨ c = missingComment Key.aqeBroadcastThreshold := by
  cases h.wording hc with
  | shortfall required executors =>
    exact Or.inl (not_isQuoted_of_startsPlain (Memory.startsPlain_shortfallComment _ _))
  | gap h => exact Or.inl (not_isQuoted_of_startsPlain (hgaps c h))
  | notSet => exact Or.inr rfl
  | plain h =>
    exact Or.inl (not_isQuoted_of_startsPlain (startsPlain_of_firstLetter? h (by decide)))
  | quoted h => exact Or.inl (not_isQuoted_of_apart h hapart)

/-- No rule words a text like the line about a value of the user. -/
theorem Writes.isTame (hgaps : ∀ c ∈ ctx.clusterComments, startsPlain c = true)
    (h : Writes ctx r op) : op.IsTame := by
  intro c hc
  have hapart : endingsApart Rules.remarkEndings enforcedEndings = true := by decide
  rcases h.not_isQuoted hapart hgaps hc with hother | rfl
  · exact hother
  · exact not_isQuoted_of_apart (readsMissing_missingComment _) (by decide)

/-- The text that a rule hands to the ledger explains no value for an unset key, but for the text
about the broadcast threshold. -/
theorem Writes.not_readsMissing (hgaps : ∀ c ∈ ctx.clusterComments, startsPlain c = true)
    (h : Writes ctx r op) {c : String} (hc : op.text? = some c) :
    readsMissing c = false ∨ c = missingComment Key.aqeBroadcastThreshold :=
  h.not_isQuoted (by decide) hgaps hc

/-- No rule recommends a value for the broadcast threshold. -/
theorem Writes.key_ne_broadcastThreshold {key value : String}
    (h : Writes ctx r (.recommend key value)) : key ≠ Key.aqeBroadcastThreshold := by
  have htable : Key.aqeBroadcastThreshold ∉ all.flatMap recommends := by decide
  have hall : r ∈ all := by cases r <;> decide
  rintro rfl
  cases h with
  | recommend h => exact htable (List.mem_flatMap_of_mem hall h)

/-- A line that a rule makes sure to say once starts with another letter than a diagnostic, or it is
the report of a shortfall. -/
theorem Writes.firstLetter?_sayOnce
    (hgaps : ∀ c ∈ ctx.clusterComments, ∃ letter ∈ ['N', 'W', 'G'], firstLetter? c = some letter)
    {c : String} (h : Writes ctx r (.sayOnce c)) :
    (∃ required executors, c = Memory.shortfallComment required executors) ∨
      ∃ letter ∈ ['C', 'N', 'W', 'G', 'A', 'R', 'M', 'f'], firstLetter? c = some letter := by
  have hsub : ∀ {letters : List Char}, letters ⊆ ['C', 'N', 'W', 'G', 'A', 'R', 'M', 'f'] →
      (∃ letter ∈ letters, firstLetter? c = some letter) →
      ∃ letter ∈ ['C', 'N', 'W', 'G', 'A', 'R', 'M', 'f'], firstLetter? c = some letter :=
    fun hsub ⟨letter, hmem, hfirst⟩ => ⟨letter, hsub hmem, hfirst⟩
  cases h with
  | noShape => exact Or.inr ⟨'C', by decide, firstLetter?_ofList _ _⟩
  | shortfall required executors => exact Or.inl ⟨required, executors, rfl⟩
  | gap h => exact Or.inr (hsub (by decide) (hgaps c h))
  | garbage => exact Or.inr ⟨'A', by decide, firstLetter?_ofList _ _⟩
  | jars h => exact Or.inr (hsub (by decide) (Rules.firstLetter?_jarComment h))
  | encoding => exact Or.inr ⟨'f', by decide, firstLetter?_append (firstLetter?_ofList _ _) _⟩

end Rule

end SparkTuner
