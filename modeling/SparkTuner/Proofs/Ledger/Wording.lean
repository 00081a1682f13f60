import SparkTuner.Ledger.Basic

/-!
# How the ledger words its lines

Lines are told apart by the letter they start with and, where that is a quote, by the way they end.
The line about a value of the user, the explanation of a value for an unset key, and that of a value
which replaces another one end in different ways, so that no text reads like two of them
(`not_isQuoted_of_apart`). The first two also name their key (`enforcedComment_injective`,
`missingComment_injective`).
-/

namespace SparkTuner

/-! ## The two ends of a text -/

/-- The letter that a text starts with. -/
def firstLetter? (text : String) : Option Char := text.toList.head?

theorem firstLetter?_ofList (c : Char) (cs : List Char) :
    firstLetter? (String.ofList (c :: cs)) = some c := by
  rw [firstLetter?, String.toList_ofList, List.head?_cons]

theorem firstLetter?_append {a : String} {c : Char} (h : firstLetter? a = some c) (b : String) :
    firstLetter? (a ++ b) = some c := by
  unfold firstLetter? at h ⊢
  rw [String.toList_append, List.head?_append, h, Option.some_or]

namespace Ledger

/-- Whether a text starts with something else than a quote. -/
def startsPlain (text : String) : Bool := text.toList.head?.any (· != '\'')

/-- Whether a text starts with a quote and ends in one of these ways. -/
def isQuoted (endings : List (List Char)) (text : String) : Bool :=
  firstLetter? text == some '\'' && endings.any fun ending => ending.isSuffixOf text.toList

/-- No end of the one list is the end of one of the other. -/
def endingsApart (endings endings' : List (List Char)) : Bool :=
  endings.all fun ending => endings'.all fun ending' =>
    !ending.isSuffixOf ending' && !ending'.isSuffixOf ending

section Endings

variable {text : String} {endings endings' : List (List Char)}

theorem startsPlain_iff :
    startsPlain text = true ↔ ∃ letter, firstLetter? text = some letter ∧ letter ≠ '\'' := by
  simp [startsPlain, firstLetter?, Option.any_eq_true]

theorem startsPlain_of_firstLetter? {letters : List Char}
    (h : ∃ letter ∈ letters, firstLetter? text = some letter) (hquote : '\'' ∉ letters) :
    startsPlain text = true := by
  obtain ⟨letter, hmem, hfirst⟩ := h
  exact startsPlain_iff.2 ⟨letter, hfirst, fun heq => hquote (heq ▸ hmem)⟩

theorem isQuoted_iff : isQuoted endings text = true ↔
    firstLetter? text = some '\'' ∧ ∃ ending ∈ endings, ending <:+ text.toList := by
  simp [isQuoted]

/-- A text is given by its characters, so that nothing is to be computed but their comparison. -/
theorem isQuoted_ofList {cs : List Char}
    (h : (endings.any fun ending => ending.isSuffixOf ('\'' :: cs)) = true) :
    isQuoted endings (String.ofList ('\'' :: cs)) = true := by
  rw [isQuoted, firstLetter?_ofList, String.toList_ofList, h]
  rfl

/-- Of a text with several parts, the first and the last one decide. -/
theorem isQuoted_append {a : String} {cs : List Char} (ha : firstLetter? a = some '\'')
    (h : (endings.any fun ending => ending.isSuffixOf cs) = true) :
    isQuoted endings (a ++ String.ofList cs) = true := by
  obtain ⟨ending, hmem, hends⟩ := List.any_eq_true.1 h
  refine isQuoted_iff.2 ⟨firstLetter?_append ha _, ending, hmem, ?_⟩
  rw [String.toList_append, String.toList_ofList]
  exact (List.isSuffixOf_iff_suffix.1 hends).trans (List.suffix_append _ _)

theorem firstLetter?_of_isQuoted (h : isQuoted endings text = true) :
    firstLetter? text = some '\'' :=
  (isQuoted_iff.1 h).1

theorem firstLetter?_ne_of_isQuoted {letter : Char} (h : isQuoted endings text = true)
    (hne : letter ≠ '\'') : firstLetter? text ≠ some letter := by
  rw [firstLetter?_of_isQuoted h]
  exact fun heq => hne (Option.some.inj heq).symm

theorem not_isQuoted_of_startsPlain (h : startsPlain text = true) :
    isQuoted endings text = false := by
  obtain ⟨letter, hfirst, hne⟩ := startsPlain_iff.1 h
  exact Bool.eq_false_iff.2 fun hquoted => firstLetter?_ne_of_isQuoted hquoted hne hfirst

/-- Both ends of one text are ends of one another. -/
theorem not_isQuoted_of_apart (h : isQuoted endings text = true)
    (hapart : endingsApart endings endings' = true) : isQuoted endings' text = false := by
  refine Bool.eq_false_iff.2 fun h' => ?_
  obtain ⟨-, ending, hmem, hends⟩ := isQuoted_iff.1 h
  obtain ⟨-, ending', hmem', hends'⟩ := isQuoted_iff.1 h'
  have hne := List.all_eq_true.1 (List.all_eq_true.1 hapart ending hmem) ending' hmem'
  rcases List.suffix_or_suffix_of_suffix hends hends' with hsuffix | hsuffix
  · simp [List.isSuffixOf_iff_suffix.2 hsuffix] at hne
  · simp [List.isSuffixOf_iff_suffix.2 hsuffix] at hne

theorem isQuoted_mono (h : isQuoted endings text = true) (hsub : endings ⊆ endings') :
    isQuoted endings' text = true := by
  obtain ⟨hfirst, ending, hmem, hends⟩ := isQuoted_iff.1 h
  exact isQuoted_iff.2 ⟨hfirst, ending, hsub hmem, hends⟩

end Endings

/-! ## Values of the user -/

/-- How the line about a value of the user ends. -/
def enforcedEndings : List (List Char) := [['t', 'i', 'e', 's', '.']]

/-- Whether a text reads like the line about a value of the user. -/
def readsEnforced (text : String) : Bool := isQuoted enforcedEndings text

theorem readsEnforced_enforcedComment (key : String) :
    readsEnforced (enforcedComment key) = true :=
  isQuoted_append (firstLetter?_append (firstLetter?_ofList _ _) _) (by decide)

theorem enforcedComment_injective {key key' : String}
    (h : enforcedComment key = enforcedComment key') : key = key' := by
  have hlist := congrArg String.toList h
  unfold enforcedComment at hlist
  simp only [String.toList_append] at hlist
  exact String.toList_injective (List.append_cancel_left (List.append_cancel_right hlist))

/-! ## Values for unset keys -/

theorem mem_all_of_find? {key : String} {d : Definition} (h : Definition.find? key = some d) :
    d ∈ Definition.all :=
  List.mem_of_find?_eq_some h

/-- How the explanations end that the table has for values of unset keys. -/
def tableEndings : List (List Char) :=
  [['r', 's', ')', '.'], ['o', 'r', 'e', '.'], [')', ')', '.'], ['G', 'P', 'U', '.'],
    ['n', 'c', 'e', '.']]

/-- How the explanation ends that only names an unset key. -/
def notSetEndings : List (List Char) := [['s', 'e', 't', '.']]

/-- Whether a text reads like the explanation of a value for an unset key. -/
def readsMissing (text : String) : Bool := isQuoted (tableEndings ++ notSetEndings) text

/-- A key has the explanation of the table, or the one that only names the key. -/
theorem missingComment_cases (key : String) :
    missingComment key = "'" ++ key ++ "' was not set." ∨
      ∃ d ∈ Definition.all, d.key = key ∧ d.missingComment = some (missingComment key) := by
  unfold missingComment
  cases hfind : (Definition.find? key).bind (·.missingComment) with
  | none => exact Or.inl rfl
  | some c =>
    obtain ⟨d, hd, hc⟩ := Option.bind_eq_some_iff.1 hfind
    have hkey : d.key = key := by simpa using List.find?_some hd
    exact Or.inr ⟨d, mem_all_of_find? hd, hkey, hc⟩

theorem isQuoted_of_missing :
    ∀ d ∈ Definition.all, ∀ c, d.missingComment = some c → isQuoted tableEndings c = true := by
  simp only [Definition.all, List.forall_mem_cons, Option.some.injEq, forall_eq', reduceCtorEq,
    false_imp_iff, implies_true, true_and, and_true, List.not_mem_nil]
  refine ⟨?_, ?_, ?_, ?_, ?_, ?_⟩ <;> exact isQuoted_ofList (by decide)

theorem isQuoted_notSet (key : String) :
    isQuoted notSetEndings ("'" ++ key ++ "' was not set.") = true :=
  isQuoted_append (firstLetter?_append (firstLetter?_ofList _ _) _) (by decide)

theorem readsMissing_missingComment (key : String) : readsMissing (missingComment key) = true := by
  rcases missingComment_cases key with h | ⟨d, hd, -, hc⟩
  · rw [h]
    exact isQuoted_mono (isQuoted_notSet key) (List.subset_append_right _ _)
  · exact isQuoted_mono (isQuoted_of_missing d hd _ hc) (List.subset_append_left _ _)

/-- The text that only names a key is not one of the table. -/
theorem missing_ne_notSet {d : Definition} (hd : d ∈ Definition.all) {c : String}
    (hc : d.missingComment = some c) (key : String) : c ≠ "'" ++ key ++ "' was not set." := by
  rintro rfl
  have hother : endingsApart tableEndings notSetEndings = true := by decide
  cases (not_isQuoted_of_apart (isQuoted_of_missing d hd _ hc) hother).symm.trans
    (isQuoted_notSet key)

/-- No two keys share their explanation. -/
theorem missingComment_injective {key key' : String}
    (h : missingComment key = missingComment key') : key = key' := by
  have htable : ∀ d ∈ Definition.all.filter fun d => d.missingComment.isSome,
      ∀ d' ∈ Definition.all.filter fun d => d.missingComment.isSome,
        d.missingComment = d'.missingComment → d.key = d'.key := by
    decide
  rcases missingComment_cases key with hkey | ⟨d, hd, hkey, hc⟩ <;>
    rcases missingComment_cases key' with hkey' | ⟨d', hd', hkey', hc'⟩
  · rw [hkey, hkey'] at h
    have hlist := congrArg String.toList h
    simp only [String.toList_append] at hlist
    exact String.toList_injective (List.append_cancel_left (List.append_cancel_right hlist))
  · exact absurd (h.symm.trans hkey) (missing_ne_notSet hd' hc' key)
  · exact absurd (h.trans hkey') (missing_ne_notSet hd hc key')
  · have hsome : ∀ {d : Definition} {c : String}, d.missingComment = some c →
        d.missingComment.isSome = true := fun hc => by rw [hc]; rfl
    have hsame := htable d (List.mem_filter.2 ⟨hd, hsome hc⟩) d'
      (List.mem_filter.2 ⟨hd', hsome hc'⟩) (hc.trans ((congrArg some h).trans hc'.symm))
    exact hkey.symm.trans (hsame.trans hkey')

/-! ## Values in place of others -/

/-- How the explanations end that the table has for values in place of others. -/
def updateEndings : List (List Char) := [['i', 'o', 'n', '.']]

theorem isQuoted_updateComment {key c : String} (h : updateComment? key = some c) :
    isQuoted updateEndings c = true := by
  have htable : ∀ d ∈ Definition.all, ∀ c, d.updateComment = some c →
      isQuoted updateEndings c = true := by
    simp only [Definition.all, List.forall_mem_cons, Option.some.injEq, forall_eq', reduceCtorEq,
      false_imp_iff, implies_true, true_and, and_true, List.not_mem_nil]
    exact isQuoted_append (firstLetter?_ofList _ _) (by decide)
  obtain ⟨d, hd, hc⟩ := Option.bind_eq_some_iff.1 h
  exact htable d (mem_all_of_find? hd) c hc

/-- No explanation of a recommendation reads like the line about a value of the user. -/
theorem not_readsEnforced_explanation {e : Entry} {key value c : String}
    (h : explanation? e key value = some c) : readsEnforced c = false := by
  unfold explanation? at h
  split at h
  · cases h
  · split at h
    · cases h
      exact not_isQuoted_of_apart (readsMissing_missingComment key) (by decide)
    · split at h
      · cases h
      · exact not_isQuoted_of_apart (isQuoted_updateComment h) (by decide)

end Ledger

end SparkTuner
