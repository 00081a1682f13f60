import SparkTuner.Proofs.Number.Numeral
import SparkTuner.Proofs.Text
import SparkTuner.Version.Semantic

/-!
# The grammar of semantic versions

What reads semantic versions takes the texts of the grammar and no others
(`semantic?_eq_some_iff`): three numbers, and after them labels of dotted identifiers
(`IsSemantic`).
-/

namespace SparkTuner.Version

open Number Text

/-! ## Grammar -/

/-- ASCII digits that make a number of 64 bits. -/
structure IsWord (ds : List Char) (n : ℕ) : Prop where
  ne_nil : ds ≠ []
  digits : ∀ c ∈ ds, isDigit c = true
  value : digitsValue ds = n
  fits : n ≤ max64

/-- No zero stands in front of other characters. -/
def HasNoLeadingZero (cs : List Char) : Prop := cs.head? = some '0' → cs = ['0']

/-- One of the three numbers of a semantic version. -/
structure IsNumber (ds : List Char) (n : ℕ) : Prop extends IsWord ds n where
  noLeadingZero : HasNoLeadingZero ds

/-- A nonempty text of ASCII letters, digits and hyphens. -/
structure IsIdentifier (id : List Char) : Prop where
  ne_nil : id ≠ []
  characters : ∀ c ∈ id, isIdentifierChar c = true

/-- An identifier that is no number with a zero in front. -/
structure IsPreRelease (id : List Char) : Prop extends IsIdentifier id where
  noLeadingZero : (∀ c ∈ id, isDigit c = true) → HasNoLeadingZero id

/-- At least one text of a kind, and points between them. -/
inductive IsDotted (kind : List Char → Prop) : List Char → Prop where
  | join {ids : List (List Char)} (hne : ids ≠ []) (hids : ∀ id ∈ ids, kind id) :
    IsDotted kind (join ['.'] ids)

/-- What may follow the three numbers: a pre-release, a build label, or one after the other. -/
inductive IsTail : List Char → Prop where
  | none : IsTail []
  | preRelease {label : List Char} (hlabel : IsDotted IsPreRelease label) : IsTail ('-' :: label)
  | build {label : List Char} (hlabel : IsDotted IsIdentifier label) : IsTail ('+' :: label)
  | both {label label' : List Char} (hlabel : IsDotted IsPreRelease label)
    (hlabel' : IsDotted IsIdentifier label') : IsTail ('-' :: (label ++ '+' :: label'))

/-- The text is a semantic version with these numbers. -/
inductive IsSemantic : List Char → Triple → Prop where
  | intro {major minor patch tail : List Char} {t : Triple} (hmajor : IsNumber major t.major)
    (hminor : IsNumber minor t.minor) (hpatch : IsNumber patch t.patch) (htail : IsTail tail) :
    IsSemantic (major ++ '.' :: (minor ++ '.' :: (patch ++ tail))) t

variable {cs ds tail label : List Char} {n : ℕ} {t : Triple}

/-! ## Numbers -/

theorem hasLeadingZero_eq_false_iff : hasLeadingZero cs = false ↔ HasNoLeadingZero cs := by
  unfold hasLeadingZero HasNoLeadingZero
  split
  next => simp
  next hmatch =>
    refine iff_of_true rfl fun hzero => ?_
    obtain ⟨rest, rfl⟩ := List.head?_eq_some_iff.1 hzero
    cases rest with
    | nil => rfl
    | cons c rest => exact absurd rfl (hmatch c rest)

theorem readWord_eq_some_iff : (readDigits? ds).filter (· ≤ max64) = some n ↔ IsWord ds n := by
  rw [Option.filter_eq_some_iff, readDigits?_eq_some_iff, decide_eq_true_eq]
  constructor
  · rintro ⟨⟨hne, hdigits, hvalue⟩, hfits⟩
    exact ⟨hne, hdigits, hvalue, hfits⟩
  · rintro ⟨hne, hdigits, hvalue, hfits⟩
    exact ⟨⟨hne, hdigits, hvalue⟩, hfits⟩

theorem number?_eq_some_iff : number? ds = some n ↔ IsNumber ds n := by
  unfold number?
  cases hzero : hasLeadingZero ds with
  | true =>
    refine iff_of_false nofun fun h => ?_
    cases hzero.symm.trans (hasLeadingZero_eq_false_iff.2 h.noLeadingZero)
  | false =>
    rw [if_neg Bool.false_ne_true, readWord_eq_some_iff]
    exact ⟨fun h => ⟨h, hasLeadingZero_eq_false_iff.1 hzero⟩, IsNumber.toIsWord⟩

/-! ## Labels -/

theorem IsIdentifier.point_not_mem {id : List Char} (h : IsIdentifier id) : '.' ∉ id :=
  fun hmem => absurd (h.characters '.' hmem) (by decide)

theorem IsIdentifier.plus_not_mem {id : List Char} (h : IsIdentifier id) : '+' ∉ id :=
  fun hmem => absurd (h.characters '+' hmem) (by decide)

theorem isLabel_iff {allowed : List Char → Bool} {kind : List Char → Prop}
    (hkind : ∀ id, kind id ↔ IsIdentifier id ∧ allowed id = true) :
    isLabel allowed cs = true ↔ IsDotted kind cs := by
  have hpart : ∀ id, kind id ↔
      (!id.isEmpty && id.all isIdentifierChar && allowed id) = true := by
    intro id
    rw [hkind, Bool.and_eq_true, Bool.and_eq_true, List.all_eq_true]
    refine and_congr_left' ⟨fun h => ⟨by simpa using h.ne_nil, h.characters⟩, fun h => ?_⟩
    exact ⟨by simpa using h.1, h.2⟩
  rw [isLabel, List.all_eq_true]
  constructor
  · intro h
    rw [← join_parts '.' cs]
    exact .join (parts_ne_nil '.' cs) fun id hid => (hpart id).2 (h id hid)
  · intro h
    cases h with
    | @join ids hne hids =>
      have hpoint : ∀ id ∈ ids, '.' ∉ id :=
        fun id hid => ((hkind id).1 (hids id hid)).1.point_not_mem
      rw [parts_join hne hpoint]
      exact fun id hid => (hpart id).1 (hids id hid)

theorem isLabel_build_iff : isLabel (fun _ => true) cs = true ↔ IsDotted IsIdentifier cs :=
  isLabel_iff fun _ => by simp

theorem isLabel_preRelease_iff :
    isLabel isPreReleaseIdentifier cs = true ↔ IsDotted IsPreRelease cs := by
  refine isLabel_iff fun id => ?_
  have hallowed : isPreReleaseIdentifier id = true ↔
      ((∀ c ∈ id, isDigit c = true) → HasNoLeadingZero id) := by
    rw [isPreReleaseIdentifier, Bool.not_eq_true', Bool.and_eq_false_imp, List.all_eq_true,
      hasLeadingZero_eq_false_iff]
  rw [hallowed]
  exact ⟨fun h => ⟨h.toIsIdentifier, h.noLeadingZero⟩, fun h => ⟨h.1, h.2⟩⟩

theorem IsDotted.plus_not_mem (h : IsDotted IsPreRelease label) : '+' ∉ label := by
  cases h with
  | join _ hids => exact not_mem_join (by decide) fun id hid => (hids id hid).plus_not_mem

theorem isRun_of_plus_not_mem {rest : List Char} (h : '+' ∉ label)
    (hrest : ∀ c, rest.head? = some c → c = '+') : IsRun (· != '+') label rest := by
  refine ⟨fun c hc => ?_, fun c hc => ?_⟩
  · exact bne_iff_ne.2 (ne_of_mem_of_not_mem hc h)
  · rw [hrest c hc]
    rfl

/-! ## What follows the numbers -/

/-- A pre-release ends where the build label starts, since no identifier has a plus sign. -/
theorem isSuffix_cons_minus {rest : List Char} (h : IsRun (· != '+') label rest) :
    isSuffix ('-' :: (label ++ rest)) = true ↔
      IsDotted IsPreRelease label ∧
        (rest = [] ∨ ∃ label', rest = '+' :: label' ∧ IsDotted IsIdentifier label') := by
  rw [isSuffix, h.takeWhile_eq, h.dropWhile_eq, Bool.and_eq_true, isLabel_preRelease_iff]
  refine and_congr_right' ?_
  cases rest with
  | nil => simp
  | cons c label' =>
    have hplus : c = '+' := by simpa using h.stops c rfl
    subst hplus
    simp [isLabel_build_iff]

theorem isSuffix_iff : isSuffix cs = true ↔ IsTail cs := by
  constructor
  · intro h
    unfold isSuffix at h
    split at h
    · exact .none
    next cs =>
      obtain ⟨label, rest, rfl, hrun⟩ := exists_run (· != '+') cs
      obtain ⟨hlabel, rfl | ⟨label', rfl, hlabel'⟩⟩ := (isSuffix_cons_minus hrun).1 h
      · rw [List.append_nil]
        exact .preRelease hlabel
      · exact .both hlabel hlabel'
    next cs => exact .build (isLabel_build_iff.1 h)
    · cases h
  · rintro (_ | hlabel | hlabel | ⟨hlabel, hlabel'⟩)
    case none => rfl
    case preRelease label =>
      have hrun : IsRun (· != '+') label [] := isRun_of_plus_not_mem hlabel.plus_not_mem nofun
      have h := (isSuffix_cons_minus hrun).2 ⟨hlabel, .inl rfl⟩
      rwa [List.append_nil] at h
    case build => exact isLabel_build_iff.2 hlabel
    case both label label' =>
      have hrun : IsRun (· != '+') label ('+' :: label') := by
        refine isRun_of_plus_not_mem hlabel.plus_not_mem fun c hc => ?_
        exact (Option.some.inj hc).symm
      exact (isSuffix_cons_minus hrun).2 ⟨hlabel, .inr ⟨label', rfl, hlabel'⟩⟩

/-- The last of the three numbers ends where the hyphen or the plus sign stands. -/
theorem IsTail.isRun {p : Char → Bool} (h : IsTail tail) (hds : ∀ c ∈ ds, p c = true)
    (hminus : p '-' = false) (hplus : p '+' = false) : IsRun p ds tail := by
  cases h with
  | none => exact isRun_nil hds
  | preRelease => exact isRun_cons hds hminus
  | build => exact isRun_cons hds hplus
  | both => exact isRun_cons hds hminus

/-! ## The whole text -/

theorem isDigit_point : isDigit '.' = false := rfl

theorem leadingDigits_append {rest : List Char} (h : IsRun isDigit ds rest) :
    leadingDigits (ds ++ rest) = (ds, rest) := by
  rw [leadingDigits, h.takeWhile_eq, h.dropWhile_eq]

/-- The texts of the grammar are the ones that are read, with their own numbers. -/
theorem semantic?_eq_some_iff : semantic? cs = some t ↔ IsSemantic cs t := by
  constructor
  · intro h
    obtain ⟨major, rest, rfl, hmajor⟩ := exists_run isDigit cs
    rw [semantic?, leadingDigits_append hmajor] at h
    split at h
    next _ rest heq =>
      cases heq
      obtain ⟨minor, rest, rfl, hminor⟩ := exists_run isDigit rest
      rw [leadingDigits_append hminor] at h
      split at h
      next _ rest heq =>
        cases heq
        obtain ⟨patch, tail, rfl, hpatch⟩ := exists_run isDigit rest
        rw [leadingDigits_append hpatch] at h
        dsimp only at h
        split at h
        next h1 h2 h3 h4 =>
          cases h
          exact .intro (number?_eq_some_iff.1 h1) (number?_eq_some_iff.1 h2)
            (number?_eq_some_iff.1 h3) (isSuffix_iff.1 h4)
        next => cases h
      next => cases h
    next => cases h
  · rintro ⟨hmajor, hminor, hpatch, htail⟩
    simp only [semantic?, leadingDigits_append (isRun_cons hmajor.digits isDigit_point),
      leadingDigits_append (isRun_cons hminor.digits isDigit_point),
      leadingDigits_append (htail.isRun hpatch.digits rfl rfl), number?_eq_some_iff.2 hmajor,
      number?_eq_some_iff.2 hminor, number?_eq_some_iff.2 hpatch, isSuffix_iff.2 htail]

end SparkTuner.Version
