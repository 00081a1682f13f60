import Mathlib.Tactic.NormNum
import SparkTuner.Proofs.Memory.Exact
import SparkTuner.Proofs.Number.Numeral
import SparkTuner.Proofs.Text
import SparkTuner.Size

/-!
# How sizes are written

A size is a decimal of ASCII digits, which a unit may follow (`Size.Spells`). What reads sizes takes
these texts and no others (`bytes?_eq_some_iff`), in any arithmetic. The text of a size in MiB is
one of them, so it is read back whatever bare numbers count (`mib?_ofMib`).
-/

namespace SparkTuner

open Number Text

/-! ## Units -/

namespace SizeUnit

/-- The letter of a unit. -/
def letter : SizeUnit → Char
  | byte => 'b'
  | kib => 'k'
  | mib => 'm'
  | gib => 'g'
  | tib => 't'
  | pib => 'p'

/-- The names of a unit in small letters: its letter, and the letter with `b` or `ib`. -/
def names (u : SizeUnit) : List (List Char) := [[u.letter], [u.letter, 'b'], [u.letter, 'i', 'b']]

variable {u : SizeUnit} {letters suffix : List Char}

theorem ofLetter?_letter (u : SizeUnit) : ofLetter? [u.letter] = some u := by
  cases u <;> rfl

theorem ofLetter?_eq_some_iff : ofLetter? letters = some u ↔ letters = [u.letter] := by
  constructor
  · intro h
    unfold ofLetter? at h
    split at h <;> cases h <;> rfl
  · rintro rfl
    exact ofLetter?_letter u

theorem stem_of_mem_names (h : letters ∈ u.names) : stem letters = [u.letter] := by
  simp only [names, List.mem_cons, List.not_mem_nil, or_false] at h
  rcases h with rfl | rfl | rfl <;> cases u <;> rfl

theorem mem_names_of_stem (h : stem letters = [u.letter]) : letters ∈ u.names := by
  unfold stem at h
  split at h
  next head heq =>
    have hhead : head = [u.letter] := List.reverse_eq_iff.1 h
    have hletters : letters = [u.letter, 'i', 'b'] := by
      rw [← List.reverse_reverse letters, heq, hhead]
      rfl
    exact hletters ▸ List.mem_of_mem_getLast? rfl
  next c head _ heq =>
    have hhead : c :: head = [u.letter] := List.reverse_eq_iff.1 h
    have hletters : letters = [u.letter, 'b'] := by
      rw [← List.reverse_reverse letters, heq, hhead]
      rfl
    exact hletters ▸ List.mem_cons_of_mem _ List.mem_cons_self
  next => exact h ▸ List.mem_cons_self

theorem ofSuffix?_eq_some_iff :
    ofSuffix? suffix = some u ↔ (trim suffix).map Char.toLower ∈ u.names := by
  rw [ofSuffix?, ofLetter?_eq_some_iff]
  exact ⟨mem_names_of_stem, stem_of_mem_names⟩

end SizeUnit

/-! ## Texts that are sizes -/

namespace Size

/-- ASCII digits with at most one point among them. They make the number `digits` if the point is
left out, and `places` of them follow it. -/
inductive IsDecimal : List Char → ℕ → ℕ → Prop where
  | whole {run : List Char} (hne : run ≠ []) (hdigits : ∀ c ∈ run, isDigit c = true) :
    IsDecimal run (digitsValue run) 0
  | point {whole places : List Char} (hne : whole ++ places ≠ [])
    (hdigits : ∀ c ∈ whole ++ places, isDigit c = true) :
    IsDecimal (whole ++ '.' :: places) (digitsValue (whole ++ places)) places.length

/-- The text is a decimal, and it counts `u`: the unit that is named after it, possibly behind
blanks, or else the one that bare numbers count. -/
inductive Spells (bare : SizeUnit) : List Char → ℕ → ℕ → SizeUnit → Prop where
  | bare {number : List Char} {digits places : ℕ} (hnumber : IsDecimal number digits places) :
    Spells bare number digits places bare
  | named {number gap name : List Char} {digits places : ℕ} {u : SizeUnit}
    (hnumber : IsDecimal number digits places) (hgap : ∀ c ∈ gap, isBlank c = true)
    (hname : name.map Char.toLower ∈ u.names) :
    Spells bare (number ++ (gap ++ name)) digits places u

variable {cs name : List Char} {digits places : ℕ} {bare u : SizeUnit} {text : String}

/-! ### Decimals -/

theorem not_mem_of_isDigit {run : List Char} (h : ∀ c ∈ run, isDigit c = true) : '.' ∉ run :=
  fun hpoint => absurd (h '.' hpoint) (by decide)

theorem isDecimal_of_readDecimal? (h : readDecimal? cs = some (digits, places)) :
    IsDecimal cs digits places := by
  unfold readDecimal? at h
  split at h
  next run hparts =>
    obtain ⟨-, -, hcs⟩ := parts_eq_iff.1 hparts
    obtain ⟨n, hread, heq⟩ := Option.map_eq_some_iff.1 h
    obtain ⟨hne, hdigits, rfl⟩ := readDigits?_eq_some_iff.1 hread
    cases heq
    rw [hcs]
    exact .whole hne hdigits
  next whole rest hparts =>
    obtain ⟨-, -, hcs⟩ := parts_eq_iff.1 hparts
    obtain ⟨n, hread, heq⟩ := Option.map_eq_some_iff.1 h
    obtain ⟨hne, hdigits, rfl⟩ := readDigits?_eq_some_iff.1 hread
    cases heq
    have hjoin : cs = whole ++ '.' :: rest := by
      rw [hcs]
      simp [join]
    rw [hjoin]
    exact .point hne hdigits
  next => cases h

theorem IsDecimal.readDecimal? (h : IsDecimal cs digits places) :
    readDecimal? cs = some (digits, places) := by
  unfold Size.readDecimal?
  cases h with
  | whole hne hdigits =>
    rw [parts_of_not_mem (not_mem_of_isDigit hdigits)]
    dsimp only
    rw [readDigits?_eq_some_iff.2 ⟨hne, hdigits, rfl⟩, Option.map_some]
  | @point whole rest hne hdigits =>
    have hwhole : '.' ∉ whole :=
      not_mem_of_isDigit fun c hc => hdigits c (List.mem_append_left rest hc)
    have hrest : '.' ∉ rest :=
      not_mem_of_isDigit fun c hc => hdigits c (List.mem_append_right whole hc)
    rw [parts_append hwhole, parts_of_not_mem hrest]
    dsimp only
    rw [readDigits?_eq_some_iff.2 ⟨hne, hdigits, rfl⟩, Option.map_some]

theorem IsDecimal.isNumeric (h : IsDecimal cs digits places) : ∀ c ∈ cs, isNumeric c = true := by
  intro c hc
  cases h with
  | whole hne hdigits => rw [Size.isNumeric, hdigits c hc, Bool.true_or]
  | @point whole rest hne hdigits =>
    by_cases hpoint : c = '.'
    · rw [hpoint]
      rfl
    · have hmem : c ∈ whole ++ rest := by
        simpa [List.mem_append, hpoint] using hc
      rw [Size.isNumeric, hdigits c hmem, Bool.true_or]

/-! ### Units after decimals -/

theorem isNumeric_of_isBlank {c : Char} (h : isBlank c = true) : isNumeric c = false := by
  have hdigit : isDigit c = false := by
    refine Bool.eq_false_iff.2 fun hdigit => ?_
    rw [isBlank_of_isDigit hdigit] at h
    cases h
  have hpoint : (c == '.') = false := by
    refine beq_false_of_ne ?_
    rintro rfl
    exact absurd h (by decide)
  rw [Size.isNumeric, hdigit, hpoint]
  rfl

theorem not_special_of_isAlpha {c : Char} (h : c.isAlpha = true) :
    isBlank c = false ∧ isNumeric c = false := by
  have hrange := range_of_isAlpha h
  constructor
  · simp only [isBlank, Bool.or_eq_false_iff, Bool.and_eq_false_iff, decide_eq_false_iff_not,
      beq_eq_false_iff_ne]
    omega
  · refine Bool.eq_false_iff.2 fun hnumeric => ?_
    simp only [Size.isNumeric, isDigit, Bool.or_eq_true, Bool.and_eq_true, decide_eq_true_eq,
      beq_iff_eq] at hnumeric
    rcases hnumeric with ⟨-, hnine⟩ | rfl
    · have hnine' : c.toNat ≤ 57 := hnine
      omega
    · exact absurd hrange (by decide)

section Names

variable (hname : name.map Char.toLower ∈ u.names)
include hname

theorem ne_nil_of_mem_names : name ≠ [] := by
  rintro rfl
  cases u <;> simp [SizeUnit.names] at hname

theorem isAlpha_of_mem_names : ∀ c ∈ name, c.isAlpha = true := by
  have hall : (name.map Char.toLower).all Char.isAlpha = true := by
    generalize name.map Char.toLower = small at hname
    simp only [SizeUnit.names, List.mem_cons, List.not_mem_nil, or_false] at hname
    rcases hname with rfl | rfl | rfl <;> cases u <;> rfl
  intro c hc
  exact isAlpha_of_isAlpha_toLower (List.all_eq_true.1 hall _ (List.mem_map_of_mem hc))

theorem isBlank_of_mem_names : ∀ c ∈ name, isBlank c = false :=
  fun c hc => (not_special_of_isAlpha (isAlpha_of_mem_names hname c hc)).1

theorem isRun_isBlank_name {gap : List Char} (hgap : ∀ c ∈ gap, isBlank c = true) :
    IsRun isBlank gap name :=
  ⟨hgap, fun c hc => isBlank_of_mem_names hname c (List.mem_of_mem_head? hc)⟩

theorem ofSuffix?_append {gap : List Char} (hgap : ∀ c ∈ gap, isBlank c = true) :
    SizeUnit.ofSuffix? (gap ++ name) = some u := by
  rw [SizeUnit.ofSuffix?_eq_some_iff, trim_append (isRun_isBlank_name hname hgap)]
  · exact hname
  · exact fun c hc => isBlank_of_mem_names hname c (List.mem_of_getLast? hc)

theorem isRun_isNumeric_suffix {number gap : List Char} (hnumber : IsDecimal number digits places)
    (hgap : ∀ c ∈ gap, isBlank c = true) : IsRun isNumeric number (gap ++ name) := by
  refine ⟨hnumber.isNumeric, fun c hc => ?_⟩
  rcases List.mem_append.1 (List.mem_of_mem_head? hc) with hc | hc
  · exact isNumeric_of_isBlank (hgap c hc)
  · exact (not_special_of_isAlpha (isAlpha_of_mem_names hname c hc)).2

end Names

/-- The unit that is counted in a text with so many characters after its number. -/
theorem spells_append_iff {number suffix : List Char} (hrun : IsRun isNumeric number suffix)
    (hlast : ∀ c, suffix.getLast? = some c → isBlank c = false) :
    Spells bare (number ++ suffix) digits places u ↔
      IsDecimal number digits places ∧
        (if suffix = [] then some bare else SizeUnit.ofSuffix? suffix) = some u := by
  constructor
  · intro h
    generalize hcs : number ++ suffix = cs at h
    cases h with
    | bare hnumber =>
      have hrun' := isRun_nil hnumber.isNumeric
      obtain ⟨rfl, rfl⟩ := hrun.unique hrun' (hcs.trans (List.append_nil cs).symm)
      exact ⟨hnumber, rfl⟩
    | @named _ gap name _ _ _ hnumber hgap hname =>
      have hrun' := isRun_isNumeric_suffix hname hnumber hgap
      obtain ⟨rfl, rfl⟩ := hrun.unique hrun' hcs
      have hsuffix : gap ++ name ≠ [] :=
        List.append_ne_nil_of_right_ne_nil gap (ne_nil_of_mem_names hname)
      exact ⟨hnumber, (if_neg hsuffix).trans (ofSuffix?_append hname hgap)⟩
  · rintro ⟨hnumber, hunit⟩
    by_cases hsuffix : suffix = []
    · rw [if_pos hsuffix] at hunit
      cases hunit
      rw [hsuffix, List.append_nil]
      exact .bare hnumber
    · rw [if_neg hsuffix] at hunit
      obtain ⟨gap, name, rfl, hgap⟩ := exists_run isBlank suffix
      have htrim : trim (gap ++ name) = name := by
        refine trim_append hgap fun c hc => hlast c ?_
        rw [List.getLast?_append, hc]
        rfl
      rw [SizeUnit.ofSuffix?_eq_some_iff, htrim] at hunit
      exact .named hnumber hgap.all hunit

theorem bytes?_eq_some_iff {K : Type} [Quantity K] {b : K} :
    bytes? K bare text = some b ↔ ∃ digits places u,
      Spells bare (trim text.toList) digits places u ∧
        b = Quantity.ofDecimal digits places * Quantity.ofNat u.bytes := by
  obtain ⟨number, suffix, hcs, hrun⟩ := exists_run isNumeric (trim text.toList)
  have hlast : ∀ c, suffix.getLast? = some c → isBlank c = false := by
    intro c hc
    have hend : (trim text.toList).getLast? = some c := by
      rw [hcs, List.getLast?_append, hc]
      rfl
    exact getLast?_trim hend
  simp only [bytes?, hcs, hrun.takeWhile_eq, hrun.dropWhile_eq, spells_append_iff hrun hlast]
  constructor
  · intro h
    split at h
    next digits places u hread hunit =>
      cases h
      exact ⟨digits, places, u, ⟨isDecimal_of_readDecimal? hread, hunit⟩, rfl⟩
    next => cases h
  · rintro ⟨digits, places, u, ⟨hnumber, hunit⟩, rfl⟩
    rw [hnumber.readDecimal?, hunit]

/-! ### Sizes in MiB -/

/-- The whole MiB in a decimal of units. -/
def wholeMib (K : Type) [Quantity K] (digits places : ℕ) (u : SizeUnit) : ℕ :=
  Quantity.floorWord (Quantity.ofDecimal digits places * Quantity.ofNat u.bytes /
    Quantity.ofNat SizeUnit.mib.bytes : K)

theorem mib?_of_spells (K : Type) [Quantity K]
    (h : Spells bare (trim text.toList) digits places u) :
    mib? K bare text = some (wholeMib K digits places u) := by
  have hbytes : bytes? K bare text = some _ := bytes?_eq_some_iff.2 ⟨digits, places, u, h, rfl⟩
  rw [mib?, hbytes, Option.map_some, wholeMib]

theorem mib?_eq_none_iff (K : Type) [Quantity K] : mib? K bare text = none ↔
    ∀ digits places u, ¬Spells bare (trim text.toList) digits places u := by
  constructor
  · intro hnone digits places u hspells
    cases hnone.symm.trans (mib?_of_spells K hspells)
  · intro hnot
    refine Option.eq_none_iff_forall_ne_some.2 fun n hn => ?_
    obtain ⟨b, hb, -⟩ := Option.map_eq_some_iff.1 hn
    obtain ⟨digits, places, u, hspells, -⟩ := bytes?_eq_some_iff.1 hb
    exact hnot digits places u hspells

/-- Whole numbers up to the bound are exact in the arithmetic, and turning them from MiB into bytes
and back does not change them. For binary64 the bound is `2 ^ 53`. -/
structure KeepsWhole (K : Type) [Quantity K] (bound : ℕ) : Prop where
  ofDecimal_eq : ∀ n ≤ bound, (Quantity.ofDecimal n 0 : K) = Quantity.ofNat n
  mul_div_eq : ∀ n ≤ bound,
    (Quantity.ofNat n * Quantity.ofNat SizeUnit.mib.bytes / Quantity.ofNat SizeUnit.mib.bytes : K) =
      Quantity.ofNat n
  floorWord_eq : ∀ n ≤ bound, Quantity.floorWord (Quantity.ofNat n : K) = n

theorem KeepsWhole.mono {K : Type} [Quantity K] {bound least : ℕ} (hK : KeepsWhole K bound)
    (h : least ≤ bound) : KeepsWhole K least where
  ofDecimal_eq n hn := hK.ofDecimal_eq n (hn.trans h)
  mul_div_eq n hn := hK.mul_div_eq n (hn.trans h)
  floorWord_eq n hn := hK.floorWord_eq n (hn.trans h)

theorem bytes_eq (u : SizeUnit) : (Quantity.ofNat u.bytes : ℚ) = 1024 ^ u.power := by
  rw [Memory.ofNat_eq]
  exact Nat.cast_pow 1024 u.power

theorem keepsWhole_rat : KeepsWhole ℚ max64 where
  ofDecimal_eq n _ := by
    show mkRat n 1 = n
    exact Rat.mkRat_one n
  mul_div_eq n _ := by
    have hbytes : (Quantity.ofNat SizeUnit.mib.bytes : ℚ) ≠ 0 := by
      rw [bytes_eq]
      positivity
    exact mul_div_cancel_right₀ _ hbytes
  floorWord_eq n hn := by
    rw [Memory.ofNat_eq, Memory.floorWord_eq, Nat.floor_natCast, Nat.min_eq_left hn]

theorem toList_ofMib (n : ℕ) : (ofMib n).toList = Nat.toDigits 10 n ++ ['m'] := by
  rw [ofMib, String.toList_append, Nat.toList_repr]
  exact congrArg _ String.toList_ofList

theorem isDecimal_toDigits (n : ℕ) : IsDecimal (Nat.toDigits 10 n) n 0 := by
  have hdecimal := IsDecimal.whole Nat.toDigits_ne_nil fun c (hc : c ∈ Nat.toDigits 10 n) =>
    isDigit_of_mem_toDigits hc
  rw [digitsValue_toDigits] at hdecimal
  exact hdecimal

theorem trim_ofMib (n : ℕ) : trim (ofMib n).toList = (ofMib n).toList := by
  refine trim_of_forall_not_blank fun c hc => ?_
  rw [toList_ofMib] at hc
  rcases List.mem_append.1 hc with hc | hc
  · exact isBlank_of_isDigit (isDigit_of_mem_toDigits hc)
  · rw [List.mem_singleton.1 hc]
    decide

/-- The text of a size names its unit, so that it does not matter what a bare number counts. -/
theorem spells_ofMib (bare : SizeUnit) (n : ℕ) : Spells bare (trim (ofMib n).toList) n 0 .mib := by
  have hname : ['m'].map Char.toLower ∈ SizeUnit.mib.names := List.mem_cons_self
  rw [trim_ofMib, toList_ofMib]
  exact @Spells.named bare (Nat.toDigits 10 n) [] ['m'] n 0 .mib (isDecimal_toDigits n) nofun hname

theorem wholeMib_mib {K : Type} [Quantity K] {bound n : ℕ} (hK : KeepsWhole K bound)
    (h : n ≤ bound) : wholeMib K n 0 .mib = n := by
  rw [wholeMib, hK.ofDecimal_eq n h, hK.mul_div_eq n h, hK.floorWord_eq n h]

/-- Reading back the text of a size gives the size. -/
theorem mib?_ofMib (bare : SizeUnit) {n : ℕ} (h : n ≤ max64) : mib? ℚ bare (ofMib n) = some n := by
  rw [mib?_of_spells ℚ (spells_ofMib bare n), wholeMib_mib keepsWhole_rat h]

/-- The number that a decimal stands for. -/
theorem ofDecimal_eq (digits places : ℕ) :
    (Quantity.ofDecimal digits places : ℚ) = digits / 10 ^ places := by
  have hpower : ((Nat.pow 10 places : ℕ) : ℚ) = 10 ^ places := Nat.cast_pow 10 places
  show mkRat digits (Nat.pow 10 places) = _
  rw [Rat.mkRat_eq_div, Int.cast_natCast, hpower]

end Size

open Size in
/-- A text is a size, in any arithmetic, exactly if without the blanks around it it is a decimal
that a unit may follow, and its value is the number times the bytes of the unit. The tuner reads
back what it writes. -/
theorem sizes_are_read_exactly (bare : SizeUnit) :
    (∀ (K : Type) [Quantity K] (text : String), (bytes? K bare text).isSome = true ↔
      ∃ digits places u, Spells bare (trim text.toList) digits places u) ∧
    (∀ (text : String) (b : ℚ), bytes? ℚ bare text = some b ↔
      ∃ digits places u, Spells bare (trim text.toList) digits places u ∧
        b = digits / 10 ^ places * 1024 ^ u.power) ∧
    ∀ n ≤ max64, mib? ℚ bare (ofMib n) = some n := by
  refine ⟨?_, ?_, fun n hn => mib?_ofMib bare hn⟩
  · intro K _ text
    rw [Option.isSome_iff_exists]
    constructor
    · rintro ⟨b, hb⟩
      obtain ⟨digits, places, u, hspells, -⟩ := bytes?_eq_some_iff.1 hb
      exact ⟨digits, places, u, hspells⟩
    · rintro ⟨digits, places, u, hspells⟩
      exact ⟨_, bytes?_eq_some_iff.2 ⟨digits, places, u, hspells, rfl⟩⟩
  · intro text b
    rw [bytes?_eq_some_iff]
    simp only [ofDecimal_eq, bytes_eq]

/-- Blanks may stand around a size and before its unit, whose letters may be of either case. -/
theorem fractionOfKib_read_exactly :
    Size.bytes? ℚ .mib " 1.5 KiB " = some 1536 ∧
      Size.mib? ℚ .byte (Size.ofMib (2 ^ 53)) = some (2 ^ 53) := by
  obtain ⟨-, hread, -⟩ := sizes_are_read_exactly .mib
  obtain ⟨-, -, hwritten⟩ := sizes_are_read_exactly .byte
  have hdigits : ∀ c ∈ ['1'] ++ ['5'], isDigit c = true := List.all_eq_true.1 rfl
  have hgap : ∀ c ∈ [' '], isBlank c = true := List.all_eq_true.1 rfl
  have hnumber : Size.IsDecimal ['1', '.', '5'] 15 1 :=
    .point (List.append_ne_nil_of_right_ne_nil ['1'] (List.cons_ne_nil '5' [])) hdigits
  have hspells : Size.Spells .mib (trim " 1.5 KiB ".toList) 15 1 .kib :=
    @Size.Spells.named .mib ['1', '.', '5'] [' '] ['K', 'i', 'B'] 15 1 .kib hnumber hgap (by decide)
  refine ⟨(hread _ _).2 ⟨15, 1, .kib, hspells, ?_⟩, hwritten (2 ^ 53) (by decide)⟩
  norm_num [SizeUnit.power]

end SparkTuner
