import Mathlib.Data.List.DropRight
import SparkTuner.Text.Blank
import SparkTuner.Text.Cut

/-!
# Runs, blanks and parts of texts

A text is read by its longest runs (`IsRun`), the blanks around it are no part of it
(`trim_append`), and it has exactly one cut at a separator (`parts_eq_iff`).
-/

namespace SparkTuner.Text

/-! ## Runs -/

section Runs

variable {α : Type} {p : α → Bool} {run rest : List α}

/-- A text starts with a run of members that satisfy `p`, and the rest does not go on with one. -/
structure IsRun (p : α → Bool) (run rest : List α) : Prop where
  all : ∀ c ∈ run, p c = true
  stops : ∀ c, rest.head? = some c → p c = false

theorem exists_run (p : α → Bool) (cs : List α) :
    ∃ run rest, cs = run ++ rest ∧ IsRun p run rest := by
  refine ⟨cs.takeWhile p, cs.dropWhile p, List.takeWhile_append_dropWhile.symm, ?_, ?_⟩
  · intro c hc
    exact List.mem_takeWhile_imp hc
  · intro c hc
    have hstop := List.head?_dropWhile_not p cs
    rw [hc] at hstop
    exact hstop

namespace IsRun

theorem dropWhile_rest (h : IsRun p run rest) : rest.dropWhile p = rest := by
  cases rest with
  | nil => rfl
  | cons c cs => exact List.dropWhile_cons_of_neg (by simp [h.stops c rfl])

theorem takeWhile_eq (h : IsRun p run rest) : (run ++ rest).takeWhile p = run := by
  have hrest : rest.takeWhile p = [] := by
    cases rest with
    | nil => rfl
    | cons c cs => exact List.takeWhile_cons_of_neg (by simp [h.stops c rfl])
  rw [List.takeWhile_append_of_pos h.all, hrest, List.append_nil]

theorem dropWhile_eq (h : IsRun p run rest) : (run ++ rest).dropWhile p = rest := by
  rw [List.dropWhile_append_of_pos h.all, h.dropWhile_rest]

/-- A text starts with one run only. -/
theorem unique {run' rest' : List α} (h : IsRun p run rest) (h' : IsRun p run' rest')
    (heq : run ++ rest = run' ++ rest') : run = run' ∧ rest = rest' := by
  constructor
  · rw [← h.takeWhile_eq, heq, h'.takeWhile_eq]
  · rw [← h.dropWhile_eq, heq, h'.dropWhile_eq]

end IsRun

theorem isRun_nil (h : ∀ c ∈ run, p c = true) : IsRun p run [] := ⟨h, nofun⟩

theorem isRun_cons {c : α} (h : ∀ c ∈ run, p c = true) (hc : p c = false) :
    IsRun p run (c :: rest) := by
  refine ⟨h, fun d hd => ?_⟩
  cases hd
  exact hc

end Runs

/-! ## Blanks -/

section Blanks

variable {cs gap word : List Char}

theorem getLast?_dropEndWhile {p : Char → Bool} {c : Char}
    (h : (dropEndWhile p cs).getLast? = some c) : p c = false := by
  obtain ⟨hne, rfl⟩ := List.mem_getLast?_eq_getLast h
  have hlast : ¬p ((dropEndWhile p cs).getLast hne) = true := List.rdropWhile_last_not p cs hne
  simpa using hlast

theorem dropEndWhile_eq_self {p : Char → Bool} (h : ∀ c, cs.getLast? = some c → p c = false) :
    dropEndWhile p cs = cs := by
  refine List.rdropWhile_eq_self_iff.2 fun hne => ?_
  simp [h _ (List.getLast?_eq_some_getLast hne)]

theorem getLast?_trim {c : Char} (h : (trim cs).getLast? = some c) : isBlank c = false :=
  getLast?_dropEndWhile h

/-- Blanks in front of a word are taken away. -/
theorem trim_append (hgap : IsRun isBlank gap word)
    (hlast : ∀ c, word.getLast? = some c → isBlank c = false) : trim (gap ++ word) = word := by
  rw [trim, hgap.dropWhile_eq, dropEndWhile_eq_self hlast]

theorem trim_isPrefix (cs : List Char) : trim cs <+: cs.dropWhile isBlank :=
  List.rdropWhile_prefix isBlank _

theorem mem_of_mem_trim {c : Char} (h : c ∈ trim cs) : c ∈ cs :=
  (List.dropWhile_suffix isBlank).subset ((trim_isPrefix cs).subset h)

theorem head?_trim {c : Char} (h : (trim cs).head? = some c) : isBlank c = false := by
  obtain ⟨gone, hgone⟩ := trim_isPrefix cs
  have hstop := List.head?_dropWhile_not isBlank cs
  rw [← hgone, List.head?_append, h] at hstop
  exact hstop

/-- No blank is left at the ends. -/
theorem trim_trim (cs : List Char) : trim (trim cs) = trim cs := by
  have hgap : IsRun isBlank [] (trim cs) := ⟨nofun, fun _ => head?_trim⟩
  exact trim_append hgap fun _ => getLast?_trim

theorem trim_of_forall_not_blank (h : ∀ c ∈ cs, isBlank c = false) : trim cs = cs := by
  have hgap : IsRun isBlank [] cs := by
    refine ⟨nofun, fun c hc => h c ?_⟩
    exact List.mem_of_mem_head? hc
  exact trim_append hgap fun c hc => h c (List.mem_of_getLast? hc)

end Blanks

/-! ## Letter case -/

theorem range_of_isAlpha {c : Char} (h : c.isAlpha = true) :
    65 ≤ c.toNat ∧ c.toNat ≤ 90 ∨ 97 ≤ c.toNat ∧ c.toNat ≤ 122 := by
  rcases Bool.or_eq_true_iff.1 h with hupper | hlower
  · exact Or.inl (of_decide_eq_true hupper)
  · obtain ⟨hlow, hhigh⟩ := Bool.and_eq_true_iff.1 hlower
    exact Or.inr ⟨of_decide_eq_true hlow, of_decide_eq_true hhigh⟩

theorem isAlpha_of_isAlpha_toLower {c : Char} (h : c.toLower.isAlpha = true) :
    c.isAlpha = true := by
  by_cases hupper : c.isUpper = true
  · exact Bool.or_eq_true_iff.2 (Or.inl hupper)
  · have hsame : c.toLower = c := dif_neg fun hrange => hupper (decide_eq_true hrange)
    rwa [hsame] at h

/-! ## Parts -/

section Parts

variable {sep : Char} {cs part : List Char}

theorem parts_append_parts (cs ds : List Char) :
    parts sep (cs ++ sep :: ds) = parts sep cs ++ parts sep ds := by
  induction cs with
  | nil =>
    obtain ⟨p, ps, hparts⟩ := List.exists_cons_of_ne_nil (parts_ne_nil sep ds)
    simp [parts, hparts]
  | cons c cs ih =>
    obtain ⟨p, ps, hparts⟩ := List.exists_cons_of_ne_nil (parts_ne_nil sep cs)
    simp only [List.cons_append, parts, ih, hparts]
    split <;> rfl

theorem parts_of_not_mem (h : sep ∉ cs) : parts sep cs = [cs] := by
  induction cs with
  | nil => rfl
  | cons c cs ih =>
    rw [List.mem_cons, not_or] at h
    simp [parts, ih h.2, Ne.symm h.1]

theorem parts_append (h : sep ∉ part) (cs : List Char) :
    parts sep (part ++ sep :: cs) = part :: parts sep cs := by
  rw [parts_append_parts, parts_of_not_mem h, List.singleton_append]

theorem not_mem_of_mem_parts (h : part ∈ parts sep cs) : sep ∉ part := by
  induction cs generalizing part with
  | nil =>
    rw [List.mem_singleton.1 h]
    exact List.not_mem_nil
  | cons c cs ih =>
    simp only [parts] at h
    cases hparts : parts sep cs with
    | nil => exact absurd hparts (parts_ne_nil sep cs)
    | cons p ps =>
      rw [hparts] at h
      have hp : sep ∉ p := ih (hparts ▸ List.mem_cons_self)
      have hps : ∀ q ∈ ps, sep ∉ q := fun q hq => ih (hparts ▸ List.mem_cons_of_mem p hq)
      dsimp only at h
      split at h
      · rcases List.mem_cons.1 h with rfl | h
        · exact List.not_mem_nil
        · rcases List.mem_cons.1 h with rfl | h
          · exact hp
          · exact hps part h
      next hc =>
        rcases List.mem_cons.1 h with rfl | h
        · rw [List.mem_cons, not_or]
          exact ⟨Ne.symm hc, hp⟩
        · exact hps part h

theorem parts_join {ps : List (List Char)} (hne : ps ≠ []) (h : ∀ p ∈ ps, sep ∉ p) :
    parts sep (join [sep] ps) = ps := by
  induction ps with
  | nil => exact absurd rfl hne
  | cons p ps ih =>
    have hp : sep ∉ p := h p List.mem_cons_self
    cases ps with
    | nil => exact parts_of_not_mem hp
    | cons q ps =>
      have hrest := ih (List.cons_ne_nil q ps) fun p' hp' => h p' (List.mem_cons_of_mem p hp')
      have hjoin : join [sep] (p :: q :: ps) = p ++ sep :: join [sep] (q :: ps) := by
        simp [join]
      rw [hjoin, parts_append hp, hrest]

theorem not_mem_join {ps : List (List Char)} {c : Char} (hc : c ≠ sep) (h : ∀ p ∈ ps, c ∉ p) :
    c ∉ join [sep] ps := by
  induction ps with
  | nil => exact List.not_mem_nil
  | cons p ps ih =>
    have hp : c ∉ p := h p List.mem_cons_self
    have hrest := ih fun p' hp' => h p' (List.mem_cons_of_mem p hp')
    cases ps with
    | nil => exact hp
    | cons q ps => simp [join, hc, hp, hrest]

/-- A text is cut into parts without the separator, in one way only. -/
theorem parts_eq_iff {ps : List (List Char)} :
    parts sep cs = ps ↔ ps ≠ [] ∧ (∀ p ∈ ps, sep ∉ p) ∧ cs = join [sep] ps := by
  constructor
  · rintro rfl
    exact ⟨parts_ne_nil sep cs, fun _ => not_mem_of_mem_parts, (join_parts sep cs).symm⟩
  · rintro ⟨hne, h, rfl⟩
    exact parts_join hne h

end Parts

theorem occursIn_iff {needle cs : List Char} : occursIn needle cs = true ↔ needle <:+: cs := by
  induction cs with
  | nil => rw [occursIn, List.isEmpty_iff, List.infix_nil]
  | cons c cs ih =>
    rw [occursIn, Bool.or_eq_true, List.isPrefixOf_iff_prefix, ih, List.infix_cons_iff]

end SparkTuner.Text
