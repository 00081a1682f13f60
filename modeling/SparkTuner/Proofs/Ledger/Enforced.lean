import SparkTuner.Proofs.Ledger.Skipped
import SparkTuner.Proofs.Ledger.Wording

/-!
# Values of the user

A value that the user gave is held against every later recommendation (`Holds.after`), a value that
is missing stays missing unless it is recommended or given (`IsOpen.after`), and the line that tells
of a value of the user is said by the operation that fixes it alone (`Notes.run`), where no
operation carries a text that reads like that line (`Op.IsTame`).
-/

namespace SparkTuner

open Ledger

/-! ## Texts of operations -/

namespace Ledger

/-- The text that an operation carries. -/
def Op.text? : Op → Option String
  | .registerCaveat _ c | .refuse _ c | .remark _ c | .say c | .sayOnce c => some c
  | .seed _ | .enforce .. | .recommend .. | .invalidate _ => none

/-- The text that an operation carries does not read like the line about a value of the user. -/
def Op.IsTame (op : Op) : Prop := ∀ c, op.text? = some c → readsEnforced c = false

theorem Op.IsTame.of_text {op : Op} {c : String} (h : op.text? = some c)
    (hc : readsEnforced c = false) : op.IsTame := by
  intro c' hc'
  rw [← Option.some.inj (h.symm.trans hc')]
  exact hc

theorem Op.IsTame.of_none {op : Op} (h : op.text? = none) : op.IsTame := by
  intro c hc
  rw [h] at hc
  cases hc

end Ledger

/-! ## The account of a key -/

/-- A value that was recommended and not given up is the one in the report. -/
theorem Entry.rendered?_of_recommended {e : Entry} {value : String}
    (hvalue : e.recommended = some value) (hresolved : e.unresolved = false)
    (hskip : e.skipped = false) : e.rendered? = some value := by
  have hcurrent : e.current? = some value := by simp [current?, hresolved, hvalue]
  have hresolution : e.resolution = .tuned ∨ e.resolution = .unchanged := by
    unfold resolution
    cases e.given <;> simp [hskip, hresolved, hvalue, Decidable.em, or_comm]
  rcases hresolution with h | h <;> simp [rendered?, h, hcurrent]

namespace Account

variable {fresh : Entry} {a : Account} {op : Op} {value : String}

/-- No caveat is registered that reads like the line about a value of the user. -/
def IsTame (a : Account) : Prop := ∀ c, a.caveat = some c → readsEnforced c = false

theorem caveat_caution (fresh : Entry) (a : Account) :
    (a.caution fresh).account.caveat = a.caveat := by
  unfold caution
  split
  · rfl
  · dsimp only
    split <;> rfl

theorem mem_said_caution {c : String} (h : c ∈ (a.caution fresh).said) : a.caveat = some c := by
  unfold caution at h
  cases hcav : a.caveat with
  | none => simp [hcav] at h
  | some c' =>
    rw [hcav] at h
    dsimp only at h
    split at h
    · cases h
    · rw [List.mem_singleton.1 h]

/-- Only a registration changes the caveat of a key. -/
theorem caveat_after (hop : ∀ key c, op ≠ .registerCaveat key c) :
    (a.after fresh op).account.caveat = a.caveat := by
  cases op with
  | registerCaveat key comment => exact absurd rfl (hop key comment)
  | recommend key value =>
    simp only [Account.after]
    split
    · rfl
    · split
      · exact caveat_caution fresh a
      · rw [caveat_caution, caveat_withEntry]
  | seed key => simp only [Account.after]; split <;> rfl
  | enforce key value => simp only [Account.after]; split <;> rfl
  | refuse key comment => simp only [Account.after]; split <;> rfl
  | invalidate key => simp only [Account.after]; split <;> rfl
  | remark key comment => rfl
  | say comment => rfl
  | sayOnce comment => rfl

theorem IsTame.after (ha : a.IsTame) (hop : op.IsTame) : (a.after fresh op).account.IsTame := by
  intro c hc
  by_cases hregister : ∃ key comment, op = .registerCaveat key comment
  · obtain ⟨key, comment, rfl⟩ := hregister
    exact hop c hc
  · rw [caveat_after fun key comment h => hregister ⟨key, comment, h⟩] at hc
    exact ha c hc

/-- What is said about a key reads like the line about a value of the user only if it is that line,
said as the value is fixed. -/
theorem IsTame.mem_said (ha : a.IsTame) (hop : op.IsTame) {c : String}
    (hc : c ∈ (a.after fresh op).said) :
    readsEnforced c = false ∨ ∃ key value, op = .enforce key value ∧ c = enforcedComment key := by
  cases op with
  | enforce key value =>
    simp only [Account.after] at hc
    split at hc
    · cases hc
    · dsimp only at hc
      split at hc
      · cases hc
      · exact Or.inr ⟨key, value, rfl, List.mem_singleton.1 hc⟩
  | recommend key value =>
    left
    simp only [Account.after] at hc
    split at hc
    · cases hc
    · split at hc
      · exact ha c (mem_said_caution hc)
      · rcases List.mem_append.1 hc with hwhy | hcav
        · exact not_readsEnforced_explanation (Option.mem_toList.1 hwhy)
        · have hregistered := mem_said_caution hcav
          exact ha c hregistered
  | refuse key comment =>
    left
    simp only [Account.after] at hc
    split at hc
    · cases hc
    · rw [List.mem_singleton.1 hc]
      exact hop _ rfl
  | remark key comment =>
    left
    simp only [Account.after] at hc
    split at hc
    · cases hc
    · rw [List.mem_singleton.1 hc]
      exact hop _ rfl
  | seed key => cases hc
  | registerCaveat key comment => cases hc
  | invalidate key =>
    simp only [Account.after] at hc
    split at hc <;> cases hc
  | say comment => cases hc
  | sayOnce comment => cases hc

/-- The account holds a value of the user. -/
def Holds (value : String) (a : Account) : Prop :=
  ∃ e, a.entry = some e ∧ e.enforced = true ∧ e.recommended = some value ∧ e.unresolved = false ∧
    e.skipped = false

/-- The account lacks a value that is needed. -/
def IsOpen (a : Account) : Prop :=
  ∃ e, a.entry = some e ∧ e.unresolved = true ∧ e.skipped = false

theorem Holds.skipped (ha : a.Holds value) : (a.entryOr fresh).skipped = false := by
  obtain ⟨e, he, -, -, -, hskip⟩ := ha
  rw [entryOr, he]
  exact hskip

theorem Holds.caution (ha : a.Holds value) : (a.caution fresh).account.Holds value := by
  obtain ⟨e, he, henforced, hvalue⟩ := ha
  unfold Account.caution
  split
  · exact ⟨e, he, henforced, hvalue⟩
  · dsimp only
    split
    · exact ⟨e, he, henforced, hvalue⟩
    · simp only [entryOr, he, Option.getD_some]
      exact ⟨_, rfl, henforced, hvalue⟩

/-- A value of the user is held until another one is given or the key is invalidated. -/
theorem Holds.after (ha : a.Holds value) (henforce : ∀ k v, op ≠ .enforce k v)
    (hinvalidate : ∀ k, op ≠ .invalidate k) : (a.after fresh op).account.Holds value := by
  have hkept := ha
  obtain ⟨e, he, henforced, hvalue⟩ := ha
  cases op with
  | seed key =>
    simp only [Account.after]
    split
    · exact ⟨e, by simp [entryOr, he], henforced, hvalue⟩
    · exact hkept
  | enforce key value => exact absurd rfl (henforce key value)
  | registerCaveat key comment => exact hkept
  | recommend key value =>
    simp only [Account.after]
    split
    · exact hkept
    · rw [he, Option.any_some, henforced, if_pos rfl]
      exact hkept.caution
  | refuse key comment =>
    simp only [Account.after]
    split
    · exact hkept
    · exact ⟨e, by simp [entryOr, he, henforced], henforced, hvalue⟩
  | remark key comment => exact hkept
  | invalidate key => exact absurd rfl (hinvalidate key)
  | say comment => exact hkept
  | sayOnce comment => exact hkept

/-- A value that is missing stays missing until one is recommended or given. -/
theorem IsOpen.after (ha : a.IsOpen) (henforce : ∀ k v, op ≠ .enforce k v)
    (hrecommend : ∀ k v, op ≠ .recommend k v) : (a.after fresh op).account.IsOpen := by
  have hkept := ha
  obtain ⟨e, he, hopen, hskip⟩ := ha
  cases op with
  | seed key =>
    simp only [Account.after]
    split
    · exact ⟨e, by simp [entryOr, he], hopen, hskip⟩
    · exact hkept
  | enforce key value => exact absurd rfl (henforce key value)
  | registerCaveat key comment => exact hkept
  | recommend key value => exact absurd rfl (hrecommend key value)
  | refuse key comment =>
    simp only [Account.after]
    split
    · exact hkept
    · refine ⟨_, rfl, ?_, ?_⟩ <;> rw [entryOr, he, Option.getD_some] <;> split <;>
        simp [hopen, hskip]
  | remark key comment => exact hkept
  | invalidate key =>
    simp only [Account.after]
    split
    · exact hkept
    · exact ⟨_, rfl, rfl, by rw [entryOr, he, Option.getD_some]; exact hskip⟩
  | say comment => exact hkept
  | sayOnce comment => exact hkept

/-- A key that is opened only stays untouched. -/
theorem IsUntouched.after_seed (ha : a.IsUntouched fresh) (key : String) :
    (a.after fresh (.seed key)).account.IsUntouched fresh := by
  simp only [Account.after, ha.entryOr]
  split
  · exact Or.inr rfl
  · exact ha

/-- The first value of the user for an untouched key is held, and told of. -/
theorem IsUntouched.after_enforce (ha : a.IsUntouched fresh) (hskip : fresh.skipped = false)
    (hfresh : fresh.enforced = false) (key value : String) :
    (a.after fresh (.enforce key value)).account.Holds value ∧
      (a.after fresh (.enforce key value)).said = [enforcedComment key] := by
  simp only [Account.after, ha.entryOr, hskip, hfresh, Bool.false_eq_true, if_false]
  exact ⟨⟨_, rfl, rfl, rfl, rfl, rfl⟩, trivial⟩

theorem skipped_caution (fresh : Entry) (a : Account) :
    ((a.caution fresh).account.entryOr fresh).skipped = (a.entryOr fresh).skipped := by
  unfold caution
  split
  · rfl
  · dsimp only
    split <;> rfl

/-- Whether a key is to be skipped is settled when its entry is opened. -/
theorem skipped_after (fresh : Entry) (a : Account) (op : Op) :
    ((a.after fresh op).account.entryOr fresh).skipped = (a.entryOr fresh).skipped := by
  cases op with
  | recommend key value =>
    simp only [Account.after]
    split
    · rfl
    · split
      · exact skipped_caution fresh a
      · exact skipped_caution fresh _
  | seed key => simp only [Account.after]; split <;> rfl
  | enforce key value => simp only [Account.after]; split <;> rfl
  | refuse key comment =>
    simp only [Account.after]
    split
    · rfl
    · rw [entryOr_withEntry]
      split <;> rfl
  | invalidate key => simp only [Account.after]; split <;> rfl
  | registerCaveat key comment => rfl
  | remark key comment => rfl
  | say comment => rfl
  | sayOnce comment => rfl

/-- A key that is not to be skipped lacks its value once it is invalidated. -/
theorem isOpen_after_invalidate (hskip : (a.entryOr fresh).skipped = false)
    (hfresh : fresh.skipped = false) (key : String) :
    (a.after fresh (.invalidate key)).account.IsOpen := by
  simp only [Account.after, hfresh, Bool.false_eq_true, if_false]
  exact ⟨_, rfl, rfl, hskip⟩

end Account

namespace Ledger

/-! ## The line in the comments -/

/-- The line about a value of the user for a key stands `n` times among the comments, and no caveat
reads like it. -/
structure Notes (l : Ledger) (key : String) (n : Nat) : Prop where
  count : l.comments.count (enforcedComment key) = n
  tame : ∀ k, (l.account k).IsTame

theorem isTame_apply {l : Ledger} {op : Op} (h : ∀ k, (l.account k).IsTame)
    (hop : op.IsTame) (k : String) : ((l.apply op).account k).IsTame := by
  by_cases hk : op.key? = some k
  · rw [account_apply_self l hk]
    exact (h k).after hop
  · rw [account_apply_ne l hk]
    exact h k

/-- The line is said by an operation that fixes the value of its key, and by no other. -/
theorem enforcedComment_not_mem_saidBy {l : Ledger} {op : Op} {key : String}
    (h : ∀ k, (l.account k).IsTame) (hop : op.IsTame) (hne : ∀ v, op ≠ .enforce key v) :
    enforcedComment key ∉ l.saidBy op := by
  intro hmem
  have hreads := readsEnforced_enforcedComment key
  cases hkey : op.key? with
  | some k =>
    rw [saidBy_of_key? l hkey] at hmem
    rcases (h k).mem_said hop hmem with hfalse | ⟨k', v, rfl, htext⟩
    · rw [hreads] at hfalse
      cases hfalse
    · rw [enforcedComment_injective htext] at hne
      exact hne v rfl
  | none =>
    have htext : ∀ c, readsEnforced c = false → enforcedComment key ≠ c := by
      rintro c hc rfl
      rw [hreads] at hc
      cases hc
    cases op with
    | say c => exact htext c (hop c rfl) (List.mem_singleton.1 hmem)
    | sayOnce c =>
      simp only [saidBy] at hmem
      split at hmem
      · cases hmem
      · exact htext c (hop c rfl) (List.mem_singleton.1 hmem)
    | _ => cases hkey

theorem Notes.apply {l : Ledger} {op : Op} {key : String} {n : Nat} (h : l.Notes key n)
    (hop : op.IsTame) (hne : ∀ v, op ≠ .enforce key v) : (l.apply op).Notes key n where
  count := by
    rw [comments_apply, List.count_append, h.count,
      List.count_eq_zero.2 (enforcedComment_not_mem_saidBy h.tame hop hne), Nat.add_zero]
  tame := isTame_apply h.tame hop

theorem Notes.run {l : Ledger} {ops : List Op} {key : String} {n : Nat} (h : l.Notes key n)
    (hops : ∀ op ∈ ops, op.IsTame) (hne : ∀ op ∈ ops, ∀ v, op ≠ .enforce key v) :
    (l.run ops).Notes key n := by
  induction ops generalizing l with
  | nil => exact h
  | cons op ops ih =>
    rw [run_cons]
    exact ih (h.apply (hops op List.mem_cons_self) (hne op List.mem_cons_self))
      (fun op' hop' => hops op' (List.mem_cons_of_mem _ hop'))
      (fun op' hop' => hne op' (List.mem_cons_of_mem _ hop'))

/-- The first value of the user for a key is told of once more. -/
theorem Notes.apply_enforce {l : Ledger} {key : String} {n : Nat} (h : l.Notes key n)
    (hskip : l.isSkipped key = false)
    (huntouched : (l.account key).IsUntouched (l.freshEntry key)) (value : String) :
    (l.apply (.enforce key value)).Notes key (n + 1) where
  count := by
    rw [comments_apply, saidBy_of_key? l rfl, (huntouched.after_enforce hskip rfl key value).2,
      List.count_append, h.count, List.count_singleton_self]
  tame := isTame_apply h.tame (.of_none rfl)

/-- Values for other keys are not about a key. -/
theorem key?_enforce_ne {pairs : List (String × String)} {key : String}
    (hne : ∀ p ∈ pairs, p.1 ≠ key) :
    ∀ op ∈ pairs.map fun p => Op.enforce p.1 p.2, op.key? ≠ some key := by
  intro op hop
  obtain ⟨p, hp, rfl⟩ := List.mem_map.1 hop
  exact fun hk => hne p hp (Option.some.inj hk)

/-- What the user gives for other keys leaves the line about a key alone. -/
theorem Notes.run_enforce {l : Ledger} {pairs : List (String × String)} {key : String} {n : Nat}
    (h : l.Notes key n) (hne : ∀ p ∈ pairs, p.1 ≠ key) :
    (l.run (pairs.map fun p => .enforce p.1 p.2)).Notes key n := by
  refine h.run (fun op hop => ?_) fun op hop v hv => ?_
  · obtain ⟨p, -, rfl⟩ := List.mem_map.1 hop
    exact .of_none rfl
  · exact key?_enforce_ne hne op hop (by rw [hv]; rfl)

/-- Of values with different keys, that of a key is held. -/
theorem holds_run_enforce {l : Ledger} {pairs : List (String × String)} {key value : String}
    (hmem : (key, value) ∈ pairs) (hkeys : pairs.Pairwise fun p q => p.1 ≠ q.1)
    (hskip : l.isSkipped key = false)
    (huntouched : (l.account key).IsUntouched (l.freshEntry key)) :
    ((l.run (pairs.map fun p => .enforce p.1 p.2)).account key).Holds value := by
  -- The keys differ, so that nothing before or after is about this one.
  obtain ⟨before, later, rfl⟩ := List.append_of_mem hmem
  obtain ⟨-, hlater, hbefore⟩ := List.pairwise_append.1 hkeys
  have hlater' := (List.pairwise_cons.1 hlater).1
  rw [List.map_append, List.map_cons, run_append, run_cons,
    account_run_of_forall_ne (key?_enforce_ne fun p hp => (hlater' p hp).symm),
    account_apply_self _ rfl, freshEntry_run,
    account_run_of_forall_ne
      (key?_enforce_ne fun p hp => hbefore p hp (key, value) List.mem_cons_self)]
  exact (huntouched.after_enforce hskip rfl key value).1

/-- Of values with different keys, that of a key is told of once. -/
theorem Notes.run_enforce_of_mem {l : Ledger} {pairs : List (String × String)} {key value : String}
    {n : Nat} (h : l.Notes key n) (hmem : (key, value) ∈ pairs)
    (hkeys : pairs.Pairwise fun p q => p.1 ≠ q.1) (hskip : l.isSkipped key = false)
    (huntouched : (l.account key).IsUntouched (l.freshEntry key)) :
    (l.run (pairs.map fun p => .enforce p.1 p.2)).Notes key (n + 1) := by
  obtain ⟨before, later, rfl⟩ := List.append_of_mem hmem
  obtain ⟨-, hlater, hbefore⟩ := List.pairwise_append.1 hkeys
  have hlater' := (List.pairwise_cons.1 hlater).1
  have hbefore' : ∀ p ∈ before, p.1 ≠ key :=
    fun p hp => hbefore p hp (key, value) List.mem_cons_self
  rw [List.map_append, List.map_cons, run_append, run_cons]
  refine Notes.run_enforce (Notes.apply_enforce (h.run_enforce hbefore') ?_ ?_ value)
    fun p hp => (hlater' p hp).symm
  · rw [isSkipped_run]
    exact hskip
  · rw [account_run_of_forall_ne (key?_enforce_ne hbefore'), freshEntry_run]
    exact huntouched

theorem skipped_entryOr_run (l : Ledger) (ops : List Op) (key : String) :
    (((l.run ops).account key).entryOr (l.freshEntry key)).skipped =
      ((l.account key).entryOr (l.freshEntry key)).skipped :=
  account_run_induction
    (P := fun a => (a.entryOr (l.freshEntry key)).skipped =
      ((l.account key).entryOr (l.freshEntry key)).skipped)
    (fun op _ _ a ha => (Account.skipped_after _ a op).trans ha) rfl

/-- Invalidating keys leaves each of them without its value, even one of the user. -/
theorem isOpen_run_invalidate {l : Ledger} {keys : List String} {key : String}
    (hmem : key ∈ keys) (hskip : l.isSkipped key = false)
    (h : ((l.account key).entryOr (l.freshEntry key)).skipped = false) :
    ((l.run (keys.map .invalidate)).account key).IsOpen := by
  obtain ⟨before, later, rfl⟩ := List.append_of_mem hmem
  rw [List.map_append, List.map_cons, run_append, run_cons]
  -- What comes after the key keeps it open; what comes before keeps it from being skipped.
  refine account_run_induction (fun op hop _ a ha => ?_) ?_
  · obtain ⟨k, -, rfl⟩ := List.mem_map.1 hop
    exact ha.after (fun _ _ h => by cases h) (fun _ _ h => by cases h)
  · rw [account_apply_self _ rfl, freshEntry_run]
    refine Account.isOpen_after_invalidate ?_ hskip key
    rw [skipped_entryOr_run]
    exact h

/-! ## What is reported -/

theorem value?_of_holds {l : Ledger} {key value : String} (h : (l.account key).Holds value) :
    l.finish.value? key = some value := by
  obtain ⟨e, he, -, hvalue, hresolved, hskip⟩ := h
  rw [entry_account] at he
  have hsubstantial : e.isSubstantial = true := by simp [Entry.isSubstantial, hvalue]
  rw [Recommendations.value?, entries_finish, he, Option.filter_some, if_pos hsubstantial]
  exact Entry.rendered?_of_recommended hvalue hresolved hskip

theorem value?_of_isOpen {l : Ledger} {key : String} (h : (l.account key).IsOpen) :
    l.finish.value? key = some placeholder := by
  obtain ⟨e, he, hopen, hskip⟩ := h
  rw [entry_account] at he
  have hsubstantial : e.isSubstantial = true := by simp [Entry.isSubstantial, hopen]
  have hrendered : e.rendered? = some placeholder := by
    simp [Entry.rendered?, Entry.resolution, hopen, hskip]
  rw [Recommendations.value?, entries_finish, he, Option.filter_some, if_pos hsubstantial]
  exact hrendered

/-- What is open is a placeholder in every listing. -/
theorem mem_properties_of_isOpen {l : Ledger} {key value : String} {filter : OutputFilter}
    (h : (l.account key).IsOpen) :
    (key, value) ∈ l.finish.properties filter ↔ value = placeholder := by
  obtain ⟨e, he, hopen, hskip⟩ := h
  rw [entry_account] at he
  have hresolution : e.resolution = .unresolved := by simp [Entry.resolution, hopen, hskip]
  have hsubstantial : e.isSubstantial = true := by simp [Entry.isSubstantial, hopen]
  have hentry : l.finish.entries.get? key = some e := by
    rw [entries_finish, he, Option.filter_some, if_pos hsubstantial]
  rw [Recommendations.mem_properties, hentry]
  constructor
  · rintro ⟨e', he', -, hrendered⟩
    cases he'
    rw [Entry.rendered?, hresolution] at hrendered
    exact (Option.some.inj hrendered).symm
  · rintro rfl
    refine ⟨e, rfl, ?_, by rw [Entry.rendered?, hresolution]⟩
    cases filter <;> simp [Recommendations.lists, hresolution]

end Ledger

end SparkTuner
