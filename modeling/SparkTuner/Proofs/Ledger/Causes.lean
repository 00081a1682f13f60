import SparkTuner.Proofs.Ledger.Readings

/-!
# Which operations an entry comes from

What the last ledger of a run holds for a key was written by operations about the key: a value of
the user, a missing value and a recommendation each by operations of their own (`causes_run`), and a
caveat by its registration (`registerCaveat_mem_of_caveat`).
-/

namespace SparkTuner

open Ledger

namespace Account

/-- A caveat changes nothing of an entry but that it was given. -/
theorem caution_keeps (fresh : Entry) (a : Account) :
    ((a.caution fresh).account.entryOr fresh).explained = (a.entryOr fresh).explained ∧
    ((a.caution fresh).account.entryOr fresh).enforced = (a.entryOr fresh).enforced ∧
    ((a.caution fresh).account.entryOr fresh).unresolved = (a.entryOr fresh).unresolved := by
  unfold caution
  split
  · exact ⟨rfl, rfl, rfl⟩
  · dsimp only
    split <;> exact ⟨rfl, rfl, rfl⟩

/-- What an entry shows of the operations about it: the user's values, missing values and
recommendations come from operations of their own. -/
theorem causes_after (fresh : Entry) (a : Account) (op : Op) :
    (((a.after fresh op).account.entryOr fresh).enforced = true →
      (a.entryOr fresh).enforced = true ∨ ∃ k v, op = .enforce k v) ∧
    (((a.after fresh op).account.entryOr fresh).unresolved = true →
      (a.entryOr fresh).unresolved = true ∨ (∃ k, op = .invalidate k) ∨ ∃ k c, op = .refuse k c) ∧
    (((a.after fresh op).account.entryOr fresh).recommended.isSome = true →
      (a.entryOr fresh).recommended.isSome = true ∨ (∃ k v, op = .enforce k v) ∨
        ∃ k v, op = .recommend k v) := by
  cases op with
  | enforce key value =>
    simp only [Account.after]
    split
    · exact ⟨Or.inl, Or.inl, Or.inl⟩
    · exact ⟨fun _ => Or.inr ⟨key, value, rfl⟩, fun h => absurd h Bool.false_ne_true,
        fun _ => Or.inr (Or.inl ⟨key, value, rfl⟩)⟩
  | recommend key value =>
    have hrecommended : ∀ P : Prop, P ∨ (∃ k v, Op.recommend key value = .enforce k v) ∨
        ∃ k v, Op.recommend key value = .recommend k v :=
      fun _ => Or.inr (Or.inr ⟨key, value, rfl⟩)
    obtain ⟨-, henforced, hunresolved⟩ := caution_keeps fresh a
    simp only [Account.after]
    split
    · exact ⟨Or.inl, Or.inl, fun _ => hrecommended _⟩
    · split
      · rw [henforced, hunresolved]
        exact ⟨Or.inl, Or.inl, fun _ => hrecommended _⟩
      · obtain ⟨-, henforced', hunresolved'⟩ :=
          caution_keeps fresh (a.withEntry (recommended (a.entryOr fresh) key value))
        dsimp only
        rw [henforced', hunresolved']
        exact ⟨Or.inl, fun h => absurd h Bool.false_ne_true, fun _ => hrecommended _⟩
  | invalidate key =>
    simp only [Account.after]
    split
    · exact ⟨Or.inl, Or.inl, Or.inl⟩
    · exact ⟨fun h => absurd h Bool.false_ne_true, fun _ => Or.inr (Or.inl ⟨key, rfl⟩),
        fun h => absurd h Bool.false_ne_true⟩
  | refuse key comment =>
    have hrefused : ∀ P : Prop, P ∨ (∃ k, Op.refuse key comment = .invalidate k) ∨
        ∃ k c, Op.refuse key comment = .refuse k c :=
      fun _ => Or.inr (Or.inr ⟨key, comment, rfl⟩)
    simp only [Account.after]
    split
    · exact ⟨Or.inl, Or.inl, Or.inl⟩
    · rw [entryOr_withEntry]
      split <;> exact ⟨Or.inl, fun _ => hrefused _, Or.inl⟩
  | seed key =>
    simp only [Account.after]
    split <;> exact ⟨Or.inl, Or.inl, Or.inl⟩
  | registerCaveat key comment => exact ⟨Or.inl, Or.inl, Or.inl⟩
  | remark key comment => exact ⟨Or.inl, Or.inl, Or.inl⟩
  | say comment => exact ⟨Or.inl, Or.inl, Or.inl⟩
  | sayOnce comment => exact ⟨Or.inl, Or.inl, Or.inl⟩

end Account

namespace Ledger

/-- The state of an entry comes from operations about its key. -/
theorem causes_run (source : KeyMap String) (policy : KeyPolicy) (ops : List Op) (key : String) :
    ((((start source policy).run ops).entryOf key).enforced = true →
      ∃ v, .enforce key v ∈ ops) ∧
    ((((start source policy).run ops).entryOf key).unresolved = true →
      .invalidate key ∈ ops ∨ ∃ c, .refuse key c ∈ ops) ∧
    ((((start source policy).run ops).entryOf key).recommended.isSome = true →
      (∃ v, .enforce key v ∈ ops) ∨ ∃ v, .recommend key v ∈ ops) := by
  have hfresh : ((start source policy).run ops).freshEntry key =
      (start source policy).freshEntry key := freshEntry_run ..
  rw [← entryOr_account, hfresh]
  refine account_run_induction (P := fun a =>
    ((a.entryOr ((start source policy).freshEntry key)).enforced = true →
      ∃ v, .enforce key v ∈ ops) ∧
    ((a.entryOr ((start source policy).freshEntry key)).unresolved = true →
      .invalidate key ∈ ops ∨ ∃ c, .refuse key c ∈ ops) ∧
    ((a.entryOr ((start source policy).freshEntry key)).recommended.isSome = true →
      (∃ v, .enforce key v ∈ ops) ∨ ∃ v, .recommend key v ∈ ops))
    (fun op hop hkey a ⟨henforced, hunresolved, hrecommended⟩ => ?_) ?_
  · obtain ⟨henforced', hunresolved', hrecommended'⟩ :=
      Account.causes_after ((start source policy).freshEntry key) a op
    refine ⟨fun h => ?_, fun h => ?_, fun h => ?_⟩
    · rcases henforced' h with h | ⟨k, v, rfl⟩
      · exact henforced h
      · cases hkey
        exact ⟨v, hop⟩
    · rcases hunresolved' h with h | ⟨k, rfl⟩ | ⟨k, c, rfl⟩
      · exact hunresolved h
      · cases hkey
        exact Or.inl hop
      · cases hkey
        exact Or.inr ⟨c, hop⟩
    · rcases hrecommended' h with h | ⟨k, v, rfl⟩ | ⟨k, v, rfl⟩
      · exact hrecommended h
      · cases hkey
        exact Or.inl ⟨v, hop⟩
      · cases hkey
        exact Or.inr ⟨v, hop⟩
  · rw [account_start]
    exact ⟨fun h => absurd h Bool.false_ne_true, fun h => absurd h Bool.false_ne_true,
      fun h => absurd h Bool.false_ne_true⟩

/-- A caveat is one that was registered. -/
theorem registerCaveat_mem_of_caveat {source : KeyMap String} {policy : KeyPolicy} {ops : List Op}
    {key c : String} (h : ((start source policy).run ops).caveats.get? key = some c) :
    .registerCaveat key c ∈ ops := by
  have hregistered : ∀ c, (((start source policy).run ops).account key).caveat = some c →
      .registerCaveat key c ∈ ops := by
    refine account_run_induction (P := fun a => ∀ c, a.caveat = some c →
      .registerCaveat key c ∈ ops) (fun op hop hkey a ha c hc => ?_) ?_
    · by_cases hregister : ∃ k c', op = .registerCaveat k c'
      · obtain ⟨k, c', rfl⟩ := hregister
        cases hkey
        cases hc
        exact hop
      · rw [Account.caveat_after fun k c' h => hregister ⟨k, c', h⟩] at hc
        exact ha c hc
    · rw [account_start]
      intro c hc
      cases hc
  exact hregistered c h

/-- A caveat that was registered is never unregistered. -/
theorem caveat_run_of_mem {l : Ledger} {ops : List Op} {key comment : String}
    (h : .registerCaveat key comment ∈ ops) : ∃ c, (l.run ops).caveats.get? key = some c := by
  obtain ⟨before, later, rfl⟩ := List.append_of_mem h
  rw [run_append, run_cons]
  refine account_run_induction (P := fun a => ∃ c, a.caveat = some c)
    (fun op _ _ a ⟨c, hc⟩ => ?_) ⟨comment, ?_⟩
  · by_cases hregister : ∃ k c', op = .registerCaveat k c'
    · obtain ⟨k, c', rfl⟩ := hregister
      exact ⟨c', rfl⟩
    · exact ⟨c, (Account.caveat_after fun k c' h => hregister ⟨k, c', h⟩).trans hc⟩
  · rw [account_apply_self _ rfl]
    rfl

theorem given_entryOf_run (source : KeyMap String) (policy : KeyPolicy) (ops : List Op)
    (key : String) : (((start source policy).run ops).entryOf key).given = source.get? key := by
  have hfresh : ((start source policy).run ops).freshEntry key =
      (start source policy).freshEntry key := freshEntry_run ..
  rw [← entryOr_account, hfresh, (isSound_run source policy ops key).entryOr rfl |>.given]
  rfl

end Ledger

end SparkTuner
