import SparkTuner.Proofs.Ledger.Account

/-!
# Keys to be skipped are inert

Operations about a skipped key say nothing and leave all other keys alone, so that a run and the
same run without them agree (`Agree.erase`). The skipped key itself never gets more than a fresh
entry (`isUntouched_serve`), and the report has no value for it.
-/

namespace SparkTuner

open Ledger

/-- Whether a key that an operation or a call is about is to be skipped. -/
def KeyPolicy.skips (policy : KeyPolicy) (key? : Option String) : Bool :=
  key?.any policy.skip.contains

/-! ## One key -/

namespace Account

variable {fresh : Entry} {a : Account}

theorem said_of_skipped (h : fresh.skipped) (op : Op) : (a.after fresh op).said = [] := by
  cases op <;> simp [after, h]

/-- An account of a skipped key has no entry, or a fresh one. -/
def IsUntouched (fresh : Entry) (a : Account) : Prop := a.entry = none ∨ a.entry = some fresh

theorem IsUntouched.entryOr (h : a.IsUntouched fresh) : a.entryOr fresh = fresh := by
  rcases h with h | h <;> simp [Account.entryOr, h]

theorem IsUntouched.after (hs : fresh.skipped) (h : a.IsUntouched fresh) (op : Op) :
    (a.after fresh op).account.IsUntouched fresh := by
  cases op with
  | seed key =>
    simp only [Account.after, h.entryOr]
    split
    · exact Or.inr rfl
    · exact h
  | registerCaveat key comment => exact h
  | _ => simpa [Account.after, hs] using h

end Account

namespace Ledger

/-! ## Two runs -/

/-- Two ledgers of one source and policy that said the same and hold the same for every key that is
not skipped. -/
structure Agree (l m : Ledger) : Prop where
  source : l.source = m.source
  policy : l.policy = m.policy
  comments : l.comments = m.comments
  account : ∀ k, l.isSkipped k = false → l.account k = m.account k

theorem Agree.refl (l : Ledger) : Agree l l := ⟨rfl, rfl, rfl, fun _ _ => rfl⟩

theorem Agree.freshEntry {l m : Ledger} (h : Agree l m) (k : String) :
    l.freshEntry k = m.freshEntry k :=
  freshEntry_congr h.source h.policy k

/-- An operation about a skipped key keeps the agreement when one ledger leaves it out. -/
theorem Agree.apply_skipped {l m : Ledger} (h : Agree l m) {op : Op} {key : String}
    (hkey : op.key? = some key) (hskip : l.isSkipped key = true) : Agree (l.apply op) m where
  source := (source_apply l op).trans h.source
  policy := (policy_apply l op).trans h.policy
  comments := by
    have hsaid : l.saidBy op = [] := by
      rw [saidBy_of_key? l hkey]
      exact Account.said_of_skipped hskip op
    rw [comments_apply, hsaid, List.append_nil, h.comments]
  account k hk := by
    have hne : op.key? ≠ some k := by
      intro hk'
      have hkk : key = k := Option.some.inj (hkey.symm.trans hk')
      rw [isSkipped_apply, ← hkk, hskip] at hk
      cases hk
    rw [account_apply_ne l hne]
    exact h.account k (by rwa [isSkipped_apply] at hk)

/-- An operation about a key that is not skipped, or about none, keeps the agreement. -/
theorem Agree.apply {l m : Ledger} (h : Agree l m) {op : Op}
    (hop : ∀ k, op.key? = some k → l.isSkipped k = false) : Agree (l.apply op) (m.apply op) where
  source := by rw [source_apply, source_apply, h.source]
  policy := by rw [policy_apply, policy_apply, h.policy]
  comments := by
    have hsaid : l.saidBy op = m.saidBy op := by
      cases hk : op.key? with
      | none => exact saidBy_congr_of_key?_eq_none hk h.comments
      | some k =>
        rw [saidBy_of_key? l hk, saidBy_of_key? m hk, h.account k (hop k hk), h.freshEntry k]
    rw [comments_apply, comments_apply, h.comments, hsaid]
  account k hk := by
    rw [isSkipped_apply] at hk
    by_cases hkey : op.key? = some k
    · rw [account_apply_self l hkey, account_apply_self m hkey, h.account k hk, h.freshEntry k]
    · rw [account_apply_ne l hkey, account_apply_ne m hkey, h.account k hk]

/-- A run agrees with the same run without the operations about skipped keys. -/
theorem Agree.erase {l m : Ledger} (h : Agree l m) (ops : List Op) :
    Agree (l.run ops) (m.run (ops.filter fun op => !l.policy.skips op.key?)) := by
  induction ops generalizing l m with
  | nil => exact h
  | cons op ops ih =>
    rw [run_cons, List.filter_cons]
    cases hs : l.policy.skips op.key? with
    | true =>
      obtain ⟨key, hkey, hskip⟩ := (Option.any_eq_true _ _).1 hs
      have hstep := ih (h.apply_skipped hkey hskip)
      rw [policy_apply] at hstep
      exact hstep
    | false =>
      have hop : ∀ k, op.key? = some k → l.isSkipped k = false := by
        intro k hk
        rw [hk] at hs
        exact hs
      have hstep := ih (h.apply hop)
      rw [policy_apply] at hstep
      exact hstep

/-- Calls about skipped keys make no difference to what is said, nor to any other key. -/
theorem Agree.serve_erase (source : KeyMap String) (policy : KeyPolicy) (calls : List Call) :
    Agree ((start source policy).serve calls)
      ((start source policy).serve (calls.filter fun c => !policy.skips c.key?)) := by
  unfold serve
  rw [flatMap_ops_filter fun key? => !policy.skips key?]
  exact (Agree.refl (start source policy)).erase (calls.flatMap Call.ops)

/-- A skipped key has no entry or a fresh one, whatever is asked of the ledger. -/
theorem isUntouched_serve {source : KeyMap String} {policy : KeyPolicy} {key : String}
    (h : key ∈ policy.skip) (calls : List Call) :
    (((start source policy).serve calls).account key).IsUntouched
      { given := source.get? key, skipped := true } := by
  have hfresh : (start source policy).freshEntry key =
      { given := source.get? key, skipped := true } := by
    have hskip : (start source policy).isSkipped key = true := List.contains_iff_mem.2 h
    rw [freshEntry, hskip]
    rfl
  refine account_run_induction (fun op _ _ a ha => ?_) (Or.inl rfl)
  rw [hfresh]
  exact ha.after rfl op

/-- Nothing is reported for a key whose entry, if it has one, is not to be touched. -/
theorem not_reported_of_skipped {l : Ledger} {key : String}
    (h : ∀ e, l.entry? key = some e → e.skipped) :
    l.finish.value? key = none ∧ ∀ filter value, (key, value) ∉ l.finish.properties filter := by
  have hnone : ∀ e, l.finish.entries.get? key = some e → e.rendered? = none := by
    intro e he
    rw [entries_finish, Option.filter_eq_some_iff] at he
    exact Entry.rendered?_of_skipped (h e he.1)
  constructor
  · exact Option.bind_eq_none_iff.2 hnone
  · intro filter value hmem
    obtain ⟨e, he, -, hv⟩ := Recommendations.mem_properties.1 hmem
    rw [hnone e he] at hv
    cases hv

/-- Skipped keys are inert. Without the calls about skipped keys a run says the same and ends with
the same entries for all other keys; a skipped key has no entry or a fresh one, and nothing is
reported for it. -/
theorem skipped_keys_inert (source : KeyMap String) (policy : KeyPolicy) (calls : List Call) :
    let l := (start source policy).serve calls
    let m := (start source policy).serve (calls.filter fun c => !policy.skips c.key?)
    l.comments = m.comments ∧
      (∀ key, key ∉ policy.skip → l.entry? key = m.entry? key) ∧
      ∀ key, key ∈ policy.skip →
        (l.entry? key = none ∨
          l.entry? key = some
            { given := source.get? key, recommended := none, enforced := false, skipped := true,
              unresolved := false, explained := false, caveatGiven := false }) ∧
        l.finish.value? key = none ∧
        ∀ filter value, (key, value) ∉ l.finish.properties filter := by
  intro l m
  have hagree : Agree l m := Agree.serve_erase source policy calls
  refine ⟨hagree.comments, fun key hkey => ?_, fun key hkey => ?_⟩
  · have hskip : l.isSkipped key = false := by
      simpa [l, serve, isSkipped, start] using hkey
    exact congrArg Account.entry (hagree.account key hskip)
  · have hentry : (l.account key).IsUntouched _ := isUntouched_serve hkey calls
    refine ⟨hentry, not_reported_of_skipped fun e he => ?_⟩
    rcases hentry with hnone | hfresh
    · exact absurd (hnone.symm.trans he) (by simp)
    · rw [← Option.some.inj (hfresh.symm.trans he)]

end Ledger

end SparkTuner
