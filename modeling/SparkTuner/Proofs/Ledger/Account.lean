import SparkTuner.Ledger.Recommendations

/-!
# The ledger as one account for each key

A ledger holds an account for each key and one list of comments. An operation about a key changes
the account of that key alone, and what is said on the occasion depends on that account alone
(`account_apply_self`, `comments_apply`). Everything that a run does to one key is therefore an
induction over accounts (`account_run_induction`).
-/

namespace SparkTuner

open Ledger

/-- What a ledger holds for one key. -/
structure Account where
  entry : Option Entry := none
  /-- The caveat registered for the key. -/
  caveat : Option String := none
  deriving DecidableEq

namespace Account

/-- An account after an operation, and what is said on the occasion. -/
structure Outcome where
  account : Account
  said : List String := []

/-- The entry of an account, `fresh` while it has none. -/
def entryOr (a : Account) (fresh : Entry) : Entry := a.entry.getD fresh

/-- The account with another entry. -/
def withEntry (a : Account) (e : Entry) : Account := { a with entry := some e }

/-- Gives the registered caveat, unless it was given before. -/
def caution (fresh : Entry) (a : Account) : Outcome :=
  match a.caveat with
  | none => ⟨a, []⟩
  | some comment =>
    if (a.entryOr fresh).caveatGiven then ⟨a, []⟩
    else ⟨a.withEntry { a.entryOr fresh with caveatGiven := true }, [comment]⟩

/-- The entry of a key after a recommendation that is taken. -/
def recommended (e : Entry) (key value : String) : Entry :=
  { e with
    recommended := some value
    unresolved := false
    explained := e.explained || (explanation? e key value).isSome }

/-- An account after an operation about its key. An entry is opened as `fresh`, which also tells the
value in the source and whether the key is to be skipped. -/
def after (fresh : Entry) (a : Account) : Op → Outcome
  | .seed _ => ⟨if fresh.given.isSome then a.withEntry (a.entryOr fresh) else a, []⟩
  | .enforce key value =>
    if fresh.skipped then ⟨a, []⟩
    else
      ⟨a.withEntry { a.entryOr fresh with
          enforced := true, recommended := some value, unresolved := false, explained := true },
        if (a.entryOr fresh).enforced then [] else [enforcedComment key]⟩
  | .registerCaveat _ comment => ⟨{ a with caveat := some comment }, []⟩
  | .recommend key value =>
    if fresh.skipped then ⟨a, []⟩
    else if a.entry.any (·.enforced) then a.caution fresh
    else
      let e := a.entryOr fresh
      let o := (a.withEntry (recommended e key value)).caution fresh
      ⟨o.account, (explanation? e key value).toList ++ o.said⟩
  | .refuse _ comment =>
    if fresh.skipped then ⟨a, []⟩
    else
      let e := a.entryOr fresh
      ⟨a.withEntry (if e.enforced then e else { e with unresolved := true }), [comment]⟩
  | .remark _ comment => ⟨a, if fresh.skipped then [] else [comment]⟩
  | .invalidate _ =>
    if fresh.skipped then ⟨a, []⟩
    else
      ⟨a.withEntry { a.entryOr fresh with
          unresolved := true, recommended := none, enforced := false }, []⟩
  | .say _ | .sayOnce _ => ⟨a, []⟩

@[simp] theorem entryOr_withEntry (a : Account) (e fresh : Entry) :
    (a.withEntry e).entryOr fresh = e := rfl

@[simp] theorem entry_withEntry (a : Account) (e : Entry) : (a.withEntry e).entry = some e := rfl

@[simp] theorem caveat_withEntry (a : Account) (e : Entry) :
    (a.withEntry e).caveat = a.caveat := rfl

end Account

namespace Ledger

/-- The account of a key. -/
def account (l : Ledger) (key : String) : Account := ⟨l.entry? key, l.caveats.get? key⟩

/-- What is said when an operation is carried out. -/
def saidBy (l : Ledger) : Op → List String
  | .say comment => [comment]
  | .sayOnce comment => if l.comments.contains comment then [] else [comment]
  | op => (op.key?.map fun key => ((l.account key).after (l.freshEntry key) op).said).getD []

/-! ## What no operation changes -/

@[simp] theorem source_giveCaveat (l : Ledger) (key : String) :
    (l.giveCaveat key).source = l.source := by
  unfold giveCaveat
  split
  · rfl
  · dsimp only; split <;> rfl

@[simp] theorem policy_giveCaveat (l : Ledger) (key : String) :
    (l.giveCaveat key).policy = l.policy := by
  unfold giveCaveat
  split
  · rfl
  · dsimp only; split <;> rfl

@[simp] theorem source_apply (l : Ledger) (op : Op) : (l.apply op).source = l.source := by
  cases op <;> simp only [apply, seed, enforce, registerCaveat, recommend, refuse, remark,
    invalidate, sayOnce] <;> (repeat' split) <;> simp [setEntry, say, sayAll]

@[simp] theorem policy_apply (l : Ledger) (op : Op) : (l.apply op).policy = l.policy := by
  cases op <;> simp only [apply, seed, enforce, registerCaveat, recommend, refuse, remark,
    invalidate, sayOnce] <;> (repeat' split) <;> simp [setEntry, say, sayAll]

@[simp] theorem source_run (l : Ledger) (ops : List Op) : (l.run ops).source = l.source := by
  induction ops generalizing l with
  | nil => rfl
  | cons op ops ih => exact (ih _).trans (source_apply l op)

@[simp] theorem policy_run (l : Ledger) (ops : List Op) : (l.run ops).policy = l.policy := by
  induction ops generalizing l with
  | nil => rfl
  | cons op ops ih => exact (ih _).trans (policy_apply l op)

/-- What a key is opened as follows from the source and the policy. -/
theorem freshEntry_congr {l m : Ledger} (hs : l.source = m.source) (hp : l.policy = m.policy)
    (key : String) : l.freshEntry key = m.freshEntry key := by
  simp [freshEntry, isSkipped, hs, hp]

@[simp] theorem freshEntry_apply (l : Ledger) (op : Op) (key : String) :
    (l.apply op).freshEntry key = l.freshEntry key :=
  freshEntry_congr (source_apply l op) (policy_apply l op) key

@[simp] theorem freshEntry_run (l : Ledger) (ops : List Op) (key : String) :
    (l.run ops).freshEntry key = l.freshEntry key :=
  freshEntry_congr (source_run l ops) (policy_run l ops) key

@[simp] theorem isSkipped_apply (l : Ledger) (op : Op) (key : String) :
    (l.apply op).isSkipped key = l.isSkipped key := by
  simp [isSkipped]

@[simp] theorem isSkipped_run (l : Ledger) (ops : List Op) (key : String) :
    (l.run ops).isSkipped key = l.isSkipped key := by
  simp [isSkipped]

/-! ## What an operation changes -/

@[simp] theorem entry_account (l : Ledger) (key : String) :
    (l.account key).entry = l.entry? key := rfl

@[simp] theorem caveat_account (l : Ledger) (key : String) :
    (l.account key).caveat = l.caveats.get? key := rfl

@[simp] theorem entryOr_account (l : Ledger) (key : String) :
    (l.account key).entryOr (l.freshEntry key) = l.entryOf key := rfl

@[simp] theorem given_freshEntry (l : Ledger) (key : String) :
    (l.freshEntry key).given = l.source.get? key := rfl

@[simp] theorem skipped_freshEntry (l : Ledger) (key : String) :
    (l.freshEntry key).skipped = l.isSkipped key := rfl

@[simp] theorem account_say (l : Ledger) (c k : String) : (l.say c).account k = l.account k := rfl

@[simp] theorem account_sayAll (l : Ledger) (cs : List String) (k : String) :
    (l.sayAll cs).account k = l.account k := rfl

@[simp] theorem freshEntry_setEntry (l : Ledger) (key k : String) (e : Entry) :
    (l.setEntry key e).freshEntry k = l.freshEntry k := rfl

@[simp] theorem freshEntry_sayAll (l : Ledger) (cs : List String) (k : String) :
    (l.sayAll cs).freshEntry k = l.freshEntry k := rfl

@[simp] theorem comments_setEntry (l : Ledger) (key : String) (e : Entry) :
    (l.setEntry key e).comments = l.comments := rfl

@[simp] theorem comments_say (l : Ledger) (c : String) :
    (l.say c).comments = l.comments ++ [c] := rfl

@[simp] theorem comments_sayAll (l : Ledger) (cs : List String) :
    (l.sayAll cs).comments = l.comments ++ cs := rfl

@[simp] theorem account_setEntry_self (l : Ledger) (key : String) (e : Entry) :
    (l.setEntry key e).account key = (l.account key).withEntry e := by
  simp [account, setEntry, entry?, Account.withEntry]

theorem account_setEntry_ne (l : Ledger) {key k : String} (h : key ≠ k) (e : Entry) :
    (l.setEntry key e).account k = l.account k := by
  simp [account, setEntry, entry?, h.symm]

@[simp] theorem account_giveCaveat_self (l : Ledger) (key : String) :
    (l.giveCaveat key).account key = ((l.account key).caution (l.freshEntry key)).account := by
  simp only [giveCaveat, Account.caution, caveat_account, entryOr_account]
  cases l.caveats.get? key with
  | none => rfl
  | some comment => by_cases hg : (l.entryOf key).caveatGiven <;> simp [hg]

theorem account_giveCaveat_ne (l : Ledger) {key k : String} (h : key ≠ k) :
    (l.giveCaveat key).account k = l.account k := by
  simp only [giveCaveat]
  cases l.caveats.get? key with
  | none => rfl
  | some comment =>
    by_cases hg : (l.entryOf key).caveatGiven <;> simp [hg, account_setEntry_ne _ h]

@[simp] theorem comments_giveCaveat (l : Ledger) (key : String) :
    (l.giveCaveat key).comments =
      l.comments ++ ((l.account key).caution (l.freshEntry key)).said := by
  simp only [giveCaveat, Account.caution, caveat_account, entryOr_account]
  cases l.caveats.get? key with
  | none => simp
  | some comment => by_cases hg : (l.entryOf key).caveatGiven <;> simp [hg, say, setEntry]

theorem saidBy_of_key? (l : Ledger) {op : Op} {k : String} (h : op.key? = some k) :
    l.saidBy op = ((l.account k).after (l.freshEntry k) op).said := by
  cases op <;> cases h <;> rfl

/-- What is said when an operation is about no key depends on what was said before. -/
theorem saidBy_congr_of_key?_eq_none {l m : Ledger} {op : Op} (h : op.key? = none)
    (hc : l.comments = m.comments) : l.saidBy op = m.saidBy op := by
  cases op with
  | say comment => rfl
  | sayOnce comment => simp only [saidBy, hc]
  | _ => cases h

/-- An operation about a key leaves every other account as it is. -/
theorem account_apply_ne (l : Ledger) {op : Op} {k : String} (h : op.key? ≠ some k) :
    (l.apply op).account k = l.account k := by
  have hne : ∀ {key : String}, op.key? = some key → key ≠ k := fun he hk => h (hk ▸ he)
  cases op with
  | seed key =>
    simp only [apply, seed]
    split
    · exact account_setEntry_ne l (hne rfl) _
    · rfl
  | enforce key value =>
    simp only [apply, enforce]
    split
    · rfl
    · split <;> simp [account_setEntry_ne l (hne rfl)]
  | registerCaveat key comment =>
    have hk : k ≠ key := (hne rfl).symm
    simp [apply, registerCaveat, account, entry?, hk]
  | recommend key value =>
    simp only [apply, recommend]
    split
    · rfl
    · split
      · exact account_giveCaveat_ne l (hne rfl)
      · simp [account_giveCaveat_ne _ (hne rfl), account_setEntry_ne l (hne rfl)]
  | refuse key comment =>
    simp only [apply, refuse]
    split
    · rfl
    · simp [account_setEntry_ne _ (hne rfl)]
  | remark key comment => simp only [apply, remark]; split <;> rfl
  | invalidate key =>
    simp only [apply, invalidate]
    split
    · rfl
    · exact account_setEntry_ne l (hne rfl) _
  | say comment => rfl
  | sayOnce comment => simp only [apply, sayOnce]; split <;> rfl

/-- What an operation makes of the account of its key. -/
theorem account_apply_self (l : Ledger) {op : Op} {k : String} (h : op.key? = some k) :
    (l.apply op).account k = ((l.account k).after (l.freshEntry k) op).account := by
  cases op with
  | seed key =>
    cases h
    by_cases hg : (l.source.get? k).isSome <;>
      simp [apply, seed, Account.after, KeyMap.contains, hg]
  | enforce key value =>
    cases h
    by_cases hs : l.isSkipped k
    · simp [apply, enforce, Account.after, hs]
    · by_cases he : (l.entryOf k).enforced <;> simp [apply, enforce, Account.after, hs, he]
  | registerCaveat key comment =>
    cases h
    simp [apply, registerCaveat, Account.after, account, entry?]
  | recommend key value =>
    cases h
    by_cases hs : l.isSkipped k
    · simp [apply, recommend, Account.after, hs]
    · by_cases he : (l.entry? k).any (·.enforced)
      · simp [apply, recommend, Account.after, isEnforced, hs, he]
      · simp [apply, recommend, Account.after, Account.recommended, isEnforced, hs, he]
  | refuse key comment =>
    cases h
    by_cases hs : l.isSkipped k
    · simp [apply, refuse, Account.after, hs]
    · by_cases he : (l.entryOf k).enforced <;> simp [apply, refuse, Account.after, hs, he]
  | remark key comment =>
    by_cases hs : l.isSkipped key <;> simp [apply, remark, Account.after, hs]
  | invalidate key =>
    cases h
    by_cases hs : l.isSkipped k <;> simp [apply, invalidate, Account.after, hs]
  | say comment => cases h
  | sayOnce comment => cases h

/-- What an operation says depends on the account of its key alone. -/
theorem comments_apply (l : Ledger) (op : Op) :
    (l.apply op).comments = l.comments ++ l.saidBy op := by
  cases op with
  | seed key =>
    by_cases hg : (l.source.get? key).isSome <;>
      simp [apply, seed, saidBy, Op.key?, Account.after, KeyMap.contains, hg]
  | enforce key value =>
    by_cases hs : l.isSkipped key
    · simp [apply, enforce, saidBy, Op.key?, Account.after, hs]
    · by_cases he : (l.entryOf key).enforced <;>
        simp [apply, enforce, saidBy, Op.key?, Account.after, hs, he]
  | registerCaveat key comment => simp [apply, registerCaveat, saidBy, Op.key?, Account.after]
  | recommend key value =>
    by_cases hs : l.isSkipped key
    · simp [apply, recommend, saidBy, Op.key?, Account.after, hs]
    · by_cases he : (l.entry? key).any (·.enforced)
      · simp [apply, recommend, saidBy, Op.key?, Account.after, isEnforced, hs, he]
      · simp [apply, recommend, saidBy, Op.key?, Account.after, Account.recommended, isEnforced, hs,
          he]
  | refuse key comment =>
    by_cases hs : l.isSkipped key <;> simp [apply, refuse, saidBy, Op.key?, Account.after, hs]
  | remark key comment =>
    by_cases hs : l.isSkipped key <;> simp [apply, remark, saidBy, Op.key?, Account.after, hs]
  | invalidate key =>
    by_cases hs : l.isSkipped key <;> simp [apply, invalidate, saidBy, Op.key?, Account.after, hs]
  | say comment => simp [apply, saidBy]
  | sayOnce comment => by_cases hc : comment ∈ l.comments <;> simp [apply, sayOnce, saidBy, hc]

/-! ## Runs -/

theorem run_cons (l : Ledger) (op : Op) (ops : List Op) :
    l.run (op :: ops) = (l.apply op).run ops := rfl

/-- What every operation about a key keeps of its account, a run keeps. -/
theorem account_run_induction {P : Account → Prop} {l : Ledger} {ops : List Op} {k : String}
    (hstep : ∀ op ∈ ops, op.key? = some k → ∀ a, P a → P (a.after (l.freshEntry k) op).account)
    (hl : P (l.account k)) : P ((l.run ops).account k) := by
  induction ops generalizing l with
  | nil => exact hl
  | cons op ops ih =>
    rw [run_cons]
    refine ih (fun op' hop' => ?_) ?_
    · rw [freshEntry_apply]
      exact hstep op' (List.mem_cons_of_mem _ hop')
    · by_cases hk : op.key? = some k
      · rw [account_apply_self l hk]
        exact hstep op List.mem_cons_self hk _ hl
      · rw [account_apply_ne l hk]
        exact hl

/-- A run that is not about a key leaves its account as it is. -/
theorem account_run_of_forall_ne {l : Ledger} {ops : List Op} {k : String}
    (h : ∀ op ∈ ops, op.key? ≠ some k) : (l.run ops).account k = l.account k :=
  account_run_induction (P := fun a => a = l.account k)
    (fun op hop hk => absurd hk (h op hop)) rfl

@[simp] theorem account_start (source : KeyMap String) (policy : KeyPolicy) (k : String) :
    (start source policy).account k = {} := rfl

end Ledger

/-! ## Calls

Callers hand in computed values as well as texts; a number that is not positive writes nothing. -/

/-- What can be asked of a ledger. -/
inductive Ledger.Call where
  | write (op : Op)
  | compute (key : String) (value : Computed)
  deriving Repr, DecidableEq

namespace Ledger

/-- The key a call is about. -/
def Call.key? : Call → Option String
  | .write op => op.key?
  | .compute key _ => some key

/-- What a call writes. -/
def Call.ops : Call → List Op
  | .write op => [op]
  | .compute key value => value.text?.toList.map (.recommend key)

/-- The ledger after a list of calls. -/
def serve (l : Ledger) (calls : List Call) : Ledger := l.run (calls.flatMap Call.ops)

theorem Call.key?_of_mem_ops {c : Call} {op : Op} (h : op ∈ c.ops) : op.key? = c.key? := by
  cases c with
  | write o => rw [List.mem_singleton.1 h]; rfl
  | compute key value =>
    obtain ⟨text, -, rfl⟩ := List.mem_map.1 h
    rfl

/-- Calls chosen by their key write the operations chosen by their key. -/
theorem flatMap_ops_filter (p : Option String → Bool) (calls : List Call) :
    (calls.filter fun c => p c.key?).flatMap Call.ops =
      (calls.flatMap Call.ops).filter fun op => p op.key? := by
  induction calls with
  | nil => rfl
  | cons c calls ih =>
    have hc : ∀ op ∈ c.ops, p op.key? = p c.key? := fun op hop => by rw [Call.key?_of_mem_ops hop]
    rw [List.flatMap_cons, List.filter_append, ← ih, List.filter_congr hc, List.filter_cons]
    cases p c.key? with
    | true => simp [List.filter_eq_self.2]
    | false => simp

end Ledger

end SparkTuner
