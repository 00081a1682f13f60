import SparkTuner.Proofs.Ledger.Account
import SparkTuner.Proofs.Rules.Writes

/-!
# What rules leave alone

After the values of the user are fixed, each rule writes about the keys of a short list only
(`Writes.mem_keys`), and leaves the account of every other key as it is
(`account_apply_of_not_mem`). What a rule did to a key therefore stands at the end of the run if no
later rule has the key in its list. No rule changes the source properties or the policy, and only
the rule of the executors changes more than the ledger.
-/

namespace SparkTuner

open Ledger Number

variable {K : Type} [Quantity K] {ctx : Context K} {s t : State} {key : String}

namespace State

theorem Reaches.account {P : Op → Prop} (h : s.Reaches P t)
    (hkey : ∀ op, P op → op.key? ≠ some key) : t.ledger.account key = s.ledger.account key := by
  obtain ⟨ops, rfl, hops⟩ := h
  exact account_run_of_forall_ne fun op hop => hkey op (hops op hop)

/-- The operation is about one of these keys. -/
def IsAbout (keys : List String) (op : Op) : Prop := ∃ k ∈ keys, op.key? = some k

omit [Quantity K] in
theorem admits_isAbout (s : State) (keys : List String) : s.Admits (IsAbout keys) keys [] :=
  admits_of_forall (fun key hkey _ => ⟨key, hkey, rfl⟩) fun _ h => by cases h

/-- What is about some keys leaves the account of every other key as it is. -/
theorem Reaches.account_of_not_mem {keys : List String} (h : s.Reaches (IsAbout keys) t)
    (hkey : key ∉ keys) : t.ledger.account key = s.ledger.account key := by
  refine h.account fun op ⟨k, hk, hop⟩ heq => hkey ?_
  cases hop.symm.trans heq
  exact hk

theorem Reaches.source {P : Op → Prop} (h : s.Reaches P t) : t.ledger.source = s.ledger.source := by
  obtain ⟨ops, rfl, -⟩ := h
  exact source_run ..

theorem Reaches.policy {P : Op → Prop} (h : s.Reaches P t) : t.ledger.policy = s.ledger.policy := by
  obtain ⟨ops, rfl, -⟩ := h
  exact policy_run ..

theorem Reaches.freshEntry {P : Op → Prop} (h : s.Reaches P t) (key : String) :
    t.ledger.freshEntry key = s.ledger.freshEntry key :=
  freshEntry_congr h.source h.policy key

end State

namespace Rule

/-- The keys that a rule writes about once the values of the user are fixed. -/
def keys : Rule → List String
  | plugin => Key.plugins :: recommends plugin
  | adaptive => Key.aqeBroadcastThreshold :: recommends adaptive
  | r => r.recommends

theorem mem_keys_of_mem_recommends {r : Rule} (h : key ∈ r.recommends) : key ∈ r.keys := by
  cases r with
  | plugin => exact List.mem_cons_of_mem _ h
  | adaptive => exact List.mem_cons_of_mem _ h
  | _ => exact h

theorem mem_planKeys_of_mem_memoryKeys (h : key ∈ Rules.memoryKeys) : key ∈ planKeys := by
  have hplan : planKeys = Rules.memoryKeys ++ [Key.spillStorage] := rfl
  rw [hplan]
  exact List.mem_append_left _ h

theorem Writes.mem_keys {r : Rule} {op : Op} (h : Writes ctx r op) (hseed : r ≠ .seed)
    (henforce : r ≠ .enforce) (hkey : op.key? = some key) : key ∈ r.keys := by
  cases h with
  | seed => exact absurd rfl hseed
  | enforce => exact absurd rfl henforce
  | recommend h =>
    cases hkey
    exact mem_keys_of_mem_recommends h
  | invalidate h =>
    cases hkey
    exact List.mem_append_right _ (mem_planKeys_of_mem_memoryKeys h)
  | remedyCaveat h =>
    rw [List.mem_singleton.1 h] at hkey
    cases hkey
    exact List.mem_singleton.2 rfl
  | noShape | shortfall | gap | garbage | jars | encoding => cases hkey
  | missingPlugin | broadcast => cases hkey; exact List.mem_cons_self
  | noManager | cacheCaveat | gpuMemory | spilling | taskMemory =>
    cases hkey
    exact List.mem_singleton.2 rfl

theorem source_apply (r : Rule) : (r.apply ctx s).ledger.source = s.ledger.source := by
  obtain ⟨t, ht, hledger⟩ := apply_writes ctx s r
  rw [hledger, ht.source]

theorem policy_apply (r : Rule) : (r.apply ctx s).ledger.policy = s.ledger.policy := by
  obtain ⟨t, ht, hledger⟩ := apply_writes ctx s r
  rw [hledger, ht.policy]

theorem account_apply_of_not_mem {r : Rule} (hseed : r ≠ .seed) (henforce : r ≠ .enforce)
    (hkey : key ∉ r.keys) : (r.apply ctx s).ledger.account key = s.ledger.account key := by
  obtain ⟨t, ht, hledger⟩ := apply_writes ctx s r
  rw [hledger]
  exact ht.account fun op hop hk => hkey (hop.mem_keys hseed henforce hk)

/-! ## Several rules -/

theorem source_applyAll (rules : List Rule) :
    (applyAll ctx rules s).ledger.source = s.ledger.source := by
  induction rules generalizing s with
  | nil => rfl
  | cons r rules ih => exact ih.trans (source_apply r)

theorem policy_applyAll (rules : List Rule) :
    (applyAll ctx rules s).ledger.policy = s.ledger.policy := by
  induction rules generalizing s with
  | nil => rfl
  | cons r rules ih => exact ih.trans (policy_apply r)

/-- Rules that do not write about a key leave its account as it is. -/
theorem account_applyAll_of_not_mem {rules : List Rule}
    (h : ∀ r ∈ rules, r ≠ .seed ∧ r ≠ .enforce ∧ key ∉ r.keys) :
    (applyAll ctx rules s).ledger.account key = s.ledger.account key := by
  induction rules generalizing s with
  | nil => rfl
  | cons r rules ih =>
    obtain ⟨hseed, henforce, hkey⟩ := h r List.mem_cons_self
    have hrest := ih (s := r.apply ctx s) fun r' hr' => h r' (List.mem_cons_of_mem _ hr')
    exact hrest.trans (account_apply_of_not_mem hseed henforce hkey)

/-- The sizes of a plan are left alone by every rule after that of the executors. -/
theorem not_mem_keys_of_mem_planKeys (hkey : key ∈ planKeys) : ∀ r ∈ all.drop 3, key ∉ r.keys := by
  have htable : ∀ k ∈ planKeys, ∀ r ∈ all.drop 3, k ∉ r.keys := by decide
  exact htable key hkey

theorem not_mem_layoutKeys_of_mem_planKeys (hkey : key ∈ planKeys) : key ∉ layoutKeys := by
  have htable : ∀ k ∈ planKeys, k ∉ layoutKeys := by decide
  exact htable key hkey

/-- Rules other than that of the executors keep the memory budget and the sizes that led to it. -/
theorem memory_applyAll {rules : List Rule} (h : ∀ r ∈ rules, r ≠ .executor) :
    (applyAll ctx rules s).memory = s.memory ∧
      (applyAll ctx rules s).staysInWords = s.staysInWords := by
  induction rules generalizing s with
  | nil => exact ⟨rfl, rfl⟩
  | cons r rules ih =>
    obtain ⟨ops, happly, -⟩ := apply_reaches ctx s (h r List.mem_cons_self)
    have hrest := ih (s := r.apply ctx s) fun r' hr' => h r' (List.mem_cons_of_mem _ hr')
    refine ⟨hrest.1.trans ?_, hrest.2.trans ?_⟩
    · rw [happly, State.memory_write]
    · rw [happly, State.staysInWords_write]

end Rule

end SparkTuner
