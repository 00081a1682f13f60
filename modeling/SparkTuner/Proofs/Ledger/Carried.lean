import SparkTuner.Ledger.Recommendations

/-!
# Changes that operations carry along

A change of the ledger that touches neither the entries nor the policy nor the caveats can be made
before an operation as well as after it, as long as the operation does not read what was changed:
what the source has for its own key, or whether its comment was made before
(`IsCarried.apply`).
-/

namespace SparkTuner.Ledger

/-- A change that can be made before or after each of some operations can be made before or after
all of them. -/
theorem run_comm {f : Ledger → Ledger} {ops : List Op} (l : Ledger)
    (h : ∀ op ∈ ops, ∀ l : Ledger, (f l).apply op = f (l.apply op)) :
    (f l).run ops = f (l.run ops) := by
  induction ops generalizing l with
  | nil => rfl
  | cons op ops ih =>
    have hrest := ih (l.apply op) fun op' hop' => h op' (List.mem_cons_of_mem _ hop')
    rw [← h op List.mem_cons_self l] at hrest
    exact hrest

/-- A change of ledgers that is beside the entries, the policy and the caveats, and that can be made
before or after an entry is set, something is said, or a caveat is registered. -/
structure IsCarried (f : Ledger → Ledger) : Prop where
  entries : ∀ l, (f l).entries = l.entries
  policy : ∀ l, (f l).policy = l.policy
  caveats : ∀ l, (f l).caveats = l.caveats
  setEntry : ∀ l key e, (f l).setEntry key e = f (l.setEntry key e)
  sayAll : ∀ l cs, (f l).sayAll cs = f (l.sayAll cs)
  registerCaveat : ∀ l key c, (f l).registerCaveat key c = f (l.registerCaveat key c)

namespace IsCarried

variable {f : Ledger → Ledger} (hf : IsCarried f) (l : Ledger) {key : String}

include hf

theorem isSkipped (key : String) : (f l).isSkipped key = l.isSkipped key := by
  rw [Ledger.isSkipped, hf.policy, Ledger.isSkipped]

theorem isComputable (key : String) : (f l).isComputable key = l.isComputable key := by
  rw [Ledger.isComputable, hf.policy, Ledger.isComputable]

theorem entry_eq (key : String) : Ledger.entry? (f l) key = l.entry? key :=
  congrArg (fun entries : KeyMap Entry => entries.get? key) (hf.entries l)

theorem isEnforced (key : String) : (f l).isEnforced key = l.isEnforced key := by
  rw [Ledger.isEnforced, hf.entry_eq, Ledger.isEnforced]

theorem accepts (key : String) : (f l).accepts key = l.accepts key := by
  rw [Ledger.accepts, hf.isSkipped, hf.isEnforced, Ledger.accepts]

theorem recommended? (key : String) : (f l).recommended? key = l.recommended? key := by
  rw [Ledger.recommended?, hf.entry_eq, Ledger.recommended?]

theorem say (c : String) : (f l).say c = f (l.say c) := hf.sayAll l [c]

/-! ## Where the source has the same for a key -/

variable (hsource : ∀ l, (f l).source.get? key = l.source.get? key)

include hsource

theorem get? : (f l).get? key = l.get? key := by
  rw [Ledger.get?, hf.entry_eq, hsource, Ledger.get?]

theorem entryOf : (f l).entryOf key = l.entryOf key := by
  rw [Ledger.entryOf, hf.entry_eq, freshEntry, hsource, hf.isSkipped, Ledger.entryOf, freshEntry]

theorem giveCaveat : (f l).giveCaveat key = f (l.giveCaveat key) := by
  unfold Ledger.giveCaveat
  rw [hf.caveats, hf.entryOf l hsource]
  cases l.caveats.get? key with
  | none => rfl
  | some comment =>
    dsimp only
    rw [hf.setEntry, hf.say, apply_ite f]

omit hsource in
/-- An operation carries the change along. -/
theorem apply {op : Op}
    (hsource : ∀ key, op.key? = some key → ∀ l, (f l).source.get? key = l.source.get? key)
    (hsaid : ∀ c, op = .sayOnce c → (f l).comments.contains c = l.comments.contains c) :
    (f l).apply op = f (l.apply op) := by
  cases op with
  | seed key =>
    have hkey := hsource key rfl
    have hcontains : (f l).source.contains key = l.source.contains key :=
      congrArg Option.isSome (hkey l)
    simp only [Ledger.apply, seed, hcontains, hf.entryOf l hkey, hf.setEntry, apply_ite f]
  | enforce key value =>
    simp only [Ledger.apply, enforce, hf.isSkipped, hf.entryOf l (hsource key rfl), hf.setEntry,
      hf.say, apply_ite f]
  | registerCaveat key comment => exact hf.registerCaveat l key comment
  | recommend key value =>
    have hkey := hsource key rfl
    simp only [Ledger.apply, recommend, hf.isSkipped, hf.isEnforced, hf.entryOf l hkey,
      hf.setEntry, hf.sayAll, hf.giveCaveat _ hkey, apply_ite f]
  | refuse key comment =>
    simp only [Ledger.apply, refuse, hf.isSkipped, hf.entryOf l (hsource key rfl), hf.say,
      hf.setEntry, apply_ite f]
  | remark key comment => simp only [Ledger.apply, remark, hf.isSkipped, hf.say, apply_ite f]
  | invalidate key =>
    simp only [Ledger.apply, invalidate, hf.isSkipped, hf.entryOf l (hsource key rfl),
      hf.setEntry, apply_ite f]
  | say comment => exact hf.say l comment
  | sayOnce comment =>
    simp only [Ledger.apply, sayOnce, hsaid comment rfl, hf.say, apply_ite f]

end IsCarried

end SparkTuner.Ledger
