import SparkTuner.Proofs.Rules.Suggestions

/-!
# Keys that are left to the rules

The ledger takes what is recommended for a key that is not skipped and of which the user holds no
value: it is the recommendation from then on (`Takes.recommended?_recommend`) and the value that
later rules go by (`Takes.get?_recommend`). A key is free if rules may also give it a computed
value. Remarks only add to what is said (`run_remarks`).
-/

namespace SparkTuner

open Ledger

namespace Ledger

variable {l : Ledger} {key value : String}

/-- The ledger takes recommendations for the key. It is not to be skipped, neither by the policy nor
by its entry, and the user holds no value of it. -/
structure Takes (l : Ledger) (key : String) : Prop where
  unskipped : l.isSkipped key = false
  unmarked : (l.entryOf key).skipped = false
  unheld : l.isEnforced key = false

/-- Rules may give the key a computed value. It is not to be skipped, neither by the policy nor by
its entry, the user holds no value of it, and it is not limited to its default. -/
structure IsFree (l : Ledger) (key : String) : Prop where
  unskipped : l.isSkipped key = false
  unmarked : (l.entryOf key).skipped = false
  unheld : l.isEnforced key = false
  unlimited : l.isComputable key = true

theorem IsFree.takes (h : l.IsFree key) : l.Takes key := ⟨h.unskipped, h.unmarked, h.unheld⟩

theorem enforced_entryOf (l : Ledger) (key : String) :
    (l.entryOf key).enforced = l.isEnforced key := by
  rw [entryOf, isEnforced]
  cases l.entry? key <;> rfl

/-- Nobody wrote about the key, and the policy allows everything. -/
theorem IsFree.of_isUntouched (h : (l.account key).IsUntouched (l.freshEntry key))
    (hskip : l.isSkipped key = false) (hlimited : l.isComputable key = true) : l.IsFree key := by
  have hentry : l.entryOf key = l.freshEntry key := h.entryOr
  refine ⟨hskip, ?_, ?_, hlimited⟩
  · rw [hentry, skipped_freshEntry, hskip]
  · rw [← enforced_entryOf, hentry]
    rfl

theorem IsFree.accepts (h : l.IsFree key) : l.accepts key = true := by
  rw [Ledger.accepts, h.unskipped, h.unheld]
  rfl

/-! ## Recommendations -/

/-- A computed value is recommended, if it has a text. -/
theorem IsFree.suggest_eq (h : l.IsFree key) {computed : Computed}
    (hvalue : computed.text? = some value) :
    l.suggest key computed = [.recommend key value] := by
  rw [suggest, if_pos h.unlimited, hvalue]
  rfl

theorem Takes.exists_entry (h : l.Takes key) (value : String) :
    ∃ e, Ledger.entry? (l.apply (.recommend key value)) key = some e ∧
      e.recommended = some value ∧ e.unresolved = false ∧ e.skipped = false := by
  have hunheld : ((l.account key).entryOr (l.freshEntry key)).enforced = false := by
    rw [entryOr_account, enforced_entryOf, h.unheld]
  obtain ⟨e, he, hvalue, -, hresolved, hskip⟩ :=
    Account.entry_after_recommend h.unskipped hunheld h.unmarked key value
  refine ⟨e, ?_, hvalue, hresolved, hskip⟩
  rw [← entry_account, account_apply_self l rfl]
  exact he

theorem Takes.recommended?_recommend (h : l.Takes key) (value : String) :
    (l.apply (.recommend key value)).recommended? key = some value := by
  obtain ⟨e, he, hvalue, hresolved, hskip⟩ := h.exists_entry value
  simp [recommended?, he, hresolved, hskip, hvalue]

theorem Takes.get?_recommend (h : l.Takes key) (value : String) :
    (l.apply (.recommend key value)).get? key = some value := by
  obtain ⟨e, he, hvalue, hresolved, hskip⟩ := h.exists_entry value
  simp [get?, he, hskip, Entry.current?, hresolved, hvalue]

theorem Takes.apply_ne {op : Op} (h : l.Takes key) (hop : op.key? ≠ some key) :
    (l.apply op).Takes key := by
  have haccount := account_apply_ne l hop
  have hentry : (l.apply op).entryOf key = l.entryOf key := by
    rw [← entryOr_account, ← entryOr_account, haccount, freshEntry_apply]
  refine ⟨?_, ?_, ?_⟩
  · rw [isSkipped_apply, h.unskipped]
  · rw [hentry, h.unmarked]
  · rw [← enforced_entryOf, hentry, enforced_entryOf, h.unheld]

/-- A key has its mark from the policy, whatever was written. -/
theorem skipped_entryOf_run_start (source : KeyMap String) (policy : KeyPolicy) (ops : List Op)
    (key : String) : (((start source policy).run ops).entryOf key).skipped =
      ((start source policy).run ops).isSkipped key := by
  have hmark := skipped_entryOr_run (start source policy) ops key
  rw [account_start, ← freshEntry_run, entryOr_account] at hmark
  rw [hmark, ← skipped_freshEntry]
  rfl

/-- A recommendation is explained by the texts of its key, and goes with the caveat of the key. -/
theorem mem_saidBy_recommend {c : String} (h : c ∈ l.saidBy (.recommend key value)) :
    c = missingComment key ∨ updateComment? key = some c ∨ l.caveats.get? key = some c := by
  rw [saidBy_of_key? l (k := key) rfl] at h
  simp only [Account.after] at h
  split at h
  · cases h
  · split at h
    · exact Or.inr (Or.inr (Account.mem_said_caution h))
    · rcases List.mem_append.1 h with h | h
      · have hwhy := Option.mem_toList.1 h
        unfold explanation? at hwhy
        split at hwhy
        · cases hwhy
        · split at hwhy
          · exact Or.inl (Option.some.inj hwhy).symm
          · split at hwhy
            · cases hwhy
            · exact Or.inr (Or.inl hwhy)
      · exact Or.inr (Or.inr (Account.mem_said_caution h))

/-! ## Remarks -/

theorem run_remarks (hskip : l.isSkipped key = false) (comments : List String) :
    l.run (comments.map (.remark key)) = l.sayAll comments := by
  induction comments generalizing l with
  | nil => simp [run, sayAll]
  | cons c comments ih =>
    have hsay : l.apply (.remark key c) = l.say c := by
      rw [apply, remark, hskip]
      rfl
    rw [List.map_cons, run_cons, hsay, ih (l := l.say c) hskip]
    simp [say, sayAll]

end Ledger

end SparkTuner
