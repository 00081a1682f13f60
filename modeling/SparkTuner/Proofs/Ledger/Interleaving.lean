import SparkTuner.Proofs.Ledger.Account

/-!
# Keys are independent

Writes about different keys can be carried out in any order: each of them changes the account of its
own key and speaks from that account alone (`Same.apply_comm`). A ledger therefore ends in the same
result for every two sequences that have the same operations for each key in the same order and the
same lines about no key (`SameByKey.run`). What is said once is left out of this, because
it depends on everything said before.
-/

namespace SparkTuner

theorem sortComments_pairwise (comments : List String) :
    (sortComments comments).Pairwise (· ≤ ·) := by
  refine (List.pairwise_mergeSort (fun a b c hab hbc => ?_) (fun a b => ?_) comments).imp
    of_decide_eq_true
  · exact decide_eq_true (String.le_trans (of_decide_eq_true hab) (of_decide_eq_true hbc))
  · simpa using String.le_total a b

/-- Lines in ascending order do not depend on the order in which they were said. -/
theorem sortComments_eq_of_perm {cs ds : List String} (h : cs.Perm ds) :
    sortComments cs = sortComments ds := by
  refine List.Perm.eq_of_pairwise (fun a b _ _ => String.le_antisymm) (sortComments_pairwise cs)
    (sortComments_pairwise ds) ?_
  exact (sortComments_perm cs).trans (h.trans (sortComments_perm ds).symm)

namespace Ledger

/-! ## Ledgers that hold the same -/

/-- Two ledgers of one source and policy that hold the same for every key and said the same, in
whatever order. -/
structure Same (l m : Ledger) : Prop where
  source : l.source = m.source
  policy : l.policy = m.policy
  comments : l.comments.Perm m.comments
  account : ∀ k, l.account k = m.account k

namespace Same

variable {l m n : Ledger}

theorem refl (l : Ledger) : Same l l := ⟨rfl, rfl, .refl _, fun _ => rfl⟩

theorem symm (h : Same l m) : Same m l :=
  ⟨h.source.symm, h.policy.symm, h.comments.symm, fun k => (h.account k).symm⟩

theorem trans (h : Same l m) (h' : Same m n) : Same l n :=
  ⟨h.source.trans h'.source, h.policy.trans h'.policy, h.comments.trans h'.comments,
    fun k => (h.account k).trans (h'.account k)⟩

theorem finish_eq (h : Same l m) : l.finish = m.finish := by
  have hentries : l.finish.entries = m.finish.entries := by
    refine KeyMap.ext fun k => ?_
    have hentry : l.entry? k = m.entry? k := congrArg Account.entry (h.account k)
    rw [entries_finish, entries_finish, hentry]
  have hcomments : l.finish.comments = m.finish.comments := sortComments_eq_of_perm h.comments
  cases hl : l.finish
  cases hm : m.finish
  rw [hl, hm] at hentries hcomments
  simp_all

end Same

/-- The operation says a line whether or not it was said before. -/
def Op.IsPlain (op : Op) : Prop := ∀ c, op ≠ .sayOnce c

theorem saidBy_congr {l m : Ledger} {op : Op} (hop : op.IsPlain)
    (hfresh : ∀ k, l.freshEntry k = m.freshEntry k)
    (haccount : ∀ k, op.key? = some k → l.account k = m.account k) :
    l.saidBy op = m.saidBy op := by
  cases hkey : op.key? with
  | some k => rw [saidBy_of_key? l hkey, saidBy_of_key? m hkey, haccount k hkey, hfresh k]
  | none =>
    cases op with
    | say c => rfl
    | sayOnce c => exact absurd rfl (hop c)
    | _ => cases hkey

theorem Same.apply {l m : Ledger} (h : Same l m) {op : Op} (hop : op.IsPlain) :
    Same (l.apply op) (m.apply op) where
  source := by rw [source_apply, source_apply, h.source]
  policy := by rw [policy_apply, policy_apply, h.policy]
  comments := by
    have hsaid : l.saidBy op = m.saidBy op :=
      saidBy_congr hop (freshEntry_congr h.source h.policy) fun k _ => h.account k
    rw [comments_apply, comments_apply, hsaid]
    exact h.comments.append_right _
  account k := by
    by_cases hkey : op.key? = some k
    · rw [account_apply_self l hkey, account_apply_self m hkey, h.account k,
        freshEntry_congr h.source h.policy k]
    · rw [account_apply_ne l hkey, account_apply_ne m hkey, h.account k]

theorem Same.run {l m : Ledger} (h : Same l m) {ops : List Op} (hops : ∀ op ∈ ops, op.IsPlain) :
    Same (l.run ops) (m.run ops) := by
  induction ops generalizing l m with
  | nil => exact h
  | cons op ops ih =>
    exact ih (h.apply (hops op List.mem_cons_self))
      fun op' hop' => hops op' (List.mem_cons_of_mem _ hop')

/-! ## Changing the order -/

/-- The operations are not about one key. -/
def Op.IsApart (a b : Op) : Prop := ∀ k, a.key? = some k → b.key? ≠ some k

theorem Op.IsApart.symm {a b : Op} (h : a.IsApart b) : b.IsApart a :=
  fun k hb ha => h k ha hb

theorem saidBy_apply_of_isApart (l : Ledger) {a b : Op} (hb : b.IsPlain) (h : a.IsApart b) :
    (l.apply a).saidBy b = l.saidBy b :=
  saidBy_congr hb (freshEntry_apply l a) fun k hk => account_apply_ne l fun ha => h k ha hk

/-- Operations that are not about one key can change places. -/
theorem Same.apply_comm (l : Ledger) {a b : Op} (ha : a.IsPlain) (hb : b.IsPlain)
    (h : a.IsApart b) : Same ((l.apply a).apply b) ((l.apply b).apply a) where
  source := by simp
  policy := by simp
  comments := by
    rw [comments_apply, comments_apply, comments_apply, comments_apply,
      saidBy_apply_of_isApart l hb h, saidBy_apply_of_isApart l ha h.symm, List.append_assoc,
      List.append_assoc]
    exact List.perm_append_comm.append_left _
  account k := by
    by_cases hka : a.key? = some k
    · have hkb : b.key? ≠ some k := h k hka
      rw [account_apply_ne _ hkb, account_apply_self _ hka, account_apply_self _ hka,
        account_apply_ne _ hkb, freshEntry_apply]
    · by_cases hkb : b.key? = some k
      · rw [account_apply_self _ hkb, account_apply_ne _ hka, account_apply_ne _ hka,
          account_apply_self _ hkb, freshEntry_apply]
      · rw [account_apply_ne _ hkb, account_apply_ne _ hka, account_apply_ne _ hka,
          account_apply_ne _ hkb]

/-- An operation can be carried out before all that are not about its key. -/
theorem Same.run_front (l : Ledger) {op : Op} {before after : List Op} (hop : op.IsPlain)
    (hbefore : ∀ b ∈ before, b.IsPlain) (hafter : ∀ a ∈ after, a.IsPlain)
    (h : ∀ b ∈ before, b.IsApart op) :
    Same (l.run (before ++ op :: after)) (l.run (op :: (before ++ after))) := by
  induction before generalizing l with
  | nil => exact .refl _
  | cons b before ih =>
    have hrest : ∀ x ∈ before ++ after, x.IsPlain := by
      intro x hx
      rcases List.mem_append.1 hx with hx | hx
      · exact hbefore x (List.mem_cons_of_mem _ hx)
      · exact hafter x hx
    have hswap : Same ((l.apply b).apply op) ((l.apply op).apply b) :=
      .apply_comm l (hbefore b List.mem_cons_self) hop (h b List.mem_cons_self)
    have hfront := ih (l.apply b) (fun x hx => hbefore x (List.mem_cons_of_mem _ hx))
      fun x hx => h x (List.mem_cons_of_mem _ hx)
    exact hfront.trans (hswap.run hrest)

/-! ## Two orders of one set of operations -/

/-- Both sequences have the same operations for each key, in the same order, and the same lines
about no key. -/
structure SameByKey (ops ops' : List Op) : Prop where
  keyed : ∀ k, (ops.filter fun op => op.key? == some k) = ops'.filter fun op => op.key? == some k
  lines : (ops.filter fun op => op.key? == none).Perm (ops'.filter fun op => op.key? == none)

namespace SameByKey

variable {op : Op} {ops ops' : List Op}

theorem mem_iff (h : SameByKey ops ops') : op ∈ ops ↔ op ∈ ops' := by
  cases hkey : op.key? with
  | some k => simpa [hkey] using (congrArg (op ∈ ·) (h.keyed k)).to_iff
  | none => simpa [hkey] using h.lines.mem_iff (a := op)

/-- The first operation of one sequence stands somewhere in the other, after operations that are
not about its key. -/
theorem exists_split (h : SameByKey (op :: ops) ops') :
    ∃ before after, ops' = before ++ op :: after ∧ (∀ b ∈ before, b.IsApart op) ∧
      SameByKey ops (before ++ after) := by
  cases hkey : op.key? with
  | some k =>
    -- The operations about the key start with this one in both sequences.
    have hfirst := h.keyed k
    rw [List.filter_cons_of_pos (by simp [hkey])] at hfirst
    obtain ⟨before, after, rfl, hbefore, -, hafter⟩ := List.filter_eq_cons_iff.1 hfirst.symm
    refine ⟨before, after, rfl, fun b hb k' hb' hop => ?_, fun k' => ?_, ?_⟩
    · cases hkey.symm.trans hop
      exact hbefore b hb (by simp [hb'])
    · by_cases hk : k = k'
      · subst hk
        have hnone : (before.filter fun op => op.key? == some k) = [] :=
          List.filter_eq_nil_iff.2 hbefore
        rw [List.filter_append, hnone, List.nil_append, hafter]
      · simpa [hkey, hk] using h.keyed k'
    · simpa [hkey] using h.lines
  | none =>
    -- A line about no key may stand anywhere.
    obtain ⟨before, after, rfl⟩ := List.append_of_mem (h.mem_iff.1 List.mem_cons_self)
    refine ⟨before, after, rfl, fun b _ k' _ hop => ?_, fun k' => ?_, ?_⟩
    · cases hkey.symm.trans hop
    · simpa [hkey] using h.keyed k'
    · have hlines := h.lines
      rw [List.filter_append, List.filter_cons_of_pos (by simp [hkey]),
        List.filter_cons_of_pos (by simp [hkey])] at hlines
      rw [List.filter_append]
      exact (hlines.trans List.perm_middle).cons_inv

theorem run (l : Ledger) (h : SameByKey ops ops') (hops : ∀ op ∈ ops, op.IsPlain) :
    Same (l.run ops) (l.run ops') := by
  induction ops generalizing l ops' with
  | nil =>
    cases ops' with
    | nil => exact .refl _
    | cons op ops' => exact absurd (h.mem_iff.2 List.mem_cons_self) List.not_mem_nil
  | cons op ops ih =>
    obtain ⟨before, after, rfl, hapart, hrest⟩ := h.exists_split
    have hplain : ∀ x ∈ before ++ op :: after, x.IsPlain := fun x hx => hops x (h.mem_iff.2 hx)
    have hfront : Same (l.run (before ++ op :: after)) (l.run (op :: (before ++ after))) :=
      .run_front l (hops op List.mem_cons_self)
        (fun b hb => hplain b (List.mem_append_left _ hb))
        (fun a ha => hplain a (List.mem_append_right _ (List.mem_cons_of_mem _ ha))) hapart
    have hih := ih (l.apply op) hrest fun x hx => hops x (List.mem_cons_of_mem _ hx)
    exact hih.trans hfront.symm

end SameByKey

/-! ## Calls -/

theorem isPlain_of_mem_ops {calls : List Call} (h : ∀ line, .write (.sayOnce line) ∉ calls)
    {op : Op} (hop : op ∈ calls.flatMap Call.ops) : op.IsPlain := by
  rintro line rfl
  obtain ⟨c, hc, hmem⟩ := List.mem_flatMap.1 hop
  cases c with
  | write o =>
    rw [← List.mem_singleton.1 hmem] at hc
    exact h line hc
  | compute key value =>
    obtain ⟨text, -, htext⟩ := List.mem_map.1 hmem
    cases htext

/-- Keys are independent. Two sequences of calls end in the same result if they have the same calls
for each key in the same order, and the same lines about no key in any order. -/
theorem finish_eq_of_same_by_key (source : KeyMap String) (policy : KeyPolicy)
    {calls calls' : List Call} (honce : ∀ line, .write (.sayOnce line) ∉ calls)
    (hkeys : ∀ key, (calls.filter fun c => c.key? == some key) =
      calls'.filter fun c => c.key? == some key)
    (hlines : (calls.filter fun c => c.key? == none).Perm
      (calls'.filter fun c => c.key? == none)) :
    ((start source policy).serve calls).finish = ((start source policy).serve calls').finish := by
  have hops : SameByKey (calls.flatMap Call.ops) (calls'.flatMap Call.ops) := by
    refine ⟨fun key => ?_, ?_⟩
    · rw [← flatMap_ops_filter (· == some key), ← flatMap_ops_filter (· == some key), hkeys key]
    · rw [← flatMap_ops_filter (· == none), ← flatMap_ops_filter (· == none)]
      exact hlines.flatMap_right _
  exact (hops.run (start source policy) fun op => isPlain_of_mem_ops honce).finish_eq

/-- Two keys and a line, written in opposite orders. The first key is recommended twice, so that the
order of its own calls counts. -/
theorem finish_eq_of_opposite_orders :
    ((start .empty {}).serve
        [.write (.recommend Key.executorCores "8"), .write (.say "b"),
          .compute Key.executorCores (.count 16), .write (.invalidate Key.pinnedPool)]).finish =
      ((start .empty {}).serve
        [.write (.invalidate Key.pinnedPool), .write (.recommend Key.executorCores "8"),
          .compute Key.executorCores (.count 16), .write (.say "b")]).finish := by
  refine finish_eq_of_same_by_key _ _ (by simp) (fun key => ?_) (by simp [Call.key?, Op.key?])
  by_cases hkey : key = Key.executorCores
  · subst hkey
    decide
  · simp [List.filter_cons, Call.key?, Op.key?, Ne.symm hkey]

end Ledger

end SparkTuner
