import Mathlib.Data.List.Induction
import SparkTuner.Proofs.Ledger.Causes

/-!
# Why each line is said

The comments of a ledger are texts. The transcript of a run has the same texts, each with the reason
for which it was said (`comments_run`), so that one can count how often a recommendation was
explained and a caveat given. Both counts are tied to a flag of the entry: what a run says and what
it still owes at its end add up to what it owed at the start (`explained_balance`,
`cautioned_balance`). A flag is never taken back, so a line is said at most once, and it was said as
soon as the flag is set.
-/

namespace SparkTuner

open Ledger

/-- The reason for which a line is said. -/
inductive Reason where
  /-- It tells why a value is recommended for the key. -/
  | explanation (key : String)
  /-- It is the caveat that goes with recommendations for the key. -/
  | caveat (key : String)
  /-- It is what an operation other than a recommendation carries. -/
  | other
  deriving Repr, DecidableEq

/-- A line of a transcript. -/
structure Line where
  reason : Reason
  text : String
  deriving Repr, DecidableEq

/-- How many lines are said for a reason. -/
def times (reason : Reason) (lines : List Line) : Nat :=
  lines.countP fun line => line.reason = reason

@[simp] theorem times_nil (reason : Reason) : times reason [] = 0 := rfl

@[simp] theorem times_append (reason : Reason) (lines more : List Line) :
    times reason (lines ++ more) = times reason lines + times reason more :=
  List.countP_append

@[simp] theorem times_map_self (reason : Reason) (texts : List String) :
    times reason (texts.map (⟨reason, ·⟩)) = texts.length := by
  induction texts with
  | nil => rfl
  | cons text texts ih =>
    rw [List.map_cons, times, List.countP_cons, ← times, ih]
    simp

theorem times_map_of_ne {reason reason' : Reason} (h : reason' ≠ reason) (texts : List String) :
    times reason (texts.map (⟨reason', ·⟩)) = 0 := by
  refine List.countP_eq_zero.2 fun line hline => ?_
  obtain ⟨text, -, rfl⟩ := List.mem_map.1 hline
  simpa using h

/-! ## One recommendation -/

namespace Account

variable {fresh : Entry} {a : Account}

/-- What is said as a value is recommended for a key. -/
def told (fresh : Entry) (a : Account) (key value : String) : List Line :=
  if fresh.skipped then []
  else if a.entry.any (·.enforced) then (a.caution fresh).said.map (⟨.caveat key, ·⟩)
  else
    let e := a.entryOr fresh
    (explanation? e key value).toList.map (⟨.explanation key, ·⟩) ++
      ((a.withEntry (recommended e key value)).caution fresh).said.map (⟨.caveat key, ·⟩)

theorem text_told (fresh : Entry) (a : Account) (key value : String) :
    (a.told fresh key value).map Line.text = (a.after fresh (.recommend key value)).said := by
  have htext : ∀ (reason : Reason) (texts : List String),
      (texts.map (⟨reason, ·⟩)).map Line.text = texts := by
    intro reason texts
    rw [List.map_map]
    exact List.map_id texts
  simp only [told, Account.after]
  split
  · rfl
  · split
    · exact htext _ _
    · rw [List.map_append, htext, htext]

/-- Whatever goes with a recommendation has a reason. -/
theorem reason_told {key value : String} {line : Line} (h : line ∈ a.told fresh key value) :
    line.reason ≠ .other := by
  have hreason : ∀ {reason : Reason} {texts : List String}, line ∈ texts.map (⟨reason, ·⟩) →
      line.reason = reason := by
    intro reason texts hline
    obtain ⟨text, -, rfl⟩ := List.mem_map.1 hline
    rfl
  unfold told at h
  split at h
  · cases h
  · split at h
    · rw [hreason h]
      exact Reason.noConfusion
    · rcases List.mem_append.1 h with h | h <;> rw [hreason h] <;> exact Reason.noConfusion

/-- A caveat is given as its flag is set. -/
theorem cautioned_balance_caution (fresh : Entry) (a : Account) :
    (a.caution fresh).said.length +
        (!((a.caution fresh).account.entryOr fresh).caveatGiven).toNat =
      (!(a.entryOr fresh).caveatGiven).toNat := by
  unfold caution
  split
  · exact Nat.zero_add _
  · dsimp only
    split
    · exact Nat.zero_add _
    next hgiven =>
      rw [Bool.not_eq_true] at hgiven
      simp [hgiven]

/-- With a caveat registered, its flag is set once it was due. -/
theorem caveatGiven_caution {c : String} (h : a.caveat = some c) :
    ((a.caution fresh).account.entryOr fresh).caveatGiven = true := by
  simp only [caution, h]
  split
  next hgiven => exact hgiven
  next => rfl

theorem explained_balance_told (fresh : Entry) (a : Account) (key value : String) :
    times (.explanation key) (a.told fresh key value) +
        (!((a.after fresh (.recommend key value)).account.entryOr fresh).explained).toNat =
      (!(a.entryOr fresh).explained).toNat := by
  have hother : ∀ texts : List String,
      times (.explanation key) (texts.map (⟨.caveat key, ·⟩)) = 0 :=
    fun texts => times_map_of_ne (by simp) texts
  simp only [told, Account.after]
  split
  · exact Nat.zero_add _
  · split
    · rw [hother, (caution_keeps fresh a).1, Nat.zero_add]
    · rw [times_append, times_map_self, hother, (caution_keeps fresh _).1, entryOr_withEntry]
      -- The explanation is given as the flag is set.
      cases hexplained : (a.entryOr fresh).explained with
      | true => simp [recommended, explanation?, hexplained]
      | false =>
        cases hwhy : explanation? (a.entryOr fresh) key value <;>
          simp [recommended, hexplained, hwhy]

theorem cautioned_balance_told (fresh : Entry) (a : Account) (key value : String) :
    times (.caveat key) (a.told fresh key value) +
        (!((a.after fresh (.recommend key value)).account.entryOr fresh).caveatGiven).toNat =
      (!(a.entryOr fresh).caveatGiven).toNat := by
  have hother : ∀ texts : List String,
      times (.caveat key) (texts.map (⟨.explanation key, ·⟩)) = 0 :=
    fun texts => times_map_of_ne (by simp) texts
  simp only [told, Account.after]
  split
  · exact Nat.zero_add _
  · split
    · rw [times_map_self]
      exact cautioned_balance_caution fresh a
    · rw [times_append, hother, times_map_self, Nat.zero_add, cautioned_balance_caution fresh _]
      rfl

/-- Only a recommendation gives the caveat, and only it and a value of the user explain a key. -/
theorem flags_after (fresh : Entry) (a : Account) {op : Op}
    (hrecommend : ∀ k v, op ≠ .recommend k v) :
    ((a.after fresh op).account.entryOr fresh).caveatGiven = (a.entryOr fresh).caveatGiven ∧
      ((a.entryOr fresh).explained = true →
        ((a.after fresh op).account.entryOr fresh).explained = true) ∧
      ((∀ k v, op ≠ .enforce k v) →
        ((a.after fresh op).account.entryOr fresh).explained = (a.entryOr fresh).explained) := by
  cases op with
  | recommend key value => exact absurd rfl (hrecommend key value)
  | enforce key value =>
    simp only [Account.after]
    split
    · exact ⟨rfl, id, fun _ => rfl⟩
    · exact ⟨rfl, fun _ => rfl, fun h => absurd rfl (h key value)⟩
  | seed key =>
    simp only [Account.after]
    split <;> exact ⟨rfl, id, fun _ => rfl⟩
  | refuse key comment =>
    simp only [Account.after]
    split
    · exact ⟨rfl, id, fun _ => rfl⟩
    · rw [entryOr_withEntry]
      split <;> exact ⟨rfl, id, fun _ => rfl⟩
  | invalidate key =>
    simp only [Account.after]
    split <;> exact ⟨rfl, id, fun _ => rfl⟩
  | registerCaveat key comment => exact ⟨rfl, id, fun _ => rfl⟩
  | remark key comment => exact ⟨rfl, id, fun _ => rfl⟩
  | say comment => exact ⟨rfl, id, fun _ => rfl⟩
  | sayOnce comment => exact ⟨rfl, id, fun _ => rfl⟩

end Account

/-! ## Transcripts -/

namespace Ledger

/-- What is said when an operation is carried out, and why. -/
def linesBy (l : Ledger) : Op → List Line
  | .recommend key value => (l.account key).told (l.freshEntry key) key value
  | op => (l.saidBy op).map (⟨.other, ·⟩)

/-- What is said in the course of a run, and why. -/
def transcript (l : Ledger) : List Op → List Line
  | [] => []
  | op :: ops => l.linesBy op ++ (l.apply op).transcript ops

theorem linesBy_of_ne {l : Ledger} {op : Op} (h : ∀ k v, op ≠ .recommend k v) :
    l.linesBy op = (l.saidBy op).map (⟨.other, ·⟩) := by
  cases op with
  | recommend key value => exact absurd rfl (h key value)
  | _ => rfl

theorem text_linesBy (l : Ledger) (op : Op) : (l.linesBy op).map Line.text = l.saidBy op := by
  by_cases hop : ∃ key value, op = .recommend key value
  · obtain ⟨key, value, rfl⟩ := hop
    rw [saidBy_of_key? l rfl]
    exact Account.text_told ..
  · rw [linesBy_of_ne fun k v h => hop ⟨k, v, h⟩, List.map_map]
    exact List.map_id _

/-- The comments of a run are the texts of its transcript. -/
theorem comments_run (l : Ledger) (ops : List Op) :
    (l.run ops).comments = l.comments ++ (l.transcript ops).map Line.text := by
  induction ops generalizing l with
  | nil => exact (List.append_nil _).symm
  | cons op ops ih =>
    rw [run_cons, ih, comments_apply, transcript, List.map_append, text_linesBy,
      List.append_assoc]

/-- Each line of a transcript is said by one of the operations. -/
theorem mem_transcript {l : Ledger} {ops : List Op} {line : Line} (h : line ∈ l.transcript ops) :
    ∃ before op later, ops = before ++ op :: later ∧ line ∈ (l.run before).linesBy op := by
  induction ops generalizing l with
  | nil => cases h
  | cons op ops ih =>
    rcases List.mem_append.1 h with h | h
    · exact ⟨[], op, ops, rfl, h⟩
    · obtain ⟨before, op', later, rfl, hline⟩ := ih h
      exact ⟨op :: before, op', later, rfl, hline⟩

/-! ## What is said and what is still owed -/

/-- Whether the recommendation for a key was explained. -/
def isExplained (l : Ledger) (key : String) : Bool := (l.entryOf key).explained

/-- Whether the caveat registered for a key was given. -/
def isCautioned (l : Ledger) (key : String) : Bool := (l.entryOf key).caveatGiven

/-- An operation about another key, or about none, changes no entry and says nothing about a key. -/
theorem linesBy_of_key?_ne {l : Ledger} {op : Op} {key : String} (h : op.key? ≠ some key) :
    times (.explanation key) (l.linesBy op) = 0 ∧ times (.caveat key) (l.linesBy op) = 0 ∧
      (l.apply op).entryOf key = l.entryOf key := by
  have hentry : (l.apply op).entryOf key = l.entryOf key := by
    rw [← entryOr_account, ← entryOr_account, account_apply_ne l h, freshEntry_apply]
  by_cases hop : ∃ k v, op = .recommend k v
  · obtain ⟨k, v, rfl⟩ := hop
    have hkey : k ≠ key := fun hk => h (congrArg some hk)
    have hnone : ∀ reason : Reason, reason ≠ .explanation k → reason ≠ .caveat k →
        times reason (l.linesBy (.recommend k v)) = 0 := by
      intro reason hexplanation hcaveat
      simp only [linesBy, Account.told]
      split
      · rfl
      · split
        · exact times_map_of_ne hcaveat.symm _
        · rw [times_append, times_map_of_ne hexplanation.symm, times_map_of_ne hcaveat.symm]
    exact ⟨hnone _ (by simpa using hkey.symm) (by simp),
      hnone _ (by simp) (by simpa using hkey.symm), hentry⟩
  · rw [linesBy_of_ne fun k v hop' => hop ⟨k, v, hop'⟩]
    exact ⟨times_map_of_ne (by simp) _, times_map_of_ne (by simp) _, hentry⟩

theorem entryOf_apply (l : Ledger) {op : Op} {key : String} (h : op.key? = some key) :
    (l.apply op).entryOf key =
      ((l.account key).after (l.freshEntry key) op).account.entryOr (l.freshEntry key) := by
  rw [← entryOr_account, account_apply_self l h, freshEntry_apply]

/-- What an operation explains and what is left to explain. A value of the user leaves nothing to
explain; but for that nothing is passed over. -/
theorem explained_balance_apply (l : Ledger) (op : Op) (key : String) :
    times (.explanation key) (l.linesBy op) + (!(l.apply op).isExplained key).toNat ≤
        (!l.isExplained key).toNat ∧
      ((∀ v, op ≠ .enforce key v) →
        times (.explanation key) (l.linesBy op) + (!(l.apply op).isExplained key).toNat =
          (!l.isExplained key).toNat) := by
  by_cases hkey : op.key? = some key
  · by_cases hop : ∃ k v, op = .recommend k v
    · obtain ⟨k, v, rfl⟩ := hop
      cases hkey
      have hbalance := Account.explained_balance_told (l.freshEntry key) (l.account key) key v
      rw [entryOr_account, ← entryOf_apply l rfl] at hbalance
      exact ⟨Nat.le_of_eq hbalance, fun _ => hbalance⟩
    · have hrecommend : ∀ k v, op ≠ .recommend k v := fun k v hop' => hop ⟨k, v, hop'⟩
      obtain ⟨-, hmono, heq⟩ := Account.flags_after (l.freshEntry key) (l.account key) hrecommend
      rw [entryOr_account, ← entryOf_apply l hkey] at hmono heq
      rw [linesBy_of_ne hrecommend, times_map_of_ne (by simp), Nat.zero_add]
      refine ⟨?_, fun henforce => ?_⟩
      · cases hexplained : l.isExplained key with
        | true => exact Nat.le_of_eq (by rw [isExplained, hmono hexplained])
        | false => exact Bool.toNat_le _
      · have hnot : ∀ k v, op ≠ .enforce k v := by
          rintro k v rfl
          cases hkey
          exact henforce v rfl
        rw [isExplained, heq hnot, isExplained]
  · obtain ⟨hnone, -, hentry⟩ := linesBy_of_key?_ne (l := l) hkey
    have hbalance : times (.explanation key) (l.linesBy op) +
        (!(l.apply op).isExplained key).toNat = (!l.isExplained key).toNat := by
      rw [hnone, Nat.zero_add, isExplained, hentry, isExplained]
    exact ⟨Nat.le_of_eq hbalance, fun _ => hbalance⟩

theorem cautioned_balance_apply (l : Ledger) (op : Op) (key : String) :
    times (.caveat key) (l.linesBy op) + (!(l.apply op).isCautioned key).toNat =
      (!l.isCautioned key).toNat := by
  by_cases hkey : op.key? = some key
  · by_cases hop : ∃ k v, op = .recommend k v
    · obtain ⟨k, v, rfl⟩ := hop
      cases hkey
      have hbalance := Account.cautioned_balance_told (l.freshEntry key) (l.account key) key v
      rw [entryOr_account, ← entryOf_apply l rfl] at hbalance
      exact hbalance
    · have hrecommend : ∀ k v, op ≠ .recommend k v := fun k v hop' => hop ⟨k, v, hop'⟩
      have hsame := (Account.flags_after (l.freshEntry key) (l.account key) hrecommend).1
      rw [entryOr_account, ← entryOf_apply l hkey] at hsame
      rw [linesBy_of_ne hrecommend, times_map_of_ne (by simp), Nat.zero_add, isCautioned, hsame,
        isCautioned]
  · obtain ⟨-, hnone, hentry⟩ := linesBy_of_key?_ne (l := l) hkey
    rw [hnone, Nat.zero_add, isCautioned, hentry, isCautioned]

/-- What a run explains and what is left to explain at its end. -/
theorem explained_balance (l : Ledger) (ops : List Op) (key : String) :
    times (.explanation key) (l.transcript ops) + (!(l.run ops).isExplained key).toNat ≤
        (!l.isExplained key).toNat ∧
      ((∀ v, .enforce key v ∉ ops) →
        times (.explanation key) (l.transcript ops) + (!(l.run ops).isExplained key).toNat =
          (!l.isExplained key).toNat) := by
  induction ops generalizing l with
  | nil =>
    rw [transcript, times_nil, Nat.zero_add]
    exact ⟨Nat.le_refl _, fun _ => rfl⟩
  | cons op ops ih =>
    obtain ⟨hle, heq⟩ := explained_balance_apply l op key
    obtain ⟨hle', heq'⟩ := ih (l.apply op)
    rw [transcript, times_append, run_cons]
    refine ⟨by omega, fun henforce => ?_⟩
    have hop := heq fun v hop => henforce v (hop ▸ List.mem_cons_self)
    have hrest := heq' fun v hmem => henforce v (List.mem_cons_of_mem _ hmem)
    omega

/-- The caveats that a run gives and those that it still owes at its end. -/
theorem cautioned_balance (l : Ledger) (ops : List Op) (key : String) :
    times (.caveat key) (l.transcript ops) + (!(l.run ops).isCautioned key).toNat =
      (!l.isCautioned key).toNat := by
  induction ops generalizing l with
  | nil => exact Nat.zero_add _
  | cons op ops ih =>
    have hop := cautioned_balance_apply l op key
    have hrest := ih (l.apply op)
    rw [transcript, times_append, run_cons]
    omega

/-- Nothing is said for a key that is to be skipped. -/
theorem times_of_skipped {l : Ledger} {key : String} (hskip : l.isSkipped key = true)
    (ops : List Op) :
    times (.explanation key) (l.transcript ops) = 0 ∧
      times (.caveat key) (l.transcript ops) = 0 := by
  induction ops generalizing l with
  | nil => exact ⟨rfl, rfl⟩
  | cons op ops ih =>
    have hrest := ih (l := l.apply op) (by rw [isSkipped_apply, hskip])
    rw [transcript, times_append, times_append, hrest.1, hrest.2]
    by_cases hop : ∃ v, op = .recommend key v
    · obtain ⟨v, rfl⟩ := hop
      have hnone : l.linesBy (.recommend key v) = [] := by
        simp [linesBy, Account.told, hskip]
      rw [hnone]
      exact ⟨rfl, rfl⟩
    · have hother : times (.explanation key) (l.linesBy op) = 0 ∧
          times (.caveat key) (l.linesBy op) = 0 := by
        by_cases hkey : op.key? = some key
        · have hrecommend : ∀ k v, op ≠ .recommend k v := by
            rintro k v rfl
            cases hkey
            exact hop ⟨v, rfl⟩
          rw [linesBy_of_ne hrecommend]
          exact ⟨times_map_of_ne (by simp) _, times_map_of_ne (by simp) _⟩
        · exact ⟨(linesBy_of_key?_ne hkey).1, (linesBy_of_key?_ne hkey).2.1⟩
      rw [hother.1, hother.2]
      exact ⟨rfl, rfl⟩

/-- A recommendation gives the caveat that is registered for its key, unless it was given. -/
theorem isCautioned_apply_recommend {l : Ledger} {key c : String}
    (hcaveat : l.caveats.get? key = some c) (hskip : l.isSkipped key = false) (value : String) :
    (l.apply (.recommend key value)).isCautioned key = true := by
  rw [isCautioned, entryOf_apply l rfl]
  simp only [Account.after, skipped_freshEntry, hskip, Bool.false_eq_true, if_false]
  split
  · exact Account.caveatGiven_caution hcaveat
  · exact Account.caveatGiven_caution hcaveat

/-- A recommendation that is taken is explained if the source leaves its key unset. -/
theorem isExplained_apply_recommend {l : Ledger} {key : String} (hskip : l.isSkipped key = false)
    (hfree : l.isEnforced key = false) (hunset : (l.entryOf key).given = none) (value : String) :
    (l.apply (.recommend key value)).isExplained key = true := by
  have hany : (l.account key).entry.any (·.enforced) = false := hfree
  rw [isExplained, entryOf_apply l rfl]
  simp only [Account.after, skipped_freshEntry, hskip, hany, Bool.false_eq_true, if_false]
  rw [(Account.caution_keeps _ _).1, Account.entryOr_withEntry, entryOr_account]
  cases hexplained : (l.entryOf key).explained <;>
    simp [Account.recommended, explanation?, hexplained, hunset]

/-! ## Where a line comes from -/

/-- The operation that a line comes from. -/
inductive Stems (source : KeyMap String) (ops : List Op) : Line → Prop
  /-- The source leaves a recommended key unset. -/
  | missing {key value : String} (h : .recommend key value ∈ ops)
      (hunset : source.get? key = none) :
    Stems source ops ⟨.explanation key, missingComment key⟩
  /-- A recommendation replaces what the source sets. -/
  | update {key value old c : String} (h : .recommend key value ∈ ops)
      (hset : source.get? key = some old) (hne : old ≠ value) (hc : updateComment? key = some c) :
    Stems source ops ⟨.explanation key, c⟩
  /-- A recommendation comes with a caveat. -/
  | caveat {key value c : String} (h : .recommend key value ∈ ops)
      (hc : .registerCaveat key c ∈ ops) :
    Stems source ops ⟨.caveat key, c⟩
  /-- The user gives a value. -/
  | fixed {key value : String} (h : .enforce key value ∈ ops) :
    Stems source ops ⟨.other, enforcedComment key⟩
  /-- The operation carries the line. -/
  | carried {op : Op} {c : String} (h : op ∈ ops) (hc : op.text? = some c)
      (hop : ∀ k c', op ≠ .registerCaveat k c') :
    Stems source ops ⟨.other, c⟩

/-- What is said as a value is recommended stems from the recommendation. -/
theorem stems_told {source : KeyMap String} {policy : KeyPolicy} {before later : List Op}
    {key value : String} {line : Line}
    (h : line ∈ ((start source policy).run before).linesBy (.recommend key value)) :
    Stems source (before ++ .recommend key value :: later) line := by
  have hmem : .recommend key value ∈ before ++ .recommend key value :: later :=
    List.mem_append_right _ List.mem_cons_self
  have hcaveat : ∀ (a : Account) (fresh : Entry) (line : Line),
      a.caveat = ((start source policy).run before).caveats.get? key →
      line ∈ (a.caution fresh).said.map (⟨.caveat key, ·⟩) →
      Stems source (before ++ .recommend key value :: later) line := by
    intro a fresh line ha hline
    obtain ⟨c, hc, rfl⟩ := List.mem_map.1 hline
    have hregistered := registerCaveat_mem_of_caveat (ha.symm.trans (Account.mem_said_caution hc))
    exact .caveat hmem (List.mem_append_left _ hregistered)
  simp only [linesBy, Account.told] at h
  split at h
  · cases h
  · split at h
    · exact hcaveat _ _ _ rfl h
    · rcases List.mem_append.1 h with h | h
      · obtain ⟨c, hc, rfl⟩ := List.mem_map.1 h
        have hwhy := Option.mem_toList.1 hc
        have hgiven := given_entryOf_run source policy before key
        rw [entryOr_account] at hwhy
        unfold explanation? at hwhy
        split at hwhy
        · cases hwhy
        · rw [hgiven] at hwhy
          split at hwhy
          next hunset =>
            cases hwhy
            exact .missing hmem hunset
          next old hset =>
            split at hwhy
            · cases hwhy
            next hne => exact .update hmem hset hne hwhy
      · exact hcaveat _ _ _ rfl h

/-- What is said otherwise is the line about a value of the user, or carried by the operation. -/
theorem stems_of_mem_saidBy {source : KeyMap String} {l : Ledger} {ops : List Op} {op : Op}
    {c : String} (hop : op ∈ ops) (hrecommend : ∀ k v, op ≠ .recommend k v)
    (h : c ∈ l.saidBy op) : Stems source ops ⟨.other, c⟩ := by
  cases op with
  | recommend key value => exact absurd rfl (hrecommend key value)
  | enforce key value =>
    simp only [saidBy, Op.key?, Account.after, Option.map_some, Option.getD_some] at h
    split at h
    · cases h
    · dsimp only at h
      split at h
      · cases h
      · rw [List.mem_singleton.1 h]
        exact .fixed hop
  | refuse key comment =>
    simp only [saidBy, Op.key?, Account.after, Option.map_some, Option.getD_some] at h
    split at h
    · cases h
    · exact .carried hop (congrArg some (List.mem_singleton.1 h).symm) (by simp)
  | remark key comment =>
    simp only [saidBy, Op.key?, Account.after, Option.map_some, Option.getD_some] at h
    split at h
    · cases h
    · exact .carried hop (congrArg some (List.mem_singleton.1 h).symm) (by simp)
  | say comment => exact .carried hop (congrArg some (List.mem_singleton.1 h).symm) (by simp)
  | sayOnce comment =>
    simp only [saidBy] at h
    split at h
    · cases h
    · exact .carried hop (congrArg some (List.mem_singleton.1 h).symm) (by simp)
  | invalidate key =>
    simp only [saidBy, Op.key?, Account.after, Option.map_some, Option.getD_some] at h
    split at h <;> cases h
  | seed key => cases h
  | registerCaveat key comment => cases h

/-- A text that an operation says is carried by it, or tells of a value of the user, or goes with a
recommendation. -/
theorem saidBy_cases {source : KeyMap String} {policy : KeyPolicy} {before : List Op} {op : Op}
    {c : String} (h : c ∈ ((start source policy).run before).saidBy op) :
    op.text? = some c ∨ (∃ key, c = enforcedComment key) ∨ (∃ key, c = missingComment key) ∨
      (∃ key, updateComment? key = some c) ∨ ∃ key, .registerCaveat key c ∈ before := by
  by_cases hop : ∃ k v, op = .recommend k v
  · obtain ⟨k, v, rfl⟩ := hop
    rw [← text_linesBy] at h
    obtain ⟨line, hline, rfl⟩ := List.mem_map.1 h
    have hreason := Account.reason_told hline
    have hstems : Stems source (before ++ [.recommend k v]) line := stems_told hline
    cases hstems with
    | missing h hunset => exact Or.inr (Or.inr (Or.inl ⟨_, rfl⟩))
    | update h hset hne hc => exact Or.inr (Or.inr (Or.inr (Or.inl ⟨_, hc⟩)))
    | caveat h hc =>
      rcases List.mem_append.1 hc with hc | hc
      · exact Or.inr (Or.inr (Or.inr (Or.inr ⟨_, hc⟩)))
      · cases List.mem_singleton.1 hc
    | fixed h => exact absurd rfl hreason
    | carried h hc hop => exact absurd rfl hreason
  · have hrecommend : ∀ k v, op ≠ .recommend k v := fun k v hop' => hop ⟨k, v, hop'⟩
    have hstems : Stems source [op] ⟨.other, c⟩ :=
      stems_of_mem_saidBy (List.mem_singleton_self op) hrecommend h
    cases hstems with
    | fixed h => exact Or.inr (Or.inl ⟨_, rfl⟩)
    | carried hop hc _ =>
      cases List.mem_singleton.1 hop
      exact Or.inl hc

/-- Every line of a transcript comes from an operation. -/
theorem stems_of_mem_transcript {source : KeyMap String} {policy : KeyPolicy} {ops : List Op}
    {line : Line} (h : line ∈ (start source policy).transcript ops) : Stems source ops line := by
  obtain ⟨before, op, later, rfl, hline⟩ := mem_transcript h
  by_cases hop : ∃ k v, op = .recommend k v
  · obtain ⟨k, v, rfl⟩ := hop
    exact stems_told hline
  · have hrecommend : ∀ k v, op ≠ .recommend k v := fun k v hop' => hop ⟨k, v, hop'⟩
    rw [linesBy_of_ne hrecommend] at hline
    obtain ⟨c, hc, rfl⟩ := List.mem_map.1 hline
    exact stems_of_mem_saidBy (List.mem_append_right _ List.mem_cons_self) hrecommend hc

/-- What is said is never unsaid. -/
theorem mem_comments_run {l : Ledger} {ops : List Op} {op : Op} {c : String} (hop : op ∈ ops)
    (h : ∀ before, c ∈ ((l.run before).apply op).comments) : c ∈ (l.run ops).comments := by
  obtain ⟨before, later, rfl⟩ := List.append_of_mem hop
  rw [run_append, run_cons, comments_run]
  exact List.mem_append_left _ (h before)

theorem mem_comments_of_sayOnce {l : Ledger} {ops : List Op} {c : String}
    (hop : .sayOnce c ∈ ops) : c ∈ (l.run ops).comments := by
  refine mem_comments_run hop fun before => ?_
  simp only [apply, sayOnce]
  split
  next hsaid => simpa using hsaid
  next => exact List.mem_append_right _ (List.mem_singleton_self c)

theorem mem_comments_of_refuse {l : Ledger} {ops : List Op} {key c : String}
    (hskip : l.isSkipped key = false) (hop : .refuse key c ∈ ops) : c ∈ (l.run ops).comments := by
  refine mem_comments_run hop fun before => ?_
  rw [comments_apply, saidBy_of_key? _ rfl]
  simp [Account.after, hskip]

/-- Of texts of a kind there is none or a certain one, if whatever else is said is of another
kind. -/
theorem filter_comments_apply {p : String → Bool} {l : Ledger} {op : Op} {c : String}
    (h : l.comments.filter p = [] ∨ l.comments.filter p = [c])
    (hop : ∀ c' ∈ l.saidBy op, p c' = true → op = .sayOnce c) :
    (l.apply op).comments.filter p = [] ∨ (l.apply op).comments.filter p = [c] := by
  rw [comments_apply, List.filter_append]
  by_cases hspeaks : op = .sayOnce c
  · subst hspeaks
    by_cases hsaid : c ∈ l.comments
    · simpa [saidBy, hsaid] using h
    · have hnone : l.comments.filter p = [] := by
        refine h.resolve_right fun hone => hsaid ?_
        have hmem : c ∈ l.comments.filter p := by
          rw [hone]
          exact List.mem_singleton_self c
        exact (List.mem_filter.1 hmem).1
      cases hc : p c <;> simp [saidBy, hsaid, hnone, hc]
  · have hsilent : (l.saidBy op).filter p = [] :=
      List.filter_eq_nil_iff.2 fun c' hc' hp => hspeaks (hop c' hc' hp)
    rw [hsilent, List.append_nil]
    exact h

/-- Where texts of a kind are neither explanations nor lines about values of the user, and only one
operation carries any, which makes sure that its text is said once, no other text of the kind is
said, and that one not twice. -/
theorem filter_comments_run_cases {p : String → Bool} {source : KeyMap String} {policy : KeyPolicy}
    {ops : List Op} {c : String} (henforced : ∀ key, p (enforcedComment key) = false)
    (hmissing : ∀ key, p (missingComment key) = false)
    (hupdate : ∀ key c', updateComment? key = some c' → p c' = false)
    (hcarried : ∀ op ∈ ops, ∀ c', op.text? = some c' → p c' = true → op = .sayOnce c) :
    ((start source policy).run ops).comments.filter p = [] ∨
      ((start source policy).run ops).comments.filter p = [c] := by
  -- By induction on the operations from the last one on, since what an operation says depends on
  -- those before it.
  induction ops using List.reverseRecOn with
  | nil => exact Or.inl rfl
  | append_singleton before op ih =>
    rw [run_append, run_cons]
    refine filter_comments_apply
      (ih fun op' hop' => hcarried op' (List.mem_append_left _ hop')) fun c' hc' hp => ?_
    rcases saidBy_cases hc' with hcarries | ⟨key, rfl⟩ | ⟨key, rfl⟩ | ⟨key, hkey⟩ |
      ⟨key, hregistered⟩
    · exact hcarried op (List.mem_append_right _ (List.mem_singleton_self op)) c' hcarries hp
    · exact absurd ((henforced key).symm.trans hp) Bool.false_ne_true
    · exact absurd ((hmissing key).symm.trans hp) Bool.false_ne_true
    · exact absurd ((hupdate key c' hkey).symm.trans hp) Bool.false_ne_true
    · cases hcarried _ (List.mem_append_left _ hregistered) c' rfl hp

/-- The text of such a kind is the only one of its kind, if it was said. -/
theorem filter_comments_run {p : String → Bool} {source : KeyMap String} {policy : KeyPolicy}
    {ops : List Op} {c : String} (henforced : ∀ key, p (enforcedComment key) = false)
    (hmissing : ∀ key, p (missingComment key) = false)
    (hupdate : ∀ key c', updateComment? key = some c' → p c' = false)
    (hcarried : ∀ op ∈ ops, ∀ c', op.text? = some c' → p c' = true → op = .sayOnce c)
    (hc : p c = true) (hsaid : c ∈ ((start source policy).run ops).comments) :
    ((start source policy).run ops).comments.filter p = [c] :=
  (filter_comments_run_cases henforced hmissing hupdate hcarried).resolve_left fun hnone =>
    absurd hc (List.filter_eq_nil_iff.1 hnone c hsaid)

/-- A key that the source leaves unset and the user gives no value is explained exactly once if a
value is recommended for it. -/
theorem times_explanation_eq_one {source : KeyMap String} {policy : KeyPolicy} {ops : List Op}
    {key value : String} (hop : .recommend key value ∈ ops) (henforce : ∀ v, .enforce key v ∉ ops)
    (hskip : key ∉ policy.skip) (hunset : source.get? key = none) :
    times (.explanation key) ((start source policy).transcript ops) = 1 := by
  have htotal := (explained_balance (start source policy) ops key).2 henforce
  obtain ⟨before, later, rfl⟩ := List.append_of_mem hop
  have hskip' : ((start source policy).run before).isSkipped key = false := by
    simp [isSkipped, start, hskip]
  have hgiven : (((start source policy).run before).entryOf key).given = none :=
    (given_entryOf_run source policy before key).trans hunset
  have hfree : ((start source policy).run before).isEnforced key = false := by
    have hcause := (causes_run source policy before key).1
    refine Bool.eq_false_iff.2 fun henforced => ?_
    obtain ⟨e, he, henforced'⟩ := (Option.any_eq_true _ _).1 henforced
    obtain ⟨v, hv⟩ := hcause (by rw [entryOf, he]; exact henforced')
    exact henforce v (List.mem_append_left _ hv)
  -- Once the value is recommended nothing is left to explain, and nothing ever will be again.
  have hexplained := isExplained_apply_recommend hskip' hfree hgiven value
  have hlater := (explained_balance
    (((start source policy).run before).apply (.recommend key value)) later key).1
  rw [hexplained] at hlater
  rw [run_append, run_cons] at htotal
  have hstart : (!(start source policy).isExplained key).toNat = 1 := rfl
  have hnone : (!true).toNat = 0 := rfl
  omega

/-! ## Every sequence of calls -/

/-- What some calls make a ledger say of its keys. -/
structure SaysOnce (source : KeyMap String) (policy : KeyPolicy) (calls : List Call) : Prop where
  /-- The comments are the texts of the transcript. -/
  comments : ((start source policy).serve calls).comments =
    ((start source policy).transcript (calls.flatMap Call.ops)).map Line.text
  /-- Every line of it comes from an operation. -/
  stems : ∀ line ∈ (start source policy).transcript (calls.flatMap Call.ops),
    Stems source (calls.flatMap Call.ops) line
  /-- A key is explained at most once. -/
  explained_le : ∀ key,
    times (.explanation key) ((start source policy).transcript (calls.flatMap Call.ops)) ≤ 1
  /-- A key gets at most one caveat. -/
  cautioned_le : ∀ key,
    times (.caveat key) ((start source policy).transcript (calls.flatMap Call.ops)) ≤ 1
  /-- The caveat is given as soon as a recommendation follows its registration, also for a value of
  the user. -/
  cautioned : ∀ key value comment before later,
    calls.flatMap Call.ops = before ++ .recommend key value :: later →
    .registerCaveat key comment ∈ before → key ∉ policy.skip →
    times (.caveat key) ((start source policy).transcript (before ++ [.recommend key value])) = 1
  /-- A key that is to be skipped gets neither. -/
  silent : ∀ key ∈ policy.skip,
    times (.explanation key) ((start source policy).transcript (calls.flatMap Call.ops)) = 0 ∧
      times (.caveat key) ((start source policy).transcript (calls.flatMap Call.ops)) = 0

theorem saysOnce (source : KeyMap String) (policy : KeyPolicy) (calls : List Call) :
    SaysOnce source policy calls where
  comments := comments_run (start source policy) _
  stems _ := stems_of_mem_transcript
  explained_le key := by
    have hbalance := (explained_balance (start source policy) (calls.flatMap Call.ops) key).1
    have hdue := Bool.toNat_le (!(start source policy).isExplained key)
    omega
  cautioned_le key := by
    have hbalance := cautioned_balance (start source policy) (calls.flatMap Call.ops) key
    have hdue := Bool.toNat_le (!(start source policy).isCautioned key)
    omega
  cautioned key value comment before later _ hregistered hkey := by
    have hskip : ((start source policy).run before).isSkipped key = false := by
      simp [isSkipped, start, hkey]
    obtain ⟨c, hc⟩ := caveat_run_of_mem (l := start source policy) hregistered
    have hgiven := isCautioned_apply_recommend hc hskip value
    have hbalance := cautioned_balance (start source policy) (before ++ [.recommend key value]) key
    rw [run_append, run_cons] at hbalance
    have hend : ((((start source policy).run before).apply (.recommend key value)).run []) =
        ((start source policy).run before).apply (.recommend key value) := rfl
    rw [hend, hgiven] at hbalance
    exact hbalance
  silent key hkey := times_of_skipped (by simp [isSkipped, start, hkey]) _

end Ledger

end SparkTuner
