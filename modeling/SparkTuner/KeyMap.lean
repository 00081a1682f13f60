/-!
# Maps from keys to values

A map keeps its pairs in strictly ascending order of the keys, so that two maps with the same
values at every key are equal and every listing comes out sorted. Keys are ordered by code points.
-/

namespace SparkTuner

/-- A map from keys to values of `α`. -/
structure KeyMap (α : Type) where
  /-- The pairs, by key. -/
  toList : List (String × α)
  ascending : toList.Pairwise (fun p q => p.1 < q.1)

namespace KeyMap

variable {α β : Type}

instance [Repr α] : Repr (KeyMap α) := ⟨fun m n => reprPrec m.toList n⟩

instance [DecidableEq α] : DecidableEq (KeyMap α) := fun m n =>
  if h : m.toList = n.toList then
    isTrue (by cases m; cases n; cases h; rfl)
  else isFalse fun e => h (e ▸ rfl)

/-- The map without keys. -/
def empty : KeyMap α := ⟨[], .nil⟩

instance : EmptyCollection (KeyMap α) := ⟨empty⟩

instance : Inhabited (KeyMap α) := ⟨empty⟩

/-! ## Sorted lists of pairs -/

/-- The value of a key in a list of pairs. -/
def lookup? (key : String) : List (String × α) → Option α
  | [] => none
  | (k, a) :: rest => if key = k then some a else lookup? key rest

/-- Puts a pair in its place, instead of the pair that has the key already. -/
def insertPair (key : String) (a : α) : List (String × α) → List (String × α)
  | [] => [(key, a)]
  | (k, b) :: rest =>
    if key < k then (key, a) :: (k, b) :: rest
    else if key = k then (key, a) :: rest
    else (k, b) :: insertPair key a rest

theorem mem_insertPair {key : String} {a : α} {p : String × α} {l : List (String × α)}
    (h : p ∈ insertPair key a l) : p.1 = key ∨ p ∈ l := by
  induction l with
  | nil => simp_all [insertPair]
  | cons q rest ih =>
    simp only [insertPair] at h
    split at h
    · rcases List.mem_cons.1 h with rfl | h <;> simp_all
    · split at h
      · rcases List.mem_cons.1 h with rfl | h <;> simp_all
      · rcases List.mem_cons.1 h with rfl | h
        · simp
        · rcases ih h with h | h <;> simp_all

theorem ascending_insertPair {key : String} {a : α} {l : List (String × α)}
    (h : l.Pairwise fun p q => p.1 < q.1) :
    (insertPair key a l).Pairwise fun p q => p.1 < q.1 := by
  induction l with
  | nil => simp [insertPair]
  | cons q rest ih =>
    obtain ⟨hq, hrest⟩ := List.pairwise_cons.1 h
    simp only [insertPair]
    split
    next hlt =>
      refine List.pairwise_cons.2 ⟨fun p hp => ?_, h⟩
      rcases List.mem_cons.1 hp with rfl | hp
      · exact hlt
      · exact String.lt_trans hlt (hq p hp)
    next hge =>
      split
      next heq => exact List.pairwise_cons.2 ⟨fun p hp => heq ▸ hq p hp, hrest⟩
      next hne =>
        refine List.pairwise_cons.2 ⟨fun p hp => ?_, ih hrest⟩
        rcases mem_insertPair hp with hk | hp
        · rw [hk]
          exact Decidable.by_contra fun hn =>
            hne (String.le_antisymm (String.not_lt.1 hn) (String.not_lt.1 hge))
        · exact hq p hp

theorem lookup?_insertPair (key k : String) (a : α) (l : List (String × α)) :
    lookup? k (insertPair key a l) = if k = key then some a else lookup? k l := by
  induction l with
  | nil => simp [insertPair, lookup?]
  | cons q rest ih =>
    simp only [insertPair]
    split
    · simp only [lookup?]
    · split
      next h => subst h; simp only [lookup?]; split <;> simp_all
      next h =>
        simp only [lookup?, ih]
        split
        next hq =>
          have : k ≠ key := fun e => h (e ▸ hq)
          simp [this]
        · rfl

theorem lookup?_eq_none {key : String} {l : List (String × α)} (h : ∀ p ∈ l, key < p.1) :
    lookup? key l = none := by
  induction l with
  | nil => rfl
  | cons q rest ih =>
    have hq := h q (by simp)
    have : key ≠ q.1 := fun e => String.lt_irrefl key (e ▸ hq)
    simp only [lookup?, this, if_false]
    exact ih fun p hp => h p (by simp [hp])

theorem lookup?_append (key : String) (l l' : List (String × α)) :
    lookup? key (l ++ l') = (lookup? key l).or (lookup? key l') := by
  induction l with
  | nil => simp [lookup?]
  | cons q l ih => simp only [List.cons_append, lookup?, ih]; split <;> simp

theorem mem_of_lookup? {key : String} {a : α} {l : List (String × α)}
    (h : lookup? key l = some a) : (key, a) ∈ l := by
  induction l with
  | nil => simp [lookup?] at h
  | cons q l ih =>
    simp only [lookup?] at h
    split at h
    next hk => cases h; subst hk; simp
    next => exact List.mem_cons_of_mem _ (ih h)

theorem not_mem_of_lookup?_eq_none {key : String} {l : List (String × α)}
    (h : lookup? key l = none) (a : α) : (key, a) ∉ l := by
  induction l with
  | nil => simp
  | cons q l ih =>
    simp only [lookup?] at h
    split at h
    · cases h
    next hk =>
      intro hin
      rcases List.mem_cons.1 hin with hin | hin
      · exact hk (congrArg Prod.fst hin)
      · exact ih h hin

theorem eq_of_lookup? {l m : List (String × α)} (hl : l.Pairwise fun p q => p.1 < q.1)
    (hm : m.Pairwise fun p q => p.1 < q.1) (h : ∀ k, lookup? k l = lookup? k m) : l = m := by
  induction l generalizing m with
  | nil =>
    cases m with
    | nil => rfl
    | cons q rest => simpa [lookup?] using h q.1
  | cons p rest ih =>
    obtain ⟨hp, hrest⟩ := List.pairwise_cons.1 hl
    cases m with
    | nil => simpa [lookup?] using h p.1
    | cons q rest' =>
      obtain ⟨hq, hrest'⟩ := List.pairwise_cons.1 hm
      have hkey : p.1 = q.1 := by
        refine String.le_antisymm (String.not_lt.1 fun hlt => ?_) (String.not_lt.1 fun hlt => ?_)
        · have h1 := h q.1
          rw [lookup?_eq_none (l := p :: rest) fun r hr => by
            rcases List.mem_cons.1 hr with rfl | hr
            · exact hlt
            · exact String.lt_trans hlt (hp r hr)] at h1
          simp [lookup?] at h1
        · have h1 := h p.1
          rw [lookup?_eq_none (l := q :: rest') fun r hr => by
            rcases List.mem_cons.1 hr with rfl | hr
            · exact hlt
            · exact String.lt_trans hlt (hq r hr)] at h1
          simp [lookup?] at h1
      have hval : p.2 = q.2 := by
        have h1 := h p.1
        simpa [lookup?, hkey] using h1
      obtain rfl : p = q := Prod.ext hkey hval
      refine congrArg (p :: ·) (ih hrest hrest' fun k => ?_)
      by_cases hk : k = p.1
      · subst hk
        rw [lookup?_eq_none hp, lookup?_eq_none hq]
      · simpa [lookup?, hk] using h k

/-! ## Operations -/

/-- The value of a key. -/
def get? (m : KeyMap α) (key : String) : Option α := lookup? key m.toList

/-- Whether the key has a value. -/
def contains (m : KeyMap α) (key : String) : Bool := (m.get? key).isSome

/-- Gives a key a value, instead of the one it may have. -/
def insert (m : KeyMap α) (key : String) (a : α) : KeyMap α :=
  ⟨insertPair key a m.toList, ascending_insertPair m.ascending⟩

/-- The pairs that satisfy `p`. -/
def filter (p : String → α → Bool) (m : KeyMap α) : KeyMap α :=
  ⟨m.toList.filter fun q => p q.1 q.2, m.ascending.sublist List.filter_sublist⟩

/-- The map with every value replaced. -/
def map (f : α → β) (m : KeyMap α) : KeyMap β :=
  ⟨m.toList.map fun q => (q.1, f q.2), List.pairwise_map.2 m.ascending⟩

/-- Puts pairs into a map, one after the other; the last value of a key stays. -/
def insertAll (m : KeyMap α) (pairs : List (String × α)) : KeyMap α :=
  pairs.foldl (fun m q => m.insert q.1 q.2) m

/-- The map of a list of pairs; the last value of a key stays. -/
def ofList (pairs : List (String × α)) : KeyMap α := empty.insertAll pairs

/-- The pairs of `m` and `n`; where both have a key, the value of `n`. -/
def overlay (m n : KeyMap α) : KeyMap α := m.insertAll n.toList

/-- The keys, ascending. -/
def keys (m : KeyMap α) : List String := m.toList.map (·.1)

/-- The values by key. -/
def values (m : KeyMap α) : List α := m.toList.map (·.2)

/-- Whether no key has a value. -/
def isEmpty (m : KeyMap α) : Bool := m.toList.isEmpty

theorem ext {m n : KeyMap α} (h : ∀ k, m.get? k = n.get? k) : m = n := by
  obtain ⟨l, hl⟩ := m
  obtain ⟨l', hl'⟩ := n
  obtain rfl : l = l' := eq_of_lookup? hl hl' h
  rfl

@[simp] theorem get?_empty (k : String) : (empty : KeyMap α).get? k = none := rfl

@[simp] theorem get?_insert (m : KeyMap α) (key k : String) (a : α) :
    (m.insert key a).get? k = if k = key then some a else m.get? k :=
  lookup?_insertPair key k a m.toList

theorem get?_insertAll (m : KeyMap α) (pairs : List (String × α)) (k : String) :
    (m.insertAll pairs).get? k = (lookup? k pairs.reverse).or (m.get? k) := by
  induction pairs generalizing m with
  | nil => rfl
  | cons p rest ih =>
    simp only [insertAll, List.foldl_cons] at ih ⊢
    rw [ih, List.reverse_cons, lookup?_append, get?_insert]
    cases lookup? k rest.reverse <;> by_cases hk : k = p.1 <;> simp [lookup?, hk]

theorem lookup?_eq_some_iff {l : List (String × α)} (hl : l.Pairwise fun p q => p.1 < q.1)
    {k : String} {a : α} : lookup? k l = some a ↔ (k, a) ∈ l := by
  refine ⟨mem_of_lookup?, fun h => ?_⟩
  induction l with
  | nil => cases h
  | cons p rest ih =>
    obtain ⟨hp, hrest⟩ := List.pairwise_cons.1 hl
    simp only [lookup?]
    rcases List.mem_cons.1 h with rfl | h
    · exact if_pos rfl
    · have hne : k ≠ p.1 := fun heq => String.lt_irrefl p.1 (heq ▸ hp _ h)
      rw [if_neg hne]
      exact ih hrest h

theorem get?_eq_some_iff {m : KeyMap α} {k : String} {a : α} :
    m.get? k = some a ↔ (k, a) ∈ m.toList :=
  lookup?_eq_some_iff m.ascending

theorem lookup?_reverse {l : List (String × α)} (hl : l.Pairwise fun p q => p.1 < q.1)
    (k : String) : lookup? k l.reverse = lookup? k l := by
  cases hr : lookup? k l.reverse with
  | some a => exact ((lookup?_eq_some_iff hl).2 (List.mem_reverse.1 (mem_of_lookup? hr))).symm
  | none =>
    cases hf : lookup? k l with
    | none => rfl
    | some a =>
      exact absurd (List.mem_reverse.2 (mem_of_lookup? hf)) (not_mem_of_lookup?_eq_none hr a)

theorem get?_ofList {l : List (String × α)} (hl : l.Pairwise fun p q => p.1 < q.1) {k : String}
    {a : α} : (ofList l).get? k = some a ↔ (k, a) ∈ l := by
  rw [ofList, get?_insertAll, lookup?_reverse hl, get?_empty, Option.or_none]
  exact lookup?_eq_some_iff hl

@[simp] theorem get?_overlay (m n : KeyMap α) (k : String) :
    (m.overlay n).get? k = (n.get? k).or (m.get? k) := by
  rw [overlay, get?_insertAll, lookup?_reverse n.ascending]
  rfl

@[simp] theorem get?_filter (p : String → α → Bool) (m : KeyMap α) (k : String) :
    (m.filter p).get? k = (m.get? k).filter (p k) := by
  ext a
  rw [Option.filter_eq_some_iff, get?_eq_some_iff, get?_eq_some_iff]
  exact List.mem_filter

end KeyMap

end SparkTuner
