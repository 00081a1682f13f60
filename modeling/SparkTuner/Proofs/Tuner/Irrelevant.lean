import SparkTuner.Proofs.Rules.Restricted
import SparkTuner.Proofs.Tuner.Explained

/-!
# Properties without influence

A run goes by the properties that are known, by those that the user gives values, and by six more
(`Rule.concerns_bounded`). Runs that differ in other properties, in what the application is called
or in its largest input recommend the same (`Tuner.irrelevant_properties_have_no_influence`): cut
down to the keys they go by, their states are the same from the first to the last.
-/

namespace SparkTuner

open Ledger Number

namespace Rule

/-- The keys without a definition that rules go by. -/
def otherKeys : List String :=
  [Key.offHeapEnabled, Key.offHeapSize, Key.pysparkMemory, Key.plugins, Key.serializer,
    Key.databricksRuntime]

/-- No rule goes by a key that is neither known nor one of these six. -/
theorem concerns_bounded :
    ∀ r ∈ all, ∀ key ∈ r.concerns, (Definition.find? key).isSome ∨ key ∈ otherKeys := by
  decide

end Rule

variable {K : Type} [Quantity K]

/-- The summary without the application's name, its largest input and its properties. -/
def AppSummary.bare (app : AppSummary K) : AppSummary K :=
  { app with appId := none, maxInputBytes := Quantity.ofNat 0, properties := .empty }

/-- What rules see of a run without them. -/
def Context.bare (ctx : Context K) : Context K := { ctx with app := ctx.app.bare }

namespace Rule

/-! ## What rules see -/

theorem executorMemory_bare (ctx : Context K) (shape : Shape) (s : State) :
    Rules.executorMemory ctx.bare shape s = Rules.executorMemory ctx shape s := by
  have hrequest : Rules.memoryRequest ctx.bare = Rules.memoryRequest ctx := rfl
  unfold Rules.executorMemory
  rw [hrequest]

/-- No rule sees the properties other than in the ledger, nor the name or the largest input. -/
theorem apply_bare (ctx : Context K) (r : Rule) : r.apply ctx.bare = r.apply ctx := by
  cases r with
  | executor =>
    -- Its two halves are compared one by one: unfolded at once they are too large.
    have hlayout : Rules.executorLayout ctx.bare = Rules.executorLayout ctx := rfl
    funext s
    show Rules.executor ctx.bare s = Rules.executor ctx s
    unfold Rules.executor
    simp only [hlayout, executorMemory_bare]
    rfl
  | _ => rfl

theorem applyAll_bare (ctx : Context K) (rules : List Rule) (s : State) :
    applyAll ctx.bare rules s = applyAll ctx rules s := by
  simp only [applyAll, apply_bare]

end Rule

namespace Tuner

/-! ## Runs that agree -/

/-- Whether a run may go by the value of a key. -/
def IsRelevant (t : Tuner K) (key : String) : Prop :=
  (Definition.find? key).isSome ∨ (t.enforced.get? key).isSome ∨ key ∈ Rule.otherKeys

instance (t : Tuner K) (key : String) : Decidable (t.IsRelevant key) :=
  inferInstanceAs (Decidable (_ ∨ _ ∨ _))

/-- The tuner without properties, without the application's name and without its largest input. -/
def bare (t : Tuner K) : Tuner K :=
  { t with app := t.app.bare, cluster := { t.cluster with softwareProperties := .empty } }

/-- All inputs of two runs are the same but for the application's name, its largest input, and
properties that the runs do not go by. -/
structure Agrees (t u : Tuner K) : Prop where
  bare : t.bare = u.bare
  source : ∀ key, t.IsRelevant key → t.source.get? key = u.source.get? key

theorem context_bare (t : Tuner K) : t.bare.context = t.context.bare := rfl

/-! ## The source cut down to relevant keys -/

/-- The source as far as the run may go by it. -/
def relevantSource (t : Tuner K) : KeyMap String :=
  t.source.filter fun key _ => t.IsRelevant key

/-- A state of the run whose source is cut down to the keys that the run may go by. -/
def relevant (t : Tuner K) (s : State) : State :=
  s.changed (Ledger.restricted fun key => t.IsRelevant key)

omit [Quantity K] in
theorem relevant_initial (t : Tuner K) :
    t.relevant t.initial =
      State.write { ledger := .start t.relevantSource t.policy } (t.diagnostics.map .sayOnce) := by
  refine (State.write_changed _ fun op hop l => ?_).symm
  obtain ⟨c, -, rfl⟩ := List.mem_map.1 hop
  exact isCarried_restricted.apply l (fun _ hkey => by cases hkey) fun _ _ => rfl

/-- The rules lead the cut down state to the end of the run, cut down. -/
theorem applyAll_relevant (t : Tuner K) :
    Rule.applyAll t.context Rule.all (t.relevant t.initial) = t.relevant t.final := by
  have hunseen : ∀ r ∈ Rule.all,
      Rule.Unseen t.context r (Ledger.restricted fun key => t.IsRelevant key) := by
    intro r hr
    refine Rule.unseen_restricted (fun key hkey => decide_eq_true ?_) fun q hq => ?_
    · rcases Rule.concerns_bounded r hr key hkey with hknown | hother
      · exact .inl hknown
      · exact .inr (.inr hother)
    · have hget : t.enforced.get? q.1 = some q.2 := KeyMap.get?_eq_some_iff.2 hq
      exact decide_eq_true (.inr (.inl (by rw [hget, Option.isSome_some])))
  exact Rule.applyAll_of_unseen hunseen t.initial

/-- Cut down, the end of the run still tells the recommendations. -/
theorem recommend?_eq (t : Tuner K) :
    t.recommend? = if (t.relevant t.final).staysInWords
      then some (t.relevant t.final).ledger.finish else none := rfl

variable {t u : Tuner K}

namespace Agrees

theorem isRelevant_iff (h : t.Agrees u) (key : String) : t.IsRelevant key ↔ u.IsRelevant key := by
  have henforced : t.bare.enforced = u.bare.enforced := congrArg Tuner.enforced h.bare
  have hiff : t.bare.IsRelevant key ↔ u.bare.IsRelevant key := by
    rw [IsRelevant, henforced, IsRelevant]
  exact hiff

theorem relevantSource_eq (h : t.Agrees u) : t.relevantSource = u.relevantSource := by
  refine KeyMap.ext fun key => ?_
  rw [relevantSource, relevantSource, KeyMap.get?_filter, KeyMap.get?_filter]
  by_cases hkey : t.IsRelevant key
  · have hkey' : u.IsRelevant key := (h.isRelevant_iff key).1 hkey
    rw [h.source key hkey, decide_eq_true hkey, decide_eq_true hkey']
  · have hkey' : ¬u.IsRelevant key := mt (h.isRelevant_iff key).2 hkey
    rw [decide_eq_false hkey, decide_eq_false hkey']
    cases t.source.get? key <;> cases u.source.get? key <;> rfl

theorem relevant_final (h : t.Agrees u) : t.relevant t.final = u.relevant u.final := by
  have hinitial : t.relevant t.initial = u.relevant u.initial := by
    have hpolicy : t.bare.policy = u.bare.policy := congrArg Tuner.policy h.bare
    have hlines : t.bare.diagnostics = u.bare.diagnostics := congrArg Tuner.diagnostics h.bare
    rw [relevant_initial, relevant_initial, h.relevantSource_eq]
    exact congrArg₂ (fun policy lines =>
      State.write { ledger := .start u.relevantSource policy } (lines.map .sayOnce)) hpolicy hlines
  have hcontext : t.context.bare = u.context.bare := by
    rw [← context_bare, ← context_bare, h.bare]
  rw [← applyAll_relevant, ← applyAll_relevant, ← Rule.applyAll_bare t.context,
    ← Rule.applyAll_bare u.context, hcontext, hinitial]

end Agrees

/-- Runs that agree recommend the same, with the same comments. -/
theorem irrelevant_properties_have_no_influence (h : t.Agrees u) : t.recommend? = u.recommend? := by
  rw [recommend?_eq t, recommend?_eq u, h.relevant_final]

/-- Renamed by its cluster, and with a larger input, an application gets the same advice. -/
theorem applicationName_has_no_influence :
    let t : Tuner ℚ :=
      { Tuner.blank with
        app := { AppSummary.blank with properties := KeyMap.empty.insert "spark.app.name" "first" } }
    let u : Tuner ℚ :=
      { Tuner.blank with
        app := { AppSummary.blank with appId := some "app-1", maxInputBytes := 9 }
        cluster := { softwareProperties := KeyMap.empty.insert "spark.app.name" "second" } }
    t.source ≠ u.source ∧ t.recommend? = u.recommend? := by
  intro t u
  have hirrelevant : ¬t.IsRelevant "spark.app.name" := by decide
  have hagrees : t.Agrees u := by
    refine ⟨rfl, fun key hkey => ?_⟩
    have hne : key ≠ "spark.app.name" := fun heq => hirrelevant (heq ▸ hkey)
    simp [t, u, source, Tuner.blank, AppSummary.blank, hne]
  refine ⟨?_, irrelevant_properties_have_no_influence hagrees⟩
  decide +kernel

end Tuner

end SparkTuner
