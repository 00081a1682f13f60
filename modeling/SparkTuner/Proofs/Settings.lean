import SparkTuner.Settings

/-!
# Valid settings

The check of settings passes for the valid ones (`Settings.validate_eq_ok_iff`) and refuses all
others as bad configuration (`Settings.validate_cases`).
-/

namespace SparkTuner.Settings

variable {s : Settings}

/-- The settings name a platform and a strategy, allow some time for a lookup, give an address for
it if it is wanted, and name only keys of properties. -/
structure IsValid (s : Settings) : Prop where
  platform : ∃ p, Platform.parse s.platform = .ok p
  strategy : ∃ strategy, SizingStrategy.parse s.strategy = .ok strategy
  lookupTimeout : s.lookupTimeout.nanoseconds ≠ 0
  metadataUrl : s.checkRelease = true → isWebAddress s.metadataUrl = true
  skipKeys : ∀ key ∈ s.skipKeys, isKey key = true
  limitedKeys : ∀ key ∈ s.limitedKeys, isKey key = true

theorem readPlatform_cases (s : Settings) :
    (¬(∃ p, Platform.parse s.platform = .ok p) ∧
        ∃ text, s.readPlatform = .error (.config text)) ∨
      ∃ p, Platform.parse s.platform = .ok p ∧ s.readPlatform = .ok p := by
  unfold readPlatform
  cases hparse : Platform.parse s.platform with
  | error text => exact Or.inl ⟨fun ⟨p, hp⟩ => (by cases hp), text, rfl⟩
  | ok p => exact Or.inr ⟨p, rfl, rfl⟩

theorem readPlatform_eq_ok_iff {p : Platform} :
    s.readPlatform = .ok p ↔ Platform.parse s.platform = .ok p := by
  rcases s.readPlatform_cases with ⟨hnone, text, hread⟩ | ⟨q, hparse, hread⟩
  · rw [hread]
    exact iff_of_false nofun fun hparse => hnone ⟨p, hparse⟩
  · rw [hread, hparse, Except.ok.injEq, Except.ok.injEq]

theorem readStrategy_cases (s : Settings) :
    (¬(∃ strategy, SizingStrategy.parse s.strategy = .ok strategy) ∧
        ∃ text, s.readStrategy = .error (.config text)) ∨
      ∃ strategy, SizingStrategy.parse s.strategy = .ok strategy ∧
        s.readStrategy = .ok strategy := by
  unfold readStrategy
  cases hparse : SizingStrategy.parse s.strategy with
  | error text => exact Or.inl ⟨fun ⟨strategy, hs⟩ => (by cases hs), text, rfl⟩
  | ok strategy => exact Or.inr ⟨strategy, rfl, rfl⟩

theorem checkKeys_cases (setting : String) (keys : List String) :
    (¬(∀ key ∈ keys, isKey key = true) ∧
        ∃ text, checkKeys setting keys = .error (.config text)) ∨
      (∀ key ∈ keys, isKey key = true) ∧ checkKeys setting keys = .ok () := by
  unfold checkKeys
  cases hfind : keys.find? (!isKey ·) with
  | none =>
    have hkeys : ∀ key ∈ keys, isKey key = true := by simpa using List.find?_eq_none.1 hfind
    exact Or.inr ⟨hkeys, rfl⟩
  | some key =>
    have hkey : isKey key = false := by simpa using List.find?_some hfind
    refine Or.inl ⟨fun hkeys => ?_, _, rfl⟩
    rw [hkeys key (List.mem_of_find?_eq_some hfind)] at hkey
    cases hkey

theorem IsValid.exists_readPlatform (h : s.IsValid) : ∃ p, s.readPlatform = .ok p := by
  rcases s.readPlatform_cases with ⟨hnone, -⟩ | ⟨p, -, hread⟩
  · exact absurd h.platform hnone
  · exact ⟨p, hread⟩

theorem IsValid.exists_readStrategy (h : s.IsValid) :
    ∃ strategy, s.readStrategy = .ok strategy := by
  rcases s.readStrategy_cases with ⟨hnone, -⟩ | ⟨strategy, -, hread⟩
  · exact absurd h.strategy hnone
  · exact ⟨strategy, hread⟩

/-- The check passes for valid settings; all others are bad configuration. -/
theorem validate_cases (s : Settings) :
    s.IsValid ∧ s.validate = .ok () ∨ ¬s.IsValid ∧ ∃ text, s.validate = .error (.config text) := by
  unfold validate
  rcases s.readPlatform_cases with ⟨hnone, text, hbad⟩ | ⟨p, hplatform, hread⟩
  · exact Or.inr ⟨fun h => hnone h.platform, text, by rw [hbad]; rfl⟩
  rcases s.readStrategy_cases with ⟨hnone, text, hbad⟩ | ⟨strategy, hstrategy, hread'⟩
  · exact Or.inr ⟨fun h => hnone h.strategy, text, by rw [hread, hbad]; rfl⟩
  rw [hread, hread']
  by_cases htimeout : s.lookupTimeout.nanoseconds = 0
  · exact Or.inr ⟨fun h => h.lookupTimeout htimeout, _, by rw [if_pos htimeout]; rfl⟩
  by_cases hurl : (s.checkRelease && !isWebAddress s.metadataUrl) = true
  · refine Or.inr ⟨fun h => ?_, _, by rw [if_neg htimeout, if_pos hurl]; rfl⟩
    obtain ⟨hcheck, hbad⟩ := Bool.and_eq_true_iff.1 hurl
    rw [h.metadataUrl hcheck] at hbad
    cases hbad
  rw [if_neg htimeout, if_neg hurl]
  rcases checkKeys_cases "skip_keys" s.skipKeys with ⟨hbad, text, hcheck⟩ | ⟨hskip, hcheck⟩
  · exact Or.inr ⟨fun h => hbad h.skipKeys, text, by rw [hcheck]; rfl⟩
  rcases checkKeys_cases "limited_logic_keys" s.limitedKeys with
    ⟨hbad, text, hcheck'⟩ | ⟨hlimited, hcheck'⟩
  · exact Or.inr ⟨fun h => hbad h.limitedKeys, text, by rw [hcheck, hcheck']; rfl⟩
  refine Or.inl ⟨⟨⟨p, hplatform⟩, ⟨strategy, hstrategy⟩, htimeout, fun hwanted => ?_, hskip,
    hlimited⟩, by rw [hcheck, hcheck']; rfl⟩
  simpa [hwanted] using hurl

theorem validate_eq_ok_iff : s.validate = .ok () ↔ s.IsValid := by
  rcases s.validate_cases with ⟨hvalid, hok⟩ | ⟨hinvalid, text, hbad⟩
  · exact iff_of_true hok hvalid
  · rw [hbad]
    exact iff_of_false nofun hinvalid

end SparkTuner.Settings
