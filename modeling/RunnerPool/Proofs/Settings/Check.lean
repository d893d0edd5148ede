import RunnerPool.Settings.Basic

/-!
# Settings that make sense

Settings are checked one after the other, and refused for the first of them that makes no sense.
Those that pass are the ones of which each makes sense.

* `Settings.MakesSense s`   what is asked of settings

## Main statement

- `check_eq_ok_iff`: settings pass the check if and only if they make sense
-/

namespace RunnerPool.Settings

/-- What is asked of settings. -/
structure MakesSense (s : Settings) : Prop where
  ns : s.ns ≠ ""
  name : s.name ≠ ""
  least : 0 ≤ s.minRunners.toInt
  bounds : s.minRunners.toInt ≤ s.maxRunners.toInt
  level : lower s.logLevel ∈ logLevels
  endpoint : Route.isStatic s.metricsEndpoint = true
  notHealth : s.metricsEndpoint ≠ Telemetry.healthPath
  address : ∃ address?, s.address? = .ok address?

variable {s : Settings}

/-- Settings pass the check if and only if they make sense; the cases are those of the check. -/
theorem check_eq_ok_iff : s.check = .ok () ↔ s.MakesSense := by
  rw [check]
  -- each guard in its order: refused, the settings lack what it asks for
  split
  · rename_i hSet
    exact ⟨nofun, fun h => (hSet.elim h.ns h.name).elim⟩
  rename_i hSet
  split
  · rename_i hMin
    exact ⟨nofun, fun h => (Int.not_lt.mpr h.least (Int32.lt_iff_toInt_lt.mp hMin)).elim⟩
  rename_i hMin
  split
  · rename_i hBounds
    exact ⟨nofun, fun h => (Int.not_lt.mpr h.bounds (Int32.lt_iff_toInt_lt.mp hBounds)).elim⟩
  rename_i hBounds
  split
  · rename_i hLevel
    exact ⟨nofun, fun h => (hLevel h.level).elim⟩
  rename_i hLevel
  split
  · rename_i hEndpoint
    exact ⟨nofun, fun h => (hEndpoint.elim (by simp [h.endpoint]) h.notHealth).elim⟩
  -- past all the guards only the address is left, which is parsed last
  rename_i hEndpoint
  obtain ⟨hStatic, hOther⟩ := not_or.mp hEndpoint
  rw [Int32.lt_iff_toInt_lt] at hMin hBounds
  have hRest (address : ∃ address?, s.address? = .ok address?) : s.MakesSense :=
    ⟨(hSet <| .inl ·), (hSet <| .inr ·), Int.not_lt.mp hMin, Int.not_lt.mp hBounds,
      Decidable.not_not.mp hLevel, by simpa using hStatic, hOther, address⟩
  cases hAddress : s.address? with
  | ok address? => exact ⟨fun _ => hRest ⟨_, hAddress⟩, fun _ => rfl⟩
  | error why =>
    refine ⟨nofun, fun h => ?_⟩
    obtain ⟨_, hOk⟩ := h.address
    exact nomatch hAddress.symm.trans hOk

/-- Settings that make sense have bounds that do, and the smaller one is not negative. -/
theorem bounds_of_check (h : s.check = .ok ()) :
    0 ≤ s.bounds.min.toInt ∧ s.bounds.min.toInt ≤ s.bounds.max.toInt :=
  have hSense := check_eq_ok_iff.mp h
  ⟨hSense.least, hSense.bounds⟩

/-- The endpoint of settings that make sense is a path without captures, and not that of the
    health. -/
theorem endpoint_of_check (h : s.check = .ok ()) :
    Route.isStatic s.metricsEndpoint = true ∧ s.metricsEndpoint ≠ Telemetry.healthPath :=
  have hSense := check_eq_ok_iff.mp h
  ⟨hSense.endpoint, hSense.notHealth⟩

end RunnerPool.Settings
