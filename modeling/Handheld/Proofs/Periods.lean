import Handheld.Proofs.Rounding
import Handheld.Settings

/-!
# Periods that do not fit a word

Settings ask for periods in microseconds and are checked in cycles. `Settings.checks` lists the
checks in order, each with the error of those who fail it, and `Settings.Follows` says that an
answer is the one that the checks lead to, for given periods in cycles.

What the checks see is not the period that was asked for, but its low 64 bits
(`ofMicros_follows_kept`). As long as the period fits a word, this is the same: then settings are
accepted or refused by the exact periods, keep them as they are, and stay accepted if the screen is
to be redrawn less often. A period fits if it is not longer than 18446744073709551 microseconds, or
if the board is not faster than a megahertz.

Beyond that a period starts again from zero, instead of being capped as the times of
`Clock.nanosOfCycles` are. So a period of some 584 years between two redraws is refused for being
shorter than one of a millisecond between two samples (`not_follows_capped_of_centuries`).
-/

namespace Handheld

namespace Settings

variable {hertz burst samplingMicros redrawMicros sampling redraw : Nat} {settings : Settings}
  {answer : Except SettingsError Settings}

/-! ## Periods in cycles -/

/-- The whole cycles of a period. -/
def exactPeriod (hertz micros : Nat) : Nat := micros * hertz / 1000000

/-- The period as a word can hold it: the largest word if there are more cycles than that. -/
def cappedPeriod (hertz micros : Nat) : Nat := min (exactPeriod hertz micros) wordMax

/-- The low bits of a period. -/
def keptPeriod (hertz micros : Nat) : Nat := exactPeriod hertz micros % wordSize

theorem keptPeriod_of_lt {micros : Nat} (h : exactPeriod hertz micros < wordSize) :
    keptPeriod hertz micros = exactPeriod hertz micros :=
  Nat.mod_eq_of_lt h

theorem cappedPeriod_of_lt {micros : Nat} (h : exactPeriod hertz micros < wordSize) :
    cappedPeriod hertz micros = exactPeriod hertz micros :=
  Nat.min_eq_left (Nat.le_pred_of_lt h)

theorem exactPeriod_mono {fewer more : Nat} (hertz : Nat) (h : fewer ≤ more) :
    exactPeriod hertz fewer ≤ exactPeriod hertz more :=
  Nat.div_le_div_right (Nat.mul_le_mul_right hertz h)

/-- On a board of a megahertz at most, a period has no more cycles than microseconds. -/
theorem exactPeriod_lt_of_slow {micros : Nat} (hertz_le : hertz ≤ 1000000)
    (h : micros < wordSize) : exactPeriod hertz micros < wordSize := by
  refine Nat.lt_of_le_of_lt (Nat.div_le_of_le_mul ?_) h
  rw [Nat.mul_comm micros]
  exact Nat.mul_le_mul_right micros hertz_le

/-- On any board a period has no more than a thousand cycles in a microsecond. -/
theorem exactPeriod_lt_of_short {micros : Nat} (hertz_le : hertz ≤ maxFrequency)
    (h : micros ≤ 18446744073709551) : exactPeriod hertz micros < wordSize := by
  have hcycles : micros * hertz ≤ 18446744073709551 * maxFrequency := Nat.mul_le_mul h hertz_le
  refine Nat.lt_of_le_of_lt (Nat.div_le_div_right hcycles) ?_
  decide

/-! ## Checks -/

/-- Whether a check was passed, and the error otherwise. -/
structure Check where
  passed : Bool
  error : SettingsError

/-- The error of the first check that was not passed, if there is one. -/
def firstFailed : List Check → Option SettingsError
  | [] => none
  | check :: checks => if check.passed then firstFailed checks else some check.error

/-- The checks of settings, in order; the periods are `sampling` and `redraw` cycles long. -/
def checks (hertz burst samplingMicros redrawMicros sampling redraw : Nat) : List Check := [
  ⟨0 < hertz ∧ hertz ≤ maxFrequency, .frequency hertz⟩,
  ⟨0 < burst, .emptyBurst⟩,
  ⟨0 < sampling, .emptyPeriod "persistence" samplingMicros⟩,
  ⟨0 < redraw, .emptyPeriod "redraw" redrawMicros⟩,
  ⟨sampling ≤ redraw, .redrawFaster redraw sampling⟩]

/-- An answer is what the checks lead to: the error of the first check that is failed, or else
    settings with the given numbers and periods, the default afterglow, and held back to the
    wall. -/
def Follows (hertz burst samplingMicros redrawMicros sampling redraw : Nat)
    (answer : Except SettingsError Settings) : Prop :=
  match firstFailed (checks hertz burst samplingMicros redrawMicros sampling redraw) with
  | some error => answer = .error error
  | none => ∃ settings, answer = .ok settings ∧ settings.clock.frequency = hertz ∧
      settings.burst = burst ∧ settings.samplingPeriod = sampling ∧
      settings.redrawPeriod = redraw ∧ settings.decay = defaultDecay ∧
      settings.increase = defaultIncrease ∧ settings.throttle = true

section FirstFailed

variable {passed : Prop} [Decidable passed] {error : SettingsError} {rest : List Check}

theorem firstFailed_nil : firstFailed [] = none := rfl

theorem firstFailed_of_passed (h : passed) :
    firstFailed (⟨passed, error⟩ :: rest) = firstFailed rest :=
  if_pos (decide_eq_true h)

theorem firstFailed_of_failed (h : ¬passed) : firstFailed (⟨passed, error⟩ :: rest) = some error :=
  if_neg (mt of_decide_eq_true h)

theorem firstFailed_cons_eq_none_iff :
    firstFailed (⟨passed, error⟩ :: rest) = none ↔ passed ∧ firstFailed rest = none := by
  by_cases h : passed
  · rw [firstFailed_of_passed h, and_iff_right h]
  · rw [firstFailed_of_failed h]
    exact iff_of_false (Option.some_ne_none error) fun hall => h hall.1

end FirstFailed

/-- What it takes to pass all checks. -/
theorem firstFailed_checks_eq_none_iff :
    firstFailed (checks hertz burst samplingMicros redrawMicros sampling redraw) = none ↔
      (0 < hertz ∧ hertz ≤ maxFrequency) ∧ 0 < burst ∧ 0 < sampling ∧ sampling ≤ redraw := by
  have hrest : 0 < sampling ∧ 0 < redraw ∧ sampling ≤ redraw ↔
      0 < sampling ∧ sampling ≤ redraw := by
    omega
  simp only [checks, firstFailed_cons_eq_none_iff, firstFailed_nil, and_true, hrest]

/-- An answer that follows the checks is settings if all checks are passed, and only then. -/
theorem Follows.accepted_iff
    (h : Follows hertz burst samplingMicros redrawMicros sampling redraw answer) :
    (∃ settings, answer = .ok settings) ↔
      (0 < hertz ∧ hertz ≤ maxFrequency) ∧ 0 < burst ∧ 0 < sampling ∧ sampling ≤ redraw := by
  rw [Follows] at h
  split at h
  · next hfailed =>
    rw [← firstFailed_checks_eq_none_iff, hfailed, h]
    exact iff_of_false (fun ⟨_, hok⟩ => nomatch hok) (Option.some_ne_none _)
  · next hpassed =>
    obtain ⟨settings, hok, -⟩ := h
    exact iff_of_true ⟨settings, hok⟩ (firstFailed_checks_eq_none_iff.1 hpassed)

/-- The settings accepted have the numbers and the periods that were checked. -/
theorem Follows.eq_of_ok
    (h : Follows hertz burst samplingMicros redrawMicros sampling redraw (.ok settings)) :
    settings.clock.frequency = hertz ∧ settings.burst = burst ∧
      settings.samplingPeriod = sampling ∧ settings.redrawPeriod = redraw := by
  rw [Follows] at h
  split at h
  · cases h
  · obtain ⟨_, hok, hfrequency, hburst, hsampling, hredraw, -⟩ := h
    cases hok
    exact ⟨hfrequency, hburst, hsampling, hredraw⟩

theorem Follows.of_failed {error : SettingsError}
    (h : firstFailed (checks hertz burst samplingMicros redrawMicros sampling redraw) =
      some error) :
    Follows hertz burst samplingMicros redrawMicros sampling redraw (.error error) := by
  rw [Follows, h]

/-- On a clock, the checks are those of the periods that it converts to. -/
theorem ofMicros_follows (clock : Clock) (burst samplingMicros redrawMicros : Nat) :
    Follows clock.frequency burst samplingMicros redrawMicros (clock.cyclesOfMicros samplingMicros)
      (clock.cyclesOfMicros redrawMicros)
      (ofMicros clock.frequency burst samplingMicros redrawMicros) := by
  have hfrequency : 0 < clock.frequency ∧ clock.frequency ≤ maxFrequency :=
    ⟨clock.frequency_pos, clock.frequency_le⟩
  have hclock : Clock.ofFrequency clock.frequency = .ok clock := dif_pos hfrequency
  rw [ofMicros, hclock]
  dsimp only [bind, Except.bind]
  split
  case isFalse hburst =>
    refine .of_failed ?_
    rw [checks, firstFailed_of_passed hfrequency, firstFailed_of_failed hburst]
  case isTrue hburst =>
    split
    case isFalse hsampling =>
      refine .of_failed ?_
      rw [checks, firstFailed_of_passed hfrequency, firstFailed_of_passed hburst,
        firstFailed_of_failed hsampling]
    case isTrue hsampling =>
      split
      case isFalse hredraw =>
        refine .of_failed ?_
        rw [checks, firstFailed_of_passed hfrequency, firstFailed_of_passed hburst,
          firstFailed_of_passed hsampling, firstFailed_of_failed hredraw]
      case isTrue hredraw =>
        split
        case isFalse hle =>
          refine .of_failed ?_
          rw [checks, firstFailed_of_passed hfrequency, firstFailed_of_passed hburst,
            firstFailed_of_passed hsampling, firstFailed_of_passed hredraw,
            firstFailed_of_failed hle]
        case isTrue hle =>
          rw [Follows, firstFailed_checks_eq_none_iff.2 ⟨hfrequency, hburst, hsampling, hle⟩]
          exact ⟨_, rfl, rfl, rfl, rfl, rfl, rfl, rfl, rfl⟩

/-- The checks are those of the low bits of the periods. -/
theorem ofMicros_follows_kept (hertz burst samplingMicros redrawMicros : Nat) :
    Follows hertz burst samplingMicros redrawMicros (keptPeriod hertz samplingMicros)
      (keptPeriod hertz redrawMicros) (ofMicros hertz burst samplingMicros redrawMicros) := by
  by_cases hfrequency : 0 < hertz ∧ hertz ≤ maxFrequency
  · exact ofMicros_follows ⟨hertz, hfrequency.1, hfrequency.2⟩ burst samplingMicros redrawMicros
  · have hclock : Clock.ofFrequency hertz = .error (.frequency hertz) := dif_neg hfrequency
    rw [ofMicros, hclock]
    refine .of_failed ?_
    rw [checks, firstFailed_of_failed hfrequency]

theorem keptPeriod_mono_of_lt {fewer more : Nat} (h : fewer ≤ more)
    (hmore : exactPeriod hertz more < wordSize) :
    keptPeriod hertz fewer ≤ keptPeriod hertz more := by
  have hle := exactPeriod_mono hertz h
  rw [keptPeriod_of_lt hmore, keptPeriod_of_lt (Nat.lt_of_le_of_lt hle hmore)]
  exact hle

/-! ## What the checks are worth -/

/-- How settings are checked. Their answer is that of the checks in order, on the low 64 bits of
    both periods: it is settings if all are passed, and the error of the first one that is failed
    otherwise. If both periods fit a word, these are the exact periods, capped or not. In any case,
    settings that are accepted keep a period as it was asked for if it fits; and settings with a
    longer period between two redraws are accepted as well, if that one fits. A period of a word of
    microseconds fits on a board of a megahertz at most, and one of 18446744073709551 microseconds
    at most fits on every board. -/
theorem checked_on_kept_periods (hertz burst samplingMicros redrawMicros : Nat) :
    Follows hertz burst samplingMicros redrawMicros (keptPeriod hertz samplingMicros)
      (keptPeriod hertz redrawMicros) (ofMicros hertz burst samplingMicros redrawMicros) ∧
    ((∃ settings, ofMicros hertz burst samplingMicros redrawMicros = .ok settings) ↔
      (1 ≤ hertz ∧ hertz ≤ 1000000000) ∧ 1 ≤ burst ∧ 1 ≤ keptPeriod hertz samplingMicros ∧
        keptPeriod hertz samplingMicros ≤ keptPeriod hertz redrawMicros) ∧
    (exactPeriod hertz samplingMicros < 2 ^ 64 → exactPeriod hertz redrawMicros < 2 ^ 64 →
      Follows hertz burst samplingMicros redrawMicros (cappedPeriod hertz samplingMicros)
        (cappedPeriod hertz redrawMicros) (ofMicros hertz burst samplingMicros redrawMicros)) ∧
    (∀ settings, ofMicros hertz burst samplingMicros redrawMicros = .ok settings →
      (exactPeriod hertz samplingMicros < 2 ^ 64 →
        settings.samplingPeriod = exactPeriod hertz samplingMicros) ∧
      (exactPeriod hertz redrawMicros < 2 ^ 64 →
        settings.redrawPeriod = exactPeriod hertz redrawMicros)) ∧
    (∀ laterMicros, redrawMicros ≤ laterMicros → exactPeriod hertz laterMicros < 2 ^ 64 →
      (∃ settings, ofMicros hertz burst samplingMicros redrawMicros = .ok settings) →
      ∃ settings, ofMicros hertz burst samplingMicros laterMicros = .ok settings) ∧
    (hertz ≤ 1000000 → ∀ micros < 2 ^ 64, exactPeriod hertz micros < 2 ^ 64) ∧
    (hertz ≤ 1000000000 → ∀ micros ≤ 18446744073709551, exactPeriod hertz micros < 2 ^ 64) := by
  have h := ofMicros_follows_kept hertz burst samplingMicros redrawMicros
  refine ⟨h, h.accepted_iff, fun hsampling hredraw => ?_, fun settings hok => ?_,
    fun laterMicros hle hlater haccepted => ?_, fun hslow micros => exactPeriod_lt_of_slow hslow,
    fun hboard micros => exactPeriod_lt_of_short hboard⟩
  · rw [cappedPeriod_of_lt hsampling, cappedPeriod_of_lt hredraw, ← keptPeriod_of_lt hsampling,
      ← keptPeriod_of_lt hredraw]
    exact h
  · rw [hok] at h
    obtain ⟨-, -, hsampling, hredraw⟩ := h.eq_of_ok
    exact ⟨fun hfits => hsampling.trans (keptPeriod_of_lt hfits),
      fun hfits => hredraw.trans (keptPeriod_of_lt hfits)⟩
  · obtain ⟨hfrequency, hburst, hsampling, hredraw⟩ := h.accepted_iff.1 haccepted
    have hlonger := keptPeriod_mono_of_lt hle hlater
    exact (ofMicros_follows_kept hertz burst samplingMicros laterMicros).accepted_iff.2
      ⟨hfrequency, hburst, hsampling, Nat.le_trans hredraw hlonger⟩

/-- A sample in a millisecond and a redraw in 584 years is not what the checks see: the longer
    period has started again from zero, and is refused for being shorter than the other. With a
    redraw in a millisecond as well, the settings are accepted. -/
theorem not_follows_capped_of_centuries :
    ¬Follows 1000000000 1 1000 18446744073709552 (cappedPeriod 1000000000 1000)
      (cappedPeriod 1000000000 18446744073709552)
      (ofMicros 1000000000 1 1000 18446744073709552) ∧
    ofMicros 1000000000 1 1000 18446744073709552 = .error (.redrawFaster 384 1000000) ∧
    ∃ settings, ofMicros 1000000000 1 1000 1000 = .ok settings := by
  have hrefused : ofMicros 1000000000 1 1000 18446744073709552 =
      .error (.redrawFaster 384 1000000) := rfl
  refine ⟨fun h => ?_, hrefused, _, rfl⟩
  obtain ⟨settings, hok⟩ := h.accepted_iff.2 (by decide)
  rw [hrefused] at hok
  cases hok

/-- The settings of the console: both periods fit, so that they are kept as they are. -/
theorem checked_on_kept_periods_console : ∃ settings,
    ofMicros 16000000 16000 7572 90864 = .ok settings ∧
      settings.samplingPeriod = 121152 ∧ settings.redrawPeriod = 1453824 := by
  obtain ⟨-, haccepted, -, hkept, -, -, hfits⟩ := checked_on_kept_periods 16000000 16000 7572 90864
  obtain ⟨settings, hok⟩ := haccepted.2 (by decide)
  obtain ⟨hsampling, hredraw⟩ := hkept settings hok
  have hshort := hfits (by decide)
  exact ⟨settings, hok, hsampling (hshort 7572 (by decide)), hredraw (hshort 90864 (by decide))⟩

end Settings

end Handheld
