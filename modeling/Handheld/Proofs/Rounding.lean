import Handheld.Clock
import Mathlib.Algebra.Order.Floor.Div
import Mathlib.Tactic.Common

/-!
# Time is rounded once

A clock multiplies before it divides. What it finds is thus less than one unit below the exact
value, however long the time is (`nanosOfCycles_mul_le`, `lt_nanosOfCycles_succ_mul` and the like
for cycles); every law of the conversions follows from these two bounds.

The console has words of 64 bits. It widens them to 128 bits, where the product of two words always
fits (`toNat_widen_mul`), and narrows the quotient again. For nanoseconds the quotient is capped
first, so that a time too long for a word becomes the largest word; for cycles the upper bits are
dropped. As no clock is faster than its nanoseconds, a time has no more cycles than nanoseconds, and
none of these bits is ever set (`cyclesOfNanos_of_lt`).

* `nanosOfCyclesWord`, `cyclesOfWord`: the conversions as they are computed, in words. They come to
  what `nanosOfCycles` and `cyclesOfNanos` say.
* `conversions_fit`: how the conversions undo each other, and what they make of a sum.
-/

namespace Handheld

/-! ## Words -/

/-- A word of twice the size, in which the conversions multiply and divide. -/
abbrev Wide := BitVec 128

namespace Wide

/-- A word in twice the size. -/
def ofWord (word : UInt64) : Wide := word.toBitVec.setWidth 128

/-- The low half of a wide word. -/
def toWord (wide : Wide) : UInt64 := ⟨wide.setWidth 64⟩

@[simp] theorem toNat_ofWord (word : UInt64) : (ofWord word).toNat = word.toNat := by
  have hword := word.toNat_lt
  rw [ofWord, BitVec.toNat_setWidth, UInt64.toNat_toBitVec]
  exact Nat.mod_eq_of_lt (Nat.lt_trans hword (by decide))

theorem toNat_toWord (wide : Wide) : wide.toWord.toNat = wide.toNat % wordSize := by
  rw [toWord, ← UInt64.toNat_toBitVec, BitVec.toNat_setWidth]
  rfl

/-- The product of two words fits in twice the size. -/
theorem toNat_ofWord_mul (a b : UInt64) :
    (ofWord a * ofWord b).toNat = a.toNat * b.toNat := by
  have hproduct : a.toNat * b.toNat < 2 ^ 64 * 2 ^ 64 := Nat.mul_lt_mul'' a.toNat_lt b.toNat_lt
  rw [← Nat.pow_add] at hproduct
  rw [BitVec.toNat_mul, toNat_ofWord, toNat_ofWord, Nat.mod_eq_of_lt hproduct]

end Wide

namespace Clock

variable {clock : Clock} {hertz cycles nanos : Nat}

/-- The frequency in a word. -/
def frequencyWord (clock : Clock) : UInt64 := UInt64.ofNat clock.frequency

/-- The nanoseconds that a number of cycles takes, as they are computed. -/
def nanosOfCyclesWord (clock : Clock) (cycles : UInt64) : UInt64 :=
  let nanos := Wide.ofWord cycles * Wide.ofWord 1000000000 / Wide.ofWord clock.frequencyWord
  let limit := Wide.ofWord (UInt64.ofNat wordMax)
  (if nanos ≤ limit then nanos else limit).toWord

/-- The whole cycles in a time, as they are computed; a second has `units` units of it. -/
def cyclesOfWord (clock : Clock) (units time : UInt64) : UInt64 :=
  (Wide.ofWord time * Wide.ofWord clock.frequencyWord / Wide.ofWord units).toWord

theorem toNat_frequencyWord (clock : Clock) : clock.frequencyWord.toNat = clock.frequency :=
  UInt64.toNat_ofNat_of_lt' (Nat.lt_of_le_of_lt clock.frequency_le (by decide))

theorem toNat_nanosOfCyclesWord (clock : Clock) (cycles : UInt64) :
    (clock.nanosOfCyclesWord cycles).toNat = clock.nanosOfCycles cycles.toNat := by
  have hnanos : (Wide.ofWord cycles * Wide.ofWord 1000000000 /
      Wide.ofWord clock.frequencyWord).toNat = cycles.toNat * 1000000000 / clock.frequency := by
    rw [BitVec.toNat_udiv, Wide.toNat_ofWord_mul, Wide.toNat_ofWord, toNat_frequencyWord]
    rfl
  have hlimit : (Wide.ofWord (UInt64.ofNat wordMax)).toNat = wordMax := Wide.toNat_ofWord _
  have hfits : ∀ {n : Nat}, n ≤ wordMax → n % wordSize = n := fun h =>
    Nat.mod_eq_of_lt (Nat.lt_of_le_of_lt h (by decide))
  rw [nanosOfCyclesWord, nanosOfCycles, Wide.toNat_toWord]
  simp only [BitVec.le_def, hnanos, hlimit]
  split
  · next h => rw [hnanos, hfits h, Nat.min_eq_left h]
  · next h => rw [hlimit, hfits (Nat.le_refl _), Nat.min_eq_right (Nat.le_of_not_le h)]

theorem toNat_cyclesOfWord (clock : Clock) (units time : UInt64) :
    (clock.cyclesOfWord units time).toNat =
      time.toNat * clock.frequency / units.toNat % wordSize := by
  rw [cyclesOfWord, Wide.toNat_toWord, BitVec.toNat_udiv, Wide.toNat_ofWord_mul, Wide.toNat_ofWord,
    toNat_frequencyWord]

/-! ## By how much is rounded -/

/-- The time of so many cycles fits a word, so that it is not capped. -/
def Fits (clock : Clock) (cycles : Nat) : Prop := cycles * 1000000000 / clock.frequency ≤ wordMax

theorem Fits.mono {fewer : Nat} (h : clock.Fits cycles) (hle : fewer ≤ cycles) :
    clock.Fits fewer :=
  Nat.le_trans (Nat.div_le_div_right (Nat.mul_le_mul_right _ hle)) h

theorem nanosOfCycles_of_fits (h : clock.Fits cycles) :
    clock.nanosOfCycles cycles = cycles * 1000000000 / clock.frequency :=
  Nat.min_eq_left h

theorem nanosOfCycles_le_wordMax (clock : Clock) (cycles : Nat) :
    clock.nanosOfCycles cycles ≤ wordMax :=
  Nat.min_le_right ..

theorem nanosOfCycles_mono (clock : Clock) : Monotone clock.nanosOfCycles := by
  intro fewer more hle
  have hproduct : fewer * 1000000000 ≤ more * 1000000000 := Nat.mul_le_mul_right _ hle
  exact min_le_min_right wordMax (Nat.div_le_div_right hproduct)

/-- The time found is not above the exact time. -/
theorem nanosOfCycles_mul_le (clock : Clock) (cycles : Nat) :
    clock.nanosOfCycles cycles * clock.frequency ≤ cycles * 1000000000 :=
  Nat.le_trans (Nat.mul_le_mul_right _ (Nat.min_le_left ..)) (Nat.div_mul_le_self ..)

/-- It is less than a nanosecond below the exact time, unless it is capped. -/
theorem lt_nanosOfCycles_succ_mul (h : clock.Fits cycles) :
    cycles * 1000000000 < (clock.nanosOfCycles cycles + 1) * clock.frequency := by
  rw [nanosOfCycles_of_fits h, Nat.mul_comm _ clock.frequency]
  exact Nat.lt_mul_div_succ _ clock.frequency_pos

/-- A time has no more cycles than nanoseconds, so their number fits a word if the time does. -/
theorem cyclesOfNanos_of_lt (h : nanos < wordSize) :
    clock.cyclesOfNanos nanos = nanos * clock.frequency / 1000000000 := by
  have hle : nanos * clock.frequency / 1000000000 ≤ nanos := by
    refine Nat.div_le_of_le_mul ?_
    rw [Nat.mul_comm nanos]
    exact Nat.mul_le_mul_right nanos clock.frequency_le
  exact Nat.mod_eq_of_lt (Nat.lt_of_le_of_lt hle h)

/-- The cycles found are not more than the exact number. -/
theorem cyclesOfNanos_mul_le (clock : Clock) (nanos : Nat) :
    clock.cyclesOfNanos nanos * 1000000000 ≤ nanos * clock.frequency :=
  Nat.le_trans (Nat.mul_le_mul_right _ (Nat.mod_le ..)) (Nat.div_mul_le_self ..)

/-- They are less than a cycle short of it. -/
theorem lt_cyclesOfNanos_succ_mul (clock : Clock) (h : nanos < wordSize) :
    nanos * clock.frequency < (clock.cyclesOfNanos nanos + 1) * 1000000000 := by
  rw [cyclesOfNanos_of_lt h, Nat.mul_comm _ 1000000000]
  exact Nat.lt_mul_div_succ _ (by decide)

theorem cyclesOfNanos_mono {sooner later : Nat} (hle : sooner ≤ later) (h : later < wordSize) :
    clock.cyclesOfNanos sooner ≤ clock.cyclesOfNanos later := by
  rw [cyclesOfNanos_of_lt h, cyclesOfNanos_of_lt (Nat.lt_of_le_of_lt hle h)]
  exact Nat.div_le_div_right (Nat.mul_le_mul_right _ hle)

theorem cyclesOfMicros_eq (clock : Clock) (micros : Nat) :
    clock.cyclesOfMicros micros = clock.cyclesOfNanos (1000 * micros) := by
  have hscale : 1000 * (micros * clock.frequency) / (1000 * 1000000) =
      micros * clock.frequency / 1000000 := Nat.mul_div_mul_left _ _ (by decide)
  rw [cyclesOfMicros, cyclesOfNanos, Nat.mul_assoc, ← hscale]

/-! ## There and back -/

theorem cyclesOfNanos_nanosOfCycles_le (clock : Clock) (cycles : Nat) :
    clock.cyclesOfNanos (clock.nanosOfCycles cycles) ≤ cycles := by
  have hback := clock.cyclesOfNanos_mul_le (clock.nanosOfCycles cycles)
  have hthere := clock.nanosOfCycles_mul_le cycles
  exact Nat.le_of_mul_le_mul_right (Nat.le_trans hback hthere) (by decide)

theorem nanosOfCycles_lt_wordSize (clock : Clock) (cycles : Nat) :
    clock.nanosOfCycles cycles < wordSize :=
  Nat.lt_of_le_of_lt (clock.nanosOfCycles_le_wordMax cycles) (by decide)

/-- A cycle is at least a nanosecond long, so what is cut off of its time is less than a cycle. -/
theorem le_cyclesOfNanos_nanosOfCycles (h : clock.Fits cycles) :
    cycles ≤ clock.cyclesOfNanos (clock.nanosOfCycles cycles) + 1 := by
  have hback := clock.lt_cyclesOfNanos_succ_mul (clock.nanosOfCycles_lt_wordSize cycles)
  have hthere := lt_nanosOfCycles_succ_mul h
  have hcycle : clock.frequency ≤ 1000000000 := clock.frequency_le
  rw [Nat.succ_mul] at hthere
  omega

/-- The way there and back loses nothing if nothing is cut off on the way there. -/
theorem cyclesOfNanos_nanosOfCycles_eq_iff (h : clock.Fits cycles) :
    clock.cyclesOfNanos (clock.nanosOfCycles cycles) = cycles ↔
      clock.frequency ∣ cycles * 1000000000 := by
  rw [cyclesOfNanos_of_lt (clock.nanosOfCycles_lt_wordSize cycles)]
  constructor
  · intro hback
    have hthere := clock.nanosOfCycles_mul_le cycles
    have hle := Nat.div_mul_le_self (clock.nanosOfCycles cycles * clock.frequency) 1000000000
    rw [hback] at hle
    exact Dvd.intro_left _ (Nat.le_antisymm hthere hle)
  · intro hdvd
    rw [nanosOfCycles_of_fits h, Nat.div_mul_cancel hdvd, Nat.mul_div_cancel _ (by decide)]

theorem nanosOfCycles_cyclesOfNanos_le (clock : Clock) (nanos : Nat) :
    clock.nanosOfCycles (clock.cyclesOfNanos nanos) ≤ nanos := by
  have hback := clock.nanosOfCycles_mul_le (clock.cyclesOfNanos nanos)
  have hthere := clock.cyclesOfNanos_mul_le nanos
  exact Nat.le_of_mul_le_mul_right (Nat.le_trans hback hthere) clock.frequency_pos

theorem fits_cyclesOfNanos (clock : Clock) (h : nanos < wordSize) :
    clock.Fits (clock.cyclesOfNanos nanos) := by
  have hle : clock.cyclesOfNanos nanos * 1000000000 / clock.frequency ≤ nanos :=
    Nat.div_le_of_le_mul (Nat.mul_comm nanos _ ▸ clock.cyclesOfNanos_mul_le nanos)
  exact Nat.le_trans hle (Nat.le_pred_of_lt h)

/-- A time loses at most the length of a cycle. -/
theorem le_nanosOfCycles_cyclesOfNanos (clock : Clock) (h : nanos < wordSize) :
    nanos ≤ clock.nanosOfCycles (clock.cyclesOfNanos nanos) + 1000000000 ⌈/⌉ clock.frequency := by
  have hthere := clock.lt_cyclesOfNanos_succ_mul h
  have hback := lt_nanosOfCycles_succ_mul (clock.fits_cyclesOfNanos h)
  have hlength : 1000000000 ≤ clock.frequency • (1000000000 ⌈/⌉ clock.frequency) :=
    le_smul_ceilDiv clock.frequency_pos
  refine Nat.le_of_lt_succ (Nat.lt_of_mul_lt_mul_right (a := clock.frequency) ?_)
  calc nanos * clock.frequency
      < clock.cyclesOfNanos nanos * 1000000000 + 1000000000 := by rwa [← Nat.succ_mul]
    _ ≤ (clock.nanosOfCycles (clock.cyclesOfNanos nanos) + 1) * clock.frequency +
          clock.frequency * (1000000000 ⌈/⌉ clock.frequency) :=
        Nat.add_le_add (Nat.le_of_lt hback) hlength
    _ = _ := by rw [Nat.mul_comm clock.frequency, ← Nat.add_mul, Nat.add_right_comm]

/-- The times of two parts add up to the time of the whole, or to a nanosecond less. -/
theorem nanosOfCycles_add {more : Nat} (h : clock.Fits (cycles + more)) :
    clock.nanosOfCycles (cycles + more) = clock.nanosOfCycles cycles + clock.nanosOfCycles more ∨
      clock.nanosOfCycles (cycles + more) =
        clock.nanosOfCycles cycles + clock.nanosOfCycles more + 1 := by
  rw [nanosOfCycles_of_fits h, nanosOfCycles_of_fits (h.mono (Nat.le_add_right ..)),
    nanosOfCycles_of_fits (h.mono (Nat.le_add_left ..)), Nat.add_mul,
    Nat.add_div clock.frequency_pos]
  split
  · exact .inr rfl
  · rw [Nat.add_zero]
    exact .inl rfl

/-! ## The conversions together -/

theorem frequency_of_ofFrequency (h : ofFrequency hertz = .ok clock) : clock.frequency = hertz := by
  rw [ofFrequency] at h
  split at h
  · cases h
    rfl
  · cases h

/-- How the conversions of a clock fit together. In words they are computed without loss: the
    nanoseconds of a number of cycles are rounded down and then capped, the cycles of a number of
    nanoseconds are only rounded down. A longer time has no fewer cycles, and more cycles take no
    less time. As long as the time is not capped, it is less than a nanosecond short, however many
    cycles there are; they come back from it, or one less if their time is not whole; and the times
    of two parts make up the time of the whole, or a nanosecond less. A time comes back from its
    cycles less the length of a cycle at most. Microseconds are thousands of nanoseconds. -/
theorem conversions_fit (h : ofFrequency hertz = .ok clock) :
    (∀ cycles : UInt64,
      (clock.nanosOfCyclesWord cycles).toNat = clock.nanosOfCycles cycles.toNat) ∧
    (∀ nanos : UInt64,
      (clock.cyclesOfWord 1000000000 nanos).toNat = clock.cyclesOfNanos nanos.toNat) ∧
    (∀ micros : UInt64,
      (clock.cyclesOfWord 1000000 micros).toNat = clock.cyclesOfMicros micros.toNat) ∧
    (∀ cycles, clock.nanosOfCycles cycles = min (cycles * 1000000000 / hertz) (2 ^ 64 - 1)) ∧
    (∀ nanos < 2 ^ 64, clock.cyclesOfNanos nanos = nanos * hertz / 1000000000) ∧
    Monotone clock.nanosOfCycles ∧
    (∀ sooner later, sooner ≤ later → later < 2 ^ 64 →
      clock.cyclesOfNanos sooner ≤ clock.cyclesOfNanos later) ∧
    (∀ cycles, cycles * 1000000000 / hertz ≤ 2 ^ 64 - 1 →
      (clock.nanosOfCycles cycles * hertz ≤ cycles * 1000000000 ∧
        cycles * 1000000000 < (clock.nanosOfCycles cycles + 1) * hertz) ∧
      (clock.cyclesOfNanos (clock.nanosOfCycles cycles) = cycles ∨
        clock.cyclesOfNanos (clock.nanosOfCycles cycles) + 1 = cycles) ∧
      (clock.cyclesOfNanos (clock.nanosOfCycles cycles) = cycles ↔ hertz ∣ cycles * 1000000000)) ∧
    (∀ nanos < 2 ^ 64, clock.nanosOfCycles (clock.cyclesOfNanos nanos) ≤ nanos ∧
      nanos - clock.nanosOfCycles (clock.cyclesOfNanos nanos) ≤ 1000000000 ⌈/⌉ hertz) ∧
    (∀ cycles more, (cycles + more) * 1000000000 / hertz ≤ 2 ^ 64 - 1 →
      clock.nanosOfCycles (cycles + more) =
          clock.nanosOfCycles cycles + clock.nanosOfCycles more ∨
        clock.nanosOfCycles (cycles + more) =
          clock.nanosOfCycles cycles + clock.nanosOfCycles more + 1) ∧
    ∀ micros, clock.cyclesOfMicros micros = clock.cyclesOfNanos (1000 * micros) := by
  obtain rfl := frequency_of_ofFrequency h
  refine ⟨clock.toNat_nanosOfCyclesWord, clock.toNat_cyclesOfWord 1000000000,
    clock.toNat_cyclesOfWord 1000000, fun cycles => rfl, fun nanos => cyclesOfNanos_of_lt,
    clock.nanosOfCycles_mono, fun sooner later => cyclesOfNanos_mono, fun cycles hfits => ?_,
    fun nanos hnanos => ?_, fun cycles more => nanosOfCycles_add, clock.cyclesOfMicros_eq⟩
  · have hle := clock.cyclesOfNanos_nanosOfCycles_le cycles
    have hge := le_cyclesOfNanos_nanosOfCycles hfits
    exact ⟨⟨clock.nanosOfCycles_mul_le cycles, lt_nanosOfCycles_succ_mul hfits⟩, by omega,
      cyclesOfNanos_nanosOfCycles_eq_iff hfits⟩
  · exact ⟨clock.nanosOfCycles_cyclesOfNanos_le nanos,
      Nat.sub_le_iff_le_add'.2 (clock.le_nanosOfCycles_cyclesOfNanos hnanos)⟩

/-- Five cycles of sixteen in a microsecond take 312 whole nanoseconds, in which only four fit. -/
theorem conversions_fit_sixteen : ∃ clock, ofFrequency 16000000 = .ok clock ∧
    clock.nanosOfCycles 5 = 312 ∧ clock.cyclesOfNanos (clock.nanosOfCycles 5) + 1 = 5 := by
  have hclock : ofFrequency 16000000 = .ok ⟨16000000, by decide, by decide⟩ := rfl
  refine ⟨_, hclock, rfl, ?_⟩
  obtain ⟨-, -, -, -, -, -, -, hcycles, -⟩ := conversions_fit hclock
  obtain ⟨-, hback, hwhole⟩ := hcycles 5 (by decide)
  exact hback.resolve_left fun hsame => absurd (hwhole.1 hsame) (by decide)

end Clock

end Handheld
