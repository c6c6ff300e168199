import Handheld.Proofs.Timeline

/-!
# What the frames of the demo board look at

The buttons are looked at only when a frame is due, and then as the burst found them that plays the
frame. What a pin does between frames, what other pins do, and where the bursts begin and end in
between cannot be told from the board afterwards.

* `DemoBoard.exists_crossing`: every cycle that a board has come to was come to by one act.
* `DemoBoard.timeline_congr`: the events depend on the samples only that the frames up to then took.
* `DemoBoard.eq_of_game_eq`: boards on the beat with the same game at the same cycle differ in their
  pins at most.
* `DemoBoard.sampled_at_frames`: so boards that found the same buttons pressed at each frame do, and
  what became of the cursor and the flags can be computed from the samples.
-/

namespace Handheld

namespace DemoBoard

variable {board other : DemoBoard} {frequency cycle mark : Nat} {acts : List Act}
  {sample sample' : Nat → ButtonMap Bool}

/-! ## Acts, field by field -/

@[simp]
theorem cycle_start (frequency : Nat) : (start frequency).cycle = 0 := rfl

@[simp]
theorem haltAt_start (frequency : Nat) : (start frequency).haltAt = none := rfl

@[simp]
theorem cycle_drive (board : DemoBoard) (pin : Pin) (level : Bool) :
    (board.drive pin level).cycle = board.cycle := rfl

@[simp]
theorem haltAt_drive (board : DemoBoard) (pin : Pin) (level : Bool) :
    (board.drive pin level).haltAt = board.haltAt := rfl

@[simp]
theorem cycle_runBurst (board : DemoBoard) (limit : Nat) :
    (board.runBurst limit).2.cycle = board.burstEnd limit := cycle_runTo ..

@[simp]
theorem haltAt_runBurst (board : DemoBoard) (limit : Nat) :
    (board.runBurst limit).2.haltAt = board.haltAt := haltAt_runTo ..

/-- The entries of other keys can be removed. -/
theorem lookup_filter_ne {α β : Type} [DecidableEq α] {key removed : α} (h : key ≠ removed)
    (entries : List (α × β)) :
    (entries.filter fun entry => entry.1 ≠ removed).lookup key = entries.lookup key := by
  induction entries with
  | nil => rfl
  | cons entry entries ih =>
    by_cases hremoved : entry.1 = removed
    · rw [List.filter_cons_of_neg (by simpa using hremoved), List.lookup_cons,
        beq_false_of_ne (hremoved ▸ h), ih]
    · rw [List.filter_cons_of_pos (by simpa using hremoved), List.lookup_cons, List.lookup_cons, ih]

/-- A pin is at the level to which it was driven last. -/
@[simp]
theorem level_drive (board : DemoBoard) (pin other : Pin) (level : Bool) :
    (board.drive pin level).level other = if other = pin then level else board.level other := by
  simp only [DemoBoard.level, drive, List.lookup_cons]
  split_ifs with h
  · rw [h, beq_self_eq_true]
    rfl
  · rw [beq_false_of_ne h, lookup_filter_ne h]

@[simp]
theorem level_start (frequency : Nat) (pin : Pin) : (start frequency).level pin = true := rfl

@[simp]
theorem level_runBurst (board : DemoBoard) (limit : Nat) (pin : Pin) :
    (board.runBurst limit).2.level pin = board.level pin :=
  runTo_preserves (p := fun next => next.level pin = board.level pin) (fun _ h => h)
    (fun _ _ h => h) rfl _

/-- A cycle that the board has come to it has come to by one of the acts. -/
theorem exists_crossing (hlt : board.cycle < mark) (hle : mark ≤ (board.after acts).cycle) :
    ∃ here, board.crossing acts mark = some here := by
  induction acts generalizing board with
  | nil => exact absurd hle (Nat.not_le_of_lt hlt)
  | cons act acts ih =>
    rw [crossing]
    split
    · exact ⟨board, rfl⟩
    · next hcross => exact ih (Nat.lt_of_not_le fun hmark => hcross ⟨hlt, hmark⟩) hle

theorem sampleAt_of_crossing {here : DemoBoard} (h : board.crossing acts mark = some here) :
    board.sampleAt acts mark = here.pressed := by
  rw [sampleAt, h, Option.map_some, Option.getD_some]

theorem pressed_congr (h : ∀ button : Button, other.level button.pin = board.level button.pin) :
    other.pressed = board.pressed := by
  refine ButtonMap.ext_get fun button => ?_
  rw [pressed, pressed, ButtonMap.get_ofFn, ButtonMap.get_ofFn, h]

/-- The events up to a cycle depend on the samples of the frames up to it only. -/
theorem timeline_congr
    (h : ∀ k, 1 ≤ k → k * framePeriodOf frequency ≤ cycle → sample k = sample' k) :
    timeline frequency sample cycle = timeline frequency sample' cycle := by
  induction cycle with
  | zero => rfl
  | succ cycle ih =>
    rw [timeline, timeline, eventsAt, eventsAt, ih fun k hk hle => h k hk (Nat.le_succ_of_le hle)]
    by_cases hframe : framePeriodOf frequency ∣ cycle + 1
    · have hpos : 0 < framePeriodOf frequency := Nat.pos_of_dvd_of_pos hframe (Nat.succ_pos cycle)
      rw [h _ (Nat.div_pos (Nat.le_of_dvd (Nat.succ_pos cycle) hframe) hpos)
        (Nat.div_mul_le_self ..)]
    · rw [if_neg hframe, if_neg hframe]

/-- Boards on the beat that play the same game at the same cycle differ in their pins at most. -/
theorem eq_of_game_eq (hboard : board.OnBeat) (hother : other.OnBeat)
    (hfrequency : other.frequency = board.frequency) (hcycle : other.cycle = board.cycle)
    (hhalt : other.haltAt = board.haltAt) (hgame : other.game = board.game) :
    { other with pins := board.pins } = board := by
  obtain ⟨hframe, hstrobe⟩ := hboard
  obtain ⟨hframe', hstrobe'⟩ := hother
  cases board
  cases other
  simp only [framePeriod, strobePeriod] at *
  subst hframe hstrobe hframe' hstrobe' hfrequency hcycle hhalt hgame
  rfl

/-- Boards whose frames took the same samples differ in their pins at most. -/
theorem eq_of_sampleAt_eq {others : List Act}
    (hhalt : ((start frequency).after others).haltAt = ((start frequency).after acts).haltAt)
    (hcycle : ((start frequency).after others).cycle = ((start frequency).after acts).cycle)
    (hsample : ∀ k, 1 ≤ k →
      k * framePeriodOf frequency ≤ ((start frequency).after acts).cycle →
      (start frequency).sampleAt others (k * framePeriodOf frequency) =
        (start frequency).sampleAt acts (k * framePeriodOf frequency)) :
    { (start frequency).after others with pins := ((start frequency).after acts).pins } =
      (start frequency).after acts := by
  refine eq_of_game_eq ((onBeat_start frequency).after acts) ((onBeat_start frequency).after others)
    ((frequency_after ..).trans (frequency_after ..).symm) hcycle hhalt ?_
  rw [game_after_start, game_after_start, played_eq_timeline, played_eq_timeline, hcycle]
  exact congrArg Game.play (timeline_congr hsample)

/-- The samples of the frames, one for each multiple of their period. -/
theorem samples_played (frequency : Nat) (acts : List Act) :
    Game.samples ((start frequency).played acts) =
      (List.range (((start frequency).after acts).cycle / framePeriodOf frequency)).map fun k =>
        (start frequency).sampleAt acts ((k + 1) * framePeriodOf frequency) := by
  rw [played_eq_timeline, samples_timeline]

/-- The buttons are looked at only at frames. Let two boards of a frequency, told to finish at the
    same cycle, have come to the same cycle. If for each frame both found every button's pin at the
    same level when the burst began that plays it, they are equal but for their pins. What the
    frames found pressed tells how often A and B were struck, and with it inversion and strobing,
    and it tells the place of the cursor. -/
theorem sampled_at_frames (frequency : Nat) (acts : List Act) :
    let F := max (frequency / 60) 1
    let board := (start frequency).after acts
    let samples := Game.samples ((start frequency).played acts)
    (∀ others, let other := (start frequency).after others
      other.haltAt = board.haltAt → other.cycle = board.cycle →
      (∀ k, 1 ≤ k → k * F ≤ board.cycle → ∀ here there,
        (start frequency).crossing acts (k * F) = some here →
        (start frequency).crossing others (k * F) = some there →
        ∀ button : Button, there.level button.pin = here.level button.pin) →
      { other with pins := board.pins } = board) ∧
    samples.length = board.cycle / F ∧
    (∀ k < samples.length, ∃ here,
      (start frequency).crossing acts ((k + 1) * F) = some here ∧
        samples[k]? = some here.pressed) ∧
    (board.game.inverted = true ↔ Odd (Game.strikes .a samples)) ∧
    (board.game.strobing = true ↔ Odd (Game.strikes .b samples)) ∧
    ((board.game.cursor.1 : Int), (board.game.cursor.2 : Int)) =
      samples.foldl Game.nudge (64, 32) := by
  intro F board samples
  have hgame : board.game = Game.play ((start frequency).played acts) := game_after_start ..
  have hcross (acts : List Act) {k : Nat} (hk : 1 ≤ k)
      (hle : k * F ≤ ((start frequency).after acts).cycle) :
      ∃ here, (start frequency).crossing acts (k * F) = some here :=
    exists_crossing (Nat.mul_pos hk (start frequency).framePeriod_pos) hle
  have hsamples : samples = (List.range (board.cycle / F)).map fun k =>
      (start frequency).sampleAt acts ((k + 1) * F) := samples_played ..
  have hlength : samples.length = board.cycle / F := by
    rw [hsamples, List.length_map, List.length_range]
  obtain ⟨-, hinverted, hstrobing⟩ := Game.flags_play ((start frequency).played acts)
  obtain ⟨hcursor, -, -⟩ := Game.cursor_play ((start frequency).played acts)
  rw [hgame]
  refine ⟨?_, hlength, fun k hk => ?_, hinverted, hstrobing, hcursor.symm⟩
  · intro others other hhalt hcycle hlevel
    refine eq_of_sampleAt_eq hhalt hcycle fun k hk hle => ?_
    -- Both frames take the sample that the burst to come to them found.
    obtain ⟨here, hhere⟩ := hcross acts hk hle
    obtain ⟨there, hthere⟩ := hcross others hk (Nat.le_trans hle (Nat.le_of_eq hcycle.symm))
    calc (start frequency).sampleAt others (k * F)
      _ = there.pressed := sampleAt_of_crossing hthere
      _ = here.pressed := pressed_congr (hlevel k hk hle here there hhere hthere)
      _ = (start frequency).sampleAt acts (k * F) := (sampleAt_of_crossing hhere).symm
  · have hlt : k < board.cycle / F := hlength ▸ hk
    have hle : (k + 1) * F ≤ board.cycle :=
      Nat.le_trans (Nat.mul_le_mul_right F hlt) (Nat.div_mul_le_self ..)
    obtain ⟨here, hhere⟩ := hcross acts (Nat.succ_pos k) hle
    refine ⟨here, hhere, ?_⟩
    rw [hsamples, List.getElem?_map, List.getElem?_range hlt, Option.map_some,
      sampleAt_of_crossing hhere]

/-- Between two frames a button may be struck, and another pin driven. -/
theorem sampled_at_frames_struck :
    let board := (start 600).after [.drive Button.right.pin false, .run 12,
      .drive Button.right.pin true, .run 13]
    let other := (start 600).after [.drive Button.right.pin false, .run 5,
      .drive Button.a.pin false, .drive ⟨'C', 3⟩ false, .run 3, .drive Button.a.pin true, .run 4,
      .drive Button.right.pin true, .run 13]
    other.haltAt = board.haltAt ∧ other.cycle = board.cycle ∧
      { other with pins := board.pins } = board := by
  intro board other
  have hhalt : other.haltAt = board.haltAt := by simp [other, board, after, act]
  have hboard : board.cycle = 25 := by simp [board, after, act, burstEnd]
  have hother : other.cycle = 25 := by simp [other, after, act, burstEnd]
  have hcycle : other.cycle = board.cycle := hother.trans hboard.symm
  refine ⟨hhalt, hcycle, (sampled_at_frames 600 _).1 _ hhalt hcycle ?_⟩
  intro k hk hle here there hhere hthere button
  have hframe : k = 1 ∨ k = 2 := by
    change k * 10 ≤ board.cycle at hle
    omega
  obtain rfl | rfl := hframe <;>
  · simp [crossing, act, burstEnd] at hhere hthere
    subst hhere hthere
    cases button <;> simp [Button.pin]

end DemoBoard

end Handheld
