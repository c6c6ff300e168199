import Handheld.Proofs.DemoRun
import Handheld.Proofs.Play
import Mathlib.Logic.Function.Iterate

/-!
# The timeline of the demo board

What a demo board does is fixed when it is reset: it strobes on every multiple of one period and
plays a frame on every multiple of another, the strobe first where both fall on the same cycle. What
is done to it from outside decides when it gets there, and what its frames find pressed; the events
themselves it does not move.

* `DemoBoard.after`, `DemoBoard.played`: the board after acts from outside, and the events that it
  has played on the way. Its game is the play of them (`DemoBoard.game_after`). What acts lead to
  after a reset are the reachable boards (`DemoBoard.reachable_iff`).
* `DemoBoard.OnBeat`: both next events are the first multiples of their periods that are yet to
  come. This holds of every board that was reset, whatever was done to it since.
* `DemoBoard.played_eq_timeline`: the events in closed form. A frame samples the buttons as they
  were when the burst began that came to it (`DemoBoard.sampleAt`).
* `DemoBoard.OnBeat.exists_turns`: the loop of a burst ends.
* `DemoBoard.burst_split` and `DemoBoard.state_of_cycle` put these together: a burst can be cut in
  two anywhere, and the present cycle tells all that does not depend on the buttons.
-/

namespace Handheld

/-! ## Multiples of a period -/

/-- The first multiple of a period after a cycle. -/
def following (period cycle : Nat) : Nat := (cycle / period + 1) * period

section Following

variable {period cycle now : Nat}

theorem lt_following (hpos : 0 < period) (cycle : Nat) : cycle < following period cycle := by
  rw [following, Nat.mul_comm]
  exact Nat.lt_mul_div_succ cycle hpos

/-- Up to the next multiple the count of those that are past does not change. -/
theorem div_eq_of_lt_following (hle : cycle ≤ now) (hlt : now < following period cycle) :
    now / period = cycle / period := by
  refine Nat.le_antisymm ?_ (Nat.div_le_div_right hle)
  exact Nat.le_of_lt_succ (Nat.div_lt_of_lt_mul (by rwa [Nat.mul_comm]))

theorem following_eq_of_lt (hle : cycle ≤ now) (hlt : now < following period cycle) :
    following period now = following period cycle := by
  rw [following, div_eq_of_lt_following hle hlt, following]

theorem following_following (hpos : 0 < period) (cycle : Nat) :
    following period (following period cycle) = following period cycle + period := by
  rw [following, following, Nat.mul_div_cancel _ hpos, Nat.succ_mul]

/-- No cycle before the next multiple is one. -/
theorem dvd_iff_eq_following (hlt : cycle < now) (hle : now ≤ following period cycle) :
    period ∣ now ↔ now = following period cycle := by
  refine ⟨fun hdvd => Nat.le_antisymm hle ?_, fun heq => heq ▸ Nat.dvd_mul_left ..⟩
  obtain ⟨count, rfl⟩ := hdvd
  have hcount : cycle / period < count := Nat.div_lt_of_lt_mul hlt
  rw [following, Nat.mul_comm]
  exact Nat.mul_le_mul_left period hcount

end Following

namespace DemoBoard

variable {board : DemoBoard} {stop frequency : Nat}

/-! ## Acts and events -/

/-- What can be done to a demo board from outside. -/
inductive Act
  | run (limit : Nat)
  | drive (pin : Pin) (level : Bool)
  | haltAfter (cycles : Nat)
  deriving DecidableEq, Repr

/-- The board after an act. -/
def act (board : DemoBoard) : Act → DemoBoard
  | .run limit => (board.runBurst limit).2
  | .drive pin level => board.drive pin level
  | .haltAfter cycles => board.haltAfter cycles

/-- The board after acts. -/
def after (board : DemoBoard) (acts : List Act) : DemoBoard := acts.foldl act board

/-- The events of the next cycle that has any. -/
def eventsNow (board : DemoBoard) : List Game.Event :=
  (if board.nextEvent = board.nextStrobe then [.strobe] else []) ++
    if board.nextEvent = board.nextFrame then [.frame board.pressed] else []

/-- The events up to the cycle `stop`. -/
def eventsTo (board : DemoBoard) (stop : Nat) : List Game.Event :=
  if board.nextEvent ≤ stop then board.eventsNow ++ board.runEvent.eventsTo stop else []
termination_by stop + 1 - board.nextEvent
decreasing_by
  have := board.nextEvent_lt_runEvent
  omega

/-- The events that an act makes the board play. -/
def eventsOf (board : DemoBoard) : Act → List Game.Event
  | .run limit => board.eventsTo (board.burstEnd limit)
  | .drive .. => []
  | .haltAfter _ => []

/-- The events that acts make the board play. -/
def played (board : DemoBoard) : List Act → List Game.Event
  | [] => []
  | act :: acts => board.eventsOf act ++ (board.act act).played acts

/-- The board as the act finds it that takes it to the cycle `mark`, or past it. -/
def crossing (board : DemoBoard) : List Act → Nat → Option DemoBoard
  | [], _ => none
  | act :: acts, mark =>
    if board.cycle < mark ∧ mark ≤ (board.act act).cycle then some board
    else (board.act act).crossing acts mark

/-- The buttons that are pressed when the burst begins that takes the board to the cycle `mark`, or
    past it. -/
def sampleAt (board : DemoBoard) (acts : List Act) (mark : Nat) : ButtonMap Bool :=
  ((board.crossing acts mark).map pressed).getD (.const false)

/-- The events on a cycle of a board of a frequency, where `sample` has what its frames find
    pressed, the first one at 1. -/
def eventsAt (frequency : Nat) (sample : Nat → ButtonMap Bool) (cycle : Nat) : List Game.Event :=
  (if strobePeriodOf frequency ∣ cycle then [.strobe] else []) ++
    if framePeriodOf frequency ∣ cycle then [.frame (sample (cycle / framePeriodOf frequency))]
    else []

/-- The events on the cycles up to one. -/
def timeline (frequency : Nat) (sample : Nat → ButtonMap Bool) : Nat → List Game.Event
  | 0 => []
  | cycle + 1 => timeline frequency sample cycle ++ eventsAt frequency sample (cycle + 1)

theorem after_concat (board : DemoBoard) (acts : List Act) (act : Act) :
    board.after (acts ++ [act]) = (board.after acts).act act := List.foldl_concat ..

theorem Reachable.act (h : board.Reachable) (act : Act) : (board.act act).Reachable := by
  cases act with
  | run limit => exact h.runBurst limit
  | drive pin level => exact h.drive pin level
  | haltAfter cycles => exact h.haltAfter cycles

/-- The boards that come of a reset are those to which acts lead. -/
theorem reachable_iff :
    board.Reachable ↔ ∃ frequency acts, (start frequency).after acts = board := by
  constructor
  · intro h
    induction h with
    | start frequency => exact ⟨frequency, [], rfl⟩
    | runBurst limit _ ih =>
      obtain ⟨frequency, acts, rfl⟩ := ih
      exact ⟨frequency, acts ++ [.run limit], after_concat ..⟩
    | drive pin level _ ih =>
      obtain ⟨frequency, acts, rfl⟩ := ih
      exact ⟨frequency, acts ++ [.drive pin level], after_concat ..⟩
    | haltAfter cycles _ ih =>
      obtain ⟨frequency, acts, rfl⟩ := ih
      exact ⟨frequency, acts ++ [.haltAfter cycles], after_concat ..⟩
  · rintro ⟨frequency, acts, rfl⟩
    induction acts using List.reverseRecOn with
    | nil => exact .start frequency
    | append_singleton acts act ih =>
      rw [after_concat]
      exact ih.act act

/-! ## The game is the play of the events -/

theorem eventsTo_of_le (h : board.nextEvent ≤ stop) :
    board.eventsTo stop = board.eventsNow ++ board.runEvent.eventsTo stop := by
  rw [eventsTo, if_pos h]

theorem eventsTo_of_lt (h : stop < board.nextEvent) : board.eventsTo stop = [] := by
  rw [eventsTo, if_neg (Nat.not_le_of_lt h)]

theorem game_runEvent (board : DemoBoard) :
    board.runEvent.game = board.eventsNow.foldl Game.act board.game := by
  simp only [runEvent, eventsNow]
  split_ifs <;> rfl

theorem game_runTo (board : DemoBoard) (stop : Nat) :
    (board.runTo stop).game = (board.eventsTo stop).foldl Game.act board.game := by
  induction board using runTo.induct stop with
  | case1 board hle ih =>
    rw [runTo_of_le hle, eventsTo_of_le hle, List.foldl_append, ← game_runEvent, ih]
  | case2 board hlt =>
    rw [runTo_of_lt (Nat.lt_of_not_le hlt), eventsTo_of_lt (Nat.lt_of_not_le hlt), List.foldl_nil]

theorem game_act (board : DemoBoard) (act : Act) :
    (board.act act).game = (board.eventsOf act).foldl Game.act board.game := by
  cases act with
  | run limit => exact game_runTo ..
  | drive pin level => rfl
  | haltAfter cycles => rfl

theorem game_after (board : DemoBoard) (acts : List Act) :
    (board.after acts).game = (board.played acts).foldl Game.act board.game := by
  induction acts generalizing board with
  | nil => rfl
  | cons act acts ih =>
    rw [played, List.foldl_append, ← game_act, ← ih]
    rfl

/-! ## What acts leave alone -/

theorem frequency_act (board : DemoBoard) (act : Act) :
    (board.act act).frequency = board.frequency := by
  cases act with
  | run limit => exact frequency_runTo ..
  | drive pin level => rfl
  | haltAfter cycles => rfl

theorem cycle_le_act (board : DemoBoard) (act : Act) : board.cycle ≤ (board.act act).cycle := by
  cases act with
  | run limit => exact Nat.le_trans (cycle_le_burstEnd ..) (Nat.le_of_eq (cycle_runTo ..).symm)
  | drive pin level => exact Nat.le_refl _
  | haltAfter cycles => exact Nat.le_refl _

theorem frequency_after (board : DemoBoard) (acts : List Act) :
    (board.after acts).frequency = board.frequency := by
  induction acts generalizing board with
  | nil => rfl
  | cons act acts ih => exact (ih _).trans (frequency_act ..)

theorem cycle_le_after (board : DemoBoard) (acts : List Act) :
    board.cycle ≤ (board.after acts).cycle := by
  induction acts generalizing board with
  | nil => exact Nat.le_refl _
  | cons act acts ih => exact Nat.le_trans (cycle_le_act ..) (ih _)

/-! ## On the beat -/

/-- Both next events are the first multiples of their periods that are yet to come. -/
structure OnBeat (board : DemoBoard) : Prop where
  nextFrame : board.nextFrame = following board.framePeriod board.cycle
  nextStrobe : board.nextStrobe = following board.strobePeriod board.cycle

theorem onBeat_start (frequency : Nat) : (start frequency).OnBeat where
  nextFrame := by simp [start, following, framePeriod]
  nextStrobe := by simp [start, following, strobePeriod]

namespace OnBeat

theorem lt_nextEvent (h : board.OnBeat) : board.cycle < board.nextEvent := by
  rw [nextEvent, h.nextFrame, h.nextStrobe]
  exact lt_min (lt_following board.framePeriod_pos _) (lt_following board.strobePeriod_pos _)

/-- Until the next event time may pass. -/
theorem pass (h : board.OnBeat) (hle : board.cycle ≤ stop) (hlt : stop < board.nextEvent) :
    OnBeat { board with cycle := stop } := by
  have hframe : stop < board.nextFrame := Nat.lt_of_lt_of_le hlt (Nat.min_le_left ..)
  have hstrobe : stop < board.nextStrobe := Nat.lt_of_lt_of_le hlt (Nat.min_le_right ..)
  rw [h.nextFrame] at hframe
  rw [h.nextStrobe] at hstrobe
  exact ⟨h.nextFrame.trans (following_eq_of_lt hle hframe).symm,
    h.nextStrobe.trans (following_eq_of_lt hle hstrobe).symm⟩

/-- An event that is due is put off by a period, one that is not stays where it is. -/
theorem reschedule {period cycle now : Nat} (hpos : 0 < period) (hle : cycle ≤ now)
    (hnow : now ≤ following period cycle) :
    (if now = following period cycle then following period cycle + period
      else following period cycle) = following period now := by
  split
  · next heq => rw [heq, following_following hpos]
  · next hne => rw [following_eq_of_lt hle (Nat.lt_of_le_of_ne hnow hne)]

theorem runEvent (h : board.OnBeat) : board.runEvent.OnBeat := by
  have hlt := h.lt_nextEvent
  have hframe : board.nextEvent ≤ board.nextFrame := Nat.min_le_left ..
  have hstrobe : board.nextEvent ≤ board.nextStrobe := Nat.min_le_right ..
  rw [h.nextFrame] at hframe
  rw [h.nextStrobe] at hstrobe
  constructor
  · simp only [DemoBoard.runEvent, h.nextFrame]
    exact reschedule board.framePeriod_pos (Nat.le_of_lt hlt) hframe
  · simp only [DemoBoard.runEvent, h.nextStrobe]
    exact reschedule board.strobePeriod_pos (Nat.le_of_lt hlt) hstrobe

theorem runTo (h : board.OnBeat) (hle : board.cycle ≤ stop) : (board.runTo stop).OnBeat := by
  induction board using runTo.induct stop with
  | case1 board hnext ih =>
    rw [runTo_of_le hnext]
    exact ih h.runEvent hnext
  | case2 board hnext =>
    rw [runTo_of_lt (Nat.lt_of_not_le hnext)]
    exact h.pass hle (Nat.lt_of_not_le hnext)

theorem act (h : board.OnBeat) (act : Act) : (board.act act).OnBeat := by
  cases act with
  | run limit => exact h.runTo (cycle_le_burstEnd ..)
  | drive pin level => exact ⟨h.nextFrame, h.nextStrobe⟩
  | haltAfter cycles => exact ⟨h.nextFrame, h.nextStrobe⟩

theorem after (h : board.OnBeat) (acts : List Act) : (board.after acts).OnBeat := by
  induction acts generalizing board with
  | nil => exact h
  | cons act acts ih => exact ih (h.act act)

/-! ## The events in closed form -/

variable {sample : Nat → ButtonMap Bool}

/-- A multiple of a period that is not past is the next one, or comes after it. -/
theorem dvd_iff (h : board.OnBeat) {now : Nat} (hlt : board.cycle < now)
    (hle : now ≤ board.nextEvent) :
    (board.strobePeriod ∣ now ↔ now = board.nextStrobe) ∧
      (board.framePeriod ∣ now ↔ now = board.nextFrame) := by
  have hstrobe : now ≤ board.nextStrobe := Nat.le_trans hle (Nat.min_le_right ..)
  have hframe : now ≤ board.nextFrame := Nat.le_trans hle (Nat.min_le_left ..)
  rw [h.nextStrobe] at hstrobe ⊢
  rw [h.nextFrame] at hframe ⊢
  exact ⟨dvd_iff_eq_following hlt hstrobe, dvd_iff_eq_following hlt hframe⟩

/-- Until the next event nothing is added to the timeline. -/
theorem timeline_of_lt (h : board.OnBeat) {now : Nat} (hle : board.cycle ≤ now)
    (hlt : now < board.nextEvent) :
    timeline board.frequency sample now = timeline board.frequency sample board.cycle := by
  induction now, hle using Nat.le_induction with
  | base => rfl
  | succ now hle ih =>
    obtain ⟨hstrobe, hframe⟩ := h.dvd_iff (Nat.lt_succ_of_le hle) (Nat.le_of_lt hlt)
    have hnostrobe : ¬strobePeriodOf board.frequency ∣ now + 1 :=
      mt hstrobe.1 (Nat.ne_of_lt (Nat.lt_of_lt_of_le hlt (Nat.min_le_right ..)))
    have hnoframe : ¬framePeriodOf board.frequency ∣ now + 1 :=
      mt hframe.1 (Nat.ne_of_lt (Nat.lt_of_lt_of_le hlt (Nat.min_le_left ..)))
    rw [timeline, eventsAt, if_neg hnostrobe, if_neg hnoframe, ih (Nat.lt_of_succ_lt hlt)]
    exact List.append_nil _

/-- The next events are added on their cycle. -/
theorem timeline_nextEvent (h : board.OnBeat)
    (hsample : board.framePeriod ∣ board.nextEvent →
      sample (board.nextEvent / board.framePeriod) = board.pressed) :
    timeline board.frequency sample board.nextEvent =
      timeline board.frequency sample board.cycle ++ board.eventsNow := by
  have hlt := h.lt_nextEvent
  obtain ⟨hstrobe, hframe⟩ := h.dvd_iff hlt (Nat.le_refl _)
  have hnow : eventsAt board.frequency sample board.nextEvent = board.eventsNow := by
    change (if board.strobePeriod ∣ board.nextEvent then [.strobe] else []) ++
      (if board.framePeriod ∣ board.nextEvent then
        [.frame (sample (board.nextEvent / board.framePeriod))] else []) = board.eventsNow
    rw [eventsNow]
    simp only [hstrobe]
    by_cases hdue : board.nextEvent = board.nextFrame
    · rw [if_pos (hframe.2 hdue), if_pos hdue, hsample (hframe.2 hdue)]
    · rw [if_neg (mt hframe.1 hdue), if_neg hdue]
  obtain ⟨before, hbefore⟩ := Nat.exists_eq_succ_of_ne_zero (Nat.ne_zero_of_lt hlt)
  have hquiet : timeline board.frequency sample before =
      timeline board.frequency sample board.cycle := h.timeline_of_lt (by omega) (by omega)
  rw [← hnow, ← hquiet, hbefore]
  rfl

/-- A run adds its events, if its frames are to find what is pressed now. -/
theorem timeline_runTo (h : board.OnBeat) (hle : board.cycle ≤ stop)
    (hsample : ∀ k, board.cycle < k * board.framePeriod → k * board.framePeriod ≤ stop →
      sample k = board.pressed) :
    timeline board.frequency sample stop =
      timeline board.frequency sample board.cycle ++ board.eventsTo stop := by
  induction board using runTo.induct stop with
  | case1 board hnext ih =>
    have hlt := h.lt_nextEvent
    have hsampleNow : board.framePeriod ∣ board.nextEvent →
        sample (board.nextEvent / board.framePeriod) = board.pressed := by
      intro hdvd
      have hmul := Nat.div_mul_cancel hdvd
      exact hsample _ (Nat.lt_of_lt_of_eq hlt hmul.symm)
        (Nat.le_trans (Nat.le_of_eq hmul) hnext)
    -- The rest of the run goes on from the events that come now.
    have hrest := ih h.runEvent hnext fun k hk => hsample k (Nat.lt_trans hlt hk)
    rw [eventsTo_of_le hnext, ← List.append_assoc, ← h.timeline_nextEvent hsampleNow]
    exact hrest
  | case2 board hnext =>
    have hlt := Nat.lt_of_not_le hnext
    rw [eventsTo_of_lt hlt, List.append_nil]
    exact h.timeline_of_lt hle hlt

theorem timeline_act (h : board.OnBeat) (act : Act)
    (hsample : ∀ k, board.cycle < k * board.framePeriod →
      k * board.framePeriod ≤ (board.act act).cycle → sample k = board.pressed) :
    timeline board.frequency sample (board.act act).cycle =
      timeline board.frequency sample board.cycle ++ board.eventsOf act := by
  cases act with
  | run limit =>
    have hstop : (board.act (.run limit)).cycle = board.burstEnd limit := cycle_runTo ..
    rw [hstop] at hsample ⊢
    exact h.timeline_runTo (cycle_le_burstEnd ..) hsample
  | drive pin level => exact (List.append_nil _).symm
  | haltAfter cycles => exact (List.append_nil _).symm

theorem timeline_after (h : board.OnBeat) (acts : List Act)
    (hsample : ∀ k, board.cycle < k * board.framePeriod →
      k * board.framePeriod ≤ (board.after acts).cycle →
      sample k = board.sampleAt acts (k * board.framePeriod)) :
    timeline board.frequency sample (board.after acts).cycle =
      timeline board.frequency sample board.cycle ++ board.played acts := by
  induction acts generalizing board with
  | nil => exact (List.append_nil _).symm
  | cons act acts ih =>
    have hperiod : (board.act act).framePeriod = board.framePeriod :=
      congrArg framePeriodOf (frequency_act ..)
    have hfirst : timeline board.frequency sample (board.act act).cycle =
        timeline board.frequency sample board.cycle ++ board.eventsOf act := by
      refine h.timeline_act act fun k hlt hle => ?_
      rw [hsample k hlt (Nat.le_trans hle (cycle_le_after ..)), sampleAt, crossing,
        if_pos ⟨hlt, hle⟩]
      rfl
    have hrest := ih (h.act act) fun k hlt hle => by
      rw [hperiod] at hlt ⊢
      have hpast : board.cycle < k * board.framePeriod := Nat.lt_of_le_of_lt (cycle_le_act ..) hlt
      rw [hsample k hpast (hperiod ▸ hle), sampleAt, crossing,
        if_neg fun hcross => Nat.not_le_of_lt hlt hcross.2]
      rfl
    rw [frequency_act] at hrest
    rw [played, ← List.append_assoc, ← hfirst]
    exact hrest

/-- The loop of a burst ends, after no more turns than there are cycles left. It leaves at the first
    event that lies past the end of the burst, and there time passes up to the end. -/
theorem exists_turns (h : board.OnBeat) (hle : board.cycle ≤ stop) :
    ∃ turns ≤ stop - board.cycle,
      (∀ turn < turns, (DemoBoard.runEvent^[turn] board).nextEvent ≤ stop) ∧
      stop < (DemoBoard.runEvent^[turns] board).nextEvent ∧
      board.runTo stop = { DemoBoard.runEvent^[turns] board with cycle := stop } := by
  induction board using runTo.induct stop with
  | case1 board hnext ih =>
    have hlt := h.lt_nextEvent
    have hnow : board.runEvent.cycle = board.nextEvent := rfl
    obtain ⟨turns, hturns, hbefore, hpast, hrun⟩ := ih h.runEvent hnext
    refine ⟨turns + 1, by omega, fun turn hturn => ?_, hpast, (runTo_of_le hnext).trans hrun⟩
    cases turn with
    | zero => exact hnext
    | succ turn => exact hbefore turn (Nat.lt_of_succ_lt_succ hturn)
  | case2 board hnext =>
    exact ⟨0, Nat.zero_le _, fun turn hturn => absurd hturn (Nat.not_lt_zero turn),
      Nat.lt_of_not_le hnext, runTo_of_lt (Nat.lt_of_not_le hnext)⟩

end OnBeat

/-! ## A board that was reset -/

/-- All that happens to a board after its reset, in closed form. -/
theorem played_eq_timeline (frequency : Nat) (acts : List Act) :
    (start frequency).played acts =
      timeline frequency
        (fun k => (start frequency).sampleAt acts (k * framePeriodOf frequency))
        ((start frequency).after acts).cycle :=
  ((onBeat_start frequency).timeline_after acts fun _ _ _ => rfl).symm

theorem game_after_start (frequency : Nat) (acts : List Act) :
    ((start frequency).after acts).game = Game.play ((start frequency).played acts) :=
  game_after ..

/-- There is a strobe for each multiple of its period. -/
theorem strobes_timeline (frequency : Nat) (sample : Nat → ButtonMap Bool) (cycle : Nat) :
    Game.strobes (timeline frequency sample cycle) = cycle / strobePeriodOf frequency := by
  induction cycle with
  | zero => exact (Nat.zero_div _).symm
  | succ cycle ih =>
    rw [timeline, Game.strobes_append, ih, Nat.succ_div, eventsAt]
    split_ifs <;> rfl

/-- There is a frame for each multiple of its period, and each takes its own sample. -/
theorem samples_timeline (frequency : Nat) (sample : Nat → ButtonMap Bool) (cycle : Nat) :
    Game.samples (timeline frequency sample cycle) =
      (List.range (cycle / framePeriodOf frequency)).map fun k => sample (k + 1) := by
  induction cycle with
  | zero =>
    rw [Nat.zero_div]
    rfl
  | succ cycle ih =>
    rw [timeline, Game.samples_append, ih, Nat.succ_div, eventsAt]
    by_cases hframe : framePeriodOf frequency ∣ cycle + 1
    · rw [if_pos hframe, if_pos hframe, Nat.succ_div_of_dvd hframe, List.range_succ,
        List.map_append]
      split_ifs <;> rfl
    · rw [if_neg hframe, if_neg hframe]
      split_ifs <;> exact List.append_nil _

/-- A burst can be cut in two anywhere: the two halves lead where the whole leads, their cycles add
    up to its cycles, and the second half ends as it does. A burst of no cycles changes nothing. -/
theorem burst_split (frequency : Nat) (acts : List Act) (a b : Nat) :
    let board := (start frequency).after acts
    let first := board.runBurst a
    let second := first.2.runBurst b
    let whole := board.runBurst (a + b)
    second.2 = whole.2 ∧
      first.1.cycles + second.1.cycles = whole.1.cycles ∧
      second.1.state = whole.1.state ∧
      (board.runBurst 0).2 = board ∧
      (board.runBurst 0).1.cycles = 0 := by
  intro board first second whole
  have hboard : board.OnBeat := (onBeat_start frequency).after acts
  have hwhole : whole = ({ cycles := first.1.cycles + second.1.cycles, state := second.1.state },
      second.2) := runBurst_add board a b
  -- Without time the burst ends where it begins, before the next event.
  have hstop : board.burstEnd 0 = board.cycle :=
    Nat.le_antisymm (burstEnd_le board 0) (cycle_le_burstEnd board 0)
  rw [hwhole]
  refine ⟨rfl, rfl, rfl, ?_, ?_⟩
  · simp only [runBurst, hstop]
    exact runTo_of_lt hboard.lt_nextEvent
  · simp only [runBurst, hstop, Nat.sub_self]

/-- The length of a burst, and what stops it. -/
theorem cycles_runBurst (board : DemoBoard) (limit : Nat) :
    (board.runBurst limit).1.cycles =
      match board.haltAt with
      | none => limit
      | some halt => min limit (halt - board.cycle) := by
  simp only [runBurst, burstEnd]
  cases board.haltAt with
  | none => exact Nat.add_sub_cancel_left ..
  | some halt => simp only; omega

theorem state_runBurst (board : DemoBoard) (limit : Nat) :
    ((board.runBurst limit).1.state = .done ↔
        ∃ halt, board.haltAt = some halt ∧ halt ≤ (board.runBurst limit).2.cycle) ∧
      ((board.runBurst limit).1.state ≠ .done → (board.runBurst limit).1.state = .running) := by
  simp only [runBurst, cycle_runTo]
  cases board.haltAt with
  | none => simp
  | some halt => simp

/-- The present cycle of a board tells when its next events come, the phase of the strobe, how many
    frames were played and where the ball is, whatever was done to the board. Each burst reports the
    cycles it took, which are those asked for up to the end of the program, and whether it got
    there; its loop ends. -/
theorem state_of_cycle (frequency : Nat) (acts : List Act) :
    let board := (start frequency).after acts
    let events := (start frequency).played acts
    let F := max (frequency / 60) 1
    let S := max (frequency / 1000) 1
    let n := board.cycle / F
    board.nextFrame = (board.cycle / F + 1) * F ∧
      board.nextStrobe = (board.cycle / S + 1) * S ∧
      (board.game.strobeLit = true ↔ Odd (board.cycle / S)) ∧
      board.game = Game.play events ∧
      (Game.samples events).length = n ∧
      board.game.ball = (Game.sweep 125 (10 + n), Game.sweep 61 (10 + n)) ∧
      ∀ limit,
        let burst := (board.runBurst limit).1
        let next := (board.runBurst limit).2
        next.cycle = board.cycle + burst.cycles ∧
          burst.cycles = (match board.haltAt with
            | none => limit
            | some halt => min limit (halt - board.cycle)) ∧
          (burst.state = .done ↔ ∃ halt, board.haltAt = some halt ∧ halt ≤ next.cycle) ∧
          (burst.state ≠ .done → burst.state = .running) ∧
          ∃ turns ≤ burst.cycles,
            (∀ turn < turns, (runEvent^[turn] board).nextEvent ≤ next.cycle) ∧
            next.cycle < (runEvent^[turns] board).nextEvent ∧
            next = { runEvent^[turns] board with cycle := next.cycle } := by
  intro board events F S n
  have hboard : board.OnBeat := (onBeat_start frequency).after acts
  have hfrequency : board.frequency = frequency := frequency_after ..
  have hgame : board.game = Game.play events := game_after_start ..
  have hevents : events = timeline frequency _ board.cycle := played_eq_timeline ..
  have hstrobes : Game.strobes events = board.cycle / S := by
    rw [hevents]
    exact strobes_timeline ..
  have hframes : (Game.samples events).length = n := by
    rw [hevents, samples_timeline, List.length_map, List.length_range]
    rfl
  refine ⟨?_, ?_, ?_, hgame, hframes, ?_, fun limit => ?_⟩
  · have hnext := hboard.nextFrame
    rwa [framePeriod, hfrequency] at hnext
  · have hnext := hboard.nextStrobe
    rwa [strobePeriod, hfrequency] at hnext
  · rw [hgame, Game.strobeLit_play, hstrobes]
  · rw [hgame, (Game.ball_play events).1, hframes]
  · intro burst next
    have hle := cycle_le_burstEnd board limit
    have hstop : next.cycle = board.burstEnd limit := cycle_runTo ..
    obtain ⟨hdone, hrunning⟩ := state_runBurst board limit
    refine ⟨?_, cycles_runBurst board limit, hdone, hrunning, ?_⟩
    · rw [hstop]
      exact (Nat.add_sub_of_le hle).symm
    · rw [hstop]
      exact hboard.exists_turns hle

end DemoBoard

end Handheld
