import Handheld.Proofs.Acceptance
import Handheld.Proofs.Rounds
import Mathlib.Algebra.Order.Floor.Div

/-!
# Idling comes to an end

A scheduler that idles makes one step after the other until one of them does not just go on. Nothing
in that loop counts down. What makes it end is the redraw deadline: it stays where it is as long as
the steps go on, whatever the other timer does, and every burst takes the cycle counter nearer to it
(`Board.Gaining`), while driving pins never takes it back (`Board.Onward`).

* `Scheduler.burstEnds`: the bursts that steps make one after the other, each with the state in
  which it ended and the cycle at which it did. The steps do not stop for a redraw here.
* `Scheduler.Poised`: a scheduler that is fitted to its board and running. Every moment of a run is
  such a one (`Ongoing.poised`), and on a board that stands still while pins are driven the redraw
  deadline lies ahead of it (`Ongoing.ahead`).
* `Scheduler.Poised.step_ok`: what a step of such a scheduler comes to is told by its burst. If that
  ended the program the step ends; if it reached the deadline the step yields; otherwise the step
  goes on, and the deadline stays.
* `Scheduler.Breaks`: the faults in which a step can break off. They are not of the scheduler's own
  making: a burst fails, or a picture memory has not a byte for each eight pixels.

`Scheduler.idle_stops` puts them together: how many bursts idling takes at most, which one is its
last, and what it then comes to.
-/

namespace Handheld

/-- A timer that was looked at is due later. -/
theorem Timer.lt_deadline_poll (timer : Timer) (now : Nat) : now < (timer.poll now).deadline := by
  rcases Nat.lt_or_ge now timer.deadline with hahead | hdue
  · rwa [(poll_of_lt hahead).1]
  · rw [(poll_of_le hdue).1]
    rcases Nat.lt_or_ge now (timer.deadline + timer.period) with hlate | hlost
    · rwa [deadline_reschedule_of_lt hlate]
    · rw [deadline_reschedule_of_le hlost]
      exact Nat.lt_add_of_pos_right timer.period_pos

/-- Driving a pin never takes the cycle counter of a board back. -/
def Board.Onward (σ : Type) [Board σ] : Prop :=
  ∀ (board : σ) (pin : Pin) (level : Bool),
    Board.cycle board ≤ Board.cycle (Board.drive board pin level)

/-- The cycle counter of a board never goes back between bursts, and every burst of `limit` cycles
    that does not end the program takes it at least `gain` cycles further. -/
structure Board.Gaining (σ : Type) [Board σ] (limit gain : Nat) : Prop where
  onward : Board.Onward σ
  gain_pos : 0 < gain
  gain_le : ∀ {board next : σ} {burst : Burst},
    Board.runBurst board limit = .ok (burst, next) → burst.state.isTerminal = false →
      Board.cycle board + gain ≤ Board.cycle next

section Onward

variable {σ : Type} [Board σ]

theorem Board.Onward.drive (onward : Board.Onward σ) {cycle : Nat} (board : σ) (pin : Pin)
    (level : Bool) (h : cycle ≤ Board.cycle board) :
    cycle ≤ Board.cycle (Board.drive board pin level) :=
  h.trans (onward ..)

theorem Scheduler.le_cycle_drainInput (onward : Board.Onward σ) (s : Scheduler σ) :
    Board.cycle s.board ≤ Board.cycle s.drainInput.board :=
  Channel.drain_induction (P := (Board.cycle s.board ≤ Board.cycle ·)) onward.drive s.channel
    (Nat.le_refl _)

theorem Scheduler.le_cycle_settle (onward : Board.Onward σ) {s : Scheduler σ} {state : CpuState}
    {now : Nat} {turn : Turn σ} (h : s.settle state now = .ok turn) :
    Board.cycle s.board ≤ Board.cycle turn.scheduler.board :=
  settle_induction (P := (Board.cycle s.board ≤ Board.cycle ·)) onward.drive (Nat.le_refl _) h

end Onward

/-- How a burst ended, and at which cycle. -/
structure BurstEnd where
  state : CpuState
  cycle : Nat
  deriving DecidableEq, Repr

namespace Scheduler

variable {σ : Type} [Board σ] {s made : Scheduler σ} {board : σ} {settings : Settings}
  {start finish gain : Nat} {turn : Turn σ} {fault : Fault}

/-! ## Bursts -/

/-- The burst that a step makes; none if it makes no burst, or if that fails. -/
def burstEnd? (s : Scheduler σ) (now : Nat) : Option BurstEnd :=
  match s.phase with
  | .ended _ => none
  | _ =>
    match s.launch now with
    | .error _ => none
    | .ok (state, s) => some { state, cycle := Board.cycle s.board }

/-- The bursts of a number of steps, in order. -/
def burstEnds (s : Scheduler σ) (wall : Nat) : (count : Nat) → List BurstEnd
  | 0 => []
  | count + 1 =>
    match s.step wall wall with
    | .error _ => []
    | .ok turn => (s.burstEnd? wall).toList ++ turn.scheduler.burstEnds (wall + turn.slept) count

theorem burstEnds_succ {wall : Nat} {burst : BurstEnd} (hstep : s.step wall wall = .ok turn)
    (hburst : s.burstEnd? wall = some burst) (count : Nat) :
    s.burstEnds wall (count + 1) =
      burst :: turn.scheduler.burstEnds (wall + turn.slept) count := by
  rw [burstEnds, hstep, hburst]
  rfl

/-! ## Faults -/

/-- A fault that is not of a scheduler's own making: of something that the board `board` can come to
    a burst fails, or the picture memory has not a byte for each eight pixels. -/
def Breaks (board : σ) (settings : Settings) (fault : Fault) : Prop :=
  BurstFails board settings fault ∨
  (fault = .gridLength ∧ ∃ present, Board.Evolves board present ∧
    (Board.grid present).size ≠ (Board.size board).1 * (Board.size board).2 / 8)

/-- Looking at the sampling timer fails only if the picture memory has another length. -/
theorem nextGlow_error {cycle : Nat} (h : s.nextGlow cycle = .error fault) :
    fault = .gridLength ∧
      (Board.grid s.board).size ≠ s.afterglow.width * s.afterglow.height / 8 := by
  rw [nextGlow] at h
  split at h
  · rw [Afterglow.sample] at h
    split at h
    · cases h
    · next hsize =>
      cases h
      exact ⟨rfl, hsize⟩
  · cases h

/-- So does the second half of a step. -/
theorem settle_error {state : CpuState} {now : Nat} (h : s.settle state now = .error fault) :
    fault = .gridLength ∧
      (Board.grid s.board).size ≠ s.afterglow.width * s.afterglow.height / 8 := by
  cases hstate : state.isTerminal with
  | true =>
    rw [settle_of_isTerminal hstate] at h
    cases h
  | false =>
    rw [settle_eq hstate] at h
    cases hglow : s.nextGlow (Board.cycle s.board) with
    | error fault' =>
      rw [hglow] at h
      cases h
      exact nextGlow_error hglow
    | ok glow =>
      rw [hglow] at h
      cases h

/-! ## Schedulers that are poised -/

/-- A running scheduler over what the board `board` can come to. -/
structure Poised (board : σ) (settings : Settings) (s : Scheduler σ) : Prop where
  fitted : Fitted board settings (Board.size board).1 (Board.size board).2 s
  running : s.phase = .running

/-- What steps have come to that began with the scheduler `s` and ended with the burst `last`: the
    step of that burst ended if it had ended the program, and else the deadline was reached, and
    just one frame published, which is the afterglow with the board's flags. -/
structure Stopped (s : Scheduler σ) (last : BurstEnd) (outcome : Outcome) (next : Scheduler σ) :
    Prop where
  le_cycle : last.cycle ≤ Board.cycle next.board
  cycle_eq : Board.Still σ → Board.cycle next.board = last.cycle
  ended : last.state.isTerminal = true →
    outcome = .ended last.state ∧ next.stats.redraws = s.stats.redraws ∧
      next.published = s.published
  yield : last.state.isTerminal = false →
    s.redraw.deadline ≤ last.cycle ∧ outcome = .yield ∧
      next.stats.redraws = s.stats.redraws + 1 ∧
      next.published = s.published.publish next.afterglow (Board.flags next.board)

/-- What a step that just goes on leaves as it is. -/
structure Continued (s : Scheduler σ) (burst : BurstEnd) (next : Scheduler σ) : Prop where
  cycle : Board.cycle next.board = burst.cycle
  state : burst.state.isTerminal = false
  before : burst.cycle < s.redraw.deadline
  redraw : next.redraw = s.redraw
  redraws : next.stats.redraws = s.stats.redraws
  published : next.published = s.published

theorem poised_new {channel : Channel}
    (hnew : Scheduler.new board channel settings = .ok made) (inner : Option Sender) :
    Poised board settings { made with inner } where
  fitted := fitted_new rfl hnew inner
  running := by
    obtain ⟨-, rfl⟩ := new_ok hnew
    rfl

/-- A step breaks off only in a fault that is not of the scheduler's own making. -/
theorem Poised.step_error (h : Poised board settings s)
    (hstep : s.step start finish = .error fault) : Breaks board settings fault := by
  have hphase : ∀ state, s.phase ≠ .ended state := h.running ▸ nofun
  rcases hlaunch : s.launch start with fault' | ⟨state, s₁⟩
  · rw [step_of_launch_error hphase hlaunch] at hstep
    cases hstep
    exact .inl ⟨_, h.fitted.evolves_drainInput, h.fitted.settings_eq ▸ launch_error hlaunch⟩
  · rw [step_eq hphase, hlaunch] at hstep
    have hfitted := h.fitted.launch hlaunch
    obtain ⟨rfl, hsize⟩ := settle_error hstep
    rw [hfitted.width, hfitted.height] at hsize
    exact .inr ⟨rfl, _, hfitted.evolves, hsize⟩

/-- What the second half of a step comes to is told by the state and the cycle in which the burst
    before it ended. -/
theorem settle_stops (onward : Board.Onward σ) {state : CpuState} {now : Nat}
    (hsettle : s.settle state now = .ok turn) (hrunning : s.phase = .running) :
    (turn.outcome ≠ .proceed ∧
      Stopped s { state, cycle := Board.cycle s.board } turn.outcome turn.scheduler) ∨
    (turn.outcome = .proceed ∧
      Continued s { state, cycle := Board.cycle s.board } turn.scheduler) := by
  have hle := le_cycle_settle onward hsettle
  have hstill := fun still => cycle_settle still hsettle
  have hsettled : s.phase ≠ .yieldPending := hrunning ▸ nofun
  cases settle_ok hsettle with
  | ended hstate =>
    exact .inl ⟨nofun, {
      le_cycle := hle
      cycle_eq := hstill
      ended := fun _ => ⟨rfl, rfl, rfl⟩
      yield := fun hgoes => absurd (hgoes.symm.trans hstate) Bool.false_ne_true }⟩
  | yield glow pace hstate hglow hpending =>
    have hdue := of_decide_eq_true ((phase_polled hsettled _ glow).1 hpending)
    exact .inl ⟨nofun, {
      le_cycle := hle
      cycle_eq := hstill
      ended := fun hends => absurd (hstate.symm.trans hends) Bool.false_ne_true
      yield := fun _ =>
        ⟨hdue, rfl, congrArg (s.stats.redraws + ·) (Timer.poll_of_le hdue).2, rfl⟩ }⟩
  | proceed glow pace hstate hglow hpending =>
    have hahead : Board.cycle s.board < s.redraw.deadline := Nat.lt_of_not_le fun hdue =>
      hpending ((phase_polled hsettled _ glow).2 (decide_eq_true hdue))
    obtain ⟨hpoll, hfires⟩ := Timer.poll_of_lt hahead
    exact .inr ⟨rfl, {
      cycle := rfl
      state := hstate
      before := hahead
      redraw := hpoll
      redraws := congrArg (s.stats.redraws + ·) hfires
      published := rfl }⟩

/-- A step is told by its burst. Unless the program has ended in it, the cycle of the burst lies
    `gain` cycles further at least. -/
theorem Poised.step_ok (gaining : Board.Gaining σ settings.burst gain)
    (h : Poised board settings s) (hstep : s.step start finish = .ok turn) :
    ∃ burst, s.burstEnd? start = some burst ∧
      turn.scheduler.stats.bursts = s.stats.bursts + 1 ∧
      (burst.state.isTerminal = false → Board.cycle s.board + gain ≤ burst.cycle) ∧
      ((turn.outcome ≠ .proceed ∧ Stopped s burst turn.outcome turn.scheduler) ∨
        (turn.outcome = .proceed ∧ Continued s burst turn.scheduler)) := by
  obtain ⟨hfitted, hrunning⟩ := h
  rcases Scheduler.step_ok hstep with ⟨state, hended, -⟩ | ⟨-, state, s₁, hlaunch, hsettle⟩
  · rw [hrunning] at hended
    cases hended
  have hburst : s.burstEnd? start = some { state, cycle := Board.cycle s₁.board } := by
    rw [burstEnd?, hrunning, hlaunch]
  have hbursts := settle_bursts hsettle
  obtain ⟨burst, next, inner, queue, hrun, rfl, rfl⟩ := launch_ok hlaunch
  refine ⟨_, hburst, hbursts, fun hgoes => ?_, ?_⟩
  · rw [hfitted.settings_eq] at hrun
    exact (Nat.add_le_add_right (le_cycle_drainInput gaining.onward s) gain).trans
      (gaining.gain_le hrun hgoes)
  · -- The first half has left the timer, the count of redraws and the frame alone.
    rcases settle_stops gaining.onward hsettle hrunning with ⟨hstops, h⟩ | ⟨hgoes, h⟩
    · exact .inl ⟨hstops, { h with }⟩
    · exact .inr ⟨hgoes, { h with }⟩

/-- A step that does not end leaves a scheduler that is poised again. -/
theorem Poised.step (h : Poised board settings s) (hstep : s.step start finish = .ok turn)
    (hends : ∀ state, turn.outcome ≠ .ended state) : Poised board settings turn.scheduler := by
  rcases Scheduler.step_ok hstep with ⟨state, -, rfl⟩ | ⟨-, state, s₁, hlaunch, hsettle⟩
  · exact absurd rfl (hends state)
  · exact ⟨(h.fitted.launch hlaunch).settled hsettle, step_running h.running hstep hends⟩

/-- As long as it has not ended, a scheduler is poised between any two calls. -/
theorem Ongoing.poised {channel : Channel}
    (hnew : Scheduler.new board channel settings = .ok made) {inner : Option Sender}
    {log : Task → List Nat} (hrun : Ongoing { made with inner } log s) :
    Poised board settings s := by
  induction hrun with
  | start => exact poised_new hnew inner
  | step _ hstep hends ih => exact ih.step hstep hends
  | input event _ ih => exact ⟨ih.fitted.input event, ih.running⟩
  | send sender event _ ih => exact ⟨{ ih.fitted with }, ih.running⟩

/-- If the cycle counter stands still while pins are driven, then the redraw deadline lies ahead
    between any two calls. -/
theorem Ongoing.ahead (still : Board.Still σ) {channel : Channel}
    (hnew : Scheduler.new board channel settings = .ok made) {inner : Option Sender}
    {log : Task → List Nat} (hrun : Ongoing { made with inner } log s) :
    Board.cycle s.board < s.redraw.deadline := by
  induction hrun with
  | start =>
    obtain ⟨-, rfl⟩ := new_ok hnew
    exact (Lines.cycle_pullUp still channel.lines board).trans_lt
      (Nat.lt_add_of_pos_right settings.redrawPeriod_pos)
  | step _ hstep hends _ =>
    rcases Scheduler.step_ok hstep with ⟨state, -, rfl⟩ | ⟨-, state, s₁, hlaunch, hsettle⟩
    · exact absurd rfl (hends state)
    · have hredraw := (settle_timer hsettle hends .redraw).1
      rw [timer, timer] at hredraw
      rw [cycle_settle still hsettle, hredraw]
      exact Timer.lt_deadline_poll ..
  | input event _ ih =>
    rw [cycle_input still]
    exact ih
  | send sender event _ ih => exact ih

/-! ## Idling -/

/-- What comes of the steps after one that just goes on comes of all of them. -/
theorem Stopped.of_continued {next final : Scheduler σ} {burst last : BurstEnd} {outcome : Outcome}
    (hcontinued : Continued s burst next) (h : Stopped next last outcome final) :
    Stopped s last outcome final where
  le_cycle := h.le_cycle
  cycle_eq := h.cycle_eq
  ended := by
    rw [← hcontinued.redraws, ← hcontinued.published]
    exact h.ended
  yield := by
    rw [← hcontinued.redraw, ← hcontinued.redraws, ← hcontinued.published]
    exact h.yield

/-- A scheduler that is poised stops idling after at most as many bursts as it takes to reach the
    deadline, unless a step breaks off. -/
theorem Poised.idle (gaining : Board.Gaining σ settings.burst gain)
    (h : Poised board settings s) (hahead : Board.cycle s.board < s.redraw.deadline)
    {bound limit : Nat}
    (hbound : s.redraw.deadline - Board.cycle s.board ≤ bound * gain) (hlimit : bound ≤ limit)
    (wall : Nat) :
    (∃ idle before last, s.idle wall limit = .ok (some idle) ∧
      s.burstEnds wall (before.length + 1) = before ++ [last] ∧ before.length < bound ∧
      (∀ burst ∈ before, burst.state.isTerminal = false ∧ burst.cycle < s.redraw.deadline) ∧
      idle.scheduler.stats.bursts = s.stats.bursts + (before.length + 1) ∧
      Stopped s last idle.outcome idle.scheduler) ∨
    ∃ fault, s.idle wall limit = .error fault ∧ Breaks board settings fault := by
  induction bound generalizing s limit wall with
  | zero =>
    -- The deadline lies ahead, so that it takes a burst at least.
    omega
  | succ bound ih =>
    obtain ⟨limit, rfl⟩ := Nat.exists_eq_add_of_le' (Nat.le_trans (Nat.le_add_left 1 bound) hlimit)
    rcases hstep : s.step wall wall with fault | turn
    · refine .inr ⟨fault, ?_, h.step_error hstep⟩
      rw [Scheduler.idle, hstep]
      rfl
    obtain ⟨burst, hburst, hbursts, hgain, hturn⟩ := h.step_ok gaining hstep
    rcases hturn with ⟨hstops, hstopped⟩ | ⟨hgoes, hcontinued⟩
    · -- This burst is the last one, and none came before it.
      refine .inl ⟨_, [], burst, idle_of_stop hstep hstops limit, ?_, Nat.succ_pos bound,
        List.forall_mem_nil _, hbursts, hstopped⟩
      rw [List.length_nil, burstEnds_succ hstep hburst]
      rfl
    · -- The deadline has stayed, and is nearer by what the burst gained.
      have hunended (state : CpuState) : turn.outcome ≠ .ended state := by
        rw [hgoes]
        exact Outcome.noConfusion
      have hpoised := h.step hstep hunended
      have hahead : Board.cycle turn.scheduler.board < turn.scheduler.redraw.deadline := by
        rw [hcontinued.cycle, hcontinued.redraw]
        exact hcontinued.before
      have hnearer :
          turn.scheduler.redraw.deadline - Board.cycle turn.scheduler.board ≤ bound * gain := by
        have := hgain hcontinued.state
        rw [hcontinued.redraw, hcontinued.cycle]
        rw [Nat.succ_mul] at hbound
        omega
      rw [idle_of_proceed hstep hgoes]
      rcases ih hpoised hahead hnearer (Nat.le_of_succ_le_succ hlimit) (wall + turn.slept) with
        ⟨idle, before, last, hidle, hends, hlength, hbefore, hcount, hstopped⟩ | hfault
      · refine .inl ⟨idle, burst :: before, last, hidle, ?_, Nat.succ_lt_succ hlength, ?_, ?_,
          .of_continued hcontinued hstopped⟩
        · rw [List.length_cons, burstEnds_succ hstep hburst, hends]
          rfl
        · rw [hcontinued.redraw] at hbefore
          exact List.forall_mem_cons.2 ⟨⟨hcontinued.state, hcontinued.before⟩, hbefore⟩
        · rw [hcount, hbursts, List.length_cons]
          omega
      · exact .inr hfault

/-- Idling comes to an end, and at the right place. Let every burst of a board that does not end the
    program take the cycle counter `gain` cycles further, or more, and let a scheduler have come, by
    steps and input in any order, to a moment at which it has not ended and its redraw deadline lies
    ahead. Idling then comes back after no more bursts than it takes to reach the deadline at that
    rate, unless a burst fails or the picture memory is of another length than it should be. Its
    last burst is the first one of all that ended the program or came to an end at the deadline or
    later; those before it did neither. If it ended the program, idling tells in which state, and
    nothing was redrawn or published. Otherwise idling yields, one more redraw was counted and one
    more frame published: the afterglow as it is then, with the flags of the board. The cycle
    counter is where the last burst left it, or further if driving a pin takes it further. -/
theorem idle_stops (gaining : Board.Gaining σ settings.burst gain) {channel : Channel}
    (hnew : Scheduler.new board channel settings = .ok made) {inner : Option Sender}
    {log : Task → List Nat} (hrun : Ongoing { made with inner } log s)
    (hahead : Board.cycle s.board < s.redraw.deadline) {limit : Nat}
    (hlimit : (s.redraw.deadline - Board.cycle s.board) ⌈/⌉ gain ≤ limit) (wall : Nat) :
    (∃ idle before last, s.idle wall limit = .ok (some idle) ∧
        s.burstEnds wall (before.length + 1) = before ++ [last] ∧
        before.length + 1 ≤ (s.redraw.deadline - Board.cycle s.board) ⌈/⌉ gain ∧
        (∀ burst ∈ before, burst.state.isTerminal = false ∧ burst.cycle < s.redraw.deadline) ∧
        idle.scheduler.stats.bursts = s.stats.bursts + (before.length + 1) ∧
        last.cycle ≤ Board.cycle idle.scheduler.board ∧
        (Board.Still σ → Board.cycle idle.scheduler.board = last.cycle) ∧
        (last.state.isTerminal = true →
          idle.outcome = .ended last.state ∧
          idle.scheduler.stats.redraws = s.stats.redraws ∧
          idle.scheduler.published = s.published) ∧
        (last.state.isTerminal = false →
          s.redraw.deadline ≤ last.cycle ∧ idle.outcome = .yield ∧
          idle.scheduler.stats.redraws = s.stats.redraws + 1 ∧
          idle.scheduler.published =
            s.published.publish idle.scheduler.afterglow (Board.flags idle.scheduler.board))) ∨
      ∃ fault, s.idle wall limit = .error fault ∧ Breaks board settings fault := by
  have hbound := (ceilDiv_le_iff_le_mul gaining.gain_pos).1 (Nat.le_refl
    ((s.redraw.deadline - Board.cycle s.board) ⌈/⌉ gain))
  rw [Nat.mul_comm] at hbound
  rcases (hrun.poised hnew).idle gaining hahead hbound hlimit wall with
    ⟨idle, before, last, hidle, hends, hlength, hbefore, hcount, hstopped⟩ | hfault
  · exact .inl ⟨idle, before, last, hidle, hends, hlength, hbefore, hcount, hstopped.le_cycle,
      hstopped.cycle_eq, hstopped.ended, hstopped.yield⟩
  · exact .inr hfault

end Scheduler

/-- Every burst of a metronome takes it one cycle further at least. -/
theorem Metronome.gaining {limit : Nat} (limit_pos : 0 < limit) :
    Board.Gaining Metronome limit 1 where
  onward _ _ _ := Nat.le_refl _
  gain_pos := Nat.one_pos
  gain_le {board next burst} h _ := by
    cases h
    simp only [Board.cycle]
    split <;> omega

/-- A metronome that is started at cycle 100 reaches the deadline, at 114, with its fifth burst. It
    might have taken fourteen. The one pixel that is lit was sampled twice on the way, and the frame
    that is published shows how bright this has made it. -/
theorem Scheduler.idle_stops_metronome :
    ∃ made idle, Scheduler.new ({ cycle := 100 } : Metronome) {} Metronome.settings = .ok made ∧
      made.idle 0 14 = .ok (some idle) ∧ idle.outcome = .yield ∧
      (made.burstEnds 0 5).map BurstEnd.cycle = [105, 106, 111, 112, 117] ∧
      114 ≤ Board.cycle idle.scheduler.board ∧ idle.scheduler.stats.redraws = 1 ∧
      idle.scheduler.published =
        { width := 1, height := 8, luma := #[255, 0, 0, 0, 0, 0, 0, 0], sequence := 1 } := by
  obtain ⟨made, idle, hnew, hidle, hyields, hcycles, hcycle, hdeadline, hredraws, hnone, hframe⟩ :
      ∃ made idle,
        Scheduler.new ({ cycle := 100 } : Metronome) {} Metronome.settings = .ok made ∧
        made.idle 0 14 = .ok (some idle) ∧ idle.outcome = .yield ∧
        (made.burstEnds 0 5).map BurstEnd.cycle = [105, 106, 111, 112, 117] ∧
        Board.cycle made.board = 100 ∧ made.redraw.deadline = 114 ∧ made.stats.redraws = 0 ∧
        made.published = {} ∧
        Frame.publish {} idle.scheduler.afterglow (Board.flags idle.scheduler.board) =
          { width := 1, height := 8, luma := #[255, 0, 0, 0, 0, 0, 0, 0], sequence := 1 } :=
    ⟨_, _, rfl, rfl, rfl, rfl, rfl, rfl, rfl, rfl, rfl⟩
  have hstart : Ongoing { made with inner := none } (fun _ => []) made := by
    obtain ⟨-, rfl⟩ := new_ok hnew
    exact .start
  have hahead : Board.cycle made.board < made.redraw.deadline :=
    hstart.ahead (Metronome.steady 5).still hnew
  have hlimit : (made.redraw.deadline - Board.cycle made.board) ⌈/⌉ 1 ≤ 14 := by
    rw [hdeadline, hcycle]
    decide
  obtain ⟨idle', _, last, hidle', -, -, -, -, hlast, -, hended, hyield⟩ | ⟨fault, hfault, -⟩ :=
    idle_stops (Metronome.gaining (by decide)) hnew hstart hahead hlimit 0
  · cases hidle.symm.trans hidle'
    cases hstate : last.state.isTerminal with
    | true => cases hyields.symm.trans (hended hstate).1
    | false =>
      obtain ⟨hreached, -, hcount, hpublished⟩ := hyield hstate
      rw [hdeadline] at hreached
      rw [hredraws] at hcount
      rw [hnone, hframe] at hpublished
      exact ⟨made, idle, hnew, hidle, hyields, hcycles, hreached.trans hlast, hcount, hpublished⟩
  · cases hidle.symm.trans hfault

end Handheld
