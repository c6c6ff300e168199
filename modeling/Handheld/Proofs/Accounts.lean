import Handheld.Proofs.Rounds
import Handheld.Proofs.Stalls
import Mathlib.Algebra.Order.Floor.Div

/-!
# The accounts of a run

How a run of the demo board will come out can be told before it starts, from the cycle at which it
starts, the one at which the program finishes, and the lengths of a burst and of the two periods.

A burst runs its full length unless the program finishes in it, so it takes as many bursts as there
are lengths of a burst in the cycles to go, rounded up (`burstsFor`). A timer whose period is no
shorter than a burst is on time, and one whose period is shorter fires after every burst; either way
it has fired `k * min burst period / period` times after `k` full bursts (`Timer.Regular.count_eq`).
The last burst does not count, since no timer is looked at after it.

* `Scheduler.Underway`: the invariant of a run that has not ended. Input preserves it, and so does a
  step, unless it is the last (`Scheduler.Underway.step`).
* `Scheduler.Closed`: the accounts of a run that has ended.
* `DemoBoard.run_closed`: every run by steps, and every run of the cooperative host that is not
  interrupted, ends with these accounts.
-/

namespace Handheld

/-! ## One timer -/

namespace Timer

variable {timer : Timer} {origin burst bursts count : Nat}

/-- A timer that has been looked at after each of a number of bursts of the same length, and that
    has fired `count` times: it is on time, unless a burst is longer than its period, in which case
    it has fired after each. -/
structure Regular (timer : Timer) (origin burst bursts count : Nat) : Prop where
  onTime : burst ≤ timer.period → timer.OnTime origin count (origin + bursts * burst)
  each : timer.period < burst →
    count = bursts ∧ timer.Within origin count (origin + bursts * burst)

/-- The number of firings in closed form. -/
theorem Regular.count_eq (h : timer.Regular origin burst bursts count) :
    count = bursts * min burst timer.period / timer.period := by
  rcases Nat.lt_or_ge timer.period burst with hlong | hshort
  · rw [Nat.min_eq_right (Nat.le_of_lt hlong), Nat.mul_div_cancel _ timer.period_pos]
    exact (h.each hlong).1
  · rw [Nat.min_eq_left hshort, (h.onTime hshort).count_eq, Nat.add_sub_cancel_left]

theorem regular_start (now burst period : Nat) (task : Task) (period_pos : 0 < period) :
    (start now period task period_pos).Regular now burst 0 0 where
  onTime _ := by
    rw [Nat.zero_mul]
    exact onTime_start ..
  each _ := by
    rw [Nat.zero_mul]
    exact ⟨rfl, within_start ..⟩

/-- A timer that is looked at after one burst more stays regular. -/
theorem Regular.poll (h : timer.Regular origin burst bursts count) :
    (timer.poll (origin + (bursts + 1) * burst)).Regular origin burst (bursts + 1)
      (count + timer.fires (origin + (bursts + 1) * burst)) := by
  have hnow : origin + (bursts + 1) * burst = origin + bursts * burst + burst := by
    rw [Nat.succ_mul, Nat.add_assoc]
  have hle : origin + bursts * burst ≤ origin + (bursts + 1) * burst := by
    rw [hnow]
    exact Nat.le_add_right ..
  constructor
  · intro hshort
    rw [period_poll] at hshort
    exact (h.onTime hshort).poll hle (Nat.le_of_eq hnow) hshort
  · intro hlong
    rw [period_poll] at hlong
    obtain ⟨hcount, hwithin⟩ := h.each hlong
    -- The deadline was a period away at most, and the burst was longer.
    have hdue : timer.deadline ≤ origin + (bursts + 1) * burst := by
      have hnear := hwithin.near
      omega
    refine ⟨?_, hwithin.poll hle⟩
    rw [(poll_of_le hdue).2, hcount]

end Timer

/-! ## The number of bursts -/

/-- The bursts that it takes to run a number of cycles, one at least. -/
def burstsFor (length burst : Nat) : Nat := max 1 (length ⌈/⌉ burst)

/-- There is a burst to go exactly as long as none has run, or there are cycles to go. -/
theorem lt_burstsFor {length burst bursts : Nat} (hpos : 0 < burst) :
    bursts < burstsFor length burst ↔ bursts = 0 ∨ bursts * burst < length := by
  rw [burstsFor, lt_max_iff, Nat.lt_one_iff, ← not_le, ceilDiv_le_iff_le_mul hpos, not_le,
    Nat.mul_comm]

/-! ## The board -/

namespace DemoBoard

variable {board : DemoBoard} {halt cycle limit : Nat}

/-- A reachable board at a cycle, whose program is to finish at the cycle `halt`. -/
structure Bound (halt cycle : Nat) (board : DemoBoard) : Prop where
  reachable : board.Reachable
  haltAt : board.haltAt = some halt
  cycle_eq : board.cycle = cycle

theorem Bound.drive (board : DemoBoard) (pin : Pin) (level : Bool) (h : board.Bound halt cycle) :
    (board.drive pin level).Bound halt cycle :=
  ⟨h.reachable.drive pin level, h.haltAt, h.cycle_eq⟩

/-- A burst ends when the program finishes, or with its limit if that comes first. -/
theorem Bound.runBurst (h : board.Bound halt cycle) (limit : Nat) :
    (board.runBurst limit).1.state = (if halt ≤ cycle + limit then .done else .running) ∧
    (board.runBurst limit).2.Bound halt (min (cycle + limit) (max halt cycle)) := by
  obtain ⟨hreachable, hhalt, rfl⟩ := h
  have hend : board.burstEnd limit = min (board.cycle + limit) (max halt board.cycle) := by
    rw [burstEnd, hhalt]
  refine ⟨?_, hreachable.runBurst limit, ?_, ?_⟩
  · simp only [DemoBoard.runBurst, hend, hhalt, Option.any_some, decide_eq_true_eq]
    exact if_congr (by omega) rfl rfl
  · exact (haltAt_runTo ..).trans hhalt
  · exact (cycle_runTo ..).trans hend

end DemoBoard

namespace Scheduler

variable {s made : Scheduler DemoBoard} {settings : Settings} {halt origin : Nat}
  {board : DemoBoard} {channel : Channel}

/-! ## The invariant -/

/-- A scheduler on a demo board, in a run from the cycle `origin` that has not ended. -/
structure Underway (settings : Settings) (halt origin : Nat) (s : Scheduler DemoBoard) :
    Prop where
  numbered : s.Numbered settings Game.width Game.height s.stats.redraws
  board : s.board.Bound halt (origin + s.stats.bursts * settings.burst)
  bursts_lt : s.stats.bursts < burstsFor (halt - origin) settings.burst
  period : ∀ task, (s.timer task).period = settings.period task
  regular : ∀ task,
    (s.timer task).Regular origin settings.burst s.stats.bursts (s.stats.fired task)

/-- The accounts of a run that has ended. -/
structure Closed (settings : Settings) (halt origin : Nat) (s : Scheduler DemoBoard) : Prop where
  phase : s.phase = .ended .done
  cycle : s.board.cycle = max halt origin
  bursts : s.stats.bursts = burstsFor (halt - origin) settings.burst
  fired : ∀ task, s.stats.fired task =
    (s.stats.bursts - 1) * min settings.burst (settings.period task) / settings.period task
  number : s.published.sequence = s.stats.redraws

theorem underway_new (hboard : board.Reachable) (hhalt : board.haltAt = some halt)
    (hnew : Scheduler.new board channel settings = .ok made) :
    made.Underway settings halt board.cycle := by
  have hnumbered := numbered_new hnew
  obtain ⟨-, rfl⟩ := new_ok hnew
  have hbound : board.Bound halt board.cycle := ⟨hboard, hhalt, rfl⟩
  refine ⟨hnumbered, ?_, ?_, fun task => ?_, fun task => ?_⟩
  · rw [Nat.zero_mul]
    exact Lines.pullUp_induction DemoBoard.Bound.drive channel.lines hbound
  · exact (lt_burstsFor settings.burst_pos).2 (.inl rfl)
  · rcases task with - | -
    · rfl
    · rfl
  · rcases task with - | -
    · exact Timer.regular_start ..
    · exact Timer.regular_start ..

theorem Underway.input (h : s.Underway settings halt origin) (event : ButtonEvent) :
    (s.input event).2.Underway settings halt origin := by
  have hnumbered := h.numbered.input event
  rw [input_eq] at hnumbered ⊢
  rcases hwrite : s.channel.lines.write? s.board event with - | ⟨lines, board⟩
  · exact h
  · rw [hwrite] at hnumbered
    exact ⟨hnumbered, Lines.write?_induction DemoBoard.Bound.drive h.board hwrite, h.bursts_lt,
      h.period, h.regular⟩

theorem Underway.inputAll (h : s.Underway settings halt origin) (events : List ButtonEvent) :
    (s.inputAll events).2.Underway settings halt origin :=
  inputAll_induction (fun _ event h => h.input event) h events

/-- The burst of a step ends with its limit, or when the program finishes. -/
theorem Underway.launch (h : s.Underway settings halt origin) (start : Nat) :
    ∃ s₁, s.launch start = .ok
        (if halt ≤ origin + (s.stats.bursts + 1) * settings.burst then .done else .running, s₁) ∧
      s₁.board.Bound halt
        (min (origin + (s.stats.bursts + 1) * settings.burst) (max halt origin)) ∧
      s₁.stats.bursts = s.stats.bursts + 1 ∧ s₁.afterglow = s.afterglow ∧
      ∀ task, s₁.timer task = s.timer task ∧ s₁.stats.fired task = s.stats.fired task := by
  have hsettings := h.numbered.settings_eq
  rcases hlaunch : s.launch start with fault | ⟨state, s₁⟩
  · cases launch_error hlaunch
  obtain ⟨burst, board, inner, queue, hrun, rfl, rfl⟩ := launch_ok hlaunch
  have hdrained : s.drainInput.board.Bound halt (origin + s.stats.bursts * settings.burst) :=
    Channel.drain_induction DemoBoard.Bound.drive s.channel h.board
  obtain ⟨hstate, hbound⟩ := hdrained.runBurst settings.burst
  have hrun : s.drainInput.board.runBurst settings.burst = (burst, board) :=
    hsettings ▸ Except.ok.inj hrun
  rw [hrun] at hstate hbound
  have hnow : origin + (s.stats.bursts + 1) * settings.burst =
      origin + s.stats.bursts * settings.burst + settings.burst := by
    rw [Nat.succ_mul, Nat.add_assoc]
  -- Unless no burst has run yet, the program was still to finish.
  have hmax : max halt (origin + s.stats.bursts * settings.burst) = max halt origin := by
    rcases (lt_burstsFor settings.burst_pos).1 h.bursts_lt with hzero | hahead
    · rw [hzero, Nat.zero_mul, Nat.add_zero]
    · omega
  rw [hmax] at hbound
  rw [hnow, ← hstate]
  refine ⟨_, rfl, hbound, rfl, rfl, fun task => ?_⟩
  rcases task with - | -
  · exact ⟨rfl, rfl⟩
  · exact ⟨rfl, rfl⟩

/-- The step in whose burst the program finishes closes the accounts, and looks at no timer. -/
theorem Underway.step_last (h : s.Underway settings halt origin)
    (hlast : halt ≤ origin + (s.stats.bursts + 1) * settings.burst) (start finish : Nat) :
    ∃ turn, s.step start finish = .ok turn ∧
      turn.scheduler.stats.bursts = s.stats.bursts + 1 ∧ turn.outcome = .ended .done ∧
      turn.scheduler.Closed settings halt origin ∧
      ∀ task, turn.scheduler.timer task = s.timer task ∧
        turn.scheduler.stats.fired task = s.stats.fired task := by
  obtain ⟨s₁, hlaunch, hbound, hbursts, -, htimer⟩ := h.launch start
  rw [if_pos hlast] at hlaunch
  have hstep := step_of_launch (by rw [h.numbered.running]; exact nofun) hlaunch
    (settle_of_isTerminal rfl s₁ finish)
  have hended := h.numbered.step_of_ended hstep rfl
  have hcount : s₁.stats.bursts = burstsFor (halt - origin) settings.burst := by
    have hlt := h.bursts_lt
    have hmore : ¬s.stats.bursts + 1 < burstsFor (halt - origin) settings.burst := by
      rw [lt_burstsFor settings.burst_pos]
      omega
    omega
  refine ⟨_, hstep, hbursts, rfl, ⟨rfl, ?_, hcount, fun task => ?_, ?_⟩, htimer⟩
  · refine hbound.cycle_eq.trans (Nat.min_eq_right (Nat.max_le.2 ⟨hlast, ?_⟩))
    exact Nat.le_add_right ..
  · refine (htimer task).2.trans ((h.regular task).count_eq.trans ?_)
    rw [h.period]
    change _ = (s₁.stats.bursts - 1) * _ / _
    rw [hbursts, Nat.add_sub_cancel]
  · exact hended.number.trans hended.redraws.symm

/-- Any other step preserves the invariant. -/
theorem Underway.step_next (h : s.Underway settings halt origin)
    (hnext : origin + (s.stats.bursts + 1) * settings.burst < halt) (start finish : Nat) :
    ∃ turn, s.step start finish = .ok turn ∧
      turn.scheduler.stats.bursts = s.stats.bursts + 1 ∧
      (∀ state, turn.outcome ≠ .ended state) ∧ turn.scheduler.Underway settings halt origin := by
  obtain ⟨s₁, hlaunch, hbound, hbursts, hglow, -⟩ := h.launch start
  rw [if_neg (Nat.not_le_of_lt hnext)] at hlaunch
  rw [min_eq_left (by omega)] at hbound
  -- The picture memory fits the panel, so that sampling it does not fail.
  have hsize : s₁.board.game.vram.size = s₁.afterglow.width * s₁.afterglow.height / 8 := by
    rw [hglow, h.numbered.width, h.numbered.height]
    exact hbound.reachable.size_vram
  obtain ⟨turn, hsettle⟩ := settle_of_size (s := s₁) hsize .running finish
  have hstep := step_of_launch (by rw [h.numbered.running]; exact nofun) hlaunch hsettle
  have hends (state : CpuState) : turn.outcome ≠ .ended state := by
    rcases settle_ok hsettle with hstate | - | -
    · cases hstate
    · nofun
    · nofun
  have hboard := settle_induction DemoBoard.Bound.drive hbound hsettle
  have hnow : Board.cycle turn.scheduler.board =
      origin + (s.stats.bursts + 1) * settings.burst := hboard.cycle_eq
  have hcount := (settle_bursts hsettle).trans hbursts
  obtain ⟨-, -, htimer⟩ := step_timer (DemoBoard.steady s.settings.burst).toForward hstep hends
  rw [hnow] at htimer
  refine ⟨turn, hstep, hcount, hends, h.numbered.step_of_not_ended hstep hends, ?_, ?_,
    fun task => ?_, fun task => ?_⟩
  · rwa [hcount]
  · rw [hcount, lt_burstsFor settings.burst_pos]
    omega
  · rw [(htimer task).1, Timer.period_poll, h.period]
  · rw [(htimer task).1, (htimer task).2, hcount]
    exact (h.regular task).poll

/-- A step runs one burst more. If that was the last, the step closes the accounts; else the run
    goes on. -/
theorem Underway.step (h : s.Underway settings halt origin) (start finish : Nat) :
    ∃ turn, s.step start finish = .ok turn ∧
      turn.scheduler.stats.bursts = s.stats.bursts + 1 ∧
      ((turn.outcome = .ended .done ∧ turn.scheduler.Closed settings halt origin ∧
          ∀ task, turn.scheduler.timer task = s.timer task ∧
            turn.scheduler.stats.fired task = s.stats.fired task) ∨
        ((∀ state, turn.outcome ≠ .ended state) ∧
          turn.scheduler.Underway settings halt origin)) := by
  rcases Nat.lt_or_ge (origin + (s.stats.bursts + 1) * settings.burst) halt with hnext | hlast
  · obtain ⟨turn, hstep, hbursts, hgoes⟩ := h.step_next hnext start finish
    exact ⟨turn, hstep, hbursts, .inr hgoes⟩
  · obtain ⟨turn, hstep, hbursts, hcloses⟩ := h.step_last hlast start finish
    exact ⟨turn, hstep, hbursts, .inl hcloses⟩

/-- What can happen to a scheduler between two steps preserves the invariant as well. -/
theorem Ongoing.underway (h : made.Underway settings halt origin) {inner : Option Sender}
    {log : Task → List Nat} (hrun : Ongoing { made with inner } log s) :
    s.Underway settings halt origin := by
  induction hrun with
  | start => exact { h with numbered := { h.numbered with } }
  | @step log s start finish turn _ hstep hends ih =>
    obtain ⟨turn', hturn', -, ⟨hended, -⟩ | ⟨-, hnext⟩⟩ := ih.step start finish
    · cases hstep.symm.trans hturn'
      exact absurd hended (hends _)
    · cases hstep.symm.trans hturn'
      exact hnext
  | input event _ ih => exact ih.input event
  | send sender event _ ih => exact { ih with numbered := { ih.numbered with } }

/-- Idling comes to a frame, at least a burst later, or to the end, within as many steps as there
    are bursts to go. -/
theorem Underway.idle (h : s.Underway settings halt origin) {limit : Nat}
    (hlimit : burstsFor (halt - origin) settings.burst ≤ s.stats.bursts + limit) (wall : Nat) :
    ∃ idle, s.idle wall limit = .ok (some idle) ∧
      ((idle.outcome = .yield ∧ idle.scheduler.Underway settings halt origin ∧
          s.stats.bursts < idle.scheduler.stats.bursts) ∨
        (idle.outcome = .ended .done ∧ idle.scheduler.Closed settings halt origin)) := by
  induction limit generalizing s wall with
  | zero => exact absurd h.bursts_lt (Nat.not_lt_of_le hlimit)
  | succ limit ih =>
    obtain ⟨turn, hstep, hbursts, ⟨hended, hclosed, -⟩ | ⟨hends, hnext⟩⟩ := h.step wall wall
    · refine ⟨_, idle_of_stop hstep (by rw [hended]; exact nofun) limit, .inr ⟨hended, hclosed⟩⟩
    · rcases houtcome : turn.outcome with - | - | state
      · -- The run goes on with a burst less to go.
        rw [idle_of_proceed hstep houtcome]
        obtain ⟨idle, hidle, hcame⟩ := ih hnext (by omega) (wall + turn.slept)
        refine ⟨idle, hidle, hcame.imp_left fun ⟨hyield, hlater, hlt⟩ => ⟨hyield, hlater, ?_⟩⟩
        omega
      · refine ⟨_, idle_of_stop hstep (by rw [houtcome]; exact nofun) limit,
          .inl ⟨houtcome, hnext, ?_⟩⟩
        exact hbursts ▸ Nat.lt_succ_self _
      · exact absurd houtcome (hends state)

end Scheduler

/-! ## The cooperative host -/

/-- A script that does not interrupt a run: no poll fails, and no batch asks to quit. -/
structure InputScript.Undisturbed (script : InputScript) : Prop where
  failure : script.failure = none
  quit {events : List HostEvent} : events ∈ script.batches → .quit ∉ events

/-- A script that does not interrupt a run answers a poll with a batch, and goes on as it was. -/
theorem InputScript.Undisturbed.poll {script : InputScript} (h : script.Undisturbed) :
    ∃ events next, script.poll = (.ok events, next) ∧ .quit ∉ events ∧ next.Undisturbed := by
  obtain ⟨batches, failure, polls⟩ := script
  obtain ⟨rfl, hquit⟩ := h
  rcases batches with - | ⟨events, batches⟩
  · exact ⟨_, _, rfl, List.not_mem_nil, rfl, hquit⟩
  · exact ⟨_, _, rfl, hquit List.mem_cons_self, rfl, fun h => hquit (List.mem_cons_of_mem _ h)⟩

/-- An album at which no drawing fails. -/
def Album.Unbroken (album : Album) : Prop := album.failure = none

theorem Album.Unbroken.draw {album : Album} (h : album.Unbroken) (frame : Frame) :
    ∃ next, album.draw frame = .ok next ∧ next.Unbroken := by
  obtain ⟨frames, failure⟩ := album
  obtain rfl : failure = none := h
  exact ⟨_, rfl, rfl⟩

namespace Cooperative

variable {host : Cooperative DemoBoard InputScript} {settings : Settings} {halt origin : Nat}

/-- A run that is not interrupted goes on until the accounts are closed. -/
theorem run_of_underway (h : host.scheduler.Underway settings halt origin)
    (hscript : host.input.Undisturbed) (halbum : host.album.Unbroken) {limit rounds : Nat}
    (hlimit : burstsFor (halt - origin) settings.burst ≤ limit)
    (hrounds : burstsFor (halt - origin) settings.burst ≤ host.scheduler.stats.bursts + rounds) :
    ∃ last, host.run limit rounds = .ok (some (.ok (.ended .done), last)) ∧
      last.scheduler.Closed settings halt origin := by
  induction rounds generalizing host with
  | zero => exact absurd h.bursts_lt (Nat.not_lt_of_le hrounds)
  | succ rounds ih =>
    obtain ⟨events, input, hpoll, hquit, hinput⟩ := hscript.poll
    have hdelivered := h.inputAll (untilQuit events)
    have hbursts := Scheduler.bursts_inputAll host.scheduler (untilQuit events)
    obtain ⟨idle, hidle, hcame⟩ :=
      hdelivered.idle (Nat.le_trans hlimit (Nat.le_add_left ..)) host.wall
    have hround : host.round limit = _ := round_of_poll hpoll hquit
    rw [simulate, hidle] at hround
    rw [run, hround]
    rcases hcame with ⟨hyield, hnext, hlater⟩ | ⟨hended, hclosed⟩
    · -- The frame is drawn, and at least a burst less is to go.
      obtain ⟨album, hdraw, hnever⟩ := halbum.draw idle.scheduler.published
      simp only [bind, Except.bind, hyield, present, hdraw, pure, Except.pure]
      refine @ih ⟨idle.scheduler, input, album, _, _⟩ hnext hinput hnever ?_
      change _ ≤ idle.scheduler.stats.bursts + rounds
      omega
    · simp only [bind, Except.bind, hended, pure, Except.pure]
      exact ⟨_, rfl, hclosed⟩

end Cooperative

namespace DemoBoard

variable {board : DemoBoard} {halt : Nat} {channel : Channel} {settings : Settings}
  {made : Scheduler DemoBoard}

/-- The accounts of every run. Let a scheduler be made for a demo board whose program is to finish
    at the cycle `halt`. At any moment of a run by steps, with input reported in between in any way,
    a step succeeds and runs one burst more; it ends the run, with the accounts closed and with both
    timers as they were, or there are bursts left to run. The cooperative host, if it is not
    interrupted, ends with the same accounts, and has drawn a frame for each redraw. -/
theorem run_closed (hboard : board.Reachable) (hhalt : board.haltAt = some halt)
    (hnew : Scheduler.new board channel settings = .ok made) :
    (∀ (inner : Option Sender) (log : Task → List Nat) (s : Scheduler DemoBoard),
      Scheduler.Ongoing { made with inner } log s → ∀ start finish, ∃ turn,
        s.step start finish = .ok turn ∧
        turn.scheduler.stats.bursts = s.stats.bursts + 1 ∧
        ((turn.outcome = .ended .done ∧ turn.scheduler.Closed settings halt board.cycle ∧
            ∀ task, turn.scheduler.timer task = s.timer task ∧
              turn.scheduler.stats.fired task = s.stats.fired task) ∨
          ((∀ state, turn.outcome ≠ .ended state) ∧
            turn.scheduler.stats.bursts < burstsFor (halt - board.cycle) settings.burst))) ∧
    ∀ (script : InputScript) (wall limit rounds : Nat), script.Undisturbed →
      burstsFor (halt - board.cycle) settings.burst ≤ limit →
      burstsFor (halt - board.cycle) settings.burst ≤ rounds → ∃ last,
        Cooperative.run { scheduler := made, input := script, wall } limit rounds =
          .ok (some (.ok (.ended .done), last)) ∧
        last.scheduler.Closed settings halt board.cycle ∧
        last.album.frames.map (·.sequence) = List.range' 1 last.scheduler.stats.redraws := by
  have hunderway := Scheduler.underway_new hboard hhalt hnew
  constructor
  · intro inner log s hrun start finish
    obtain ⟨turn, hstep, hbursts, hcame⟩ := (hrun.underway hunderway).step start finish
    exact ⟨turn, hstep, hbursts, hcame.imp_right fun ⟨hends, hnext⟩ => ⟨hends, hnext.bursts_lt⟩⟩
  · intro script wall limit rounds hscript hlimit hrounds
    obtain ⟨last, hrun, hclosed⟩ :=
      @Cooperative.run_of_underway { scheduler := made, input := script, wall } _ _ _ hunderway
        hscript rfl limit rounds hlimit (Nat.le_trans hrounds (Nat.le_add_left ..))
    refine ⟨last, hrun, hclosed, ?_⟩
    obtain ⟨frames, before, cause, hround, hstops⟩ := Cooperative.run_ok .start hrun
    obtain ⟨hnumbered, hnumbers, -⟩ := hround.numbered (Scheduler.numbered_new hnew)
    obtain ⟨-, halbum, hredraws, -⟩ := hstops.counts hnumbered
    rw [halbum, hround.counts.2, List.nil_append, hnumbers, hredraws]
    -- Of the ways to stop only the end of the board comes to this result.
    rcases hstops with - | - | - | -
    rfl

/-- Thirty-three cycles in bursts of five, sampled every seven cycles and redrawn every fourteen. -/
theorem run_closed_haltAfter :
    ∃ made last,
      Scheduler.new ((start 1000).haltAfter 33) {} Metronome.settings = .ok made ∧
      Cooperative.run { scheduler := made, input := ({ batches := [] } : InputScript) } 7 7 =
        .ok (some (.ok (.ended .done), last)) ∧
      last.scheduler.stats.bursts = 7 ∧ last.scheduler.stats.samples = 4 ∧
      last.album.frames.map (·.sequence) = [1, 2] := by
  obtain ⟨made, hnew⟩ : ∃ made,
      Scheduler.new ((start 1000).haltAfter 33) {} Metronome.settings = .ok made := ⟨_, rfl⟩
  obtain ⟨-, hhost⟩ := run_closed ((Reachable.start 1000).haltAfter 33) rfl hnew
  obtain ⟨last, hrun, hclosed, hdrawn⟩ :=
    hhost { batches := [] } 0 7 7 ⟨rfl, nofun⟩ (by decide) (by decide)
  have hbursts : last.scheduler.stats.bursts = 7 := hclosed.bursts
  have hsamples := hclosed.fired .sampling
  have hredraws := hclosed.fired .redraw
  rw [hbursts] at hsamples hredraws
  refine ⟨made, last, hnew, hrun, hbursts, hsamples, hdrawn.trans ?_⟩
  exact congrArg (List.range' 1) hredraws

end DemoBoard

end Handheld
