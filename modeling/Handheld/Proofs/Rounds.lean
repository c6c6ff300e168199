import Handheld.Host.Cooperative
import Handheld.Proofs.Independence
import Handheld.Proofs.Timekeeping

/-!
# The rounds of the cooperative host

The cooperative host does one thing after the other: it polls, delivers what it was handed, lets the
scheduler run until a frame is ready, and draws it. Its loop can stop at five places. Whichever it
is, the run was a number of rounds that each came to a drawing (`Cooperative.Rounds`), followed by
one that stopped (`Cooperative.Stops`).

* `Scheduler.Numbered`: the invariant of the scheduler. It is running, and its latest frame bears
  the number of the redraws asked for; input and idling preserve it (`Numbered.idle`).
* `Cooperative.run_ok`: a run that comes back is rounds and a stop.
* `Cooperative.Account`: what was drawn, polled and counted in such a run, which
  `Cooperative.run_account` assembles from what each round adds (`Rounds.counts`, `Rounds.numbered`)
  and what the stop adds (`Stops.counts`).
-/

namespace Handheld

/-- The frame fills a panel of a size, given as a width and a height. -/
structure Frame.Fills (frame : Frame) (size : Nat × Nat) : Prop where
  width : frame.width = size.1
  height : frame.height = size.2
  luma : frame.luma.size = size.1 * size.2

namespace Scheduler

variable {σ : Type} [Board σ] {s : Scheduler σ} {settings : Settings} {width height count : Nat}
  {start finish : Nat} {turn : Turn σ}

/-! ## The scheduler -/

/-- A scheduler that is running, for a panel of a size, and has published a frame for each of the
    `count` redraws that were due. -/
structure Numbered (settings : Settings) (width height count : Nat) (s : Scheduler σ) : Prop where
  settings_eq : s.settings = settings
  running : s.phase = .running
  width : s.afterglow.width = width
  height : s.afterglow.height = height
  number : s.published.sequence = count
  redraws : s.stats.redraws = count

/-- A scheduler that has ended with the state in which the board ended its last burst, after
    `count` redraws. -/
structure Ended (settings : Settings) (state : CpuState) (count : Nat) (s : Scheduler σ) :
    Prop where
  burst : ∃ (before : σ) (burst : Burst),
    Board.runBurst before settings.burst = .ok (burst, s.board) ∧ burst.state = state
  terminal : state.isTerminal = true
  phase : s.phase = .ended state
  number : s.published.sequence = count
  redraws : s.stats.redraws = count

theorem numbered_new {board : σ} {channel : Channel}
    (hnew : Scheduler.new board channel settings = .ok s) :
    s.Numbered settings (Board.size board).1 (Board.size board).2 0 := by
  obtain ⟨-, rfl⟩ := new_ok hnew
  exact ⟨rfl, rfl, rfl, rfl, rfl, rfl⟩

/-- What a step of a running scheduler comes to: it goes on, it publishes the next frame, or it ends
    with the board. -/
theorem Numbered.step (h : s.Numbered settings width height count)
    (hstep : s.step start finish = .ok turn) :
    (turn.outcome = .proceed ∧ turn.scheduler.Numbered settings width height count) ∨
    (turn.outcome = .yield ∧ turn.scheduler.Numbered settings width height (count + 1) ∧
      turn.scheduler.published.Fills (width, height)) ∨
    ∃ state, turn.outcome = .ended state ∧ turn.scheduler.Ended settings state count := by
  obtain ⟨rfl, hrunning, rfl, rfl, hnumber, hredraws⟩ := h
  rcases step_ok hstep with ⟨state, hended, -⟩ | ⟨-, state, s₁, hlaunch, hsettle⟩
  · cases hrunning.symm.trans hended
  obtain ⟨burst, board, inner, queue, hrun, rfl, rfl⟩ := launch_ok hlaunch
  rcases settle_ok hsettle with hstate | ⟨glow, pace, -, hglow, hpending⟩ |
    ⟨glow, pace, -, hglow, hpending⟩
  · exact .inr (.inr ⟨_, rfl, ⟨_, _, hrun, rfl⟩, hstate, rfl, hnumber, hredraws⟩)
  · obtain ⟨hwidth, hheight⟩ := nextGlow_extent hglow
    -- The scheduler was running, so it is this step that asked for the redraw.
    have hdue : s.redraw.isDue (Board.cycle board) = true := by
      by_contra hdue
      rw [polled] at hpending
      cases hrunning.symm.trans ((if_neg hdue).symm.trans hpending)
    refine .inr (.inl ⟨rfl, ⟨rfl, rfl, hwidth, hheight, congrArg (· + 1) hnumber, ?_⟩, hwidth,
      hheight, ?_⟩)
    · exact congrArg₂ (· + ·) hredraws (if_pos hdue)
    · exact glow.size_luma.trans (congrArg₂ (· * ·) hwidth hheight)
  · obtain ⟨hwidth, hheight⟩ := nextGlow_extent hglow
    have hdue : ¬s.redraw.isDue (Board.cycle board) = true := fun hdue => hpending (if_pos hdue)
    refine .inl ⟨rfl, rfl, (if_neg hdue).trans hrunning, hwidth, hheight, hnumber, ?_⟩
    exact congrArg₂ (· + ·) hredraws (if_neg hdue)

theorem Numbered.step_of_not_ended (h : s.Numbered settings width height count)
    (hstep : s.step start finish = .ok turn) (hends : ∀ state, turn.outcome ≠ .ended state) :
    turn.scheduler.Numbered settings width height turn.scheduler.stats.redraws := by
  rcases h.step hstep with ⟨-, hnext⟩ | ⟨-, hnext, -⟩ | ⟨state, hended, -⟩
  · rwa [hnext.redraws]
  · rwa [hnext.redraws]
  · exact absurd hended (hends state)

theorem Numbered.step_of_ended (h : s.Numbered settings width height count)
    (hstep : s.step start finish = .ok turn) {state : CpuState}
    (hstate : turn.outcome = .ended state) : turn.scheduler.Ended settings state count := by
  rcases h.step hstep with ⟨hproceed, -⟩ | ⟨hyield, -⟩ | ⟨state', hended, hlast⟩
  · cases hstate.symm.trans hproceed
  · cases hstate.symm.trans hyield
  · cases hstate.symm.trans hended
    exact hlast

/-- Idling comes to the next frame or to the end of the board. -/
theorem Numbered.idle {wall limit : Nat} {idle : Idle σ}
    (h : s.Numbered settings width height count) (hidle : s.idle wall limit = .ok (some idle)) :
    (idle.outcome = .yield ∧ idle.scheduler.Numbered settings width height (count + 1) ∧
      idle.scheduler.published.Fills (width, height)) ∨
    ∃ state, idle.outcome = .ended state ∧ idle.scheduler.Ended settings state count := by
  obtain ⟨before, start, finish, turn, hbefore, hstep, hstop, houtcome, hscheduler⟩ :=
    idle_ok (P := Numbered settings width height count) (fun hs hstep hproceed => by
      rcases hs.step hstep with ⟨-, hnext⟩ | ⟨hyield, -⟩ | ⟨state, hended, -⟩
      · exact hnext
      · cases hproceed.symm.trans hyield
      · cases hproceed.symm.trans hended) h hidle
  rw [houtcome, hscheduler]
  exact (hbefore.step hstep).resolve_left fun hproceed => hstop hproceed.1

/-- Input reaches neither the afterglow nor the frame. -/
theorem Numbered.input (h : s.Numbered settings width height count) (event : ButtonEvent) :
    (s.input event).2.Numbered settings width height count := by
  rw [input_eq]
  rcases s.channel.lines.write? s.board event with - | ⟨lines, board⟩
  · exact h
  · exact { h with }

theorem Numbered.inputAll (h : s.Numbered settings width height count)
    (events : List ButtonEvent) :
    (s.inputAll events).2.Numbered settings width height count :=
  inputAll_induction (fun _ event h => h.input event) h events

/-- Input runs no burst. -/
theorem bursts_inputAll (s : Scheduler σ) (events : List ButtonEvent) :
    (s.inputAll events).2.stats.bursts = s.stats.bursts :=
  inputAll_induction (p := fun next => next.stats.bursts = s.stats.bursts) (fun _ _ h => h) rfl
    events

end Scheduler

/-! ## Scripts -/

namespace InputScript

/-- What a script that was not polled yet answers to the poll that follows `count` others. -/
def answer (script : InputScript) (count : Nat) : Except String (List HostEvent) :=
  match script.failure.filter fun failure => failure.1 = count + 1 with
  | some (_, reason) => .error reason
  | none => .ok (script.batches.getD count [])

/-- What is left of a script once it was polled `count` times. -/
def after (script : InputScript) (count : Nat) : InputScript :=
  { script with batches := script.batches.drop count, polls := count }

/-- A poll answers what the script has for it. If it succeeds the script goes on with the next
    batch. -/
theorem poll_after (script : InputScript) (count : Nat) :
    (script.after count).poll.1 = script.answer count ∧
    ∀ events, (script.after count).poll.1 = .ok events →
      (script.after count).poll.2 = script.after (count + 1) := by
  rcases script with ⟨batches, failure, polls⟩
  rcases failure with - | ⟨due, reason⟩
  · simp [poll, answer, after]
  · by_cases hdue : due = count + 1
    · simp [poll, answer, after, Option.filter, hdue]
    · simp [poll, answer, after, Option.filter, hdue]

end InputScript

/-! ## The host -/

namespace Cooperative

variable {σ ι : Type} [Board σ] [Input ι] {host first next last : Cooperative σ ι}
  {limit rounds : Nat} {frames : List Frame} {result : Except HostError Exit}

/-- The button events of a batch, up to a request to quit. -/
def untilQuit : List HostEvent → List ButtonEvent
  | [] => []
  | .quit :: _ => []
  | .button event :: events => event :: untilQuit events

/-- A batch is delivered in order, up to a request to quit. -/
theorem deliver_eq (s : Scheduler σ) (events : List HostEvent) :
    deliver s events = (decide (.quit ∈ events), (s.inputAll (untilQuit events)).2) := by
  induction events generalizing s with
  | nil => rfl
  | cons event events ih =>
    rcases event with event | -
    · rw [deliver, ih]
      simp [untilQuit, Scheduler.inputAll]
    · simp [deliver, untilQuit, Scheduler.inputAll]

/-- Rounds that each came to a drawing, with the frames that were drawn. A round polls; delivers the
    batch, in which there is no request to quit; lets the scheduler run until it yields; and draws
    the frame that was then published. -/
inductive Rounds (limit : Nat) (first : Cooperative σ ι) :
    List Frame → Cooperative σ ι → Prop
  | start : Rounds limit first [] first
  | again {frames : List Frame} {host : Cooperative σ ι} {events : List HostEvent} {input : ι}
    {idle : Scheduler.Idle σ} {album : Album} :
    Rounds limit first frames host →
    Input.poll host.input host.wall = (.ok events, input) → .quit ∉ events →
    (host.scheduler.inputAll (untilQuit events)).2.idle host.wall limit = .ok (some idle) →
    idle.outcome = .yield → host.album.draw idle.scheduler.published = .ok album →
    Rounds limit first (frames ++ [idle.scheduler.published])
      { scheduler := idle.scheduler, input, album, polls := host.polls + 1, wall := idle.wall }

/-- What a loop stops for. -/
inductive Cause
  | input
  | quit
  | ended
  | drawing
  deriving DecidableEq

/-- A round that stops the loop. -/
inductive Stops (limit : Nat) (host : Cooperative σ ι) :
    Cause → Except HostError Exit → Cooperative σ ι → Prop
  /-- The poll fails, and nothing else is done. -/
  | input {reason : String} {input : ι} :
    Input.poll host.input host.wall = (.error reason, input) →
    Stops limit host .input (.error (.terminal reason)) { host with input, polls := host.polls + 1 }
  /-- The batch is delivered up to a request to quit, and nothing else is done. -/
  | quit {events : List HostEvent} {input : ι} :
    Input.poll host.input host.wall = (.ok events, input) → .quit ∈ events →
    Stops limit host .quit (.ok .quit) { host with
      scheduler := (host.scheduler.inputAll (untilQuit events)).2
      input
      polls := host.polls + 1 }
  /-- The whole batch is delivered, and the scheduler runs until the board has ended. -/
  | ended {events : List HostEvent} {input : ι} {idle : Scheduler.Idle σ} {state : CpuState} :
    Input.poll host.input host.wall = (.ok events, input) → .quit ∉ events →
    (host.scheduler.inputAll (untilQuit events)).2.idle host.wall limit = .ok (some idle) →
    idle.outcome = .ended state →
    Stops limit host .ended (.ok (.ended state)) { host with
      scheduler := idle.scheduler, input, polls := host.polls + 1, wall := idle.wall }
  /-- The whole batch is delivered, the scheduler runs until it yields, and the frame that was then
      published cannot be drawn. -/
  | drawing {events : List HostEvent} {input : ι} {idle : Scheduler.Idle σ} {reason : String} :
    Input.poll host.input host.wall = (.ok events, input) → .quit ∉ events →
    (host.scheduler.inputAll (untilQuit events)).2.idle host.wall limit = .ok (some idle) →
    idle.outcome = .yield → host.album.draw idle.scheduler.published = .error reason →
    Stops limit host .drawing (.error (.terminal reason)) { host with
      scheduler := idle.scheduler, input, polls := host.polls + 1, wall := idle.wall }

/-- A round that is handed a batch without a request to quit delivers it and lets the scheduler
    run. -/
theorem round_of_poll {events : List HostEvent} {input : ι}
    (hpoll : Input.poll host.input host.wall = (.ok events, input)) (hquit : .quit ∉ events) :
    host.round limit = ({ host with
      scheduler := (host.scheduler.inputAll (untilQuit events)).2
      input
      polls := host.polls + 1 } : Cooperative σ ι).simulate limit := by
  rw [round, hpoll]
  simp only [deliver_eq]
  exact if_neg (by simpa using hquit)

/-- What a round that comes back was. -/
theorem round_ok {outcome : Round σ ι} (h : host.round limit = .ok outcome) :
    (∃ frame next, outcome = .again next ∧ ∀ first frames,
      Rounds limit first frames host → Rounds limit first (frames ++ [frame]) next) ∨
    (∃ cause result last, outcome = .stopped result last ∧ Stops limit host cause result last) ∨
    outcome = .outOfSteps := by
  rcases hpoll : Input.poll host.input host.wall with ⟨reason | events, input⟩
  · rw [round, hpoll] at h
    cases h
    exact .inr (.inl ⟨_, _, _, rfl, .input hpoll⟩)
  by_cases hquit : HostEvent.quit ∈ events
  · rw [round, hpoll] at h
    simp only [deliver_eq] at h
    rw [if_pos (decide_eq_true hquit)] at h
    cases h
    exact .inr (.inl ⟨_, _, _, rfl, .quit hpoll hquit⟩)
  rw [round_of_poll hpoll hquit, simulate] at h
  obtain ⟨idle | idle, hidle, h⟩ := bind_eq_ok.1 h
  · cases h
    exact .inr (.inr rfl)
  dsimp only at hidle h
  rcases houtcome : idle.outcome with - | - | state
  · -- Idling does not just go on.
    obtain ⟨_, _, _, turn, -, -, hstop, hturn, -⟩ :=
      Scheduler.idle_ok (P := fun _ => True) (fun _ _ _ => trivial) trivial hidle
    exact absurd (hturn.symm.trans houtcome) hstop
  · rw [houtcome] at h
    simp only [present, pure, Except.pure, Except.ok.injEq] at h
    rcases hdraw : host.album.draw idle.scheduler.published with reason | album
    · rw [hdraw] at h
      cases h
      exact .inr (.inl ⟨_, _, _, rfl, .drawing hpoll hquit hidle houtcome hdraw⟩)
    · rw [hdraw] at h
      cases h
      exact .inl ⟨_, _, rfl, fun first frames hrounds =>
        hrounds.again hpoll hquit hidle houtcome hdraw⟩
  · rw [houtcome] at h
    cases h
    exact .inr (.inl ⟨_, _, _, rfl, .ended hpoll hquit hidle houtcome⟩)

/-- A run that comes back is rounds that each came to a drawing, and one that stopped. -/
theorem run_ok (hhost : Rounds limit first frames host)
    (h : host.run limit rounds = .ok (some (result, last))) :
    ∃ frames before cause, Rounds limit first frames before ∧
      Stops limit before cause result last := by
  induction rounds generalizing host frames with
  | zero => cases h
  | succ rounds ih =>
    rw [run] at h
    obtain ⟨outcome, hround, h⟩ := bind_eq_ok.1 h
    rcases round_ok hround with ⟨frame, next, rfl, hnext⟩ | ⟨cause, result, stopped, rfl, hstops⟩ |
      rfl
    · exact ih (hnext first frames hhost) h
    · cases h
      exact ⟨frames, host, cause, hhost, hstops⟩
    · cases h

/-! ### What rounds come to -/

/-- Each round polls once and draws one frame. -/
theorem Rounds.counts (h : Rounds limit first frames host) :
    host.polls = first.polls + frames.length ∧
    host.album.frames = first.album.frames ++ frames := by
  induction h with
  | start => exact ⟨rfl, (List.append_nil _).symm⟩
  | again _ _ _ _ _ hdraw ih =>
    obtain ⟨hpolls, hframes⟩ := ih
    refine ⟨?_, ?_⟩
    · rw [hpolls, List.length_append, List.length_singleton, Nat.add_assoc]
    · rw [Album.draw_ok hdraw, hframes, List.append_assoc]

variable {settings : Settings} {width height : Nat}

/-- The frames drawn are numbered from one, and each fills the panel. -/
theorem Rounds.numbered (hfirst : first.scheduler.Numbered settings width height 0)
    (h : Rounds limit first frames host) :
    host.scheduler.Numbered settings width height frames.length ∧
    frames.map (·.sequence) = List.range' 1 frames.length ∧
    ∀ frame ∈ frames, frame.Fills (width, height) := by
  induction h with
  | start => exact ⟨hfirst, rfl, nofun⟩
  | again _ _ _ hidle hyield _ ih =>
    obtain ⟨hnumbered, hnumbers, hfills⟩ := ih
    rcases (hnumbered.inputAll _).idle hidle with ⟨-, hnext, hfill⟩ | ⟨state, hended, -⟩
    · rw [List.length_append, List.length_singleton]
      refine ⟨hnext, ?_, ?_⟩
      · rw [List.map_append, hnumbers, List.map_singleton, hnext.number, List.range'_1_concat,
          Nat.add_comm 1]
      · intro frame hframe
        rcases List.mem_append.1 hframe with hold | hlast
        · exact hfills frame hold
        · rw [List.mem_singleton.1 hlast]
          exact hfill
    · cases hyield.symm.trans hended

/-- A loop that stops has polled once more, and has drawn nothing more. If it stops at a drawing, a
    redraw more was due; if it stops with the board, the board has ended. -/
theorem Stops.counts {cause : Cause} {count : Nat}
    (hhost : host.scheduler.Numbered settings width height count)
    (h : Stops limit host cause result last) :
    last.polls = host.polls + 1 ∧ last.album = host.album ∧
    last.scheduler.stats.redraws = count + (if cause = .drawing then 1 else 0) ∧
    (cause = .ended →
      ∃ state, result = .ok (.ended state) ∧ last.scheduler.Ended settings state count) := by
  rcases h with hpoll | ⟨hpoll, hquit⟩ | ⟨hpoll, hquit, hidle, hended⟩ |
    ⟨hpoll, hquit, hidle, hyield, hdraw⟩
  · exact ⟨rfl, rfl, hhost.redraws, nofun⟩
  · exact ⟨rfl, rfl, (hhost.inputAll _).redraws, nofun⟩
  · rcases (hhost.inputAll _).idle hidle with ⟨hyield, -⟩ | ⟨state, hstate, hboard⟩
    · cases hended.symm.trans hyield
    · cases hended.symm.trans hstate
      exact ⟨rfl, rfl, hboard.redraws, fun _ => ⟨_, rfl, hboard⟩⟩
  · rcases (hhost.inputAll _).idle hidle with ⟨-, hnext, -⟩ | ⟨state, hstate, -⟩
    · exact ⟨rfl, rfl, hnext.redraws, nofun⟩
    · cases hyield.symm.trans hstate

/-- Nothing runs in a round that stops at the poll or on request. -/
theorem Stops.bursts {cause : Cause} (h : Stops limit host cause result last)
    (hcause : cause = .input ∨ cause = .quit) :
    last.scheduler.stats.bursts = host.scheduler.stats.bursts := by
  rcases h with hpoll | hpoll | hpoll | hpoll
  · rfl
  · exact Scheduler.bursts_inputAll ..
  · simp at hcause
  · simp at hcause

/-- Each round takes the next batch of a script. -/
theorem Rounds.input_eq {first host : Cooperative σ InputScript} {script : InputScript}
    (hfirst : first.input = script.after 0) (h : Rounds limit first frames host) :
    host.input = script.after frames.length := by
  induction h with
  | start => exact hfirst
  | @again frames host events input _ _ _ hpoll _ _ _ _ ih =>
    have hpoll : host.input.poll = (.ok events, input) := hpoll
    rw [ih] at hpoll
    have hnext := (script.poll_after frames.length).2 events (congrArg Prod.fst hpoll)
    rw [hpoll] at hnext
    rw [List.length_append, List.length_singleton]
    exact hnext

/-- The account of a run of `first` with a script, for a panel of a size, that drew `frames`: its
    last round began with `host`, and stopped for `cause`. -/
structure Account (settings : Settings) (size : Nat × Nat) (script : InputScript) (limit : Nat)
    (first : Cooperative σ InputScript) (frames : List Frame) (host : Cooperative σ InputScript)
    (cause : Cause) (result : Except HostError Exit) (last : Cooperative σ InputScript) : Prop where
  rounds : Rounds limit first frames host
  stops : Stops limit host cause result last
  /-- Every round, the last one included, takes the next batch. -/
  answers {frames : List Frame} {host : Cooperative σ InputScript} :
    Rounds limit first frames host → host.input.poll.1 = script.answer frames.length
  drawn : last.album.frames = frames
  numbers : frames.map (·.sequence) = List.range' 1 frames.length
  fills {frame : Frame} : frame ∈ frames → frame.Fills size
  polls : last.polls = frames.length + 1
  redraws : last.scheduler.stats.redraws = frames.length + (if cause = .drawing then 1 else 0)
  bursts : cause = .input ∨ cause = .quit →
    last.scheduler.stats.bursts = host.scheduler.stats.bursts
  ended : cause = .ended → ∃ state, result = .ok (.ended state) ∧
    last.scheduler.Ended settings state frames.length

/-- Whatever the board, the script and the album do, a run of the cooperative host that comes back
    has drawn exactly the frames of its rounds, which are numbered from one and fill the panel; it
    has polled once more than it has drawn, and asked for as many redraws as it has drawn, or for
    one more if a drawing failed. -/
theorem run_account {board : σ} {channel : Channel} {made : Scheduler σ}
    {batches : List (List HostEvent)} {inputFailure drawingFailure : Option (Nat × String)}
    {wall : Nat} {last : Cooperative σ InputScript}
    (hnew : Scheduler.new board channel settings = .ok made)
    (hrun : run
      { scheduler := made, input := { batches, failure := inputFailure }
        album := { failure := drawingFailure }, wall } limit rounds = .ok (some (result, last))) :
    ∃ frames host cause,
      Account settings (Board.size board) { batches, failure := inputFailure } limit
        { scheduler := made, input := { batches, failure := inputFailure }
          album := { failure := drawingFailure }, wall } frames host cause result last := by
  obtain ⟨frames, host, cause, hrounds, hstops⟩ := run_ok .start hrun
  obtain ⟨hpolls, hframes⟩ := hrounds.counts
  obtain ⟨hnumbered, hnumbers, hfills⟩ := hrounds.numbered (Scheduler.numbered_new hnew)
  obtain ⟨hlast, halbum, hredraws, hended⟩ := hstops.counts hnumbered
  refine ⟨frames, host, cause, hrounds, hstops, fun h => ?_, ?_, hnumbers, hfills _, ?_, hredraws,
    hstops.bursts, hended⟩
  · rw [h.input_eq (rfl : _ = InputScript.after { batches, failure := inputFailure } 0)]
    exact (InputScript.poll_after _ _).1
  · rw [halbum, hframes, List.nil_append]
  · rw [hlast, hpolls, Nat.zero_add]

/-- A button is pressed, one frame is drawn, and the screen fails at the second. -/
theorem run_account_metronome :
    ∃ made frames host cause last,
      Scheduler.new ({ cycle := 100 } : Metronome) {} Metronome.settings = .ok made ∧
      Account Metronome.settings (1, 8) { batches := [[.button ⟨.a, true⟩]] } 10
        { scheduler := made, input := { batches := [[.button ⟨.a, true⟩]] }
          album := { failure := some (2, "screen gone") } } frames host cause
        (.error (.terminal "screen gone")) last ∧
      frames.map (·.sequence) = [1] ∧ last.polls = 2 := by
  obtain ⟨made, last, hnew, hrun, hdrawn⟩ : ∃ made last,
      Scheduler.new ({ cycle := 100 } : Metronome) {} Metronome.settings = .ok made ∧
      run ({ scheduler := made, input := { batches := [[.button ⟨.a, true⟩]] }
             album := { failure := some (2, "screen gone") } } : Cooperative Metronome InputScript)
        10 3 = .ok (some (.error (.terminal "screen gone"), last)) ∧
      last.album.frames.length = 1 :=
    ⟨_, _, rfl, rfl, rfl⟩
  obtain ⟨frames, host, cause, haccount⟩ := run_account hnew hrun
  have hlength : frames.length = 1 := haccount.drawn ▸ hdrawn
  refine ⟨made, frames, host, cause, last, hnew, haccount, ?_, ?_⟩
  · rw [haccount.numbers, hlength, List.range'_one]
  · rw [haccount.polls, hlength]

end Cooperative

end Handheld
