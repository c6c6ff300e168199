import Handheld.Board.Scripted
import Handheld.Options
import Handheld.Proofs.Periods
import Handheld.Proofs.Pictures
import Handheld.Proofs.Walk

/-!
# Settings that can be relied on

Settings are checked once, when they are made. What the checks leave to go wrong later is a board
that runs at another frequency, which is found before anything is done to it, and a board that
breaks down itself. No timer is ever without a period, and no picture memory ever of another length
than the afterglow that samples it, whether or not the panel is one of whole pages.

* `Settings.Accepted`: settings that have passed the checks, with the numbers they were made of.
* `Scheduler.assemble`: how a scheduler is made, step by step, from a board that stays behind if
  this breaks off. It comes to what `Scheduler.new` says (`assemble_of_frequency`), and refuses a
  board of another frequency before any of its pins is driven.
* `Scheduler.Fitted.call`: on a board whose picture memory keeps its length a call fails only where
  a burst of the board does.
* `DemoBoard.paged_of_reachable`: the demo board is such a board, and its bursts never fail.
-/

namespace Handheld

/-! ## Settings -/

namespace Settings

/-- Settings that have passed the checks, be they made of numbers or of a player's options. -/
inductive Accepted : (hertz burst samplingMicros redrawMicros : Nat) → Settings → Prop
  | ofMicros {hertz burst samplingMicros redrawMicros : Nat} {settings : Settings} :
    Settings.ofMicros hertz burst samplingMicros redrawMicros = .ok settings →
    Accepted hertz burst samplingMicros redrawMicros settings
  | ofOptions {options : Options} {settings : Settings} : options.settings = .ok settings →
    Accepted options.frequency options.burstCycles options.samplingMicros options.redrawMicros
      settings

/-- What settings keep of the numbers that they were made of, and what the checks have found. The
    periods, in cycles, are words. -/
structure Keeps (hertz burst samplingMicros redrawMicros : Nat) (settings : Settings) : Prop where
  frequency : settings.clock.frequency = hertz
  burst : settings.burst = burst
  sampling : settings.samplingPeriod = samplingMicros * hertz / 1000000 % wordSize
  redraw : settings.redrawPeriod = redrawMicros * hertz / 1000000 % wordSize
  burst_le : 1 ≤ settings.burst
  sampling_le : 1 ≤ settings.samplingPeriod
  redraw_le : settings.samplingPeriod ≤ settings.redrawPeriod

variable {hertz burst samplingMicros redrawMicros : Nat} {settings : Settings}

theorem keeps_of_ofMicros (h : ofMicros hertz burst samplingMicros redrawMicros = .ok settings) :
    settings.Keeps hertz burst samplingMicros redrawMicros := by
  have hchecks := ofMicros_follows_kept hertz burst samplingMicros redrawMicros
  rw [h] at hchecks
  obtain ⟨-, hburst_pos, hsampling_pos, hle⟩ := hchecks.accepted_iff.1 ⟨settings, rfl⟩
  obtain ⟨hfrequency, hburst, hsampling, hredraw⟩ := hchecks.eq_of_ok
  refine ⟨hfrequency, hburst, hsampling, hredraw, ?_, ?_, ?_⟩
  · rwa [hburst]
  · rwa [hsampling]
  · rwa [hsampling, hredraw]

theorem Accepted.keeps (h : Accepted hertz burst samplingMicros redrawMicros settings) :
    settings.Keeps hertz burst samplingMicros redrawMicros := by
  rcases h with h | h
  · exact keeps_of_ofMicros h
  · obtain ⟨settings, hsettings, h⟩ := bind_eq_ok.1 h
    cases h
    exact { keeps_of_ofMicros hsettings with }

end Settings

/-! ## The making of a scheduler -/

namespace Scheduler

variable {σ : Type} [Board σ] {s first : Scheduler σ} {board : σ} {channel : Channel}
  {settings : Settings} {width height : Nat}

/-- Why no scheduler is made. -/
inductive Refusal
  | settings (error : SettingsError)
  | fault (fault : Fault)
  deriving DecidableEq, Repr

/-- A timer, whose period is checked again. -/
def checkedTimer (now period : Nat) (task : Task) : EStateM Refusal σ Timer :=
  match Timer.start? now period task with
  | .ok timer => pure timer
  | .error fault => throw (.fault fault)

/-- Make a scheduler, in the order in which it is done: the frequency is looked at first, then the
    pins of the board are driven, and then both timers are started. -/
def assemble (channel : Channel) (settings : Settings) : EStateM Refusal σ (Scheduler σ) := do
  let board ← get
  if Board.frequency board ≠ settings.clock.frequency then
    throw (.settings (.frequencyMismatch (Board.frequency board) settings.clock.frequency))
  set (channel.lines.pullUp board)
  let sampling ← checkedTimer (Board.cycle board) settings.samplingPeriod .sampling
  let redraw ← checkedTimer (Board.cycle board) settings.redrawPeriod .redraw
  return {
    board := ← get
    channel
    settings
    afterglow := .dark (Board.size board).1 (Board.size board).2
    sampling
    redraw }

/-- A board of another frequency is refused, and is left as it was. -/
theorem assemble_of_frequency_ne (h : Board.frequency board ≠ settings.clock.frequency) :
    (assemble channel settings).run board = .error (.settings
      (.frequencyMismatch (Board.frequency board) settings.clock.frequency)) board := by
  rw [assemble, EStateM.run_bind, EStateM.run_get]
  dsimp only
  rw [if_pos h]
  rfl

omit [Board σ] in
theorem checkedTimer_of_pos {now period : Nat} (h : 0 < period) (task : Task) :
    (checkedTimer now period task : EStateM Refusal σ Timer) = pure (.start now period task h) := by
  rw [checkedTimer, Timer.start?, dif_pos h]

/-- The making does not break off at a timer, since both periods have been checked. -/
theorem assemble_of_frequency (channel : Channel)
    (h : Board.frequency board = settings.clock.frequency) :
    ∃ made, Scheduler.new board channel settings = .ok made ∧
      (assemble channel settings).run board = .ok made made.board := by
  refine ⟨_, if_pos h, ?_⟩
  rw [assemble, EStateM.run_bind, EStateM.run_get]
  dsimp only
  rw [if_neg (not_not_intro h), checkedTimer_of_pos settings.samplingPeriod_pos,
    checkedTimer_of_pos settings.redrawPeriod_pos]
  rfl

/-! ## Runs that do not fail -/

/-- A fault in which a burst ends of something that the board can come to. -/
def BurstFails (board : σ) (settings : Settings) (fault : Fault) : Prop :=
  ∃ before, Board.Evolves board before ∧ Board.runBurst before settings.burst = .error fault

/-- To idle fails only where a burst does. -/
theorem Fitted.idle (hpaged : Board.Paged board width height)
    (h : Fitted board settings width height s) (wall limit : Nat) :
    (∃ result, s.idle wall limit = .ok result ∧
      ∀ idle, result = some idle → Fitted board settings width height idle.scheduler) ∨
    ∃ fault, s.idle wall limit = .error fault ∧ BurstFails board settings fault := by
  induction limit generalizing s wall with
  | zero =>
    refine .inl ⟨none, rfl, fun idle hidle => ?_⟩
    cases hidle
  | succ limit ih =>
    rcases h.step hpaged wall wall with ⟨turn, hstep, hturn⟩ | ⟨fault, hstep, hrun⟩
    · by_cases hproceed : turn.outcome = .proceed
      · rw [idle_of_proceed hstep hproceed]
        exact ih hturn _
      · refine .inl ⟨_, idle_of_stop hstep hproceed limit, fun idle hidle => ?_⟩
        cases hidle
        exact hturn
    · rw [h.settings_eq] at hrun
      refine .inr ⟨fault, ?_, _, h.evolves_drainInput, hrun⟩
      rw [Scheduler.idle, hstep]
      rfl

/-- Whatever is asked, it fails only where a burst does. -/
theorem Fitted.call (hpaged : Board.Paged board width height)
    (h : Fitted board settings width height s) (call : Call) :
    (∃ result, s.call call = .ok result ∧
      ∀ called, result = some called → Fitted board settings width height called.scheduler) ∨
    ∃ fault, s.call call = .error fault ∧ BurstFails board settings fault := by
  rcases call with ⟨start, finish⟩ | ⟨wall, limit⟩ | event | ⟨sender, event⟩
  · rcases h.step hpaged start finish with ⟨turn, hstep, hturn⟩ | ⟨fault, hstep, hrun⟩
    · refine .inl ⟨_, by rw [Scheduler.call, hstep]; rfl, fun called hcalled => ?_⟩
      cases hcalled
      exact hturn
    · rw [h.settings_eq] at hrun
      exact .inr ⟨fault, by rw [Scheduler.call, hstep]; rfl, _, h.evolves_drainInput, hrun⟩
  · rcases h.idle hpaged wall limit with ⟨result, hidle, hresult⟩ | ⟨fault, hidle, hrun⟩
    · refine .inl ⟨_, by rw [Scheduler.call, hidle]; rfl, fun called hcalled => ?_⟩
      rcases result with - | idle
      · cases hcalled
      · cases hcalled
        exact hresult idle rfl
    · exact .inr ⟨fault, by rw [Scheduler.call, hidle]; rfl, hrun⟩
  · refine .inl ⟨_, rfl, fun called hcalled => ?_⟩
    cases hcalled
    exact h.input event
  · refine .inl ⟨_, rfl, fun called hcalled => ?_⟩
    cases hcalled
    exact { h with }

theorem History.fitted (hpaged : Board.Paged board width height)
    (hfirst : Fitted board settings width height first) {grids : List (Array UInt8)} {yields : Nat}
    (h : History first grids yields s) : Fitted board settings width height s := by
  induction h with
  | start => exact hfirst
  | call _ hcall ih =>
    rcases ih.call hpaged _ with ⟨result, hresult, hnext⟩ | ⟨fault, hfault, -⟩
    · cases hcall.symm.trans hresult
      exact hnext _ rfl
    · cases hcall.symm.trans hfault

end Scheduler

/-! ## The demo board -/

namespace DemoBoard

variable {board demo : DemoBoard}

/-- What a demo board can come to while it is run can be reached from a reset, and keeps its
    frequency. -/
theorem reachable_of_evolves (hdemo : demo.Reachable) (h : Board.Evolves demo board) :
    board.Reachable ∧ board.frequency = demo.frequency := by
  induction h with
  | start => exact ⟨hdemo, rfl⟩
  | drive pin level _ ih => exact ⟨ih.1.drive pin level, ih.2⟩
  | burst _ hrun ih =>
    cases hrun
    exact ⟨ih.1.runBurst _, (frequency_runTo ..).trans ih.2⟩

theorem paged_of_reachable (hdemo : demo.Reachable) :
    Board.Paged demo Game.width Game.height where
  size _ := rfl
  grid h := (reachable_of_evolves hdemo h).1.size_vram

end DemoBoard

namespace Scheduler

/-- Settings that have passed the checks can be relied on. They keep the numbers they were made of;
    a burst has a cycle, a sampling period has one, and a redraw period is no shorter. Let a board
    have a panel of any size, of whole pages or not, and a picture memory that always has a byte for
    each eight pixels. Then no scheduler is made for it exactly if it runs at another frequency, of
    which the refusal tells, and it is then left as it was; the making does not break off at a
    timer. Let anything be asked of a scheduler that was made, in any order. Whatever the board may
    come to, sampling it succeeds, and no place that is read or changed for it is out of range; and
    no call fails but where a burst of the board itself does. A demo board of the right frequency is
    such a board in every state that it can reach, and its bursts do not fail. -/
theorem accepted_never_faults {hertz burst samplingMicros redrawMicros : Nat} {settings : Settings}
    (h : settings.Accepted hertz burst samplingMicros redrawMicros) :
    settings.Keeps hertz burst samplingMicros redrawMicros ∧
    (∀ (σ : Type) [Board σ] (board : σ) (width height : Nat), Board.Paged board width height →
      ∀ channel : Channel,
        (Board.frequency board ≠ settings.clock.frequency →
          Scheduler.new board channel settings = .error
            (.frequencyMismatch (Board.frequency board) settings.clock.frequency) ∧
          (assemble channel settings).run board = .error (.settings
            (.frequencyMismatch (Board.frequency board) settings.clock.frequency)) board) ∧
        (Board.frequency board = settings.clock.frequency → ∃ made,
          Scheduler.new board channel settings = .ok made ∧
          (assemble channel settings).run board = .ok made made.board ∧
          ∀ inner grids yields s, History { made with inner } grids yields s →
            (∀ present, Board.Evolves board present → ∃ next touched,
              s.afterglow.sample (Board.grid present) settings.decay settings.increase = .ok next ∧
              (s.afterglow.walk (Board.grid present) settings.decay settings.increase).run
                { luma := s.afterglow.luma } = .ok () { luma := next.luma, touched }) ∧
            ∀ call fault, s.call call = .error fault → ∃ before, Board.Evolves board before ∧
              Board.runBurst before settings.burst = .error fault)) ∧
    ∀ demo : DemoBoard, demo.Reachable → demo.frequency = settings.clock.frequency →
      Board.Paged demo Game.width Game.height ∧ ∀ board, Board.Evolves demo board →
        Board.frequency board = settings.clock.frequency ∧
        ∀ limit fault, Board.runBurst board limit ≠ .error fault := by
  refine ⟨h.keeps, ?_, ?_⟩
  · intro σ _ board width height hpaged channel
    refine ⟨fun hne => ⟨if_neg hne, assemble_of_frequency_ne hne⟩, fun hfrequency => ?_⟩
    obtain ⟨made, hnew, hassemble⟩ := assemble_of_frequency channel hfrequency
    refine ⟨made, hnew, hassemble, fun inner grids yields s hhistory => ?_⟩
    have hfitted := hhistory.fitted hpaged (fitted_new (hpaged.size .start) hnew inner)
    constructor
    · intro present hpresent
      have hsize := hpaged.grid hpresent
      rw [← hfitted.width, ← hfitted.height] at hsize
      exact ⟨_, _, if_pos hsize, Afterglow.walk_of_size hsize⟩
    · intro call fault hcall
      rcases hfitted.call hpaged call with ⟨result, hresult, -⟩ | ⟨fault', hfault, hfails⟩
      · cases hcall.symm.trans hresult
      · cases hcall.symm.trans hfault
        exact hfails
  · intro demo hdemo hfrequency
    refine ⟨DemoBoard.paged_of_reachable hdemo, fun board hboard => ⟨?_, fun limit fault => nofun⟩⟩
    exact (DemoBoard.reachable_of_evolves hdemo hboard).2.trans hfrequency

/-- With the default options, a board with a panel of three columns and twelve rows and four bytes
    of picture memory: a page of whole rows, and a byte that is never looked at. -/
theorem accepted_never_faults_twelve :
    ∃ settings made, ({} : Options).settings = .ok settings ∧ settings.samplingPeriod = 121152 ∧
      Scheduler.new ({ frequency := 16000000, width := 3, height := 12, cycle := 0
                       grid := #[1, 2, 3, 4], flags := {}, bursts := [] } : ScriptedBoard)
        {} settings = .ok made ∧
      (∃ next touched, made.afterglow.sample #[1, 2, 3, 4] 85 170 = .ok next ∧
        (made.afterglow.walk #[1, 2, 3, 4] 85 170).run { luma := made.afterglow.luma } =
          .ok () { luma := next.luma, touched }) ∧
      ∀ call fault, made.call call ≠ .error fault := by
  let first : ScriptedBoard :=
    { frequency := 16000000, width := 3, height := 12, cycle := 0, grid := #[1, 2, 3, 4]
      flags := {}, bursts := [] }
  have hkept {board : ScriptedBoard} (hboard : Board.Evolves first board) :
      board = { first with cycle := board.cycle } := by
    induction hboard with
    | start => rfl
    | drive _ _ _ ih => exact ih
    | burst _ hrun ih =>
      rw [ih] at hrun
      cases hrun
      rfl
  have hpaged : Board.Paged first 3 12 :=
    ⟨fun hboard => by rw [hkept hboard]; rfl, fun hboard => by rw [hkept hboard]; rfl⟩
  obtain ⟨settings, hsettings, hfades⟩ : ∃ settings, ({} : Options).settings = .ok settings ∧
      settings.decay = 85 ∧ settings.increase = 170 := ⟨_, rfl, rfl, rfl⟩
  obtain ⟨hkeeps, hboards, -⟩ := accepted_never_faults (.ofOptions hsettings)
  obtain ⟨-, hmakes⟩ := hboards ScriptedBoard first 3 12 hpaged {}
  obtain ⟨made, hnew, -, hruns⟩ := hmakes hkeeps.frequency.symm
  obtain ⟨hsamples, hcalls⟩ := hruns none [] 0 { made with inner := none } .start
  rw [new_inner hnew] at hsamples hcalls
  have hsample := hsamples first .start
  rw [hfades.1, hfades.2] at hsample
  refine ⟨settings, made, hsettings, hkeeps.sampling, hnew, hsample, fun call fault hcall => ?_⟩
  obtain ⟨before, hbefore, hrun⟩ := hcalls call fault hcall
  rw [hkept hbefore] at hrun
  cases hrun

end Scheduler

end Handheld
