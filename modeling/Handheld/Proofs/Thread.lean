import Handheld.Proofs.Handover
import Handheld.Proofs.Independence

/-!
# The simulation thread by itself

The simulation's thread never waits for its host, but once, to tell it that the board has ended. Up
to then it does what the steps of its scheduler do by themselves.

* `Scheduler.EndsAfter`: what the steps by themselves come to. It does not depend on the wall, but
  for the moment to which cycle zero is pinned (`Scheduler.HeadsFor.step`).
* `Simulation.Toward`: how far the thread is from that end, and how many frames it will still
  announce. Each turn brings it nearer (`Simulation.Toward.turn`).
* `Simulation.isOpen_turn`, `Simulation.signals_turn_of_closed`: what a turn does to the queue of
  signals, besides what `Simulation.Move` says of a host that listens.
-/

namespace Handheld

variable {σ : Type}

namespace Scheduler

/-! ## Steps by themselves -/

/-- The scheduler without the moment on the wall to which cycle zero is pinned. -/
def unpinned (s : Scheduler σ) : Scheduler σ := { s with epoch := none }

variable [Board σ] {s t last : Scheduler σ} {start finish steps yields : Nat} {state : CpuState}
  {turn : Turn σ}

/-- A scheduler that is stepped by itself ends in `state` after a number of steps, so many of which
    yield. -/
inductive EndsAfter : Scheduler σ → Nat → Nat → CpuState → Scheduler σ → Prop
  | ended {s : Scheduler σ} {start finish : Nat} {turn : Turn σ} {state : CpuState} :
    s.step start finish = .ok turn → turn.outcome = .ended state →
    EndsAfter s 1 0 state turn.scheduler
  | proceed {s last : Scheduler σ} {start finish steps yields : Nat} {turn : Turn σ}
    {state : CpuState} : s.step start finish = .ok turn → turn.outcome = .proceed →
    EndsAfter turn.scheduler steps yields state last → EndsAfter s (steps + 1) yields state last
  | yield {s last : Scheduler σ} {start finish steps yields : Nat} {turn : Turn σ}
    {state : CpuState} : s.step start finish = .ok turn → turn.outcome = .yield →
    EndsAfter turn.scheduler steps yields state last →
    EndsAfter s (steps + 1) (yields + 1) state last

/-- Steps of schedulers that differ in the moment of the epoch come to the same. -/
theorem step_unpinned (h : s.unpinned = t.unpinned) (hstep : s.step start finish = .ok turn)
    (start' finish' : Nat) :
    ∃ turn', t.step start' finish' = .ok turn' ∧ turn'.outcome = turn.outcome ∧
      turn'.scheduler.unpinned = turn.scheduler.unpinned := by
  have huntimed : s.untimed = t.untimed := (congrArg untimed h :)
  have hsettings : s.settings = t.settings := (congrArg settings h :)
  have hsame := s.step_untimed start finish 0 0
  rw [huntimed, t.step_untimed start' finish' 0 0, hstep] at hsame
  rcases hstep' : t.step start' finish' with fault | turn'
  · rw [hstep'] at hsame
    cases hsame
  · rw [hstep'] at hsame
    have hturn : turn'.untimed = turn.untimed := Except.ok.inj hsame
    have hscheduler : turn'.scheduler.untimed = turn.scheduler.untimed :=
      congrArg Turn.scheduler hturn
    refine ⟨turn', rfl, (congrArg Turn.outcome hturn :), ?_⟩
    -- A step leaves the throttle as it is, which was forgotten with the wall.
    have hthrottle : turn'.scheduler.settings = turn.scheduler.settings := by
      rw [step_settings hstep', step_settings hstep, hsettings]
    exact congrArg₂ (fun (s : Scheduler σ) settings => { s with settings }) hscheduler hthrottle

/-- The steps by themselves lead from `s` to `last`, but for the moment of the epoch. -/
def HeadsFor (s : Scheduler σ) (steps yields : Nat) (state : CpuState) (last : Scheduler σ) :
    Prop :=
  ∃ final, s.EndsAfter steps yields state final ∧ final.unpinned = last.unpinned

theorem HeadsFor.congr (h : s.HeadsFor steps yields state last) (hst : s.unpinned = t.unpinned) :
    t.HeadsFor steps yields state last := by
  obtain ⟨final, hends, hfinal⟩ := h
  induction hends generalizing t with
  | ended hstep hended =>
    obtain ⟨turn', hstep', houtcome, hsame⟩ := step_unpinned hst hstep 0 0
    exact ⟨_, .ended hstep' (houtcome.trans hended), hsame.trans hfinal⟩
  | proceed hstep hproceed _ ih =>
    obtain ⟨turn', hstep', houtcome, hsame⟩ := step_unpinned hst hstep 0 0
    obtain ⟨final, hends, hfinal⟩ := ih hsame.symm hfinal
    exact ⟨final, .proceed hstep' (houtcome.trans hproceed) hends, hfinal⟩
  | yield hstep hyield _ ih =>
    obtain ⟨turn', hstep', houtcome, hsame⟩ := step_unpinned hst hstep 0 0
    obtain ⟨final, hends, hfinal⟩ := ih hsame.symm hfinal
    exact ⟨final, .yield hstep' (houtcome.trans hyield) hends, hfinal⟩

/-- The next step on the way, whatever the wall. -/
theorem HeadsFor.step (h : s.HeadsFor steps yields state last) (start finish : Nat) :
    ∃ turn rest, s.step start finish = .ok turn ∧ steps = rest + 1 ∧
      ((turn.outcome = .ended state ∧ yields = 0 ∧ turn.scheduler.unpinned = last.unpinned) ∨
        (turn.outcome = .proceed ∧ turn.scheduler.HeadsFor rest yields state last) ∨
        (turn.outcome = .yield ∧ ∃ more, yields = more + 1 ∧
          turn.scheduler.HeadsFor rest more state last)) := by
  obtain ⟨final, hends, hfinal⟩ := h
  rcases hends with ⟨hstep, hended⟩ | ⟨hstep, hproceed, hrest⟩ | ⟨hstep, hyield, hrest⟩
  · obtain ⟨turn', hstep', houtcome, hsame⟩ := step_unpinned rfl hstep start finish
    exact ⟨turn', 0, hstep', rfl, .inl ⟨houtcome.trans hended, rfl, hsame.trans hfinal⟩⟩
  · obtain ⟨turn', hstep', houtcome, hsame⟩ := step_unpinned rfl hstep start finish
    have hleads : HeadsFor _ _ _ _ last := ⟨final, hrest, hfinal⟩
    exact ⟨turn', _, hstep', rfl, .inr (.inl ⟨houtcome.trans hproceed, hleads.congr hsame.symm⟩)⟩
  · obtain ⟨turn', hstep', houtcome, hsame⟩ := step_unpinned rfl hstep start finish
    have hleads : HeadsFor _ _ _ _ last := ⟨final, hrest, hfinal⟩
    exact ⟨turn', _, hstep', rfl,
      .inr (.inr ⟨houtcome.trans hyield, _, rfl, hleads.congr hsame.symm⟩)⟩

/-- A scheduler that has ended is there already. -/
theorem HeadsFor.of_ended (h : s.HeadsFor steps yields state last) {ending : CpuState}
    (hphase : s.phase = .ended ending) :
    ending = state ∧ yields = 0 ∧ s.unpinned = last.unpinned ∧ 0 < steps := by
  obtain ⟨turn, rest, hstep, rfl, hcame⟩ := h.step 0 0
  rcases step_ok hstep with ⟨ended, hended, rfl⟩ | ⟨hrunning, -⟩
  · rcases hcame with ⟨hlast, hyields, hsame⟩ | ⟨hlast, -⟩ | ⟨hlast, -⟩
    · cases hlast
      cases hphase.symm.trans hended
      exact ⟨rfl, hyields, hsame, Nat.succ_pos rest⟩
    · cases hlast
    · cases hlast
  · exact absurd hphase (hrunning ending)

/-- The first half of the next step. -/
theorem HeadsFor.launch (h : s.HeadsFor steps yields state last)
    (hphase : ∀ state, s.phase ≠ .ended state) (start : Nat) :
    ∃ burst s₁ rest, s.launch start = .ok (burst, s₁) ∧ steps = rest + 1 := by
  obtain ⟨turn, rest, hstep, hrest, -⟩ := h.step start start
  rcases step_ok hstep with ⟨ended, hended, -⟩ | ⟨-, burst, s₁, hlaunch, -⟩
  · exact absurd hended (hphase ended)
  · exact ⟨burst, s₁, rest, hlaunch, hrest⟩

/-- The second half of the next step. -/
theorem HeadsFor.settle (h : s.HeadsFor (steps + 1) yields state last)
    (hphase : ∀ state, s.phase ≠ .ended state) {burst : CpuState} {s₁ : Scheduler σ}
    (hlaunch : s.launch start = .ok (burst, s₁)) (finish : Nat) :
    ∃ turn, s₁.settle burst finish = .ok turn ∧
      ((turn.outcome = .ended state ∧ yields = 0 ∧ turn.scheduler.unpinned = last.unpinned) ∨
        (turn.outcome = .proceed ∧ turn.scheduler.HeadsFor steps yields state last) ∨
        (turn.outcome = .yield ∧ ∃ more, yields = more + 1 ∧
          turn.scheduler.HeadsFor steps more state last)) := by
  obtain ⟨turn, rest, hstep, hrest, hcame⟩ := h.step start finish
  obtain rfl : steps = rest := Nat.succ.inj hrest
  rcases step_ok hstep with ⟨ended, hended, -⟩ | ⟨-, burst', s₂, hlaunch', hsettle⟩
  · exact absurd hended (hphase ended)
  · cases hlaunch.symm.trans hlaunch'
    exact ⟨turn, hsettle, hcame⟩

end Scheduler

/-! ## The thread -/

namespace Simulation

variable [Board σ] {sim next : Simulation σ} {last : Scheduler σ} {state : CpuState}
  {rank left : Nat}

/-- The thread is on its way to the end that the steps by themselves come to, with so many
    announcements left to make; the rank bounds the turns until it gets there. -/
inductive Toward (state : CpuState) (last : Scheduler σ) (sim : Simulation σ) : Nat → Nat → Prop
  | ready {steps left : Nat} : sim.stage = .ready → sim.scheduler.HeadsFor steps left state last →
    Toward state last sim (3 * steps) left
  | launched {steps left start : Nat} {burst : CpuState} {s : Scheduler σ} :
    sim.stage = .launched burst → (∀ state, s.phase ≠ .ended state) →
    s.launch start = .ok (burst, sim.scheduler) → s.HeadsFor (steps + 1) left state last →
    Toward state last sim (3 * steps + 2) left
  | announcing {steps left : Nat} : sim.stage = .announcing →
    sim.scheduler.HeadsFor steps left state last → Toward state last sim (3 * steps + 1) (left + 1)
  | closing : sim.stage = .closing state → sim.scheduler.unpinned = last.unpinned →
    Toward state last sim 0 0
  | finished : sim.stage = .finished state → sim.scheduler.unpinned = last.unpinned →
    Toward state last sim 0 0

/-- The signals play no part in it. -/
theorem Toward.congr (h : sim.Toward state last rank left) (hstage : next.stage = sim.stage)
    (hscheduler : next.scheduler = sim.scheduler) : next.Toward state last rank left := by
  rcases h with ⟨hsim, hleads⟩ | ⟨hsim, hphase, hlaunch, hleads⟩ | ⟨hsim, hleads⟩ | ⟨hsim, hlast⟩ |
    ⟨hsim, hlast⟩
  · exact .ready (hstage.trans hsim) (hscheduler ▸ hleads)
  · exact .launched (hstage.trans hsim) hphase (hscheduler ▸ hlaunch) hleads
  · exact .announcing (hstage.trans hsim) (hscheduler ▸ hleads)
  · exact .closing (hstage.trans hsim) (hscheduler ▸ hlast)
  · exact .finished (hstage.trans hsim) (hscheduler ▸ hlast)

/-- A thread that is to tell of the end does so, or waits for room. -/
theorem turn_of_closing (hstage : sim.stage = .closing state) :
    (∃ signals, sim.turn = { sim with signals, stage := .finished state }) ∨ sim.turn = sim := by
  simp only [turn, hstage]
  split
  · split
    · exact .inr rfl
    · exact .inl ⟨_, rfl⟩
  · exact .inl ⟨_, rfl⟩

/-- A turn brings the thread nearer to its end, and only an announcement leaves fewer to make. -/
theorem Toward.turn (h : sim.Toward state last rank left) :
    ∃ rank' left', sim.turn.Toward state last rank' left' ∧
      (sim.stage = .announcing → left = left' + 1) ∧ (sim.stage ≠ .announcing → left' = left) ∧
      (sim.isOver = true ∨ rank' < rank) := by
  rcases h with ⟨hstage, hleads⟩ | ⟨hstage, hphase, hlaunch, hleads⟩ | ⟨hstage, hleads⟩ |
    ⟨hstage, hlast⟩ | ⟨hstage, hlast⟩
  · by_cases hphase : ∀ state, sim.scheduler.phase ≠ .ended state
    · obtain ⟨burst, s₁, rest, hlaunch, rfl⟩ := hleads.launch hphase sim.wall
      rw [turn_of_ready hstage hphase, hlaunch]
      exact ⟨_, _, .launched rfl hphase hlaunch hleads, by simp [hstage], fun _ => rfl,
        .inr (by omega)⟩
    · push Not at hphase
      obtain ⟨ending, hended⟩ := hphase
      obtain ⟨rfl, rfl, hsame, hpos⟩ := hleads.of_ended hended
      have hturn : sim.turn = { sim with stage := .closing ending } := by
        simp only [Simulation.turn, hstage, hended]
      rw [hturn]
      exact ⟨0, 0, .closing rfl hsame, by simp [hstage], fun _ => rfl, .inr (by omega)⟩
  · obtain ⟨turn, hsettle, hcame⟩ := hleads.settle hphase hlaunch sim.wall
    simp only [Simulation.turn, hstage, hsettle]
    rcases hcame with ⟨houtcome, rfl, hsame⟩ | ⟨houtcome, hnext⟩ | ⟨houtcome, more, rfl, hnext⟩
    · rw [houtcome]
      exact ⟨0, 0, .closing rfl hsame, by simp, fun _ => rfl, .inr (by omega)⟩
    · rw [houtcome]
      exact ⟨_, _, .ready rfl hnext, by simp, fun _ => rfl, .inr (by omega)⟩
    · rw [houtcome]
      exact ⟨_, _, .announcing rfl hnext, by simp, fun _ => rfl, .inr (by omega)⟩
  · simp only [Simulation.turn, hstage]
    exact ⟨_, _, .ready rfl hleads, fun _ => rfl, fun h => absurd rfl h, .inr (by omega)⟩
  · -- A thread that waits for its host gets no nearer, but it is over.
    have hover : sim.isOver = true := by rw [isOver, hstage]
    rcases turn_of_closing hstage with ⟨signals, hturn⟩ | hturn
    · rw [hturn]
      exact ⟨0, 0, .finished rfl hlast, by simp [hstage], fun _ => rfl, .inl hover⟩
    · rw [hturn]
      exact ⟨0, 0, .closing hstage hlast, by simp [hstage], fun _ => rfl, .inl hover⟩
  · have hover : sim.isOver = true := by rw [isOver, hstage]
    have hturn : sim.turn = sim := by simp only [Simulation.turn, hstage]
    rw [hturn]
    exact ⟨0, 0, .finished hstage hlast, by simp [hstage], fun _ => rfl, .inl hover⟩

/-- The thread ends as the steps by themselves do. -/
theorem Toward.state_eq (h : sim.Toward state last rank left) {ending : CpuState}
    (hover : sim.stage = .closing ending ∨ sim.stage = .finished ending) :
    ending = state ∧ left = 0 ∧ sim.scheduler.unpinned = last.unpinned := by
  rcases h with ⟨hstage, -⟩ | ⟨hstage, -, -, -⟩ | ⟨hstage, -⟩ | ⟨hstage, hlast⟩ | ⟨hstage, hlast⟩
  · simp [hstage] at hover
  · simp [hstage] at hover
  · simp [hstage] at hover
  · rw [hstage] at hover
    rcases hover with hover | hover
    · cases hover
      exact ⟨rfl, rfl, hlast⟩
    · cases hover
  · rw [hstage] at hover
    rcases hover with hover | hover
    · cases hover
    · cases hover
      exact ⟨rfl, rfl, hlast⟩

/-- A thread that is over has ended. -/
theorem Toward.stage_eq (h : sim.Toward state last rank left) (hover : sim.isOver = true) :
    sim.stage = .closing state ∨ sim.stage = .finished state := by
  rcases h with ⟨hstage, -⟩ | ⟨hstage, -, -, -⟩ | ⟨hstage, -⟩ | ⟨hstage, -⟩ | ⟨hstage, -⟩
  · simp [isOver, hstage] at hover
  · simp [isOver, hstage] at hover
  · simp [isOver, hstage] at hover
  · exact .inl hstage
  · exact .inr hstage

/-- The thread does not fail on its way. -/
theorem Toward.not_failed (h : sim.Toward state last rank left) (fault : Fault) :
    sim.stage ≠ .failed fault := by
  rcases h with ⟨hstage, -⟩ | ⟨hstage, -, -, -⟩ | ⟨hstage, -⟩ | ⟨hstage, -⟩ | ⟨hstage, -⟩
  all_goals simp [hstage]

/-- Once the host has let go nothing is told any more. -/
theorem signals_turn_of_closed (hshut : sim.signals.isOpen = false) :
    sim.turn.signals = sim.signals := by
  rcases hstage : sim.stage with - | burst | - | state | state | fault
  · simp only [turn, hstage]
    split
    · rfl
    · split
      · rfl
      · rfl
  · simp only [turn, hstage]
    split
    · rfl
    · rfl
  · have hoffer : sim.signals.offer .frameReady = none := by simp [Signals.offer, hshut]
    simp only [turn, hstage, hoffer, Option.getD_none]
  · simp only [turn, hstage, hshut, Bool.false_eq_true, if_false]
  · simp only [turn, hstage]
  · simp only [turn, hstage]

/-- A turn of the thread does not make the host let go. -/
theorem isOpen_turn (sim : Simulation σ) : sim.turn.signals.isOpen = sim.signals.isOpen := by
  rcases hopen : sim.signals.isOpen with - | -
  · rw [signals_turn_of_closed hopen, hopen]
  · have hmove := move_turn hopen
    generalize sim.turn = next at *
    rcases hmove with ⟨-, -, -, hsignals, -⟩ | ⟨-, -, hsignals, -⟩ | - | ⟨-, hoffer⟩
    · rw [hsignals, hopen]
    · rw [hsignals, hopen]
    · rcases hoffer : sim.signals.offer .frameReady with - | signals
      · exact hopen
      · obtain rfl := Signals.offer_eq_some hoffer
        exact hopen
    · obtain rfl := Signals.offer_eq_some hoffer
      exact hopen

omit [Board σ] in
/-- A host that is told that nothing more will come has read everything, and the thread is over. -/
theorem of_disconnected (h : sim.receive.1 = .disconnected) :
    sim.signals.waiting = [] ∧
      ((∃ state, sim.stage = .finished state) ∨ ∃ fault, sim.stage = .failed fault) := by
  rcases hwaiting : sim.signals.waiting with - | ⟨first, rest⟩
  · refine ⟨rfl, ?_⟩
    rcases hstage : sim.stage with - | burst | - | state | state | fault
    case finished => exact .inl ⟨state, rfl⟩
    case failed => exact .inr ⟨fault, rfl⟩
    case closing =>
      simp only [receive, hwaiting, hstage] at h
      split at h
      · cases h
      · cases h
    all_goals simp [receive, hwaiting, hstage] at h
  · rw [receive_of_cons hwaiting] at h
    cases h

omit [Board σ] in
theorem receive_of_finished (hstage : sim.stage = .finished state)
    (hwaiting : sim.signals.waiting = []) : sim.receive = (.disconnected, sim) := by
  simp only [receive, hwaiting, hstage]

end Simulation

end Handheld
