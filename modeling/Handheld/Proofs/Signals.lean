import Handheld.Board.Logged
import Handheld.Proofs.Thread
import Mathlib.Logic.Relation

/-!
# A host that listens

It makes no difference to the simulation what its host hears, or whether the host hears anything at
all. What the host hears does depend on when it listens, since an announcement that finds no room is
dropped.

A host that does nothing but listen can look for a signal at any moment, and it can let go of its
end of the queue (`Listening.Move`). Over a queue that holds nothing it hears of a frame only if it
waits for a signal at the moment of the announcement. What was told so far (`Listening.told`) is
what it has heard, what was lost when it let go, and what waits.

* `Listening.Sound`: the invariant. The thread is on its way to the end that the steps by themselves
  come to; it has told of some frames, and of the end only once it has finished. Every move
  preserves this (`Listening.Sound.move`).
* `Listening.Owed`: the host is to hear of a frame. It is, until it does.
* `Listening.Sound.reaches_disconnected`: a host that keeps reading gets to the end.
* `Listening.undisturbed`: what the thread comes to, and what the host can hear of it.
-/

namespace Handheld

variable {σ : Type}

/-! ## Moves -/

/-- A simulation with a host that does nothing but listen. -/
structure Listening (σ : Type) where
  simulation : Simulation σ
  heard : List Signal := []
  /-- What waited when the host let go of its end. -/
  lost : List Signal := []

namespace Listening

variable [Board σ] {w w' : Listening σ} {last made : Scheduler σ} {state : CpuState}
  {sim : Simulation σ} {capacity yields rank rank' left left' frames : Nat}

/-- Everything that the host was told so far, oldest first. -/
def told (w : Listening σ) : List Signal := w.heard ++ w.lost ++ w.simulation.signals.waiting

/-- Whether the host still holds its end. -/
def isOpen (w : Listening σ) : Bool := w.simulation.signals.isOpen

/-- What can happen next. -/
inductive Move (w : Listening σ) : Listening σ → Prop
  /-- The thread takes a turn. -/
  | work : Move w { w with simulation := w.simulation.turn }
  /-- Time passes. -/
  | elapse (now : Nat) : Move w { w with simulation := { w.simulation with wall := now } }
  /-- The host looks for a signal and gets one. -/
  | look {signal : Signal} {simulation : Simulation σ} : w.isOpen = true →
    w.simulation.receive = (.signal signal, simulation) →
    Move w { w with simulation, heard := w.heard ++ [signal] }
  /-- The thread makes an announcement while the host waits for a signal, over a queue that holds
      nothing. -/
  | meet : w.isOpen = true → w.simulation.signals.capacity = 0 → w.simulation.stage = .announcing →
    Move w { w with
      simulation := { w.simulation with stage := .ready }
      heard := w.heard ++ [.frameReady] }
  /-- The host lets go of its end. -/
  | hangUp : Move w { w with
      simulation := { w.simulation with signals := w.simulation.signals.close }
      lost := w.lost ++ w.simulation.signals.waiting }

/-- The invariant. The thread is on its way to the end with `left` announcements left to make, and
    has told the host of `frames` frames. -/
structure Sound (capacity yields : Nat) (state : CpuState) (last : Scheduler σ)
    (rank left frames : Nat) (w : Listening σ) : Prop where
  capacity_eq : w.simulation.signals.capacity = capacity
  room : w.simulation.signals.waiting.length ≤ capacity
  toward : w.simulation.Toward state last rank left
  count : frames + left ≤ yields
  /-- Only a full queue makes the thread drop an announcement. -/
  full : w.isOpen = true → w.heard = [] → frames = min (yields - left) capacity
  lost : w.isOpen = true → w.lost = []
  closed : w.isOpen = true ∨ w.simulation.signals.waiting = []
  /-- The end is the last thing that the host is told, and a thread that has finished without
      telling it had nobody to tell. -/
  told :
    (w.told = List.replicate frames .frameReady ∧
      (w.isOpen = true → w.simulation.stage ≠ .finished state)) ∨
    (w.told = List.replicate frames .frameReady ++ [.ended state] ∧
      w.simulation.stage = .finished state)

omit [Board σ] in
/-- A host that has heard nothing has been told what waits. -/
theorem told_eq_waiting (hheard : w.heard = []) (hlost : w.lost = []) :
    w.told = w.simulation.signals.waiting := by
  rw [told, hheard, hlost, List.nil_append, List.nil_append]

/-- Before the thread has finished it has told of frames only. -/
theorem Sound.told_of_not_finished (h : w.Sound capacity yields state last rank left frames)
    (hstage : w.simulation.stage ≠ .finished state) :
    w.told = List.replicate frames .frameReady := by
  rcases h.told with ⟨htold, -⟩ | ⟨-, hfinished⟩
  · exact htold
  · exact absurd hfinished hstage

/-- What the thread does without a signal preserves the invariant. -/
theorem Sound.keep (h : w.Sound capacity yields state last rank left frames)
    (htoward : sim.Toward state last rank' left') (hsignals : sim.signals = w.simulation.signals)
    (hleft : left' ≤ left)
    (hopen : w.isOpen = true → left' = left ∧
      (sim.stage = .finished state → w.simulation.stage = .finished state))
    (hfinished : w.simulation.stage = .finished state → sim.stage = .finished state) :
    ({ w with simulation := sim } : Listening σ).Sound capacity yields state last rank' left'
      frames := by
  obtain ⟨hcapacity, hroom, -, hcount, hfull, hlost, hclosed, htold⟩ := h
  have hisOpen : isOpen { w with simulation := sim } = w.isOpen := by rw [isOpen, isOpen, hsignals]
  have hsame : Listening.told { w with simulation := sim } = w.told := by
    rw [Listening.told, Listening.told, hsignals]
  refine ⟨hsignals ▸ hcapacity, hsignals ▸ hroom, htoward, ?_, ?_, ?_, ?_, ?_⟩
  · omega
  · intro hwas hheard
    rw [hisOpen] at hwas
    rw [(hopen hwas).1]
    exact hfull hwas hheard
  · rwa [hisOpen]
  · rw [hisOpen, hsignals]
    exact hclosed
  · rw [hisOpen, hsame]
    exact htold.imp (fun ⟨htold, hnot⟩ => ⟨htold, fun hwas => mt (hopen hwas).2 (hnot hwas)⟩)
      fun ⟨htold, hwas⟩ => ⟨htold, hfinished hwas⟩

/-- An announcement preserves the invariant, whether it finds room or is dropped. -/
theorem Sound.announce (h : w.Sound capacity yields state last rank (left' + 1) frames)
    (hopen : w.isOpen = true) (hstage : w.simulation.stage = .announcing)
    (htoward : w.simulation.turn.Toward state last rank' left') :
    ∃ frames', ({ w with simulation := w.simulation.turn } : Listening σ).Sound capacity yields
        state last rank' left' frames' ∧ frames ≤ frames' ∧ frames' ≤ frames + 1 := by
  have hframes := h.told_of_not_finished (by simp [hstage])
  obtain ⟨hcapacity, hroom, -, hcount, hfull, hlost, hclosed, -⟩ := h
  have hwaiting (hheard : w.heard = []) : w.simulation.signals.waiting.length = frames := by
    rw [← told_eq_waiting hheard (hlost hopen), hframes, List.length_replicate]
  rcases Nat.lt_or_ge w.simulation.signals.waiting.length capacity with hlt | hle
  · have hturn : w.simulation.turn = { w.simulation with
        signals := { w.simulation.signals with
          waiting := w.simulation.signals.waiting ++ [.frameReady] }
        stage := .ready } := by
      simp only [Simulation.turn, hstage,
        Signals.offer_of_lt hopen (hcapacity ▸ hlt), Option.getD_some]
    rw [hturn] at htoward ⊢
    refine ⟨frames + 1, ⟨hcapacity, ?_, htoward, ?_, fun _ hheard => ?_, hlost, .inl hopen,
      .inl ⟨?_, by simp⟩⟩, Nat.le_succ _, Nat.le_refl _⟩
    · rw [List.length_append, List.length_singleton]
      exact hlt
    · omega
    · have hlength := hwaiting hheard
      have hmin := hfull hopen hheard
      omega
    · have htold : w.told ++ [Signal.frameReady] = List.replicate (frames + 1) .frameReady := by
        rw [hframes, ← List.replicate_succ']
      rw [← htold, Listening.told, Listening.told, List.append_assoc _ w.simulation.signals.waiting]
  · have hturn : w.simulation.turn = { w.simulation with stage := .ready } := by
      simp only [Simulation.turn, hstage, Signals.offer_of_le (hcapacity ▸ hle), Option.getD_none]
    rw [hturn] at htoward ⊢
    refine ⟨frames, ⟨hcapacity, hroom, htoward, ?_, fun _ hheard => ?_, hlost, hclosed,
      .inl ⟨hframes, by simp⟩⟩, Nat.le_refl _, Nat.le_succ _⟩
    · omega
    · have hlength := hwaiting hheard
      have hmin := hfull hopen hheard
      omega

/-- The news that the board has ended preserves the invariant. -/
theorem Sound.tell (h : w.Sound capacity yields state last rank left frames)
    {signals : Signals} (hopen : w.isOpen = true) (hstage : w.simulation.stage = .closing state)
    (hoffer : w.simulation.signals.offer (.ended state) = some signals)
    (htoward : Simulation.Toward state last
      { w.simulation with signals, stage := .finished state } rank' left) :
    ({ w with simulation := { w.simulation with signals, stage := .finished state } } :
      Listening σ).Sound capacity yields state last rank' left frames := by
  have hframes := h.told_of_not_finished (by simp [hstage])
  obtain ⟨hcapacity, hroom, -, hcount, hfull, hlost, hclosed, -⟩ := h
  rcases Nat.lt_or_ge w.simulation.signals.waiting.length capacity with hlt | hle
  · rw [Signals.offer_of_lt hopen (hcapacity ▸ hlt)] at hoffer
    cases hoffer
    refine ⟨hcapacity, ?_, htoward, hcount, hfull, hlost, .inl hopen, .inr ⟨?_, rfl⟩⟩
    · rw [List.length_append, List.length_singleton]
      exact hlt
    · rw [← hframes, Listening.told, Listening.told,
        List.append_assoc _ w.simulation.signals.waiting]
  · rw [Signals.offer_of_le (hcapacity ▸ hle)] at hoffer
    cases hoffer

/-- A turn of the thread preserves the invariant. -/
theorem Sound.work (h : w.Sound capacity yields state last rank left frames) :
    ∃ rank' left' frames', ({ w with simulation := w.simulation.turn } : Listening σ).Sound
        capacity yields state last rank' left' frames' ∧
      frames ≤ frames' ∧ frames' + left' ≤ frames + left ∧
      (w.simulation.isOver = true ∨ rank' < rank) := by
  obtain ⟨rank', left', htoward, hannounce, hother, hrank⟩ := h.toward.turn
  have hfinished : w.simulation.stage = .finished state →
      w.simulation.turn.stage = .finished state := fun hstage => by
    simp only [Simulation.turn, hstage]
  rcases hopen : w.isOpen with - | -
  · -- Nobody listens.
    have hleft : left' ≤ left := by
      by_cases hstage : w.simulation.stage = .announcing
      · have := hannounce hstage
        omega
      · exact Nat.le_of_eq (hother hstage)
    refine ⟨rank', left', frames, h.keep htoward (Simulation.signals_turn_of_closed hopen) hleft
      (fun hwas => absurd (hopen.symm.trans hwas) (by decide)) hfinished, Nat.le_refl _, ?_, hrank⟩
    exact Nat.add_le_add_left hleft _
  by_cases hstage : w.simulation.stage = .announcing
  · obtain rfl := hannounce hstage
    obtain ⟨frames', hnext, hle, hmost⟩ := h.announce hopen hstage htoward
    exact ⟨rank', left', frames', hnext, hle, by omega, hrank⟩
  obtain rfl := hother hstage
  have hmove := Simulation.move_turn hopen
  generalize w.simulation.turn = next at *
  rcases hmove with ⟨-, -, hsame, hsignals, -⟩ | ⟨hbefore, hafter, hsignals, -⟩ | hannouncing |
    ⟨hclosing, hoffer⟩
  · exact ⟨rank', _, frames, h.keep htoward hsignals (Nat.le_refl _)
      (fun _ => ⟨rfl, (hsame state).1⟩) hfinished, Nat.le_refl _, Nat.le_refl _, hrank⟩
  · exact ⟨rank', _, frames, h.keep htoward hsignals (Nat.le_refl _)
      (fun _ => ⟨rfl, fun hfalse => by simp [hafter] at hfalse⟩) hfinished, Nat.le_refl _,
      Nat.le_refl _, hrank⟩
  · exact absurd hannouncing hstage
  · obtain ⟨rfl, -⟩ := h.toward.state_eq (.inl hclosing)
    exact ⟨rank', _, frames, h.tell hopen hclosing hoffer htoward, Nat.le_refl _, Nat.le_refl _,
      hrank⟩

/-- A signal that the host gets preserves the invariant. -/
theorem Sound.look (h : w.Sound capacity yields state last rank left frames) {signal : Signal}
    (hopen : w.isOpen = true) (hreceive : w.simulation.receive = (.signal signal, sim)) :
    ∃ rank', ({ w with simulation := sim, heard := w.heard ++ [signal] } : Listening σ).Sound
      capacity yields state last rank' left frames := by
  obtain ⟨hcapacity, hroom, htoward, hcount, -, hlost, hclosed, htold⟩ := h
  have hnothing := hlost hopen
  have hheard : w.heard ++ [signal] ≠ [] := by simp
  rcases hwaiting : w.simulation.signals.waiting with - | ⟨first, rest⟩
  · -- The news that the board has ended passes from hand to hand.
    rcases hstage : w.simulation.stage with - | burst | - | ending | ending | fault
    all_goals simp only [Simulation.receive, hwaiting, hstage] at hreceive
    case closing =>
      obtain ⟨rfl, rfl, hlast⟩ := htoward.state_eq (.inl hstage)
      split at hreceive
      · cases hreceive
        refine ⟨0, hcapacity, hroom, .finished rfl hlast, hcount, fun _ hnil => absurd hnil hheard,
          hlost, hclosed, .inr ⟨?_, rfl⟩⟩
        rcases htold with ⟨htold, -⟩ | ⟨-, hfinished⟩
        · rw [← htold, Listening.told, Listening.told, hnothing, hwaiting]
          simp only [List.append_nil]
        · cases hstage.symm.trans hfinished
      · cases hreceive
    all_goals cases hreceive
  · rw [Simulation.receive_of_cons hwaiting] at hreceive
    cases hreceive
    rw [hwaiting, List.length_cons] at hroom
    have hsame : Listening.told { w with
        simulation := { w.simulation with signals.waiting := rest }
        heard := w.heard ++ [signal] } = w.told := by
      rw [Listening.told, Listening.told, hnothing, hwaiting]
      simp only [List.append_nil, List.append_assoc, List.singleton_append]
    refine ⟨rank, hcapacity, Nat.le_of_succ_le hroom, htoward.congr rfl rfl, hcount,
      fun _ hnil => absurd hnil hheard, hlost, .inl hopen, ?_⟩
    rw [hsame]
    exact htold

/-- An announcement that the host waits for preserves the invariant. -/
theorem Sound.meet (h : w.Sound capacity yields state last rank left frames)
    (hopen : w.isOpen = true) (hnone : w.simulation.signals.capacity = 0)
    (hstage : w.simulation.stage = .announcing) :
    ∃ rank' left', left = left' + 1 ∧ ({ w with
      simulation := { w.simulation with stage := .ready }
      heard := w.heard ++ [.frameReady] } : Listening σ).Sound capacity yields state last rank'
        left' (frames + 1) := by
  have hframes := h.told_of_not_finished (by simp [hstage])
  obtain ⟨hcapacity, hroom, htoward, hcount, -, hlost, hclosed, -⟩ := h
  have hheard : w.heard ++ [Signal.frameReady] ≠ [] := by simp
  have hwaiting : w.simulation.signals.waiting = [] :=
    List.eq_nil_of_length_eq_zero (Nat.le_zero.1 (hnone ▸ hcapacity ▸ hroom))
  obtain ⟨rank', left', hready, hleft, -⟩ := htoward.turn
  obtain rfl := hleft hstage
  have hready : Simulation.Toward state last { w.simulation with stage := .ready } rank' left' := by
    refine hready.congr ?_ ?_
    · simp only [Simulation.turn, hstage]
    · simp only [Simulation.turn, hstage]
  refine ⟨rank', left', rfl, hcapacity, hroom, hready, ?_, fun _ hnil => absurd hnil hheard, hlost,
    hclosed, .inl ⟨?_, by simp⟩⟩
  · omega
  · rw [List.replicate_succ', ← hframes, Listening.told, Listening.told, hlost hopen, hwaiting]
    simp only [List.append_nil]

omit [Board σ] in
/-- What waits is lost when the host lets go. -/
theorem told_close (w : Listening σ) : Listening.told { w with
    simulation := { w.simulation with signals := w.simulation.signals.close }
    lost := w.lost ++ w.simulation.signals.waiting } = w.told := by
  simp only [told, Signals.close, List.append_nil, List.append_assoc]

/-- Letting go preserves the invariant. -/
theorem Sound.hangUp (h : w.Sound capacity yields state last rank left frames) :
    ({ w with
      simulation := { w.simulation with signals := w.simulation.signals.close }
      lost := w.lost ++ w.simulation.signals.waiting } : Listening σ).Sound capacity yields state
        last rank left frames := by
  refine ⟨h.capacity_eq, Nat.zero_le _, h.toward.congr rfl rfl, h.count, nofun, nofun,
    .inr rfl, ?_⟩
  rw [told_close]
  exact h.told.imp_left fun ⟨htold, _⟩ => ⟨htold, nofun⟩

/-- Whatever happens preserves the invariant: there are never fewer frames told, nor more that are
    told or still to be announced. -/
theorem Sound.move (h : w.Sound capacity yields state last rank left frames)
    (hmove : w.Move w') :
    ∃ rank' left' frames', w'.Sound capacity yields state last rank' left' frames' ∧
      frames ≤ frames' ∧ frames' + left' ≤ frames + left := by
  rcases hmove with - | now | ⟨hopen, hreceive⟩ | ⟨hopen, hnone, hstage⟩ | -
  · obtain ⟨rank', left', frames', hnext, hle, hmost, -⟩ := h.work
    exact ⟨rank', left', frames', hnext, hle, hmost⟩
  · exact ⟨rank, left, frames, { h with toward := h.toward.congr rfl rfl }, Nat.le_refl _,
      Nat.le_refl _⟩
  · obtain ⟨rank', hnext⟩ := h.look hopen hreceive
    exact ⟨rank', left, frames, hnext, Nat.le_refl _, Nat.le_refl _⟩
  · obtain ⟨rank', left', rfl, hnext⟩ := h.meet hopen hnone hstage
    exact ⟨rank', left', frames + 1, hnext, Nat.le_succ _, by omega⟩
  · exact ⟨rank, left, frames, h.hangUp, Nat.le_refl _, Nat.le_refl _⟩

/-- A run preserves the invariant. -/
theorem Sound.run (h : w.Sound capacity yields state last rank left frames)
    (hrun : Relation.ReflTransGen Move w w') :
    ∃ rank' left' frames', w'.Sound capacity yields state last rank' left' frames' ∧
      frames ≤ frames' ∧ frames' + left' ≤ frames + left := by
  induction hrun with
  | refl => exact ⟨rank, left, frames, h, Nat.le_refl _, Nat.le_refl _⟩
  | tail _ hmove ih =>
    obtain ⟨_, _, _, hnext, hle, hmost⟩ := ih
    obtain ⟨rank', left', frames', hlater, hle', hmost'⟩ := hnext.move hmove
    exact ⟨rank', left', frames', hlater, Nat.le_trans hle hle', Nat.le_trans hmost' hmost⟩

/-! ## What the host hears -/

/-- A simulation about to begin, with a host about to listen. -/
def start (made : Scheduler σ) (capacity wall : Nat) : Listening σ :=
  { simulation := { scheduler := made, signals := { capacity }, wall } }

theorem sound_start {steps : Nat} (hends : made.EndsAfter steps yields state last)
    (capacity wall : Nat) :
    (start made capacity wall).Sound capacity yields state last (3 * steps) yields 0 where
  capacity_eq := rfl
  room := Nat.zero_le _
  toward := .ready rfl ⟨last, hends, rfl⟩
  count := Nat.le_of_eq (Nat.zero_add _)
  full _ _ := by rw [Nat.sub_self, Nat.zero_min]
  lost _ := rfl
  closed := .inl rfl
  told := .inl ⟨rfl, nofun⟩

/-- A host that has read to the end has heard of a number of frames, and then of the end. -/
theorem Sound.heard_eq (h : w.Sound capacity yields state last rank left frames)
    (hopen : w.isOpen = true) (hnone : w.simulation.receive.1 = .disconnected) :
    w.heard = List.replicate frames .frameReady ++ [.ended state] ∧
      w.simulation.stage = .finished state := by
  obtain ⟨hwaiting, hover⟩ := Simulation.of_disconnected hnone
  have hfinished : w.simulation.stage = .finished state := by
    rcases hover with ⟨ending, hending⟩ | ⟨fault, hfailed⟩
    · obtain ⟨rfl, -⟩ := h.toward.state_eq (.inr hending)
      exact hending
    · exact absurd hfailed (h.toward.not_failed fault)
  have htold : w.told = w.heard := by
    rw [Listening.told, h.lost hopen, hwaiting, List.append_nil, List.append_nil]
  rcases h.told with ⟨-, hnot⟩ | ⟨hall, -⟩
  · exact absurd hfinished (hnot hopen)
  · exact ⟨htold ▸ hall, hfinished⟩

/-- A host that still holds its end held it before. -/
theorem Move.isOpen (hmove : w.Move w') (hopen : w'.isOpen = true) : w.isOpen = true := by
  rcases hmove with - | now | ⟨hwas, -⟩ | ⟨hwas, -, -⟩ | -
  · exact (Simulation.isOpen_turn w.simulation).symm.trans hopen
  · exact hopen
  · exact hwas
  · exact hwas
  · cases hopen

theorem isOpen_of_run (hrun : Relation.ReflTransGen Move w w') (hopen : w'.isOpen = true) :
    w.isOpen = true := by
  induction hrun with
  | refl => exact hopen
  | tail _ hmove ih => exact ih (hmove.isOpen hopen)

/-- The host is to hear of a frame that it had not heard of when it had heard `n` signals, or has
    heard of it since. -/
def Owed (n : Nat) (w : Listening σ) : Prop :=
  n ≤ w.heard.length ∧ (w.simulation.stage = .announcing ∨
    .frameReady ∈ w.simulation.signals.waiting ∨ .frameReady ∈ w.heard.drop n)

/-- An announcement is dropped only if another one waits. -/
theorem Sound.owed_turn (h : w.Sound capacity yields state last rank left frames)
    (hcapacity : 0 < capacity) (hopen : w.isOpen = true)
    (howed : w.simulation.stage = .announcing ∨ .frameReady ∈ w.simulation.signals.waiting) :
    .frameReady ∈ w.simulation.turn.signals.waiting := by
  by_cases hstage : w.simulation.stage = .announcing
  · rcases Nat.lt_or_ge w.simulation.signals.waiting.length w.simulation.signals.capacity with
      hlt | hle
    · simp [Simulation.turn, hstage, Signals.offer_of_lt hopen hlt]
    · -- What fills the queue are announcements.
      simp only [Simulation.turn, hstage, Signals.offer_of_le hle, Option.getD_none]
      have hframes := h.told_of_not_finished (by simp [hstage])
      obtain ⟨first, hfirst⟩ : ∃ first, first ∈ w.simulation.signals.waiting := by
        refine List.exists_mem_of_length_pos (Nat.lt_of_lt_of_le ?_ hle)
        rwa [h.capacity_eq]
      have htold : first ∈ w.told := List.mem_append_right _ hfirst
      rw [hframes] at htold
      rwa [List.eq_of_mem_replicate htold] at hfirst
  · have hwaiting := howed.resolve_left hstage
    have hmove := Simulation.move_turn hopen
    generalize w.simulation.turn = next at *
    rcases hmove with ⟨-, -, -, hsignals, -⟩ | ⟨-, -, hsignals, -⟩ | hannouncing | ⟨-, hoffer⟩
    · rwa [hsignals]
    · rwa [hsignals]
    · exact absurd hannouncing hstage
    · obtain rfl := Signals.offer_eq_some hoffer
      exact List.mem_append_left _ hwaiting

omit [Board σ] in
/-- A signal that the host gets does not make it miss another. -/
theorem Owed.look {n : Nat} {signal : Signal} (howed : w.Owed n)
    (hreceive : w.simulation.receive = (.signal signal, sim)) :
    Owed n { w with simulation := sim, heard := w.heard ++ [signal] } := by
  obtain ⟨hn, howed⟩ := howed
  have hheard : (w.heard ++ [signal]).drop n = w.heard.drop n ++ [signal] :=
    List.drop_append_of_le_length hn
  refine ⟨?_, ?_⟩
  · rw [List.length_append]
    exact Nat.le_add_right_of_le hn
  rw [hheard, List.mem_append]
  rcases hwaiting : w.simulation.signals.waiting with - | ⟨first, rest⟩
  · -- What passes from hand to hand is the end.
    rw [hwaiting] at howed
    rcases hstage : w.simulation.stage with - | burst | - | ending | ending | fault
    all_goals simp only [Simulation.receive, hwaiting, hstage] at hreceive
    case closing => exact .inr (.inr (.inl (by simpa [hstage] using howed)))
    all_goals cases hreceive
  · rw [Simulation.receive_of_cons hwaiting] at hreceive
    cases hreceive
    rw [hwaiting, List.mem_cons] at howed
    rcases howed with hstage | (rfl | hwaits) | hheard
    · exact .inl hstage
    · exact .inr (.inr (.inr (List.mem_singleton_self _)))
    · exact .inr (.inl hwaits)
    · exact .inr (.inr (.inl hheard))

theorem Owed.move {n : Nat} (howed : w.Owed n)
    (h : w.Sound capacity yields state last rank left frames) (hcapacity : 0 < capacity)
    (hmove : w.Move w') (hopen' : w'.isOpen = true) : w'.Owed n := by
  have hopen := hmove.isOpen hopen'
  rcases hmove with - | now | ⟨-, hreceive⟩ | ⟨-, hnone, -⟩ | -
  · refine ⟨howed.1, ?_⟩
    rcases howed.2 with hstage | hwaits | hheard
    · exact .inr (.inl (h.owed_turn hcapacity hopen (.inl hstage)))
    · exact .inr (.inl (h.owed_turn hcapacity hopen (.inr hwaits)))
    · exact .inr (.inr hheard)
  · exact howed
  · exact howed.look hreceive
  · exact absurd (h.capacity_eq.symm.trans hnone) (Nat.ne_of_gt hcapacity)
  · cases hopen'

/-- A host that reads to the end hears of every frame. -/
theorem Owed.mem_heard {n : Nat} (howed : w.Owed n)
    (h : w.Sound capacity yields state last rank left frames) (hcapacity : 0 < capacity)
    (hrun : Relation.ReflTransGen Move w w') (hopen : w'.isOpen = true)
    (hnone : w'.simulation.receive.1 = .disconnected) : .frameReady ∈ w'.heard.drop n := by
  induction hrun using Relation.ReflTransGen.head_induction_on generalizing rank left frames with
  | refl =>
    obtain ⟨-, hfinished⟩ := h.heard_eq hopen hnone
    obtain ⟨hwaiting, -⟩ := Simulation.of_disconnected hnone
    rcases howed.2 with hstage | hwaits | hheard
    · cases hfinished.symm.trans hstage
    · rw [hwaiting] at hwaits
      cases hwaits
    · exact hheard
  | head hmove hrest ih =>
    obtain ⟨_, _, _, hnext, -⟩ := h.move hmove
    exact ih (howed.move h hcapacity hmove (isOpen_of_run hrest hopen)) hnext

/-- A publication is announced next. -/
theorem owed_of_published (hmove : w.Move w') (hopen : w'.isOpen = true)
    (hpublished : w'.simulation.scheduler.published ≠ w.simulation.scheduler.published) :
    w'.Owed w'.heard.length := by
  have hwas := hmove.isOpen hopen
  rcases hmove with - | now | ⟨-, hreceive⟩ | - | -
  · have hturn := Simulation.move_turn hwas
    refine ⟨Nat.le_refl _, .inl ?_⟩
    generalize w.simulation.turn = next at *
    rcases hturn with ⟨-, -, -, -, hsame⟩ | ⟨-, hstage, -, -⟩ | - | -
    · exact absurd hsame hpublished
    · exact hstage
    · exact absurd rfl hpublished
    · exact absurd rfl hpublished
  · exact absurd rfl hpublished
  · have hsame := w.simulation.scheduler_receive
    rw [hreceive] at hsame
    exact absurd (congrArg Scheduler.published hsame) hpublished
  · exact absurd rfl hpublished
  · exact absurd rfl hpublished

/-! ## Reading to the end -/

/-- What waits the host can read. -/
theorem Sound.reaches_drained (h : w.Sound capacity yields state last rank left frames)
    (hopen : w.isOpen = true) :
    ∃ v rank', Relation.ReflTransGen Move w v ∧ v.isOpen = true ∧
      v.simulation.signals.waiting = [] ∧ v.simulation.stage = w.simulation.stage ∧
      v.Sound capacity yields state last rank' left frames := by
  induction hwaiting : w.simulation.signals.waiting generalizing w rank with
  | nil => exact ⟨w, rank, .refl, hopen, hwaiting, rfl, h⟩
  | cons first rest ih =>
    have hreceive := Simulation.receive_of_cons hwaiting
    obtain ⟨rank', hnext⟩ := h.look hopen hreceive
    obtain ⟨v, rank'', hrun, hv⟩ := ih hnext hopen rfl
    exact ⟨v, rank'', .head (.look hopen hreceive) hrun, hv⟩

/-- From any moment the run can go on until the thread is over. -/
theorem Sound.reaches_over (h : w.Sound capacity yields state last rank left frames) :
    ∃ v rank' left' frames', Relation.ReflTransGen Move w v ∧ v.isOpen = w.isOpen ∧
      v.Sound capacity yields state last rank' left' frames' ∧ v.simulation.isOver = true := by
  induction rank using Nat.strongRecOn generalizing w left frames with
  | ind rank ih =>
    obtain ⟨rank', left', frames', hnext, -, -, hover | hlt⟩ := h.work
    · exact ⟨w, rank, left, frames, .refl, rfl, h, hover⟩
    · obtain ⟨v, rank'', left'', frames'', hrun, hopen, hsound, hover⟩ := ih rank' hlt hnext
      exact ⟨v, rank'', left'', frames'', .head .work hrun,
        hopen.trans (Simulation.isOpen_turn w.simulation), hsound, hover⟩

/-- And from then on until the thread has finished. -/
theorem Sound.reaches_finished (h : w.Sound capacity yields state last rank left frames)
    (hover : w.simulation.isOver = true) :
    ∃ v rank' left' frames', Relation.ReflTransGen Move w v ∧ v.isOpen = w.isOpen ∧
      v.Sound capacity yields state last rank' left' frames' ∧
      v.simulation.stage = .finished state := by
  rcases h.toward.stage_eq hover with hstage | hstage
  · rcases hopen : w.isOpen with - | -
    · -- Nobody is to be told.
      have hshut : w.simulation.signals.isOpen = false := hopen
      obtain ⟨rank', left', frames', hnext, -⟩ := h.work
      refine ⟨_, rank', left', frames', .single .work, ?_, hnext, ?_⟩
      · exact (Simulation.isOpen_turn w.simulation).trans hopen
      · simp only [Simulation.turn, hstage, hshut, Bool.false_eq_true, if_false]
    · obtain ⟨v, rank', hrun, hstill, hwaiting, hsame, hsound⟩ := h.reaches_drained hopen
      have hclosing := hsame.trans hstage
      rcases Nat.eq_zero_or_pos v.simulation.signals.capacity with hnone | hpos
      · -- The news passes from hand to hand.
        have hreceive : v.simulation.receive =
            (.signal (.ended state), { v.simulation with stage := .finished state }) := by
          simp only [Simulation.receive, hwaiting, hclosing, hnone, if_true]
        obtain ⟨rank'', hnext⟩ := hsound.look hstill hreceive
        exact ⟨_, rank'', left, frames, hrun.tail (.look hstill hreceive), hstill, hnext, rfl⟩
      · -- The news finds room.
        obtain ⟨rank'', left'', frames'', hnext, -⟩ := hsound.work
        refine ⟨_, rank'', left'', frames'', hrun.tail .work, ?_, hnext, ?_⟩
        · exact (Simulation.isOpen_turn v.simulation).trans hstill
        · have hisOpen : v.simulation.signals.isOpen = true := hstill
          have hlt : v.simulation.signals.waiting.length < v.simulation.signals.capacity := by
            rwa [hwaiting]
          simp only [Simulation.turn, hclosing, hisOpen, if_true,
            Signals.offer_of_lt hisOpen hlt]
  · exact ⟨w, rank, left, frames, .refl, rfl, h, hstage⟩

/-- From any moment the run can go on until there is nothing more to read. -/
theorem Sound.reaches_disconnected (h : w.Sound capacity yields state last rank left frames) :
    ∃ v, Relation.ReflTransGen Move w v ∧ v.isOpen = w.isOpen ∧
      v.simulation.receive.1 = .disconnected := by
  obtain ⟨u₁, _, _, _, hrun₁, hsame₁, hsound₁, hover⟩ := h.reaches_over
  obtain ⟨u₂, _, _, _, hrun₂, hsame₂, hsound₂, hfinished⟩ := hsound₁.reaches_finished hover
  have hrun := hrun₁.trans hrun₂
  have hsame := hsame₂.trans hsame₁
  rcases hopen : u₂.isOpen with - | -
  · refine ⟨u₂, hrun, hsame, ?_⟩
    have hnothing := hsound₂.closed.resolve_left (by rw [hopen]; decide)
    rw [Simulation.receive_of_finished hfinished hnothing]
  · obtain ⟨v, _, hrun₃, hstill, hwaiting, hstage, -⟩ := hsound₂.reaches_drained hopen
    refine ⟨v, hrun.trans hrun₃, (hstill.trans hopen.symm).trans hsame, ?_⟩
    rw [Simulation.receive_of_finished (hstage.trans hfinished) hwaiting]

/-- A host that only listens cannot disturb the simulation. Let the steps of a scheduler by
    themselves end in `state` after so many yields. Over a queue of any capacity, whatever the host
    receives and whenever it lets go, the thread does not fail, and if it finishes it does so with
    this state and with everything as the steps by themselves leave it, but for the moment of the
    epoch. What it has told so far is an announcement for some of the yields, and then that the
    board has ended. A host that keeps its end and reads to the end hears exactly this. If it has
    heard nothing by the time the board has ended, then it hears of as many frames as there were
    yields, or as the queue holds. If the queue holds anything at all, each publication is followed
    by an announcement that is heard after it. And from any moment the run can go on to the end. -/
theorem undisturbed {steps wall : Nat} (hends : made.EndsAfter steps yields state last)
    (hrun : Relation.ReflTransGen Move (start made capacity wall) w) :
    (∀ fault, w.simulation.stage ≠ .failed fault) ∧
    (∀ result, w.simulation.stage = .finished result →
      result = state ∧ w.simulation.scheduler.unpinned = last.unpinned) ∧
    (∃ frames ≤ yields, w.told = List.replicate frames .frameReady ∨
      w.told = List.replicate frames .frameReady ++ [.ended state]) ∧
    (w.isOpen = true → w.simulation.receive.1 = .disconnected →
      (∃ frames ≤ yields, w.heard = List.replicate frames .frameReady ++ [.ended state]) ∧
      (∀ v, Relation.ReflTransGen Move (start made capacity wall) v →
        Relation.ReflTransGen Move v w → v.simulation.isOver = true → v.heard = [] →
        w.heard = List.replicate (min yields capacity) .frameReady ++ [.ended state]) ∧
      (0 < capacity → ∀ u v, Relation.ReflTransGen Move (start made capacity wall) u → u.Move v →
        v.simulation.scheduler.published ≠ u.simulation.scheduler.published →
        Relation.ReflTransGen Move v w → .frameReady ∈ w.heard.drop v.heard.length)) ∧
    ∃ v, Relation.ReflTransGen Move w v ∧ v.isOpen = w.isOpen ∧
      v.simulation.receive.1 = .disconnected := by
  have hstart := sound_start hends capacity wall
  obtain ⟨rank, left, frames, h, -⟩ := hstart.run hrun
  have hcount := h.count
  refine ⟨h.toward.not_failed, fun result hresult => ?_, ⟨frames, by omega, ?_⟩,
    fun hopen hnone => ⟨⟨frames, by omega, (h.heard_eq hopen hnone).1⟩, ?_, ?_⟩,
    h.reaches_disconnected⟩
  · obtain ⟨rfl, -, hlast⟩ := h.toward.state_eq (.inr hresult)
    exact ⟨rfl, hlast⟩
  · exact h.told.imp And.left And.left
  · intro v hbefore hafter hover hheard
    obtain ⟨rank', left', frames', hv, -⟩ := hstart.run hbefore
    obtain ⟨-, rfl, -⟩ := hv.toward.state_eq (hv.toward.stage_eq hover)
    have hfull := hv.full (isOpen_of_run hafter hopen) hheard
    -- No announcement is left to make, so none is told between the two moments.
    obtain ⟨rank'', left'', frames'', hw, hle, hmost⟩ := hv.run hafter
    rw [(hw.heard_eq hopen hnone).1]
    congr 2
    omega
  · intro hpos u v hbefore hmove hpublished hafter
    obtain ⟨_, _, _, hv, -⟩ := hstart.run (hbefore.tail hmove)
    have howed := owed_of_published hmove (isOpen_of_run hafter hopen) hpublished
    exact howed.mem_heard hv hpos hafter hopen hnone

/-- A board under watch whose program shows one frame and finishes. -/
def blinking : Logged ScriptedBoard where
  board :=
    { frequency := 1000
      width := 1
      height := 8
      cycle := 0
      grid := #[1]
      flags := {}
      bursts := [{ advance := some 14 }, { ending := some .done }] }

/-- A host that begins to listen when the board has ended, over a queue for one signal. -/
theorem undisturbed_blinking :
    ∃ settings made last w, Settings.ofMicros 1000 5 7000 14000 = .ok settings ∧
      Scheduler.new blinking {} settings = .ok made ∧ made.EndsAfter 2 1 .done last ∧
      Relation.ReflTransGen Move (start made 1 0) w ∧ w.simulation.stage = .finished .done ∧
      w.simulation.scheduler.unpinned = last.unpinned ∧ w.heard = [.frameReady, .ended .done] := by
  obtain ⟨settings, made, last, v, w, hsettings, hnew, hends, hbefore, hafter, hover, hheard, hopen,
      hstage, hnone⟩ : ∃ settings made last v w,
      Settings.ofMicros 1000 5 7000 14000 = .ok settings ∧
      Scheduler.new blinking {} settings = .ok made ∧ made.EndsAfter 2 1 .done last ∧
      Relation.ReflTransGen Move (start made 1 0) v ∧ Relation.ReflTransGen Move v w ∧
      v.simulation.isOver = true ∧ v.heard = [] ∧ w.isOpen = true ∧
      w.simulation.stage = .finished .done ∧ w.simulation.receive.1 = .disconnected :=
    ⟨_, _, _, _, _, rfl, rfl,
      @Scheduler.EndsAfter.yield _ _ _ _ 0 0 _ _ _ _ rfl rfl
        (@Scheduler.EndsAfter.ended _ _ _ 0 0 _ _ rfl rfl),
      .head .work <| .head .work <| .head .work <| .head .work <| .head .work .refl,
      .head (.look rfl rfl) <| .head .work <| .head (.look rfl rfl) .refl, rfl, rfl, rfl, rfl, rfl⟩
  obtain ⟨-, hlast, -, hread, -⟩ := undisturbed hends (hbefore.trans hafter)
  exact ⟨settings, made, last, w, hsettings, hnew, hends, hbefore.trans hafter, hstage,
    (hlast _ hstage).2, (hread hopen hnone).2.1 v hbefore hafter hover hheard⟩

end Listening

end Handheld
