import Handheld.Board.Scripted
import Handheld.Host.Threaded
import Handheld.Proofs.Step
import Mathlib.Tactic.Common

/-!
# Frames handed over between threads

The threaded host is never sure to hear of a frame: a `frameReady` that finds the queue full is
dropped. Nor does it need to, since it always draws the newest frame. What must not happen is that
the last frame goes undrawn.

A run is any sequence of turns of the two parties; `Threaded.turns` gives its last state and the
frames that were published along it. The argument counts the announcements that have not led to a
drawing yet (`Threaded.owed`): the one that the simulation is about to make, those that wait in the
queue, and the one that the host has picked up.

* There are never more drawings and owed announcements than publications, since a publication is
  followed by one announcement at most (`Ledger.count`).
* While the newest frame is not drawn, something is owed (`Ledger.newest`): an announcement is
  dropped only if the queue is full, and before the board has ended the queue holds announcements
  only.
* The signal that the board has ended is the last one of the queue, so a host that has read it has
  read every announcement (`Ending`).

A host that stopped because the board ended owes nothing: it has drawn the last frame published
(`last_drawn_eq_last_published`).
-/

namespace Handheld

variable {σ ι : Type}

/-! ## The queue of signals -/

namespace Signals

variable {signals next : Signals} {signal : Signal}

/-- A signal finds room. -/
theorem offer_of_lt (hopen : signals.isOpen = true)
    (hroom : signals.waiting.length < signals.capacity) (signal : Signal) :
    signals.offer signal = some { signals with waiting := signals.waiting ++ [signal] } :=
  if_pos ⟨hopen, hroom⟩

/-- A signal finds none. -/
theorem offer_of_le (hfull : signals.capacity ≤ signals.waiting.length) (signal : Signal) :
    signals.offer signal = none :=
  if_neg fun hroom => Nat.not_lt_of_le hfull hroom.2

theorem offer_eq_some (h : signals.offer signal = some next) :
    next = { signals with waiting := signals.waiting ++ [signal] } := by
  rw [offer] at h
  split at h
  · exact (Option.some.inj h).symm
  · cases h

/-- A signal that finds no room finds others waiting. -/
theorem waiting_ne_nil_of_offer_eq_none (hopen : signals.isOpen = true)
    (hcapacity : 0 < signals.capacity) (h : signals.offer signal = none) :
    signals.waiting ≠ [] := by
  intro hnil
  rw [offer_of_lt hopen (by rwa [hnil])] at h
  cases h

end Signals

/-! ## Turns of the simulation -/

namespace Simulation

variable [Board σ] {sim : Simulation σ}

/-- What a turn of the thread can amount to, as far as its host can tell. -/
inductive Move (sim : Simulation σ) : Simulation σ → Prop
  /-- Nothing reaches the host. -/
  | work {next : Simulation σ} :
    sim.stage ≠ .announcing → next.stage ≠ .announcing →
    (∀ state, next.stage = .finished state ↔ sim.stage = .finished state) →
    next.signals = sim.signals → next.scheduler.published = sim.scheduler.published → Move sim next
  /-- A frame is published, and is still to be announced. -/
  | publish {next : Simulation σ} {state : CpuState} :
    sim.stage = .launched state → next.stage = .announcing → next.signals = sim.signals →
    next.scheduler.published.sequence = sim.scheduler.published.sequence + 1 → Move sim next
  /-- A frame is announced if there is room. -/
  | announce :
    sim.stage = .announcing →
    Move sim { sim with
      signals := (sim.signals.offer .frameReady).getD sim.signals
      stage := .ready }
  /-- The host is told that the board has ended. -/
  | tell {state : CpuState} {signals : Signals} :
    sim.stage = .closing state → sim.signals.offer (.ended state) = some signals →
    Move sim { sim with signals, stage := .finished state }

omit [Board σ] in
/-- A thread that stays as it is makes a move that nobody notices. -/
theorem Move.refl (h : sim.stage ≠ .announcing) : sim.Move sim :=
  .work h h (fun _ => Iff.rfl) rfl rfl

/-- A turn that begins a step of a board that has not ended. -/
theorem turn_of_ready (hstage : sim.stage = .ready)
    (hphase : ∀ state, sim.scheduler.phase ≠ .ended state) :
    sim.turn =
      match sim.scheduler.launch sim.wall with
      | .error fault => { sim with stage := .failed fault }
      | .ok (state, scheduler) => { sim with scheduler, stage := .launched state } := by
  rw [turn, hstage]
  dsimp only
  split
  · next state hended => exact absurd hended (hphase state)
  · rfl

/-- The turns of a thread whose host listens. -/
theorem move_turn (hopen : sim.signals.isOpen = true) : sim.Move sim.turn := by
  cases hstage : sim.stage with
  | ready =>
    by_cases hphase : ∀ state, sim.scheduler.phase ≠ .ended state
    · rw [turn_of_ready hstage hphase]
      cases hlaunch : sim.scheduler.launch sim.wall with
      | error fault => exact .work (by simp [hstage]) nofun (by simp [hstage]) rfl rfl
      | ok launched =>
        exact .work (by simp [hstage]) nofun (by simp [hstage]) rfl
          (Scheduler.launch_published hlaunch)
    · push Not at hphase
      obtain ⟨state, hphase⟩ := hphase
      simp only [turn, hstage, hphase]
      exact .work (by simp [hstage]) nofun (by simp [hstage]) rfl rfl
  | launched state =>
    simp only [turn, hstage]
    cases hsettle : sim.scheduler.settle state sim.wall with
    | error fault => exact .work (by simp [hstage]) nofun (by simp [hstage]) rfl rfl
    | ok settled =>
      rcases Scheduler.settle_published hsettle with ⟨houtcome, hnumber⟩ | ⟨houtcome, hsame⟩
      · exact .publish hstage (by simp [houtcome]) rfl hnumber
      · cases h : settled.outcome with
        | proceed => exact .work (by simp [hstage]) (by simp [h]) (by simp [hstage, h]) rfl hsame
        | yield => exact absurd h houtcome
        | ended last => exact .work (by simp [hstage]) (by simp [h]) (by simp [hstage, h]) rfl hsame
  | announcing =>
    simp only [turn, hstage]
    exact .announce hstage
  | closing state =>
    simp only [turn, hstage, hopen, if_true]
    cases hoffer : sim.signals.offer (.ended state) with
    | none => exact .refl (by simp [hstage])
    | some signals => exact .tell hstage hoffer
  | finished state =>
    simp only [turn, hstage]
    exact .refl (by simp [hstage])
  | failed fault =>
    simp only [turn, hstage]
    exact .refl (by simp [hstage])

omit [Board σ] in
/-- The oldest signal is read first. -/
theorem receive_of_cons {signal : Signal} {waiting : List Signal}
    (h : sim.signals.waiting = signal :: waiting) :
    sim.receive = (.signal signal, { sim with signals.waiting := waiting }) := by
  simp only [receive, h]

omit [Board σ] in
/-- A queue that can hold signals, and holds none, has none to read. -/
theorem receive_of_nil (h : sim.signals.waiting = []) (hcapacity : 0 < sim.signals.capacity) :
    sim.receive = (.empty, sim) ∨ sim.receive = (.disconnected, sim) := by
  cases hstage : sim.stage with
  | closing state => simp [receive, h, hstage, Nat.ne_of_gt hcapacity]
  | finished state => simp [receive, h, hstage]
  | failed fault => simp [receive, h, hstage]
  | ready => simp [receive, h, hstage]
  | launched state => simp [receive, h, hstage]
  | announcing => simp [receive, h, hstage]

omit [Board σ] in
/-- Reading a signal leaves the scheduler alone. -/
theorem scheduler_receive (sim : Simulation σ) : sim.receive.2.scheduler = sim.scheduler := by
  rw [receive]
  split
  · rfl
  · split
    · split <;> rfl
    all_goals rfl

/-- The thread ends with the state that the scheduler ended with. -/
def Truthful (sim : Simulation σ) : Prop :=
  ∀ state, sim.stage = .closing state ∨ sim.stage = .finished state →
    sim.scheduler.phase = .ended state

theorem Truthful.turn (h : sim.Truthful) : sim.turn.Truthful := by
  intro state hover
  cases hstage : sim.stage with
  | ready =>
    by_cases hphase : ∀ state, sim.scheduler.phase ≠ .ended state
    · rw [turn_of_ready hstage hphase] at hover
      cases hlaunch : sim.scheduler.launch sim.wall with
      | error fault => simp [hlaunch] at hover
      | ok launched => simp [hlaunch] at hover
    · push Not at hphase
      obtain ⟨last, hphase⟩ := hphase
      simp only [Simulation.turn, hstage, hphase, Stage.closing.injEq, reduceCtorEq,
        or_false] at hover ⊢
      rw [hover]
  | launched last =>
    simp only [Simulation.turn, hstage] at hover ⊢
    cases hsettle : sim.scheduler.settle last sim.wall with
    | error fault => simp [hsettle] at hover
    | ok settled =>
      simp only [hsettle] at hover ⊢
      cases houtcome : settled.outcome with
      | proceed => simp [houtcome] at hover
      | yield => simp [houtcome] at hover
      | ended final =>
        simp only [houtcome, Stage.closing.injEq, reduceCtorEq, or_false] at hover
        rw [(Scheduler.settle_ended hsettle houtcome).2, hover]
  | announcing => simp [Simulation.turn, hstage] at hover
  | closing last =>
    have hlast := h last (.inl hstage)
    cases hopen : sim.signals.isOpen with
    | false =>
      simp only [Simulation.turn, hstage, hopen, Bool.false_eq_true, if_false, reduceCtorEq,
        Stage.finished.injEq, false_or] at hover ⊢
      exact hover ▸ hlast
    | true =>
      cases hoffer : sim.signals.offer (.ended last) with
      | none =>
        simp only [Simulation.turn, hstage, hopen, hoffer, if_true, Stage.closing.injEq,
          reduceCtorEq, or_false] at hover ⊢
        exact hover ▸ hlast
      | some signals =>
        simp only [Simulation.turn, hstage, hopen, hoffer, if_true, reduceCtorEq,
          Stage.finished.injEq, false_or] at hover ⊢
        exact hover ▸ hlast
  | finished last =>
    simp only [Simulation.turn, hstage] at hover ⊢
    exact h state (.inr (by simpa [hstage] using hover))
  | failed fault => simp [Simulation.turn, hstage] at hover

omit [Board σ] in
theorem Truthful.receive (h : sim.Truthful) : sim.receive.2.Truthful := by
  intro state hover
  rw [scheduler_receive]
  rw [Simulation.receive] at hover
  split at hover
  · exact h state hover
  · split at hover
    · split at hover
      · next last hstage _ =>
        simp only [reduceCtorEq, Stage.finished.injEq, false_or] at hover
        exact hover ▸ h last (.inl hstage)
      · exact h state hover
    all_goals exact h state hover

end Simulation

/-! ## Announcements on their way -/

/-- The announcements that the thread is about to make. -/
def Simulation.toAnnounce (sim : Simulation σ) : Nat := if sim.stage = .announcing then 1 else 0

/-- The announcements that the host has picked up since its last drawing, taken together as one. -/
def HostStage.toDraw : HostStage → Nat
  | .listening true => 1
  | .drawing _ => 1
  | _ => 0

/-- The state with which the board has ended, once the host has read it. -/
def HostStage.heard : HostStage → Option CpuState
  | .drawing ended => ended
  | .joining state => some state
  | .stopped (.ok (.ended state)) => some state
  | _ => none

namespace Threaded

/-- The frame published last. -/
def latest (pair : Threaded σ ι) : Frame := pair.simulation.scheduler.published

/-- The announcements that have not led to a drawing yet. -/
def owed (pair : Threaded σ ι) : Nat :=
  pair.simulation.toAnnounce + pair.simulation.signals.waiting.count .frameReady + pair.stage.toDraw

/-- The host stopped for another reason than that the board has ended. -/
def GaveUp (pair : Threaded σ ι) : Prop :=
  ∃ result, pair.stage = .stopped result ∧ ∀ state, result ≠ .ok (.ended state)

/-- The frames published (`published`) stand to the pair that has drawn some of them as they should.
    Before the first of them there was the frame `first`. -/
structure Ledger (first : Frame) (published : List Frame) (pair : Threaded σ ι) : Prop where
  latest : pair.latest = published.getLastD first
  number : pair.latest.sequence = first.sequence + published.length
  numbers : published.map (·.sequence) = List.range' (first.sequence + 1) published.length
  drawn : ∀ frame ∈ pair.album.frames, frame ∈ published
  ordered : (pair.album.frames.map (·.sequence)).Pairwise (· ≤ ·)
  count : pair.album.frames.length + pair.owed ≤ published.length
  newest : pair.owed = 0 → pair.album.frames.getLast? = published.getLast?

namespace Ledger

variable {first : Frame} {published : List Frame} {pair next : Threaded σ ι}

/-- A frame published has its place by its number. -/
theorem getElem?_of_mem (h : Ledger first published pair) {frame : Frame}
    (hframe : frame ∈ published) :
    published[frame.sequence - (first.sequence + 1)]? = some frame := by
  obtain ⟨i, hi, rfl⟩ := List.getElem_of_mem hframe
  have hnumber : (published.map (·.sequence))[i]? = some published[i].sequence := by
    rw [List.getElem?_map, List.getElem?_eq_getElem hi, Option.map_some]
  rw [h.numbers, List.getElem?_range' hi, Nat.one_mul, Option.some.injEq] at hnumber
  rw [← hnumber, Nat.add_sub_cancel_left, List.getElem?_eq_getElem hi]

/-- No frame published bears a higher number than the latest. -/
theorem sequence_le (h : Ledger first published pair) {frame : Frame} (hframe : frame ∈ published) :
    frame.sequence ≤ pair.latest.sequence := by
  have hmem : frame.sequence ∈ published.map (·.sequence) := List.mem_map_of_mem hframe
  rw [h.numbers, List.mem_range'_1] at hmem
  rw [h.number]
  omega

/-- A turn that neither publishes nor draws may lose announcements, but not the last one. -/
theorem of_owed (h : Ledger first published pair) (hlatest : next.latest = pair.latest)
    (halbum : next.album = pair.album) (hle : next.owed ≤ pair.owed)
    (hzero : next.owed = 0 → pair.owed = 0) : Ledger first published next where
  latest := hlatest.trans h.latest
  number := hlatest ▸ h.number
  numbers := h.numbers
  drawn := halbum ▸ h.drawn
  ordered := halbum ▸ h.ordered
  count := by
    have := h.count
    rw [halbum]
    omega
  newest howed := halbum ▸ h.newest (hzero howed)

/-- A turn that publishes makes the simulation owe an announcement. -/
theorem of_publish (h : Ledger first published pair)
    (hlatest : next.latest.sequence = pair.latest.sequence + 1) (halbum : next.album = pair.album)
    (howed : next.owed = pair.owed + 1) : Ledger first (published ++ [next.latest]) next where
  latest := by simp
  number := by
    rw [hlatest, h.number, List.length_append, List.length_singleton, Nat.add_assoc]
  numbers := by
    rw [List.map_append, h.numbers, List.length_append, List.length_singleton, List.range'_1_concat,
      List.map_singleton, hlatest, h.number]
    congr 2
    omega
  drawn frame hframe := List.mem_append_left _ (h.drawn frame (halbum ▸ hframe))
  ordered := halbum ▸ h.ordered
  count := by
    have := h.count
    rw [halbum, List.length_append, List.length_singleton]
    omega
  newest hzero := by omega

/-- A drawing settles what the host owes, with the latest frame. -/
theorem of_draw (h : Ledger first published pair) (hlatest : next.latest = pair.latest)
    (halbum : next.album.frames = pair.album.frames ++ [pair.latest])
    (howed : next.owed + 1 = pair.owed) : Ledger first published next := by
  have hcount := h.count
  have hne : published ≠ [] := List.ne_nil_of_length_pos (by omega)
  have hlast : published.getLast? = some pair.latest := by
    rw [h.latest, List.getLastD_eq_getLast?, List.getLast?_eq_some_getLast hne]
    rfl
  refine ⟨hlatest.trans h.latest, hlatest ▸ h.number, h.numbers, ?_, ?_, ?_, ?_⟩
  · intro frame hframe
    rw [halbum, List.mem_append, List.mem_singleton] at hframe
    rcases hframe with hframe | rfl
    · exact h.drawn frame hframe
    · exact List.mem_of_getLast? hlast
  · rw [halbum, List.map_append, List.map_singleton, List.pairwise_append]
    refine ⟨h.ordered, List.pairwise_singleton _ _, ?_⟩
    intro m hm n hn
    obtain ⟨frame, hframe, rfl⟩ := List.mem_map.1 hm
    rw [List.mem_singleton.1 hn]
    exact h.sequence_le (h.drawn frame hframe)
  · rw [halbum, List.length_append, List.length_singleton]
    omega
  · intro _
    rw [halbum, List.getLast?_concat, hlast]

end Ledger

/-! ## Runs -/

/-- The frame that was published between two moments a turn apart, if there was one. -/
def publication (before after : Threaded σ ι) : List Frame :=
  if after.latest = before.latest then [] else [after.latest]

theorem publication_eq_nil {before after : Threaded σ ι} (h : after.latest = before.latest) :
    publication before after = [] := if_pos h

/-- How far the news that the board has ended has got: it is still to be told, it waits in the queue
    behind every announcement, or the host has read it. -/
inductive Ending (pair : Threaded σ ι) : Prop
  | untold : (∀ state, pair.simulation.stage ≠ .finished state) →
    (∀ signal ∈ pair.simulation.signals.waiting, signal = .frameReady) →
    pair.stage.heard = none → Ending pair
  | told (state : CpuState) (n : Nat) : pair.simulation.stage = .finished state →
    pair.simulation.signals.waiting = List.replicate n .frameReady ++ [.ended state] →
    pair.stage.heard = none → Ending pair
  | heard (state : CpuState) : pair.simulation.stage = .finished state →
    pair.simulation.signals.waiting = [] → pair.stage.heard = some state → Ending pair

/-- The invariant of a pair whose host has not given up. -/
structure Good (first : Frame) (published : List Frame) (pair : Threaded σ ι) : Prop where
  isOpen : pair.simulation.signals.isOpen = true
  capacity_pos : 0 < pair.simulation.signals.capacity
  ledger : Ledger first published pair
  ending : Ending pair

variable {first : Frame} {published : List Frame} {pair : Threaded σ ι}

/-- The news has got as far for two pairs that look alike to it. -/
theorem Ending.congr {next : Threaded σ ι} (h : Ending pair)
    (hstage : ∀ state,
      next.simulation.stage = .finished state ↔ pair.simulation.stage = .finished state)
    (hsignals : next.simulation.signals = pair.simulation.signals)
    (hheard : next.stage.heard = pair.stage.heard) : Ending next := by
  cases h with
  | untold hsim hwaiting hold =>
    exact .untold (fun state => mt (hstage state).1 (hsim state)) (hsignals ▸ hwaiting)
      (hheard.trans hold)
  | told state n hsim hwaiting hold =>
    exact .told state n ((hstage state).2 hsim) (by rw [hsignals, hwaiting]) (hheard.trans hold)
  | heard state hsim hwaiting hold =>
    exact .heard state ((hstage state).2 hsim) (by rw [hsignals, hwaiting]) (hheard.trans hold)

/-- Before the thread has finished only announcements wait, and the host has not heard of the end.
    -/
theorem Ending.of_not_finished (h : Ending pair)
    (hstage : ∀ state, pair.simulation.stage ≠ .finished state) :
    (∀ signal ∈ pair.simulation.signals.waiting, signal = .frameReady) ∧
    pair.stage.heard = none := by
  cases h with
  | untold _ hwaiting hheard => exact ⟨hwaiting, hheard⟩
  | told state n hfinished => exact absurd hfinished (hstage state)
  | heard state hfinished => exact absurd hfinished (hstage state)

/-! ### Turns of the simulation -/

section Simulate

variable {sim : Simulation σ}

/-- A move that does not reach the host preserves the invariant. -/
theorem Good.work (h : Good first published pair)
    (hbefore : pair.simulation.stage ≠ .announcing) (hafter : sim.stage ≠ .announcing)
    (hfinished : ∀ state, sim.stage = .finished state ↔ pair.simulation.stage = .finished state)
    (hsignals : sim.signals = pair.simulation.signals)
    (hlatest : latest { pair with simulation := sim } = pair.latest) :
    Good first published { pair with simulation := sim } := by
  obtain ⟨hopen, hcapacity, hledger, hending⟩ := h
  have howed : owed { pair with simulation := sim } = pair.owed := by
    simp only [owed, Simulation.toAnnounce, if_neg hbefore, if_neg hafter, hsignals]
  exact ⟨hsignals ▸ hopen, hsignals ▸ hcapacity,
    hledger.of_owed hlatest rfl (Nat.le_of_eq howed) fun h0 => howed ▸ h0,
    hending.congr hfinished hsignals rfl⟩

/-- A thread that publishes a frame owes an announcement. -/
theorem Good.publish (h : Good first published pair) {state : CpuState}
    (hbefore : pair.simulation.stage = .launched state) (hafter : sim.stage = .announcing)
    (hsignals : sim.signals = pair.simulation.signals)
    (hnumber : (latest { pair with simulation := sim }).sequence = pair.latest.sequence + 1) :
    Good first (published ++ [latest { pair with simulation := sim }])
      { pair with simulation := sim } := by
  obtain ⟨hopen, hcapacity, hledger, hending⟩ := h
  have howed : owed { pair with simulation := sim } = pair.owed + 1 := by
    simp only [owed, Simulation.toAnnounce, hbefore, hafter, hsignals, reduceCtorEq, if_true,
      if_false]
    omega
  obtain ⟨hwaiting, hheard⟩ := hending.of_not_finished (by simp [hbefore])
  exact ⟨hsignals ▸ hopen, hsignals ▸ hcapacity, hledger.of_publish hnumber rfl howed,
    .untold (by simp [hafter]) (hsignals ▸ hwaiting) hheard⟩

/-- An announcement joins the others, or is dropped. -/
theorem Good.announce (h : Good first published pair)
    (hstage : pair.simulation.stage = .announcing) :
    Good first published { pair with
      simulation.signals := (pair.simulation.signals.offer .frameReady).getD pair.simulation.signals
      simulation.stage := .ready } := by
  obtain ⟨hopen, hcapacity, hledger, hending⟩ := h
  obtain ⟨hwaiting, hheard⟩ := hending.of_not_finished (by simp [hstage])
  cases hoffer : pair.simulation.signals.offer .frameReady with
  | none =>
    -- Those that fill the queue are still to be drawn for.
    obtain ⟨signal, hsignal⟩ :=
      List.exists_mem_of_ne_nil _ (Signals.waiting_ne_nil_of_offer_eq_none hopen hcapacity hoffer)
    have hcount : 0 < pair.simulation.signals.waiting.count .frameReady :=
      List.count_pos_iff.2 (hwaiting signal hsignal ▸ hsignal)
    refine ⟨hopen, hcapacity, hledger.of_owed rfl rfl ?_ ?_, .untold nofun hwaiting hheard⟩
    · simp [owed, Simulation.toAnnounce]
    · intro howed
      simp only [owed, Option.getD_none] at howed
      omega
  | some signals =>
    -- What the thread owed, the queue owes.
    obtain rfl := Signals.offer_eq_some hoffer
    refine ⟨hopen, hcapacity, hledger.of_owed rfl rfl ?_ ?_, .untold nofun ?_ hheard⟩
    · simp only [owed, Simulation.toAnnounce, hstage, Option.getD_some, List.count_append,
        List.count_singleton_self, reduceCtorEq, if_true, if_false]
      omega
    · simp [owed, Simulation.toAnnounce]
    · simpa [or_imp, forall_and] using hwaiting

/-- The news that the board has ended goes behind every announcement. -/
theorem Good.tell (h : Good first published pair) {state : CpuState} {signals : Signals}
    (hstage : pair.simulation.stage = .closing state)
    (hoffer : pair.simulation.signals.offer (.ended state) = some signals) :
    Good first published { pair with
      simulation.signals := signals, simulation.stage := .finished state } := by
  obtain ⟨hopen, hcapacity, hledger, hending⟩ := h
  obtain ⟨hwaiting, hheard⟩ := hending.of_not_finished (by simp [hstage])
  obtain rfl := Signals.offer_eq_some hoffer
  refine ⟨hopen, hcapacity, hledger.of_owed rfl rfl ?_ ?_, .told _
    pair.simulation.signals.waiting.length rfl ?_ hheard⟩
  · simp [owed, Simulation.toAnnounce]
  · simp [owed, Simulation.toAnnounce, hstage]
  · exact congrArg (· ++ _) (List.eq_replicate_of_mem hwaiting)

/-- The simulation's moves preserve the invariant. -/
theorem Good.simulate (h : Good first published pair) (hmove : pair.simulation.Move sim) :
    Good first (published ++ publication pair { pair with simulation := sim })
      { pair with simulation := sim } := by
  cases hmove with
  | work hbefore hafter hfinished hsignals hpublished =>
    have hlatest : latest { pair with simulation := sim } = pair.latest := hpublished
    rw [publication_eq_nil hlatest, List.append_nil]
    exact h.work hbefore hafter hfinished hsignals hlatest
  | publish hbefore hafter hsignals hnumber =>
    -- The number has changed, so this is a publication.
    have hne : latest { pair with simulation := sim } ≠ pair.latest := fun heq =>
      Nat.succ_ne_self _ (hnumber.symm.trans (congrArg Frame.sequence heq))
    rw [publication, if_neg hne]
    exact h.publish hbefore hafter hsignals hnumber
  | announce hstage =>
    rw [publication_eq_nil (by rfl), List.append_nil]
    exact h.announce hstage
  | tell hstage hoffer =>
    rw [publication_eq_nil (by rfl), List.append_nil]
    exact h.tell hstage hoffer

end Simulate

/-! ### Turns of the host -/

/-- What the host does with no signal read and nothing drawn preserves the invariant. -/
theorem Good.keep {next : Threaded σ ι} {stage : HostStage} (h : Good first published pair)
    (hstage : pair.stage = stage) (hsignals : next.simulation.signals = pair.simulation.signals)
    (hsim : next.simulation.stage = pair.simulation.stage) (hlatest : next.latest = pair.latest)
    (halbum : next.album = pair.album) (hdraw : next.stage.toDraw = stage.toDraw)
    (hheard : next.stage.heard = stage.heard) : Good first published next := by
  subst hstage
  obtain ⟨hopen, hcapacity, hledger, hending⟩ := h
  have howed : next.owed = pair.owed := by
    simp only [owed, Simulation.toAnnounce, hsignals, hsim, hdraw]
  exact ⟨hsignals ▸ hopen, hsignals ▸ hcapacity,
    hledger.of_owed hlatest halbum (Nat.le_of_eq howed) fun h0 => howed ▸ h0,
    hending.congr (fun _ => by rw [hsim]) hsignals hheard⟩

/-- A host that reads an announcement owes a drawing for it. -/
theorem Good.hear_frame {redraw : Bool} {waiting : List Signal} (h : Good first published pair)
    (hstage : pair.stage = .listening redraw)
    (hwaiting : pair.simulation.signals.waiting = .frameReady :: waiting) :
    Good first published { pair with
      simulation.signals.waiting := waiting, stage := .listening true } := by
  obtain ⟨hopen, hcapacity, hledger, hending⟩ := h
  refine ⟨hopen, hcapacity, hledger.of_owed rfl rfl ?_ ?_, ?_⟩
  · simp only [owed, Simulation.toAnnounce, hwaiting, List.count_cons_self, HostStage.toDraw]
    omega
  · simp only [owed, HostStage.toDraw]
    omega
  · cases hending with
    | untold hsim hall hheard =>
      exact .untold hsim (fun signal hsignal => hall signal (by simp [hwaiting, hsignal])) rfl
    | told state n hsim hlist hheard =>
      rw [hwaiting] at hlist
      cases n with
      | zero => cases hlist
      | succ n => exact .told state n hsim (List.cons.inj hlist).2 rfl
    | heard state _ _ hheard => exact absurd (hstage ▸ hheard) nofun

/-- The news that the board has ended is the last that a host reads. -/
theorem Good.hear_end {redraw : Bool} {state : CpuState} {waiting : List Signal}
    (h : Good first published pair) (hstage : pair.stage = .listening redraw)
    (hwaiting : pair.simulation.signals.waiting = .ended state :: waiting) :
    Good first published { pair with
      simulation.signals.waiting := waiting
      stage := if redraw then .drawing (some state) else .joining state } := by
  obtain ⟨hopen, hcapacity, hledger, hending⟩ := h
  have hlast : waiting = [] ∧ pair.simulation.stage = .finished state := by
    cases hending with
    | untold _ hall => exact absurd (hall (.ended state) (by simp [hwaiting])) nofun
    | told last n hsim hlist =>
      rw [hwaiting] at hlist
      cases n with
      | zero =>
        -- Every announcement has been read, and nothing comes after the news.
        obtain ⟨hsignal, rfl⟩ := List.cons.inj hlist
        exact ⟨rfl, Signal.ended.inj hsignal ▸ hsim⟩
      | succ n => exact absurd (List.cons.inj hlist).1 nofun
    | heard last _ hnil => exact absurd (hwaiting.symm.trans hnil) nofun
  obtain ⟨rfl, hsim⟩ := hlast
  refine ⟨hopen, hcapacity, hledger.of_owed rfl rfl ?_ ?_, .heard state hsim rfl ?_⟩
  · cases redraw <;> simp [owed, Simulation.toAnnounce, HostStage.toDraw, hsim, hstage]
  · cases redraw <;> simp [owed, Simulation.toAnnounce, HostStage.toDraw, hsim, hwaiting, hstage]
  · cases redraw <;> rfl

/-- A drawing settles what the host owes. -/
theorem Good.draw {ended : Option CpuState} {album : Album} (h : Good first published pair)
    (hstage : pair.stage = .drawing ended)
    (halbum : album.frames = pair.album.frames ++ [pair.latest]) :
    Good first published { pair with
      album, stage := (ended.map HostStage.joining).getD .polling } := by
  obtain ⟨hopen, hcapacity, hledger, hending⟩ := h
  refine ⟨hopen, hcapacity, hledger.of_draw rfl halbum ?_,
    hending.congr (fun _ => Iff.rfl) rfl ?_⟩
  · cases ended <;> simp [owed, Simulation.toAnnounce, HostStage.toDraw, hstage]
  · cases ended <;> simp [HostStage.heard, hstage]

variable [Input ι]

/-- What the host does publishes nothing. -/
theorem latest_hostTurn (pair : Threaded σ ι) : pair.hostTurn.latest = pair.latest := by
  rw [hostTurn]
  split
  · rfl
  · rfl
  · rfl
  · rfl
  · exact congrArg Scheduler.published (Simulation.scheduler_receive pair.simulation)
  · split <;> rfl
  · split <;> rfl
  · rfl

/-- The host's turns preserve the invariant unless it gives up. -/
theorem Good.host (h : Good first published pair) :
    GaveUp pair.hostTurn ∨ Good first published pair.hostTurn := by
  cases hstage : pair.stage with
  | polling =>
    cases hpoll : Input.poll pair.input pair.simulation.wall with
    | mk polled input =>
      simp only [hostTurn, hstage, hpoll]
      cases polled with
      | error reason => exact .inl ⟨_, rfl, nofun⟩
      | ok events => exact .inr (h.keep hstage rfl rfl rfl rfl rfl rfl)
  | reporting events =>
    match events with
    | [] =>
      simp only [hostTurn, hstage]
      exact .inr (h.keep hstage rfl rfl rfl rfl rfl rfl)
    | .quit :: _ =>
      simp only [hostTurn, hstage]
      exact .inl ⟨_, rfl, nofun⟩
    | .button event :: events =>
      simp only [hostTurn, hstage]
      exact .inr (h.keep hstage rfl rfl rfl rfl rfl rfl)
  | listening redraw =>
    cases hwaiting : pair.simulation.signals.waiting with
    | nil =>
      simp only [hostTurn, hstage]
      rcases Simulation.receive_of_nil hwaiting h.capacity_pos with hreceive | hreceive
      · rw [hreceive]
        cases redraw with
        | false => exact .inr (h.keep hstage rfl rfl rfl rfl rfl rfl)
        | true => exact .inr (h.keep hstage rfl rfl rfl rfl rfl rfl)
      · rw [hreceive]
        exact .inl ⟨_, rfl, nofun⟩
    | cons signal waiting =>
      simp only [hostTurn, hstage, Simulation.receive_of_cons hwaiting]
      cases signal with
      | frameReady => exact .inr (h.hear_frame hstage hwaiting)
      | ended state => exact .inr (h.hear_end hstage hwaiting)
  | drawing ended =>
    simp only [hostTurn, hstage]
    cases hdraw : pair.album.draw pair.simulation.scheduler.published with
    | error reason => exact .inl ⟨_, rfl, nofun⟩
    | ok album => exact .inr (h.draw hstage (Album.draw_ok hdraw))
  | joining state =>
    simp only [hostTurn, hstage]
    cases pair.simulation.stage with
    | finished last => exact .inr (h.keep hstage rfl rfl rfl rfl rfl rfl)
    | failed fault => exact .inl ⟨_, rfl, nofun⟩
    | ready => exact .inr h
    | launched last => exact .inr h
    | announcing => exact .inr h
    | closing last => exact .inr h
  | stopped result =>
    simp only [hostTurn, hstage]
    exact .inr h

/-- The host leaves the simulation's end truthful. -/
theorem truthful_hostTurn (h : pair.simulation.Truthful) : pair.hostTurn.simulation.Truthful := by
  rw [hostTurn]
  split
  · exact h
  · exact h
  · exact h
  · exact h
  · exact h.receive
  · split <;> exact h
  · split <;> exact h
  · exact h

/-! ### Whole runs -/

variable [Board σ]

/-- The frames published in a sequence of turns of the two parties, and the pair after them. -/
def turns (pair : Threaded σ ι) : List Party → List Frame × Threaded σ ι
  | [] => ([], pair)
  | party :: parties =>
    let (published, last) := (pair.turn party).turns parties
    (publication pair (pair.turn party) ++ published, last)

/-- A host that gave up does nothing more. -/
theorem GaveUp.turn (h : GaveUp pair) (party : Party) : GaveUp (pair.turn party) := by
  obtain ⟨result, hstage, hresult⟩ := h
  cases party with
  | simulation => exact ⟨result, hstage, hresult⟩
  | host => exact ⟨result, by simp only [Threaded.turn, hostTurn, hstage], hresult⟩

/-- A turn of either party preserves the invariant, unless the host gives up. -/
theorem Good.turn (h : Good first published pair) (party : Party) :
    GaveUp (pair.turn party) ∨
      Good first (published ++ publication pair (pair.turn party)) (pair.turn party) := by
  cases party with
  | simulation => exact .inr (h.simulate (Simulation.move_turn h.isOpen))
  | host =>
    have hlatest : (pair.turn .host).latest = pair.latest := latest_hostTurn pair
    rw [publication_eq_nil hlatest, List.append_nil]
    exact h.host

theorem GaveUp.turns (h : GaveUp pair) (parties : List Party) : GaveUp (pair.turns parties).2 := by
  induction parties generalizing pair with
  | nil => exact h
  | cons party parties ih => exact ih (h.turn party)

/-- Any sequence of turns preserves the invariant, unless the host gives up. -/
theorem Good.turns (h : Good first published pair) (parties : List Party) :
    GaveUp (pair.turns parties).2 ∨
      Good first (published ++ (pair.turns parties).1) (pair.turns parties).2 := by
  induction parties generalizing pair published with
  | nil =>
    right
    simpa only [Threaded.turns, List.append_nil] using h
  | cons party parties ih =>
    rcases h.turn party with hgave | hgood
    · exact .inl (hgave.turns parties)
    · simpa only [Threaded.turns, List.append_assoc] using ih hgood

theorem truthful_turns (h : pair.simulation.Truthful) (parties : List Party) :
    (pair.turns parties).2.simulation.Truthful := by
  induction parties generalizing pair with
  | nil => exact h
  | cons party parties ih =>
    cases party with
    | simulation => exact ih h.turn
    | host => exact ih (truthful_hostTurn h)

omit [Board σ] [Input ι] in
/-- The pair begins with nothing published, announced or drawn. -/
theorem good_start (scheduler : Scheduler σ) (input : ι) {album : Album}
    (halbum : album.frames = []) :
    Good scheduler.published [] (start scheduler input album) where
  isOpen := rfl
  capacity_pos := Nat.zero_lt_two
  ledger := {
    latest := rfl
    number := rfl
    numbers := rfl
    drawn := fun frame hframe => absurd (halbum ▸ hframe) List.not_mem_nil
    ordered := by simp [start, halbum]
    count := by simp [start, halbum, owed, Simulation.toAnnounce, HostStage.toDraw]
    newest := fun _ => by simp [start, halbum] }
  ending := .untold nofun nofun rfl

/-- The last frame published is the last one drawn. In every run of the two threads after which the
    host has stopped because the board ended, whatever announcements were dropped on the way: the
    frames published are numbered one after the other; each frame drawn is the one published under
    its number, and no number is followed by a lower one; the last frame drawn is the last one
    published, and none is drawn only if none was published; no more are drawn than published; and
    the simulation has finished with the state that the host reports. -/
theorem last_drawn_eq_last_published (scheduler : Scheduler σ) (input : ι) {album : Album}
    (halbum : album.frames = []) (parties : List Party) {published : List Frame}
    {pair : Threaded σ ι} (hrun : (start scheduler input album).turns parties = (published, pair))
    {state : CpuState} (hstop : pair.stage = .stopped (.ok (.ended state))) :
    published.map (·.sequence) =
      List.range' (scheduler.published.sequence + 1) published.length ∧
    (∀ frame ∈ pair.album.frames,
      published[frame.sequence - (scheduler.published.sequence + 1)]? = some frame) ∧
    (pair.album.frames.map (·.sequence)).Pairwise (· ≤ ·) ∧
    pair.album.frames.getLast? = published.getLast? ∧
    pair.album.frames.length ≤ published.length ∧
    pair.simulation.stage = .finished state ∧
    pair.simulation.scheduler.phase = .ended state := by
  have hgood := (good_start scheduler input halbum).turns parties
  have htruth : pair.simulation.Truthful := by
    have hstart : (start scheduler input album).simulation.Truthful := nofun
    have htruth := truthful_turns hstart parties
    rwa [hrun] at htruth
  simp only [hrun, List.nil_append] at hgood
  rcases hgood with ⟨result, hresult, hne⟩ | ⟨-, -, hledger, hending⟩
  · exact absurd (HostStage.stopped.inj (hresult.symm.trans hstop)) (hne state)
  have hfinished :
      pair.simulation.stage = .finished state ∧ pair.simulation.signals.waiting = [] := by
    cases hending with
    | untold _ _ hheard => exact absurd (hstop ▸ hheard) nofun
    | told _ _ _ _ hheard => exact absurd (hstop ▸ hheard) nofun
    | heard last hsim hwaiting hheard =>
      rw [hstop] at hheard
      cases hheard
      exact ⟨hsim, hwaiting⟩
  obtain ⟨hsim, hwaiting⟩ := hfinished
  have howed : pair.owed = 0 := by
    simp [owed, Simulation.toAnnounce, HostStage.toDraw, hsim, hwaiting, hstop]
  have hcount := hledger.count
  exact ⟨hledger.numbers, fun frame hframe => hledger.getElem?_of_mem (hledger.drawn frame hframe),
    hledger.ordered, hledger.newest howed, by omega, hsim, htruth state (.inr hsim)⟩

/-- A board that asks for a frame at every cycle, and ends at the fifth. -/
def flicker : ScriptedBoard :=
  { frequency := 1000000
    width := 1
    height := 8
    cycle := 0
    grid := #[1]
    flags := {}
    bursts := [{}, {}, {}, {}, { ending := some .done }] }

/-- Settings under which both timers fire at every cycle. -/
def everyCycle : Settings :=
  { clock := ⟨1000000, by decide, by decide⟩
    burst := 1
    samplingPeriod := 1
    redrawPeriod := 1
    decay := Settings.defaultDecay
    increase := Settings.defaultIncrease
    throttle := false
    burst_pos := Nat.one_pos
    samplingPeriod_pos := Nat.one_pos
    samplingPeriod_le := Nat.le_refl 1 }

/-- A host that draws the first frame and then comes back only when the board has ended. -/
def lateHost : List Party :=
  List.replicate 3 .simulation ++ List.replicate 5 .host ++ List.replicate 11 .simulation ++
    List.replicate 3 .host ++ [.simulation] ++ List.replicate 4 .host

/-- The last of four frames is drawn although nothing in the queue tells of it. -/
theorem last_drawn_of_lateHost :
    ∃ scheduler published pair,
      Scheduler.new flicker (.ofStrategy (.queued 1)) everyCycle = .ok scheduler ∧
      (start scheduler ({ batches := [] } : InputScript)).turns lateHost = (published, pair) ∧
      pair.stage = .stopped (.ok (.ended .done)) ∧
      published.map (·.sequence) = [1, 2, 3, 4] ∧ pair.album.frames.map (·.sequence) = [1, 4] ∧
      pair.album.frames.getLast? = published.getLast? := by
  refine ⟨_, _, _, rfl, rfl, rfl, by decide +kernel, by decide +kernel, ?_⟩
  exact (last_drawn_eq_last_published _ _ rfl lateHost rfl rfl).2.2.2.1

end Threaded

end Handheld
