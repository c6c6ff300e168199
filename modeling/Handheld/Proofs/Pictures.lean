import Handheld.Proofs.Sampling
import Handheld.Proofs.Timekeeping

/-!
# What a published frame shows

Whatever is asked of a scheduler, and in whatever order (`Scheduler.History`), a frame is published
by the calls that yield and by no others, and shows what the samples taken up to then made of the
panel, the sample of the same step among them (`Scheduler.frame_of_history`).

* `Board.Evolves`: what a board can come to while it is run; a board whose picture memory has a byte
  for each eight pixels in all of it is `Board.Paged`.
* `Scheduler.Fitted`: a scheduler whose afterglow has the size of the panel. On a board that is
  `Board.Paged` its steps fail only where their bursts do (`Fitted.step`).
* `Scheduler.sampled`: the picture memory that a step samples, told by what the first half of the
  step leaves.
* `Scheduler.Pictured`: the invariant. The afterglow shows the samples, the frames and the redraws
  are as many as the yields, and no yield is pending. A step preserves it (`Pictured.step`).
-/

namespace Handheld

/-! ## Boards -/

namespace Board

variable {σ : Type} [Board σ]

/-- What a board can come to by running bursts and by having its pins driven. -/
inductive Evolves (first : σ) : σ → Prop
  | start : Evolves first first
  | drive {board : σ} (pin : Pin) (level : Bool) :
    Evolves first board → Evolves first (Board.drive board pin level)
  | burst {board next : σ} {limit : Nat} {burst : Burst} :
    Evolves first board → Board.runBurst board limit = .ok (burst, next) → Evolves first next

/-- The display of a board keeps its size, and its picture memory a byte for each eight pixels. -/
structure Paged (first : σ) (width height : Nat) : Prop where
  size : ∀ {board : σ}, Evolves first board → Board.size board = (width, height)
  grid : ∀ {board : σ}, Evolves first board → (Board.grid board).size = width * height / 8

end Board

/-- A frame shows what samples of `grids` made of a panel, with the display flags `flags`. -/
structure Frame.Depicts (frame : Frame) (settings : Settings) (width height : Nat)
    (grids : List (Array UInt8)) (flags : DisplayFlags) : Prop where
  extent : frame.width = width ∧ frame.height = height
  size : frame.luma.size = width * height
  luma : ∀ x < width, ∀ y < height, frame.luma[y * width + x]?.map UInt8.toNat =
    some (brightness width settings.decay settings.increase grids x y)
  flags : frame.flags = flags

namespace Scheduler

variable {σ : Type} [Board σ] {s first : Scheduler σ} {start finish : Nat} {turn : Turn σ}

/-! ## Calls -/

/-- The picture memory that a step samples: the one that its burst leaves, if the sampling timer is
    due by then. -/
def sampled (s : Scheduler σ) (now : Nat) : List (Array UInt8) :=
  match s.phase with
  | .ended _ => []
  | _ =>
    match s.launch now with
    | .error _ => []
    | .ok (state, s) =>
      if !state.isTerminal && s.sampling.isDue (Board.cycle s.board) then [Board.grid s.board]
      else []

/-- The picture memories that are sampled while a scheduler idles, in order. -/
def idleSampled (s : Scheduler σ) (wall : Nat) : (limit : Nat) → List (Array UInt8)
  | 0 => []
  | limit + 1 =>
    s.sampled wall ++
      match s.step wall wall with
      | .error _ => []
      | .ok turn =>
        if turn.outcome = .proceed then turn.scheduler.idleSampled (wall + turn.slept) limit else []

/-- What can be asked of a scheduler. -/
inductive Call
  | step (start finish : Nat)
  | idle (wall limit : Nat)
  | input (event : ButtonEvent)
  | send (sender : Sender) (event : ButtonEvent)

/-- What came of a call. -/
structure Called (σ : Type) where
  /-- What the steps of the call ended with, if it made any. -/
  outcome : Option Outcome
  /-- The picture memories that were sampled, in order. -/
  grids : List (Array UInt8)
  scheduler : Scheduler σ

/-- The frames that a call hands to the host. -/
def Called.yields (called : Called σ) : Nat := if called.outcome = some .yield then 1 else 0

/-- Do what is asked; `none` if the steps allowed were not enough. -/
def call (s : Scheduler σ) : Call → Except Fault (Option (Called σ))
  | .step start finish => (s.step start finish).map fun turn =>
    some { outcome := some turn.outcome, grids := s.sampled start, scheduler := turn.scheduler }
  | .idle wall limit => (s.idle wall limit).map fun idle => idle.map fun idle =>
    { outcome := some idle.outcome, grids := s.idleSampled wall limit, scheduler := idle.scheduler }
  | .input event => .ok (some { outcome := none, grids := [], scheduler := (s.input event).2 })
  | .send sender event =>
    .ok (some { outcome := none, grids := [], scheduler := (s.send sender event).2.2 })

/-- The schedulers that calls, any number of them and in any order, make of the scheduler `first`,
    with the picture memories that were sampled and the number of yields. -/
inductive History (first : Scheduler σ) : List (Array UInt8) → Nat → Scheduler σ → Prop
  | start : History first [] 0 first
  | call {grids : List (Array UInt8)} {yields : Nat} {s : Scheduler σ} {call : Call}
    {called : Called σ} : History first grids yields s → s.call call = .ok (some called) →
    History first (grids ++ called.grids) (yields + called.yields) called.scheduler

/-! ## The panel -/

variable {board : σ} {settings : Settings} {width height now : Nat} {state : CpuState}

/-- A scheduler over what the board `board` can come to, with an afterglow for a panel of a size. -/
structure Fitted (board : σ) (settings : Settings) (width height : Nat) (s : Scheduler σ) :
    Prop where
  evolves : Board.Evolves board s.board
  settings_eq : s.settings = settings
  width : s.afterglow.width = width
  height : s.afterglow.height = height

theorem fitted_new (hsize : Board.size board = (width, height)) {channel : Channel}
    (hnew : Scheduler.new board channel settings = .ok s) (inner : Option Sender) :
    Fitted board settings width height { s with inner } := by
  obtain ⟨-, rfl⟩ := new_ok hnew
  exact {
    evolves := Lines.pullUp_induction (fun _ _ _ => .drive _ _) channel.lines .start
    settings_eq := rfl
    width := congrArg Prod.fst hsize
    height := congrArg Prod.snd hsize }

theorem Fitted.evolves_drainInput (h : Fitted board settings width height s) :
    Board.Evolves board s.drainInput.board :=
  Channel.drain_induction (fun _ _ _ => .drive _ _) s.channel h.evolves

theorem Fitted.launch (h : Fitted board settings width height s) {s₁ : Scheduler σ}
    (hlaunch : s.launch now = .ok (state, s₁)) : Fitted board settings width height s₁ := by
  obtain ⟨burst, next, inner, queue, hrun, -, rfl⟩ := launch_ok hlaunch
  exact { h with evolves := h.evolves_drainInput.burst hrun }

theorem Fitted.settled (h : Fitted board settings width height s)
    (hsettle : s.settle state now = .ok turn) :
    Fitted board settings width height turn.scheduler where
  evolves := settle_induction (fun _ _ _ => .drive _ _) h.evolves hsettle
  settings_eq := (settle_settings hsettle).trans h.settings_eq
  width := (settle_extent hsettle).1.trans h.width
  height := (settle_extent hsettle).2.trans h.height

/-- The second half of a step succeeds, since the picture memory is as long as the afterglow needs
    it. -/
theorem Fitted.settle (hpaged : Board.Paged board width height)
    (h : Fitted board settings width height s) (state : CpuState) (now : Nat) :
    ∃ turn, s.settle state now = .ok turn ∧
      Fitted board settings width height turn.scheduler := by
  have hsize := hpaged.grid h.evolves
  rw [← h.width, ← h.height] at hsize
  obtain ⟨turn, hsettle⟩ := settle_of_size hsize state now
  exact ⟨turn, hsettle, h.settled hsettle⟩

/-- A step fails only where its burst does. -/
theorem Fitted.step (hpaged : Board.Paged board width height)
    (h : Fitted board settings width height s) (start finish : Nat) :
    (∃ turn, s.step start finish = .ok turn ∧
      Fitted board settings width height turn.scheduler) ∨
    ∃ fault, s.step start finish = .error fault ∧
      Board.runBurst s.drainInput.board s.settings.burst = .error fault := by
  by_cases hended : ∃ state, s.phase = .ended state
  · obtain ⟨state, hended⟩ := hended
    exact .inl ⟨_, step_of_ended hended start finish, h⟩
  · have hphase := not_exists.1 hended
    rcases hlaunch : s.launch start with fault | ⟨state, s₁⟩
    · exact .inr ⟨fault, step_of_launch_error hphase hlaunch finish, launch_error hlaunch⟩
    · obtain ⟨turn, hsettle, hturn⟩ := (h.launch hlaunch).settle hpaged state finish
      exact .inl ⟨turn, step_of_launch hphase hlaunch hsettle, hturn⟩

/-- Input that is delivered inline drives a pin at most. -/
theorem Fitted.input (h : Fitted board settings width height s) (event : ButtonEvent) :
    Fitted board settings width height (s.input event).2 := by
  rw [input_eq]
  rcases hwrite : s.channel.lines.write? s.board event with - | written
  · exact h
  · exact { h with
      evolves := Lines.write?_induction (fun _ _ _ => .drive _ _) h.evolves hwrite }

/-! ## The invariant -/

/-- The invariant of a scheduler over the board `board`, after samples of `grids` and as many yields
    as `yields`. -/
structure Pictured (board : σ) (settings : Settings) (width height : Nat)
    (grids : List (Array UInt8)) (yields : Nat) (s : Scheduler σ) : Prop where
  evolves : Board.Evolves board s.board
  settings_eq : s.settings = settings
  width : s.afterglow.width = width
  height : s.afterglow.height = height
  shows : s.afterglow.Shows settings.decay settings.increase grids
  settled : s.phase ≠ .yieldPending
  number : s.published.sequence = yields
  redraws : s.stats.redraws = yields

/-- A call that leads to `next` and, if `yielded`, to a yield, publishes as it should. -/
structure Publishes (settings : Settings) (width height : Nat) (grids : List (Array UInt8))
    (yielded : Prop) (s next : Scheduler σ) : Prop where
  kept : ¬yielded → next.published = s.published
  drawn : yielded →
    next.published.Depicts settings width height grids (Board.flags next.board)

variable {yields : Nat} {grids : List (Array UInt8)} {glow : Afterglow}

theorem Pictured.fitted (h : Pictured board settings width height grids yields s) :
    Fitted board settings width height s where
  evolves := h.evolves
  settings_eq := h.settings_eq
  width := h.width
  height := h.height

omit [Board σ] in
/-- A pending yield is one that the redraw timer has just asked for. -/
theorem phase_polled (hsettled : s.phase ≠ .yieldPending) (cycle : Nat) (glow : Afterglow) :
    (s.polled cycle glow).phase = .yieldPending ↔ s.redraw.isDue cycle = true := by
  rw [polled]
  split
  · next hdue => simp [hdue]
  · next hdue => simp [hdue, hsettled]

/-- The first half of a step samples nothing and publishes nothing. -/
theorem Pictured.launch (h : Pictured board settings width height grids yields s)
    {s₁ : Scheduler σ} (hlaunch : s.launch now = .ok (state, s₁)) :
    Pictured board settings width height grids yields s₁ := by
  have hfitted := h.fitted.launch hlaunch
  obtain ⟨burst, next, inner, queue, -, -, rfl⟩ := launch_ok hlaunch
  exact { h with evolves := hfitted.evolves }

/-- A look at the sampling timer adds the picture memory to what the afterglow shows if it is due.
    -/
theorem Pictured.nextGlow (hpages : 8 ∣ height)
    (h : Pictured board settings width height grids yields s) {cycle : Nat}
    (hglow : s.nextGlow cycle = .ok glow) :
    glow.width = width ∧ glow.height = height ∧
      glow.Shows settings.decay settings.increase
        (grids ++ if s.sampling.isDue cycle then [Board.grid s.board] else []) := by
  obtain ⟨hwidth, hheight⟩ := nextGlow_extent hglow
  refine ⟨hwidth.trans h.width, hheight.trans h.height, ?_⟩
  rw [Scheduler.nextGlow] at hglow
  split at hglow
  · next hdue =>
    rw [h.settings_eq] at hglow
    rw [if_pos hdue]
    exact h.shows.sample (h.height ▸ hpages) hglow
  · next hdue =>
    cases hglow
    rw [if_neg hdue, List.append_nil]
    exact h.shows

/-- The second half of a step preserves the invariant, and publishes as it should. -/
theorem Pictured.settle (hpages : 8 ∣ height)
    (h : Pictured board settings width height grids yields s)
    (hsettle : s.settle state now = .ok turn) {new : List (Array UInt8)}
    (hnew : new = if !state.isTerminal && s.sampling.isDue (Board.cycle s.board) then
      [Board.grid s.board] else []) :
    Pictured board settings width height (grids ++ new)
      (yields + if turn.outcome = .yield then 1 else 0) turn.scheduler ∧
    Publishes settings width height (grids ++ new) (turn.outcome = .yield) s turn.scheduler := by
  cases settle_ok hsettle with
  | ended hstate =>
    simp only [hstate, Bool.not_true, Bool.false_and, Bool.false_eq_true, if_false] at hnew
    subst hnew
    rw [List.append_nil]
    exact ⟨{ h with settled := nofun }, fun _ => rfl, nofun⟩
  | yield glow pace hstate hglow hpending =>
    simp only [hstate, Bool.not_false, Bool.true_and] at hnew
    obtain ⟨hwidth, hheight, hshows⟩ := h.nextGlow hpages hglow
    rw [← hnew] at hshows
    have hfires : s.redraw.fires (Board.cycle s.board) = 1 :=
      if_pos ((phase_polled h.settled _ _).1 hpending)
    constructor
    · exact {
        evolves := Channel.drain_induction (fun _ _ _ => .drive _ _) s.channel h.evolves
        settings_eq := h.settings_eq
        width := hwidth
        height := hheight
        shows := hshows
        settled := nofun
        number := congrArg (· + 1) h.number
        redraws := congrArg₂ (· + ·) h.redraws hfires }
    · refine ⟨fun hyield => absurd rfl hyield, fun _ => ?_⟩
      -- The frame is a copy of the afterglow, and the drain before it has left the flags.
      exact {
        extent := ⟨hwidth, hheight⟩
        size := hwidth ▸ hheight ▸ glow.size_luma
        luma := hwidth ▸ hheight ▸ hshows
        flags := rfl }
  | proceed glow pace hstate hglow hpending =>
    simp only [hstate, Bool.not_false, Bool.true_and] at hnew
    obtain ⟨hwidth, hheight, hshows⟩ := h.nextGlow hpages hglow
    rw [← hnew] at hshows
    have hdue : ¬s.redraw.isDue (Board.cycle s.board) = true :=
      fun hdue => hpending ((phase_polled h.settled _ _).2 hdue)
    have hfires : s.redraw.fires (Board.cycle s.board) = 0 := if_neg hdue
    constructor
    · exact {
        evolves := h.evolves
        settings_eq := h.settings_eq
        width := hwidth
        height := hheight
        shows := hshows
        settled := hpending
        number := h.number
        redraws := congrArg₂ (· + ·) h.redraws hfires }
    · exact ⟨fun _ => rfl, nofun⟩

/-- A step preserves the invariant, and publishes as it should. -/
theorem Pictured.step (hpages : 8 ∣ height)
    (h : Pictured board settings width height grids yields s)
    (hstep : s.step start finish = .ok turn) :
    Pictured board settings width height (grids ++ s.sampled start)
      (yields + if turn.outcome = .yield then 1 else 0) turn.scheduler ∧
    Publishes settings width height (grids ++ s.sampled start) (turn.outcome = .yield) s
      turn.scheduler := by
  rcases step_ok hstep with ⟨state, hended, rfl⟩ | ⟨hphase, state, s₁, hlaunch, hsettle⟩
  · have hsampled : s.sampled start = [] := by simp only [sampled, hended]
    rw [hsampled, List.append_nil]
    exact ⟨h, fun _ => rfl, nofun⟩
  · have hsampled : s.sampled start =
        if !state.isTerminal && s₁.sampling.isDue (Board.cycle s₁.board) then
          [Board.grid s₁.board] else [] := by
      rw [sampled]
      split
      · next state hended => exact absurd hended (hphase state)
      · rw [hlaunch]
    obtain ⟨hnext, hkept, hdrawn⟩ := (h.launch hlaunch).settle hpages hsettle hsampled
    exact ⟨hnext, fun hyield => (hkept hyield).trans (launch_published hlaunch), hdrawn⟩

/-- Idling preserves the invariant, and publishes as it should. -/
theorem Pictured.idle (hpages : 8 ∣ height) {wall limit : Nat} {idle : Idle σ}
    (h : Pictured board settings width height grids yields s)
    (hidle : s.idle wall limit = .ok (some idle)) :
    Pictured board settings width height (grids ++ s.idleSampled wall limit)
      (yields + if idle.outcome = .yield then 1 else 0) idle.scheduler ∧
    Publishes settings width height (grids ++ s.idleSampled wall limit) (idle.outcome = .yield) s
      idle.scheduler := by
  induction limit generalizing s wall grids yields with
  | zero => cases hidle
  | succ limit ih =>
    cases hstep : s.step wall wall with
    | error fault =>
      rw [Scheduler.idle, hstep] at hidle
      cases hidle
    | ok turn =>
      obtain ⟨hturn, hpublishes⟩ := h.step hpages hstep
      by_cases hproceed : turn.outcome = .proceed
      · -- Nothing was published by this step, and the rest goes by induction.
        have hnone : turn.outcome ≠ .yield := by
          rw [hproceed]
          decide
        rw [idle_of_proceed hstep hproceed] at hidle
        rw [if_neg hnone] at hturn
        have hsampled : s.idleSampled wall (limit + 1) =
            s.sampled wall ++ turn.scheduler.idleSampled (wall + turn.slept) limit := by
          simp only [idleSampled, hstep, if_pos hproceed]
        obtain ⟨hnext, hkept, hdrawn⟩ := ih hturn hidle
        rw [hsampled, ← List.append_assoc]
        exact ⟨hnext, fun hyield => (hkept hyield).trans (hpublishes.kept hnone), hdrawn⟩
      · rw [idle_of_stop hstep hproceed] at hidle
        cases hidle
        have hsampled : s.idleSampled wall (limit + 1) = s.sampled wall := by
          simp only [idleSampled, hstep, if_neg hproceed, List.append_nil]
        rw [hsampled]
        exact ⟨hturn, hpublishes⟩

/-- Input reaches neither the afterglow nor the frame. -/
theorem Pictured.input (h : Pictured board settings width height grids yields s)
    (event : ButtonEvent) :
    Pictured board settings width height grids yields (s.input event).2 :=
  { h with evolves := (h.fitted.input event).evolves }

/-- Every call preserves the invariant, and publishes as it should. -/
theorem Pictured.call (hpages : 8 ∣ height) {call : Call} {called : Called σ}
    (h : Pictured board settings width height grids yields s)
    (hcall : s.call call = .ok (some called)) :
    Pictured board settings width height (grids ++ called.grids) (yields + called.yields)
      called.scheduler ∧
    Publishes settings width height (grids ++ called.grids) (called.outcome = some .yield) s
      called.scheduler := by
  have hsome {outcome : Outcome} : some outcome = some .yield ↔ outcome = .yield := by simp
  cases call with
  | step start finish =>
    cases hstep : s.step start finish with
    | error fault =>
      simp only [Scheduler.call, hstep] at hcall
      cases hcall
    | ok turn =>
      simp only [Scheduler.call, hstep] at hcall
      cases hcall
      simp only [Called.yields, hsome]
      exact h.step hpages hstep
  | idle wall limit =>
    cases hidle : s.idle wall limit with
    | error fault =>
      simp only [Scheduler.call, hidle] at hcall
      cases hcall
    | ok result =>
      simp only [Scheduler.call, hidle] at hcall
      cases result with
      | none => cases hcall
      | some idle =>
        cases hcall
        simp only [Called.yields, hsome]
        exact h.idle hpages hidle
  | input event =>
    cases hcall
    rw [List.append_nil]
    refine ⟨h.input event, fun _ => ?_, nofun⟩
    rw [input_eq]
    cases s.channel.lines.write? s.board event <;> rfl
  | send sender event =>
    cases hcall
    rw [List.append_nil]
    exact ⟨{ h with }, fun _ => rfl, nofun⟩

/-- A new scheduler has sampled nothing and published nothing. -/
theorem pictured_new (hpaged : Board.Paged board width height) {channel : Channel}
    (hnew : Scheduler.new board channel settings = .ok s) (inner : Option Sender) :
    Pictured board settings width height [] 0 { s with inner } := by
  have hfitted := fitted_new (hpaged.size .start) hnew inner
  obtain ⟨-, rfl⟩ := new_ok hnew
  exact {
    evolves := hfitted.evolves
    settings_eq := rfl
    width := hfitted.width
    height := hfitted.height
    shows := Afterglow.shows_dark _ _ _ _
    settled := nofun
    number := rfl
    redraws := rfl }

theorem History.pictured (hpages : 8 ∣ height)
    (hfirst : Pictured board settings width height [] 0 first) (h : History first grids yields s) :
    Pictured board settings width height grids yields s := by
  induction h with
  | start => exact hfirst
  | call _ hcall ih => exact (ih.call hpages hcall).1

/-- On a board with a picture memory of the right length a step fails only where its burst does. -/
theorem Pictured.step_error (hpaged : Board.Paged board width height)
    (h : Pictured board settings width height grids yields s) {fault : Fault}
    (hstep : s.step start finish = .error fault) :
    Board.runBurst s.drainInput.board s.settings.burst = .error fault := by
  rcases h.fitted.step hpaged start finish with ⟨turn, hturn, -⟩ | ⟨fault', hfault, hrun⟩
  · cases hstep.symm.trans hturn
  · cases hstep.symm.trans hfault
    exact hrun

/-- What a published frame is. Let a scheduler be made for a panel of whole pages whose picture
    memory never changes its length, and let anything be asked of it, in any order. Then no yield is
    ever left pending; the frame handed over last bears the number of the yields, which is that of
    the redraws; and a step fails only where its burst does. Whatever is asked next, a frame is
    handed over if it ends with a yield, and only then; that frame has the extent of the panel, the
    flags that the board shows after the step, and of each pixel the brightness that all samples up
    to then made, those of this call among them. -/
theorem frame_of_history (hpaged : Board.Paged board width height) (hpages : 8 ∣ height)
    {channel : Channel} {made : Scheduler σ}
    (hnew : Scheduler.new board channel settings = .ok made) {inner : Option Sender}
    (hrun : History { made with inner } grids yields s) :
    s.phase ≠ .yieldPending ∧ s.published.sequence = yields ∧ s.stats.redraws = yields ∧
    (∀ start finish fault, s.step start finish = .error fault →
      Board.runBurst s.drainInput.board settings.burst = .error fault) ∧
    ∀ call called, s.call call = .ok (some called) →
      (called.outcome ≠ some .yield → called.scheduler.published = s.published) ∧
      (called.outcome = some .yield →
        called.scheduler.published.Depicts settings width height (grids ++ called.grids)
          (Board.flags called.scheduler.board)) := by
  have h := hrun.pictured hpages (pictured_new hpaged hnew inner)
  refine ⟨h.settled, h.number, h.redraws, fun start finish fault hstep => ?_,
    fun call called hcall => ?_⟩
  · rw [← h.settings_eq]
    exact h.step_error hpaged hstep
  · obtain ⟨-, hkept, hdrawn⟩ := h.call hpages hcall
    exact ⟨hkept, hdrawn⟩

/-- At cycle 117 a metronome that was started at 100 is late for its second sample and for its first
    redraw. The frame shows both samples. -/
theorem frame_of_history_metronome :
    ∃ made called, Scheduler.new ({ cycle := 100 } : Metronome) {} Metronome.settings = .ok made ∧
      made.call (.idle 0 5) = .ok (some called) ∧ called.outcome = some .yield ∧
      Board.cycle called.scheduler.board = 117 ∧ called.grids = [#[1], #[1]] ∧
      called.scheduler.published.luma[0]?.map UInt8.toNat = some (min 255 (170 - 85 + 170)) := by
  have hpaged : Board.Paged ({ cycle := 100 } : Metronome) 1 8 := ⟨fun _ => rfl, fun _ => rfl⟩
  obtain ⟨made, called, hnew, hcall, hyield, hcycle, hgrids⟩ : ∃ made called,
      Scheduler.new ({ cycle := 100 } : Metronome) {} Metronome.settings = .ok made ∧
      made.call (.idle 0 5) = .ok (some called) ∧ called.outcome = some .yield ∧
      Board.cycle called.scheduler.board = 117 ∧ called.grids = [#[1], #[1]] :=
    ⟨_, _, rfl, rfl, rfl, rfl, rfl⟩
  have hhistory : History { made with inner := none } [] 0 made := by
    obtain ⟨-, rfl⟩ := new_ok hnew
    exact .start
  obtain ⟨-, -, -, -, hcalls⟩ := frame_of_history hpaged (by decide) hnew hhistory
  have hdepicts := (hcalls _ _ hcall).2 hyield
  rw [hgrids] at hdepicts
  exact ⟨made, called, hnew, hcall, hyield, hcycle, hgrids,
    hdepicts.luma 0 (by decide) 0 (by decide)⟩

end Scheduler

end Handheld
