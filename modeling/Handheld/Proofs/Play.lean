import Handheld.Board.Game
import Mathlib.Algebra.Ring.Parity
import Mathlib.Data.List.Basic
import Mathlib.Data.List.Induction
import Mathlib.Tactic.Common

/-!
# Plays of the demo game

All that can happen in the demo game is a strobe, or a frame that finds some buttons pressed. A
*play* is what a list of such events makes of the game as it starts (`Game.play`), whoever decides
when they come. What the game has become can be read off the list:

* `Game.strobeLit_play`: the phase of the strobe, from the number of strobes;
* `Game.ball_play`: the ball, from the number of frames. Along each axis it goes to and fro between
  two walls (`Game.sweep`, `Game.heading`);
* `Game.cursor_play`: the cursor, from the samples that the frames took, each of which moves it
  (`Game.nudge`);
* `Game.flags_play`: inversion and strobing, from how often a button was struck (`Game.strikes`).
-/

namespace Handheld

namespace Game

/-- What can happen in the game. -/
inductive Event
  | strobe
  /-- A frame, with the buttons that it finds pressed. -/
  | frame (pressed : ButtonMap Bool)
  deriving DecidableEq, Repr

/-- The buttons that an event finds pressed, if it looks at them. -/
def Event.sample? : Event → Option (ButtonMap Bool)
  | .strobe => none
  | .frame pressed => some pressed

/-- The game after one more event. -/
def act (game : Game) : Event → Game
  | .strobe => game.strobe
  | .frame pressed => game.frame pressed

/-- The game after events from its start on. -/
def play (events : List Event) : Game := events.foldl act start

/-- What the frames among the events found pressed, one sample a frame. -/
def samples (events : List Event) : List (ButtonMap Bool) := events.filterMap Event.sample?

/-- The number of strobes among the events. -/
def strobes (events : List Event) : Nat := events.count .strobe

/-- The place of something that goes to and fro between 0 and `far`, a pixel a step. -/
def sweep (far step : Nat) : Nat :=
  if step % (2 * far) ≤ far then step % (2 * far) else 2 * far - step % (2 * far)

/-- The direction from which it came there: up from 0, or down from `far`. -/
def heading (far step : Nat) : Int :=
  if 0 < step % (2 * far) ∧ step % (2 * far) ≤ far then 1 else -1

/-- How often a button was found pressed that the frame before had not found pressed. Before the
    first frame none was. -/
def strikes (button : Button) (samples : List (ButtonMap Bool)) : Nat :=
  ((ButtonMap.const false :: samples).zip samples).countP fun (before, now) =>
    now.get button && !before.get button

/-- A place along an axis, kept between 0 and `far`. -/
def clamp (far place : Int) : Int := max 0 (min far place)

/-- A place along an axis after a pixel back, and after that a pixel on. -/
def along (far : Int) (back on : Bool) (place : Int) : Int :=
  let place := if back then clamp far (place - 1) else place
  if on then clamp far (place + 1) else place

/-- A place moved by the buttons that a frame finds pressed: left, then right, then up, then
    down. -/
def nudge (place : Int × Int) (pressed : ButtonMap Bool) : Int × Int :=
  (along 122 pressed.left pressed.right place.1, along 58 pressed.up pressed.down place.2)

/-! ## One more event -/

theorem play_concat (events : List Event) (event : Event) :
    play (events ++ [event]) = (play events).act event := List.foldl_concat ..

theorem samples_append (events more : List Event) :
    samples (events ++ more) = samples events ++ samples more := List.filterMap_append ..

theorem strobes_append (events more : List Event) :
    strobes (events ++ more) = strobes events + strobes more := List.count_append ..

theorem samples_strobe (events : List Event) : samples (events ++ [.strobe]) = samples events := by
  rw [samples_append]
  exact List.append_nil _

theorem samples_frame (events : List Event) (pressed : ButtonMap Bool) :
    samples (events ++ [.frame pressed]) = samples events ++ [pressed] := samples_append ..

/-- What holds of the game as it starts, and what strobes and frames preserve, holds of every play,
    with the samples that its frames took. -/
theorem play_induction {p : Game → List (ButtonMap Bool) → Prop} (hstart : p start [])
    (hstrobe : ∀ game samples, p game samples → p game.strobe samples)
    (hframe : ∀ game samples pressed, p game samples →
      p (game.frame pressed) (samples ++ [pressed]))
    (events : List Event) : p (play events) (samples events) := by
  induction events using List.reverseRecOn with
  | nil => exact hstart
  | append_singleton events event ih =>
    rw [play_concat]
    cases event with
    | strobe =>
      rw [samples_strobe]
      exact hstrobe _ _ ih
    | frame pressed =>
      rw [samples_frame]
      exact hframe _ _ _ ih

/-! ## The strobe -/

/-- The phase of the strobe is flipped by every strobe, and by nothing else. -/
theorem strobeLit_play (events : List Event) :
    (play events).strobeLit = true ↔ Odd (strobes events) := by
  induction events using List.reverseRecOn with
  | nil => exact iff_of_false Bool.false_ne_true (by decide)
  | append_singleton events event ih =>
    rw [play_concat, strobes_append]
    cases event with
    | strobe =>
      change (!(play events).strobeLit) = true ↔ Odd (strobes events + 1)
      rw [Nat.odd_add_one, ← ih, Bool.not_eq_true', Bool.not_eq_true]
    | frame pressed => exact ih

/-! ## The ball -/

theorem sweep_le (far step : Nat) : sweep far step ≤ far := by
  rw [sweep]
  split
  · assumption
  · omega

theorem heading_eq (far step : Nat) : heading far step = 1 ∨ heading far step = -1 := by
  rw [heading]
  split
  · exact .inl rfl
  · exact .inr rfl

section Sweep

variable {far : Nat}

/-- One step on the way to and fro, which starts again at its end. -/
theorem succ_mod (hfar : 0 < far) (step : Nat) :
    (step + 1) % (2 * far) =
      if step % (2 * far) + 1 = 2 * far then 0 else step % (2 * far) + 1 := by
  have hlt : step % (2 * far) < 2 * far := Nat.mod_lt step (by omega)
  rw [Nat.add_mod_eq_ite, Nat.mod_eq_of_lt (a := 1) (by omega)]
  split_ifs <;> omega

/-- The ball turns round where its way does. -/
theorem bounce_sweep (hfar : 0 < far) (step : Nat) :
    bounce (far + ballSide) (sweep far step) (heading far step) = heading far (step + 1) := by
  have hlt : step % (2 * far) < 2 * far := Nat.mod_lt step (by omega)
  rw [bounce, sweep, heading, heading, succ_mod hfar, ballSide]
  generalize step % (2 * far) = phase at *
  split_ifs <;> omega

/-- The next place is a pixel on in the new direction. -/
theorem sweep_succ (hfar : 0 < far) (step : Nat) :
    (sweep far (step + 1) : Int) = sweep far step + heading far (step + 1) := by
  have hlt : step % (2 * far) < 2 * far := Nat.mod_lt step (by omega)
  rw [sweep, sweep, heading, succ_mod hfar]
  generalize step % (2 * far) = phase at *
  split_ifs <;> omega

theorem sweep_add_bounce (hfar : 0 < far) (step : Nat) :
    (sweep far step : Int) + bounce (far + ballSide) (sweep far step) (heading far step) =
      sweep far (step + 1) := by
  rw [bounce_sweep hfar, sweep_succ hfar]

/-- A frame moves the ball a step on its way along an axis. -/
theorem glide_bounce_sweep (hfar : 0 < far) (step : Nat) :
    glide (sweep far step) (bounce (far + ballSide) (sweep far step) (heading far step)) =
      sweep far (step + 1) := by
  rw [glide, sweep_add_bounce hfar, Int.toNat_natCast]

end Sweep

/-- After so many frames the ball is so many steps on its way along both axes. -/
theorem ball_play (events : List Event) :
    let step := 10 + (samples events).length
    (play events).ball = (sweep 125 step, sweep 61 step) ∧
      (play events).velocity = (heading 125 step, heading 61 step) := by
  refine play_induction (p := fun game samples =>
    game.ball = (sweep 125 (10 + samples.length), sweep 61 (10 + samples.length)) ∧
      game.velocity = (heading 125 (10 + samples.length), heading 61 (10 + samples.length)))
    ⟨rfl, rfl⟩ (fun _ _ h => by simpa only [strobe] using h)
    (fun game samples pressed ⟨hball, hvelocity⟩ => ?_) events
  rw [List.length_append, List.length_singleton, ← Nat.add_assoc]
  simp only [frame, render, hball, hvelocity]
  exact ⟨Prod.ext (glide_bounce_sweep (by decide) _) (glide_bounce_sweep (by decide) _),
    Prod.ext (bounce_sweep (by decide) _) (bounce_sweep (by decide) _)⟩

/-! ## The cursor -/

/-- Within the bounds a move stops at the far one, and at 0 by itself. -/
theorem along_natCast {far place : Nat} (h : place ≤ far) (back on : Bool) :
    let next := if back then place - 1 else place
    let next := if on then min (next + 1) far else next
    along far back on place = next ∧ next ≤ far := by
  simp only [along, clamp]
  split_ifs <;> omega

/-- The cursor is where the samples moved it, and never leaves its bounds. -/
theorem cursor_play (events : List Event) :
    (samples events).foldl nudge (64, 32) =
        (((play events).cursor.1 : Int), ((play events).cursor.2 : Int)) ∧
      (play events).cursor.1 ≤ 122 ∧ (play events).cursor.2 ≤ 58 := by
  refine play_induction (p := fun game samples =>
    samples.foldl nudge (64, 32) = ((game.cursor.1 : Int), (game.cursor.2 : Int)) ∧
      game.cursor.1 ≤ 122 ∧ game.cursor.2 ≤ 58)
    ⟨rfl, by decide, by decide⟩ (fun _ _ h => by simpa only [strobe] using h)
    (fun game samples pressed ⟨hplace, hx, hy⟩ => ?_) events
  obtain ⟨hx, hx'⟩ := along_natCast hx pressed.left pressed.right
  obtain ⟨hy, hy'⟩ := along_natCast hy pressed.up pressed.down
  rw [List.foldl_concat, hplace]
  exact ⟨Prod.ext hx hy, hx', hy'⟩

/-! ## Inversion and strobing -/

/-- A button is struck once more if the sample before had found it released. -/
theorem strikes_concat (button : Button) (samples : List (ButtonMap Bool))
    (pressed : ButtonMap Bool) :
    strikes button (samples ++ [pressed]) = strikes button samples +
      if pressed.get button && !(samples.getLastD (.const false)).get button then 1 else 0 := by
  -- What is zipped to the last sample is the one before it.
  have pairs (first : ButtonMap Bool) :
      (first :: (samples ++ [pressed])).zip (samples ++ [pressed]) =
        (first :: samples).zip samples ++ [(samples.getLastD first, pressed)] := by
    induction samples generalizing first with
    | nil => rfl
    | cons next samples ih =>
      rw [List.cons_append, List.zip_cons_cons, ih, List.zip_cons_cons, List.cons_append,
        List.getLastD_cons]
  rw [strikes, pairs, List.countP_append, List.countP_singleton, strikes]

/-- A flag that flips when a button is struck tells the parity of the strikes. -/
theorem xor_odd_strikes {flag : Bool} {button : Button} {samples : List (ButtonMap Bool)}
    (h : flag = true ↔ Odd (strikes button samples)) (pressed : ButtonMap Bool) :
    (flag ^^ (pressed.get button && !(samples.getLastD (.const false)).get button)) = true ↔
      Odd (strikes button (samples ++ [pressed])) := by
  rw [strikes_concat]
  cases pressed.get button && !(samples.getLastD (.const false)).get button with
  | false => rwa [Bool.xor_false]
  | true =>
    rw [if_pos rfl, Nat.odd_add_one, ← h, Bool.xor_true, Bool.not_eq_true', Bool.not_eq_true]

/-- The game remembers the last sample, and with it tells how often A and B were struck. -/
theorem flags_play (events : List Event) :
    (play events).previous = (samples events).getLastD (.const false) ∧
      ((play events).inverted = true ↔ Odd (strikes .a (samples events))) ∧
      ((play events).strobing = true ↔ Odd (strikes .b (samples events))) := by
  refine play_induction (p := fun game samples =>
    game.previous = samples.getLastD (.const false) ∧
      (game.inverted = true ↔ Odd (strikes .a samples)) ∧
      (game.strobing = true ↔ Odd (strikes .b samples)))
    ?_ (fun _ _ h => by simpa only [strobe] using h)
    (fun game samples pressed ⟨hprevious, hinverted, hstrobing⟩ => ?_) events
  · exact ⟨rfl, iff_of_false Bool.false_ne_true (by decide),
      iff_of_false Bool.false_ne_true (by decide)⟩
  · rw [List.getLastD_concat]
    simp only [frame, render, hprevious, true_and]
    exact ⟨xor_odd_strikes hinverted pressed, xor_odd_strikes hstrobing pressed⟩

end Game

end Handheld
