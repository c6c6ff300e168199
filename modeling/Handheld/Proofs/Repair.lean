import Handheld.Board.Scripted
import Handheld.Proofs.Mirror

/-!
# Reporting once more

Events get lost when the queue of a single sender is full, and the player's side and the lines may
then disagree for as long as nothing is reported. What the sender knows and what the lines show
cannot come apart, though (`Link.Agrees`): once all that waits has been taken they are the same. So
whatever was lost before, it is enough to drain the queue and to report every button once more,
with a drain after each report (`Link.repair`).

* `Link.tell`: a report with a drain after it. On a queue in which nothing waits it is answered
  `unchanged` and does nothing (`Agrees.tell_of_eq`), or it is answered `queued` and drives one pin
  (`Agrees.tell_of_ne`).
* `Link.tellAll`: some buttons are told in turn, after which their lines are as told
  (`Agrees.isPressed_tellAll`). If the lines were so before nothing happens
  (`Agrees.tellAll_of_eq`).
* `Link.repair_settles`: after one repair both ends are as they should be, and a second one does
  nothing.
-/

namespace Handheld

namespace Link

variable {σ : Type} [Board σ] {link : Link σ} {capacity : Nat} {event : ButtonEvent}
  {target : Button → Bool} {order : List Button}

/-- A report, and a drain that nobody interrupts. -/
def tell (link : Link σ) (event : ButtonEvent) : Link σ := (link.notify event).drain

/-- Tell the states of some buttons, one button after the other. -/
def tellAll (link : Link σ) (target : Button → Bool) (order : List Button) : Link σ :=
  order.foldl (fun link button => link.tell ⟨button, target button⟩) link

/-- Take all that waits, and tell the states of the buttons anew. -/
def repair (link : Link σ) (target : Button → Bool) (order : List Button) : Link σ :=
  link.drain.tellAll target order

/-! ## One report -/

omit [Board σ] in
/-- What a sender knows is what the lines show if nothing waits. -/
theorem Agrees.known_eq_isPressed (h : link.Agrees capacity []) (button : Button) :
    link.sender.known.get button = link.channel.lines.isPressed button :=
  h.known_eq button

/-- To tell what the line shows does nothing. -/
theorem Agrees.tell_of_eq (h : link.Agrees capacity [])
    (hsame : link.channel.lines.isPressed event.button = event.pressed) :
    link.tell event = { link with answers := link.answers ++ [(event, .unchanged)] } := by
  rw [Link.tell, Link.notify, Channel.send_eq h.queue, h.known_eq_isPressed, if_pos hsame]
  exact drain_of_nil h.queue rfl

/-- To tell anything else goes through to the pin, since there is room. -/
theorem Agrees.tell_of_ne (h : link.Agrees capacity []) (capacity_pos : 0 < capacity)
    (hnew : link.channel.lines.isPressed event.button ≠ event.pressed) :
    link.tell event = { link with
      sender.known := link.sender.known.set event.button event.pressed
      channel.lines := ⟨link.channel.lines.pressed.set event.button event.pressed⟩
      board := Board.drive link.board event.button.pin (!event.pressed)
      answers := link.answers ++ [(event, .queued)]
      taken := link.taken ++ [event]
      counted := link.counted + 1 } := by
  rw [Link.tell, Link.notify, Channel.send_eq h.queue, h.known_eq_isPressed, if_neg hnew]
  rw [List.length_nil, if_pos capacity_pos, List.nil_append]
  simp only [Link.drain, Channel.drain, Lines.writeAll, Lines.write?, if_neg hnew, h.queue]
  rfl

/-- Nothing waits after a report that was drained. -/
theorem Agrees.tell (h : link.Agrees capacity []) (event : ButtonEvent) :
    (link.tell event).Agrees capacity [] := by
  obtain ⟨waiting, hnotify⟩ := h.notify event
  exact hnotify.drain

/-- A report changes its own line only. -/
theorem Agrees.isPressed_tell (h : link.Agrees capacity []) (capacity_pos : 0 < capacity)
    (event : ButtonEvent) (button : Button) :
    (link.tell event).channel.lines.isPressed button =
      if button = event.button then event.pressed else link.channel.lines.isPressed button := by
  by_cases hsame : link.channel.lines.isPressed event.button = event.pressed
  · rw [h.tell_of_eq hsame]
    split
    · next hbutton => rw [hbutton, hsame]
    · rfl
  · rw [h.tell_of_ne capacity_pos hsame]
    exact ButtonMap.get_set ..

/-! ## Reports of several buttons -/

theorem tellAll_cons (link : Link σ) (target : Button → Bool) (button : Button)
    (order : List Button) :
    link.tellAll target (button :: order) =
      (link.tell ⟨button, target button⟩).tellAll target order := rfl

theorem Agrees.tellAll (h : link.Agrees capacity []) (target : Button → Bool)
    (order : List Button) : (link.tellAll target order).Agrees capacity [] := by
  induction order generalizing link with
  | nil => exact h
  | cons button order ih => exact ih (h.tell _)

/-- The buttons that were told are as they were told to be, the others as they were. -/
theorem Agrees.isPressed_tellAll (h : link.Agrees capacity []) (capacity_pos : 0 < capacity)
    (target : Button → Bool) (order : List Button) (button : Button) :
    (link.tellAll target order).channel.lines.isPressed button =
      if button ∈ order then target button else link.channel.lines.isPressed button := by
  induction order generalizing link with
  | nil => rfl
  | cons told order ih =>
    rw [tellAll_cons, ih (h.tell _), h.isPressed_tell capacity_pos]
    by_cases htold : button = told
    · simp [htold]
    · simp [htold]

/-- To tell what all lines show does nothing. -/
theorem Agrees.tellAll_of_eq (h : link.Agrees capacity [])
    (hsame : ∀ button ∈ order, link.channel.lines.isPressed button = target button) :
    link.tellAll target order =
      { link with
        answers := link.answers ++
          order.map fun button => (⟨button, target button⟩, .unchanged) } := by
  induction order generalizing link with
  | nil => rw [List.map_nil, List.append_nil]; rfl
  | cons button order ih =>
    obtain ⟨hbutton, horder⟩ := List.forall_mem_cons.1 hsame
    have htell : link.tell ⟨button, target button⟩ = _ := h.tell_of_eq hbutton
    have hnext := h.tell ⟨button, target button⟩
    -- No line has changed, so that the others still show what they will be told.
    rw [tellAll_cons]
    rw [htell] at hnext ⊢
    rw [ih hnext horder, List.append_assoc]
    rfl

/-! ## Repairs -/

/-- However much was lost, everything is as it should be once all that waits was taken and every
    button was reported once more, in any order, with a drain after each report. Let there be room
    for one event, and let a queue and its only sender have come through any reports and takings.
    None of the new reports is dropped: each is answered `queued` and drives just one pin, or is
    answered `unchanged` and drives none. Afterwards the lines and the sender are as was reported;
    and if all this is done a second time, every report is answered `unchanged` and nothing else
    changes. -/
theorem repair_settles (capacity_pos : 0 < capacity) (board : σ) (actions : List Action)
    (target : Button → Bool) (horder : order.Perm Button.all) :
    let link := (start capacity board).run actions
    let repaired := link.repair target order
    (∀ done button rest, order = done ++ button :: rest →
      let event : ButtonEvent := ⟨button, target button⟩
      let before := link.repair target done
      let after := link.repair target (done ++ [button])
      (after.answers = before.answers ++ [(event, .queued)] ∧
        after.board.writes.toList = before.board.writes.toList ++ [event.pinWrite] ∧
        after.counted = before.counted + 1) ∨
      (after.answers = before.answers ++ [(event, .unchanged)] ∧
        after.board = before.board ∧ after.counted = before.counted)) ∧
    (∀ button, repaired.channel.lines.isPressed button = target button ∧
      repaired.sender.known.get button = target button) ∧
    repaired.repair target order =
      { repaired with
        answers := repaired.answers ++
          order.map fun button => (⟨button, target button⟩, .unchanged) } := by
  intro link repaired
  obtain ⟨waiting, hlink⟩ : ∃ waiting, link.Agrees capacity waiting :=
    (agrees_start capacity board).run actions
  have hrepaired : repaired.Agrees capacity [] := hlink.drain.tellAll target order
  have hlines (button : Button) : repaired.channel.lines.isPressed button = target button := by
    refine (hlink.drain.isPressed_tellAll capacity_pos target order button).trans (if_pos ?_)
    exact horder.mem_iff.2 button.mem_all
  refine ⟨fun done button rest _ => ?_, fun button => ⟨hlines button, ?_⟩, ?_⟩
  · -- A report comes to a queue in which nothing waits, whatever was told before it.
    intro event before after
    have hbefore : before.Agrees capacity [] := hlink.drain.tellAll target done
    have hafter : after = before.tell event := List.foldl_append
    rw [hafter]
    by_cases hsame : before.channel.lines.isPressed event.button = event.pressed
    · rw [hbefore.tell_of_eq hsame]
      exact .inr ⟨rfl, rfl, rfl⟩
    · rw [hbefore.tell_of_ne capacity_pos hsame]
      exact .inl ⟨rfl, Array.toList_push, rfl⟩
  · rw [hrepaired.known_eq_isPressed, hlines]
  · rw [repair, drain_of_nil hrepaired.queue rfl]
    exact hrepaired.tellAll_of_eq fun button _ => hlines button

/-- A queue with room for one event, by which a press and a release were lost. -/
def lossy : Link ScriptedBoard :=
  (start 1 {
    frequency := 1
    width := 8
    height := 8
    cycle := 0
    grid := #[0, 0, 0, 0, 0, 0, 0, 0]
    flags := {}
    bursts := [] }).run
    [.notify ⟨.down, true⟩, .notify ⟨.up, true⟩, .notify ⟨.down, false⟩, .drain]

/-- The lines show the wrong button until all are reported once more, the last one first. -/
theorem repair_settles_lossy :
    lossy.sender.dropped = 2 ∧ lossy.channel.lines.toList = [.down] ∧
      ∀ button, (lossy.repair (· = .up) Button.all.reverse).channel.lines.isPressed button =
        decide (button = .up) := by
  refine ⟨rfl, rfl, fun button => ?_⟩
  exact ((repair_settles (by decide : 0 < 1) _ _ _ Button.all.reverse_perm).2.1 button).1

end Link

end Handheld
