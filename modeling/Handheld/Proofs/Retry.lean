import Handheld.Board.Scripted
import Handheld.Proofs.Holding
import Handheld.Proofs.Mirror

/-!
# Presses that get lost

A sender keeps to itself what it could not hand over, so that the next report of the same state is
tried again. A keyboard tells of a held key only once, though: what the terminal repeats of it is no
event (`Holds.press`). A press that was dropped since the queue was full is therefore not tried
again while the key is held, however often the terminal reports it and however much room there is.

`Desk` is a keyboard in front of a queue. What the keyboard tells is reported in order, while the
other end of the queue goes its own way. `Desk.known_press_iff` says when the sender knows of a
press after a report of the key: unless the key is held and its press was lost.
-/

namespace Handheld

variable {σ : Type}

/-- The last report of a button, with what it was answered. -/
def lastAnswer (answers : List (ButtonEvent × Notice)) (button : Button) :
    Option (ButtonEvent × Notice) :=
  (answers.filter (·.1.button = button)).getLast?

theorem lastAnswer_concat (answers : List (ButtonEvent × Notice)) (event : ButtonEvent)
    (notice : Notice) (button : Button) :
    lastAnswer (answers ++ [(event, notice)]) button =
      if event.button = button then some (event, notice) else lastAnswer answers button := by
  rw [lastAnswer, List.filter_append]
  by_cases h : event.button = button <;> simp [lastAnswer, h]

theorem button_of_lastAnswer {answers : List (ButtonEvent × Notice)} {event : ButtonEvent}
    {notice : Notice} {button : Button} (h : lastAnswer answers button = some (event, notice)) :
    event.button = button :=
  of_decide_eq_true (List.mem_filter.1 (List.mem_of_getLast? h)).2

/-- The last report of a button tells the state that all reports tell. -/
theorem stateAfter_answers (answers : List (ButtonEvent × Notice)) (button : Button) :
    stateAfter false (answers.map (·.1)) button =
      ((lastAnswer answers button).map (·.1.pressed)).getD false := by
  induction answers using List.reverseRecOn with
  | nil => rfl
  | append_singleton answers answer ih =>
    rw [List.map_append, List.map_singleton, stateAfter_concat, lastAnswer_concat, ih]
    split <;> rfl

/-- What a sender knows of a button whose last report is the one given. -/
def recalled : Option (ButtonEvent × Notice) → Bool
  | none => false
  | some (event, notice) => if notice = .dropped then !event.pressed else event.pressed

namespace Link

variable {link : Link σ} {capacity : Nat} {waiting : List ButtonEvent}

/-- A sender that knows what was reported last, unless that was dropped, does so after one more
    report. -/
theorem Agrees.recalled_notify (h : link.Agrees capacity waiting)
    (hknown : ∀ button, link.sender.known.get button = recalled (lastAnswer link.answers button))
    (event : ButtonEvent) (button : Button) :
    (link.notify event).sender.known.get button =
      recalled (lastAnswer (link.notify event).answers button) := by
  rw [Link.notify, Channel.send_eq h.queue]
  by_cases hsame : link.sender.known.get event.button = event.pressed
  · rw [if_pos hsame, lastAnswer_concat]
    dsimp only
    split
    · next hbutton => exact hbutton ▸ hsame
    · exact hknown button
  · by_cases hfree : waiting.length < capacity
    · rw [if_neg hsame, if_pos hfree, lastAnswer_concat, ButtonMap.get_set]
      simp only [eq_comm (a := button)]
      split
      · rfl
      · exact hknown button
    · rw [if_neg hsame, if_neg hfree, lastAnswer_concat]
      dsimp only
      split
      · next hbutton => exact hbutton ▸ Bool.eq_not_of_ne hsame
      · exact hknown button

variable [Board σ]

theorem sender_take (link : Link σ) : link.take.sender = link.sender := by
  rw [take]
  split <;> rfl

theorem answers_take (link : Link σ) : link.take.answers = link.answers := by
  rw [take]
  split <;> rfl

end Link

/-! ## Desks -/

/-- A keyboard in front of a queue. -/
structure Desk (σ : Type) where
  holds : Holds
  /-- What the keyboard has told and was not reported yet, oldest first. -/
  pending : List ButtonEvent := []
  link : Link σ

namespace Desk

/-- A keyboard and a new queue. -/
def start (releaseAfter capacity : Nat) (board : σ) : Desk σ :=
  { holds := { releaseAfter }, link := .start capacity board }

/-- What the keyboard tells waits to be reported. -/
def tell (desk : Desk σ) (told : List HostEvent × Holds) : Desk σ :=
  { desk with holds := told.2, pending := desk.pending ++ told.1.filterMap HostEvent.button? }

/-- Report the oldest of what the keyboard has told. -/
def report (desk : Desk σ) : Desk σ :=
  match desk.pending with
  | [] => desk
  | event :: pending => { desk with pending, link := desk.link.notify event }

/-- What can happen. -/
inductive Action
  /-- The terminal reports a key, be it anew or again. -/
  | key (button : Button) (now : Nat)
  /-- The keyboard lets go of what has been quiet for long enough. -/
  | expire (now : Nat)
  | report
  /-- The other end takes the oldest event that waits. -/
  | take
  /-- The other end takes all events that wait. -/
  | drain

section Actions

variable [Board σ]

/-- One action. -/
def act (desk : Desk σ) : Action → Desk σ
  | .key button now => desk.tell (desk.holds.press button now)
  | .expire now => desk.tell (desk.holds.expire now)
  | .report => desk.report
  | .take => { desk with link := desk.link.take }
  | .drain => { desk with link := desk.link.drain }

/-- Any number of actions. -/
def run (desk : Desk σ) (actions : List Action) : Desk σ := actions.foldl act desk

end Actions

/-- The last report of a button was a press that was dropped. -/
def Lost (desk : Desk σ) (button : Button) : Prop :=
  lastAnswer desk.link.answers button = some (⟨button, true⟩, .dropped)

/-- Whether another event can wait in the queue. -/
def hasRoom (desk : Desk σ) : Bool := desk.link.channel.queue.any Queue.hasRoom

/-! ## The invariant -/

/-- What the keyboard, the sender and the reports know of each other. -/
structure Sound (desk : Desk σ) : Prop where
  /-- The sender and the lines agree. -/
  agrees : ∃ capacity waiting, desk.link.Agrees capacity waiting
  /-- The sender knows what was reported last, unless that was dropped. -/
  known : ∀ button,
    desk.link.sender.known.get button = recalled (lastAnswer desk.link.answers button)
  /-- The keyboard holds what it has told to be pressed. -/
  held : ∀ button, desk.holds.isHeld button =
    stateAfter false (desk.link.answers.map (·.1) ++ desk.pending) button

variable {desk : Desk σ} {button : Button} {now : Nat}

theorem sound_start (releaseAfter capacity : Nat) (board : σ) :
    (start releaseAfter capacity board).Sound where
  agrees := ⟨capacity, [], Link.agrees_start capacity board⟩
  known button := ButtonMap.get_const false button
  held button := congrArg Option.isSome (ButtonMap.get_const none button)

/-- What the keyboard tells when a key is reported is that the button is held. -/
theorem Sound.key (h : desk.Sound) (button : Button) (now : Nat) :
    (desk.tell (desk.holds.press button now)).Sound := by
  refine ⟨h.agrees, h.known, fun other => ?_⟩
  simp only [tell]
  rw [Holds.isHeld_press, Holds.press_events, ← List.append_assoc, stateAfter_append, ← h.held]
  by_cases hheld : desk.holds.isHeld button = true
  · rw [if_pos hheld]
    split
    · next hother => exact (hother ▸ hheld).symm
    · rfl
  · rw [if_neg hheld]
    simpa using (stateAfter_map (desk.holds.isHeld other) true [button] other).symm

/-- What it tells when it lets go of buttons is that they are released. -/
theorem Sound.expire (h : desk.Sound) (now : Nat) : (desk.tell (desk.holds.expire now)).Sound := by
  refine ⟨h.agrees, h.known, fun other => ?_⟩
  simp only [tell]
  rw [Holds.isHeld_expire, Holds.expire_events, ← List.append_assoc, stateAfter_append, ← h.held,
    stateAfter_map]
  simp only [List.mem_filter, Button.mem_all, true_and]

/-- A report moves an event from those that were told to those that were answered. -/
theorem Sound.report (h : desk.Sound) : desk.report.Sound := by
  obtain ⟨⟨capacity, waiting, hagrees⟩, hknown, hheld⟩ := h
  rw [Desk.report]
  split
  · exact ⟨⟨capacity, waiting, hagrees⟩, hknown, hheld⟩
  · next event pending hpending =>
    refine ⟨⟨capacity, hagrees.notify event⟩, fun button => ?_, fun button => ?_⟩
    · exact hagrees.recalled_notify hknown event button
    · rw [hpending] at hheld
      simp only [Link.notify, List.map_append, List.map_singleton, List.append_assoc,
        List.singleton_append]
      exact hheld button

/-- Every action preserves the invariant. -/
theorem Sound.act [Board σ] (h : desk.Sound) (action : Action) : (desk.act action).Sound := by
  cases action with
  | key button now => exact h.key button now
  | expire now => exact h.expire now
  | report => exact h.report
  | take =>
    obtain ⟨⟨capacity, waiting, hagrees⟩, hknown, hheld⟩ := h
    exact ⟨⟨capacity, hagrees.act .take⟩, by
      simpa only [Desk.act, Link.sender_take, Link.answers_take] using hknown, by
      simpa only [Desk.act, Link.answers_take] using hheld⟩
  | drain =>
    obtain ⟨⟨capacity, waiting, hagrees⟩, hknown, hheld⟩ := h
    exact ⟨⟨capacity, [], hagrees.drain⟩, hknown, hheld⟩

theorem Sound.run [Board σ] (h : desk.Sound) (actions : List Action) :
    (desk.run actions).Sound := by
  induction actions generalizing desk with
  | nil => exact h
  | cons action actions ih => exact ih (h.act action)

/-! ## What follows -/

/-- If a button is held, its last report told of the press, once all was reported. -/
theorem Sound.lastAnswer_of_held (h : desk.Sound) (hpending : desk.pending = [])
    (hheld : desk.holds.isHeld button = true) :
    ∃ notice, lastAnswer desk.link.answers button = some (⟨button, true⟩, notice) := by
  have hstate := h.held button
  rw [hheld, hpending, List.append_nil, stateAfter_answers] at hstate
  cases hlast : lastAnswer desk.link.answers button with
  | none =>
    rw [hlast] at hstate
    cases hstate
  | some answer =>
    obtain ⟨⟨other, pressed⟩, notice⟩ := answer
    rw [hlast] at hstate
    have hbutton : other = button := button_of_lastAnswer hlast
    cases hbutton
    cases hstate
    exact ⟨notice, rfl⟩

/-- So the sender knows of a held button unless the press was lost. -/
theorem Sound.known_of_held (h : desk.Sound) (hpending : desk.pending = [])
    (hheld : desk.holds.isHeld button = true) :
    desk.link.sender.known.get button = true ↔ ¬desk.Lost button := by
  obtain ⟨notice, hlast⟩ := h.lastAnswer_of_held hpending hheld
  rw [h.known, Lost, hlast, recalled]
  by_cases hdropped : notice = .dropped <;> simp [hdropped]

/-- A report of a held key tells nothing. -/
theorem report_key_of_held [Board σ] (hpending : desk.pending = [])
    (hheld : desk.holds.isHeld button = true) (now : Nat) :
    (desk.run [.key button now, .report]).link = desk.link := by
  have htold : (desk.tell (desk.holds.press button now)).pending = [] := by
    rw [tell, Holds.press_events, if_pos hheld, List.append_nil, hpending]
  change (desk.tell (desk.holds.press button now)).report.link = desk.link
  rw [report, htold]
  rfl

/-- A report of any other key is handed over at once if there is room. -/
theorem Sound.known_of_not_held [Board σ] (h : desk.Sound) (hpending : desk.pending = [])
    (hroom : desk.hasRoom = true) (hheld : ¬desk.holds.isHeld button = true) (now : Nat) :
    (desk.run [.key button now, .report]).link.sender.known.get button = true := by
  obtain ⟨⟨capacity, waiting, hagrees⟩, -, -⟩ := h
  have htold : (desk.tell (desk.holds.press button now)).pending = [⟨button, true⟩] := by
    rw [tell, Holds.press_events, if_neg hheld, hpending, List.nil_append]
  have hfree : waiting.length < capacity := by
    rw [hasRoom, hagrees.queue] at hroom
    exact of_decide_eq_true hroom
  change (desk.tell (desk.holds.press button now)).report.link.sender.known.get button = true
  rw [Desk.report, htold]
  change (desk.link.notify ⟨button, true⟩).sender.known.get button = true
  rw [Link.notify, Channel.send_eq hagrees.queue]
  by_cases hsame : desk.link.sender.known.get button = true
  · rw [if_pos hsame]
    exact hsame
  · rw [if_neg hsame, if_pos hfree, ButtonMap.get_set, if_pos rfl]

/-! ## Lost for the whole hold -/

/-- A button is held, its press was dropped, and nothing else about it is to be reported. -/
structure Missed (desk : Desk σ) (button : Button) : Prop where
  held : desk.holds.isHeld button = true
  lost : desk.Lost button
  pending : ∀ event ∈ desk.pending, event.button ≠ button

/-- What the keyboard tells is not about a button that is held before and after. -/
theorem Missed.tell (h : desk.Missed button) {told : List HostEvent × Holds}
    (hheld : told.2.isHeld button = true)
    (htold : ∀ event ∈ told.1.filterMap HostEvent.button?, event.button ≠ button) :
    (desk.tell told).Missed button :=
  ⟨hheld, h.lost, fun event hevent =>
    (List.mem_append.1 hevent).elim (h.pending event) (htold event)⟩

/-- The press stays lost for as long as the button is held, whatever happens. -/
theorem Missed.act [Board σ] (h : desk.Missed button) (action : Action)
    (hheld : (desk.act action).holds.isHeld button = true) : (desk.act action).Missed button := by
  cases action with
  | key other now =>
    refine h.tell hheld fun event hevent => ?_
    rw [Holds.press_events] at hevent
    split at hevent
    · cases hevent
    · next hfirst =>
      -- Another button was not held so far.
      rw [List.mem_singleton.1 hevent]
      rintro rfl
      exact hfirst h.held
  | expire now =>
    refine h.tell hheld fun event hevent => ?_
    rw [Holds.expire_events] at hevent
    obtain ⟨other, hother, rfl⟩ := List.mem_map.1 hevent
    rintro rfl
    -- A button that is let go is not held any more.
    rw [act, Desk.tell, Holds.isHeld_expire, if_pos (List.mem_filter.1 hother).2] at hheld
    cases hheld
  | report =>
    obtain ⟨hbefore, hlost, hpending⟩ := h
    change desk.report.Missed button
    rw [Desk.report]
    split
    · exact ⟨hbefore, hlost, hpending⟩
    · next event pending hevents =>
      rw [hevents] at hpending
      obtain ⟨hevent, hrest⟩ := List.forall_mem_cons.1 hpending
      refine ⟨hbefore, ?_, hrest⟩
      simp only [Lost, Link.notify, lastAnswer_concat, if_neg hevent]
      exact hlost
  | take =>
    have hlost : lastAnswer desk.link.take.answers button = some (⟨button, true⟩, .dropped) := by
      rw [Link.answers_take, h.lost]
    exact ⟨hheld, hlost, h.pending⟩
  | drain => exact ⟨hheld, h.lost, h.pending⟩

theorem Missed.run [Board σ] (h : desk.Missed button) (actions : List Action)
    (hheld : ∀ count, (desk.run (actions.take count)).holds.isHeld button = true) :
    (desk.run actions).Missed button := by
  induction actions generalizing desk with
  | nil => exact h
  | cons action actions ih =>
    exact ih (h.act action (hheld 1)) fun count => hheld (count + 1)

/-- Whether a sender knows of a press after the key was reported. Let a keyboard stand in front of a
    queue, let all that it has told be reported, and let there be room. If a key is reported now,
    the sender then knows that its button is pressed, unless the button is held already and its
    press was lost. A report of a held key reaches neither the sender nor the queue; so a press that
    was lost stays unknown for as long as the button is held, whatever else happens. -/
theorem known_press_iff [Board σ] {releaseAfter capacity : Nat} {board : σ} {actions : List Action}
    (hdesk : desk = (start releaseAfter capacity board).run actions) (hpending : desk.pending = [])
    (hroom : desk.hasRoom = true) (button : Button) (now : Nat) :
    ((desk.run [.key button now, .report]).link.sender.known.get button = true ↔
      ¬(desk.holds.isHeld button = true ∧ desk.Lost button)) ∧
    (desk.holds.isHeld button = true → (desk.run [.key button now, .report]).link = desk.link) ∧
    (desk.holds.isHeld button = true → desk.Lost button → ∀ later : List Action,
      (∀ count, (desk.run (later.take count)).holds.isHeld button = true) →
      (desk.run later).link.sender.known.get button = false) := by
  have h : desk.Sound := hdesk ▸ (sound_start releaseAfter capacity board).run actions
  refine ⟨?_, fun hheld => report_key_of_held hpending hheld now,
    fun hheld hlost later hlater => ?_⟩
  · by_cases hheld : desk.holds.isHeld button = true
    · rw [report_key_of_held hpending hheld, h.known_of_held hpending hheld, and_iff_right hheld]
    · exact iff_of_true (h.known_of_not_held hpending hroom hheld now) fun h => hheld h.1
  · have hmissed : desk.Missed button := ⟨hheld, hlost, fun event hevent => by
      rw [hpending] at hevent
      cases hevent⟩
    rw [(h.run later).known, (hmissed.run later hlater).lost]
    rfl

/-- Two keys are struck in front of a queue with room for one event, which is drained after that. -/
def struckTwo : Desk ScriptedBoard :=
  (start 400 1 {
    frequency := 1
    width := 8
    height := 8
    cycle := 0
    grid := #[0, 0, 0, 0, 0, 0, 0, 0]
    flags := {}
    bursts := [] }).run
    [.key .down 0, .report, .key .up 10, .report, .drain]

/-- The second press is lost, and the report of its key at 50 does not bring it back. -/
theorem known_press_iff_struckTwo :
    struckTwo.pending = [] ∧ struckTwo.hasRoom = true ∧
      (struckTwo.run [.key .up 50, .report]).link.sender.known.get .up ≠ true := by
  have hpending : struckTwo.pending = [] := rfl
  have hroom : struckTwo.hasRoom = true := rfl
  refine ⟨hpending, hroom, fun hknown => ?_⟩
  exact (known_press_iff rfl hpending hroom .up 50).1.1 hknown ⟨rfl, rfl⟩

/-- So a press that was dropped is not tried again by the next report of its key, although the key
    is held and there is room. -/
theorem not_known_of_struckTwo :
    struckTwo.hasRoom = true ∧ struckTwo.holds.isHeld .up = true ∧
      (struckTwo.run [.key .up 50, .report]).link.sender.known.get .up = false :=
  ⟨rfl, rfl, rfl⟩

end Desk

end Handheld
