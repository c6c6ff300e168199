import Handheld.Board.Scripted
import Handheld.Keyboard
import Handheld.Proofs.Edges
import Mathlib.Data.List.DropRight
import Mathlib.Data.List.Nodup

/-!
# Held keys and their history

A keyboard remembers of each button no more than when it was last reported, and forgets even that
when it lets go of it. This is enough to tell what its whole history tells. `Holds.Log` is such a
history: the reports of keys and the expiries, in any order and at times that may go back, each with
the events that it led to.

* `Log.isHeld`: a button is held if it was reported since its last release in the log.
* `Log.lastReport?`: when it was reported last.
* `Remembers`: the keyboard remembers just this of the log, and the events of the log are all edges,
  in the sense of `edges`. A call preserves it (`Remembers.press`, `Remembers.expire`).

Since the events are edges, a channel that delivers them inline takes every one of them
(`Channel.deliver_of_edges`): the keyboard and the channel both debounce, and never disagree.
`events_of_history` says all this of a `Keypad`, a keyboard that delivers its events at once.
-/

namespace Handheld

variable {σ : Type}

/-- The button event that an event of the player is; none if it is to quit. -/
def HostEvent.button? : HostEvent → Option ButtonEvent
  | .button event => some event
  | .quit => none

theorem Button.nodup_all : Button.all.Nodup := by decide

/-! ## The keyboard -/

namespace Holds

/-- A report of a button tells something only if the button was not held. -/
theorem press_events (holds : Holds) (button : Button) (now : Nat) :
    (holds.press button now).1.filterMap HostEvent.button? =
      if holds.isHeld button then [] else [⟨button, true⟩] := by
  rw [press]
  split <;> rfl

theorem isHeld_press (holds : Holds) (button : Button) (now : Nat) (other : Button) :
    (holds.press button now).2.isHeld other =
      if other = button then true else holds.isHeld other := by
  rw [press, isHeld, ButtonMap.get_set]
  split <;> rfl

/-- An expiry tells of the stale buttons that they are released. -/
theorem expire_events (holds : Holds) (now : Nat) :
    (holds.expire now).1.filterMap HostEvent.button? =
      (Button.all.filter (holds.isStale now)).map (⟨·, false⟩) := by
  rw [expire, List.filterMap_map, ← List.filterMap_eq_map]
  rfl

theorem isHeld_expire (holds : Holds) (now : Nat) (button : Button) :
    (holds.expire now).2.isHeld button =
      if holds.isStale now button then false else holds.isHeld button := by
  rw [expire, isHeld, ButtonMap.get_ofFn]
  split <;> rfl

/-- What a keyboard is called for. -/
inductive Call
  /-- The terminal reports a key, be it anew or again. -/
  | press (button : Button) (now : Nat)
  /-- It is time to let go of what has been quiet for long enough. -/
  | expire (now : Nat)
  deriving DecidableEq, Repr

/-- One call, with the events that it leads to. -/
def call (holds : Holds) : Call → List HostEvent × Holds
  | .press button now => holds.press button now
  | .expire now => holds.expire now

/-! ## Histories -/

/-- A call with the events that it led to. -/
structure Entry where
  call : Call
  events : List HostEvent

namespace Entry

/-- Whether a button was released. -/
def releases (entry : Entry) (button : Button) : Bool :=
  decide (.button ⟨button, false⟩ ∈ entry.events)

/-- The time of the call if it was a report of a button. -/
def report? (entry : Entry) (button : Button) : Option Nat :=
  match entry.call with
  | .press reported now => if reported = button then some now else none
  | .expire _ => none

theorem report?_press (button : Button) (now : Nat) (events : List HostEvent) (other : Button) :
    report? ⟨.press button now, events⟩ other = if button = other then some now else none :=
  rfl

end Entry

/-- The calls of a keyboard with their events, the first one first. -/
abbrev Log := List Entry

namespace Log

/-- The entries since a button was last released, or all if it never was. -/
def sinceRelease (log : Log) (button : Button) : Log := log.rtakeWhile (!·.releases button)

/-- Whether a button was reported since it was last released. -/
def isHeld (log : Log) (button : Button) : Bool :=
  (log.sinceRelease button).any fun entry => (entry.report? button).isSome

/-- The time of the last report of a button. -/
def lastReport? (log : Log) (button : Button) : Option Nat :=
  (log.filterMap (·.report? button)).getLast?

/-- Whether a button is held but was last reported long enough before `now`. -/
def isStale (log : Log) (releaseAfter now : Nat) (button : Button) : Bool :=
  log.isHeld button && (log.lastReport? button).any fun seen => releaseAfter ≤ now - seen

/-- The button events of a log, in order. -/
def events (log : Log) : List ButtonEvent :=
  log.flatMap fun entry => entry.events.filterMap HostEvent.button?

variable {log : Log} {entry : Entry} {button : Button}

theorem isHeld_concat (log : Log) (entry : Entry) (button : Button) :
    isHeld (log ++ [entry]) button =
      if entry.releases button then false
      else (entry.report? button).isSome || log.isHeld button := by
  rw [isHeld, sinceRelease, List.rtakeWhile_concat]
  by_cases h : entry.releases button = true
  · rw [if_neg (by simp [h]), if_pos h]
    rfl
  · rw [if_pos (by simp [h]), if_neg h, List.any_append, List.any_cons, List.any_nil,
      Bool.or_false, Bool.or_comm]
    rfl

theorem lastReport?_concat (log : Log) (entry : Entry) (button : Button) :
    lastReport? (log ++ [entry]) button = (entry.report? button).or (log.lastReport? button) := by
  rw [lastReport?, List.filterMap_append]
  cases h : entry.report? button <;> simp [lastReport?, h]

/-- A button that is held was reported some time. -/
theorem isSome_lastReport? (h : log.isHeld button = true) : (log.lastReport? button).isSome := by
  obtain ⟨entry, hentry, hreport⟩ := List.any_eq_true.1 h
  obtain ⟨now, hnow⟩ := Option.isSome_iff_exists.1 hreport
  have hlog : entry ∈ log := (List.rtakeWhile_suffix _ _).mem hentry
  have hreported : now ∈ log.filterMap (·.report? button) :=
    List.mem_filterMap.2 ⟨entry, hlog, hnow⟩
  rw [lastReport?, List.getLast?_isSome]
  exact List.ne_nil_of_mem hreported

theorem events_concat (log : Log) (entry : Entry) :
    events (log ++ [entry]) = log.events ++ entry.events.filterMap HostEvent.button? := by
  rw [events, List.flatMap_append, List.flatMap_singleton]
  rfl

end Log

/-! ## What a keyboard remembers -/

/-- A keyboard remembers when each held button was last reported, and its events so far are all
    edges, which tell of the held buttons that they are pressed. -/
structure Remembers (holds : Holds) (log : Log) : Prop where
  lastSeen : ∀ button,
    holds.lastSeen.get button = if log.isHeld button then log.lastReport? button else none
  edges : edges log.events = log.events
  states : ∀ button, stateAfter false log.events button = log.isHeld button

variable {holds : Holds} {log : Log} {button : Button} {now : Nat}

theorem remembers_start (releaseAfter : Nat) : Remembers { releaseAfter } [] where
  lastSeen := ButtonMap.get_const none
  edges := rfl
  states _ := rfl

theorem Remembers.isHeld_eq (h : holds.Remembers log) (button : Button) :
    holds.isHeld button = log.isHeld button := by
  rw [isHeld, h.lastSeen]
  cases hheld : log.isHeld button with
  | true => exact Log.isSome_lastReport? hheld
  | false => rfl

theorem Remembers.isStale_eq (h : holds.Remembers log) (now : Nat) (button : Button) :
    holds.isStale now button = log.isStale holds.releaseAfter now button := by
  rw [isStale, h.lastSeen, Log.isStale]
  cases log.isHeld button <;> rfl

/-- What an entry adds to a log that a keyboard remembers. It is enough to know of the entry whom it
    releases and reports, and that its events are edges that tell so. -/
theorem Remembers.concat (h : holds.Remembers log) {next : Holds} {entry : Entry}
    (hseen : ∀ button, next.lastSeen.get button =
      if entry.releases button then none
      else (entry.report? button).or (holds.lastSeen.get button))
    (hedges : edgesAfter log.events (entry.events.filterMap HostEvent.button?) =
      entry.events.filterMap HostEvent.button?)
    (hstates : ∀ button,
      stateAfter (log.isHeld button) (entry.events.filterMap HostEvent.button?) button =
        if entry.releases button then false
        else (entry.report? button).isSome || log.isHeld button) :
    next.Remembers (log ++ [entry]) := by
  refine ⟨fun button => ?_, ?_, fun button => ?_⟩
  · rw [hseen, h.lastSeen, Log.isHeld_concat, Log.lastReport?_concat]
    cases entry.releases button <;> cases entry.report? button <;> simp
  · rw [Log.events_concat, Handheld.edges, edgesAfter_append, List.nil_append, hedges]
    exact congrArg (· ++ _) h.edges
  · rw [Log.events_concat, stateAfter_append, h.states, hstates, Log.isHeld_concat]

/-- A report releases nothing. It is an event if the button was not held, and tells that it is. -/
theorem Remembers.press (h : holds.Remembers log) (button : Button) (now : Nat) :
    (holds.press button now).2.Remembers
      (log ++ [⟨.press button now, (holds.press button now).1⟩]) := by
  have hreleases : ∀ other,
      Entry.releases ⟨.press button now, (holds.press button now).1⟩ other = false := by
    intro other
    rw [Entry.releases, Holds.press]
    split <;> simp
  refine h.concat (fun other => ?_) ?_ fun other => ?_
  · rw [hreleases, Entry.report?_press, Holds.press, ButtonMap.get_set]
    simp only [eq_comm (a := other)]
    split <;> rfl
  · rw [press_events, h.isHeld_eq, ← h.states]
    split
    · rfl
    · next hnew => rw [edgesAfter, if_neg hnew]; rfl
  · rw [hreleases, Entry.report?_press, press_events, h.isHeld_eq, if_neg Bool.false_ne_true]
    by_cases hheld : log.isHeld button = true
    · rw [if_pos hheld]
      split
      · next hsame => exact hsame ▸ hheld
      · rfl
    · rw [if_neg hheld]
      refine (stateAfter_map _ true [button] other).trans ?_
      simp only [List.mem_singleton, eq_comm (a := other)]
      split <;> rfl

/-- An expiry releases the stale buttons, all of which are held, and reports none. -/
theorem Remembers.expire (h : holds.Remembers log) (now : Nat) :
    (holds.expire now).2.Remembers (log ++ [⟨.expire now, (holds.expire now).1⟩]) := by
  have hreleases : ∀ button,
      Entry.releases ⟨.expire now, (holds.expire now).1⟩ button = holds.isStale now button := by
    intro button
    simp [Entry.releases, Holds.expire, Button.mem_all]
  refine h.concat (fun button => ?_) ?_ fun button => ?_
  · rw [hreleases, Holds.expire, ButtonMap.get_ofFn]
    rfl
  · rw [expire_events]
    refine edgesAfter_map (List.Nodup.filter _ Button.nodup_all) fun button hbutton => ?_
    have hstale := (List.mem_filter.1 hbutton).2
    rw [h.isStale_eq, Log.isStale, Bool.and_eq_true] at hstale
    rw [h.states, hstale.1]
    exact Bool.true_eq_false.mp
  · rw [hreleases, expire_events, stateAfter_map]
    simp only [List.mem_filter, Button.mem_all, true_and]
    rfl

theorem Remembers.call (h : holds.Remembers log) (call : Call) :
    (holds.call call).2.Remembers (log ++ [⟨call, (holds.call call).1⟩]) := by
  cases call with
  | press button now => exact h.press button now
  | expire now => exact h.expire now

theorem releaseAfter_call (holds : Holds) (call : Call) :
    (holds.call call).2.releaseAfter = holds.releaseAfter := by
  cases call <;> rfl

end Holds

/-! ## The channel -/

section Delivery

variable [Board σ] {channel : Channel} {board : σ} {earlier events : List ButtonEvent}

/-- Deliver events inline, one after the other: what each is answered, and what becomes of the
    channel and the board. -/
def Channel.deliver (channel : Channel) (board : σ) :
    List ButtonEvent → List (ButtonEvent × Notice) × Channel × σ
  | [] => ([], channel, board)
  | event :: events =>
    let (notice, channel, board) := channel.notify board event
    let (answers, channel, board) := channel.deliver board events
    ((event, notice) :: answers, channel, board)

/-- An edge is applied, and the lines follow it. -/
theorem Channel.notify_of_edge {event : ButtonEvent}
    (hlines : ∀ button, channel.lines.isPressed button = stateAfter false earlier button)
    (hnew : stateAfter false earlier event.button ≠ event.pressed) (board : σ) :
    ∃ next written, channel.notify board event = (.applied, next, written) ∧
      ∀ button, next.lines.isPressed button = stateAfter false (earlier ++ [event]) button := by
  refine ⟨{ channel with lines := ⟨channel.lines.pressed.set event.button event.pressed⟩ },
    Board.drive board event.button.pin (!event.pressed), ?_, isPressed_set hlines event⟩
  rw [notify, Lines.write?, hlines, if_neg hnew]

/-- Edges are all applied, and the lines follow them. -/
theorem Channel.deliver_of_edges
    (hlines : ∀ button, channel.lines.isPressed button = stateAfter false earlier button)
    (hedges : edgesAfter earlier events = events) (board : σ) :
    (channel.deliver board events).1 = events.map (·, .applied) ∧
      ∀ button, (channel.deliver board events).2.1.lines.isPressed button =
        stateAfter false (earlier ++ events) button := by
  induction events generalizing channel board earlier with
  | nil =>
    rw [List.append_nil]
    exact ⟨rfl, hlines⟩
  | cons event events ih =>
    obtain ⟨hnew, hedges⟩ := edgesAfter_cons_eq_self hedges
    obtain ⟨next, written, hnotify, hnext⟩ := notify_of_edge hlines hnew board
    rw [deliver, hnotify, List.append_cons]
    exact (ih hnext hedges written).imp_left (congrArg (_ :: ·))

end Delivery

/-! ## Keypads -/

/-- A keyboard that delivers its events inline, with the log of its calls and all answers. -/
structure Keypad (σ : Type) where
  holds : Holds
  channel : Channel := {}
  board : σ
  log : Holds.Log := []
  answers : List (ButtonEvent × Notice) := []

namespace Keypad

/-- A keyboard that was not called yet, and a channel on which every button is released. -/
def start (releaseAfter : Nat) (board : σ) : Keypad σ := { holds := { releaseAfter }, board }

variable {keypad : Keypad σ} {releaseAfter : Nat} {board : σ}

/-- Call the keyboard and deliver its events at once. -/
def call [Board σ] (keypad : Keypad σ) (call : Holds.Call) : Keypad σ :=
  let (events, holds) := keypad.holds.call call
  let (answers, channel, board) :=
    keypad.channel.deliver keypad.board (events.filterMap HostEvent.button?)
  { holds
    channel
    board
    log := keypad.log ++ [⟨call, events⟩]
    answers := keypad.answers ++ answers }

/-- Any number of calls. -/
def run [Board σ] (keypad : Keypad σ) (calls : List Holds.Call) : Keypad σ :=
  calls.foldl call keypad

/-- The keyboard remembers its log, all of whose events were applied; the lines follow them. -/
structure InTune (keypad : Keypad σ) : Prop where
  remembers : keypad.holds.Remembers keypad.log
  answers : keypad.answers = keypad.log.events.map (·, .applied)
  lines : ∀ button,
    keypad.channel.lines.isPressed button = stateAfter false keypad.log.events button

theorem inTune_start (releaseAfter : Nat) (board : σ) : (start releaseAfter board).InTune where
  remembers := Holds.remembers_start releaseAfter
  answers := rfl
  lines := ButtonMap.get_const false

/-- A call adds edges to the events of the log, so that the channel takes them all. -/
theorem InTune.call [Board σ] (h : keypad.InTune) (call : Holds.Call) :
    (keypad.call call).InTune := by
  have hremembers := h.remembers.call call
  have hlog : (keypad.call call).log.events =
      keypad.log.events ++ (keypad.holds.call call).1.filterMap HostEvent.button? :=
    Holds.Log.events_concat _ _
  have hedges : edgesAfter keypad.log.events
      ((keypad.holds.call call).1.filterMap HostEvent.button?) =
        (keypad.holds.call call).1.filterMap HostEvent.button? := by
    have hall := hremembers.edges
    rw [Holds.Log.events_concat, edges, edgesAfter_append, List.nil_append] at hall
    exact List.append_inj_right hall (congrArg List.length h.remembers.edges)
  obtain ⟨hanswers, hlines⟩ := Channel.deliver_of_edges h.lines hedges keypad.board
  refine ⟨hremembers, ?_, fun button => ?_⟩
  · rw [hlog, List.map_append, ← h.answers, ← hanswers]
    rfl
  · rw [hlog]
    exact hlines button

theorem InTune.run [Board σ] (h : keypad.InTune) (calls : List Holds.Call) :
    (keypad.run calls).InTune := by
  induction calls generalizing keypad with
  | nil => exact h
  | cons call calls ih => exact ih (h.call call)

theorem releaseAfter_run [Board σ] (keypad : Keypad σ) (calls : List Holds.Call) :
    (keypad.run calls).holds.releaseAfter = keypad.holds.releaseAfter := by
  induction calls generalizing keypad with
  | nil => rfl
  | cons call calls ih => exact (ih (keypad.call call)).trans (keypad.holds.releaseAfter_call call)

theorem calls_run [Board σ] (keypad : Keypad σ) (calls : List Holds.Call) :
    (keypad.run calls).log.map (·.call) = keypad.log.map (·.call) ++ calls := by
  induction calls generalizing keypad with
  | nil => exact (List.append_nil _).symm
  | cons call calls ih =>
    refine (ih (keypad.call call)).trans ?_
    change (keypad.log ++ [_]).map _ ++ calls = _
    rw [List.map_append, List.append_assoc]
    rfl

/-- What a keyboard does is told by its history, whatever it was called for and at whatever times. A
    report of a key is an event, a press, just if its button is not held by the history. An expiry
    releases, in index order, the buttons that are held and whose last report is long enough ago;
    one at a later time than the expiry counts as made just now. So the events of each button
    alternate, the first one being a press; a channel that is given them at once applies every one
    of them, and a button is pressed on it just if it is held. -/
theorem events_of_history [Board σ] {calls : List Holds.Call}
    (hkeypad : keypad = (start releaseAfter board).run calls) :
    keypad.log.map (·.call) = calls ∧
    (∀ button now, (keypad.holds.press button now).1 =
      if keypad.log.isHeld button then [] else [.button ⟨button, true⟩]) ∧
    (∀ now, (keypad.holds.expire now).1 =
      (Button.all.filter fun button => keypad.log.isHeld button &&
        (keypad.log.lastReport? button).any fun seen => releaseAfter ≤ now - seen).map
          fun button => .button ⟨button, false⟩) ∧
    (∀ button, List.IsChain (· ≠ ·) (false :: states keypad.log.events button)) ∧
    keypad.answers = keypad.log.events.map (·, .applied) ∧
    ∀ button, keypad.channel.lines.isPressed button = keypad.log.isHeld button := by
  have h : keypad.InTune := hkeypad ▸ (inTune_start releaseAfter board).run calls
  have hrelease : keypad.holds.releaseAfter = releaseAfter := by rw [hkeypad, releaseAfter_run]; rfl
  have hcalls : keypad.log.map (·.call) = calls := by rw [hkeypad, calls_run]; rfl
  refine ⟨hcalls, fun button now => ?_, fun now => ?_, fun button => ?_, h.answers,
    fun button => ?_⟩
  · rw [Holds.press, h.remembers.isHeld_eq]
  · rw [Holds.expire, funext (h.remembers.isStale_eq now), hrelease]
    rfl
  · rw [← h.remembers.edges]
    exact isChain_states_edges keypad.log.events button
  · rw [h.lines, h.remembers.states]

/-- Two keys are struck. One of them is reported again at an earlier time, from which on it counts
    as quiet, so that it is let go of at 120. -/
def struckBack : Keypad ScriptedBoard :=
  (start 100 {
    frequency := 1
    width := 8
    height := 8
    cycle := 0
    grid := #[0, 0, 0, 0, 0, 0, 0, 0]
    flags := {}
    bursts := [] }).run [.press .a 50, .press .b 50, .press .a 10, .expire 120]

/-- The key let go of is an event when it is struck again; the other is let go of at 150. -/
theorem events_of_history_struckBack :
    (struckBack.holds.press .a 130).1 = [.button ⟨.a, true⟩] ∧
      (struckBack.holds.expire 150).1 = [.button ⟨.b, false⟩] ∧
      struckBack.channel.lines.isPressed .b = true := by
  have hstruck : struckBack = (start 100 _).run _ := rfl
  obtain ⟨-, hpress, hexpire, -, -, hpressed⟩ := events_of_history hstruck
  exact ⟨(hpress .a 130).trans rfl, (hexpire 150).trans rfl, (hpressed .b).trans rfl⟩

end Keypad

end Handheld
