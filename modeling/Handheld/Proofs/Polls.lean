import Handheld.Keyboard
import Mathlib.Data.List.Induction
import Mathlib.Tactic.Common

/-!
# Polls of the keyboard

What a keyboard puts out when it is polled, told without what it remembers. Each report of the
terminal means one thing to the player's side, whatever the modifiers, or nothing
(`TerminalEvent.meaning?`), and each poll has a list of meanings. Requests to quit are all passed
on. Of the presses only the first one of each button is (`firsts`), and the question is since when:

* if buttons are let go of at once, since the poll began, and all that were pressed in it are
  released at its end;
* if the time to let go is never reached (`Unreached`), since the very first poll.

The keyboard itself remembers no more than when each button was last reported. `Keyboard.recalling`
is the keyboard that remembers this of given reports, and the steps of a poll lead from one such
keyboard to another: a report is added (`read_recalling`), and at the end of the poll either all
reports are forgotten (`expire_recalling_zero`) or none (`expire_recalling_of_lt`). From there
`Keyboard.polls_by_meaning` goes through the polls.
-/

namespace Handheld

/-! ## Meanings -/

/-- What a key can mean. -/
inductive Meaning
  | quit
  | press (button : Button)
  deriving DecidableEq, Repr

/-- The event of the player that is meant. -/
def Meaning.event : Meaning → HostEvent
  | .quit => .quit
  | .press button => .button ⟨button, true⟩

/-- What a key means, if it means anything. -/
def KeyCode.meaning? : KeyCode → Option Meaning
  | .char 'q' => some .quit
  | .escape => some .quit
  | .up => some (.press .up)
  | .down => some (.press .down)
  | .left => some (.press .left)
  | .right => some (.press .right)
  | .char 'z' => some (.press .a)
  | .char 'x' => some (.press .b)
  | _ => none

/-- What a report of the terminal means. The mouse means nothing, and modifiers change nothing. -/
def TerminalEvent.meaning? : TerminalEvent → Option Meaning
  | .key code _ => code.meaning?
  | .mouse => none

/-- The meanings of reports, in order. -/
def meanings (reports : List (TerminalEvent × Nat)) : List Meaning :=
  reports.filterMap (·.1.meaning?)

/-- When the key of a button was last reported. -/
def lastReported? (reports : List (TerminalEvent × Nat)) (button : Button) : Option Nat :=
  (reports.filterMap fun report =>
    if report.1.meaning? = some (.press button) then some report.2 else none).getLast?

/-- What is passed on of some meanings that come after `earlier` ones: every request to quit, and
    the first press of each button. -/
def firsts (earlier : List Meaning) : List Meaning → List Meaning
  | [] => []
  | meaning :: rest =>
    if meaning ≠ .quit ∧ meaning ∈ earlier then firsts (earlier ++ [meaning]) rest
    else meaning :: firsts (earlier ++ [meaning]) rest

variable {reports waiting : List (TerminalEvent × Nat)} {event : TerminalEvent} {now : Nat}
  {button : Button}

theorem KeyCode.meaning?_eq (code : KeyCode) :
    code.meaning? = if code.isQuit then some .quit else code.button?.map .press := by
  unfold meaning?
  split
  all_goals simp_all [isQuit, button?]

theorem meanings_append (reports more : List (TerminalEvent × Nat)) :
    meanings (reports ++ more) = meanings reports ++ meanings more :=
  List.filterMap_append

theorem meanings_singleton (event : TerminalEvent) (now : Nat) :
    meanings [(event, now)] = event.meaning?.toList := by
  rw [meanings, List.filterMap_cons]
  cases event.meaning? <;> rfl

theorem firsts_append (earlier some more : List Meaning) :
    firsts earlier (some ++ more) = firsts earlier some ++ firsts (earlier ++ some) more := by
  induction some generalizing earlier with
  | nil => rw [List.append_nil]; rfl
  | cons meaning rest ih =>
    rw [List.cons_append, firsts, firsts, ih, List.append_assoc]
    split
    · rfl
    · rfl

theorem lastReported?_concat (reports : List (TerminalEvent × Nat)) (event : TerminalEvent)
    (now : Nat) (button : Button) :
    lastReported? (reports ++ [(event, now)]) button =
      if event.meaning? = some (.press button) then some now
      else lastReported? reports button := by
  rw [lastReported?, List.filterMap_append]
  by_cases h : event.meaning? = some (.press button) <;> simp [lastReported?, h]

/-- A button has a last report if it was reported at all. -/
theorem isSome_lastReported? (reports : List (TerminalEvent × Nat)) (button : Button) :
    (lastReported? reports button).isSome = true ↔ .press button ∈ meanings reports := by
  induction reports using List.reverseRecOn with
  | nil => simp [lastReported?, meanings]
  | append_singleton reports report ih =>
    obtain ⟨event, now⟩ := report
    rw [lastReported?_concat, meanings_append, meanings_singleton, List.mem_append]
    split
    · next h => simp [h]
    · next h => rw [ih, Option.mem_toList]; exact (or_iff_left h).symm

/-! ## Reading -/

namespace Keyboard

/-- The keyboard that remembers of some reports when each button was last in them. -/
def recalling (releaseAfter : Nat) (reports : List (TerminalEvent × Nat)) : Keyboard :=
  { holds := { releaseAfter, lastSeen := .ofFn (lastReported? reports) } }

theorem isHeld_recalling (releaseAfter : Nat) (reports : List (TerminalEvent × Nat))
    (button : Button) :
    (recalling releaseAfter reports).holds.isHeld button = true ↔
      .press button ∈ meanings reports := by
  rw [← isSome_lastReported?, Holds.isHeld, recalling, ButtonMap.get_ofFn]

/-- What the keyboard makes of a report is told by its meaning. -/
theorem read_eq (keyboard : Keyboard) (event : TerminalEvent) (now : Nat) :
    keyboard.read event now =
      match event.meaning? with
      | none => ([], keyboard)
      | some .quit => ([.quit], keyboard)
      | some (.press button) =>
        ((keyboard.holds.press button now).1,
          { keyboard with holds := (keyboard.holds.press button now).2 }) := by
  cases event with
  | mouse => rfl
  | key code modifiers =>
    rw [TerminalEvent.meaning?, KeyCode.meaning?_eq, read]
    split
    · rfl
    · cases code.button? <;> rfl

/-- A report of another meaning leaves a button as it was. -/
theorem recalling_concat (releaseAfter : Nat) (reports : List (TerminalEvent × Nat)) (now : Nat)
    (h : ∀ button, event.meaning? ≠ some (.press button)) :
    recalling releaseAfter (reports ++ [(event, now)]) = recalling releaseAfter reports := by
  have hlast : lastReported? (reports ++ [(event, now)]) = lastReported? reports :=
    funext fun button => by rw [lastReported?_concat, if_neg (h button)]
  rw [recalling, recalling, hlast]

theorem recalling_concat_press (releaseAfter : Nat) (reports : List (TerminalEvent × Nat))
    (now : Nat) (h : event.meaning? = some (.press button)) :
    recalling releaseAfter (reports ++ [(event, now)]) =
      { holds := ((recalling releaseAfter reports).holds.press button now).2 } := by
  have hlast : ButtonMap.ofFn (lastReported? (reports ++ [(event, now)])) =
      (ButtonMap.ofFn (lastReported? reports)).set button (some now) := by
    refine ButtonMap.ext_get fun other => ?_
    rw [ButtonMap.get_set, ButtonMap.get_ofFn, ButtonMap.get_ofFn, lastReported?_concat, h]
    simp only [Option.some.injEq, Meaning.press.injEq, eq_comm]
  rw [recalling, hlast]
  rfl

/-- A report is passed on if it is first, and is remembered. -/
theorem read_recalling (releaseAfter : Nat) (reports : List (TerminalEvent × Nat))
    (event : TerminalEvent) (now : Nat) :
    (recalling releaseAfter reports).read event now =
      ((firsts (meanings reports) (meanings [(event, now)])).map Meaning.event,
        recalling releaseAfter (reports ++ [(event, now)])) := by
  rw [read_eq, meanings_singleton]
  cases hmeaning : event.meaning? with
  | none =>
    rw [recalling_concat _ _ _ (by simp [hmeaning])]
    rfl
  | some meaning =>
    cases meaning with
    | quit =>
      rw [recalling_concat _ _ _ (by simp [hmeaning])]
      rfl
    | press button =>
      -- It is passed on unless the button is held, and so unless it was reported before.
      rw [recalling_concat_press _ _ _ hmeaning, Option.toList_some, firsts, firsts]
      refine Prod.ext ?_ rfl
      change (if (recalling releaseAfter reports).holds.isHeld button then [] else _) = _
      simp only [isHeld_recalling, ne_eq, reduceCtorEq, not_false_eq_true, true_and]
      split
      · rfl
      · rfl

/-- What comes of reports is what is first among their meanings. -/
theorem readAll_recalling (releaseAfter : Nat) (reports waiting : List (TerminalEvent × Nat)) :
    (recalling releaseAfter reports).readAll waiting =
      ((firsts (meanings reports) (meanings waiting)).map Meaning.event,
        recalling releaseAfter (reports ++ waiting)) := by
  induction waiting generalizing reports with
  | nil =>
    rw [List.append_nil]
    rfl
  | cons report waiting ih =>
    obtain ⟨event, now⟩ := report
    have hfirsts : firsts (meanings reports) (meanings ((event, now) :: waiting)) =
        firsts (meanings reports) (meanings [(event, now)]) ++
          firsts (meanings (reports ++ [(event, now)])) (meanings waiting) := by
      rw [meanings_append, ← firsts_append, ← meanings_append]
      rfl
    rw [readAll, read_recalling]
    simp only [ih]
    rw [hfirsts, List.map_append, List.append_assoc]
    rfl

/-! ## Letting go -/

theorem isStale_recalling (releaseAfter : Nat) (reports : List (TerminalEvent × Nat)) (now : Nat)
    (button : Button) :
    (recalling releaseAfter reports).holds.isStale now button =
      (lastReported? reports button).any fun seen => releaseAfter ≤ now - seen := by
  rw [Holds.isStale, recalling, ButtonMap.get_ofFn]

/-- A keyboard that lets go at once forgets all that it remembers. -/
theorem expire_recalling_zero (reports : List (TerminalEvent × Nat)) (now : Nat) :
    (recalling 0 reports).holds.expire now =
      ((Button.all.filter (.press · ∈ meanings reports)).map fun button => .button ⟨button, false⟩,
        (recalling 0 []).holds) := by
  have hany (button : Button) :
      (recalling 0 reports).holds.isStale now button = (lastReported? reports button).isSome := by
    rw [isStale_recalling]
    cases lastReported? reports button <;> simp
  have hstale : (recalling 0 reports).holds.isStale now =
      fun button => decide (.press button ∈ meanings reports) :=
    funext fun button => by
      rw [hany, Bool.eq_iff_iff, decide_eq_true_iff, isSome_lastReported?]
  -- What is remembered at all is stale, and is forgotten.
  have hlast : (ButtonMap.ofFn fun button =>
      if (recalling 0 reports).holds.isStale now button then none
      else (recalling 0 reports).holds.lastSeen.get button) = .ofFn (lastReported? []) := by
    refine ButtonMap.ext_get fun button => ?_
    rw [ButtonMap.get_ofFn, ButtonMap.get_ofFn, hany, recalling, ButtonMap.get_ofFn]
    cases lastReported? reports button <;> rfl
  rw [Holds.expire, hlast, hstale]
  rfl

/-- Nothing is let go of if the time for it is not reached by any button. -/
theorem expire_recalling_of_lt {releaseAfter : Nat} {reports : List (TerminalEvent × Nat)}
    {now : Nat}
    (h : ∀ button, ∀ seen ∈ lastReported? reports button, now - seen < releaseAfter) :
    (recalling releaseAfter reports).holds.expire now =
      ([], (recalling releaseAfter reports).holds) := by
  have hstale : (recalling releaseAfter reports).holds.isStale now = fun _ => false := by
    funext button
    rw [isStale_recalling, Option.any_eq_false]
    intro seen hseen
    simpa using h button seen hseen
  have hlast : (ButtonMap.ofFn fun button =>
      if (recalling releaseAfter reports).holds.isStale now button then none
      else (recalling releaseAfter reports).holds.lastSeen.get button) =
        .ofFn (lastReported? reports) := by
    rw [hstale]
    rfl
  rw [Holds.expire, hlast, hstale]
  rfl

end Keyboard

/-! ## Polls -/

/-- A poll: the reports that wait by then, each with its time, and the time of its end. -/
structure Poll where
  waiting : List (TerminalEvent × Nat)
  now : Nat
  deriving Repr

/-- What the reports of a poll mean. -/
def Poll.meanings (poll : Poll) : List Meaning := Handheld.meanings poll.waiting

/-- No poll comes so late that the time to let go of a button is reached, given the `reports` that
    were made before. -/
def Unreached (releaseAfter : Nat) (reports : List (TerminalEvent × Nat)) : List Poll → Prop
  | [] => True
  | poll :: polls =>
    (∀ button, ∀ seen ∈ lastReported? (reports ++ poll.waiting) button,
      poll.now - seen < releaseAfter) ∧
    Unreached releaseAfter (reports ++ poll.waiting) polls

/-- Polls that all end before the time to let go do not reach it. -/
theorem unreached_of_now_lt {releaseAfter : Nat} {polls : List Poll}
    (h : ∀ poll ∈ polls, poll.now < releaseAfter) (reports : List (TerminalEvent × Nat)) :
    Unreached releaseAfter reports polls := by
  induction polls generalizing reports with
  | nil => exact trivial
  | cons poll polls ih =>
    rw [List.forall_mem_cons] at h
    exact ⟨fun _ seen _ => Nat.lt_of_le_of_lt (Nat.sub_le poll.now seen) h.1, ih h.2 _⟩

namespace Keyboard

/-- What the polls of a keyboard put out, one after the other. -/
def outputs (keyboard : Keyboard) : List Poll → List (List HostEvent)
  | [] => []
  | poll :: polls =>
    let (events, keyboard) := keyboard.poll poll.waiting poll.now
    events :: keyboard.outputs polls

/-- What comes of a poll if buttons are let go of at once. -/
theorem poll_recalling_zero (poll : Poll) :
    (recalling 0 []).poll poll.waiting poll.now =
      ((firsts [] poll.meanings).map Meaning.event ++
          (Button.all.filter (.press · ∈ poll.meanings)).map fun button =>
            .button ⟨button, false⟩,
        recalling 0 []) := by
  rw [Keyboard.poll, readAll_recalling]
  simp only [List.nil_append, expire_recalling_zero]
  rfl

/-- What comes of a poll if no button is let go of. -/
theorem poll_recalling_of_lt {releaseAfter : Nat} {reports : List (TerminalEvent × Nat)}
    {poll : Poll}
    (h : ∀ button, ∀ seen ∈ lastReported? (reports ++ poll.waiting) button,
      poll.now - seen < releaseAfter) :
    (recalling releaseAfter reports).poll poll.waiting poll.now =
      ((firsts (meanings reports) poll.meanings).map Meaning.event,
        recalling releaseAfter (reports ++ poll.waiting)) := by
  rw [Keyboard.poll, readAll_recalling]
  simp only [expire_recalling_of_lt h, List.append_nil]
  rfl

theorem outputs_recalling_zero (polls : List Poll) :
    (recalling 0 []).outputs polls = polls.map fun poll =>
      (firsts [] poll.meanings).map Meaning.event ++
        (Button.all.filter (.press · ∈ poll.meanings)).map fun button =>
          .button ⟨button, false⟩ := by
  induction polls with
  | nil => rfl
  | cons poll polls ih =>
    rw [outputs, poll_recalling_zero]
    simp only [ih, List.map_cons]

theorem outputs_recalling_of_unreached {releaseAfter : Nat}
    {reports : List (TerminalEvent × Nat)} {polls : List Poll}
    (h : Unreached releaseAfter reports polls) :
    (recalling releaseAfter reports).outputs polls = polls.mapIdx fun k poll =>
      (firsts (meanings reports ++ (polls.take k).flatMap Poll.meanings) poll.meanings).map
        Meaning.event := by
  induction polls generalizing reports with
  | nil => rfl
  | cons poll polls ih =>
    obtain ⟨hfirst, hrest⟩ := h
    rw [outputs, poll_recalling_of_lt hfirst]
    simp only [ih hrest, List.mapIdx_cons, List.take_zero, List.flatMap_nil, List.append_nil,
      List.take_succ_cons, List.flatMap_cons, meanings_append, List.append_assoc]
    rfl

theorem readAll_append (keyboard : Keyboard) (reports more : List (TerminalEvent × Nat)) :
    keyboard.readAll (reports ++ more) =
      ((keyboard.readAll reports).1 ++ ((keyboard.readAll reports).2.readAll more).1,
        ((keyboard.readAll reports).2.readAll more).2) := by
  induction reports generalizing keyboard with
  | nil => rfl
  | cons report reports ih =>
    obtain ⟨event, now⟩ := report
    rw [List.cons_append, readAll, readAll]
    simp only [ih, List.append_assoc]

/-- The keyboard by reference, for any polls. If buttons are let go of at once, a poll puts out all
    requests to quit and the first press of each button in it, in the order of the keys, and then
    the release of all that were pressed, whatever the polls before. If the time to let go is never
    reached, it puts out all requests to quit and the first press of each button over all polls.
    And what follows a request to quit is polled, by any keyboard, as if that had not been made. -/
theorem polls_by_meaning (polls : List Poll) :
    (ofRelease 0).outputs polls = (polls.map fun poll =>
      (firsts [] poll.meanings).map Meaning.event ++
        (Button.all.filter (.press · ∈ poll.meanings)).map fun button =>
          .button ⟨button, false⟩) ∧
    (∀ releaseAfter, Unreached releaseAfter [] polls →
      (ofRelease releaseAfter).outputs polls = polls.mapIdx fun k poll =>
        (firsts ((polls.take k).flatMap Poll.meanings) poll.meanings).map Meaning.event) ∧
    ∀ (keyboard : Keyboard) (before after : List (TerminalEvent × Nat)) (event : TerminalEvent)
      (asked now : Nat), event.meaning? = some .quit →
      keyboard.poll (before ++ (event, asked) :: after) now =
        ((keyboard.readAll before).1 ++ .quit :: ((keyboard.readAll before).2.poll after now).1,
          ((keyboard.readAll before).2.poll after now).2) := by
  refine ⟨outputs_recalling_zero polls, fun releaseAfter h => ?_, ?_⟩
  · exact outputs_recalling_of_unreached h
  · intro keyboard before after event asked now hquit
    have hread : ∀ keyboard : Keyboard, keyboard.read event asked = ([.quit], keyboard) :=
      fun keyboard => by rw [read_eq, hquit]
    rw [Keyboard.poll, Keyboard.poll, readAll_append, readAll, hread]
    simp only [List.append_assoc, List.cons_append, List.nil_append]

/-- Two polls with repeated keys, held modifiers, the mouse, a key without a meaning and requests to
    quit. -/
def crowded : List Poll :=
  [{ waiting :=
      [(.key .up, 1), (.key .up { control := true }, 2), (.mouse, 3), (.key (.char 'q'), 4),
        (.key (.char 'y'), 5), (.key (.char 'z') { shift := true }, 6)],
     now := 10 },
   { waiting := [(.key (.char 'x'), 11), (.key .up, 12), (.key .escape, 13), (.key .up, 14)],
     now := 20 }]

theorem polls_by_meaning_crowded :
    (ofRelease 0).outputs crowded =
      [[.button ⟨.up, true⟩, .quit, .button ⟨.a, true⟩, .button ⟨.up, false⟩,
          .button ⟨.a, false⟩],
        [.button ⟨.b, true⟩, .button ⟨.up, true⟩, .quit, .button ⟨.up, false⟩,
          .button ⟨.b, false⟩]] ∧
    (ofRelease 1000).outputs crowded =
      [[.button ⟨.up, true⟩, .quit, .button ⟨.a, true⟩], [.button ⟨.b, true⟩, .quit]] ∧
    ((ofRelease 3).poll [(.key .up, 1), (.key .escape, 2), (.key .up, 3), (.key .down, 4)] 5).1 =
      [.button ⟨.up, true⟩, .quit, .button ⟨.down, true⟩] := by
  obtain ⟨hzero, hunreached, hquit⟩ := polls_by_meaning crowded
  have hnever : Unreached 1000 [] crowded := unreached_of_now_lt (by decide) []
  have hescape := hquit (ofRelease 3) [(.key .up, 1)] [(.key .up, 3), (.key .down, 4)]
    (.key .escape) 2 5 rfl
  exact ⟨hzero.trans (by decide), (hunreached 1000 hnever).trans (by decide),
    (congrArg Prod.fst hescape).trans (by decide)⟩

end Keyboard

end Handheld
