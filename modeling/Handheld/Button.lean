/-!
# Buttons and pins

The console has six buttons, each wired to a pin of the board. The pins are *active low*: a pull-up
holds a released button's pin high, and pressing the button pulls it low.

A `ButtonEvent` says that a button is now pressed or released. A `HostEvent` is what a player can
ask of the console: a button event, or to quit.
-/

namespace Handheld

/-- The six buttons of the console. -/
inductive Button
  | up
  | down
  | left
  | right
  | a
  | b
  deriving DecidableEq, Repr

/-- A pin of the board: a lettered port and a number within it. -/
structure Pin where
  port : Char
  index : Nat
  deriving DecidableEq, Repr

namespace Button

/-- Every button, in index order. -/
def all : List Button := [.up, .down, .left, .right, .a, .b]

/-- The place of a button among the six. -/
def index : Button → Nat
  | .up => 0
  | .down => 1
  | .left => 2
  | .right => 3
  | .a => 4
  | .b => 5

/-- The name a button has in reports. -/
def name : Button → String
  | .up => "btn.up"
  | .down => "btn.down"
  | .left => "btn.left"
  | .right => "btn.right"
  | .a => "btn.a"
  | .b => "btn.b"

/-- The pin a button is wired to. -/
def pin : Button → Pin
  | .up => ⟨'F', 7⟩
  | .down => ⟨'F', 4⟩
  | .left => ⟨'F', 5⟩
  | .right => ⟨'F', 6⟩
  | .a => ⟨'E', 6⟩
  | .b => ⟨'B', 4⟩

theorem mem_all (button : Button) : button ∈ all := by cases button <;> decide

theorem pin_inj {c d : Button} (h : c.pin = d.pin) : c = d := by
  cases c <;> cases d <;> simp_all [pin]

end Button

/-- A value for each of the six buttons. -/
structure ButtonMap (α : Type) where
  up : α
  down : α
  left : α
  right : α
  a : α
  b : α
  deriving DecidableEq, Repr

namespace ButtonMap

variable {α : Type}

/-- The map whose value at each button is given by `f`. -/
def ofFn (f : Button → α) : ButtonMap α := ⟨f .up, f .down, f .left, f .right, f .a, f .b⟩

/-- The map with the same value at each button. -/
def const (x : α) : ButtonMap α := ofFn fun _ => x

/-- The value at a button. -/
def get (m : ButtonMap α) : Button → α
  | .up => m.up
  | .down => m.down
  | .left => m.left
  | .right => m.right
  | .a => m.a
  | .b => m.b

/-- The map with `x` at one button. -/
def set (m : ButtonMap α) (button : Button) (x : α) : ButtonMap α :=
  match button with
  | .up => { m with up := x }
  | .down => { m with down := x }
  | .left => { m with left := x }
  | .right => { m with right := x }
  | .a => { m with a := x }
  | .b => { m with b := x }

@[simp] theorem get_ofFn (f : Button → α) (c : Button) : (ofFn f).get c = f c := by
  cases c <;> rfl

@[simp] theorem get_const (x : α) (c : Button) : (const x).get c = x := by
  simp [const]

theorem get_set (m : ButtonMap α) (c d : Button) (x : α) :
    (m.set c x).get d = if d = c then x else m.get d := by
  cases c <;> cases d <;> rfl

theorem ext_get {m n : ButtonMap α} (h : ∀ c, m.get c = n.get c) : m = n := by
  cases m
  cases n
  have hu := h .up
  have hd := h .down
  have hl := h .left
  have hr := h .right
  have ha := h .a
  have hb := h .b
  simp only [get] at hu hd hl hr ha hb
  subst hu hd hl hr ha hb
  rfl

end ButtonMap

/-- A button is now pressed, or now released. -/
structure ButtonEvent where
  button : Button
  pressed : Bool
  deriving DecidableEq, Repr

/-- What a player can ask of the console. -/
inductive HostEvent
  | button (event : ButtonEvent)
  | quit
  deriving DecidableEq, Repr

end Handheld
