import Handheld.Proofs.Timeline

/-!
# The picture of the demo board

A frame paints the whole picture anew: the cursor, the ball, and the block over both. A strobe
repaints the block in place. Either way the picture memory shows what the state of the game says
(`Game.picture`), once a frame was played; before that it is dark.

* `Game.Paints`: a change of the picture memory turns the pixels of an area on, or off, and leaves
  the others alone. Changes of the same area do the same (`Game.Paints.ext`).
* `Game.paints_fill`: filling a rectangle byte by byte paints it.
* `Game.paint`: the same pixel by pixel, where a byte that is not there is a fault.
  `Game.paint_eq_fill`: there is none, wherever the rectangle lies.
* `Game.shown_play`: what the picture memory shows after a play.
* `DemoBoard.picture_of_state` says so of every board that was reset.
-/

namespace Handheld

namespace Pages

/-- Some bits of a byte turned on or off, seen from one bit. -/
theorem testBit_setByte (byte bits : UInt8) (on : Bool) {n : Nat} (hn : n < 8) :
    (if on then byte ||| bits else byte &&& ~~~bits).toNat.testBit n =
      if bits.toNat.testBit n then on else byte.toNat.testBit n := by
  cases on with
  | true =>
    rw [if_pos rfl, UInt8.toNat_or, Nat.testBit_or]
    cases bits.toNat.testBit n <;> simp
  | false =>
    have hnot : (~~~bits).toNat.testBit n = !bits.toNat.testBit n := by
      have hsub : UInt8.size - 1 - bits.toNat = 2 ^ 8 - (bits.toNat + 1) := by
        rw [Nat.sub_sub, Nat.add_comm]
        rfl
      rw [UInt8.toNat_not, hsub, Nat.testBit_two_pow_sub_succ bits.toNat_lt, decide_eq_true hn,
        Bool.true_and]
    rw [if_neg Bool.false_ne_true, UInt8.toNat_and, Nat.testBit_and, hnot]
    cases bits.toNat.testBit n <;> simp

theorem lit_setBits {width index : Nat} {grid : Array UInt8} (hindex : index < grid.size)
    (bits : UInt8) (on : Bool) (x y : Nat) :
    lit width (setBits grid index bits on) x y =
      if index = y / 8 * width + x ∧ bits.toNat.testBit (y % 8) then on
      else lit width grid x y := by
  rw [lit, lit, setBits, Array.getD_eq_getD_getElem?, Array.getD_eq_getD_getElem?,
    Array.getElem?_modify]
  by_cases hplace : index = y / 8 * width + x
  · rw [if_pos hplace, ← hplace, Array.getElem?_eq_getElem hindex, Option.map_some,
      Option.getD_some, Option.getD_some, testBit_setByte _ _ _ (Nat.mod_lt y (by decide))]
    simp only [true_and]
  · rw [if_neg hplace, if_neg fun h => hplace h.1]

/-- A picture memory is told by its pixels. -/
theorem ext_lit {width pages : Nat} {grid other : Array UInt8} (hgrid : grid.size = width * pages)
    (hother : other.size = width * pages)
    (h : ∀ x < width, ∀ y < 8 * pages, lit width grid x y = lit width other x y) :
    grid = other := by
  refine Array.ext (hgrid.trans hother.symm) fun place hplace hplace' => ?_
  have hpos : 0 < width := by
    refine Nat.pos_of_ne_zero fun hzero => ?_
    rw [hgrid, hzero, Nat.zero_mul] at hplace
    exact absurd hplace (Nat.not_lt_zero _)
  have hpage : place / width < pages := Nat.div_lt_of_lt_mul (hgrid ▸ hplace)
  rw [← UInt8.toNat_inj]
  refine Nat.eq_of_testBit_eq fun bit => ?_
  by_cases hbit : bit < 8
  · -- The bit is the pixel in a row of the page of the byte, in its column.
    have hlit := h (place % width) (Nat.mod_lt _ hpos) (place / width * 8 + bit) (by omega)
    have hrow : (place / width * 8 + bit) / 8 = place / width := by omega
    have hrowbit : (place / width * 8 + bit) % 8 = bit := by omega
    rw [lit, lit, hrow, hrowbit, Nat.div_add_mod'] at hlit
    simpa [hplace, hplace'] using hlit
  · have hlarge (byte : UInt8) : byte.toNat.testBit bit = false :=
      Nat.testBit_lt_two_pow (Nat.lt_of_lt_of_le byte.toNat_lt
        (Nat.pow_le_pow_right (by decide) (Nat.le_of_not_lt hbit)))
    rw [hlarge, hlarge]

end Pages

namespace Game

/-! ## Painting an area -/

/-- A change of a picture memory that turns the pixels of an area on, or off, and leaves the others
    alone. -/
structure Paints (area : Nat → Nat → Prop) (on : Bool) (change : Array UInt8 → Array UInt8) :
    Prop where
  size : ∀ grid, (change grid).size = grid.size
  inside : ∀ grid, grid.size = width * (height / 8) → ∀ x < width, ∀ y < height, area x y →
    Pages.lit width (change grid) x y = on
  outside : ∀ grid, grid.size = width * (height / 8) → ∀ x < width, ∀ y < height, ¬area x y →
    Pages.lit width (change grid) x y = Pages.lit width grid x y

namespace Paints

variable {area area' : Nat → Nat → Prop} {on : Bool} {change change' : Array UInt8 → Array UInt8}

theorem congr (h : Paints area on change)
    (harea : ∀ x < width, ∀ y < height, area x y ↔ area' x y) : Paints area' on change where
  size := h.size
  inside grid hgrid x hx y hy hin := h.inside grid hgrid x hx y hy ((harea x hx y hy).2 hin)
  outside grid hgrid x hx y hy hout :=
    h.outside grid hgrid x hx y hy fun hin => hout ((harea x hx y hy).1 hin)

/-- Changes of the same area do the same. -/
theorem ext (h : Paints area on change) (h' : Paints area on change') {grid : Array UInt8}
    (hgrid : grid.size = width * (height / 8)) : change grid = change' grid := by
  refine Pages.ext_lit ((h.size grid).trans hgrid) ((h'.size grid).trans hgrid) fun x hx y hy => ?_
  by_cases hin : area x y
  · rw [h.inside grid hgrid x hx y hy hin, h'.inside grid hgrid x hx y hy hin]
  · rw [h.outside grid hgrid x hx y hy hin, h'.outside grid hgrid x hx y hy hin]

/-- A loop paints what its turns paint. -/
theorem fold {n : Nat} {turn : Nat → Array UInt8 → Array UInt8} {areas : Nat → Nat → Nat → Prop}
    (h : ∀ i < n, Paints (areas i) on (turn i)) :
    Paints (fun x y => ∃ i < n, areas i x y) on
      fun grid => Nat.fold n (fun i _ grid => turn i grid) grid := by
  induction n with
  | zero =>
    exact ⟨fun _ => rfl, fun _ _ _ _ _ _ hin => absurd hin (by simp), fun _ _ _ _ _ _ _ => rfl⟩
  | succ n ih =>
    have hfirst := ih fun i hi => h i (Nat.lt_succ_of_lt hi)
    have hlast := h n (Nat.lt_succ_self n)
    simp only [Nat.fold_succ]
    refine ⟨fun grid => (hlast.size _).trans (hfirst.size grid), ?_, ?_⟩
    · rintro grid hgrid x hx y hy ⟨i, hi, hin⟩
      have hsize := (hfirst.size grid).trans hgrid
      by_cases hover : areas n x y
      · exact hlast.inside _ hsize x hx y hy hover
      · -- What the last turn leaves alone an earlier one has painted.
        have hne : i ≠ n := fun heq => hover (heq ▸ hin)
        rw [hlast.outside _ hsize x hx y hy hover]
        exact hfirst.inside grid hgrid x hx y hy ⟨i, by omega, hin⟩
    · intro grid hgrid x hx y hy hout
      have hsize := (hfirst.size grid).trans hgrid
      rw [hlast.outside _ hsize x hx y hy fun hin => hout ⟨n, Nat.lt_succ_self n, hin⟩]
      exact hfirst.outside grid hgrid x hx y hy fun ⟨i, hi, hin⟩ =>
        hout ⟨i, Nat.lt_succ_of_lt hi, hin⟩

/-- Some bits of one byte. -/
theorem setBits (page column : Nat) (bits : UInt8) (on : Bool) (hpage : page < height / 8)
    (hcolumn : column < width) :
    Paints (fun x y => page = y / 8 ∧ column = x ∧ bits.toNat.testBit (y % 8) = true) on
      fun grid => Pages.setBits grid (page * width + column) bits on := by
  have hplace {grid : Array UInt8} (hgrid : grid.size = width * (height / 8)) :
      page * width + column < grid.size := by
    rw [hgrid]
    simp only [width, height] at *
    omega
  refine ⟨fun grid => size_setBits .., ?_, ?_⟩
  · rintro grid hgrid x hx y hy ⟨rfl, rfl, hbit⟩
    rw [Pages.lit_setBits (hplace hgrid), if_pos ⟨rfl, hbit⟩]
  · intro grid hgrid x hx y hy hout
    rw [Pages.lit_setBits (hplace hgrid), if_neg]
    rintro ⟨heq, hbit⟩
    refine hout ⟨?_, ?_, hbit⟩
    all_goals simp only [width] at *; omega

end Paints

/-- The pixels of a rectangle. -/
def InRectangle (left top w h x y : Nat) : Prop := left ≤ x ∧ x < left + w ∧ top ≤ y ∧ y < top + h

instance (left top w h x y : Nat) : Decidable (InRectangle left top w h x y) :=
  inferInstanceAs (Decidable (_ ∧ _))

/-- Byte by byte a rectangle is painted, as far as it lies on the panel. -/
theorem paints_fill (left top w h : Nat) (on : Bool) :
    Paints (InRectangle left top w h) on fun grid => fill grid left top w h on := by
  have hloops := Paints.fold (n := (min (top + h) height + 7) / 8 - top / 8)
    fun i hi => Paints.fold (n := min (left + w) width - left) fun dx hdx =>
      Paints.setBits (top / 8 + i) (left + dx)
        (Pages.rowBits (top - (top / 8 + i) * 8) (min (top + h) height - (top / 8 + i) * 8)) on
        (by simp only [height] at *; omega) (by omega)
  refine hloops.congr fun x hx y hy => ?_
  simp only [Pages.testBit_rowBits _ _ (Nat.mod_lt y (show 0 < 8 by decide)), InRectangle,
    Bool.and_eq_true, decide_eq_true_eq]
  constructor
  · rintro ⟨i, hi, dx, hdx, hpage, hcolumn, hrow⟩
    omega
  · rintro ⟨hleft, hright, htop, hbottom⟩
    exact ⟨y / 8 - top / 8, by omega, x - left, by omega, by omega, by omega, by omega⟩

/-! ## Painting in place -/

/-- One pixel turned on or off. -/
def dot (grid : Array UInt8) (x y : Nat) (on : Bool) : Array UInt8 :=
  Pages.setBits grid (y / 8 * width + x) (UInt8.ofNat (2 ^ (y % 8))) on

/-- One pixel turned on or off, in a byte that must be there. -/
def dot? (grid : Array UInt8) (x y : Nat) (on : Bool) : Except Fault (Array UInt8) :=
  if y / 8 * width + x < grid.size then .ok (dot grid x y on)
  else .error (.outOfBounds grid.size (y / 8 * width + x))

/-- A rectangle, cut at the panel's edges, turned on or off row by row, and in each row pixel by
    pixel. -/
def paint (grid : Array UInt8) (left top w h : Nat) (on : Bool) : Except Fault (Array UInt8) :=
  (List.range (min (top + h) height - top)).foldlM (fun grid dy =>
    (List.range (min (left + w) width - left)).foldlM (fun grid dx =>
      dot? grid (left + dx) (top + dy) on) grid) grid

/-- The game after one more event, painted in place. -/
def act? (game : Game) : Event → Except Fault Game
  | .strobe => do
    let vram ← paint game.vram blockLeft blockTop blockSide blockSide
      (game.strobing && !game.strobeLit)
    return { game with strobeLit := !game.strobeLit, vram }
  | .frame pressed => do
    let next := game.frame pressed
    let vram ← paint darkPages next.cursor.1 next.cursor.2 cursorSide cursorSide true
    let vram ← paint vram next.ball.1 next.ball.2 ballSide ballSide true
    let vram ← paint vram blockLeft blockTop blockSide blockSide (next.strobing && next.strobeLit)
    return { next with vram }

/-- A loop whose turns all succeed on a picture memory of a size, and keep the size, succeeds. -/
theorem foldlM_range {n size : Nat} {turn? : Array UInt8 → Nat → Except Fault (Array UInt8)}
    {turn : Nat → Array UInt8 → Array UInt8}
    (hturn : ∀ i < n, ∀ grid, grid.size = size → turn? grid i = .ok (turn i grid))
    (hsize : ∀ i grid, (turn i grid).size = grid.size) {grid : Array UInt8}
    (hgrid : grid.size = size) :
    (List.range n).foldlM turn? grid = .ok (Nat.fold n (fun i _ grid => turn i grid) grid) := by
  induction n with
  | zero => rfl
  | succ n ih =>
    have hsome : (Nat.fold n (fun i _ grid => turn i grid) grid).size = size :=
      (Afterglow.size_fold fun i _ grid => hsize i grid).trans hgrid
    rw [List.range_succ, List.foldlM_append, ih fun i hi => hturn i (Nat.lt_succ_of_lt hi)]
    change (List.foldlM turn? _ [n]) = _
    rw [List.foldlM_cons, hturn n (Nat.lt_succ_self n) _ hsome, Nat.fold_succ]
    rfl

/-- Pixel by pixel a rectangle is painted as well. -/
theorem paints_dots (left top w h : Nat) (on : Bool) :
    Paints (InRectangle left top w h) on fun grid =>
      Nat.fold (min (top + h) height - top) (fun dy _ grid =>
        Nat.fold (min (left + w) width - left) (fun dx _ grid =>
          dot grid (left + dx) (top + dy) on) grid) grid := by
  have hloops := Paints.fold (n := min (top + h) height - top)
    fun dy hdy => Paints.fold (n := min (left + w) width - left) fun dx hdx =>
      Paints.setBits ((top + dy) / 8) (left + dx) (UInt8.ofNat (2 ^ ((top + dy) % 8))) on
        (by simp only [height] at *; omega) (by omega)
  refine hloops.congr fun x hx y hy => ?_
  have hbit (row : Nat) : (UInt8.ofNat (2 ^ (row % 8))).toNat.testBit (y % 8) = true ↔
      row % 8 = y % 8 := by
    have hlt : 2 ^ (row % 8) < 2 ^ 8 :=
      Nat.pow_lt_pow_right (by decide) (Nat.mod_lt row (by decide))
    rw [UInt8.toNat_ofNat_of_lt' hlt, Nat.testBit_two_pow, decide_eq_true_eq]
  simp only [hbit, InRectangle]
  constructor
  · rintro ⟨dy, hdy, dx, hdx, hpage, hcolumn, hrow⟩
    omega
  · rintro ⟨hleft, hright, htop, hbottom⟩
    exact ⟨y - top, by omega, x - left, by omega, by omega, by omega, by omega⟩

/-- Wherever a rectangle lies, no byte outside the picture memory is touched, and the picture is the
    one that filling it gives. -/
theorem paint_eq_fill {grid : Array UInt8} (hgrid : grid.size = width * (height / 8))
    (left top w h : Nat) (on : Bool) :
    paint grid left top w h on = .ok (fill grid left top w h on) := by
  have hsize (x y : Nat) (grid : Array UInt8) : (dot grid x y on).size = grid.size :=
    size_setBits ..
  refine (foldlM_range (fun dy hdy grid hgrid => foldlM_range (fun dx hdx grid hgrid => ?_)
    (fun dx grid => hsize ..) hgrid) (fun dy grid => Afterglow.size_fold fun dx _ grid => hsize ..)
    hgrid).trans (congrArg Except.ok ((paints_dots ..).ext (paints_fill ..) hgrid))
  rw [dot?, if_pos]
  rw [hgrid]
  simp only [width, height] at *
  omega

theorem act?_eq_act {game : Game} (hvram : game.vram.size = width * (height / 8)) (event : Event) :
    game.act? event = .ok (game.act event) := by
  have hdark : darkPages.size = width * (height / 8) := Array.size_replicate
  cases event with
  | strobe =>
    rw [act?, paint_eq_fill hvram]
    rfl
  | frame pressed =>
    rw [act?, paint_eq_fill hdark]
    change (paint _ _ _ _ _ _ >>= _) = _
    rw [paint_eq_fill ((size_fill ..).trans hdark)]
    change (paint _ _ _ _ _ _ >>= _) = _
    rw [paint_eq_fill ((size_fill ..).trans ((size_fill ..).trans hdark))]
    rfl

/-! ## The picture of a game -/

/-- Whether a pixel lies in the square of a side at a corner. -/
def inSquare (corner : Nat × Nat) (side x y : Nat) : Bool :=
  InRectangle corner.1 corner.2 side side x y

/-- Whether a pixel is lit in the picture of a game: in the block as the strobe says, elsewhere
    under the cursor and under the ball. -/
def picture (game : Game) (x y : Nat) : Bool :=
  if inSquare (100, 8) 16 x y then game.strobing && game.strobeLit
  else inSquare game.cursor 6 x y || inSquare game.ball 3 x y

theorem lit_square {grid : Array UInt8} (hgrid : grid.size = width * (height / 8))
    (corner : Nat × Nat) (side : Nat) (on : Bool) {x y : Nat} (hx : x < width) (hy : y < height) :
    Pages.lit width (fill grid corner.1 corner.2 side side on) x y =
      if inSquare corner side x y then on else Pages.lit width grid x y := by
  have hfill := paints_fill corner.1 corner.2 side side on
  split
  · next hin => exact hfill.inside grid hgrid x hx y hy (of_decide_eq_true hin)
  · next hout => exact hfill.outside grid hgrid x hx y hy fun hin => hout (decide_eq_true hin)

theorem lit_dark (x y : Nat) : Pages.lit width darkPages x y = false := by
  rw [Pages.lit, darkPages, Array.getD_eq_getD_getElem?, Array.getElem?_replicate]
  split <;> exact Nat.zero_testBit _

theorem lit_fillBlock {grid : Array UInt8} (hgrid : grid.size = width * (height / 8)) (on : Bool)
    {x y : Nat} (hx : x < width) (hy : y < height) :
    Pages.lit width (fillBlock grid on) x y =
      if inSquare (100, 8) 16 x y then on else Pages.lit width grid x y :=
  lit_square hgrid (blockLeft, blockTop) blockSide on hx hy

/-- Painting everything anew gives the picture of the game. -/
theorem lit_render (game : Game) {x y : Nat} (hx : x < width) (hy : y < height) :
    Pages.lit width game.render.vram x y = game.picture x y := by
  have hdark : darkPages.size = width * (height / 8) := Array.size_replicate
  have hcursor := (size_fill darkPages game.cursor.1 game.cursor.2 cursorSide cursorSide true).trans
    hdark
  have hball := (size_fill _ game.ball.1 game.ball.2 ballSide ballSide true).trans hcursor
  rw [render, lit_fillBlock hball _ hx hy, lit_square hcursor _ _ _ hx hy,
    lit_square hdark _ _ _ hx hy, lit_dark, picture, cursorSide, ballSide]
  cases inSquare game.cursor 6 x y <;> cases inSquare game.ball 3 x y <;> rfl

theorem picture_render (game : Game) (x y : Nat) :
    game.render.picture x y = game.picture x y := by
  rw [picture, picture, render]

/-- What is shown after a play: nothing before the first frame, and then the picture of the game. A
    strobe has only to repaint the block. -/
theorem shown_play (events : List Event) :
    (play events).vram.size = width * (height / 8) ∧
      (samples events = [] → (play events).strobing = false) ∧
      ∀ x < width, ∀ y < height, Pages.lit width (play events).vram x y =
        if samples events = [] then false else (play events).picture x y := by
  refine play_induction (p := fun game samples => game.vram.size = width * (height / 8) ∧
    (samples = [] → game.strobing = false) ∧
      ∀ x < width, ∀ y < height, Pages.lit width game.vram x y =
        if samples = [] then false else game.picture x y)
    ?_ (fun game samples ⟨hsize, hnone, hshown⟩ => ?_) (fun game samples pressed _ => ?_) events
  · exact ⟨Array.size_replicate, fun _ => rfl, fun x _ y _ => lit_dark x y⟩
  · simp only [strobe]
    refine ⟨(size_fill ..).trans hsize, hnone, fun x hx y hy => ?_⟩
    have hblock := lit_fillBlock hsize (game.strobing && !game.strobeLit) hx hy
    rw [hshown x hx y hy] at hblock
    refine Eq.trans hblock ?_
    by_cases hfirst : samples = []
    · rw [if_pos hfirst, if_pos hfirst, hnone hfirst]
      split <;> rfl
    · rw [if_neg hfirst, if_neg hfirst, picture, picture]
      split <;> rfl
  · refine ⟨(size_frame ..).trans rfl, fun hfirst => absurd hfirst (by simp), fun x hx y hy => ?_⟩
    rw [if_neg (by simp), frame, lit_render _ hx hy, picture_render]

/-- Once a frame was played, painting everything anew would change nothing. -/
theorem render_play {events : List Event} (h : samples events ≠ []) :
    (play events).render = play events := by
  obtain ⟨hsize, -, hshown⟩ := shown_play events
  have hrender : (play events).render.vram.size = width * (height / 8) := by
    simp only [render, fillBlock, size_fill]
    exact Array.size_replicate
  have hvram : (play events).render.vram = (play events).vram := by
    refine Pages.ext_lit hrender hsize fun x hx y hy => ?_
    rw [lit_render _ hx hy, hshown x hx y hy, if_neg h]
  calc (play events).render
    _ = { play events with vram := (play events).render.vram } := by rw [render]
    _ = play events := by rw [hvram]

/-- No event touches a byte that is not there. -/
theorem foldlM_act? (events : List Event) : events.foldlM act? start = .ok (play events) := by
  induction events using List.reverseRecOn with
  | nil => rfl
  | append_singleton events event ih =>
    have hact := act?_eq_act (shown_play events).1 event
    rw [List.foldlM_append, ih, play_concat, ← hact]
    change List.foldlM act? (play events) [event] = _
    rw [List.foldlM_cons]
    exact bind_pure _

end Game

namespace DemoBoard

/-- The picture of a board is always the picture of its state, whatever was done to it: once a frame
    was played every pixel is lit as the cursor, the ball and the strobe say, which is what painting
    all of it anew would give, and before that it is dark. All of the painting stays within the
    picture memory. The ball stays between its walls, and no step takes it below 0; the cursor stays
    within its bounds. -/
theorem picture_of_state (frequency : Nat) (acts : List Act) :
    let game := ((start frequency).after acts).game
    let events := (start frequency).played acts
    (game.ball.1 ≤ 125 ∧ game.ball.2 ≤ 61) ∧
      ((game.velocity.1 = 1 ∨ game.velocity.1 = -1) ∧
        (game.velocity.2 = 1 ∨ game.velocity.2 = -1)) ∧
      (0 ≤ (game.ball.1 : Int) + Game.bounce Game.width game.ball.1 game.velocity.1 ∧
        0 ≤ (game.ball.2 : Int) + Game.bounce Game.height game.ball.2 game.velocity.2) ∧
      (game.cursor.1 ≤ 122 ∧ game.cursor.2 ≤ 58) ∧
      events.foldlM Game.act? Game.start = .ok game ∧
      (∀ x < 128, ∀ y < 64, Pages.lit 128 game.vram x y =
        if Game.samples events = [] then false else game.picture x y) ∧
      (Game.samples events ≠ [] → game.render = game) := by
  intro game events
  have hgame : game = Game.play events := game_after_start ..
  obtain ⟨hball, hvelocity⟩ := Game.ball_play events
  obtain ⟨-, hx, hy⟩ := Game.cursor_play events
  generalize hstep : 10 + (Game.samples events).length = step at hball hvelocity
  rw [hgame]
  refine ⟨?_, ?_, ?_, ⟨hx, hy⟩, Game.foldlM_act? events, (Game.shown_play events).2.2,
    Game.render_play⟩
  · rw [hball]
    exact ⟨Game.sweep_le .., Game.sweep_le ..⟩
  · rw [hvelocity]
    exact ⟨Game.heading_eq .., Game.heading_eq ..⟩
  · rw [hball, hvelocity]
    exact ⟨le_of_le_of_eq (Int.natCast_nonneg _) (Game.sweep_add_bounce (by decide) step).symm,
      le_of_le_of_eq (Int.natCast_nonneg _) (Game.sweep_add_bounce (by decide) step).symm⟩

end DemoBoard

end Handheld
