import Agar.Game

/-! The collision passes of a player (`Player.cpp`): `CollideStatic`, `CollideDynamic`,
`CollideSelf` and `CollideOtherPlayer`. `i` is the index of the player in `Players`. An index
that the code steps back before the loop steps it forward again stays where it is. -/

namespace Agar
namespace Game
variable {K : Type}

theorem cellsOf_setCells_self (g : Game K) (i : ℕ) (l : List CellPtr) (h : i < g.players.length) :
    (g.setCells i l).cellsOf i = l := by
  simp [cellsOf, setCells, List.getElem?_eq_getElem h]

theorem cellsOf_setCells_ne (g : Game K) {i j : ℕ} (l : List CellPtr) (h : i ≠ j) :
    (g.setCells i l).cellsOf j = g.cellsOf j := by
  simp only [cellsOf, setCells, List.getElem?_modify, if_neg h]
  cases g.players[j]? <;> rfl

theorem lt_of_cellsOf {g : Game K} {i loop : ℕ} {p : CellPtr} (h : (g.cellsOf i)[loop]? = some p) :
    i < g.players.length := by
  by_contra hi
  have hnone : g.players[i]? = none := List.getElem?_eq_none (not_lt.mp hi)
  simp [cellsOf, hnone] at h

theorem getElem?_lt {α : Type} {l : List α} {n : ℕ} {a : α} (h : l[n]? = some a) : n < l.length :=
  (List.getElem?_eq_some_iff.mp h).1

theorem cellsOf_congr {g g' : Game K} (h : g'.players = g.players) (i : ℕ) :
    g'.cellsOf i = g.cellsOf i := by
  simp only [cellsOf, h]

theorem cellsOf_eraseCell_length (g : Game K) (i loop : ℕ) (h : loop < (g.cellsOf i).length) :
    ((g.eraseCell i loop).cellsOf i).length = (g.cellsOf i).length - 1 := by
  have hi : i < g.players.length := by
    obtain ⟨p, hp⟩ : ∃ p, (g.cellsOf i)[loop]? = some p := ⟨_, List.getElem?_eq_getElem h⟩
    exact lt_of_cellsOf hp
  rw [eraseCell, cellsOf_setCells_self _ _ _ hi, List.length_eraseIdx_of_lt h]

theorem cellsOf_eraseCell_length_le (g : Game K) (i j loop : ℕ) :
    ((g.eraseCell i loop).cellsOf j).length ≤ (g.cellsOf j).length := by
  by_cases hij : i = j
  · subst hij
    by_cases hi : i < g.players.length
    · rw [eraseCell, cellsOf_setCells_self _ _ _ hi]
      exact List.length_eraseIdx_le _ _
    · have hlen : (g.eraseCell i loop).players.length = g.players.length := by
        simp [eraseCell, setCells]
      have hnone : (g.eraseCell i loop).players[i]? = none := List.getElem?_eq_none (by omega)
      simp [cellsOf, hnone]
  · rw [eraseCell, cellsOf_setCells_ne _ _ hij]

/-- `Cells.erase(Cells.begin() + myLoop)` with a signed index. -/
def eraseCellAt (g : Game K) (i : ℕ) (myLoop : ℤ) : Game K :=
  if 0 ≤ myLoop ∧ myLoop < (g.cellsOf i).length then g.eraseCell i myLoop.toNat
  else { g with undefined := true }

theorem cellsOf_eraseCellAt_length (g : Game K) (i : ℕ) (myLoop : ℤ) :
    ((g.eraseCellAt i myLoop).cellsOf i).length ≤ (g.cellsOf i).length ∧
    (0 ≤ myLoop → myLoop < (g.cellsOf i).length →
      ((g.eraseCellAt i myLoop).cellsOf i).length = (g.cellsOf i).length - 1) := by
  unfold eraseCellAt
  split_ifs with h
  · exact ⟨cellsOf_eraseCell_length_le _ _ _ _,
      fun _ _ => cellsOf_eraseCell_length _ _ _ (by omega)⟩
  · exact ⟨le_rfl, fun h0 h1 => absurd ⟨h0, h1⟩ h⟩

section Eaten
variable [Field K] [Arith K]

/-- A static cell is eaten: it is reported and leaves its block. -/
def eatStatic (g : Game K) (cell staticCell : CellPtr) (b : Vec2i) (loop : ℕ) : Game K :=
  ((g.addSize cell (g.heap staticCell).size).pushRemoveStatic staticCell).removeStaticAt b loop

@[simp] theorem eatStatic_block (g : Game K) (cell s : CellPtr) (b : Vec2i) (loop : ℕ) :
    (g.eatStatic cell s b loop).staticMap b = (g.staticMap b).eraseIdx loop := by
  simp [eatStatic, removeStaticAt, pushRemoveStatic, addSize, note, setCell]

/-- A dynamic cell is eaten: it is reported and leaves `DynamicMap`. -/
def eatDynamic (g : Game K) (cell dynamicCell : CellPtr) (loop : ℕ) : Game K :=
  ((g.addSize cell (g.heap dynamicCell).size).pushRemoveDynamic dynamicCell).eraseDynamic loop

@[simp] theorem eatDynamic_dynamicMap (g : Game K) (cell d : CellPtr) (loop : ℕ) :
    (g.eatDynamic cell d loop).dynamicMap = g.dynamicMap.eraseIdx loop := rfl

theorem eatDynamic_length (g : Game K) (cell d : CellPtr) (loop : ℕ)
    (h : loop < g.dynamicMap.length) :
    (g.eatDynamic cell d loop).dynamicMap.length + 1 = g.dynamicMap.length := by
  rw [eatDynamic_dynamicMap, List.length_eraseIdx_of_lt h]
  omega

/-- The bigger of two own cells eats the other. -/
def eatOwn (g : Game K) (i : ℕ) (cell otherCell : CellPtr) (loop : ℕ) : Game K :=
  ((g.addSize cell (g.heap otherCell).size).pushRemoveDynamic otherCell).eraseCell i loop

theorem eatOwn_length (g : Game K) (i : ℕ) (cell o : CellPtr) (loop : ℕ)
    (h : loop < (g.cellsOf i).length) :
    ((g.eatOwn i cell o loop).cellsOf i).length = (g.cellsOf i).length - 1 :=
  cellsOf_eraseCell_length ((g.addSize cell (g.heap o).size).pushRemoveDynamic o) i loop h

/-- The other own cell absorbs this one, and the slot `myLoop` is erased. -/
def absorbOwn (g : Game K) (i : ℕ) (cell otherCell : CellPtr) (myLoop : ℤ) : Game K :=
  let slot := if 0 ≤ myLoop then (g.cellsOf i)[myLoop.toNat]? else none
  (((g.addSize otherCell (g.heap cell).size).note (.absorb cell slot)).pushRemoveDynamic
    cell).eraseCellAt i myLoop

theorem absorbOwn_length_le (g : Game K) (i : ℕ) (cell o : CellPtr) (myLoop : ℤ) :
    ((g.absorbOwn i cell o myLoop).cellsOf i).length ≤ (g.cellsOf i).length :=
  (cellsOf_eraseCellAt_length _ i myLoop).1

theorem absorbOwn_length (g : Game K) (i : ℕ) (cell o : CellPtr) (myLoop : ℤ) (h0 : 0 ≤ myLoop)
    (h1 : myLoop < (g.cellsOf i).length) :
    ((g.absorbOwn i cell o myLoop).cellsOf i).length = (g.cellsOf i).length - 1 :=
  (cellsOf_eraseCellAt_length _ i myLoop).2 h0 h1

end Eaten

variable [Field K] [LinearOrder K] [Arith K]

/-- The loop of `CollideStatic` over the data of one block. -/
def collideBlock (g : Game K) (cell : CellPtr) (b : Vec2i) (loop : ℕ) : Game K :=
  match h : (g.staticMap b)[loop]? with
  | none => g
  | some staticCell =>
    if (g.heap cell).collide (g.heap staticCell) = .bigger then
      collideBlock ((g.noteCollide cell staticCell).eatStatic cell staticCell b loop) cell b loop
    else collideBlock (g.noteCollide cell staticCell) cell b (loop + 1)
termination_by (g.staticMap b).length - loop
decreasing_by
  · have hlt := getElem?_lt h
    rw [eatStatic_block]
    simp only [noteCollide, note, List.length_eraseIdx_of_lt hlt]
    omega
  · have hlt := getElem?_lt h
    simp only [noteCollide, note]
    omega

/-- The blocks of `StaticMap` in memory order. -/
def blockGrid : List Vec2i :=
  (List.range numBlocks).flatMap fun x => (List.range numBlocks).map fun y => ⟨x, y⟩

def collideStatic (g : Game K) (i : ℕ) : Game K :=
  (g.cellsOf i).foldl (fun g cell => blockGrid.foldl (fun g b => g.collideBlock cell b 0) g) g

/-- A dynamic cell absorbs the player's cell. -/
def absorbDynamic (g : Game K) (i : ℕ) (cell dynamicCell : CellPtr) (myLoop : ℕ) : Game K :=
  ((g.addSize dynamicCell (g.heap cell).size).pushRemoveDynamic cell).eraseCell i myLoop

def splitRatio : K := 0.4

/-- `CombineTime = CurrentTime + (size / 50)`. -/
def setCombine (g : Game K) (p : CellPtr) (size : K) : Game K :=
  g.setCell p { g.heap p with combineTime := g.currentTime + size / 50, combineSet := true }

/-- `new Cell(...)`, `Flag.IsPlayer = true`. -/
def newPlayerCell (g : Game K) (radius : K) (position : Vec2 K) (color : BitVec 32) :
    CellPtr × Game K :=
  let (p, g) := g.newCell radius position color
  (p, g.setCell p { g.heap p with flag := { (g.heap p).flag with isPlayer := true } })

/-- One round of the big halves of a pop. -/
def bigPop (g : Game K) (i : ℕ) (popCell : CellPtr) (angle : Vec2 K) : CellPtr × Game K :=
  let size := (g.heap popCell).size
  let g := g.addSize popCell (-size * splitRatio)
  let newR := Cell.getRadius (size * (1 - splitRatio))
  let sumR := (g.heap popCell).radius + newR
  let position := (g.heap popCell).position + angle * sumR
  let (newCell, g) := g.newPlayerCell newR position (g.heap popCell).color
  let g := (g.setCombine popCell size).setCombine newCell size
  let away := ((g.heap newCell).position - (g.heap popCell).position).normalize
  let g := g.setCell newCell ((g.heap newCell).addVelocity (away * (virusVelocity : K)))
  (newCell, g.pushCell i newCell)

/-- The big halves: `left` is `4 - bigPop`. -/
def bigPops (g : Game K) (i : ℕ) (popCell : CellPtr) (angle : Vec2 K) : ℕ → Game K
  | 0 => g
  | left + 1 =>
    if 500 < (g.heap popCell).size ∧ (g.cellsOf i).length < 16 then
      let angle := angle.rotate (6.28 / 4)
      let r := g.bigPop i popCell angle
      bigPops r.2 i r.1 angle left
    else g

/-- One of the small balls around the popped cell. -/
def smallBall (g : Game K) (i : ℕ) (cell dynamicCell : CellPtr) (sizeSmall sumR : K) : Game K :=
  let (angle, g) := g.randDirection
  let position := (g.heap cell).position + angle * sumR
  let (newCell, g) := g.newPlayerCell (Cell.getRadius sizeSmall) position (g.heap cell).color
  let g := g.setCombine newCell sizeSmall
  let away := ((g.heap newCell).position - (g.heap dynamicCell).position).normalize
  let g := g.setCell newCell ((g.heap newCell).addVelocity (away * (virusVelocity : K)))
  g.pushCell i newCell

def smallBallsLoop (g : Game K) (i : ℕ) (cell dynamicCell : CellPtr) (sizeSmall sumR : K) :
    ℕ → Game K
  | 0 => g
  | n + 1 => smallBallsLoop (g.smallBall i cell dynamicCell sizeSmall sumR) i cell dynamicCell
      sizeSmall sumR n

/-- `a - b` on `size_t`. -/
def subSize (a b : ℕ) : ℕ := (a + 2 ^ 32 - b % 2 ^ 32) % 2 ^ 32

theorem bigPops_dynamicMap (g : Game K) (i : ℕ) (popCell : CellPtr) (angle : Vec2 K) (left : ℕ) :
    (g.bigPops i popCell angle left).dynamicMap = g.dynamicMap := by
  induction left generalizing g popCell angle with
  | zero => rfl
  | succ left ih =>
    rw [bigPops]
    split_ifs
    · exact (ih _ _ _).trans rfl
    · rfl

theorem smallBallsLoop_dynamicMap (g : Game K) (i : ℕ) (cell d : CellPtr) (size sumR : K) (n : ℕ) :
    (g.smallBallsLoop i cell d size sumR n).dynamicMap = g.dynamicMap := by
  induction n generalizing g with
  | zero => rfl
  | succ n ih => exact (ih _).trans rfl

section Dynamic
variable [FloorRing K]

/-- `min(16 - Cells.size(), popSize / PLAYER_MIN_SIZE)`, truncated. -/
def smallBallCount (count : ℕ) (popSize : K) : ℕ :=
  (trunc (min (subSize 16 count : K) (popSize / playerMinSize))).toNat

def smallBallSize (balls : ℕ) (popSize : K) : K := min (2 * playerMinSize) (popSize / balls)

/-- The small balls of a pop. -/
def smallBalls (g : Game K) (i : ℕ) (cell dynamicCell : CellPtr) : Game K :=
  let popSize := (g.heap cell).size
  let count := (g.cellsOf i).length
  let g := g.note (.slots count)
  let balls := smallBallCount count popSize
  if balls ≠ 0 then
    let sizeSmall := smallBallSize balls popSize
    let radiusSmall := Cell.getRadius sizeSmall
    let g := g.addSize cell (-(balls : K) * sizeSmall)
    let sumR := (g.heap cell).radius + radiusSmall
    g.smallBallsLoop i cell dynamicCell sizeSmall sumR balls
  else g

/-- The cell that ate a virus pops. -/
def popVirus (g : Game K) (i : ℕ) (cell dynamicCell : CellPtr) : Game K :=
  let pop : Call K := .pop cell (g.heap cell).size (g.cellsOf i).length
  ((g.bigPops i cell ⟨1, 0⟩ 4).note pop).smallBalls i cell dynamicCell

/-- The loop of `CollideDynamic` over `DynamicMap` for one cell of the player. The flag says
that the outer index steps back. -/
def collideDynamicWith (g : Game K) (i : ℕ) (cell : CellPtr) (myLoop loop : ℕ) : Game K × Bool :=
  match h : g.dynamicMap[loop]? with
  | none => (g, false)
  | some dynamicCell =>
    let flag := (g.heap dynamicCell).flag
    let result := (g.heap cell).collide (g.heap dynamicCell)
    if result = .bigger then
      let g' := (g.noteCollide cell dynamicCell).eatDynamic cell dynamicCell loop
      if flag.isVirus ∧ (g'.cellsOf i).length < 16 then (g'.popVirus i cell dynamicCell, true)
      else collideDynamicWith g' i cell myLoop loop
    else if result = .smaller ∧ ¬ (flag.isFood ∨ flag.isVirus) then
      ((g.noteCollide cell dynamicCell).absorbDynamic i cell dynamicCell myLoop, true)
    else collideDynamicWith (g.noteCollide cell dynamicCell) i cell myLoop (loop + 1)
termination_by g.dynamicMap.length - loop
decreasing_by
  · have hlt := getElem?_lt h
    rw [eatDynamic_dynamicMap]
    simp only [noteCollide, note, List.length_eraseIdx_of_lt hlt]
    omega
  · have hlt := getElem?_lt h
    simp only [noteCollide, note]
    omega

theorem popVirus_dynamicMap (g : Game K) (i : ℕ) (cell d : CellPtr) :
    (g.popVirus i cell d).dynamicMap = g.dynamicMap := by
  unfold popVirus smallBalls
  dsimp only
  split_ifs
  · exact (smallBallsLoop_dynamicMap _ _ _ _ _ _ _).trans (bigPops_dynamicMap g _ _ _ _)
  · exact bigPops_dynamicMap g _ _ _ _

/-- A scan that does not step back leaves the player's vector alone; one that does has eaten a
dynamic cell or lost the player's. -/
theorem collideDynamicWith_measure (g : Game K) (i : ℕ) (cell : CellPtr) (myLoop loop : ℕ)
    (hm : myLoop < (g.cellsOf i).length) :
    (g.collideDynamicWith i cell myLoop loop).1.dynamicMap.length ≤ g.dynamicMap.length ∧
    ((g.collideDynamicWith i cell myLoop loop).2 = false →
      (g.collideDynamicWith i cell myLoop loop).1.cellsOf i = g.cellsOf i) ∧
    ((g.collideDynamicWith i cell myLoop loop).2 = true →
      (g.collideDynamicWith i cell myLoop loop).1.dynamicMap.length < g.dynamicMap.length ∨
      ((g.collideDynamicWith i cell myLoop loop).1.cellsOf i).length < (g.cellsOf i).length) := by
  fun_induction collideDynamicWith g i cell myLoop loop with
  | case1 g loop hnone => simp
  | case2 g loop d hd flag result hbig g' hpop =>
    have hlt := getElem?_lt hd
    have hdyn : (g'.popVirus i cell d).dynamicMap.length + 1 = g.dynamicMap.length := by
      rw [popVirus_dynamicMap]
      exact eatDynamic_length (g.noteCollide cell d) cell d loop hlt
    dsimp only
    exact ⟨by omega, by simp, fun _ => Or.inl (by omega)⟩
  | case3 g loop d hd flag result hbig g' hpop ih =>
    have hlt := getElem?_lt hd
    have hcells : g'.cellsOf i = g.cellsOf i := cellsOf_congr rfl i
    have hdyn : g'.dynamicMap.length + 1 = g.dynamicMap.length :=
      eatDynamic_length (g.noteCollide cell d) cell d loop hlt
    obtain ⟨h1, h2, h3⟩ := ih (hcells ▸ hm)
    refine ⟨by omega, fun h => (h2 h).trans hcells, fun h => ?_⟩
    rcases h3 h with h | h
    · exact Or.inl (by omega)
    · exact Or.inr (hcells ▸ h)
  | case4 g loop d hd flag result hbig hsmall =>
    refine ⟨le_rfl, by simp, fun _ => Or.inr ?_⟩
    have hlen := cellsOf_eraseCell_length
      (((g.noteCollide cell d).addSize d ((g.noteCollide cell d).heap cell).size).pushRemoveDynamic
        cell) i myLoop hm
    exact hlen.trans_lt (Nat.sub_lt (Nat.zero_lt_of_lt hm) one_pos)
  | case5 g loop d hd flag result hbig hsmall ih => exact ih hm

/-- The outer loop of `CollideDynamic`. -/
def collideDynamicFrom (g : Game K) (i : ℕ) (myLoop : ℕ) : Game K :=
  match h : (g.cellsOf i)[myLoop]? with
  | none => g
  | some cell =>
    if (g.collideDynamicWith i cell myLoop 0).2 then
      collideDynamicFrom (g.collideDynamicWith i cell myLoop 0).1 i myLoop
    else collideDynamicFrom (g.collideDynamicWith i cell myLoop 0).1 i (myLoop + 1)
termination_by (g.dynamicMap.length, (g.cellsOf i).length - myLoop)
decreasing_by
  · have hlt := getElem?_lt h
    obtain ⟨h1, -, h3⟩ := collideDynamicWith_measure g i cell myLoop 0 hlt
    rcases Nat.lt_or_eq_of_le h1 with hd | hd
    · exact Prod.Lex.left _ _ hd
    · rw [hd]
      apply Prod.Lex.right
      rcases h3 ‹_› with h | h <;> omega
  · have hlt := getElem?_lt h
    obtain ⟨h1, h2, -⟩ := collideDynamicWith_measure g i cell myLoop 0 hlt
    rw [h2 (Bool.eq_false_iff.mpr ‹_›)]
    rcases Nat.lt_or_eq_of_le h1 with hd | hd
    · exact Prod.Lex.left _ _ hd
    · rw [hd]
      exact Prod.Lex.right _ (by omega)

def collideDynamic (g : Game K) (i : ℕ) : Game K := g.collideDynamicFrom i 0

end Dynamic

/-- Two own cells that may not combine yet push each other apart. -/
def pushApart (g : Game K) (cell otherCell : CellPtr) : Game K :=
  let overlap := (g.heap cell).overlapOf (g.heap otherCell)
  let size := (g.heap cell).radius
  let otherSize := (g.heap otherCell).radius
  let alpha := otherSize / (size + otherSize)
  let intersect := ((g.heap otherCell).position - (g.heap cell).position).normalize *
    min (50 : K) (overlap * 0.5)
  let g := g.setCell cell ((g.heap cell).moveRel (intersect * (-max 0 alpha)))
  g.setCell otherCell ((g.heap otherCell).moveRel (intersect * (1 - alpha)))

/-- `CurrentTime > cell->CombineTime`. -/
def ready (g : Game K) (cell : CellPtr) : Bool := (g.heap cell).combineTime < g.currentTime

/-- The two combine times are read, the second one only when the first has passed. -/
def noteCombine (g : Game K) (cell otherCell : CellPtr) : Game K :=
  let g := g.note (.readCombine cell (g.heap cell).combineSet)
  if g.ready cell then g.note (.readCombine otherCell (g.heap otherCell).combineSet) else g

/-- A comparison of `CollideSelf`, as far as it is recorded. -/
def noteSelf (g : Game K) (cell otherCell : CellPtr) : Game K :=
  (g.noteCollide cell otherCell).noteCombine cell otherCell

@[simp] theorem noteSelf_players (g : Game K) (a b : CellPtr) :
    (g.noteSelf a b).players = g.players := by
  unfold noteSelf noteCombine
  dsimp only
  split_ifs <;> rfl

/-- The loop of `CollideSelf` for one cell. The second component is the outer index after it. -/
def collideSelfWith (g : Game K) (i : ℕ) (cell : CellPtr) (myLoop : ℤ) (loop : ℕ) : Game K × ℤ :=
  match h : (g.cellsOf i)[loop]? with
  | none => (g, myLoop)
  | some otherCell =>
    let result := (g.heap cell).collide (g.heap otherCell)
    let g' := g.noteSelf cell otherCell
    if g.ready cell ∧ g.ready otherCell then
      if Collision.overlap.rank ≤ result.rank then
        if (g.heap otherCell).radius < (g.heap cell).radius then
          collideSelfWith (g'.eatOwn i cell otherCell loop) i cell myLoop loop
        else
          collideSelfWith (g'.absorbOwn i cell otherCell myLoop) i cell (max (-1) (myLoop - 1))
            (loop + 1)
      else collideSelfWith g' i cell myLoop (loop + 1)
    else if Collision.none.rank < result.rank then
      collideSelfWith (g'.pushApart cell otherCell) i cell myLoop (loop + 1)
    else collideSelfWith g' i cell myLoop (loop + 1)
termination_by (g.cellsOf i).length - loop
decreasing_by
  all_goals have hlt := getElem?_lt h
  all_goals have hn : g'.cellsOf i = g.cellsOf i := cellsOf_congr (noteSelf_players _ _ _) i
  · rw [eatOwn_length _ _ _ _ _ (by rw [hn]; exact hlt), hn]
    omega
  · have hle := absorbOwn_length_le g' i cell otherCell myLoop
    rw [hn] at hle
    exact lt_of_le_of_lt (Nat.sub_le_sub_right hle _) (by omega)
  · rw [hn]; omega
  · have hp : (g'.pushApart cell otherCell).cellsOf i = g.cellsOf i := hn
    rw [hp]; omega
  · rw [hn]; omega

theorem collideSelfWith_measure (g : Game K) (i : ℕ) (cell : CellPtr) (myLoop : ℤ) (loop : ℕ)
    (hm : -1 ≤ myLoop) (hl : myLoop < loop) :
    -1 ≤ (g.collideSelfWith i cell myLoop loop).2 ∧
    (((g.collideSelfWith i cell myLoop loop).1.cellsOf i).length : ℤ) -
        (g.collideSelfWith i cell myLoop loop).2 ≤ (g.cellsOf i).length - myLoop := by
  fun_induction collideSelfWith g i cell myLoop loop with
  | case1 g myLoop loop hnone => exact ⟨hm, le_rfl⟩
  | case2 g myLoop loop o ho result g' hready hover hbig ih =>
    have hlt := getElem?_lt ho
    have hn : g'.cellsOf i = g.cellsOf i := cellsOf_congr (noteSelf_players _ _ _) i
    have hlen := eatOwn_length g' i cell o loop (by rw [hn]; exact hlt)
    obtain ⟨h1, h2⟩ := ih hm hl
    rw [hn] at hlen
    exact ⟨h1, by omega⟩
  | case3 g myLoop loop o ho result g' hready hover hbig ih =>
    have hlt := getElem?_lt ho
    have hn : g'.cellsOf i = g.cellsOf i := cellsOf_congr (noteSelf_players _ _ _) i
    have hle := absorbOwn_length_le g' i cell o myLoop
    have hlen := absorbOwn_length g' i cell o myLoop
    obtain ⟨h1, h2⟩ := ih (le_max_left _ _) (by push_cast; omega)
    rw [hn] at hle hlen
    -- at `-1` nothing is erased and the index stays, elsewhere both go down by one
    rcases eq_or_lt_of_le hm with h0 | h0
    · exact ⟨h1, by omega⟩
    · have := hlen (by omega) (by omega)
      exact ⟨h1, by omega⟩
  | case4 g myLoop loop o ho result g' hready hover ih =>
    have hn : g'.cellsOf i = g.cellsOf i := cellsOf_congr (noteSelf_players _ _ _) i
    rw [hn] at ih
    exact ih hm (by push_cast; omega)
  | case5 g myLoop loop o ho result g' hready htouch ih =>
    have hn : (g'.pushApart cell o).cellsOf i = g.cellsOf i :=
      cellsOf_congr (noteSelf_players _ _ _) i
    rw [hn] at ih
    exact ih hm (by push_cast; omega)
  | case6 g myLoop loop o ho result g' hready htouch ih =>
    have hn : g'.cellsOf i = g.cellsOf i := cellsOf_congr (noteSelf_players _ _ _) i
    rw [hn] at ih
    exact ih hm (by push_cast; omega)

/-- The outer loop of `CollideSelf`. -/
def collideSelfFrom (g : Game K) (i : ℕ) (myLoop : ℕ) : Game K :=
  match h : (g.cellsOf i)[myLoop]? with
  | none => g
  | some cell =>
    let r := g.collideSelfWith i cell myLoop (myLoop + 1)
    collideSelfFrom r.1 i (r.2 + 1).toNat
termination_by (g.cellsOf i).length - myLoop
decreasing_by
  have hlt := getElem?_lt h
  have hm := collideSelfWith_measure g i cell myLoop (myLoop + 1) (by omega) (by omega)
  omega

def collideSelf (g : Game K) (i : ℕ) : Game K := g.collideSelfFrom i 0

/-- The player's cell eats a cell of player `x`. -/
def eatOther (g : Game K) (x : ℕ) (cell otherCell : CellPtr) (loop : ℕ) : Game K :=
  ((g.addSize cell (g.heap otherCell).size).pushRemoveDynamic otherCell).eraseCell x loop

/-- A cell of the other player eats the player's cell. -/
def absorbOther (g : Game K) (i : ℕ) (cell otherCell : CellPtr) (myLoop : ℕ) : Game K :=
  ((g.addSize otherCell (g.heap cell).size).pushRemoveDynamic cell).eraseCell i myLoop

/-- The loop of `CollideOtherPlayer` over the cells of player `x` for one own cell. The flag says
that the outer index steps back. -/
def collideOtherWith (g : Game K) (i x : ℕ) (cell : CellPtr) (myLoop loop : ℕ) : Game K × Bool :=
  match h : (g.cellsOf x)[loop]? with
  | none => (g, false)
  | some otherCell =>
    let result := (g.heap cell).collide (g.heap otherCell)
    let g' := g.noteCollide cell otherCell
    if result = .bigger then
      collideOtherWith (g'.eatOther x cell otherCell loop) i x cell myLoop loop
    else if result = .smaller then (g'.absorbOther i cell otherCell myLoop, true)
    else collideOtherWith g' i x cell myLoop (loop + 1)
termination_by (g.cellsOf x).length - loop
decreasing_by
  · have hlt := getElem?_lt h
    have hlen := cellsOf_eraseCell_length
      ((g'.addSize cell (g'.heap otherCell).size).pushRemoveDynamic otherCell) x loop hlt
    have hc : ((g'.addSize cell (g'.heap otherCell).size).pushRemoveDynamic otherCell).cellsOf x =
      g.cellsOf x := cellsOf_congr rfl x
    rw [eatOther, hlen, hc]
    omega
  · have hlt := getElem?_lt h
    rw [show g'.cellsOf x = g.cellsOf x from cellsOf_congr rfl x]
    omega

theorem collideOtherWith_measure (g : Game K) (i x : ℕ) (cell : CellPtr) (myLoop loop : ℕ) :
    ((g.collideOtherWith i x cell myLoop loop).1.cellsOf i).length ≤ (g.cellsOf i).length ∧
    ((g.collideOtherWith i x cell myLoop loop).2 = true →
      ((g.collideOtherWith i x cell myLoop loop).1.cellsOf i).length < (g.cellsOf i).length ∨
        ((g.collideOtherWith i x cell myLoop loop).1.cellsOf i).length ≤ myLoop) := by
  fun_induction collideOtherWith g i x cell myLoop loop with
  | case1 g loop hnone => simp
  | case2 g loop o ho result g' hbig ih =>
    have hle : ((g'.eatOther x cell o loop).cellsOf i).length ≤ (g.cellsOf i).length :=
      cellsOf_eraseCell_length_le
        ((g'.addSize cell (g'.heap o).size).pushRemoveDynamic o) x i loop
    obtain ⟨h1, h2⟩ := ih
    refine ⟨h1.trans hle, fun h => ?_⟩
    rcases h2 h with h | h
    · exact Or.inl (h.trans_le hle)
    · exact Or.inr h
  | case3 g loop o ho result g' hbig hsmall =>
    have hle : ((g'.absorbOther i cell o myLoop).cellsOf i).length ≤ (g.cellsOf i).length :=
      cellsOf_eraseCell_length_le
        ((g'.addSize o (g'.heap cell).size).pushRemoveDynamic cell) i i myLoop
    refine ⟨hle, fun _ => ?_⟩
    rcases Nat.lt_or_ge myLoop (g.cellsOf i).length with hlt | hge
    · have hlen : ((g'.absorbOther i cell o myLoop).cellsOf i).length = (g.cellsOf i).length - 1 :=
        cellsOf_eraseCell_length
          ((g'.addSize o (g'.heap cell).size).pushRemoveDynamic cell) i myLoop hlt
      exact Or.inl (by dsimp only; omega)
    · exact Or.inr (hle.trans hge)
  | case4 g loop o ho result g' hbig hsmall ih => exact ih

/-- The loop of `CollideOtherPlayer` over the player's cells, against player `x`. -/
def collideOtherFrom (g : Game K) (i x : ℕ) (myLoop : ℕ) : Game K :=
  match h : (g.cellsOf i)[myLoop]? with
  | none => g
  | some cell =>
    if (g.collideOtherWith i x cell myLoop 0).2 then
      collideOtherFrom (g.collideOtherWith i x cell myLoop 0).1 i x myLoop
    else collideOtherFrom (g.collideOtherWith i x cell myLoop 0).1 i x (myLoop + 1)
termination_by (g.cellsOf i).length - myLoop
decreasing_by
  all_goals have hlt := getElem?_lt h
  all_goals obtain ⟨h1, h2⟩ := collideOtherWith_measure g i x cell myLoop 0
  · rcases h2 ‹_› with h | h <;> omega
  · omega

def collideOtherPlayer (g : Game K) (i start : ℕ) : Game K :=
  (List.range' start (g.players.length - start)).foldl (fun g x => g.collideOtherFrom i x 0) g

/-- The three passes of a player over the map and its own cells. -/
def collideOwn [FloorRing K] (g : Game K) (i : ℕ) : Game K :=
  ((g.collideStatic i).collideDynamic i).collideSelf i

def collisionPhase [FloorRing K] (g : Game K) : Game K :=
  let g := (List.range g.players.length).foldl collideOwn g
  (List.range g.players.length).foldl (fun g i => g.collideOtherPlayer i (i + 1)) g

end Game

end Agar
