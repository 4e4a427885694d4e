import Agar.Server

/-! What a single statement of the collision passes and of the commands can do to the server, and
the invariant of the containers that every such effect keeps. -/

namespace Agar

section Pop
variable {K : Type} [Field K] [LinearOrder K] [FloorRing K]

/-- The number of big halves of a pop: a cell of the size, in a player with `count` cells. -/
def popHalves (size : K) (count : ℕ) : ℕ → ℕ
  | 0 => 0
  | left + 1 =>
    if 500 < size ∧ count < 16 then
      popHalves (size * (1 - Game.splitRatio)) (count + 1) left + 1
    else 0

/-- What the cell keeps after the big halves: only the first one is taken from it. -/
def popRest (size : K) (count : ℕ) : K :=
  if popHalves size count 4 = 0 then size else size * (1 - Game.splitRatio)

/-- The number of small balls of the pop. -/
def popBalls (size : K) (count : ℕ) : ℕ :=
  Game.smallBallCount (count + popHalves size count 4) (popRest size count)

/-- The small balls take all that the cell has left. -/
def popEmpties (size : K) (count : ℕ) : Prop :=
  popBalls size count ≠ 0 ∧ popRest size count ≤ 2 * playerMinSize * (popBalls size count : K)

end Pop

namespace Call

/-- The numbers of the call are positive where the code relies on it. -/
def Sound : Call ℝ → Prop
  | .collide _ _ ra rb _ => 0 < ra ∧ 0 < rb
  | .addSize _ size added => 0 < size + added
  | .update _ radius => 0 < radius
  | _ => True

/-- The number of cells the call sees is within the cap. -/
def Capped : Call ℝ → Prop
  | .slots count => count ≤ 16
  | .pushed count => count ≤ 16
  | _ => True

/-- The call is a pop that leaves the cell nothing. -/
def Empties : Call ℝ → Prop
  | .pop _ size count => popEmpties size count
  | _ => False

/-- The call moves a cell. -/
def Drives : Call ℝ → Prop
  | .update _ _ => True
  | _ => False

/-- The call absorbs a cell that is not in the slot erased for it. -/
def Strays : Call ℝ → Prop
  | .absorb cell slot => slot ≠ some cell
  | _ => False

end Call

/-- The food flag alone. -/
def foodFlag : CellFlag := { isFood := true }
def virusFlag : CellFlag := { isVirus := true }
def playerFlag : CellFlag := { isPlayer := true }

/-- Where `Cell::_MoveAbs` puts a cell. -/
def OnMap (v : Vec2 ℝ) : Prop :=
  0 ≤ v.x ∧ v.x ≤ (mapSize : ℝ) - 0.001 ∧ 0 ≤ v.y ∧ v.y ≤ (mapSize : ℝ) - 0.001

theorem moveAbs_onMap (c : Cell ℝ) (v : Vec2 ℝ) : OnMap (c.moveAbs v).position := by
  have hsize : (0 : ℝ) ≤ (mapSize : ℝ) - 0.001 := by norm_num [mapSize, blockSize, numBlocks]
  refine ⟨?_, ?_, ?_, ?_⟩
  · exact le_min hsize (le_max_left _ _)
  · exact min_le_left _ _
  · exact le_min hsize (le_max_left _ _)
  · exact min_le_left _ _

theorem moveAbs_of_onMap {v : Vec2 ℝ} (h : OnMap v) (c : Cell ℝ) : (c.moveAbs v).position = v := by
  obtain ⟨hx, hx', hy, hy'⟩ := h
  unfold Cell.moveAbs
  dsimp only
  rw [max_eq_right hx, max_eq_right hy, min_eq_right hx', min_eq_right hy']

namespace Game

section Projections
variable {K : Type} (g : Game K) (c : Call K) (p : CellPtr) (x : Cell K) (i : ℕ)

@[simp] theorem note_allocated : (g.note c).allocated = g.allocated := rfl
@[simp] theorem note_heap : (g.note c).heap = g.heap := rfl
@[simp] theorem note_staticMap : (g.note c).staticMap = g.staticMap := rfl
@[simp] theorem note_dynamicMap : (g.note c).dynamicMap = g.dynamicMap := rfl
@[simp] theorem note_cellEvents : (g.note c).cellEvents = g.cellEvents := rfl
@[simp] theorem note_players : (g.note c).players = g.players := rfl
@[simp] theorem note_currentTime : (g.note c).currentTime = g.currentTime := rfl
@[simp] theorem note_calls : (g.note c).calls = g.calls ++ [c] := rfl
@[simp] theorem note_cellsOf : (g.note c).cellsOf i = g.cellsOf i := rfl

@[simp] theorem setCell_allocated : (g.setCell p x).allocated = g.allocated := rfl
@[simp] theorem setCell_staticMap : (g.setCell p x).staticMap = g.staticMap := rfl
@[simp] theorem setCell_dynamicMap : (g.setCell p x).dynamicMap = g.dynamicMap := rfl
@[simp] theorem setCell_cellEvents : (g.setCell p x).cellEvents = g.cellEvents := rfl
@[simp] theorem setCell_players : (g.setCell p x).players = g.players := rfl
@[simp] theorem setCell_currentTime : (g.setCell p x).currentTime = g.currentTime := rfl
@[simp] theorem setCell_calls : (g.setCell p x).calls = g.calls := rfl
@[simp] theorem setCell_cellsOf : (g.setCell p x).cellsOf i = g.cellsOf i := rfl

theorem setCell_heap (q : CellPtr) :
    (g.setCell p x).heap q = if q = p then x else g.heap q := rfl

@[simp] theorem setCell_heap_self : (g.setCell p x).heap p = x := if_pos rfl

theorem setCell_heap_ne {q : CellPtr} (h : q ≠ p) : (g.setCell p x).heap q = g.heap q := if_neg h

theorem cellsOf_setCells (l : List CellPtr) (j : ℕ) :
    (g.setCells i l).cellsOf j = if i = j ∧ i < g.players.length then l else g.cellsOf j := by
  by_cases hij : i = j
  · subst hij
    by_cases hi : i < g.players.length
    · rw [if_pos ⟨rfl, hi⟩, cellsOf_setCells_self _ _ _ hi]
    · have hnone : (g.setCells i l).players[i]? = none := by
        simp only [setCells]
        exact List.getElem?_eq_none (by simpa using hi)
      have hnone' : g.players[i]? = none := List.getElem?_eq_none (not_lt.mp hi)
      rw [if_neg (fun h => hi h.2), cellsOf, cellsOf, hnone, hnone']
  · rw [if_neg (fun h => hij h.1), cellsOf_setCells_ne _ _ hij]

end Projections

variable {g g' : Game ℝ}

/-- A cell that is or was a player's. -/
def Owned (g : Game ℝ) (p : CellPtr) : Prop := p < g.allocated ∧ (g.heap p).flag = playerFlag

/-- Every cell constructed so far has a positive radius. -/
def Positive (g : Game ℝ) : Prop := ∀ p < g.allocated, 0 < (g.heap p).radius

/-- The containers hold what they are for, each cell once. -/
structure WellFormed (g : Game ℝ) : Prop where
  food_le : maxFood ≤ g.allocated
  id : ∀ p < g.allocated, (g.heap p).id = BitVec.ofNat 32 p
  radius : ∀ p < g.allocated, 0 ≤ (g.heap p).radius
  static : ∀ b, ∀ p ∈ g.staticMap b,
    p < maxFood ∧ (g.heap p).flag = foodFlag ∧ indexFromCoord (g.heap p).position = b
  static_nodup : ∀ b, (g.staticMap b).Nodup
  dynamic : ∀ p ∈ g.dynamicMap, maxFood ≤ p ∧ p < g.allocated ∧
    ((g.heap p).flag = foodFlag ∨ (g.heap p).flag = virusFlag)
  dynamic_nodup : g.dynamicMap.Nodup
  owned : ∀ i, ∀ p ∈ g.cellsOf i, g.Owned p
  owned_food : ∀ p, g.Owned p → maxFood ≤ p
  cells_nodup : ∀ i, (g.cellsOf i).Nodup
  cells_disjoint : ∀ i j, i ≠ j → ∀ p ∈ g.cellsOf i, p ∉ g.cellsOf j
  cap : ∀ i, (g.cellsOf i).length ≤ 16
  capped : ∀ c ∈ g.calls, c.Capped

/-- A new cell of player `i`. -/
def spawn (g : Game ℝ) (i : ℕ) (c : Cell ℝ) : Game ℝ :=
  { g.setCell g.allocated c with allocated := g.allocated + 1 }.pushCell i g.allocated

/-- A new cell of `DynamicMap`. -/
def eject (g : Game ℝ) (c : Cell ℝ) : Game ℝ :=
  { g.setCell g.allocated c with allocated := g.allocated + 1 }.addDynamic g.allocated

/-- One effect of the collision passes and of the commands. -/
inductive Effect : Game ℝ → Game ℝ → Prop
  | note (g : Game ℝ) (c : Call ℝ) (hsound : g.Positive → c.Sound) (hcap : c.Capped)
      (hstay : ¬ c.Strays) (hleft : ¬ c.Empties) (hrest : ¬ c.Drives) : Effect g (g.note c)
  | draw (g : Game ℝ) : Effect g g.nextRand.2
  /-- A player's cell, or one that was, changes its motion, radius or combine time. -/
  | change (g : Game ℝ) (p : CellPtr) (c : Cell ℝ) (howned : g.Owned p)
      (hid : c.id = (g.heap p).id) (hcolor : c.color = (g.heap p).color)
      (hflag : c.flag = (g.heap p).flag) (hradius : 0 ≤ c.radius)
      (hpos : OnMap c.position ∨ c.position = (g.heap p).position)
      (hpositive : g.Positive → 0 < c.radius) : Effect g (g.setCell p c)
  | spawn (g : Game ℝ) (i : ℕ) (c : Cell ℝ) (hi : i < g.players.length)
      (hcap : (g.cellsOf i).length < 16) (hid : c.id = BitVec.ofNat 32 g.allocated)
      (hflag : c.flag = playerFlag) (hradius : 0 ≤ c.radius)
      (hpositive : g.Positive → 0 < c.radius) : Effect g (g.spawn i c)
  | eject (g : Game ℝ) (c : Cell ℝ) (hid : c.id = BitVec.ofNat 32 g.allocated)
      (hflag : c.flag = foodFlag) (hradius : 0 < c.radius) : Effect g (g.eject c)
  | killStatic (g : Game ℝ) (b : Vec2i) (loop : ℕ) (p : CellPtr)
      (h : (g.staticMap b)[loop]? = some p) : Effect g ((g.pushRemoveStatic p).removeStaticAt b loop)
  | killDynamic (g : Game ℝ) (loop : ℕ) (p : CellPtr) (h : g.dynamicMap[loop]? = some p) :
      Effect g ((g.pushRemoveDynamic p).eraseDynamic loop)
  | kill (g : Game ℝ) (i loop : ℕ) (p : CellPtr) (h : (g.cellsOf i)[loop]? = some p) :
      Effect g ((g.pushRemoveDynamic p).eraseCell i loop)
  /-- A cell that was removed before is reported once more, and another slot is erased. -/
  | stray (g : Game ℝ) (i : ℕ) (myLoop : ℤ) (p : CellPtr) (slot : Option CellPtr)
      (hp : p ∈ g.cellEvents.removeDynamic) (hslot : slot ≠ some p) :
      Effect g (((g.note (.absorb p slot)).pushRemoveDynamic p).eraseCellAt i myLoop)
  /-- A pop whose small balls take all the cell has left. -/
  | pour (g : Game ℝ) (p : CellPtr) (size : ℝ) (count slots : ℕ) (s : ℝ) (howned : g.Owned p)
      (hempties : popEmpties size count) (hcap : slots ≤ 16) (hsum : (g.heap p).size + s ≤ 0) :
      Effect g (((g.note (.pop p size count)).note (.slots slots)).addSize p s)

end Game

/-- A player without its cells. -/
def Player.core {K : Type} (p : Player K) : Player K := { p with cells := [] }

namespace Game

theorem core_setCells (g : Game ℝ) (i : ℕ) (l : List CellPtr) :
    (g.setCells i l).players.map Player.core = g.players.map Player.core := by
  apply List.ext_getElem?
  intro n
  simp only [setCells, List.getElem?_map, List.getElem?_modify]
  rcases g.players[n]? with - | p
  · rfl
  · by_cases h : i = n <;> simp [h, Player.core]

/-- The direction in which effects move the server. -/
structure Drift (g g' : Game ℝ) : Prop where
  allocated : g.allocated ≤ g'.allocated
  identity : ∀ p < g.allocated, (g'.heap p).id = (g.heap p).id ∧
    (g'.heap p).color = (g.heap p).color ∧ (g'.heap p).flag = (g.heap p).flag
  others : ∀ p < g.allocated, (g.heap p).flag ≠ playerFlag → g'.heap p = g.heap p
  onMap : ∀ p < g.allocated, OnMap (g.heap p).position → OnMap (g'.heap p).position
  currentTime : g'.currentTime = g.currentTime
  move : g'.cellEvents.move = g.cellEvents.move
  addStatic : g'.cellEvents.addStatic = g.cellEvents.addStatic
  addDynamic : g'.cellEvents.addDynamic = g.cellEvents.addDynamic
  removeStatic : g.cellEvents.removeStatic <+: g'.cellEvents.removeStatic
  removeDynamic : g.cellEvents.removeDynamic <+: g'.cellEvents.removeDynamic
  calls : g.calls <+: g'.calls
  static : ∀ b, (g'.staticMap b).Sublist (g.staticMap b)
  dynamic : ∀ p < g.allocated, p ∈ g'.dynamicMap → p ∈ g.dynamicMap
  cells : ∀ i, ∀ p < g.allocated, p ∈ g'.cellsOf i → p ∈ g.cellsOf i

theorem Drift.refl (g : Game ℝ) : Drift g g where
  allocated := le_rfl
  identity := fun _ _ => ⟨rfl, rfl, rfl⟩
  others := fun _ _ _ => rfl
  onMap := fun _ _ h => h
  currentTime := rfl
  move := rfl
  addStatic := rfl
  addDynamic := rfl
  removeStatic := List.prefix_rfl
  removeDynamic := List.prefix_rfl
  calls := List.prefix_rfl
  static := fun _ => List.Sublist.refl _
  dynamic := fun _ _ h => h
  cells := fun _ _ _ h => h

theorem Drift.trans {g g' g'' : Game ℝ} (h : Drift g g') (h' : Drift g' g'') : Drift g g'' where
  allocated := h.allocated.trans h'.allocated
  identity := fun p hp => by
    obtain ⟨h1, h2, h3⟩ := h.identity p hp
    obtain ⟨h1', h2', h3'⟩ := h'.identity p (hp.trans_le h.allocated)
    exact ⟨h1'.trans h1, h2'.trans h2, h3'.trans h3⟩
  others := fun p hp hf => by
    have hf' : (g'.heap p).flag ≠ playerFlag := by rw [(h.identity p hp).2.2]; exact hf
    rw [h'.others p (hp.trans_le h.allocated) hf', h.others p hp hf]
  onMap := fun p hp ho => h'.onMap p (hp.trans_le h.allocated) (h.onMap p hp ho)
  currentTime := h'.currentTime.trans h.currentTime
  move := h'.move.trans h.move
  addStatic := h'.addStatic.trans h.addStatic
  addDynamic := h'.addDynamic.trans h.addDynamic
  removeStatic := h.removeStatic.trans h'.removeStatic
  removeDynamic := h.removeDynamic.trans h'.removeDynamic
  calls := h.calls.trans h'.calls
  static := fun b => (h'.static b).trans (h.static b)
  dynamic := fun p hp hm => h.dynamic p hp (h'.dynamic p (hp.trans_le h.allocated) hm)
  cells := fun i p hp hm => h.cells i p hp (h'.cells i p (hp.trans_le h.allocated) hm)

/-- A drift that leaves the players alone but for their cells. -/
structure Frame (g g' : Game ℝ) : Prop extends Drift g g' where
  core : g'.players.map Player.core = g.players.map Player.core

theorem Frame.refl (g : Game ℝ) : Frame g g := ⟨Drift.refl g, rfl⟩

theorem Frame.trans {g g' g'' : Game ℝ} (h : Frame g g') (h' : Frame g' g'') : Frame g g'' :=
  ⟨h.toDrift.trans h'.toDrift, h'.core.trans h.core⟩

theorem removeStaticAt_sublist (g : Game ℝ) (b : Vec2i) (loop : ℕ) (b' : Vec2i) :
    ((g.removeStaticAt b loop).staticMap b').Sublist (g.staticMap b') := by
  unfold removeStaticAt
  by_cases h : b' = b
  · subst h
    simpa using List.eraseIdx_sublist _ _
  · simp [h]

theorem eraseCell_sublist (g : Game ℝ) (i loop j : ℕ) :
    ((g.eraseCell i loop).cellsOf j).Sublist (g.cellsOf j) := by
  rw [eraseCell, cellsOf_setCells]
  split_ifs with h
  · rw [← h.1]
    exact List.eraseIdx_sublist _ _
  · exact List.Sublist.refl _

theorem eraseCellAt_sublist (g : Game ℝ) (i : ℕ) (myLoop : ℤ) (j : ℕ) :
    ((g.eraseCellAt i myLoop).cellsOf j).Sublist (g.cellsOf j) := by
  unfold eraseCellAt
  split_ifs
  · exact eraseCell_sublist _ _ _ _
  · exact List.Sublist.refl _

@[simp] theorem spawn_allocated (g : Game ℝ) (i : ℕ) (c : Cell ℝ) :
    (g.spawn i c).allocated = g.allocated + 1 := rfl

theorem spawn_heap (g : Game ℝ) (i : ℕ) (c : Cell ℝ) (p : CellPtr) :
    (g.spawn i c).heap p = if p = g.allocated then c else g.heap p := rfl

theorem spawn_cellsOf (g : Game ℝ) (i : ℕ) (c : Cell ℝ) (j : ℕ) (hi : i < g.players.length) :
    (g.spawn i c).cellsOf j = if i = j then g.cellsOf i ++ [g.allocated] else g.cellsOf j := by
  rw [spawn, pushCell, note_cellsOf, cellsOf_setCells]
  have hl : i < g.players.length ↔ True := iff_true_intro hi
  simp only [setCell_players, hl, and_true]
  rfl

@[simp] theorem eject_allocated (g : Game ℝ) (c : Cell ℝ) :
    (g.eject c).allocated = g.allocated + 1 := rfl

theorem eject_heap (g : Game ℝ) (c : Cell ℝ) (p : CellPtr) :
    (g.eject c).heap p = if p = g.allocated then c else g.heap p := rfl

theorem eraseCellAt_core (g : Game ℝ) (i : ℕ) (myLoop : ℤ) :
    (g.eraseCellAt i myLoop).players.map Player.core = g.players.map Player.core := by
  unfold eraseCellAt
  split_ifs
  · exact core_setCells _ _ _
  · rfl

theorem eraseCellAt_frame (g : Game ℝ) (i : ℕ) (myLoop : ℤ) :
    (g.eraseCellAt i myLoop).allocated = g.allocated ∧ (g.eraseCellAt i myLoop).heap = g.heap ∧
    (g.eraseCellAt i myLoop).staticMap = g.staticMap ∧
    (g.eraseCellAt i myLoop).dynamicMap = g.dynamicMap ∧
    (g.eraseCellAt i myLoop).cellEvents = g.cellEvents ∧
    (g.eraseCellAt i myLoop).calls = g.calls ∧
    (g.eraseCellAt i myLoop).currentTime = g.currentTime := by
  unfold eraseCellAt
  split_ifs <;> exact ⟨rfl, rfl, rfl, rfl, rfl, rfl, rfl⟩

theorem Frame.of_removal {g g' : Game ℝ} (hallocated : g'.allocated = g.allocated)
    (hheap : g'.heap = g.heap) (hcore : g'.players.map Player.core = g.players.map Player.core)
    (htime : g'.currentTime = g.currentTime) (hmove : g'.cellEvents.move = g.cellEvents.move)
    (haddStatic : g'.cellEvents.addStatic = g.cellEvents.addStatic)
    (haddDynamic : g'.cellEvents.addDynamic = g.cellEvents.addDynamic)
    (hremoveStatic : g.cellEvents.removeStatic <+: g'.cellEvents.removeStatic)
    (hremoveDynamic : g.cellEvents.removeDynamic <+: g'.cellEvents.removeDynamic)
    (hcalls : g.calls <+: g'.calls) (hstatic : ∀ b, (g'.staticMap b).Sublist (g.staticMap b))
    (hdynamic : g'.dynamicMap.Sublist g.dynamicMap)
    (hcells : ∀ i, (g'.cellsOf i).Sublist (g.cellsOf i)) : Frame g g' where
  allocated := hallocated.ge
  identity := fun p _ => by rw [hheap]; exact ⟨rfl, rfl, rfl⟩
  others := fun p _ _ => by rw [hheap]
  onMap := fun p _ h => by rw [hheap]; exact h
  core := hcore
  currentTime := htime
  move := hmove
  addStatic := haddStatic
  addDynamic := haddDynamic
  removeStatic := hremoveStatic
  removeDynamic := hremoveDynamic
  calls := hcalls
  static := hstatic
  dynamic := fun _ _ h => hdynamic.subset h
  cells := fun i _ _ h => (hcells i).subset h

theorem note_frame (g : Game ℝ) (c : Call ℝ) : Frame g (g.note c) :=
  { Frame.refl g with calls := List.prefix_append _ _ }

theorem change_frame {g : Game ℝ} {p : CellPtr} {c : Cell ℝ} (howned : g.Owned p)
    (hid : c.id = (g.heap p).id) (hcolor : c.color = (g.heap p).color)
    (hflag : c.flag = (g.heap p).flag)
    (hpos : OnMap c.position ∨ c.position = (g.heap p).position) : Frame g (g.setCell p c) := by
  refine { Frame.refl g with identity := ?_, others := ?_, onMap := ?_ }
  · intro q _
    rw [setCell_heap]
    split_ifs with hq
    · exact hq ▸ ⟨hid, hcolor, hflag⟩
    · exact ⟨rfl, rfl, rfl⟩
  · intro q _ hf
    exact setCell_heap_ne _ _ _ fun hq => hf (hq ▸ howned.2)
  · intro q _ ho
    rw [setCell_heap]
    split_ifs with hq
    · rcases hpos with hpos | hpos
      · exact hpos
      · exact hpos ▸ hq ▸ ho
    · exact ho

theorem Effect.frame {g g' : Game ℝ} (h : Effect g g') : Frame g g' := by
  cases h with
  | note c hs hc hstay hleft =>
    exact note_frame g c
  | draw => exact { Frame.refl g with }
  | change p c howned hid hcolor hflag hradius hpos hpositive =>
    exact change_frame howned hid hcolor hflag hpos
  | spawn i c hi hcap hid hflag hradius hpositive =>
    refine { Frame.refl g with
      allocated := Nat.le_succ _, identity := ?_, others := ?_, onMap := ?_,
      calls := List.prefix_append _ _, cells := ?_, core := core_setCells _ _ _ }
    · intro q hq
      rw [spawn_heap, if_neg hq.ne]
      exact ⟨rfl, rfl, rfl⟩
    · intro q hq _
      rw [spawn_heap, if_neg hq.ne]
    · intro q hq ho
      rw [spawn_heap, if_neg hq.ne]
      exact ho
    · intro j q hq hm
      rw [spawn_cellsOf _ _ _ _ hi] at hm
      split_ifs at hm with hij
      · rcases List.mem_append.mp hm with hm | hm
        · exact hij ▸ hm
        · exact absurd (List.mem_singleton.mp hm) hq.ne
      · exact hm
  | eject c hid hflag hradius =>
    refine { Frame.refl g with
      allocated := Nat.le_succ _, identity := ?_, others := ?_, onMap := ?_, dynamic := ?_ }
    · intro q hq
      rw [eject_heap, if_neg hq.ne]
      exact ⟨rfl, rfl, rfl⟩
    · intro q hq _
      rw [eject_heap, if_neg hq.ne]
    · intro q hq ho
      rw [eject_heap, if_neg hq.ne]
      exact ho
    · intro q hq hm
      rcases List.mem_append.mp hm with hm | hm
      · exact hm
      · exact absurd (List.mem_singleton.mp hm) hq.ne
  | killStatic b loop p h =>
    exact .of_removal rfl rfl rfl rfl rfl rfl rfl (List.prefix_append _ _) List.prefix_rfl
      List.prefix_rfl (removeStaticAt_sublist (g.pushRemoveStatic p) b loop)
      (List.Sublist.refl _) fun _ => List.Sublist.refl _
  | killDynamic loop p h =>
    exact .of_removal rfl rfl rfl rfl rfl rfl rfl List.prefix_rfl (List.prefix_append _ _)
      List.prefix_rfl (fun _ => List.Sublist.refl _) (List.eraseIdx_sublist _ _)
      fun _ => List.Sublist.refl _
  | kill i loop p h =>
    exact .of_removal rfl rfl (core_setCells _ _ _) rfl rfl rfl rfl List.prefix_rfl
      (List.prefix_append _ _) List.prefix_rfl (fun _ => List.Sublist.refl _)
      (List.Sublist.refl _) (eraseCell_sublist (g.pushRemoveDynamic p) i loop)
  | stray i myLoop p slot hp hslot =>
    obtain ⟨h1, h2, h3, h4, h5, h6, h7⟩ :=
      eraseCellAt_frame ((g.note (.absorb p slot)).pushRemoveDynamic p) i myLoop
    have hpush : g.cellEvents.removeDynamic <+:
        (g.pushRemoveDynamic p).cellEvents.removeDynamic := List.prefix_append _ _
    refine .of_removal h1 h2 (eraseCellAt_core _ _ _) h7 (by rw [h5]; rfl) (by rw [h5]; rfl)
      (by rw [h5]; rfl) (by rw [h5]; exact List.prefix_rfl) (by rw [h5]; exact hpush)
      (by rw [h6]; exact List.prefix_append _ _) (fun b => ?_) ?_
      (eraseCellAt_sublist ((g.note (.absorb p slot)).pushRemoveDynamic p) i myLoop)
    · rw [h3]
      exact List.Sublist.refl _
    · rw [h4]
      exact List.Sublist.refl _
  | pour p size count slots s howned hempties hcap hsum =>
    exact ((note_frame g _).trans (note_frame _ (.slots slots))).trans ((note_frame _ _).trans
      (change_frame howned rfl rfl rfl (Or.inr rfl)))

theorem WellFormed.of_removal {g g' : Game ℝ} (hw : WellFormed g)
    (hallocated : g'.allocated = g.allocated) (hheap : g'.heap = g.heap)
    (hcalls : g'.calls ⊆ g.calls) (hstatic : ∀ b, (g'.staticMap b).Sublist (g.staticMap b))
    (hdynamic : g'.dynamicMap.Sublist g.dynamicMap)
    (hcells : ∀ i, (g'.cellsOf i).Sublist (g.cellsOf i)) : WellFormed g' where
  food_le := hallocated ▸ hw.food_le
  id := by rw [hallocated, hheap]; exact hw.id
  radius := by rw [hallocated, hheap]; exact hw.radius
  static := fun b p hp => by rw [hheap]; exact hw.static b p ((hstatic b).subset hp)
  static_nodup := fun b => (hw.static_nodup b).sublist (hstatic b)
  dynamic := fun p hp => by rw [hallocated, hheap]; exact hw.dynamic p (hdynamic.subset hp)
  dynamic_nodup := hw.dynamic_nodup.sublist hdynamic
  owned := fun i p hp => by
    unfold Owned
    rw [hallocated, hheap]
    exact hw.owned i p ((hcells i).subset hp)
  owned_food := fun p hp => by
    unfold Owned at hp
    rw [hallocated, hheap] at hp
    exact hw.owned_food p hp
  cells_nodup := fun i => (hw.cells_nodup i).sublist (hcells i)
  cells_disjoint := fun i j hij p hp hq =>
    hw.cells_disjoint i j hij p ((hcells i).subset hp) ((hcells j).subset hq)
  cap := fun i => ((hcells i).length_le).trans (hw.cap i)
  capped := fun c hc => hw.capped c (hcalls hc)

theorem WellFormed.note {g : Game ℝ} (hw : WellFormed g) {c : Call ℝ} (hc : c.Capped) :
    WellFormed (g.note c) :=
  { hw with
    capped := fun d hd => by
      rcases List.mem_append.mp hd with hd | hd
      · exact hw.capped d hd
      · exact List.mem_singleton.mp hd ▸ hc }

theorem WellFormed.static_lt {g : Game ℝ} (hw : WellFormed g) {b : Vec2i} {p : CellPtr}
    (h : p ∈ g.staticMap b) : p < g.allocated := (hw.static b p h).1.trans_le hw.food_le

theorem WellFormed.reheap {g : Game ℝ} (hw : WellFormed g) {h : CellPtr → Cell ℝ}
    (hid : ∀ q < g.allocated, (h q).id = (g.heap q).id)
    (hflag : ∀ q < g.allocated, (h q).flag = (g.heap q).flag)
    (hradius : ∀ q < g.allocated, 0 ≤ (h q).radius)
    (hstatic : ∀ b, ∀ q ∈ g.staticMap b, h q = g.heap q) : WellFormed { g with heap := h } := by
  have hstays : ∀ q, Owned { g with heap := h } q ↔ g.Owned q := fun q =>
    and_congr_right fun hq => by
      show (h q).flag = playerFlag ↔ _
      rw [hflag q hq]
  refine { hw with
    id := ?_, radius := hradius, static := ?_, dynamic := ?_, owned := ?_, owned_food := ?_ }
  · exact fun q hq => (hid q hq).trans (hw.id q hq)
  · intro b q hq
    have hs := hw.static b q hq
    rw [show ({ g with heap := h } : Game ℝ).heap q = g.heap q from hstatic b q hq]
    exact hs
  · intro q hq
    have hd := hw.dynamic q hq
    rw [show (({ g with heap := h } : Game ℝ).heap q).flag = (g.heap q).flag from hflag q hd.2.1]
    exact hd
  · exact fun i q hq => (hstays q).mpr (hw.owned i q hq)
  · exact fun q hq => hw.owned_food q ((hstays q).mp hq)

theorem WellFormed.change {g : Game ℝ} (hw : WellFormed g) {p : CellPtr} {c : Cell ℝ}
    (hp : maxFood ≤ p) (hid : c.id = (g.heap p).id) (hflag : c.flag = (g.heap p).flag)
    (hradius : 0 ≤ c.radius) : WellFormed (g.setCell p c) := by
  refine hw.reheap (fun q hq => ?_) (fun q hq => ?_) (fun q hq => ?_) fun b q hq => ?_
  · split_ifs with h
    · rw [h, hid]
    · rfl
  · split_ifs with h
    · rw [h, hflag]
    · rfl
  · split_ifs
    · exact hradius
    · exact hw.radius q hq
  · have hlt := (hw.static b q hq).1
    exact if_neg fun h : q = p => absurd hlt (not_lt.mpr (h ▸ hp))

theorem WellFormed.spawn {g : Game ℝ} (hw : WellFormed g) {i : ℕ} {c : Cell ℝ}
    (hi : i < g.players.length) (hcap : (g.cellsOf i).length < 16)
    (hid : c.id = BitVec.ofNat 32 g.allocated) (hflag : c.flag = playerFlag)
    (hradius : 0 ≤ c.radius) : WellFormed (g.spawn i c) := by
  have hold : ∀ q < g.allocated, (g.spawn i c).heap q = g.heap q := fun q hq => by
    rw [spawn_heap, if_neg hq.ne]
  have hcells : ∀ j, (g.spawn i c).cellsOf j =
      if i = j then g.cellsOf i ++ [g.allocated] else g.cellsOf j :=
    fun j => spawn_cellsOf g i c j hi
  have hstays : ∀ q, g.Owned q → (g.spawn i c).Owned q := fun q hq =>
    ⟨hq.1.trans (Nat.lt_succ_self _), by rw [hold q hq.1]; exact hq.2⟩
  have hfresh : ∀ j, g.allocated ∉ g.cellsOf j := fun j hm =>
    absurd (hw.owned j _ hm).1 (lt_irrefl _)
  refine
    { food_le := hw.food_le.trans (Nat.le_succ _), id := ?_, radius := ?_, static := ?_,
      static_nodup := hw.static_nodup, dynamic := ?_, dynamic_nodup := hw.dynamic_nodup,
      owned := ?_, owned_food := ?_, cells_nodup := ?_, cells_disjoint := ?_, cap := ?_,
      capped := ?_ }
  · intro q hq
    rw [spawn_heap]
    split_ifs with h
    · rw [h, hid]
    · exact hw.id q (Nat.lt_of_le_of_ne (Nat.lt_succ_iff.mp hq) h)
  · intro q hq
    rw [spawn_heap]
    split_ifs with h
    · exact hradius
    · exact hw.radius q (Nat.lt_of_le_of_ne (Nat.lt_succ_iff.mp hq) h)
  · intro b q hq
    rw [hold q (hw.static_lt hq)]
    exact hw.static b q hq
  · intro q hq
    have hd := hw.dynamic q hq
    rw [hold q hd.2.1]
    exact ⟨hd.1, hd.2.1.trans (Nat.lt_succ_self _), hd.2.2⟩
  · intro j q hq
    rw [hcells] at hq
    split_ifs at hq with hij
    · rcases List.mem_append.mp hq with hq | hq
      · exact hstays q (hw.owned i q hq)
      · rw [List.mem_singleton.mp hq]
        exact ⟨Nat.lt_succ_self _, by rw [spawn_heap, if_pos rfl]; exact hflag⟩
    · exact hstays q (hw.owned j q hq)
  · intro q hq
    rcases Nat.lt_or_eq_of_le (Nat.lt_succ_iff.mp hq.1) with h | h
    · exact hw.owned_food q ⟨h, by rw [← hold q h]; exact hq.2⟩
    · exact h ▸ hw.food_le
  · intro j
    rw [hcells]
    split_ifs
    · exact List.nodup_append.mpr ⟨hw.cells_nodup i, List.nodup_singleton _,
        fun q hq r hr hqr => hfresh i (List.mem_singleton.mp hr ▸ hqr ▸ hq)⟩
    · exact hw.cells_nodup j
  · intro j k hjk q hq hq'
    rw [hcells] at hq hq'
    split_ifs at hq hq' with h1 h2 h2
    · exact hjk (h1.symm.trans h2)
    · rcases List.mem_append.mp hq with hq | hq
      · exact hw.cells_disjoint i k (h1 ▸ hjk) q hq hq'
      · exact hfresh k (List.mem_singleton.mp hq ▸ hq')
    · rcases List.mem_append.mp hq' with hq' | hq'
      · exact hw.cells_disjoint j i (h2 ▸ hjk) q hq hq'
      · exact hfresh j (List.mem_singleton.mp hq' ▸ hq)
    · exact hw.cells_disjoint j k hjk q hq hq'
  · intro j
    rw [hcells]
    split_ifs
    · simpa using hcap
    · exact hw.cap j
  · intro d hd
    rcases List.mem_append.mp hd with hd | hd
    · exact hw.capped d hd
    · rw [List.mem_singleton.mp hd]
      have hlen := hcells i
      rw [if_pos rfl] at hlen
      show ((g.spawn i c).cellsOf i).length ≤ 16
      rw [hlen]
      simpa using hcap

theorem WellFormed.eject {g : Game ℝ} (hw : WellFormed g) {c : Cell ℝ}
    (hid : c.id = BitVec.ofNat 32 g.allocated) (hflag : c.flag = foodFlag ∨ c.flag = virusFlag)
    (hradius : 0 ≤ c.radius) : WellFormed (g.eject c) := by
  have hold : ∀ q < g.allocated, (g.eject c).heap q = g.heap q := fun q hq => by
    rw [eject_heap, if_neg hq.ne]
  refine
    { food_le := hw.food_le.trans (Nat.le_succ _), id := ?_, radius := ?_, static := ?_,
      static_nodup := hw.static_nodup, dynamic := ?_, dynamic_nodup := ?_,
      owned := ?_, owned_food := ?_, cells_nodup := hw.cells_nodup,
      cells_disjoint := hw.cells_disjoint, cap := hw.cap, capped := hw.capped }
  · intro q hq
    rw [eject_heap]
    split_ifs with h
    · rw [h, hid]
    · exact hw.id q (Nat.lt_of_le_of_ne (Nat.lt_succ_iff.mp hq) h)
  · intro q hq
    rw [eject_heap]
    split_ifs with h
    · exact hradius
    · exact hw.radius q (Nat.lt_of_le_of_ne (Nat.lt_succ_iff.mp hq) h)
  · intro b q hq
    rw [hold q (hw.static_lt hq)]
    exact hw.static b q hq
  · intro q hq
    rcases List.mem_append.mp hq with hq | hq
    · have hd := hw.dynamic q hq
      rw [hold q hd.2.1]
      exact ⟨hd.1, hd.2.1.trans (Nat.lt_succ_self _), hd.2.2⟩
    · rw [List.mem_singleton.mp hq]
      exact ⟨hw.food_le, Nat.lt_succ_self _, by rw [eject_heap, if_pos rfl]; exact hflag⟩
  · refine List.nodup_append.mpr ⟨hw.dynamic_nodup, List.nodup_singleton _, ?_⟩
    intro q hq r hr hqr
    have hlt := (hw.dynamic q hq).2.1
    rw [hqr, List.mem_singleton.mp hr] at hlt
    exact lt_irrefl _ hlt
  · intro j q hq
    have ho := hw.owned j q hq
    exact ⟨ho.1.trans (Nat.lt_succ_self _), by rw [hold q ho.1]; exact ho.2⟩
  · intro q hq
    rcases Nat.lt_or_eq_of_le (Nat.lt_succ_iff.mp hq.1) with h | h
    · exact hw.owned_food q ⟨h, by rw [← hold q h]; exact hq.2⟩
    · exact h ▸ hw.food_le

theorem Effect.wellFormed {g g' : Game ℝ} (h : Effect g g') (hw : WellFormed g) :
    WellFormed g' := by
  cases h with
  | note c hs hc hstay hleft => exact hw.note hc
  | draw => exact { hw with }
  | change p c howned hid hcolor hflag hradius hpos hpositive =>
    exact hw.change (hw.owned_food p howned) hid hflag hradius
  | spawn i c hi hcap hid hflag hradius hpositive => exact hw.spawn hi hcap hid hflag hradius
  | eject c hid hflag hradius => exact hw.eject hid (Or.inl hflag) hradius.le
  | killStatic b loop p h =>
    exact hw.of_removal rfl rfl (List.Subset.refl _) (removeStaticAt_sublist (g.pushRemoveStatic p) b loop)
      (List.Sublist.refl _) fun _ => List.Sublist.refl _
  | killDynamic loop p h =>
    exact hw.of_removal rfl rfl (List.Subset.refl _) (fun _ => List.Sublist.refl _) (List.eraseIdx_sublist _ _)
      fun _ => List.Sublist.refl _
  | kill i loop p h =>
    exact hw.of_removal rfl rfl (List.Subset.refl _) (fun _ => List.Sublist.refl _) (List.Sublist.refl _)
      (eraseCell_sublist (g.pushRemoveDynamic p) i loop)
  | stray i myLoop p slot hp hslot =>
    obtain ⟨h1, h2, h3, h4, h5, h6, h7⟩ :=
      eraseCellAt_frame ((g.note (.absorb p slot)).pushRemoveDynamic p) i myLoop
    refine (hw.note (c := .absorb p slot) trivial).of_removal h1 h2
      (by rw [h6]; exact List.Subset.refl _) (fun b => ?_) ?_
      (eraseCellAt_sublist ((g.note (.absorb p slot)).pushRemoveDynamic p) i myLoop)
    · rw [h3]
      exact List.Sublist.refl _
    · rw [h4]
      exact List.Sublist.refl _
  | pour p size count slots s howned hempties hcap hsum =>
    have hnoted : WellFormed (((g.note (.pop p size count)).note (.slots slots)).note
        (.addSize p (g.heap p).size s)) :=
      ((hw.note (c := .pop p size count) trivial).note (c := .slots slots) hcap).note
        (c := .addSize p (g.heap p).size s) trivial
    exact hnoted.change (hw.owned_food p howned) rfl rfl (Real.sqrt_nonneg _)

/-- From a state with the invariant, `g'` is reached through effects. -/
def Leads (g g' : Game ℝ) : Prop := WellFormed g → Relation.ReflTransGen Effect g g'

theorem wellFormed_of_effects {g g' : Game ℝ} (h : Relation.ReflTransGen Effect g g')
    (hw : WellFormed g) : WellFormed g' := by
  induction h with
  | refl => exact hw
  | tail _ he ih => exact he.wellFormed ih

theorem keeps_of_effects {P : Game ℝ → Prop}
    (heffect : ∀ g g', WellFormed g → Effect g g' → P g → P g') {g g' : Game ℝ}
    (h : Relation.ReflTransGen Effect g g') (hw : WellFormed g) (hg : P g) : P g' := by
  induction h with
  | refl => exact hg
  | tail h he ih => exact heffect _ _ (wellFormed_of_effects h hw) he ih

theorem frame_of_effects {g g' : Game ℝ} (h : Relation.ReflTransGen Effect g g') : Frame g g' := by
  induction h with
  | refl => exact Frame.refl g
  | tail _ he ih => exact ih.trans he.frame

theorem Leads.refl (g : Game ℝ) : Leads g g := fun _ => .refl

theorem Leads.trans {g g' g'' : Game ℝ} (h : Leads g g') (h' : Leads g' g'') : Leads g g'' :=
  fun hw => (h hw).trans (h' (wellFormed_of_effects (h hw) hw))

theorem Leads.wellFormed {g g' : Game ℝ} (h : Leads g g') (hw : WellFormed g) : WellFormed g' :=
  wellFormed_of_effects (h hw) hw

theorem Leads.frame {g g' : Game ℝ} (h : Leads g g') (hw : WellFormed g) : Frame g g' :=
  frame_of_effects (h hw)

theorem Effect.leads {g g' : Game ℝ} (h : Effect g g') : Leads g g' := fun _ => .single h

theorem leads_foldl {α : Type} (f : Game ℝ → α → Game ℝ) (h : ∀ g a, Leads g (f g a))
    (g : Game ℝ) (l : List α) : Leads g (l.foldl f g) := by
  induction l generalizing g with
  | nil => exact Leads.refl g
  | cons a l ih => exact (h g a).trans (ih (f g a))

end Game

end Agar
