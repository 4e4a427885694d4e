import Agar.UpdateEffects
import Agar.Lib.Trace

/-! Every reaction of the server is a sequence of moves. The invariant every move keeps, and what a
move does to the players as the connections see them. -/

namespace Agar

namespace Cell

theorem update_onMap (c : Cell ℝ) (dt : ℝ) : OnMap (c.update dt).position := by
  unfold update
  exact moveAbs_onMap c _

end Cell

namespace Game
variable {g : Game ℝ}

/-- Cells of the list have been moved: what that leaves alone. -/
structure Motion (moved : List CellPtr) (g g' : Game ℝ) : Prop where
  allocated : g'.allocated = g.allocated
  identity : ∀ p, (g'.heap p).id = (g.heap p).id ∧ (g'.heap p).color = (g.heap p).color ∧
    (g'.heap p).flag = (g.heap p).flag ∧ (g'.heap p).radius = (g.heap p).radius
  others : ∀ p, p ∉ moved → g'.heap p = g.heap p
  onMap : ∀ p, OnMap (g.heap p).position → OnMap (g'.heap p).position
  static : g'.staticMap = g.staticMap
  dynamic : g'.dynamicMap = g.dynamicMap
  players : g'.players = g.players
  currentTime : g'.currentTime = g.currentTime
  calls : ∃ cs, g'.calls = g.calls ++ cs ∧ ∀ c ∈ cs, ∃ p ∈ moved, c = .update p (g.heap p).radius
  addStatic : g'.cellEvents.addStatic = g.cellEvents.addStatic
  addDynamic : g'.cellEvents.addDynamic = g.cellEvents.addDynamic
  removeStatic : g'.cellEvents.removeStatic = g.cellEvents.removeStatic
  removeDynamic : g'.cellEvents.removeDynamic = g.cellEvents.removeDynamic

variable {moved : List CellPtr}

theorem Motion.refl (moved : List CellPtr) (g : Game ℝ) : Motion moved g g :=
  ⟨rfl, fun _ => ⟨rfl, rfl, rfl, rfl⟩, fun _ _ => rfl, fun _ h => h, rfl, rfl, rfl, rfl,
    ⟨[], (List.append_nil _).symm, fun _ hc => by cases hc⟩, rfl, rfl, rfl, rfl⟩

theorem Motion.trans {g g' g'' : Game ℝ} (h : Motion moved g g') (h' : Motion moved g' g'') :
    Motion moved g g'' where
  allocated := h'.allocated.trans h.allocated
  identity := fun p => by
    obtain ⟨h1, h2, h3, h4⟩ := h.identity p
    obtain ⟨h1', h2', h3', h4'⟩ := h'.identity p
    exact ⟨h1'.trans h1, h2'.trans h2, h3'.trans h3, h4'.trans h4⟩
  others := fun p hp => (h'.others p hp).trans (h.others p hp)
  onMap := fun p hp => h'.onMap p (h.onMap p hp)
  static := h'.static.trans h.static
  dynamic := h'.dynamic.trans h.dynamic
  players := h'.players.trans h.players
  currentTime := h'.currentTime.trans h.currentTime
  calls := by
    obtain ⟨cs, hcalls, hcs⟩ := h.calls
    obtain ⟨cs', hcalls', hcs'⟩ := h'.calls
    refine ⟨cs ++ cs', by rw [hcalls', hcalls, List.append_assoc], fun c hc => ?_⟩
    rcases List.mem_append.mp hc with hc | hc
    · exact hcs c hc
    · obtain ⟨p, hp, hcp⟩ := hcs' c hc
      exact ⟨p, hp, by rw [hcp, (h.identity p).2.2.2]⟩
  addStatic := h'.addStatic.trans h.addStatic
  addDynamic := h'.addDynamic.trans h.addDynamic
  removeStatic := h'.removeStatic.trans h.removeStatic
  removeDynamic := h'.removeDynamic.trans h.removeDynamic

theorem motion_foldl {f : Game ℝ → CellPtr → Game ℝ} {l : List CellPtr}
    (h : ∀ g, ∀ p ∈ l, Motion moved g (f g p)) (g : Game ℝ) : Motion moved g (l.foldl f g) := by
  induction l generalizing g with
  | nil => exact Motion.refl moved g
  | cons p l ih =>
    exact (h g p List.mem_cons_self).trans (ih (fun g q hq => h g q (List.mem_cons_of_mem p hq)) _)

theorem motion_setCell {g : Game ℝ} {p : CellPtr} {c : Cell ℝ} (hp : p ∈ moved)
    (hid : c.id = (g.heap p).id) (hcolor : c.color = (g.heap p).color)
    (hflag : c.flag = (g.heap p).flag) (hradius : c.radius = (g.heap p).radius)
    (hpos : OnMap (g.heap p).position → OnMap c.position) : Motion moved g (g.setCell p c) := by
  refine { Motion.refl moved g with identity := ?_, others := ?_, onMap := ?_ }
  · intro q
    rw [setCell_heap]
    split_ifs with hq
    · exact hq ▸ ⟨hid, hcolor, hflag, hradius⟩
    · exact ⟨rfl, rfl, rfl, rfl⟩
  · exact fun q hq => setCell_heap_ne _ _ _ fun h => hq (h ▸ hp)
  · intro q hq
    rw [setCell_heap]
    split_ifs with h
    · exact hpos (h ▸ hq)
    · exact hq

theorem updateCell_motion (dt : ℝ) (g : Game ℝ) {p : CellPtr} (hp : p ∈ moved) :
    Motion moved g (updateCell dt g p) := by
  have hnote : Motion moved g (g.noteUpdate p) :=
    { Motion.refl moved g with
      calls := ⟨[.update p (g.heap p).radius], rfl, fun c hc =>
        ⟨p, hp, List.mem_singleton.mp hc⟩⟩ }
  exact hnote.trans (motion_setCell hp rfl rfl rfl rfl fun _ => Cell.update_onMap _ dt)

theorem pushMove_motion (g : Game ℝ) (p : CellPtr) : Motion moved g (g.pushMove p) :=
  { Motion.refl moved g with }

theorem driveCell_motion (dt : ℝ) (g : Game ℝ) {p : CellPtr} (hp : p ∈ moved) :
    Motion moved g (driveCell dt g p) := by
  unfold driveCell
  dsimp only
  refine (updateCell_motion dt g hp).trans (Motion.trans ?_ (pushMove_motion _ p))
  by_cases h : (0.1 : ℝ) < ((updateCell dt g p).heap p).mouseVector.length /
      ((updateCell dt g p).heap p).radius
  · rw [if_pos h]
    exact motion_setCell hp rfl rfl rfl rfl id
  · rw [if_neg h]
    exact Motion.refl moved _

theorem updateDynamic_events (g : Game ℝ) (dt : ℝ) :
    (g.updateDynamic dt).cellEvents = g.cellEvents := by
  unfold updateDynamic
  induction g.dynamicMap generalizing g with
  | nil => rfl
  | cons p l ih => exact ih _

theorem updateDynamic_motion (g : Game ℝ) (dt : ℝ) : Motion g.dynamicMap g (g.updateDynamic dt) :=
  motion_foldl (fun g _ hp => updateCell_motion dt g hp) g

theorem drive_motion (g : Game ℝ) (dt : ℝ) :
    Motion (g.players.flatMap Player.cells) g (g.drive dt) :=
  (motion_foldl (fun g _ hp => driveCell_motion dt g hp) g).trans
    (motion_foldl (fun g p _ => pushMove_motion g p) _)

theorem drive_combineSet (g : Game ℝ) (dt : ℝ) (c : CellPtr) :
    ((g.drive dt).heap c).combineSet = (g.heap c).combineSet := by
  have hcell : ∀ (g : Game ℝ) p, ((driveCell dt g p).heap c).combineSet =
      (g.heap c).combineSet := by
    intro g p
    unfold driveCell
    dsimp only
    by_cases hc : c = p
    · subst hc
      split_ifs <;> simp [updateCell, noteUpdate, setCell, pushMove, Cell.addForce, Cell.update,
        Cell.moveRel, Cell.moveAbs]
    · split_ifs <;> simp [updateCell, noteUpdate, setCell, pushMove, hc]
  have hcells : ∀ (l : List CellPtr) (g : Game ℝ),
      ((l.foldl (driveCell dt) g).heap c).combineSet = (g.heap c).combineSet := by
    intro l
    induction l with
    | nil => exact fun g => rfl
    | cons p l ih => exact fun g => (ih _).trans (hcell g p)
  have hmoves : ∀ (l : List CellPtr) (g : Game ℝ), (l.foldl pushMove g).heap = g.heap := by
    intro l
    induction l with
    | nil => exact fun g => rfl
    | cons p l ih => exact fun g => ih _
  unfold drive
  dsimp only
  rw [hmoves]
  exact hcells _ g

theorem WellFormed.motion {g g' : Game ℝ} (hw : WellFormed g) (h : Motion moved g g')
    (hmoved : ∀ p ∈ moved, maxFood ≤ p) : WellFormed g' := by
  have hw' : WellFormed { g with heap := g'.heap } :=
    hw.reheap (fun q _ => (h.identity q).1) (fun q _ => (h.identity q).2.2.1)
      (fun q hq => by rw [(h.identity q).2.2.2]; exact hw.radius q hq)
      fun b q hq => h.others q fun hm => absurd (hw.static b q hq).1 (not_lt.mpr (hmoved q hm))
  have hcells : ∀ i, g'.cellsOf i = ({ g with heap := g'.heap } : Game ℝ).cellsOf i :=
    fun i => cellsOf_congr h.players i
  exact
    { food_le := by rw [h.allocated]; exact hw'.food_le
      id := by rw [h.allocated]; exact hw'.id
      radius := by rw [h.allocated]; exact hw'.radius
      static := by rw [h.static]; exact hw'.static
      static_nodup := by rw [h.static]; exact hw'.static_nodup
      dynamic := by rw [h.dynamic, h.allocated]; exact hw'.dynamic
      dynamic_nodup := by rw [h.dynamic]; exact hw'.dynamic_nodup
      owned := fun i p hp => by
        rw [hcells] at hp
        unfold Owned
        rw [h.allocated]
        exact hw'.owned i p hp
      owned_food := fun p hp => by
        unfold Owned at hp
        rw [h.allocated] at hp
        exact hw'.owned_food p hp
      cells_nodup := fun i => by rw [hcells]; exact hw'.cells_nodup i
      cells_disjoint := fun i j hij p hp => by
        rw [hcells] at hp ⊢
        exact hw'.cells_disjoint i j hij p hp
      cap := fun i => by rw [hcells]; exact hw'.cap i
      capped := fun c hc => by
        obtain ⟨cs, hcalls, hcs⟩ := h.calls
        rw [hcalls] at hc
        rcases List.mem_append.mp hc with hc | hc
        · exact hw.capped c hc
        · obtain ⟨p, -, rfl⟩ := hcs c hc
          trivial }

theorem mem_playerCells {g : Game ℝ} {p : CellPtr} :
    p ∈ g.players.flatMap Player.cells ↔ ∃ i, p ∈ g.cellsOf i := by
  simp only [List.mem_flatMap]
  constructor
  · rintro ⟨q, hq, hp⟩
    obtain ⟨i, hi⟩ := List.mem_iff_getElem?.mp hq
    exact ⟨i, by simpa [cellsOf, hi] using hp⟩
  · rintro ⟨i, hp⟩
    unfold cellsOf at hp
    rcases hi : g.players[i]? with - | q
    · simp [hi] at hp
    · exact ⟨q, List.mem_of_getElem? hi, by simpa [hi] using hp⟩

theorem WellFormed.moved_nodup (hw : WellFormed g) :
    (g.players.flatMap Player.cells ++ g.dynamicMap).Nodup := by
  have hcells : ∀ {i p}, g.players[i]? = some p → g.cellsOf i = p.cells := fun h => by
    simp [cellsOf, h]
  refine List.nodup_append.mpr ⟨List.nodup_flatMap.mpr ⟨fun p hp => ?_, ?_⟩, hw.dynamic_nodup, ?_⟩
  · obtain ⟨i, hi⟩ := List.mem_iff_getElem?.mp hp
    rw [← hcells hi]
    exact hw.cells_nodup i
  · refine List.pairwise_iff_getElem.mpr fun i j hi hj hij => ?_
    intro q hq hq'
    have hq1 : q ∈ g.cellsOf i := by rwa [hcells (List.getElem?_eq_getElem hi)]
    have hq2 : q ∈ g.cellsOf j := by rwa [hcells (List.getElem?_eq_getElem hj)]
    exact hw.cells_disjoint i j hij.ne q hq1 hq2
  · rintro q hq r hr rfl
    obtain ⟨i, hi⟩ := mem_playerCells.mp hq
    have hflag := (hw.owned i q hi).2
    rcases (hw.dynamic q hr).2.2 with hd | hd <;> rw [hd] at hflag <;> exact absurd hflag (by decide)

theorem drive_move (g : Game ℝ) (dt : ℝ) : (g.drive dt).cellEvents.move =
    g.cellEvents.move ++ (g.players.flatMap Player.cells ++ g.dynamicMap) := by
  have hcell : ∀ (g : Game ℝ) p, (driveCell dt g p).cellEvents.move = g.cellEvents.move ++ [p] := by
    intro g p
    unfold driveCell
    dsimp only
    split_ifs <;> rfl
  have hloop : ∀ (f : Game ℝ → CellPtr → Game ℝ),
      (∀ g p, (f g p).cellEvents.move = g.cellEvents.move ++ [p]) → ∀ (l : List CellPtr)
      (g : Game ℝ), (l.foldl f g).cellEvents.move = g.cellEvents.move ++ l := by
    intro f hf l
    induction l with
    | nil => exact fun g => (List.append_nil _).symm
    | cons p l ih => exact fun g => by rw [List.foldl_cons, ih, hf, List.append_assoc]; rfl
  have hcells : Motion (g.players.flatMap Player.cells) g
      ((g.players.flatMap Player.cells).foldl (driveCell dt) g) :=
    motion_foldl (fun g _ hp => driveCell_motion dt g hp) g
  unfold drive
  dsimp only
  rw [hloop pushMove fun _ _ => rfl, hloop (driveCell dt) hcell, hcells.dynamic, List.append_assoc]

theorem updateDynamic_wellFormed (hw : WellFormed g) (dt : ℝ) :
    WellFormed (g.updateDynamic dt) :=
  hw.motion (updateDynamic_motion g dt) fun p hp => (hw.dynamic p hp).1

theorem drive_wellFormed (hw : WellFormed g) (dt : ℝ) : WellFormed (g.drive dt) := by
  refine hw.motion (drive_motion g dt) fun p hp => ?_
  obtain ⟨i, hi⟩ := mem_playerCells.mp hp
  exact hw.owned_food p (hw.owned i p hi)

/-- Nothing is ever reported as added: the removals of a tick are all that is replayed. -/
def NoAdditions (g : Game ℝ) : Prop := g.cellEvents.addStatic = [] ∧ g.cellEvents.addDynamic = []

/-- Cells have been taken out of the map, the rest is as it was. -/
structure Prunes (g g' : Game ℝ) : Prop where
  rest : g' = { g with staticMap := g'.staticMap, dynamicMap := g'.dynamicMap }
  static : ∀ b, (g'.staticMap b).Sublist (g.staticMap b)
  dynamic : g'.dynamicMap.Sublist g.dynamicMap

theorem Prunes.refl (g : Game ℝ) : Prunes g g :=
  ⟨rfl, fun _ => List.Sublist.refl _, List.Sublist.refl _⟩

theorem Prunes.trans {g g' g'' : Game ℝ} (h : Prunes g g') (h' : Prunes g' g'') :
    Prunes g g'' where
  rest := by
    have hr := h'.rest
    rw [h.rest] at hr
    exact hr
  static := fun b => (h'.static b).trans (h.static b)
  dynamic := h'.dynamic.trans h.dynamic

theorem prunes_foldl {f : Game ℝ → CellPtr → Game ℝ} (h : ∀ g p, Prunes g (f g p)) (g : Game ℝ)
    (l : List CellPtr) : Prunes g (l.foldl f g) := by
  induction l generalizing g with
  | nil => exact Prunes.refl g
  | cons p l ih => exact (h g p).trans (ih (f g p))

theorem removeStatic_prunes (g : Game ℝ) (p : CellPtr) : Prunes g (g.removeStatic p) := by
  unfold removeStatic
  dsimp only
  rcases (g.staticMap (indexFromCoord (g.heap p).position)).findIdx? _ with - | n
  · exact Prunes.refl g
  · exact ⟨rfl, removeStaticAt_sublist g _ n, List.Sublist.refl _⟩

theorem removeDynamic_prunes (g : Game ℝ) (p : CellPtr) : Prunes g (g.removeDynamic p) := by
  refine ⟨rfl, fun _ => List.Sublist.refl _, ?_⟩
  have h := (List.erase_sublist (a := p) (l := g.dynamicMap.reverse)).reverse
  rwa [List.reverse_reverse] at h

theorem parseEvents_prunes (h : NoAdditions g) : Prunes g g.parseEvents := by
  unfold parseEvents
  dsimp only
  rw [h.1, h.2]
  exact (prunes_foldl removeStatic_prunes _ _).trans (prunes_foldl removeDynamic_prunes _ _)

theorem WellFormed.prunes {g g' : Game ℝ} (hw : WellFormed g) (h : Prunes g g') :
    WellFormed g' := by
  have hr := h.rest
  exact hw.of_removal (by rw [hr]) (by rw [hr]) (by rw [hr]; exact List.Subset.refl _) h.static
    h.dynamic
    fun i => by rw [cellsOf_congr (g := g) (by rw [hr]) i]

theorem moves_carried : MovedVector.Carried Player.moves (α := Player ℝ) Player.cells :=
  ⟨fun _ => rfl, fun _ _ => rfl⟩

theorem cellsOf_eq_map (g : Game ℝ) (j : ℕ) :
    g.cellsOf j = ((g.players.map Player.cells)[j]?).getD [] := by
  rw [cellsOf, List.getElem?_map]
  rcases g.players[j]? with - | p <;> rfl

theorem cellsOf_erasePlayer (s : Sys ℝ) (x j : ℕ) :
    (s.erasePlayer x).game.cellsOf j = s.game.cellsOf (if j < x then j else j + 1) := by
  rw [cellsOf_eq_map, cellsOf_eq_map]
  have hmap : (s.erasePlayer x).game.players.map Player.cells =
      (s.game.players.map Player.cells).eraseIdx x :=
    MovedVector.eraseAt_carried moves_carried _ _
  rw [hmap, List.getElem?_eraseIdx]
  split_ifs <;> rfl

theorem WellFormed.reindex {g g' : Game ℝ} (hw : WellFormed g) (f : ℕ → ℕ)
    (hf : Function.Injective f) (hallocated : g'.allocated = g.allocated)
    (hheap : g'.heap = g.heap) (hcalls : g'.calls = g.calls) (hstatic : g'.staticMap = g.staticMap)
    (hdynamic : g'.dynamicMap = g.dynamicMap) (hcells : ∀ j, g'.cellsOf j = g.cellsOf (f j)) :
    WellFormed g' where
  food_le := by rw [hallocated]; exact hw.food_le
  id := by rw [hallocated, hheap]; exact hw.id
  radius := by rw [hallocated, hheap]; exact hw.radius
  static := by rw [hstatic, hheap]; exact hw.static
  static_nodup := by rw [hstatic]; exact hw.static_nodup
  dynamic := by rw [hdynamic, hallocated, hheap]; exact hw.dynamic
  dynamic_nodup := by rw [hdynamic]; exact hw.dynamic_nodup
  owned := fun i p hp => by
    unfold Owned
    rw [hallocated, hheap]
    rw [hcells] at hp
    exact hw.owned (f i) p hp
  owned_food := fun p hp => by
    unfold Owned at hp
    rw [hallocated, hheap] at hp
    exact hw.owned_food p hp
  cells_nodup := fun i => by rw [hcells]; exact hw.cells_nodup _
  cells_disjoint := fun i j hij p hp => by
    rw [hcells] at hp ⊢
    exact hw.cells_disjoint _ _ (fun h => hij (hf h)) p hp
  cap := fun i => by rw [hcells]; exact hw.cap _
  capped := by rw [hcalls]; exact hw.capped

theorem erasePlayer_wellFormed {s : Sys ℝ} (hw : WellFormed s.game) (x : ℕ) :
    WellFormed (s.erasePlayer x).game := by
  refine hw.reindex (fun j => if j < x then j else j + 1) ?_ rfl rfl rfl rfl rfl
    (cellsOf_erasePlayer s x)
  intro a b h
  dsimp only at h
  split_ifs at h <;> omega

theorem newPlayer_spec (g : Game ℝ) (w : Wsi) :
    (g.newPlayer w).2 = { g with
      rand := (g.newPlayer w).2.rand, heap := (g.newPlayer w).2.heap,
      allocated := g.allocated + 1 } ∧
    (∀ q, q ≠ g.allocated → (g.newPlayer w).2.heap q = g.heap q) ∧
    ((g.newPlayer w).2.heap g.allocated).id = BitVec.ofNat 32 g.allocated ∧
    ((g.newPlayer w).2.heap g.allocated).flag = playerFlag ∧
    ((g.newPlayer w).2.heap g.allocated).radius = 1000 := by
  refine ⟨rfl, fun q hq => ?_, ?_, ?_, ?_⟩
  · simp [newPlayer, newPlayerCell, newCell, randomPosition, randomColor, nextRand, setCell, hq]
  all_goals simp [newPlayer, newPlayerCell, newCell, randomPosition, randomColor, nextRand, setCell,
    playerFlag]

theorem newPlayer_player (g : Game ℝ) (w : Wsi) :
    (g.newPlayer w).1.wsi = w ∧ (g.newPlayer w).1.cells = [g.allocated] ∧
    (g.newPlayer w).1.doSplit = false ∧ (g.newPlayer w).1.doFeed = false ∧
    (g.newPlayer w).1.sendTime = 0 ∧ (g.newPlayer w).1.cellHistory = [] ∧
    (g.newPlayer w).1.wsMessage = .new ∧
    (g.newPlayer w).1.blocks =
      Player.viewBlocks (g.newPlayer w).1.topLeft (g.newPlayer w).1.bottomRight :=
  ⟨rfl, rfl, rfl, rfl, rfl, rfl, rfl, rfl⟩

theorem cellsOf_of_map {g g' : Game ℝ} {l : List CellPtr}
    (h : g'.players.map Player.cells = g.players.map Player.cells ++ [l]) (j : ℕ) :
    g'.cellsOf j = if j = g.players.length then l else g.cellsOf j := by
  rw [cellsOf_eq_map, cellsOf_eq_map, h]
  split_ifs with hj
  · rw [hj, ← List.length_map (f := Player.cells), List.getElem?_concat_length]
    rfl
  · rcases Nat.lt_or_gt_of_ne hj with hlt | hgt
    · rw [List.getElem?_append_left (by simpa using hlt)]
    · rw [List.getElem?_eq_none (by simp; omega), List.getElem?_eq_none (by simp; omega)]

theorem cellsOf_join (s : Sys ℝ) (w : Wsi) (grown j : ℕ) :
    (s.join w grown).game.cellsOf j =
      if j = s.game.players.length then [s.game.allocated] else s.game.cellsOf j :=
  cellsOf_of_map (MovedVector.emplaceBack_carried moves_carried s.game.capacity s.game.players
    (s.game.newPlayer w).1) j

theorem join_wellFormed {s : Sys ℝ} (hw : WellFormed s.game) (w : Wsi) (grown : ℕ) :
    WellFormed (s.join w grown).game := by
  obtain ⟨hrest, hheap, hid, hflag, hradius⟩ := newPlayer_spec s.game w
  -- a player without cells first, then its cell
  let p : Player ℝ := { (s.game.newPlayer w).1 with cells := [] }
  let bare : Game ℝ := { s.game with players := s.game.players ++ [p] }
  have hcells : ∀ j, bare.cellsOf j = if j = s.game.players.length then [] else s.game.cellsOf j :=
    cellsOf_of_map (by simp [bare, p])
  have hbare : WellFormed bare := by
    refine hw.of_cellsOf rfl rfl (List.Subset.refl _) rfl rfl fun j => ?_
    rw [hcells]
    split_ifs with hj
    · rw [hj, cellsOf, List.getElem?_eq_none le_rfl]
    · rfl
  have hn : s.game.players.length < bare.players.length := by simp [bare]
  have hempty : bare.cellsOf s.game.players.length = [] := by rw [hcells, if_pos rfl]
  have hspawn := hbare.spawn (i := s.game.players.length)
    (c := (s.game.newPlayer w).2.heap s.game.allocated) hn (by rw [hempty]; decide) hid hflag
    (by rw [hradius]; norm_num)
  refine hspawn.of_cellsOf rfl ?_ (List.subset_append_left _ _) rfl rfl fun j => ?_
  · funext q
    rw [spawn_heap]
    split_ifs with hq
    · subst hq
      rfl
    · exact hheap q hq
  · rw [spawn_cellsOf _ _ _ _ hn, hempty, hcells, cellsOf_join]
    by_cases hj : j = s.game.players.length
    · rw [if_pos hj, if_pos hj.symm]
      rfl
    · rw [if_neg hj, if_neg (Ne.symm hj), if_neg hj]

end Game

/-- What a packet on the connection makes of a player, apart from its cells. -/
def Player.received (w : Wsi) (packet : List Byte) (p : Player ℝ) : Player ℝ :=
  if w = p.wsi ∧ packet ≠ [] then
    { p with
      wsMessage := p.wsMessage.acknowledge
      doSplit := p.doSplit || packet.head? == some msgSplit
      doFeed := p.doFeed || packet.head? == some msgFeed }
  else p

namespace Game

theorem mouse_motion (g : Game ℝ) (cells : List CellPtr) (m : Vec2 ℝ) :
    Motion cells g (g.mouse cells m) :=
  motion_foldl (f := fun (g : Game ℝ) c =>
    g.setCell c { g.heap c with mouseVector := m - (g.heap c).position })
    (fun _ _ hp => motion_setCell hp rfl rfl rfl rfl id) g

theorem receivePlayer_spec (hw : WellFormed g) {packet : List Byte} {beyond : ℕ → Byte} {i : ℕ}
    {p : Player ℝ} (hp : g.players[i]? = some p) (hpacket : packet ≠ []) :
    WellFormed (g.receivePlayer packet beyond i) ∧
    (g.receivePlayer packet beyond i).players =
      g.players.modify i (Player.received p.wsi packet) := by
  obtain ⟨b, rest, rfl⟩ := List.exists_cons_of_ne_nil hpacket
  let ack : Player ℝ → Player ℝ := fun p => { p with wsMessage := p.wsMessage.acknowledge }
  have hack : WellFormed (g.modifyPlayer i ack) := hw.modifyPlayer i ack fun _ => rfl
  have hmod : ∀ f : Player ℝ → Player ℝ, f p = Player.received p.wsi (b :: rest) p →
      g.players.modify i f = g.players.modify i (Player.received p.wsi (b :: rest)) := by
    intro f hf
    apply List.ext_getElem?
    intro n
    rw [List.getElem?_modify, List.getElem?_modify]
    by_cases hn : i = n
    · subst hn
      simp [hp, hf]
    · simp [hn]
  have htype : byteAt (b :: rest) beyond 0 = b := rfl
  unfold receivePlayer
  dsimp only
  rw [htype]
  split_ifs with hmouse hsplit hfeed
  · have hmotion := mouse_motion (g.modifyPlayer i ack) ((g.modifyPlayer i ack).cellsOf i)
      ⟨(int16At (b :: rest) beyond 1 : ℤ), (int16At (b :: rest) beyond 3 : ℤ)⟩
    refine ⟨hack.motion hmotion fun q hq => hack.owned_food q (hack.owned i q hq), ?_⟩
    refine hmotion.players.trans (hmod ack ?_)
    subst hmouse
    simp [ack, Player.received, msgMouse, msgSplit, msgFeed]
  · let split : Player ℝ → Player ℝ := fun p => { p with doSplit := true }
    refine ⟨hack.modifyPlayer i split fun _ => rfl, ?_⟩
    refine (List.modify_modify_eq ack split i g.players).trans (hmod _ ?_)
    subst hsplit
    simp [ack, split, Player.received, msgSplit, msgFeed]
  · let feed : Player ℝ → Player ℝ := fun p => { p with doFeed := true }
    refine ⟨hack.modifyPlayer i feed fun _ => rfl, ?_⟩
    refine (List.modify_modify_eq ack feed i g.players).trans (hmod _ ?_)
    subst hfeed
    simp [ack, feed, Player.received, msgSplit, msgFeed]
  · refine ⟨hack, hmod ack ?_⟩
    simp [ack, Player.received, hsplit, hfeed]

theorem receiveAt_spec (w : Wsi) {packet : List Byte} (beyond : ℕ → Byte) (hw : WellFormed g)
    (hpacket : packet ≠ []) (i : ℕ) :
    WellFormed (receiveAt w packet beyond g i) ∧
    (receiveAt w packet beyond g i).players = g.players.modify i (Player.received w packet) := by
  unfold receiveAt
  rcases hp : g.players[i]? with - | p
  · refine ⟨hw, (modify_of_fixed fun a ha => ?_).symm⟩
    rw [hp] at ha
    cases ha
  · dsimp only
    split_ifs with hwsi
    · subst hwsi
      exact receivePlayer_spec hw hp hpacket
    · refine ⟨hw, (modify_of_fixed fun a ha => ?_).symm⟩
      obtain rfl := Option.some.inj (hp.symm.trans ha)
      exact if_neg fun h => hwsi h.1

theorem receiveAll_spec (hw : WellFormed g) {w : Wsi} {packet : List Byte} {beyond : ℕ → Byte}
    (hpacket : packet ≠ []) :
    WellFormed (g.receiveAll w packet beyond) ∧
    (g.receiveAll w packet beyond).players = g.players.map (Player.received w packet) := by
  have hloop : ∀ n, WellFormed ((List.range n).foldl (receiveAt w packet beyond) g) ∧
      ∀ j, ((List.range n).foldl (receiveAt w packet beyond) g).players[j]? =
        (g.players[j]?).map fun p => if j < n then p.received w packet else p := by
    intro n
    induction n with
    | zero => exact ⟨hw, fun j => by rcases h : g.players[j]? <;> simp [h]⟩
    | succ n ih =>
      rw [List.range_succ, List.foldl_append]
      obtain ⟨hw', hplayers⟩ := receiveAt_spec w beyond ih.1 hpacket n
      refine ⟨hw', fun j => ?_⟩
      simp only [List.foldl_cons, List.foldl_nil, hplayers, List.getElem?_modify, ih.2]
      rcases g.players[j]? with - | p
      · rfl
      · rcases Nat.lt_trichotomy j n with h | h | h
        · simp [h.ne', h, h.trans (Nat.lt_succ_self n)]
        · simp [h]
        · simp [h.ne, not_lt.mpr h.le, not_lt.mpr (Nat.succ_le_of_lt h)]
  obtain ⟨hw', hplayers⟩ := hloop g.players.length
  refine ⟨hw', List.ext_getElem? fun j => ?_⟩
  rw [receiveAll, hplayers, List.getElem?_map]
  rcases hp : g.players[j]? with - | p
  · rfl
  · simp [getElem?_lt hp]

/-- The state after `n` rounds of the food loop. -/
structure Seeded (g : Game ℝ) (n : ℕ) : Prop where
  allocated : g.allocated = n
  cell : ∀ p < n, (g.heap p).id = BitVec.ofNat 32 p ∧ (g.heap p).flag = foodFlag ∧
    (g.heap p).radius = foodRadius
  static : ∀ b, ∀ p ∈ g.staticMap b, p < n ∧ indexFromCoord (g.heap p).position = b
  static_nodup : ∀ b, (g.staticMap b).Nodup
  dynamic : g.dynamicMap = []
  players : g.players = []
  calls : g.calls = []
  events : g.cellEvents = {}

theorem addFood_seeded {n : ℕ} (h : Seeded g n) : Seeded g.addFood (n + 1) := by
  -- the state before `AddStatic`
  let g1 := (g.randomPosition.2.randomColor.2.newCell foodRadius g.randomPosition.1
    g.randomPosition.2.randomColor.1).2.setFlag g.allocated fun f => { f with isFood := true }
  have hg1 : g.addFood = g1.addStatic g.allocated := rfl
  have hold : ∀ q, q ≠ g.allocated → g1.heap q = g.heap q := fun q hq => by
    simp [g1, newCell, randomPosition, randomColor, nextRand, setFlag, setCell, hq]
  have hnew : (g1.heap g.allocated).id = BitVec.ofNat 32 g.allocated ∧
      (g1.heap g.allocated).flag = foodFlag ∧ (g1.heap g.allocated).radius = foodRadius := by
    simp [g1, newCell, randomPosition, randomColor, nextRand, setFlag, setCell, foodFlag]
  have hcell : ∀ p < n + 1, (g1.heap p).id = BitVec.ofNat 32 p ∧ (g1.heap p).flag = foodFlag ∧
      (g1.heap p).radius = foodRadius := by
    intro p hp
    rcases Nat.lt_or_eq_of_le (Nat.lt_succ_iff.mp hp) with hlt | heq
    · rw [hold p (by rw [h.allocated]; exact hlt.ne)]
      exact h.cell p hlt
    · have hpa : p = g.allocated := heq.trans h.allocated.symm
      rw [hpa]
      exact hnew
  have hstatic : ∀ b, ∀ p ∈ g1.staticMap b, p < n ∧ indexFromCoord (g1.heap p).position = b := by
    intro b p hp
    have hs := h.static b p hp
    rw [hold p (by rw [h.allocated]; exact hs.1.ne)]
    exact hs
  have halloc : g1.allocated = n + 1 := congrArg (· + 1) h.allocated
  rw [hg1]
  unfold addStatic
  dsimp only
  split_ifs with hany
  · exact ⟨halloc, hcell, fun b p hp => ⟨(hstatic b p hp).1.trans (Nat.lt_succ_self n),
      (hstatic b p hp).2⟩, h.static_nodup, h.dynamic, h.players, h.calls, h.events⟩
  · refine ⟨halloc, hcell, fun b p hp => ?_, fun b => ?_, h.dynamic, h.players, h.calls, h.events⟩
    · dsimp only at hp
      split_ifs at hp with hb
      · rcases List.mem_append.mp hp with hp | hp
        · rw [hb]
          exact ⟨(hstatic _ p hp).1.trans (Nat.lt_succ_self n), (hstatic _ p hp).2⟩
        · rw [List.mem_singleton.mp hp, hb]
          exact ⟨by rw [h.allocated]; exact Nat.lt_succ_self n, rfl⟩
      · exact ⟨(hstatic b p hp).1.trans (Nat.lt_succ_self n), (hstatic b p hp).2⟩
    · dsimp only
      split_ifs with hb
      · refine List.nodup_append.mpr ⟨h.static_nodup _, List.nodup_singleton _, ?_⟩
        intro p hp q hq hpq
        have hlt := (hstatic _ p hp).1
        rw [hpq, List.mem_singleton.mp hq, h.allocated] at hlt
        exact lt_irrefl _ hlt
      · exact h.static_nodup b

theorem wellFormed_of_seeded (h : Seeded g maxFood) : WellFormed g := by
  have hcells : ∀ i, g.cellsOf i = [] := fun i => by simp [cellsOf, h.players]
  have howned : ∀ p, ¬ g.Owned p := fun p hp => by
    have := (h.cell p (h.allocated ▸ hp.1)).2.1
    rw [hp.2] at this
    exact absurd this (by decide)
  exact
    { food_le := h.allocated.ge
      id := fun p hp => (h.cell p (h.allocated ▸ hp)).1
      radius := fun p hp => by
        rw [(h.cell p (h.allocated ▸ hp)).2.2]
        norm_num [foodRadius]
      static := fun b p hp =>
        ⟨(h.static b p hp).1, (h.cell p (h.static b p hp).1).2.1, (h.static b p hp).2⟩
      static_nodup := h.static_nodup
      dynamic := fun p hp => by simp [h.dynamic] at hp
      dynamic_nodup := by simp [h.dynamic]
      owned := fun i p hp => by simp [hcells] at hp
      owned_food := fun p hp => absurd hp (howned p)
      cells_nodup := fun i => by simp [hcells]
      cells_disjoint := fun i j _ p hp => by simp [hcells] at hp
      cap := fun i => by simp [hcells]
      capped := fun c hc => by simp [h.calls] at hc }

theorem addVirus_eq (g : Game ℝ) :
    g.addVirus = g.randomPosition.2.eject (g.addVirus.heap g.allocated) ∧
    (g.addVirus.heap g.allocated).id = BitVec.ofNat 32 g.allocated ∧
    (g.addVirus.heap g.allocated).flag = virusFlag ∧
    (g.addVirus.heap g.allocated).radius = virusMinRadius := by
  refine ⟨?_, ?_⟩
  · refine Eq.trans ?_ (eject_of_heap (g := g.randomPosition.2) (h := g.addVirus.heap) ?_)
    · rfl
    · intro q hq
      have hne : q ≠ g.allocated := hq
      simp [addVirus, newCell, randomPosition, nextRand, setFlag, setCell, addDynamic, hne]
  · simp [addVirus, newCell, randomPosition, nextRand, setFlag, setCell, addDynamic, virusFlag]

/-- What holds from the first moment on. -/
structure Started (g : Game ℝ) : Prop where
  wellFormed : WellFormed g
  positive : Positive g
  players : g.players = []
  calls : g.calls = []
  events : g.cellEvents = {}

theorem addVirus_started (h : Started g) : Started g.addVirus := by
  obtain ⟨heq, hid, hflag, hradius⟩ := addVirus_eq g
  have hdraw : WellFormed g.randomPosition.2 :=
    h.wellFormed.of_cellsOf rfl rfl (List.Subset.refl _) rfl rfl fun _ => rfl
  have hpos : (0 : ℝ) < virusMinRadius := by norm_num [virusMinRadius]
  refine ⟨?_, ?_, ?_, ?_, ?_⟩
  · rw [heq]
    exact hdraw.eject hid (Or.inr hflag) (by rw [hradius]; exact hpos.le)
  · intro p hp
    rw [heq] at hp ⊢
    rw [eject_heap]
    split_ifs with hq
    · rw [hradius]
      exact hpos
    · exact h.positive p (Nat.lt_of_le_of_ne (Nat.lt_succ_iff.mp hp) hq)
  · rw [heq]
    exact h.players
  · rw [heq]
    exact h.calls
  · rw [heq]
    exact h.events

theorem mapInit_started (rand : ℕ → Fin (randMax + 1)) (stale : CellPtr → ℝ) :
    Started (empty rand stale).mapInit := by
  have hempty : Seeded (empty rand stale) 0 :=
    ⟨rfl, fun _ h => absurd h (Nat.not_lt_zero _), fun _ _ h => by simp [empty] at h,
      fun _ => List.nodup_nil, rfl, rfl, rfl, rfl⟩
  have hfood : ∀ n, Seeded (addFood^[n] (empty rand stale)) n := by
    intro n
    induction n with
    | zero => exact hempty
    | succ n ih =>
      rw [Function.iterate_succ_apply']
      exact addFood_seeded ih
  have hseeded := hfood maxFood
  have hstart : Started (addFood^[maxFood] (empty rand stale)) := by
    refine ⟨wellFormed_of_seeded hseeded, fun p hp => ?_, hseeded.players, hseeded.calls,
      hseeded.events⟩
    rw [(hseeded.cell p (hseeded.allocated ▸ hp)).2.2]
    norm_num [foodRadius]
  have hvirus : ∀ g : Game ℝ, Started g → ∀ n, Started (addVirus^[n] g) := by
    intro g hg n
    induction n with
    | zero => exact hg
    | succ n ih =>
      rw [Function.iterate_succ_apply']
      exact addVirus_started ih
  unfold mapInit
  exact hvirus _ hstart maxVirus

end Game

end Agar
