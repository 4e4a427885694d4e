import Agar.Merging
import Agar.UpdateEffects
import Agar.Lib.Handover

/-! The split and feed commands of a player, cell by cell: which cells split, which ones eject, and
where their mass goes. -/

namespace Agar

namespace Game
variable {g g' : Game ℝ} {i : ℕ} {cell : CellPtr}

/-- A cell of player `i` has split in two halves. -/
structure Halved (i : ℕ) (cell : CellPtr) (g g' : Game ℝ) : Prop where
  allocated : g'.allocated = g.allocated + 1
  players : g'.players =
    g.players.modify i fun p => { p with cells := g.cellsOf i ++ [g.allocated] }
  dynamic : g'.dynamicMap = g.dynamicMap
  half : (g'.heap cell).size = (g.heap cell).size / 2
  other : (g'.heap g.allocated).size = (g.heap cell).size / 2
  rest : ∀ q, q ≠ cell → q ≠ g.allocated → g'.heap q = g.heap q

theorem size_of_radius {c : Cell ℝ} {s : ℝ} (hs : 0 ≤ s) (h : c.radius = Cell.getRadius s) :
    c.size = s := by
  unfold Cell.size
  rw [h]
  exact Cell.sqrt_size hs

theorem splitCell_halved (i : ℕ) (hcell : cell < g.allocated) :
    Halved i cell g (g.splitCell i cell) := by
  have hhalf : 0 ≤ (g.heap cell).size / 2 := div_nonneg (Cell.size_nonneg _) zero_le_two
  have hne : cell ≠ g.allocated := hcell.ne
  refine ⟨rfl, rfl, rfl, size_of_radius hhalf ?_, size_of_radius hhalf ?_, fun q hq hnew => ?_⟩
  · simp [splitCell, newPlayerCell, newCell, setCombine, setCell, pushCell, setCells, note, hne]
  · simp [splitCell, newPlayerCell, newCell, setCombine, setCell, pushCell, setCells, note,
      Cell.addVelocity, hne, hne.symm]
  · simp [splitCell, newPlayerCell, newCell, setCombine, setCell, pushCell, setCells, note, hq, hnew]

/-- A cell has ejected a food. -/
structure Ejected (cell : CellPtr) (g g' : Game ℝ) : Prop where
  allocated : g'.allocated = g.allocated + 1
  players : g'.players = g.players
  dynamic : g'.dynamicMap = g.dynamicMap ++ [g.allocated]
  lighter : (g'.heap cell).size = (g.heap cell).size - feedSize
  food : (g'.heap g.allocated).size = feedSize * feedMult ∧ (g'.heap g.allocated).flag.isFood = true
  rest : ∀ q, q ≠ cell → q ≠ g.allocated → g'.heap q = g.heap q

/-- The cell is big enough to eject. -/
def Ejects (g : Game ℝ) (cell : CellPtr) : Prop := playerMinSize < (g.heap cell).size - feedSize

noncomputable instance (g : Game ℝ) (cell : CellPtr) : Decidable (g.Ejects cell) :=
  inferInstanceAs (Decidable (_ < _))

theorem feedCell_ejected (hcell : cell < g.allocated) (h : g.Ejects cell) :
    Ejected cell g (g.feedCell cell) := by
  have hne : cell ≠ g.allocated := hcell.ne
  have hmin : (0 : ℝ) < playerMinSize := by norm_num [playerMinSize, getSize, playerMinRadius]
  have hrest : 0 ≤ -feedSize + (g.heap cell).size := by
    have hbig : (playerMinSize : ℝ) < (g.heap cell).size - feedSize := h
    linarith
  have hfood : (0 : ℝ) ≤ feedSize * feedMult := by norm_num [feedSize, feedMult]
  have heq : g.feedCell cell = _ := if_pos h
  rw [heq]
  refine ⟨rfl, rfl, rfl, ?_, ⟨size_of_radius hfood ?_, ?_⟩, fun q hq hnew => ?_⟩
  · refine (size_of_radius hrest ?_).trans (neg_add_eq_sub _ _)
    simp [newCell, nextRand, setCell, addSize, note, addDynamic, hne, Cell.addSize, Cell.getRadius]
  · simp [newCell, nextRand, setCell, addSize, note, addDynamic, Cell.addForce]
  · simp [newCell, nextRand, setCell, addSize, note, addDynamic, Cell.addForce]
  · simp [newCell, nextRand, setCell, addSize, note, addDynamic, hq, hnew]

/-- The cell is big enough to split. -/
def Splits (g : Game ℝ) (cell : CellPtr) : Prop := 42 < (g.heap cell).radius

noncomputable instance (g : Game ℝ) (cell : CellPtr) : Decidable (g.Splits cell) :=
  inferInstanceAs (Decidable (_ < _))

/-- The cells that split among the first `x` ones: the first that are big enough, as many as there
is room for. -/
noncomputable def splitting (g : Game ℝ) (i x : ℕ) : List CellPtr :=
  (((g.cellsOf i).take x).filter fun c => decide (g.Splits c)).take (16 - (g.cellsOf i).length)

/-- After `x` rounds of the split loop. -/
structure SplitUpTo (g : Game ℝ) (i x : ℕ) (g' : Game ℝ) : Prop where
  allocated : g'.allocated = g.allocated + (g.splitting i x).length
  players : g'.players = g.players.modify i fun p => { p with
    cells := g.cellsOf i ++ List.range' g.allocated (g.splitting i x).length }
  dynamic : g'.dynamicMap = g.dynamicMap
  halves : ∀ j c, (g.splitting i x)[j]? = some c → (g'.heap c).size = (g.heap c).size / 2 ∧
    (g'.heap (g.allocated + j)).size = (g.heap c).size / 2
  rest : ∀ q < g.allocated, q ∉ g.splitting i x → g'.heap q = g.heap q
  mass : g'.mass i = g.mass i

theorem splitting_subset (g : Game ℝ) (i x : ℕ) : g.splitting i x ⊆ (g.cellsOf i).take x :=
  fun _ hc => List.mem_of_mem_filter (List.mem_of_mem_take hc)

theorem splitting_succ {x : ℕ} (hx : (g.cellsOf i)[x]? = some cell) :
    g.splitting i (x + 1) = if (g.splitting i x).length < 16 - (g.cellsOf i).length ∧ g.Splits cell
      then g.splitting i x ++ [cell] else g.splitting i x := by
  have htake : (g.cellsOf i).take (x + 1) = (g.cellsOf i).take x ++ [cell] := by
    rw [List.take_add_one, hx]
    rfl
  unfold splitting
  rw [htake, List.filter_append]
  generalize ((g.cellsOf i).take x).filter (fun c => decide (g.Splits c)) = big
  by_cases hbig : g.Splits cell
  · rw [List.filter_cons_of_pos (by simpa using hbig), List.filter_nil]
    by_cases hroom : big.length < 16 - (g.cellsOf i).length
    · rw [if_pos ⟨(List.length_take_le' _ _).trans_lt hroom, hbig⟩,
        List.take_of_length_le hroom.le, List.take_of_length_le]
      rw [List.length_append, List.length_singleton]
      exact hroom
    · rw [if_neg, List.take_append_of_le_length (not_lt.mp hroom)]
      rw [List.length_take_of_le (not_lt.mp hroom)]
      exact fun h => lt_irrefl _ h.1
  · rw [List.filter_cons_of_neg (by simpa using hbig), List.filter_nil, List.append_nil,
      if_neg fun h => hbig h.2]

theorem splitUpTo_zero (g : Game ℝ) (i : ℕ) : SplitUpTo g i 0 g := by
  have hnone : g.splitting i 0 = [] := by simp [splitting]
  refine ⟨?_, ?_, rfl, ?_, fun _ _ _ => rfl, rfl⟩
  · rw [hnone]
    rfl
  · rw [hnone]
    refine (modify_of_fixed fun p hp => ?_).symm
    have hcells : g.cellsOf i = p.cells := by simp [cellsOf, hp]
    simp [hcells]
  · intro j c hc
    rw [hnone] at hc
    cases hc

theorem SplitUpTo.cellsOf {x : ℕ} (h : SplitUpTo g i x g') (hi : i < g.players.length) :
    g'.cellsOf i = g.cellsOf i ++ List.range' g.allocated (g.splitting i x).length := by
  unfold Game.cellsOf
  rw [h.players]
  simp [List.getElem?_eq_getElem hi, Game.cellsOf]

theorem SplitUpTo.nodup {x : ℕ} (h : SplitUpTo g i x g') (hi : i < g.players.length)
    (hnodup : (g.cellsOf i).Nodup) (hlt : ∀ c ∈ g.cellsOf i, c < g.allocated) :
    (g'.cellsOf i).Nodup := by
  rw [h.cellsOf hi]
  refine List.nodup_append.mpr ⟨hnodup, List.nodup_range', ?_⟩
  rintro c hc d hd rfl
  exact absurd (List.mem_range'_1.mp hd).1 (not_le.mpr (hlt c hc))

theorem Halved.mass (h : Halved i cell g g') (hi : i < g.players.length)
    (hcell : cell ∈ g.cellsOf i) (hnodup : (g.cellsOf i).Nodup)
    (hlt : ∀ c ∈ g.cellsOf i, c ≠ g.allocated) : g'.mass i = g.mass i := by
  have hcells : g'.cellsOf i = g.cellsOf i ++ [g.allocated] := by
    unfold Game.cellsOf
    rw [h.players]
    simp [List.getElem?_eq_getElem hi, Game.cellsOf]
  have hchange := Handover.sum_change hnodup hcell (fun c => (g.heap c).size)
    (fun c => (g'.heap c).size) fun c hc hne => by rw [h.rest c hne (hlt c hc)]
  rw [h.half] at hchange
  unfold Game.mass
  rw [hcells, List.map_append, List.sum_append, List.map_singleton, List.sum_singleton, h.other]
  linarith

theorem SplitUpTo.next {x : ℕ} (h : SplitUpTo g i x g') (hi : i < g.players.length)
    (hx : (g.cellsOf i)[x]? = some cell) (hfew : (g.cellsOf i).length ≤ 16)
    (hnodup : (g.cellsOf i).Nodup) (hlt : ∀ c ∈ g.cellsOf i, c < g.allocated) :
    SplitUpTo g i (x + 1) (g'.splitAt i x) := by
  have hxlt := getElem?_lt hx
  have hcell := hlt cell (List.mem_of_getElem? hx)
  have hcells := h.cellsOf hi
  -- the cell has not been split before
  have hnew : cell ∉ g.splitting i x := by
    intro hmem
    obtain ⟨n, hn, hcn⟩ := List.mem_take_iff_getElem.mp (g.splitting_subset i x hmem)
    have hsame : (g.cellsOf i)[n]? = (g.cellsOf i)[x]? := by
      rw [hx, List.getElem?_eq_getElem (by omega), hcn]
    have hnx := (List.getElem?_inj (by omega) hnodup).mp hsame
    omega
  have hkept : g'.heap cell = g.heap cell := h.rest cell hcell hnew
  have hget : (g'.cellsOf i)[x]? = some cell := by
    rw [hcells, List.getElem?_append_left hxlt]
    exact hx
  have hroom : ((g'.cellsOf i).length < 16 ∧ 42 < (g'.heap cell).radius) ↔
      (g.splitting i x).length < 16 - (g.cellsOf i).length ∧ g.Splits cell := by
    rw [hcells, hkept, List.length_append, List.length_range']
    unfold Splits
    refine and_congr_left' ?_
    omega
  unfold splitAt
  rw [hget]
  dsimp only
  by_cases hsplit : (g.splitting i x).length < 16 - (g.cellsOf i).length ∧ g.Splits cell
  · rw [if_pos (hroom.mpr hsplit)]
    have hsucc := (splitting_succ hx).trans (if_pos hsplit)
    have hbound : cell < g'.allocated := by
      rw [h.allocated]
      exact Nat.lt_add_right _ hcell
    have hhalved := splitCell_halved (g := g') i hbound
    have hold : ∀ c ∈ g.splitting i x, c < g.allocated := fun c hc =>
      hlt c (List.mem_of_mem_take (g.splitting_subset i x hc))
    have hi' : i < g'.players.length := by
      rw [h.players, List.length_modify]
      exact hi
    have hmem : ∀ c ∈ g'.cellsOf i, c < g'.allocated := by
      intro c hc
      rw [h.allocated]
      rw [hcells] at hc
      rcases List.mem_append.mp hc with hc | hc
      · exact Nat.lt_add_right _ (hlt c hc)
      · exact (List.mem_range'_1.mp hc).2
    constructor
    · rw [hhalved.allocated, h.allocated, hsucc, List.length_append]
      rfl
    · rw [hhalved.players, hcells, h.players, List.modify_modify_eq, hsucc, List.length_append,
        List.length_singleton, List.range'_1_concat, h.allocated, List.append_assoc]
      rfl
    · exact hhalved.dynamic.trans h.dynamic
    · intro j c hc
      rw [hsucc] at hc
      rcases Nat.lt_or_ge j (g.splitting i x).length with hj | hj
      · rw [List.getElem?_append_left hj] at hc
        have hmemc := List.mem_of_getElem? hc
        have hc' := hold c hmemc
        have hcne : c ≠ cell := fun heq => hnew (heq ▸ hmemc)
        have hjne : g.allocated + j ≠ g.allocated + (g.splitting i x).length := fun heq =>
          hj.ne (Nat.add_left_cancel heq)
        rw [hhalved.rest c hcne (h.allocated ▸ (Nat.lt_add_right _ hc').ne),
          hhalved.rest (g.allocated + j) (Nat.lt_add_right j hcell).ne' (h.allocated ▸ hjne)]
        exact h.halves j c hc
      · have hlast := getElem?_lt hc
        rw [List.length_append, List.length_singleton] at hlast
        obtain rfl : j = (g.splitting i x).length := le_antisymm (Nat.lt_succ_iff.mp hlast) hj
        rw [List.getElem?_concat_length] at hc
        obtain rfl := Option.some.inj hc
        rw [← h.allocated, ← hkept]
        exact ⟨hhalved.half, hhalved.other⟩
    · intro q hq hqn
      rw [hsucc, List.mem_append, List.mem_singleton, not_or] at hqn
      rw [hhalved.rest q hqn.2 (h.allocated ▸ (Nat.lt_add_right _ hq).ne)]
      exact h.rest q hq hqn.1
    · refine (hhalved.mass hi' (List.mem_of_getElem? hget) (h.nodup hi hnodup hlt) ?_).trans h.mass
      exact fun c hc => (hmem c hc).ne
  · rw [if_neg fun hc => hsplit (hroom.mp hc)]
    have hsucc := (splitting_succ hx).trans (if_neg hsplit)
    exact ⟨hsucc ▸ h.allocated, hsucc ▸ h.players, h.dynamic, hsucc ▸ h.halves, hsucc ▸ h.rest,
      h.mass⟩

theorem splitCells_upTo (hi : i < g.players.length) (hfew : (g.cellsOf i).length ≤ 16)
    (hnodup : (g.cellsOf i).Nodup) (hlt : ∀ c ∈ g.cellsOf i, c < g.allocated) :
    SplitUpTo g i (g.cellsOf i).length (g.splitCells i) := by
  have hloop : ∀ n ≤ (g.cellsOf i).length,
      SplitUpTo g i n ((List.range n).foldl (fun g x => g.splitAt i x) g) := by
    intro n hn
    induction n with
    | zero => exact splitUpTo_zero g i
    | succ n ih =>
      rw [List.range_succ, List.foldl_append]
      exact (ih (by omega)).next hi (List.getElem?_eq_getElem hn) hfew hnodup hlt
  exact hloop _ le_rfl

/-- The cells of a list that eject. -/
noncomputable def ejecting (g : Game ℝ) (l : List CellPtr) : List CellPtr :=
  l.filter fun c => decide (g.Ejects c)

/-- The cells of a list have ejected. -/
structure Spat (l : List CellPtr) (g g' : Game ℝ) : Prop where
  allocated : g'.allocated = g.allocated + (g.ejecting l).length
  players : g'.players = g.players
  dynamic : g'.dynamicMap =
    g.dynamicMap ++ List.range' g.allocated (g.ejecting l).length
  lighter : ∀ c ∈ g.ejecting l, (g'.heap c).size = (g.heap c).size - feedSize
  food : ∀ f ∈ List.range' g.allocated (g.ejecting l).length,
    (g'.heap f).size = feedSize * feedMult ∧ (g'.heap f).flag.isFood = true
  rest : ∀ q < g.allocated, q ∉ g.ejecting l → g'.heap q = g.heap q

theorem feedCells_spat {l : List CellPtr} (hl : l.Nodup) (hlt : ∀ c ∈ l, c < g.allocated) :
    Spat l g (l.foldl feedCell g) := by
  induction l generalizing g with
  | nil =>
    refine ⟨rfl, rfl, (List.append_nil _).symm, fun c hc => ?_, fun f hf => ?_, fun _ _ _ => rfl⟩
    · cases hc
    · cases hf
  | cons cell l ih =>
    obtain ⟨hcell, hl⟩ := List.nodup_cons.mp hl
    have hbound := hlt cell List.mem_cons_self
    have hlater : ∀ c ∈ l, c < g.allocated := fun c hc => hlt c (List.mem_cons_of_mem _ hc)
    rw [List.foldl_cons]
    by_cases h : g.Ejects cell
    · have he := feedCell_ejected hbound h
      have hfed := ih (g := g.feedCell cell) hl fun c hc => by
        rw [he.allocated]
        exact Nat.lt_succ_of_lt (hlater c hc)
      have hsame : ∀ c ∈ l, (g.feedCell cell).heap c = g.heap c := fun c hc =>
        he.rest c (fun heq => hcell (heq ▸ hc)) (hlater c hc).ne
      have hrest : (g.feedCell cell).ejecting l = g.ejecting l :=
        List.filter_congr fun c hc => decide_eq_decide.mpr (by
          unfold Ejects
          rw [hsame c hc])
      have hcons : g.ejecting (cell :: l) = cell :: g.ejecting l :=
        List.filter_cons_of_pos (decide_eq_true h)
      have hsub : ∀ c ∈ g.ejecting l, c ∈ l := fun c hc => List.mem_of_mem_filter hc
      have hlen : (g.ejecting (cell :: l)).length = (g.ejecting l).length + 1 := by
        rw [hcons, List.length_cons]
      have hfoods : List.range' g.allocated (g.ejecting (cell :: l)).length =
          g.allocated :: List.range' (g.allocated + 1) (g.ejecting l).length := by
        rw [hlen, List.range'_succ]
      constructor
      · rw [hfed.allocated, he.allocated, hrest, hlen]
        omega
      · exact hfed.players.trans he.players
      · rw [hfed.dynamic, he.dynamic, he.allocated, hrest, hfoods, List.append_assoc]
        rfl
      · intro c hc
        rw [hcons] at hc
        rcases List.mem_cons.mp hc with rfl | hc
        · rw [hfed.rest c (by rw [he.allocated]; exact Nat.lt_succ_of_lt hbound) (fun hmem => ?_)]
          · exact he.lighter
          · rw [hrest] at hmem
            exact hcell (hsub c hmem)
        · rw [hfed.lighter c (hrest ▸ hc), hsame c (hsub c hc)]
      · intro f hf
        rw [hfoods] at hf
        rcases List.mem_cons.mp hf with rfl | hf
        · have hmem : g.allocated ∉ (g.feedCell cell).ejecting l := fun hmem =>
            lt_irrefl _ (hlater _ (hsub _ (hrest ▸ hmem)))
          rw [hfed.rest g.allocated (by rw [he.allocated]; exact Nat.lt_succ_self _) hmem]
          exact he.food
        · exact hfed.food f (by rw [he.allocated, hrest]; exact hf)
      · intro q hq hqn
        rw [hcons, List.mem_cons, not_or] at hqn
        rw [hfed.rest q (by rw [he.allocated]; exact Nat.lt_succ_of_lt hq) (hrest ▸ hqn.2)]
        exact he.rest q hqn.1 hq.ne
    · have hsame : g.feedCell cell = g := if_neg h
      have hskip : g.ejecting (cell :: l) = g.ejecting l :=
        List.filter_cons_of_neg (by simpa using h)
      have hfed := ih (g := g) hl hlater
      rw [hsame]
      exact ⟨hskip ▸ hfed.allocated, hfed.players, hskip ▸ hfed.dynamic, hskip ▸ hfed.lighter,
        hskip ▸ hfed.food, hskip ▸ hfed.rest⟩

/-- The mass of the cells of `DynamicMap`. -/
noncomputable def loose (g : Game ℝ) : ℝ := (g.dynamicMap.map fun c => (g.heap c).size).sum

end Game

/-- A player with at most 16 cells at its update, with any orders. -/
structure Ordered where
  game : Game ℝ
  index : ℕ
  player : Player ℝ
  present : game.players[index]? = some player
  few : player.cells.length ≤ 16
  solid : ∀ c ∈ player.cells, 0 < (game.heap c).radius
  distinct : player.cells.Nodup
  allocated : ∀ c ∈ player.cells ++ game.dynamicMap, c < game.allocated
  apart : ∀ c ∈ player.cells, c ∉ game.dynamicMap

namespace Ordered
variable (o : Ordered)

/-- After the split command. -/
noncomputable def split : Game ℝ := o.game.splitCommand o.index o.player

/-- After both commands. -/
noncomputable def after : Game ℝ := o.game.commands o.index o.player

/-- The first cells that are big enough, until there are 16. -/
noncomputable def splitters : List CellPtr :=
  if o.player.doSplit then (o.player.cells.filter fun c => decide (o.game.Splits c)).take
    (16 - o.player.cells.length) else []

/-- The cells that are big enough to eject, those just created among them. -/
noncomputable def ejectors : List CellPtr :=
  if o.player.doFeed then (o.split.cellsOf o.index).filter fun c => decide (o.split.Ejects c) else []

/-- Every unit of mass is accounted for. -/
structure Accounts : Prop where
  cells : o.split.cellsOf o.index =
    o.player.cells ++ List.range' o.game.allocated o.splitters.length
  halves : ∀ j c, o.splitters[j]? = some c →
    (o.split.heap c).size = (o.game.heap c).size / 2 ∧
    (o.split.heap (o.game.allocated + j)).size = (o.game.heap c).size / 2
  whole : ∀ c ∈ o.player.cells, c ∉ o.splitters → o.split.heap c = o.game.heap c
  kept : o.after.cellsOf o.index = o.split.cellsOf o.index
  lighter : ∀ c ∈ o.ejectors, (o.after.heap c).size = (o.split.heap c).size - feedSize ∧
    playerMinSize < (o.after.heap c).size
  untouched : ∀ c ∈ o.split.cellsOf o.index, c ∉ o.ejectors → o.after.heap c = o.split.heap c
  dynamic : o.after.dynamicMap =
    o.game.dynamicMap ++ List.range' o.split.allocated o.ejectors.length
  food : ∀ f ∈ List.range' o.split.allocated o.ejectors.length,
    (o.after.heap f).size = feedSize * feedMult ∧ (o.after.heap f).flag.isFood = true
  others : ∀ d ∈ o.game.dynamicMap, o.after.heap d = o.game.heap d
  mass : o.after.mass o.index + o.after.loose =
    o.game.mass o.index + o.game.loose - (1 - feedMult) * feedSize * o.ejectors.length
  done : ∀ q, o.after.players[o.index]? = some q → q.doSplit = false ∧ q.doFeed = false

theorem present_lt : o.index < o.game.players.length := Game.getElem?_lt o.present

theorem cellsOf_game : o.game.cellsOf o.index = o.player.cells := by
  simp [Game.cellsOf, o.present]

theorem splitters_subset : o.splitters ⊆ o.player.cells := by
  intro c hc
  unfold splitters at hc
  split_ifs at hc
  · exact List.mem_of_mem_filter (List.mem_of_mem_take hc)
  · cases hc

/-- What the split command does. -/
structure SplitDone : Prop where
  allocated : o.split.allocated = o.game.allocated + o.splitters.length
  player : ∃ q, o.split.players[o.index]? = some q ∧ q.doSplit = false ∧
    q.doFeed = o.player.doFeed ∧
    q.cells = o.player.cells ++ List.range' o.game.allocated o.splitters.length
  dynamic : o.split.dynamicMap = o.game.dynamicMap
  halves : ∀ j c, o.splitters[j]? = some c →
    (o.split.heap c).size = (o.game.heap c).size / 2 ∧
    (o.split.heap (o.game.allocated + j)).size = (o.game.heap c).size / 2
  rest : ∀ q < o.game.allocated, q ∉ o.splitters → o.split.heap q = o.game.heap q
  mass : o.split.mass o.index = o.game.mass o.index

theorem splitDone : o.SplitDone := by
  by_cases hsplit : o.player.doSplit = true
  · have hlower := Game.cellsOf_modifyPlayer o.game o.index
      (fun p => { p with doSplit := false }) (fun _ => rfl) o.index
    generalize hg : o.game.modifyPlayer o.index (fun p => { p with doSplit := false }) = g at hlower
    have hheap : g.heap = o.game.heap := by rw [← hg]; rfl
    have hallocated : g.allocated = o.game.allocated := by rw [← hg]; rfl
    have hdynamic : g.dynamicMap = o.game.dynamicMap := by rw [← hg]; rfl
    have hplayers : g.players = o.game.players.modify o.index fun p => { p with doSplit := false } := by
      rw [← hg]
      rfl
    have hcells : g.cellsOf o.index = o.player.cells := hlower.trans o.cellsOf_game
    have hafter : o.split = g.splitCells o.index := by
      unfold split Game.splitCommand
      rw [if_pos hsplit, hg]
    have hsplitters : g.splitting o.index o.player.cells.length = o.splitters := by
      unfold Game.splitting splitters
      rw [if_pos hsplit, hcells, List.take_length]
      refine congrArg (List.take _) (List.filter_congr fun c _ => decide_eq_decide.mpr ?_)
      unfold Game.Splits
      rw [hheap]
    have hdone := Game.splitCells_upTo (g := g) (i := o.index)
      (by rw [hplayers, List.length_modify]; exact o.present_lt) (by rw [hcells]; exact o.few)
      (by rw [hcells]; exact o.distinct)
      fun c hc => by
        rw [hallocated]
        exact o.allocated c (List.mem_append_left _ (hcells ▸ hc))
    rw [hcells, ← hafter] at hdone
    have hget : o.split.players[o.index]? = some { o.player with
        doSplit := false
        cells := o.player.cells ++ List.range' o.game.allocated o.splitters.length } := by
      rw [hdone.players, hplayers, hsplitters, hallocated, hcells, List.modify_modify_eq,
        List.getElem?_modify, o.present]
      simp
    constructor
    · rw [hdone.allocated, hsplitters, hallocated]
    · exact ⟨_, hget, rfl, rfl, rfl⟩
    · exact hdone.dynamic.trans hdynamic
    · intro j c hc
      rw [← hheap, ← hallocated]
      exact hdone.halves j c (hsplitters ▸ hc)
    · intro q hq hqn
      rw [← hheap]
      exact hdone.rest q (hallocated ▸ hq) (hsplitters ▸ hqn)
    · rw [hdone.mass]
      exact Game.mass_congr hlower fun q => by rw [hheap]
  · have hafter : o.split = o.game := if_neg hsplit
    have hnone : o.splitters = [] := if_neg hsplit
    constructor
    · rw [hafter, hnone]
      rfl
    · rw [hafter, hnone]
      exact ⟨_, o.present, Bool.eq_false_iff.mpr hsplit, rfl, (List.append_nil _).symm⟩
    · rw [hafter]
    · intro j c hc
      rw [hnone] at hc
      cases hc
    · exact fun q _ _ => by rw [hafter]
    · rw [hafter]

theorem cellsOf_split : o.split.cellsOf o.index =
    o.player.cells ++ List.range' o.game.allocated o.splitters.length := by
  obtain ⟨q, hq, -, -, hcells⟩ := o.splitDone.player
  rw [← hcells]
  simp [Game.cellsOf, hq]

theorem cellsOf_split_nodup : (o.split.cellsOf o.index).Nodup := by
  rw [o.cellsOf_split]
  refine List.nodup_append.mpr ⟨o.distinct, List.nodup_range', ?_⟩
  rintro c hc d hd rfl
  exact absurd (List.mem_range'_1.mp hd).1
    (not_le.mpr (o.allocated c (List.mem_append_left _ hc)))

theorem cellsOf_split_lt : ∀ c ∈ o.split.cellsOf o.index, c < o.split.allocated := by
  intro c hc
  rw [o.splitDone.allocated]
  rw [o.cellsOf_split] at hc
  rcases List.mem_append.mp hc with hc | hc
  · exact Nat.lt_add_right _ (o.allocated c (List.mem_append_left _ hc))
  · exact (List.mem_range'_1.mp hc).2

/-- What the feed command does. -/
structure FeedDone : Prop where
  player : ∃ q, o.after.players[o.index]? = some q ∧ q.doSplit = false ∧ q.doFeed = false ∧
    q.cells = o.split.cellsOf o.index
  dynamic : o.after.dynamicMap =
    o.split.dynamicMap ++ List.range' o.split.allocated o.ejectors.length
  lighter : ∀ c ∈ o.ejectors, (o.after.heap c).size = (o.split.heap c).size - feedSize
  food : ∀ f ∈ List.range' o.split.allocated o.ejectors.length,
    (o.after.heap f).size = feedSize * feedMult ∧ (o.after.heap f).flag.isFood = true
  rest : ∀ q < o.split.allocated, q ∉ o.ejectors → o.after.heap q = o.split.heap q

theorem feedDone : o.FeedDone := by
  obtain ⟨q, hq, hqsplit, hqfeed, hqcells⟩ := o.splitDone.player
  have hsame : o.split.cellsOf o.index = q.cells := by simp [Game.cellsOf, hq]
  have hcommands : o.after = o.split.feedCommand o.index o.player := rfl
  by_cases hfeed : o.player.doFeed = true
  · have hlower := Game.cellsOf_modifyPlayer o.split o.index
      (fun p => { p with doFeed := false }) (fun _ => rfl) o.index
    generalize hg : o.split.modifyPlayer o.index (fun p => { p with doFeed := false }) = g at hlower
    have hheap : g.heap = o.split.heap := by rw [← hg]; rfl
    have hallocated : g.allocated = o.split.allocated := by rw [← hg]; rfl
    have hdynamic : g.dynamicMap = o.split.dynamicMap := by rw [← hg]; rfl
    have hplayers : g.players = o.split.players.modify o.index fun p => { p with doFeed := false } := by
      rw [← hg]
      rfl
    have hafter : o.after = (o.split.cellsOf o.index).foldl Game.feedCell g := by
      rw [hcommands]
      unfold Game.feedCommand Game.feedCells
      rw [if_pos hfeed, hg, hlower]
    have hejectors : g.ejecting (o.split.cellsOf o.index) = o.ejectors := by
      unfold Game.ejecting ejectors
      rw [if_pos hfeed]
      refine List.filter_congr fun c _ => decide_eq_decide.mpr ?_
      unfold Game.Ejects
      rw [hheap]
    have hdone := Game.feedCells_spat (g := g) o.cellsOf_split_nodup fun c hc => by
      rw [hallocated]
      exact o.cellsOf_split_lt c hc
    rw [← hafter] at hdone
    constructor
    · refine ⟨{ q with doFeed := false }, ?_, hqsplit, rfl, hsame.symm⟩
      rw [hdone.players, hplayers, List.getElem?_modify, hq]
      simp
    · rw [hdone.dynamic, hejectors, hallocated, hdynamic]
    · intro c hc
      rw [← hheap]
      exact hdone.lighter c (hejectors ▸ hc)
    · intro f hf
      exact hdone.food f (by rw [hejectors, hallocated]; exact hf)
    · intro c hc hcn
      rw [← hheap]
      exact hdone.rest c (hallocated ▸ hc) (hejectors ▸ hcn)
  · have hafter : o.after = o.split := by
      rw [hcommands]
      exact if_neg hfeed
    have hnone : o.ejectors = [] := if_neg hfeed
    constructor
    · rw [hafter]
      exact ⟨q, hq, hqsplit, hqfeed.trans (Bool.eq_false_iff.mpr hfeed), hsame.symm⟩
    · rw [hafter, hnone]
      exact (List.append_nil _).symm
    · intro c hc
      rw [hnone] at hc
      cases hc
    · intro f hf
      rw [hnone] at hf
      cases hf
    · exact fun c _ _ => by rw [hafter]

theorem ejectors_subset : o.ejectors ⊆ o.split.cellsOf o.index := by
  intro c hc
  unfold ejectors at hc
  split_ifs at hc
  · exact List.mem_of_mem_filter hc
  · cases hc

theorem cellsOf_after : o.after.cellsOf o.index = o.split.cellsOf o.index := by
  obtain ⟨q, hq, -, -, hcells⟩ := o.feedDone.player
  rw [← hcells]
  simp [Game.cellsOf, hq]

theorem others_same {d : CellPtr} (hd : d ∈ o.game.dynamicMap) :
    o.after.heap d = o.game.heap d := by
  have hlt := o.allocated d (List.mem_append_right _ hd)
  have hown : d ∉ o.player.cells := fun h => o.apart d h hd
  rw [o.feedDone.rest d ?_ fun h => ?_, o.splitDone.rest d hlt fun h => hown (o.splitters_subset h)]
  · rw [o.splitDone.allocated]
    exact Nat.lt_add_right _ hlt
  · have hmem := o.ejectors_subset h
    rw [o.cellsOf_split] at hmem
    rcases List.mem_append.mp hmem with hmem | hmem
    · exact hown hmem
    · exact absurd (List.mem_range'_1.mp hmem).1 (not_le.mpr hlt)

theorem mass_after :
    o.after.mass o.index = o.game.mass o.index - feedSize * o.ejectors.length := by
  rw [← o.splitDone.mass]
  unfold Game.mass
  rw [o.cellsOf_after]
  by_cases hfeed : o.player.doFeed = true
  · have hejectors : o.ejectors =
        (o.split.cellsOf o.index).filter fun c => decide (o.split.Ejects c) := if_pos hfeed
    rw [hejectors]
    refine Handover.sum_spent (fun c => decide (o.split.Ejects c)) (fun c hc he => ?_)
      fun c hc he => ?_
    · exact o.feedDone.lighter c (hejectors ▸ List.mem_filter.mpr ⟨hc, he⟩)
    · rw [o.feedDone.rest c (o.cellsOf_split_lt c hc) fun h => ?_]
      rw [hejectors] at h
      rw [(List.mem_filter.mp h).2] at he
      cases he
  · have hnone : o.ejectors = [] := if_neg hfeed
    have hsame : ∀ c ∈ o.split.cellsOf o.index, (o.after.heap c).size = (o.split.heap c).size :=
      fun c hc => by
        rw [o.feedDone.rest c (o.cellsOf_split_lt c hc) (by rw [hnone]; exact List.not_mem_nil)]
    rw [hnone, List.map_congr_left hsame]
    simp

theorem loose_after :
    o.after.loose = o.game.loose + feedSize * feedMult * o.ejectors.length := by
  have hfood : (List.range' o.split.allocated o.ejectors.length).map
      (fun f => (o.after.heap f).size) = List.replicate o.ejectors.length (feedSize * feedMult) := by
    refine List.eq_replicate_iff.mpr ⟨by simp, fun s hs => ?_⟩
    obtain ⟨f, hf, rfl⟩ := List.mem_map.mp hs
    exact (o.feedDone.food f hf).1
  have hold : o.game.dynamicMap.map (fun d => (o.after.heap d).size) =
      o.game.dynamicMap.map fun d => (o.game.heap d).size :=
    List.map_congr_left fun d hd => by rw [o.others_same hd]
  unfold Game.loose
  rw [o.feedDone.dynamic, o.splitDone.dynamic, List.map_append, List.sum_append, hfood, hold,
    List.sum_replicate, nsmul_eq_mul, mul_comm]

/-- The two commands split and feed the cells they should, and no mass is lost but what the food
lacks. -/
theorem accounts : o.Accounts where
  cells := o.cellsOf_split
  halves := o.splitDone.halves
  whole := fun c hc hn => o.splitDone.rest c (o.allocated c (List.mem_append_left _ hc)) hn
  kept := o.cellsOf_after
  lighter := by
    intro c hc
    have hsize := o.feedDone.lighter c hc
    refine ⟨hsize, ?_⟩
    rw [hsize]
    unfold ejectors at hc
    split_ifs at hc
    · exact of_decide_eq_true (List.mem_filter.mp hc).2
    · cases hc
  untouched := fun c hc hn => o.feedDone.rest c (o.cellsOf_split_lt c hc) hn
  dynamic := by rw [o.feedDone.dynamic, o.splitDone.dynamic]
  food := o.feedDone.food
  others := fun d hd => o.others_same hd
  mass := by
    rw [o.mass_after, o.loose_after]
    ring
  done := by
    obtain ⟨p, hp, hsplit, hfeed, -⟩ := o.feedDone.player
    intro q hq
    rw [hp] at hq
    obtain rfl := Option.some.inj hq
    exact ⟨hsplit, hfeed⟩

end Ordered

/-- A player that has asked for both commands, with four cells of which the first one is big. -/
noncomputable def bothCommands : Ordered where
  game := { fourCells ℝ with
    heap := fun p => { readyCell ℝ p with radius := if p = 0 then 1000 else playerMinRadius }
    players := [{ fourfold ℝ with doSplit := true, doFeed := true }] }
  index := 0
  player := { fourfold ℝ with doSplit := true, doFeed := true }
  present := rfl
  few := by
    show 4 ≤ 16
    decide
  solid := fun c _ => by
    dsimp only
    split_ifs <;> norm_num [playerMinRadius]
  distinct := fourCells_distinct
  allocated := by
    show ∀ c ∈ ([0, 1, 2, 3] : List ℕ) ++ [], c < 4
    decide
  apart := fun c _ => List.not_mem_nil

theorem bothCommands_splitters : bothCommands.splitters = [0] := by
  have hfirst : bothCommands.game.Splits 0 := show (42 : ℝ) < 1000 by norm_num
  have hrest : ∀ c : CellPtr, c ≠ 0 → ¬ bothCommands.game.Splits c := fun c hc => by
    have hradius : (bothCommands.game.heap c).radius = 42 := if_neg hc
    show ¬ 42 < (bothCommands.game.heap c).radius
    rw [hradius]
    exact lt_irrefl _
  show ([0, 1, 2, 3].filter fun c => decide (bothCommands.game.Splits c)).take 12 = [0]
  simp [hfirst, hrest]

theorem both_commands_accounted : bothCommands.splitters = [0] ∧ bothCommands.Accounts :=
  ⟨bothCommands_splitters, bothCommands.accounts⟩

end Agar
