import Agar.Lasting
import Agar.Merging
import Agar.Lib.Handover

/-! The passes `CollideStatic` and `CollideOtherPlayer` one round at a time: which pairs of cells they
compare, and where the mass of a cell goes that they remove. -/

namespace Agar

namespace Game

/-- The loops of `CollideStatic` over all blocks, for one cell. -/
def collideGrid {K : Type} [Field K] [LinearOrder K] [Arith K] (g : Game K) (cell : CellPtr) :
    Game K := blockGrid.foldl (fun g b => g.collideBlock cell b 0) g

end Game

/-- Where `CollideStatic` stands: the cells and the blocks it has still to go through, from the
current ones on, and the index in the block. -/
structure StaticPoint (K : Type) where
  game : Game K
  cells : List CellPtr
  blocks : List Vec2i
  loop : ℕ

namespace StaticPoint

section Next
variable {K : Type} [Field K] [LinearOrder K] [Arith K]

/-- The next round, none at the end of the loop over the cells. -/
def next (pt : StaticPoint K) : Option (StaticPoint K) :=
  match pt.cells with
  | [] => none
  | cell :: cells =>
    match pt.blocks with
    | [] => some ⟨pt.game, cells, Game.blockGrid, 0⟩
    | b :: blocks =>
      match (pt.game.staticMap b)[pt.loop]? with
      | none => some ⟨pt.game, cell :: cells, blocks, 0⟩
      | some staticCell =>
        let g' := pt.game.noteCollide cell staticCell
        if (pt.game.heap cell).collide (pt.game.heap staticCell) = .bigger then
          some ⟨g'.eatStatic cell staticCell b pt.loop, cell :: cells, b :: blocks, pt.loop⟩
        else some ⟨g', cell :: cells, b :: blocks, pt.loop + 1⟩

end Next

/-- From one point to another in some rounds. -/
abbrev Leads : StaticPoint ℝ → StaticPoint ℝ → Prop :=
  Relation.ReflTransGen fun a b => a.next = some b

theorem block_leads (g : Game ℝ) (cell : CellPtr) (cells : List CellPtr) (b : Vec2i)
    (blocks : List Vec2i) (loop : ℕ) :
    Leads ⟨g, cell :: cells, b :: blocks, loop⟩ ⟨g.collideBlock cell b loop, cell :: cells, blocks, 0⟩ := by
  fun_induction Game.collideBlock g cell b loop with
  | case1 g loop hnone => exact .single (by simp only [next, hnone])
  | case2 g loop s hs hbig ih => exact .head (by simp only [next, hs, if_pos hbig]) ih
  | case3 g loop s hs hbig ih => exact .head (by simp only [next, hs, if_neg hbig]) ih

theorem blocks_leads (g : Game ℝ) (cell : CellPtr) (cells : List CellPtr) (blocks : List Vec2i) :
    Leads ⟨g, cell :: cells, blocks, 0⟩
      ⟨blocks.foldl (fun g b => g.collideBlock cell b 0) g, cells, Game.blockGrid, 0⟩ := by
  induction blocks generalizing g with
  | nil => exact .single rfl
  | cons b blocks ih => exact (block_leads g cell cells b blocks 0).trans (ih _)

theorem cells_leads (g : Game ℝ) (cells : List CellPtr) :
    Leads ⟨g, cells, Game.blockGrid, 0⟩
      ⟨cells.foldl Game.collideGrid g, [], Game.blockGrid, 0⟩ := by
  induction cells generalizing g with
  | nil => exact .refl
  | cons cell cells ih =>
    have hfirst : Leads ⟨g, cell :: cells, Game.blockGrid, 0⟩
        ⟨g.collideGrid cell, cells, Game.blockGrid, 0⟩ :=
      blocks_leads g cell cells Game.blockGrid
    rw [List.foldl_cons]
    exact hfirst.trans (ih (g.collideGrid cell))

theorem pass_leads (g : Game ℝ) (i : ℕ) : Leads ⟨g, g.cellsOf i, Game.blockGrid, 0⟩
    ⟨g.collideStatic i, [], Game.blockGrid, 0⟩ := cells_leads g (g.cellsOf i)

end StaticPoint

/-- Where the loop over `CollideOtherPlayer` stands: player `i` against player `x`, at the head of
the loop over the cells of `i` or over those of `x`. -/
inductive OtherPoint (K : Type)
  | outer (g : Game K) (i x myLoop : ℕ)
  | inner (g : Game K) (i x : ℕ) (cell : CellPtr) (myLoop loop : ℕ)

namespace OtherPoint

def game {K : Type} : OtherPoint K → Game K
  | .outer g _ _ _ => g
  | .inner g _ _ _ _ _ => g

section Next
variable {K : Type} [Field K] [LinearOrder K] [Arith K]

/-- The next round, none at the end of the loop over the players. -/
def next : OtherPoint K → Option (OtherPoint K)
  | .outer g i x myLoop =>
    if x < g.players.length then
      match (g.cellsOf i)[myLoop]? with
      | none => some (.outer g i (x + 1) 0)
      | some cell => some (.inner g i x cell myLoop 0)
    else if i + 1 < g.players.length then some (.outer g (i + 1) (i + 2) 0)
    else none
  | .inner g i x cell myLoop loop =>
    match (g.cellsOf x)[loop]? with
    | none => some (.outer g i x (myLoop + 1))
    | some otherCell =>
      let result := (g.heap cell).collide (g.heap otherCell)
      let g' := g.noteCollide cell otherCell
      if result = .bigger then
        some (.inner (g'.eatOther x cell otherCell loop) i x cell myLoop loop)
      else if result = .smaller then
        some (.outer (g'.absorbOther i cell otherCell myLoop) i x myLoop)
      else some (.inner g' i x cell myLoop (loop + 1))

end Next

/-- From one point to another in some rounds. -/
abbrev Leads : OtherPoint ℝ → OtherPoint ℝ → Prop :=
  Relation.ReflTransGen fun a b => a.next = some b

theorem inner_leads (g : Game ℝ) (i x : ℕ) (cell : CellPtr) (myLoop loop : ℕ) :
    Leads (.inner g i x cell myLoop loop) (.outer (g.collideOtherWith i x cell myLoop loop).1 i x
      (if (g.collideOtherWith i x cell myLoop loop).2 then myLoop else myLoop + 1)) := by
  fun_induction Game.collideOtherWith g i x cell myLoop loop with
  | case1 g loop hnone => exact .single (by simp [next, hnone])
  | case2 g loop o ho result g' hbig ih =>
    exact .head (by simp only [next, ho, if_pos hbig, g', result]) ih
  | case3 g loop o ho result g' hbig hsmall =>
    exact .single (by simp only [next, ho, if_neg hbig, if_pos hsmall, g', result, if_true])
  | case4 g loop o ho result g' hbig hsmall ih =>
    exact .head (by simp only [next, ho, if_neg hbig, if_neg hsmall, g', result]) ih

end OtherPoint

namespace Game

theorem eraseCell_length (g : Game ℝ) (i loop : ℕ) :
    (g.eraseCell i loop).players.length = g.players.length := List.length_modify _ _ _

theorem collideOtherWith_length (g : Game ℝ) (i x : ℕ) (cell : CellPtr) (myLoop loop : ℕ) :
    (g.collideOtherWith i x cell myLoop loop).1.players.length = g.players.length := by
  fun_induction collideOtherWith g i x cell myLoop loop with
  | case1 g loop hnone => rfl
  | case2 g loop o ho result g' hbig ih => exact ih.trans (eraseCell_length _ x loop)
  | case3 g loop o ho result g' hbig hsmall => exact eraseCell_length _ i myLoop
  | case4 g loop o ho result g' hbig hsmall ih => exact ih

theorem collideOtherFrom_length (g : Game ℝ) (i x myLoop : ℕ) :
    (g.collideOtherFrom i x myLoop).players.length = g.players.length := by
  fun_induction collideOtherFrom g i x myLoop with
  | case1 g myLoop hnone => rfl
  | case2 g myLoop cell hc hback ih => exact ih.trans (collideOtherWith_length g i x cell myLoop 0)
  | case3 g myLoop cell hc hback ih => exact ih.trans (collideOtherWith_length g i x cell myLoop 0)

theorem collideOthers_length (g : Game ℝ) (i : ℕ) (xs : List ℕ) :
    (xs.foldl (fun g x => g.collideOtherFrom i x 0) g).players.length = g.players.length := by
  induction xs generalizing g with
  | nil => rfl
  | cons x xs ih => exact (ih _).trans (collideOtherFrom_length g i x 0)

/-- The second loop of the collision phase. -/
def othersPass {K : Type} [Field K] [LinearOrder K] [Arith K] (g : Game K) : Game K :=
  (List.range g.players.length).foldl (fun g i => g.collideOtherPlayer i (i + 1)) g

end Game

namespace OtherPoint

theorem outer_leads (g : Game ℝ) (i x myLoop : ℕ) (hx : x < g.players.length) :
    Leads (.outer g i x myLoop) (.outer (g.collideOtherFrom i x myLoop) i (x + 1) 0) := by
  fun_induction Game.collideOtherFrom g i x myLoop with
  | case1 g myLoop hnone => exact .single (by simp only [next, hnone, if_pos hx])
  | case2 g myLoop cell hcell hback ih =>
    have hinner := inner_leads g i x cell myLoop 0
    rw [if_pos hback] at hinner
    have hrest := ih (by rw [Game.collideOtherWith_length]; exact hx)
    exact .head (by simp only [next, hcell, if_pos hx]) (hinner.trans hrest)
  | case3 g myLoop cell hcell hback ih =>
    have hinner := inner_leads g i x cell myLoop 0
    rw [if_neg hback] at hinner
    have hrest := ih (by rw [Game.collideOtherWith_length]; exact hx)
    exact .head (by simp only [next, hcell, if_pos hx]) (hinner.trans hrest)

theorem player_leads (g : Game ℝ) (i x : ℕ) (hx : x ≤ g.players.length) :
    Leads (.outer g i x 0) (.outer (g.collideOtherPlayer i x) i g.players.length 0) := by
  unfold Game.collideOtherPlayer
  obtain ⟨k, hk⟩ := Nat.exists_eq_add_of_le hx
  rw [hk, Nat.add_sub_cancel_left]
  induction k generalizing g x with
  | zero => exact .refl
  | succ k ih =>
    have hlt : x < g.players.length := by omega
    have hlen := Game.collideOtherFrom_length g i x 0
    have hrest := ih (g.collideOtherFrom i x 0) (x + 1) (by omega) (by omega)
    rw [List.range'_succ, List.foldl_cons]
    refine (outer_leads g i x 0 hlt).trans ?_
    rwa [show x + (k + 1) = x + 1 + k by omega]

theorem players_leads (g : Game ℝ) (i k : ℕ) (hk : i + k + 1 = g.players.length) :
    ∃ j, Leads (.outer g i (i + 1) 0) (.outer ((List.range' i (k + 1)).foldl
        (fun g i => g.collideOtherPlayer i (i + 1)) g) j g.players.length 0) ∧
      j + 1 = g.players.length := by
  have hlen : (g.collideOtherPlayer i (i + 1)).players.length = g.players.length :=
    Game.collideOthers_length g i _
  have hfirst := player_leads g i (i + 1) (by omega)
  induction k generalizing g i with
  | zero => exact ⟨i, hfirst, by omega⟩
  | succ k ih =>
    obtain ⟨j, hrest, hj⟩ := ih (g.collideOtherPlayer i (i + 1)) (i + 1) (by omega)
      (Game.collideOthers_length _ _ _) (player_leads _ _ _ (by omega))
    rw [hlen] at hrest hj
    have hturn : (outer (g.collideOtherPlayer i (i + 1)) i g.players.length 0).next =
        some (.outer (g.collideOtherPlayer i (i + 1)) (i + 1) (i + 1 + 1) 0) := by
      simp only [next, hlen, lt_irrefl, if_false]
      rw [if_pos (by omega)]
    refine ⟨j, hfirst.trans (.head hturn ?_), hj⟩
    rwa [List.range'_succ, List.foldl_cons]

theorem pass_leads (g : Game ℝ) : ∃ i x,
    Leads (.outer g 0 1 0) (.outer g.othersPass i x 0) ∧
      (outer g.othersPass i x 0).next = none := by
  unfold Game.othersPass
  rcases hn : g.players.length with - | k
  · exact ⟨0, 1, .refl, by simp [next, hn]⟩
  · obtain ⟨j, hleads, hj⟩ := players_leads g 0 k (by omega)
    have hlen : ∀ (is : List ℕ) (g : Game ℝ), (is.foldl (fun g i =>
        g.collideOtherPlayer i (i + 1)) g).players.length = g.players.length := by
      intro is
      induction is with
      | nil => exact fun g => rfl
      | cons i is ih => exact fun g => (ih _).trans (Game.collideOthers_length g i _)
    rw [List.range_eq_range']
    refine ⟨j, g.players.length, hleads, ?_⟩
    simp only [next, hlen, lt_irrefl, if_false]
    rw [if_neg (by omega)]

end OtherPoint

namespace Game

/-- The mass of all cells in the blocks, in the players' vectors and in `DynamicMap`. -/
def storedMass {K : Type} [Field K] (g : Game K) : K := (g.stored.map fun p => (g.heap p).size).sum

/-- What a round makes of the cells: all of them stay, or a cell of a player takes the full size of
another cell, which leaves. -/
inductive Handed (g g' : Game ℝ) : Prop
  | stay (hstatic : g'.staticMap = g.staticMap) (hdynamic : g'.dynamicMap = g.dynamicMap)
      (hplayers : g'.players = g.players) (hsize : ∀ p, (g'.heap p).size = (g.heap p).size)
  | eaten (eater meal : CellPtr) (heater : ∃ j, eater ∈ g.cellsOf j ∧ eater ∈ g'.cellsOf j)
      (hstored : g.stored.Perm (meal :: g'.stored))
      (hgrown : (g'.heap eater).size = (g.heap eater).size + (g.heap meal).size)
      (hothers : ∀ p, p ≠ eater → (g'.heap p).size = (g.heap p).size)

theorem playerCells_eq (g : Game ℝ) :
    g.players.flatMap Player.cells = (List.range g.players.length).flatMap g.cellsOf := by
  have hcells : (List.range g.players.length).map g.cellsOf = g.players.map Player.cells := by
    apply List.ext_getElem?
    intro n
    rw [List.getElem?_map, List.getElem?_map]
    by_cases hn : n < g.players.length
    · rw [List.getElem?_range hn, List.getElem?_eq_getElem hn]
      simp [cellsOf, List.getElem?_eq_getElem hn]
    · rw [List.getElem?_eq_none (by simpa using hn), List.getElem?_eq_none (not_lt.mp hn)]
      rfl
  rw [List.flatMap_def, List.flatMap_def, hcells]

theorem cellsOf_stored {g : Game ℝ} {j : ℕ} {p : CellPtr} (h : p ∈ g.cellsOf j) :
    p ∈ g.stored :=
  List.mem_append_right _ (List.mem_append_left _ (mem_playerCells.mpr ⟨j, h⟩))

theorem eraseIdx_perm {l : List CellPtr} {loop : ℕ} {p : CellPtr} (h : l[loop]? = some p) :
    l.Perm (p :: l.eraseIdx loop) := by
  obtain ⟨hlt, rfl⟩ := List.getElem?_eq_some_iff.mp h
  exact (List.getElem_cons_eraseIdx_perm hlt).symm

theorem eraseCell_stored {g g' : Game ℝ} {i loop : ℕ} {p : CellPtr}
    (h : (g.cellsOf i)[loop]? = some p) (hstatic : g'.staticMap = g.staticMap)
    (hdynamic : g'.dynamicMap = g.dynamicMap) (hplayers : g'.players = (g.eraseCell i loop).players) :
    g.stored.Perm (p :: g'.stored) := by
  have hi := lt_of_cellsOf h
  have hcells : ∀ j, g'.cellsOf j = if j = i then (g.cellsOf i).eraseIdx loop else g.cellsOf j := by
    intro j
    rw [cellsOf_congr hplayers]
    split_ifs with hj
    · rw [hj]
      exact cellsOf_setCells_self _ _ _ hi
    · exact cellsOf_setCells_ne _ _ (Ne.symm hj)
  have hplayer : (g.players.flatMap Player.cells).Perm (p :: g'.players.flatMap Player.cells) := by
    rw [playerCells_eq, playerCells_eq, hplayers, eraseCell_length]
    refine Handover.flatMap_perm_cons List.nodup_range (List.mem_range.mpr hi) ?_ fun j _ hj => ?_
    · rw [hcells, if_pos rfl]
      exact eraseIdx_perm h
    · rw [hcells, if_neg hj]
  unfold stored
  rw [hstatic, hdynamic]
  refine ((hplayer.append_right _).append_left _).trans ?_
  exact List.perm_middle

theorem removeStaticAt_stored {g g' : Game ℝ} {b : Vec2i} {loop : ℕ} {p : CellPtr}
    (hb : b ∈ blockGrid) (h : (g.staticMap b)[loop]? = some p)
    (hstatic : g'.staticMap = (g.removeStaticAt b loop).staticMap)
    (hdynamic : g'.dynamicMap = g.dynamicMap) (hplayers : g'.players = g.players) :
    g.stored.Perm (p :: g'.stored) := by
  have hblocks : (blockGrid.flatMap g.staticMap).Perm (p :: blockGrid.flatMap g'.staticMap) := by
    refine Handover.flatMap_perm_cons blockGrid_nodup hb ?_ fun b' _ hb' => ?_
    · rw [hstatic, removeStaticAt]
      dsimp only
      rw [if_pos rfl]
      exact eraseIdx_perm h
    · rw [hstatic, removeStaticAt]
      exact if_neg hb'
  unfold stored
  rw [hdynamic, hplayers]
  exact hblocks.append_right _

variable {g g' : Game ℝ}

theorem Handed.nodup (h : Handed g g') (hnodup : g.stored.Nodup) : g'.stored.Nodup := by
  cases h with
  | stay hstatic hdynamic hplayers hsize =>
    unfold stored at hnodup ⊢
    rwa [hstatic, hdynamic, hplayers]
  | eaten eater meal heater hstored hgrown hothers =>
    exact (List.nodup_cons.mp (hstored.nodup_iff.mp hnodup)).2

theorem Handed.mass (h : Handed g g') (hnodup : g.stored.Nodup) :
    g'.storedMass = g.storedMass := by
  unfold storedMass
  cases h with
  | stay hstatic hdynamic hplayers hsize =>
    unfold stored
    rw [hstatic, hdynamic, hplayers]
    exact congrArg List.sum (List.map_congr_left fun p _ => hsize p)
  | eaten eater meal heater hstored hgrown hothers =>
    obtain ⟨j, -, hafter⟩ := heater
    exact Handover.sum_eq hnodup hstored (cellsOf_stored hafter) hgrown fun p _ hp => hothers p hp

theorem cells_nodup (h : g.stored.Nodup) (i : ℕ) : (g.cellsOf i).Nodup := by
  have hplayers := (List.nodup_append.mp (List.nodup_append.mp h).2.1).1
  rw [playerCells_eq] at hplayers
  by_cases hi : i < g.players.length
  · exact (List.nodup_flatMap.mp hplayers).1 i (List.mem_range.mpr hi)
  · have hnone : g.players[i]? = none := List.getElem?_eq_none (not_lt.mp hi)
    simp [cellsOf, hnone]

theorem cells_disjoint (h : g.stored.Nodup) {i j : ℕ} (hij : i ≠ j) {p : CellPtr}
    (hi : p ∈ g.cellsOf i) : p ∉ g.cellsOf j := by
  intro hj
  have hplayers := (List.nodup_append.mp (List.nodup_append.mp h).2.1).1
  rw [playerCells_eq] at hplayers
  obtain ⟨m, hm⟩ := List.mem_iff_getElem?.mp hi
  obtain ⟨n, hn⟩ := List.mem_iff_getElem?.mp hj
  have hpair := List.pairwise_iff_getElem.mp (List.nodup_flatMap.mp hplayers).2
  have hbefore : ∀ {i j : ℕ}, i < g.players.length → j < g.players.length → i < j →
      (g.cellsOf i).Disjoint (g.cellsOf j) := fun hi hj hlt => by
    have hdisjoint := hpair _ _ (by simpa using hi) (by simpa using hj) hlt
    simpa using hdisjoint
  rcases Nat.lt_or_gt_of_ne hij with hlt | hlt
  · exact hbefore (lt_of_cellsOf hm) (lt_of_cellsOf hn) hlt hi hj
  · exact hbefore (lt_of_cellsOf hn) (lt_of_cellsOf hm) hlt hj hi

end Game

/-- The two cells of a call of `Collide`. -/
def Call.pair {K : Type} : Call K → Option (CellPtr × CellPtr)
  | .collide a b _ _ _ => some (a, b)
  | _ => none

/-- The pairs that have been compared since, in order. -/
def Compared {K : Type} (g g' : Game K) (pairs : List (CellPtr × CellPtr)) : Prop :=
  ∃ cs, g'.calls = g.calls ++ cs ∧ cs.filterMap Call.pair = pairs

section Compared
variable {g g' g'' : Game ℝ} {pairs pairs' : List (CellPtr × CellPtr)}

theorem Compared.of_eq (h : g'.calls = g.calls) : Compared g g' [] :=
  ⟨[], by rw [h, List.append_nil], rfl⟩

theorem Compared.trans (h : Compared g g' pairs) (h' : Compared g' g'' pairs') :
    Compared g g'' (pairs ++ pairs') := by
  obtain ⟨cs, hcalls, rfl⟩ := h
  obtain ⟨cs', hcalls', rfl⟩ := h'
  exact ⟨cs ++ cs', by rw [hcalls', hcalls, List.append_assoc], List.filterMap_append⟩

theorem compared_noteCollide (g : Game ℝ) (a b : CellPtr) :
    Compared g (g.noteCollide a b) [(a, b)] := ⟨[_], rfl, rfl⟩

theorem compared_grow {p : CellPtr} {s : ℝ} (a b : CellPtr)
    (h : g'.calls = ((g.noteCollide a b).addSize p s).calls) : Compared g g' [(a, b)] :=
  ⟨[_, _], h.trans (List.append_assoc g.calls [_] [_]), rfl⟩

end Compared

/-- A server in which no cell is stored twice. -/
structure Board where
  game : Game ℝ
  distinct : game.stored.Nodup

namespace StaticPoint

/-- The next round calls `Collide` on the two cells. -/
def Compares (pt : StaticPoint ℝ) (cell staticCell : CellPtr) : Prop :=
  ∃ cells b blocks, pt.cells = cell :: cells ∧ pt.blocks = b :: blocks ∧
    (pt.game.staticMap b)[pt.loop]? = some staticCell

/-- What holds at every point of a pass over the cells of player `i`. -/
structure Steady (before : Game ℝ) (i : ℕ) (pt : StaticPoint ℝ) : Prop where
  distinct : pt.game.stored.Nodup
  mass : pt.game.storedMass = before.storedMass
  own : pt.game.cellsOf i = before.cellsOf i
  cells : pt.cells ⊆ before.cellsOf i
  blocks : pt.blocks ⊆ Game.blockGrid

theorem Steady.handed {before : Game ℝ} {i : ℕ} {pt pt' : StaticPoint ℝ} (h : Steady before i pt)
    (hn : pt.next = some pt') : Game.Handed pt.game pt'.game ∧ pt'.game.players = pt.game.players ∧
      pt'.cells ⊆ pt.cells ∧ (pt'.blocks ⊆ pt.blocks ∨ pt'.blocks = Game.blockGrid) := by
  obtain ⟨g, cells, blocks, loop⟩ := pt
  rcases cells with - | ⟨cell, cells⟩
  · cases hn
  rcases blocks with - | ⟨b, blocks⟩
  · obtain rfl := Option.some.inj hn
    exact ⟨.stay rfl rfl rfl fun _ => rfl, rfl, List.subset_cons_self _ _, Or.inr rfl⟩
  rcases hs : (g.staticMap b)[loop]? with - | s
  · simp only [next, hs, Option.some.injEq] at hn
    subst hn
    exact ⟨.stay rfl rfl rfl fun _ => rfl, rfl, List.Subset.refl _,
      Or.inl (List.subset_cons_self _ _)⟩
  simp only [next, hs] at hn
  have howner : cell ∈ g.cellsOf i := by
    have hown : g.cellsOf i = before.cellsOf i := h.own
    rw [hown]
    exact h.cells List.mem_cons_self
  split_ifs at hn with hbig
  · obtain rfl := Option.some.inj hn
    refine ⟨.eaten cell s ⟨i, howner, howner⟩ ?_ ?_ fun p hp => ?_, rfl, List.Subset.refl _,
      Or.inl (List.Subset.refl _)⟩
    · exact Game.removeStaticAt_stored (h.blocks List.mem_cons_self) hs rfl rfl rfl
    · have hsize := Game.addSize_sizes (g.noteCollide cell s) cell (Cell.size_nonneg (g.heap s)) cell
      rw [if_pos rfl] at hsize
      exact hsize
    · have hsize := Game.addSize_sizes (g.noteCollide cell s) cell (Cell.size_nonneg (g.heap s)) p
      rw [if_neg hp, add_zero] at hsize
      exact hsize
  · obtain rfl := Option.some.inj hn
    exact ⟨.stay rfl rfl rfl fun _ => rfl, rfl, List.Subset.refl _, Or.inl (List.Subset.refl _)⟩

theorem Steady.next {before : Game ℝ} {i : ℕ} {pt pt' : StaticPoint ℝ} (h : Steady before i pt)
    (hn : pt.next = some pt') : Steady before i pt' := by
  obtain ⟨hhanded, hplayers, hcells, hblocks⟩ := h.handed hn
  refine ⟨hhanded.nodup h.distinct, (hhanded.mass h.distinct).trans h.mass,
    (Game.cellsOf_congr hplayers i).trans h.own, List.Subset.trans hcells h.cells, ?_⟩
  rcases hblocks with hsub | hgrid
  · exact List.Subset.trans hsub h.blocks
  · rw [hgrid]
    exact List.Subset.refl _

end StaticPoint

namespace Board

/-- The pass over the static cells comes to the point. -/
def VisitsStatic (b : Board) (i : ℕ) (pt : StaticPoint ℝ) : Prop :=
  StaticPoint.Leads ⟨b.game, b.game.cellsOf i, Game.blockGrid, 0⟩ pt

theorem VisitsStatic.steady {b : Board} {i : ℕ} {pt : StaticPoint ℝ} (h : b.VisitsStatic i pt) :
    StaticPoint.Steady b.game i pt := by
  induction h with
  | refl => exact ⟨b.distinct, rfl, rfl, List.Subset.refl _, List.Subset.refl _⟩
  | tail _ hn ih => exact ih.next hn

end Board

namespace Game
variable {g g' : Game ℝ}

/-- The static cells, block by block. -/
def statics {K : Type} (g : Game K) : List CellPtr := blockGrid.flatMap g.staticMap

theorem collideBlock_compared (g : Game ℝ) (cell : CellPtr) (b : Vec2i) (loop : ℕ) :
    Compared g (g.collideBlock cell b loop) (((g.staticMap b).drop loop).map (Prod.mk cell)) ∧
    ((g.collideBlock cell b loop).staticMap b).Sublist (g.staticMap b) ∧
    ∀ b', b' ≠ b → (g.collideBlock cell b loop).staticMap b' = g.staticMap b' := by
  fun_induction collideBlock g cell b loop with
  | case1 g loop hnone =>
    rw [List.drop_eq_nil_of_le (List.getElem?_eq_none_iff.mp hnone)]
    exact ⟨.of_eq rfl, List.Sublist.refl _, fun _ _ => rfl⟩
  | case2 g loop s hs hbig ih =>
    obtain ⟨hcompared, hsub, hothers⟩ := ih
    obtain ⟨hlt, hget⟩ := List.getElem?_eq_some_iff.mp hs
    have hblock : ((g.noteCollide cell s).eatStatic cell s b loop).staticMap b =
        (g.staticMap b).eraseIdx loop := eatStatic_block _ cell s b loop
    have hfirst : Compared g ((g.noteCollide cell s).eatStatic cell s b loop) [(cell, s)] :=
      compared_grow cell s rfl
    rw [hblock] at hcompared hsub
    -- behind the erased slot nothing has moved
    rw [List.eraseIdx_eq_take_drop_succ, List.drop_left' (List.length_take_of_le hlt.le)] at hcompared
    refine ⟨?_, hsub.trans (List.eraseIdx_sublist _ _), fun b' hb' =>
      (hothers b' hb').trans (if_neg hb')⟩
    rw [List.drop_eq_getElem_cons hlt, hget]
    exact hfirst.trans hcompared
  | case3 g loop s hs hbig ih =>
    obtain ⟨hcompared, hsub, hothers⟩ := ih
    obtain ⟨hlt, hget⟩ := List.getElem?_eq_some_iff.mp hs
    refine ⟨?_, hsub, hothers⟩
    rw [List.drop_eq_getElem_cons hlt, hget]
    exact (compared_noteCollide g cell s).trans hcompared

theorem collideBlocks_compared (cell : CellPtr) {blocks : List Vec2i} (hblocks : blocks.Nodup)
    (g : Game ℝ) :
    Compared g (blocks.foldl (fun g b => g.collideBlock cell b 0) g)
      ((blocks.flatMap g.staticMap).map (Prod.mk cell)) ∧
    ∀ b, ((blocks.foldl (fun g b => g.collideBlock cell b 0) g).staticMap b).Sublist
      (g.staticMap b) := by
  induction blocks generalizing g with
  | nil => exact ⟨.of_eq rfl, fun b => List.Sublist.refl _⟩
  | cons b blocks ih =>
    obtain ⟨hb, hblocks'⟩ := List.nodup_cons.mp hblocks
    obtain ⟨hfirst, hsub, hothers⟩ := collideBlock_compared g cell b 0
    obtain ⟨hrest, hsub'⟩ := ih hblocks' (g.collideBlock cell b 0)
    have hsame : blocks.flatMap (g.collideBlock cell b 0).staticMap = blocks.flatMap g.staticMap :=
      List.flatMap_congr fun b' hb' => hothers b' fun h => hb (h ▸ hb')
    refine ⟨?_, fun b' => (hsub' b').trans ?_⟩
    · rw [hsame] at hrest
      rw [List.flatMap_cons, List.map_append]
      exact hfirst.trans hrest
    · by_cases hbb : b' = b
      · rw [hbb]
        exact hsub
      · rw [hothers b' hbb]

theorem statics_nodup (h : g.stored.Nodup) : g.statics.Nodup := (List.nodup_append.mp h).1

theorem collideGrid_compared (g : Game ℝ) (cell : CellPtr) :
    Compared g (g.collideGrid cell) (g.statics.map (Prod.mk cell)) ∧
      (g.collideGrid cell).statics.Sublist g.statics := by
  have hflat : ∀ {f f' : Vec2i → List CellPtr} (l : List Vec2i), (∀ b, (f' b).Sublist (f b)) →
      (l.flatMap f').Sublist (l.flatMap f) := by
    intro f f' l h
    induction l with
    | nil => exact List.Sublist.refl _
    | cons b l ih =>
      rw [List.flatMap_cons, List.flatMap_cons]
      exact (h b).append ih
  obtain ⟨hcompared, hsub⟩ := collideBlocks_compared cell blockGrid_nodup g
  unfold collideGrid statics
  exact ⟨hcompared, hflat blockGrid hsub⟩

theorem collideGrids_compared {cells : List CellPtr} (hcells : cells.Nodup) {g : Game ℝ}
    (hstatics : g.statics.Nodup) :
    ∃ pairs, Compared g (cells.foldl collideGrid g) pairs ∧
      (cells.foldl collideGrid g).statics ⊆ g.statics ∧
      ∀ c, ∀ s ∈ (cells.foldl collideGrid g).statics,
        pairs.count (c, s) = if c ∈ cells then 1 else 0 := by
  induction cells generalizing g with
  | nil =>
    rw [List.foldl_nil]
    refine ⟨[], .of_eq rfl, List.Subset.refl g.statics, fun c s _ => ?_⟩
    rw [if_neg List.not_mem_nil, List.count_nil]
  | cons cell cells ih =>
    rw [List.foldl_cons]
    obtain ⟨hcell, hcells'⟩ := List.nodup_cons.mp hcells
    obtain ⟨hfirst, hsub⟩ := collideGrid_compared g cell
    obtain ⟨pairs, hrest, hleft, hcount⟩ := ih hcells' (hstatics.sublist hsub)
    refine ⟨_, hfirst.trans hrest, List.Subset.trans hleft hsub.subset, fun c s hs => ?_⟩
    have hmem : s ∈ g.statics := hsub.subset (hleft hs)
    have hone : (g.statics.map (Prod.mk cell)).count (c, s) = if c = cell then 1 else 0 := by
      split_ifs with hc
      · rw [hc]
        exact List.count_eq_one_of_mem (hstatics.map fun _ _ h => (Prod.mk.inj h).2)
          (List.mem_map_of_mem hmem)
      · refine List.count_eq_zero_of_not_mem fun h => hc ?_
        obtain ⟨_, -, heq⟩ := List.mem_map.mp h
        exact (Prod.mk.inj heq).1.symm
    rw [List.count_append, hcount c s hs, hone]
    by_cases hc : c = cell
    · subst hc
      simp [hcell]
    · simp [hc]

end Game

namespace OtherPoint

/-- The next round calls `Collide` on the two cells. -/
def Compares (pt : OtherPoint ℝ) (cell otherCell : CellPtr) : Prop :=
  ∃ g i x myLoop loop, pt = .inner g i x cell myLoop loop ∧ (g.cellsOf x)[loop]? = some otherCell

/-- The index of the players that fight, and what the slots hold that the round may erase. -/
def InRange : OtherPoint ℝ → Prop
  | .outer _ i x _ => i < x
  | .inner g i x cell myLoop _ =>
    i < x ∧ x < g.players.length ∧ (g.cellsOf i)[myLoop]? = some cell

/-- What holds at every point of the pass. -/
structure Steady (before : Game ℝ) (pt : OtherPoint ℝ) : Prop where
  distinct : pt.game.stored.Nodup
  mass : pt.game.storedMass = before.storedMass
  inRange : pt.InRange

theorem Steady.handed {before : Game ℝ} {pt pt' : OtherPoint ℝ} (h : Steady before pt)
    (hn : pt.next = some pt') : Game.Handed pt.game pt'.game ∧ pt'.InRange := by
  cases pt with
  | outer g i x myLoop =>
    have hix : i < x := h.inRange
    unfold OtherPoint.next at hn
    dsimp only at hn
    split_ifs at hn with hx hi
    · rcases hcell : (g.cellsOf i)[myLoop]? with - | cell
      · simp only [hcell, Option.some.injEq] at hn
        subst hn
        exact ⟨.stay rfl rfl rfl fun _ => rfl, hix.trans (Nat.lt_succ_self x)⟩
      · simp only [hcell, Option.some.injEq] at hn
        subst hn
        exact ⟨.stay rfl rfl rfl fun _ => rfl, hix, hx, hcell⟩
    · obtain rfl := Option.some.inj hn
      exact ⟨.stay rfl rfl rfl fun _ => rfl, Nat.lt_succ_self _⟩
  | inner g i x cell myLoop loop =>
    obtain ⟨hix, hx, hcell⟩ := h.inRange
    unfold OtherPoint.next at hn
    dsimp only at hn
    rcases ho : (g.cellsOf x)[loop]? with - | o
    · simp only [ho, Option.some.injEq] at hn
      subst hn
      exact ⟨.stay rfl rfl rfl fun _ => rfl, hix⟩
    simp only [ho] at hn
    have hmine : cell ∈ g.cellsOf i := List.mem_of_getElem? hcell
    have hother : o ∈ g.cellsOf x := List.mem_of_getElem? ho
    split_ifs at hn with hbig hsmall
    · obtain rfl := Option.some.inj hn
      have hsizes := Game.addSize_sizes (g.noteCollide cell o) cell (Cell.size_nonneg (g.heap o))
      have hown : ((g.noteCollide cell o).eatOther x cell o loop).cellsOf i = g.cellsOf i :=
        Game.cellsOf_setCells_ne _ _ hix.ne'
      have hlen : ((g.noteCollide cell o).eatOther x cell o loop).players.length =
          g.players.length := Game.eraseCell_length _ x loop
      refine ⟨.eaten cell o ⟨i, hmine, by rw [← hown] at hmine; exact hmine⟩
        (Game.eraseCell_stored ho rfl rfl rfl) ?_ fun p hp => ?_, hix, by rw [hlen]; exact hx, ?_⟩
      · have hsize := hsizes cell
        rw [if_pos rfl] at hsize
        exact hsize
      · have hsize := hsizes p
        rw [if_neg hp, add_zero] at hsize
        exact hsize
      · rw [hown]
        exact hcell
    · obtain rfl := Option.some.inj hn
      have hsizes := Game.addSize_sizes (g.noteCollide cell o) o (Cell.size_nonneg (g.heap cell))
      have hown : ((g.noteCollide cell o).absorbOther i cell o myLoop).cellsOf x = g.cellsOf x :=
        Game.cellsOf_setCells_ne _ _ hix.ne
      refine ⟨.eaten o cell ⟨x, hother, by rw [← hown] at hother; exact hother⟩
        (Game.eraseCell_stored hcell rfl rfl rfl) ?_ fun p hp => ?_, hix⟩
      · have hsize := hsizes o
        rw [if_pos rfl] at hsize
        exact hsize
      · have hsize := hsizes p
        rw [if_neg hp, add_zero] at hsize
        exact hsize
    · obtain rfl := Option.some.inj hn
      exact ⟨.stay rfl rfl rfl fun _ => rfl, hix, hx, hcell⟩

theorem Steady.next {before : Game ℝ} {pt pt' : OtherPoint ℝ} (h : Steady before pt)
    (hn : pt.next = some pt') : Steady before pt' := by
  obtain ⟨hhanded, hinRange⟩ := h.handed hn
  exact ⟨hhanded.nodup h.distinct, (hhanded.mass h.distinct).trans h.mass, hinRange⟩

end OtherPoint

namespace Board

/-- The pass over the other players comes to the point. -/
def VisitsOthers (b : Board) (pt : OtherPoint ℝ) : Prop :=
  OtherPoint.Leads (.outer b.game 0 1 0) pt

theorem VisitsOthers.steady {b : Board} {pt : OtherPoint ℝ} (h : b.VisitsOthers pt) :
    OtherPoint.Steady b.game pt := by
  induction h with
  | refl => exact ⟨b.distinct, rfl, Nat.zero_lt_one⟩
  | tail _ hn ih => exact ih.next hn

end Board

namespace Game
variable {g : Game ℝ} {i x : ℕ}

/-- One cell against the cells of player `x`, from an index on: it is compared with all of them, or
it is absorbed. -/
theorem collideOtherWith_compared (g : Game ℝ) (hix : i ≠ x) (cell : CellPtr) (myLoop loop : ℕ)
    (hi : i < g.players.length) :
    ∃ pairs, Compared g (g.collideOtherWith i x cell myLoop loop).1 pairs ∧
      (∀ a ∈ pairs, a.1 = cell ∧ a.2 ∈ g.cellsOf x) ∧
      ((g.collideOtherWith i x cell myLoop loop).2 = false →
        pairs = ((g.cellsOf x).drop loop).map (Prod.mk cell) ∧
        (g.collideOtherWith i x cell myLoop loop).1.cellsOf i = g.cellsOf i) ∧
      ((g.collideOtherWith i x cell myLoop loop).2 = true →
        (g.collideOtherWith i x cell myLoop loop).1.cellsOf i = (g.cellsOf i).eraseIdx myLoop) := by
  fun_induction collideOtherWith g i x cell myLoop loop with
  | case1 g loop hnone =>
    refine ⟨[], .of_eq rfl, by simp, fun _ => ⟨?_, rfl⟩, by simp⟩
    rw [List.drop_eq_nil_of_le (List.getElem?_eq_none_iff.mp hnone)]
    rfl
  | case2 g loop o ho result g' hbig ih =>
    obtain ⟨hlt, hget⟩ := List.getElem?_eq_some_iff.mp ho
    have hlen : (g'.eatOther x cell o loop).players.length = g.players.length :=
      eraseCell_length _ x loop
    have hx : (g'.eatOther x cell o loop).cellsOf x = (g.cellsOf x).eraseIdx loop :=
      cellsOf_setCells_self _ _ _ (lt_of_cellsOf ho)
    have hown : (g'.eatOther x cell o loop).cellsOf i = g.cellsOf i :=
      cellsOf_setCells_ne _ _ hix.symm
    have hfirst : Compared g (g'.eatOther x cell o loop) [(cell, o)] := compared_grow cell o rfl
    obtain ⟨pairs, hcompared, hmem, hfalse, htrue⟩ := ih (by rw [hlen]; exact hi)
    rw [hx] at hmem hfalse
    rw [hown] at hfalse htrue
    refine ⟨_, hfirst.trans hcompared, fun a ha => ?_, fun h => ?_, htrue⟩
    · rcases List.mem_cons.mp ha with rfl | ha
      · exact ⟨rfl, List.mem_of_getElem? ho⟩
      · exact ⟨(hmem a ha).1, (List.eraseIdx_sublist _ _).subset (hmem a ha).2⟩
    · obtain ⟨hpairs, hcells⟩ := hfalse h
      -- behind the erased slot nothing has moved
      rw [List.eraseIdx_eq_take_drop_succ, List.drop_left' (List.length_take_of_le hlt.le)] at hpairs
      refine ⟨?_, hcells⟩
      rw [List.drop_eq_getElem_cons hlt, hget, hpairs]
      rfl
  | case3 g loop o ho result g' hbig hsmall =>
    refine ⟨[(cell, o)], compared_grow cell o rfl, fun a ha => ?_, by simp, fun _ => ?_⟩
    · rw [List.mem_singleton.mp ha]
      exact ⟨rfl, List.mem_of_getElem? ho⟩
    · exact cellsOf_setCells_self _ _ _ hi
  | case4 g loop o ho result g' hbig hsmall ih =>
    obtain ⟨hlt, hget⟩ := List.getElem?_eq_some_iff.mp ho
    obtain ⟨pairs, hcompared, hmem, hfalse, htrue⟩ := ih hi
    refine ⟨_, (compared_noteCollide g cell o).trans hcompared, fun a ha => ?_, fun h => ?_, htrue⟩
    · rcases List.mem_cons.mp ha with rfl | ha
      · exact ⟨rfl, List.mem_of_getElem? ho⟩
      · exact hmem a ha
    · obtain ⟨hpairs, hcells⟩ := hfalse h
      refine ⟨?_, hcells⟩
      rw [List.drop_eq_getElem_cons hlt, hget, hpairs]
      rfl

/-- The cells of player `i`, from an index on, against those of player `x`: of the cells that are
left every pair has been compared once. -/
theorem collideOtherFrom_compared (g : Game ℝ) (hix : i ≠ x) (myLoop : ℕ)
    (hi : (g.cellsOf i).Nodup) (hx : (g.cellsOf x).Nodup) :
    ∃ pairs, Compared g (g.collideOtherFrom i x myLoop) pairs ∧
      (∀ a ∈ pairs, a.1 ∈ g.cellsOf i ∧ a.2 ∈ g.cellsOf x) ∧
      ∀ c ∈ (g.collideOtherFrom i x myLoop).cellsOf i,
        ∀ d ∈ (g.collideOtherFrom i x myLoop).cellsOf x,
          pairs.count (c, d) = if c ∈ (g.cellsOf i).drop myLoop then 1 else 0 := by
  fun_induction collideOtherFrom g i x myLoop with
  | case1 g myLoop hnone =>
    refine ⟨[], .of_eq rfl, by simp, fun c _ d _ => ?_⟩
    rw [List.drop_eq_nil_of_le (List.getElem?_eq_none_iff.mp hnone), if_neg List.not_mem_nil,
      List.count_nil]
  | case2 g myLoop cell hcell hback ih =>
    obtain ⟨hlt, hget⟩ := List.getElem?_eq_some_iff.mp hcell
    obtain ⟨first, hfirst, hmem, -, htrue⟩ :=
      collideOtherWith_compared g hix cell myLoop 0 (lt_of_cellsOf hcell)
    have hsub := (collideOtherWith_retains Cell.lasting_radius g i x cell myLoop 0).cells
    have hend := (collideOtherFrom_retains Cell.lasting_radius
      (g.collideOtherWith i x cell myLoop 0).1 i x myLoop).cells
    obtain ⟨pairs, hrest, hmem', hcount⟩ := ih (hi.sublist (hsub i)) (hx.sublist (hsub x))
    rw [htrue hback] at hcount
    rw [List.eraseIdx_eq_take_drop_succ, List.drop_left' (List.length_take_of_le hlt.le)] at hcount
    refine ⟨_, hfirst.trans hrest, fun a ha => ?_, fun c hc d hd => ?_⟩
    · rcases List.mem_append.mp ha with ha | ha
      · obtain ⟨h1, h2⟩ := hmem a ha
        exact ⟨h1 ▸ List.mem_of_getElem? hcell, h2⟩
      · exact ⟨(hsub i).subset (hmem' a ha).1, (hsub x).subset (hmem' a ha).2⟩
    · have hc' := (hend i).subset hc
      rw [htrue hback] at hc'
      have hne : c ≠ cell := ((mem_eraseIdx_of_nodup hi hcell c).mp hc').2
      have hnone : first.count (c, d) = 0 :=
        List.count_eq_zero_of_not_mem fun h => hne (hmem _ h).1
      rw [List.count_append, hnone, zero_add, hcount c hc d hd, List.drop_eq_getElem_cons hlt, hget]
      simp [hne]
  | case3 g myLoop cell hcell hback ih =>
    obtain ⟨hlt, hget⟩ := List.getElem?_eq_some_iff.mp hcell
    obtain ⟨first, hfirst, hmem, hfalse, -⟩ :=
      collideOtherWith_compared g hix cell myLoop 0 (lt_of_cellsOf hcell)
    have hsub := (collideOtherWith_retains Cell.lasting_radius g i x cell myLoop 0).cells
    have hend := (collideOtherFrom_retains Cell.lasting_radius
      (g.collideOtherWith i x cell myLoop 0).1 i x (myLoop + 1)).cells
    obtain ⟨hpairs, hown⟩ := hfalse (Bool.eq_false_iff.mpr hback)
    obtain ⟨pairs, hrest, hmem', hcount⟩ := ih (hi.sublist (hsub i)) (hx.sublist (hsub x))
    rw [hown] at hcount
    refine ⟨_, hfirst.trans hrest, fun a ha => ?_, fun c hc d hd => ?_⟩
    · rcases List.mem_append.mp ha with ha | ha
      · obtain ⟨h1, h2⟩ := hmem a ha
        exact ⟨h1 ▸ List.mem_of_getElem? hcell, h2⟩
      · exact ⟨(hsub i).subset (hmem' a ha).1, (hsub x).subset (hmem' a ha).2⟩
    · have hd' : d ∈ g.cellsOf x := (hsub x).subset ((hend x).subset hd)
      have hdrop : (g.cellsOf i).drop myLoop = cell :: (g.cellsOf i).drop (myLoop + 1) := by
        rw [List.drop_eq_getElem_cons hlt, hget]
      rw [List.count_append, hcount c hc d hd, hdrop]
      by_cases hc' : c = cell
      · have hlater : cell ∉ (g.cellsOf i).drop (myLoop + 1) := by
          have hnodup := hi.sublist (List.drop_sublist myLoop _)
          rw [hdrop] at hnodup
          exact (List.nodup_cons.mp hnodup).1
        have hone : first.count (cell, d) = 1 := by
          rw [hpairs, List.drop_zero]
          exact List.count_eq_one_of_mem (hx.map fun _ _ h => (Prod.mk.inj h).2)
            (List.mem_map_of_mem hd')
        rw [hc', hone, if_neg hlater, if_pos List.mem_cons_self]
      · have hnone : first.count (c, d) = 0 :=
          List.count_eq_zero_of_not_mem fun h => hc' (hmem _ h).1
        rw [hnone, zero_add]
        simp [hc']

/-- Of the cells of players that are left, those of the players named have been compared pair by
pair, each pair once, and no others. -/
structure Swept (named : ℕ → ℕ → Prop) (g g' : Game ℝ) : Prop where
  cells : ∀ j, (g'.cellsOf j).Sublist (g.cellsOf j)
  compared : ∃ pairs, Compared g g' pairs ∧ ∀ j k, ∀ c ∈ g'.cellsOf j, ∀ d ∈ g'.cellsOf k,
    (named j k → pairs.count (c, d) = 1) ∧ (¬ named j k → pairs.count (c, d) = 0)

/-- Every player's cells are distinct, and no two players share one. -/
structure Apart (g : Game ℝ) : Prop where
  nodup : ∀ j, (g.cellsOf j).Nodup
  disjoint : ∀ j k, j ≠ k → ∀ c ∈ g.cellsOf j, c ∉ g.cellsOf k

theorem Apart.swept {named : ℕ → ℕ → Prop} {g' : Game ℝ} (h : Apart g) (hs : Swept named g g') :
    Apart g' :=
  ⟨fun j => (h.nodup j).sublist (hs.cells j), fun j k hjk c hc hc' =>
    h.disjoint j k hjk c ((hs.cells j).subset hc) ((hs.cells k).subset hc')⟩

theorem Swept.trans {named named' : ℕ → ℕ → Prop} {g g' g'' : Game ℝ} (h : Swept named g g')
    (h' : Swept named' g' g'') (hdisjoint : ∀ j k, named j k → ¬ named' j k) :
    Swept (fun j k => named j k ∨ named' j k) g g'' := by
  obtain ⟨pairs, hpairs, hcount⟩ := h.compared
  obtain ⟨pairs', hpairs', hcount'⟩ := h'.compared
  refine ⟨fun j => (h'.cells j).trans (h.cells j), _, hpairs.trans hpairs', fun j k c hc d hd => ?_⟩
  obtain ⟨hyes, hno⟩ := hcount j k c ((h'.cells j).subset hc) d ((h'.cells k).subset hd)
  obtain ⟨hyes', hno'⟩ := hcount' j k c hc d hd
  rw [List.count_append]
  constructor
  · rintro (hn | hn)
    · rw [hyes hn, hno' (hdisjoint j k hn)]
    · rw [hyes' hn, hno fun hn' => hdisjoint j k hn' hn]
  · intro hn
    rw [hno fun h => hn (Or.inl h), hno' fun h => hn (Or.inr h)]

theorem Swept.congr {named named' : ℕ → ℕ → Prop} {g g' : Game ℝ} (h : Swept named g g')
    (hiff : ∀ j k c d, c ∈ g'.cellsOf j → d ∈ g'.cellsOf k → (named j k ↔ named' j k)) :
    Swept named' g g' := by
  obtain ⟨pairs, hpairs, hcount⟩ := h.compared
  refine ⟨h.cells, pairs, hpairs, fun j k c hc d hd => ?_⟩
  rw [← hiff j k c d hc hd]
  exact hcount j k c hc d hd

theorem collideOtherFrom_swept (h : Apart g) (hix : i ≠ x) :
    Swept (fun j k => j = i ∧ k = x) g (g.collideOtherFrom i x 0) := by
  have hsub := (collideOtherFrom_retains Cell.lasting_radius g i x 0).cells
  obtain ⟨pairs, hcompared, hmem, hcount⟩ :=
    collideOtherFrom_compared g hix 0 (h.nodup i) (h.nodup x)
  refine ⟨hsub, pairs, hcompared, fun j k c hc d hd => ⟨?_, fun hn => ?_⟩⟩
  · rintro ⟨rfl, rfl⟩
    rw [hcount c hc d hd, List.drop_zero, if_pos ((hsub j).subset hc)]
  · refine List.count_eq_zero_of_not_mem fun hpair => hn ?_
    obtain ⟨h1, h2⟩ := hmem _ hpair
    refine ⟨by_contra fun hj => ?_, by_contra fun hk => ?_⟩
    · exact h.disjoint j i hj c ((hsub j).subset hc) h1
    · exact h.disjoint k x hk d ((hsub k).subset hd) h2

theorem swept_refl {named : ℕ → ℕ → Prop} (g : Game ℝ) (h : ∀ j k, ¬ named j k) :
    Swept named g g :=
  ⟨fun _ => List.Sublist.refl _, [], .of_eq rfl, fun j k _ _ _ _ =>
    ⟨fun hn => absurd hn (h j k), fun _ => List.count_nil⟩⟩

theorem collideOthers_swept {xs : List ℕ} (hxs : xs.Nodup) (hix : ∀ x ∈ xs, i ≠ x)
    (h : Apart g) :
    Swept (fun j k => j = i ∧ k ∈ xs) g (xs.foldl (fun g x => g.collideOtherFrom i x 0) g) := by
  induction xs generalizing g with
  | nil => exact swept_refl g fun j k hn => List.not_mem_nil hn.2
  | cons x xs ih =>
    obtain ⟨hx, hxs'⟩ := List.nodup_cons.mp hxs
    have hfirst := collideOtherFrom_swept h (hix x List.mem_cons_self)
    have hrest := ih hxs' (fun y hy => hix y (List.mem_cons_of_mem x hy)) (h.swept hfirst)
    rw [List.foldl_cons]
    refine (hfirst.trans hrest fun j k hn hn' => hx (hn.2 ▸ hn'.2)).congr fun j k c d _ _ => ?_
    rw [List.mem_cons]
    tauto

theorem collideOtherPlayer_swept (h : Apart g) (i : ℕ) :
    Swept (fun j k => j = i ∧ i < k) g (g.collideOtherPlayer i (i + 1)) := by
  refine (collideOthers_swept List.nodup_range' (fun x hx => ?_) h).congr fun j k c d _ hd => ?_
  · have := (List.mem_range'_1.mp hx).1
    omega
  · have hk : k < g.players.length := by
      obtain ⟨n, hn⟩ := List.mem_iff_getElem?.mp hd
      have hlt := lt_of_cellsOf hn
      rwa [collideOthers_length] at hlt
    rw [List.mem_range'_1]
    omega

theorem othersPass_swept (h : Apart g) : Swept (fun j k => j < k) g g.othersPass := by
  have hloop : ∀ (is : List ℕ) (g : Game ℝ), is.Nodup → Apart g →
      Swept (fun j k => j ∈ is ∧ j < k) g
        (is.foldl (fun g i => g.collideOtherPlayer i (i + 1)) g) := by
    intro is
    induction is with
    | nil => exact fun g _ _ => swept_refl g fun j k hn => List.not_mem_nil hn.1
    | cons i is ih =>
      intro g his h
      obtain ⟨hi, his'⟩ := List.nodup_cons.mp his
      have hfirst := collideOtherPlayer_swept h i
      have hrest := ih _ his' (h.swept hfirst)
      rw [List.foldl_cons]
      refine (hfirst.trans hrest fun j k hn hn' => hi (hn.1 ▸ hn'.1)).congr fun j k c d _ _ => ?_
      rw [List.mem_cons]
      constructor
      · rintro (⟨rfl, hlt⟩ | ⟨hj, hlt⟩)
        · exact ⟨Or.inl rfl, hlt⟩
        · exact ⟨Or.inr hj, hlt⟩
      · rintro ⟨rfl | hj, hlt⟩
        · exact Or.inl ⟨rfl, hlt⟩
        · exact Or.inr ⟨hj, hlt⟩
  have hpass := hloop (List.range g.players.length) g List.nodup_range h
  refine hpass.congr fun j _ _ _ hc _ => and_iff_right_of_imp fun _ => ?_
  obtain ⟨n, hn⟩ := List.mem_iff_getElem?.mp ((hpass.cells j).subset hc)
  exact List.mem_range.mpr (lt_of_cellsOf hn)

end Game

namespace Board

/-- Neither pass misses or repeats a pair of cells that are left, compares a cell that is gone, or
loses mass; what a round erases is the cell that was eaten. -/
structure EatsSoundly (b : Board) : Prop where
  static_inRange : ∀ i pt, b.VisitsStatic i pt → pt.game.cellsOf i = b.game.cellsOf i ∧
    pt.cells ⊆ b.game.cellsOf i ∧ pt.blocks ⊆ Game.blockGrid
  static_present : ∀ i pt cell s, b.VisitsStatic i pt → pt.Compares cell s →
    cell ∈ pt.game.cellsOf i ∧ s ∈ pt.game.statics
  static_handed : ∀ i pt pt', b.VisitsStatic i pt → pt.next = some pt' →
    Game.Handed pt.game pt'.game
  static_once : ∀ i, ∃ pairs, Compared b.game (b.game.collideStatic i) pairs ∧
    ∀ c ∈ (b.game.collideStatic i).cellsOf i, ∀ s ∈ (b.game.collideStatic i).statics,
      pairs.count (c, s) = 1
  static_mass : ∀ i, (b.game.collideStatic i).storedMass = b.game.storedMass
  others_inRange : ∀ pt, b.VisitsOthers pt → pt.InRange
  others_present : ∀ pt cell o, b.VisitsOthers pt → pt.Compares cell o →
    ∃ i x, i < x ∧ cell ∈ pt.game.cellsOf i ∧ o ∈ pt.game.cellsOf x
  others_handed : ∀ pt pt', b.VisitsOthers pt → pt.next = some pt' →
    Game.Handed pt.game pt'.game
  others_once : ∃ pairs, Compared b.game b.game.othersPass pairs ∧ ∀ i j, i < j →
    ∀ c ∈ b.game.othersPass.cellsOf i, ∀ d ∈ b.game.othersPass.cellsOf j,
      pairs.count (c, d) = 1
  others_mass : b.game.othersPass.storedMass = b.game.storedMass

theorem apart (b : Board) : b.game.Apart :=
  ⟨Game.cells_nodup b.distinct, fun _ _ hjk _ => Game.cells_disjoint b.distinct hjk⟩

/-- The passes over the static cells and over the other players miss nothing and conserve mass. -/
theorem eats_soundly (b : Board) : b.EatsSoundly where
  static_inRange := fun _ _ hv => ⟨hv.steady.own, hv.steady.cells, hv.steady.blocks⟩
  static_present := fun i pt cell s hv ⟨cells, bl, blocks, hcells, hblocks, hs⟩ => by
    have hsteady := hv.steady
    have hcell : cell ∈ pt.cells := hcells ▸ List.mem_cons_self
    have hblock : bl ∈ pt.blocks := hblocks ▸ List.mem_cons_self
    exact ⟨hsteady.own.symm ▸ hsteady.cells hcell, List.mem_flatMap.mpr
      ⟨bl, hsteady.blocks hblock, List.mem_of_getElem? hs⟩⟩
  static_handed := fun i pt pt' hv hn => (hv.steady.handed hn).1
  static_once := fun i => by
    have hown := (VisitsStatic.steady (StaticPoint.pass_leads b.game i)).own
    obtain ⟨pairs, hcompared, -, hcount⟩ := Game.collideGrids_compared
      (Game.cells_nodup b.distinct i) (Game.statics_nodup b.distinct)
    refine ⟨pairs, hcompared, fun c hc s hs => ?_⟩
    have hc' : c ∈ b.game.cellsOf i := hown ▸ hc
    exact (hcount c s hs).trans (if_pos hc')
  static_mass := fun i => (VisitsStatic.steady (StaticPoint.pass_leads b.game i)).mass
  others_inRange := fun pt hv => hv.steady.inRange
  others_present := fun pt cell o hv ⟨g, i, x, myLoop, loop, hpt, ho⟩ => by
    subst hpt
    obtain ⟨hix, -, hcell⟩ := hv.steady.inRange
    exact ⟨i, x, hix, List.mem_of_getElem? hcell, List.mem_of_getElem? ho⟩
  others_handed := fun pt pt' hv hn => (hv.steady.handed hn).1
  others_once := by
    obtain ⟨pairs, hcompared, hcount⟩ := (Game.othersPass_swept b.apart).compared
    exact ⟨pairs, hcompared, fun i j hij c hc d hd => (hcount i j c hc d hd).1 hij⟩
  others_mass := by
    obtain ⟨i, x, hleads, -⟩ := OtherPoint.pass_leads b.game
    exact (VisitsOthers.steady hleads).mass

end Board

end Agar
