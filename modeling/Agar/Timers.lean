import Agar.Lasting
import Agar.Feeding

/-! The combine times: the constructor of `Cell` leaves them unset, splits and the big halves of a pop
set those of both halves, and a pop into small balls alone sets only those of the balls. -/

namespace Agar
open Trace

namespace Game
variable {touched : Set ℕ} {g g' : Game ℝ}

/-- The player has one cell at most, or the combine times of all its cells have been set. -/
def Timed (g : Game ℝ) (j : ℕ) : Prop :=
  (g.cellsOf j).length ≤ 1 ∨ ∀ c ∈ g.cellsOf j, (g.heap c).combineSet = true

theorem Timed.of_subset {i j : ℕ} (h : g.Timed j) (hcells : (g'.cellsOf i).Sublist (g.cellsOf j))
    (hset : ∀ c ∈ g.cellsOf j, (g.heap c).combineSet = true → (g'.heap c).combineSet = true) :
    g'.Timed i := by
  rcases h with h | h
  · exact Or.inl (hcells.length_le.trans h)
  · exact Or.inr fun c hc => hset c (hcells.subset hc) (h c (hcells.subset hc))

theorem Timed.retains {j : ℕ} (h : g.Timed j)
    (hr : Retains (fun c => c.combineSet = true) touched g g') : g'.Timed j :=
  h.of_subset (hr.cells j) fun c _ => hr.lasting c

theorem Sprouts.timed_other {i j : ℕ} {cell : CellPtr} {news : List CellPtr}
    (hs : Sprouts i cell g g' news) (hw : WellFormed g) (hij : j ≠ i) (h : g.Timed j) :
    g'.Timed j := by
  refine h.of_subset (hs.others j hij ▸ List.Sublist.refl _) fun c hc hset => ?_
  by_cases hcell : c = cell
  · rw [hcell] at hset ⊢
    exact hs.set hset
  · rw [hs.heap c (hw.owned j c hc).1 hcell]
    exact hset

theorem Sprouts.timed {i : ℕ} {cell : CellPtr} {news : List CellPtr}
    (hs : Sprouts i cell g g' news) (hw : WellFormed g) (hmem : cell ∈ g.cellsOf i)
    (hset : news = [] ∨ (g'.heap cell).combineSet = true) (h : g.Timed i) : g'.Timed i := by
  have hold : ∀ c ∈ g.cellsOf i, (g.heap c).combineSet = true → (g'.heap c).combineSet = true := by
    intro c hc hcs
    by_cases hcell : c = cell
    · rw [hcell] at hcs ⊢
      exact hs.set hcs
    · rw [hs.heap c (hw.owned i c hc).1 hcell]
      exact hcs
  rcases hset with hnone | hset
  · have hcells := hs.cells
    rw [hnone, List.append_nil] at hcells
    exact h.of_subset (hcells ▸ List.Sublist.refl _) hold
  · refine Or.inr fun c hc => ?_
    rw [hs.cells] at hc
    rcases List.mem_append.mp hc with hc | hc
    · rcases h with hone | hall
      · -- the only cell is the one that was set
        obtain ⟨d, hd⟩ := List.length_eq_one_iff.mp
          (le_antisymm hone (List.length_pos_of_mem hmem))
        rw [hd] at hmem hc
        rw [List.mem_singleton.mp hc, ← List.mem_singleton.mp hmem]
        exact hset
      · exact hold c hc (hall c hc)
    · exact (hs.fresh c hc).2.2

theorem noteSelf_punctual (g : Game ℝ) {a b : CellPtr} (ha : (g.heap a).combineSet = true)
    (hb : (g.heap b).combineSet = true) : Punctual g (g.noteSelf a b) := by
  have hread : ∀ (g : Game ℝ) (p : CellPtr), (g.heap p).combineSet = true →
      Punctual g (g.note (.readCombine p (g.heap p).combineSet)) := fun g p hp =>
    punctual_calls (fun h => by rw [hp] at h; cases h) rfl
  have hfirst := (noteCollide_punctual g a b).trans (hread (g.noteCollide a b) a ha)
  unfold noteSelf noteCombine
  dsimp only
  split_ifs
  · exact hfirst.trans (hread _ b hb)
  · exact hfirst

/-- The cell at hand and all cells of the player have their combine times. -/
structure AllSet (g : Game ℝ) (i : ℕ) (cell : CellPtr) : Prop where
  cell : (g.heap cell).combineSet = true
  cells : ∀ c ∈ g.cellsOf i, (g.heap c).combineSet = true

theorem AllSet.retains {i : ℕ} {cell : CellPtr} (h : AllSet g i cell)
    (hr : Retains (fun c => c.combineSet = true) touched g g') : AllSet g' i cell :=
  ⟨hr.lasting cell h.cell, fun c hc => hr.lasting c (h.cells c ((hr.cells i).subset hc))⟩

theorem AllSet.noteSelf {i : ℕ} {cell : CellPtr} (h : AllSet g i cell) (a b : CellPtr) :
    AllSet (g.noteSelf a b) i cell :=
  h.retains (noteSelf_retains g a b : Retains _ {i} g _)

theorem AllSet.pushApart {i : ℕ} {cell : CellPtr} (h : AllSet g i cell) (a b : CellPtr) :
    AllSet (g.pushApart a b) i cell :=
  h.retains (pushApart_retains Cell.lasting_combineSet g a b : Retains _ {i} g _)

theorem collideSelfWith_punctual (g : Game ℝ) (i : ℕ) (cell : CellPtr) (myLoop : ℤ) (loop : ℕ)
    (h : AllSet g i cell) : Punctual g (g.collideSelfWith i cell myLoop loop).1 := by
  fun_induction collideSelfWith g i cell myLoop loop with
  | case1 g myLoop loop hnone => exact Punctual.of_eq rfl
  | case2 g myLoop loop o ho result g' hready hover hbig ih =>
    have hnote := noteSelf_punctual g h.cell (h.cells o (List.mem_of_getElem? ho))
    have heat : Punctual g' (g'.eatOwn i cell o loop) := grow_punctual rfl
    exact (hnote.trans heat).trans (ih ((h.noteSelf cell o).retains
      (eatOwn_retains Cell.lasting_combineSet g' i cell o loop)))
  | case3 g myLoop loop o ho result g' hready hover hbig ih =>
    have hnote := noteSelf_punctual g h.cell (h.cells o (List.mem_of_getElem? ho))
    have hgrow : Punctual g' (g'.addSize o (g'.heap cell).size) := grow_punctual rfl
    have hslot : Punctual (g'.addSize o (g'.heap cell).size)
        (g'.absorbOwn i cell o myLoop) := by
      refine punctual_calls (c := .absorb cell (if 0 ≤ myLoop then (g'.cellsOf i)[myLoop.toNat]?
        else none)) id ?_
      unfold absorbOwn
      exact (eraseCellAt_frame _ i myLoop).2.2.2.2.2.1
    exact ((hnote.trans hgrow).trans hslot).trans (ih ((h.noteSelf cell o).retains
      (absorbOwn_retains Cell.lasting_combineSet g' i cell o myLoop)))
  | case4 g myLoop loop o ho result g' hready hover ih =>
    have hnote := noteSelf_punctual g h.cell (h.cells o (List.mem_of_getElem? ho))
    exact hnote.trans (ih (h.noteSelf cell o))
  | case5 g myLoop loop o ho result g' hready htouch ih =>
    have hnote := noteSelf_punctual g h.cell (h.cells o (List.mem_of_getElem? ho))
    have hpush : Punctual g' (g'.pushApart cell o) := Punctual.of_eq rfl
    exact (hnote.trans hpush).trans (ih ((h.noteSelf cell o).pushApart cell o))
  | case6 g myLoop loop o ho result g' hready htouch ih =>
    have hnote := noteSelf_punctual g h.cell (h.cells o (List.mem_of_getElem? ho))
    exact hnote.trans (ih (h.noteSelf cell o))

theorem collideSelfFrom_single (g : Game ℝ) (i myLoop : ℕ) (h : (g.cellsOf i).length ≤ 1) :
    g.collideSelfFrom i myLoop = g := by
  fun_induction collideSelfFrom g i myLoop with
  | case1 g myLoop hnone => rfl
  | case2 g myLoop cell hc r ih =>
    have hlt := getElem?_lt hc
    have hr : r = (g, (myLoop : ℤ)) := by
      show g.collideSelfWith i cell myLoop (myLoop + 1) = _
      rw [collideSelfWith]
      split
      · rfl
      · rename_i ho
        have := getElem?_lt ho
        omega
    rw [hr] at ih ⊢
    exact ih h

theorem collideSelf_punctual (g : Game ℝ) (i : ℕ) (h : g.Timed i) :
    Punctual g (g.collideSelf i) := by
  rcases h with hone | hall
  · unfold collideSelf
    rw [collideSelfFrom_single g i 0 hone]
    exact Punctual.of_eq rfl
  · have hfrom : ∀ (g : Game ℝ) myLoop, (∀ c ∈ g.cellsOf i, (g.heap c).combineSet = true) →
        Punctual g (g.collideSelfFrom i myLoop) := by
      intro g myLoop hall
      fun_induction collideSelfFrom g i myLoop with
      | case1 g myLoop hnone => exact Punctual.of_eq rfl
      | case2 g myLoop cell hc r ih =>
        have hset : AllSet g i cell := ⟨hall cell (List.mem_of_getElem? hc), hall⟩
        exact (collideSelfWith_punctual g i cell myLoop (myLoop + 1) hset).trans
          (ih (hset.retains (collideSelfWith_retains Cell.lasting_combineSet g i cell myLoop
            (myLoop + 1))).cells)
    exact hfrom g 0 hall

theorem collideSelfWith_calls (g : Game ℝ) (i : ℕ) (cell : CellPtr) (myLoop : ℤ) (loop : ℕ) :
    g.calls <+: (g.collideSelfWith i cell myLoop loop).1.calls := by
  have hnote : ∀ (g : Game ℝ) a b, g.calls <+: (g.noteSelf a b).calls := by
    intro g a b
    unfold noteSelf noteCombine noteCollide
    dsimp only
    split_ifs
    · simp only [note_calls, List.append_assoc]
      exact List.prefix_append _ _
    · simp only [note_calls, List.append_assoc]
      exact List.prefix_append _ _
  fun_induction collideSelfWith g i cell myLoop loop with
  | case1 g myLoop loop hnone => exact List.prefix_rfl
  | case2 g myLoop loop o ho result g' hready hover hbig ih =>
    have heat : g'.calls <+: (g'.eatOwn i cell o loop).calls := List.prefix_append _ _
    exact ((hnote g cell o).trans heat).trans ih
  | case3 g myLoop loop o ho result g' hready hover hbig ih =>
    have habsorb : g'.calls <+: (g'.absorbOwn i cell o myLoop).calls := by
      unfold absorbOwn
      rw [(eraseCellAt_frame _ i myLoop).2.2.2.2.2.1]
      show _ <+: (g'.calls ++ [_]) ++ [_]
      rw [List.append_assoc]
      exact List.prefix_append _ _
    exact ((hnote g cell o).trans habsorb).trans ih
  | case4 g myLoop loop o ho result g' hready hover ih => exact (hnote g cell o).trans ih
  | case5 g myLoop loop o ho result g' hready htouch ih => exact (hnote g cell o).trans ih
  | case6 g myLoop loop o ho result g' hready htouch ih => exact (hnote g cell o).trans ih

theorem collideSelf_reads (hw : WellFormed g) {i : ℕ} {cell o : CellPtr} {rest : List CellPtr}
    (h : g.cellsOf i = cell :: o :: rest) :
    .readCombine cell (g.heap cell).combineSet ∈ (g.collideSelf i).calls := by
  have hread : .readCombine cell (g.heap cell).combineSet ∈ (g.noteSelf cell o).calls := by
    unfold noteSelf noteCombine
    dsimp only
    split_ifs
    · exact List.mem_append_left _ (List.mem_append_right _ (List.mem_singleton.mpr rfl))
    · exact List.mem_append_right _ (List.mem_singleton.mpr rfl)
  have hcell : (g.cellsOf i)[0]? = some cell := by rw [h]; rfl
  have ho : (g.cellsOf i)[1]? = some o := by rw [h]; rfl
  have hwith : .readCombine cell (g.heap cell).combineSet ∈
      (g.collideSelfWith i cell 0 1).1.calls := by
    rw [collideSelfWith]
    split
    · rename_i hnone
      rw [ho] at hnone
      cases hnone
    · rename_i o' ho'
      obtain rfl : o = o' := Option.some.inj (ho.symm.trans ho')
      dsimp only
      split_ifs
      · exact (collideSelfWith_calls _ _ _ _ _).subset (List.mem_append_left _ hread)
      · refine (collideSelfWith_calls _ _ _ _ _).subset ?_
        unfold absorbOwn
        rw [(eraseCellAt_frame _ i _).2.2.2.2.2.1]
        exact List.mem_append_left _ (List.mem_append_left _ hread)
      · exact (collideSelfWith_calls _ _ _ _ _).subset hread
      · exact (collideSelfWith_calls _ _ _ _ _).subset hread
      · exact (collideSelfWith_calls _ _ _ _ _).subset hread
  have hw' := (collideSelfWith_leads g i cell 0 1 (hw.owned i cell (List.mem_of_getElem? hcell))
    (by omega) (Or.inl ⟨le_rfl, hcell⟩)).wellFormed hw
  unfold collideSelf
  rw [collideSelfFrom]
  split
  · rename_i hnone
    rw [hcell] at hnone
    cases hnone
  · rename_i cell' hcell'
    obtain rfl : cell = cell' := Option.some.inj (hcell.symm.trans hcell')
    exact ((collideSelfFrom_leads _ i _).frame hw').calls.subset hwith

theorem popVirus_small (g : Game ℝ) {i : ℕ} {cell : CellPtr} (d : CellPtr)
    (hcell : cell < g.allocated) (hi : i < g.players.length) (hsize : (g.heap cell).size ≤ 500) :
    let balls := smallBallCount (g.cellsOf i).length (g.heap cell).size
    (∃ news, news.length = balls ∧ Sprouts i cell g (g.popVirus i cell d) news) ∧
    (g.popVirus i cell d).heap cell = if balls ≠ 0 then
      (g.heap cell).addSize (-(balls : ℝ) * smallBallSize balls (g.heap cell).size)
    else g.heap cell := by
  intro balls
  have hnone : g.bigPops i cell ⟨1, 0⟩ 4 = g := by
    rw [bigPops, if_neg fun h => absurd h.1 (not_lt.mpr hsize)]
  unfold popVirus
  dsimp only
  rw [hnone]
  obtain ⟨⟨news, hlen, hnews⟩, hleft⟩ := smallBalls_sprouts
    (g.note (.pop cell (g.heap cell).size (g.cellsOf i).length)) d (i := i) hcell hi
  have hnote : Sprouts i cell g (g.note (.pop cell (g.heap cell).size (g.cellsOf i).length)) [] :=
    Sprouts.of_eq rfl rfl (fun _ _ => rfl) id (punctual_calls id rfl)
  exact ⟨⟨news, hlen, hnote.trans hnews hcell (Or.inl rfl)⟩, hleft⟩

theorem smallBallCount_spends {size : ℝ} (hnonneg : 0 ≤ size) (hsize : size ≤ 500)
    (hballs : smallBallCount 1 size ≠ 0) :
    size ≤ 2 * playerMinSize * (smallBallCount 1 size : ℝ) := by
  have hmin : (playerMinSize : ℝ) = 17.64 := by
    norm_num [playerMinSize, getSize, playerMinRadius]
  have hslots : ((subSize 16 1 : ℕ) : ℝ) = 15 := by
    rw [subSize_of_le (by decide)]
    norm_num
  have hone : (1 : ℝ) ≤ smallBallCount 1 size := by
    exact_mod_cast Nat.one_le_iff_ne_zero.mpr hballs
  have hcount : (smallBallCount 1 size : ℤ) = ⌊min 15 (size / 17.64)⌋ := by
    have hpos : 0 ≤ min 15 (size / 17.64) := le_min (by norm_num) (by positivity)
    unfold smallBallCount
    rw [hslots, hmin, trunc_of_nonneg hpos, Int.toNat_of_nonneg (Int.floor_nonneg.mpr hpos)]
  rw [hmin]
  by_cases hfull : 15 ≤ size / 17.64
  · rw [min_eq_left hfull, show (15 : ℝ) = ((15 : ℤ) : ℝ) by norm_num, Int.floor_intCast] at hcount
    have hfifteen : smallBallCount 1 size = 15 := by exact_mod_cast hcount
    rw [hfifteen]
    norm_num
    linarith
  · rw [min_eq_right (not_le.mp hfull).le] at hcount
    have hlt : size / 17.64 < (smallBallCount 1 size : ℝ) + 1 := by
      have := Int.lt_floor_add_one (size / 17.64)
      rw [← hcount] at this
      exact_mod_cast this
    rw [div_lt_iff₀ (by norm_num)] at hlt
    linarith

theorem popVirus_spends (g : Game ℝ) {i : ℕ} {cell : CellPtr} (d : CellPtr)
    (hcell : cell < g.allocated) (hi : i < g.players.length) (hsize : (g.heap cell).size ≤ 500)
    (hone : g.cellsOf i = [cell]) (hballs : smallBallCount 1 (g.heap cell).size ≠ 0) :
    ((g.popVirus i cell d).heap cell).radius = 0 := by
  obtain ⟨-, hleft⟩ := popVirus_small g d hcell hi hsize
  rw [hone, List.length_singleton, if_pos hballs] at hleft
  have hall := smallBallCount_spends (Cell.size_nonneg (g.heap cell)) hsize hballs
  rw [hleft]
  show Real.sqrt ((_ + (g.heap cell).size) * 100) = 0
  rw [add_comm, smallBalls_all hballs hall, zero_mul, Real.sqrt_zero]

/-- The cells of the players other than `i` and the combine times stand. -/
structure Stands (i : ℕ) (g g' : Game ℝ) : Prop where
  allocated : g.allocated ≤ g'.allocated
  others : ∀ j, j ≠ i → g'.cellsOf j = g.cellsOf j
  lasting : ∀ c < g.allocated, (g.heap c).combineSet = true → (g'.heap c).combineSet = true
  punctual : Punctual g g'

theorem Stands.refl (i : ℕ) (g : Game ℝ) : Stands i g g :=
  ⟨le_rfl, fun _ _ => rfl, fun _ _ h => h, Punctual.of_eq rfl⟩

theorem Stands.trans {i : ℕ} {g'' : Game ℝ} (h : Stands i g g') (h' : Stands i g' g'') :
    Stands i g g'' where
  allocated := h.allocated.trans h'.allocated
  others := fun j hj => (h'.others j hj).trans (h.others j hj)
  lasting := fun c hc hset => h'.lasting c (hc.trans_le h.allocated) (h.lasting c hc hset)
  punctual := h.punctual.trans h'.punctual

theorem Retains.stands {i : ℕ} (h : Retains (fun c => c.combineSet = true) ∅ g g')
    (hp : Punctual g g') : Stands i g g' :=
  ⟨h.allocated.ge, fun j _ => h.others j (Set.notMem_empty j), fun c _ => h.lasting c, hp⟩

theorem Sprouts.stands {i : ℕ} {cell : CellPtr} {news : List CellPtr}
    (h : Sprouts i cell g g' news) : Stands i g g' :=
  ⟨h.allocated, h.others, fun c hc hset => by
    by_cases hcell : c = cell
    · rw [hcell] at hset ⊢
      exact h.set hset
    · rw [h.heap c hc hcell]
      exact hset, h.punctual⟩

theorem Stands.timed {i j : ℕ} (h : Stands i g g') (hw : WellFormed g) (hij : j ≠ i)
    (ht : g.Timed j) : g'.Timed j :=
  ht.of_subset (h.others j hij ▸ List.Sublist.refl _) fun c hc =>
    h.lasting c (hw.owned j c hc).1

end Game

namespace DynamicPoint
open Game

/-- A virus pops the only cell of the player into small balls alone, and the combine time of the cell
has not been set. -/
def PopsUnset (i : ℕ) : DynamicPoint ℝ → Prop
  | .outer _ _ => False
  | .inner g cell _ loop => ∃ d, g.dynamicMap[loop]? = some d ∧
      (g.heap cell).collide (g.heap d) = .bigger ∧ (g.heap d).flag.isVirus = true ∧
      g.cellsOf i = [cell] ∧ (g.heap cell).combineSet = false ∧
      ((g.heap cell).addSize (g.heap d).size).size ≤ 500 ∧
      smallBallCount 1 ((g.heap cell).addSize (g.heap d).size).size ≠ 0

/-- At every point of the pass the player is timed, as long as no such pop happens. -/
structure TimedAt (i : ℕ) (pt : DynamicPoint ℝ) : Prop where
  steady : Steady i pt
  timed : pt.game.Timed i
  listed : ∀ g cell myLoop loop, pt = .inner g cell myLoop loop → cell ∈ g.cellsOf i

theorem eaten_cell (g : Game ℝ) (cell d : CellPtr) (loop : ℕ) :
    ((g.noteCollide cell d).eatDynamic cell d loop).heap cell =
      (g.heap cell).addSize (g.heap d).size := setCell_heap_self _ _ _

theorem TimedAt.pop {i : ℕ} {g : Game ℝ} {cell d : CellPtr} {myLoop loop : ℕ}
    (h : TimedAt i (.inner g cell myLoop loop)) (hsafe : ¬ (inner g cell myLoop loop).PopsUnset i)
    (hd : g.dynamicMap[loop]? = some d) (hbig : (g.heap cell).collide (g.heap d) = .bigger)
    (hvirus : (g.heap d).flag.isVirus = true) (hcap : (g.cellsOf i).length < 16) :
    let g' := (g.noteCollide cell d).eatDynamic cell d loop
    (g'.popVirus i cell d).Timed i ∧ Stands i g (g'.popVirus i cell d) := by
  intro g'
  have hmem := h.listed g cell myLoop loop rfl
  have ho := h.steady.owned g cell myLoop loop rfl
  have hw' : WellFormed g' := (eatDynamic_leads ho hd).wellFormed h.steady.wellFormed
  have heat : Retains (fun c => c.combineSet = true) ∅ g g' :=
    (retains_noteCollide g cell d).trans (eatDynamic_retains Cell.lasting_combineSet _ cell d loop)
  have hstands : Stands i g g' := heat.stands (eatDynamic_punctual g cell d loop)
  have htimed : g'.Timed i := h.timed.retains heat
  have hcells : g'.cellsOf i = g.cellsOf i := rfl
  obtain ⟨news, hnews, hset⟩ := popVirus_sprouts g' d (i := i) ho.1 h.steady.index
  refine ⟨?_, hstands.trans hnews.stands⟩
  by_cases hhalf : 500 < (g'.heap cell).size
  · exact hnews.timed hw' hmem (Or.inr (hset ⟨hhalf, hcap⟩)) htimed
  · obtain ⟨⟨balls, hlen, hballs⟩, -⟩ :=
      popVirus_small g' d (i := i) ho.1 h.steady.index (not_lt.mp hhalf)
    refine hballs.timed hw' hmem ?_ htimed
    by_cases hunset : (g'.heap cell).combineSet = true
    · exact Or.inr (hballs.set hunset)
    · -- the player has this cell only, and there is no room or no size for a ball
      left
      have hone : g.cellsOf i = [cell] := by
        rcases htimed with hlen | hall
        · obtain ⟨c, hc⟩ := List.length_eq_one_iff.mp
            (le_antisymm hlen (List.length_pos_of_mem hmem))
          rw [hcells] at hc
          rw [hc] at hmem ⊢
          rw [List.mem_singleton.mp hmem]
        · exact absurd (hall cell hmem) hunset
      by_contra hnone
      rw [eaten_cell g cell d loop] at hunset
      refine hsafe ⟨d, hd, hbig, hvirus, hone, Bool.eq_false_iff.mpr hunset, ?_, ?_⟩
      · rw [← eaten_cell g cell d loop]
        exact not_lt.mp hhalf
      · rw [← eaten_cell g cell d loop]
        intro hzero
        rw [hcells, hone, List.length_singleton, hzero] at hlen
        exact hnone (List.length_eq_zero_iff.mp hlen)

theorem TimedAt.next {i : ℕ} {pt pt' : DynamicPoint ℝ} (h : TimedAt i pt)
    (hsafe : ¬ pt.PopsUnset i) (hn : pt.next i = some pt') :
    TimedAt i pt' ∧ Stands i pt.game pt'.game := by
  have hsteady := h.steady.next hn
  have habsorbs := h.steady.not_absorbs
  suffices hgoal : pt'.game.Timed i ∧ Stands i pt.game pt'.game ∧
      ∀ g cell myLoop loop, pt' = .inner g cell myLoop loop → cell ∈ g.cellsOf i from
    ⟨⟨hsteady, hgoal.1, hgoal.2.2⟩, hgoal.2.1⟩
  cases pt with
  | outer g myLoop =>
    unfold DynamicPoint.next at hn
    dsimp only at hn
    rcases hcell : (g.cellsOf i)[myLoop]? with - | cell
    · simp [hcell] at hn
    · simp only [hcell, Option.some.injEq] at hn
      subst hn
      refine ⟨h.timed, Stands.refl i g, ?_⟩
      rintro g' cell' myLoop' loop' ⟨⟩
      exact List.mem_of_getElem? hcell
  | inner g cell myLoop loop =>
    have hmem := h.listed g cell myLoop loop rfl
    unfold DynamicPoint.next at hn
    dsimp only at hn
    rcases hd : g.dynamicMap[loop]? with - | d
    · simp only [hd, Option.some.injEq] at hn
      subst hn
      exact ⟨h.timed, Stands.refl i g, fun _ _ _ _ hc => by cases hc⟩
    · simp only [hd] at hn
      by_cases hbig : (g.heap cell).collide (g.heap d) = .bigger
      · rw [if_pos hbig] at hn
        split_ifs at hn with hpop
        · rw [Option.some.injEq] at hn
          subst hn
          obtain ⟨htimed, hstands⟩ := h.pop hsafe hd hbig hpop.1 hpop.2
          exact ⟨htimed, hstands, fun _ _ _ _ hc => by cases hc⟩
        · rw [Option.some.injEq] at hn
          subst hn
          have heat : Retains (fun c => c.combineSet = true) ∅ g
              ((g.noteCollide cell d).eatDynamic cell d loop) :=
            (retains_noteCollide g cell d).trans
              (eatDynamic_retains Cell.lasting_combineSet _ cell d loop)
          refine ⟨h.timed.retains heat, heat.stands (eatDynamic_punctual g cell d loop), ?_⟩
          rintro g' cell' myLoop' loop' ⟨⟩
          exact hmem
      · rw [if_neg hbig, if_neg fun hs => habsorbs ⟨d, hd, hs⟩, Option.some.injEq] at hn
        subst hn
        have hnote : Retains (fun c => c.combineSet = true) ∅ g (g.noteCollide cell d) :=
          retains_noteCollide g cell d
        refine ⟨h.timed.retains hnote, hnote.stands (noteCollide_punctual g cell d), ?_⟩
        rintro g' cell' myLoop' loop' ⟨⟩
        exact hmem

theorem TimedAt.leads {i : ℕ} {pt pt' : DynamicPoint ℝ} (h : TimedAt i pt)
    (hsafe : ∀ q, Leads i pt q → ¬ q.PopsUnset i) (hl : Leads i pt pt') :
    TimedAt i pt' ∧ Stands i pt.game pt'.game := by
  induction hl with
  | refl => exact ⟨h, Stands.refl i _⟩
  | tail hl hn ih =>
    obtain ⟨hat, hstands⟩ := ih.1.next (hsafe _ hl) hn
    exact ⟨hat, ih.2.trans hstands⟩

/-- A cell with nothing left and no combine time stands in front of other cells of its player. -/
structure Stuck (i : ℕ) (cell : CellPtr) (pt : DynamicPoint ℝ) : Prop where
  steady : Steady i pt
  cells : ∃ o rest, pt.game.cellsOf i = cell :: o :: rest
  radius : (pt.game.heap cell).radius = 0
  unset : (pt.game.heap cell).combineSet = false

theorem Stuck.next {i : ℕ} {cell : CellPtr} {pt pt' : DynamicPoint ℝ} (h : Stuck i cell pt)
    (hn : pt.next i = some pt') : Stuck i cell pt' := by
  have hsteady := h.steady.next hn
  have habsorbs := h.steady.not_absorbs
  obtain ⟨o, rest, hcells⟩ := h.cells
  have hkeep : ∀ {g' : Game ℝ} {news : List CellPtr}, g'.cellsOf i = pt.game.cellsOf i ++ news →
      g'.heap cell = pt.game.heap cell → (∃ o rest, g'.cellsOf i = cell :: o :: rest) ∧
      (g'.heap cell).radius = 0 ∧ (g'.heap cell).combineSet = false := by
    intro g' news hcells' hheap
    rw [hheap, hcells', hcells]
    exact ⟨⟨o, rest ++ news, rfl⟩, h.radius, h.unset⟩
  suffices hgoal : ∃ news, pt'.game.cellsOf i = pt.game.cellsOf i ++ news ∧
      pt'.game.heap cell = pt.game.heap cell by
    obtain ⟨news, hcells', hheap⟩ := hgoal
    obtain ⟨h1, h2, h3⟩ := hkeep hcells' hheap
    exact ⟨hsteady, h1, h2, h3⟩
  cases pt with
  | outer g myLoop =>
    unfold DynamicPoint.next at hn
    dsimp only at hn
    rcases hcell : (g.cellsOf i)[myLoop]? with - | c
    · simp [hcell] at hn
    · simp only [hcell, Option.some.injEq] at hn
      subst hn
      exact ⟨[], (List.append_nil _).symm, rfl⟩
  | inner g c myLoop loop =>
    unfold DynamicPoint.next at hn
    dsimp only at hn
    rcases hd : g.dynamicMap[loop]? with - | d
    · simp only [hd, Option.some.injEq] at hn
      subst hn
      exact ⟨[], (List.append_nil _).symm, rfl⟩
    · simp only [hd] at hn
      have ho := h.steady.owned g c myLoop loop rfl
      have hlt : cell < g.allocated := (h.steady.wellFormed.owned i cell
        (by rw [hcells]; exact List.mem_cons_self)).1
      by_cases hbig : (g.heap c).collide (g.heap d) = .bigger
      · have hne : cell ≠ c := fun heq =>
          Cell.not_bigger_of_zero (g.heap d) (heq ▸ h.radius) hbig
        have heaten : ((g.noteCollide c d).eatDynamic c d loop).heap cell = g.heap cell :=
          setCell_heap_ne _ _ _ hne
        rw [if_pos hbig] at hn
        split_ifs at hn with hpop
        · rw [Option.some.injEq] at hn
          subst hn
          obtain ⟨news, hnews, -⟩ := popVirus_sprouts
            ((g.noteCollide c d).eatDynamic c d loop) d (i := i) ho.1 h.steady.index
          exact ⟨news, hnews.cells, (hnews.heap cell hlt hne).trans heaten⟩
        · rw [Option.some.injEq] at hn
          subst hn
          exact ⟨[], (List.append_nil _).symm, heaten⟩
      · rw [if_neg hbig, if_neg fun hs => habsorbs ⟨d, hd, hs⟩, Option.some.injEq] at hn
        subst hn
        exact ⟨[], (List.append_nil _).symm, rfl⟩

theorem Stuck.leads {i : ℕ} {cell : CellPtr} {pt pt' : DynamicPoint ℝ} (h : Stuck i cell pt)
    (hl : Leads i pt pt') : Stuck i cell pt' := by
  induction hl with
  | refl => exact h
  | tail _ hn ih => exact ih.next hn

theorem PopsUnset.stuck {i : ℕ} {pt pt' : DynamicPoint ℝ} (h : pt.PopsUnset i)
    (hs : Steady i pt) (hn : pt.next i = some pt') : ∃ cell, Stuck i cell pt' := by
  have hsteady := hs.next hn
  cases pt with
  | outer g myLoop => exact absurd h id
  | inner g cell myLoop loop =>
    obtain ⟨d, hd, hbig, hvirus, hone, hunset, hsize, hballs⟩ := h
    have ho := hs.owned g cell myLoop loop rfl
    let g' := (g.noteCollide cell d).eatDynamic cell d loop
    have hcell' : g'.heap cell = (g.heap cell).addSize (g.heap d).size := eaten_cell g cell d loop
    have hone' : g'.cellsOf i = [cell] := hone
    have hpt' : pt' = .outer (g'.popVirus i cell d) myLoop := by
      unfold DynamicPoint.next at hn
      dsimp only at hn
      simp only [hd] at hn
      rw [if_pos hbig, if_pos ⟨hvirus, by rw [hone']; exact Nat.one_lt_succ_succ 14⟩, Option.some.injEq] at hn
      exact hn.symm
    rw [← hcell'] at hsize hballs
    obtain ⟨⟨news, hlen, hnews⟩, hleft⟩ :=
      popVirus_small g' d (i := i) ho.1 hs.index hsize
    rw [hone', List.length_singleton] at hlen hleft
    rw [if_pos hballs] at hleft
    refine ⟨cell, hsteady, ?_, ?_, ?_⟩
    · rw [hpt']
      show ∃ o rest, (g'.popVirus i cell d).cellsOf i = _
      obtain ⟨o, rest, hcons⟩ := List.exists_cons_of_ne_nil fun hnil : news = [] =>
        hballs (by rw [← hlen, hnil]; rfl)
      exact ⟨o, rest, by rw [hnews.cells, hone', hcons]; rfl⟩
    · rw [hpt']
      exact popVirus_spends g' d ho.1 hs.index hsize hone' hballs
    · rw [hpt']
      show ((g'.popVirus i cell d).heap cell).combineSet = false
      rw [hleft]
      show (g'.heap cell).combineSet = false
      rw [hcell']
      exact hunset

end DynamicPoint

namespace Game
variable {g : Game ℝ}

/-- No virus pops the only cell of a player, its combine time not set, into small balls alone. -/
def PopsTimed (g : Game ℝ) : Prop := ∀ n < g.players.length, ∀ pt,
  DynamicPoint.Leads n (.outer (g.beforeDynamic n) 0) pt → ¬ pt.PopsUnset n

theorem collideOwns_timed (hw : WellFormed g) (hsafe : g.PopsTimed) (h : ∀ j, g.Timed j) (m : ℕ)
    (hm : m ≤ g.players.length) :
    (∀ j, ((List.range m).foldl collideOwn g).Timed j) ∧
    Punctual g ((List.range m).foldl collideOwn g) := by
  induction m with
  | zero => exact ⟨h, Punctual.of_eq rfl⟩
  | succ m ih =>
    obtain ⟨htimed, hpunctual⟩ := ih (Nat.le_of_succ_le hm)
    have hsteady := beforeDynamic_steady hw (Nat.lt_of_succ_le hm)
    have hstatic := collideStatic_retains Cell.lasting_combineSet
      ((List.range m).foldl collideOwn g) m
    obtain ⟨n, hend, -⟩ := DynamicPoint.outer_leads (g.beforeDynamic m) m 0
    have hat : DynamicPoint.TimedAt m (.outer (g.beforeDynamic m) 0) :=
      ⟨hsteady, (htimed m).retains hstatic, fun _ _ _ _ hc => by cases hc⟩
    obtain ⟨hdynamic, hstands⟩ := hat.leads (hsafe m (Nat.lt_of_succ_le hm)) hend
    have hself := collideSelf_retains Cell.lasting_combineSet
      ((g.beforeDynamic m).collideDynamic m) m
    rw [List.range_succ, List.foldl_append]
    refine ⟨fun j => ?_, ?_⟩
    · refine Timed.retains (g := (g.beforeDynamic m).collideDynamic m) ?_ hself
      by_cases hj : j = m
      · rw [hj]
        exact hdynamic.timed
      · exact hstands.timed hsteady.wellFormed hj ((htimed j).retains hstatic)
    · exact ((hpunctual.trans (collideStatic_punctual _ m)).trans hstands.punctual).trans
        (collideSelf_punctual _ m hdynamic.timed)

theorem collisionPhase_timed (hw : WellFormed g) (hsafe : g.PopsTimed) (h : ∀ j, g.Timed j) :
    (∀ j, g.collisionPhase.Timed j) ∧ Punctual g g.collisionPhase := by
  obtain ⟨htimed, hpunctual⟩ := collideOwns_timed hw hsafe h g.players.length le_rfl
  have hothers : ∀ (g : Game ℝ) i, Retains (fun c => c.combineSet = true) Set.univ g
      (g.collideOtherPlayer i (i + 1)) := fun g i => retains_foldl (fun g x _ =>
    (collideOtherFrom_retains Cell.lasting_combineSet g i x 0).mono (Set.subset_univ _)) g
  refine ⟨fun j => (htimed j).retains (retains_foldl (fun g i _ => hothers g i) _), ?_⟩
  refine hpunctual.trans (punctual_foldl (fun g i => ?_) _ _)
  exact punctual_foldl (fun g x => collideOtherFrom_punctual g i x 0) g _

theorem collisionPhase_premature (hw : WellFormed g) (h : ¬ g.PopsTimed) :
    ∃ c ∈ g.collisionPhase.calls, c.Premature := by
  unfold PopsTimed at h
  push Not at h
  obtain ⟨n, hn, pt, hpt, hpops⟩ := h
  have hsteady := beforeDynamic_steady hw hn
  -- the pop is on the way of the pass
  obtain ⟨m, hpath⟩ := DynamicPoint.onward hpt
  rcases Relation.ReflTransGen.cases_head hpath with heq | ⟨pt', hnext, hrest⟩
  · rw [heq] at hpops
    exact absurd hpops id
  obtain ⟨cell, hstuck⟩ := hpops.stuck (hsteady.leads hpt).1 hnext
  have hstuck' := hstuck.leads hrest
  obtain ⟨o, rest, hcells⟩ := hstuck'.cells
  have hread := collideSelf_reads hstuck'.steady.wellFormed hcells
  have hunset : (((g.beforeDynamic n).collideDynamic n).heap cell).combineSet = false :=
    hstuck'.unset
  have hearly : (Call.readCombine cell (((g.beforeDynamic n).collideDynamic n).heap
      cell).combineSet : Call ℝ).Premature := hunset
  exact ⟨_, (collideOwn_calls hw hn).subset hread, hearly⟩

theorem Sprouts.timed_nil {i : ℕ} {cell : CellPtr} {g' : Game ℝ} (hs : Sprouts i cell g g' [])
    (hw : WellFormed g) {j : ℕ} (h : g.Timed j) : g'.Timed j := by
  by_cases hj : j = i
  · rw [hj] at h ⊢
    have hcells := hs.cells
    rw [List.append_nil] at hcells
    exact h.of_subset (hcells ▸ List.Sublist.refl _) fun c hc =>
      hs.stands.lasting c (hw.owned i c hc).1
  · exact hs.timed_other hw hj h

theorem splitCells_timed (hw : WellFormed g) (h : ∀ j, g.Timed j) (i : ℕ) :
    (∀ j, (g.splitCells i).Timed j) ∧ Punctual g (g.splitCells i) := by
  unfold splitCells
  induction List.range (g.cellsOf i).length generalizing g with
  | nil => exact ⟨h, Punctual.of_eq rfl⟩
  | cons x xs ih =>
    have hstep : (∀ j, (g.splitAt i x).Timed j) ∧ Punctual g (g.splitAt i x) := by
      unfold splitAt
      rcases hx : (g.cellsOf i)[x]? with - | cell
      · exact ⟨h, Punctual.of_eq rfl⟩
      · dsimp only
        split_ifs
        · have hmem := List.mem_of_getElem? hx
          obtain ⟨hs, hset⟩ := splitCell_sprouts (hw.owned i cell hmem).1 (lt_of_cellsOf hx)
          refine ⟨fun j => ?_, hs.punctual⟩
          by_cases hj : j = i
          · rw [hj]
            exact hs.timed hw hmem (Or.inr hset) (h i)
          · exact hs.timed_other hw hj (h j)
        · exact ⟨h, Punctual.of_eq rfl⟩
    obtain ⟨h', hp'⟩ := ih ((splitAt_leads g i x).wellFormed hw) hstep.1
    exact ⟨h', hstep.2.trans hp'⟩

theorem feedCells_timed (hw : WellFormed g) (h : ∀ j, g.Timed j) (i : ℕ) :
    (∀ j, (g.feedCells i).Timed j) ∧ Punctual g (g.feedCells i) := by
  have hloop : ∀ (l : List CellPtr) (g : Game ℝ), WellFormed g → (∀ c ∈ l, g.Owned c) →
      (∀ j, g.Timed j) → (∀ j, (l.foldl feedCell g).Timed j) ∧
        Punctual g (l.foldl feedCell g) := by
    intro l
    induction l with
    | nil => exact fun g _ _ h => ⟨h, Punctual.of_eq rfl⟩
    | cons cell l ih =>
      intro g hw hl h
      have ho := hl cell List.mem_cons_self
      have hs := feedCell_sprouts g i ho.1
      have hleads := feedCell_leads g cell ho
      obtain ⟨h', hp'⟩ := ih _ (hleads.wellFormed hw)
        (fun c hc => (hl c (List.mem_cons_of_mem _ hc)).mono (hleads.frame hw))
        fun j => hs.timed_nil hw (h j)
      exact ⟨h', hs.punctual.trans hp'⟩
  exact hloop _ g hw (hw.owned i) h

theorem modifyPlayer_timed (h : ∀ j, g.Timed j) (i : ℕ) (f : Player ℝ → Player ℝ)
    (hf : ∀ p, (f p).cells = p.cells) : ∀ j, (g.modifyPlayer i f).Timed j := fun j =>
  (h j).of_subset (cellsOf_modifyPlayer g i f hf j ▸ List.Sublist.refl _) fun _ _ hset => hset

theorem commands_timed (hw : WellFormed g) (h : ∀ j, g.Timed j) {i : ℕ} {p : Player ℝ}
    (hp : g.players[i]? = some p) :
    (∀ j, (g.commands i p).Timed j) ∧ Punctual g (g.commands i p) := by
  have hsplit : (∀ j, (g.splitCommand i p).Timed j) ∧ Punctual g (g.splitCommand i p) := by
    unfold splitCommand
    split_ifs
    · exact splitCells_timed (hw.modifyPlayer i lowerSplit fun _ => rfl)
        (modifyPlayer_timed h i lowerSplit fun _ => rfl) i
    · exact ⟨h, Punctual.of_eq rfl⟩
  have hw' := (splitCommand_spec hw hp).1
  unfold commands feedCommand
  split_ifs
  · obtain ⟨hfeed, hpunctual⟩ := feedCells_timed (hw'.modifyPlayer i lowerFeed fun _ => rfl)
      (modifyPlayer_timed hsplit.1 i lowerFeed fun _ => rfl) i
    exact ⟨hfeed, hsplit.2.trans hpunctual⟩
  · exact hsplit

end Game

open Game

/-- No virus pops the only cell of a player, its combine time not set, into small balls alone. -/
def Obs.PopsTimed : Obs ℝ → Prop
  | .collided before _ => before.PopsTimed
  | _ => True

/-- The times are set when they are read, unless such a pop has happened. -/
def Timely (s : Sys ℝ) : Prop := (∀ o ∈ s.trace, o.PopsTimed) →
  (∀ j, s.game.Timed j) ∧ ∀ c ∈ s.game.calls, ¬ c.Premature

theorem Timely.next {s s' : Sys ℝ} (h : Timely s) (os : List (Obs ℝ))
    (htrace : s'.trace = s.trace ++ os) (htimed : (∀ o ∈ os, o.PopsTimed) →
      (∀ j, s.game.Timed j) → (∀ j, s'.game.Timed j) ∧ Punctual s.game s'.game) : Timely s' := by
  intro hall
  rw [htrace] at hall
  obtain ⟨ht, hc⟩ := h fun o ho => hall o (List.mem_append_left _ ho)
  obtain ⟨ht', hp⟩ := htimed (fun o ho => hall o (List.mem_append_right _ ho)) ht
  refine ⟨ht', fun c hc' => ?_⟩
  rcases hp c hc' with hc' | hc'
  · exact hc c hc'
  · exact hc'

theorem Lulls.timed {s s' : Sys ℝ} (h : Lulls s s') (hw : s.game.WellFormed)
    (ht : ∀ j, s.game.Timed j) (j : ℕ) : s'.game.Timed j := by
  rcases hq : s'.game.players[j]? with - | q
  · exact Or.inl (by simp [cellsOf, hq])
  · have hcells : s'.game.cellsOf j = q.cells := by simp [cellsOf, hq]
    rcases h.players q (List.mem_of_getElem? hq) with ⟨p, hp, hpc⟩ | ⟨hone, -⟩
    · obtain ⟨i, hi⟩ := List.mem_iff_getElem?.mp hp
      have hcells' : s.game.cellsOf i = p.cells := by simp [cellsOf, hi]
      refine (ht i).of_subset (by rw [hcells, hcells', hpc]) fun c hc hset => ?_
      rw [(h.cell c (hw.owned i c hc).1).2]
      exact hset
    · exact Or.inl (by rw [hcells, hone]; rfl)

theorem Game.Motion.punctual {moved : List CellPtr} {g g' : Game ℝ} (h : Motion moved g g') :
    Punctual g g' := fun c hc => by
  obtain ⟨cs, hcalls, hcs⟩ := h.calls
  rw [hcalls] at hc
  rcases List.mem_append.mp hc with hc | hc
  · exact Or.inl hc
  · obtain ⟨p, -, rfl⟩ := hcs c hc
    exact Or.inr id

theorem Move.timely {a b : Stage} {s s' : Sys ℝ} (h : Move (a, s) (b, s')) (hi : Invariant a s)
    (ht : Timely s) : Timely s' := by
  have hw := hi.wellFormed
  have hlulls : Lulls s s' → Timely s' := fun hl => by
    obtain ⟨os, htrace, -⟩ := hl.trace
    exact ht.next os htrace fun _ hall => ⟨hl.timed hw hall, Punctual.of_eq hl.calls⟩
  cases h with
  | begin _ clock =>
    have hm := updateDynamic_motion (s.game.beginTick clock) (clock - s.game.currentTime)
    refine ht.next [] (List.append_nil _).symm fun _ hall =>
      ⟨fun j => (hall j).of_subset ?_ fun c hc hset => ?_, hm.punctual⟩
    · exact (cellsOf_congr hm.players j).symm ▸ List.Sublist.refl _
    · -- the cells of `DynamicMap` are no player's
      have hnot : c ∉ s.game.dynamicMap := fun hd => (hw.dynamic_only hd).2 j hc
      show (((s.game.beginTick clock).updateDynamic _).heap c).combineSet = true
      rw [hm.others c hnot]
      exact hset
  | kick _ x hx => exact hlulls (Move.lulls (.kick s x hx) hi)
  | collide _ =>
    exact ht.next [.collided s.game s.game.collisionPhase] rfl fun hsafe hall =>
      collisionPhase_timed hw (hsafe _ List.mem_cons_self) hall
  | drive _ dt =>
    have hm := drive_motion s.game dt
    refine ht.next [] (List.append_nil _).symm fun _ hall =>
      ⟨fun j => (hall j).of_subset ?_ fun c _ hset => ?_, hm.punctual⟩
    · exact (cellsOf_congr hm.players j).symm ▸ List.Sublist.refl _
    · exact (s.game.drive_combineSet dt c).trans hset
  | update _ n p hp =>
    unfold Sys.updateAt
    rw [hp]
    refine ht.next _ rfl fun _ hall => ?_
    obtain ⟨htimed, hpunctual⟩ := commands_timed hw hall hp
    refine ⟨fun j => (htimed j).of_subset ?_ fun c _ hset => hset, hpunctual⟩
    exact (after_cellsOf hw hp j).symm ▸ List.Sublist.refl _
  | replay _ n hn =>
    have hrest := (parseEvents_prunes hi.additions).rest
    have hcalls : s.game.parseEvents.calls = s.game.calls := by rw [hrest]
    have hheap : s.game.parseEvents.heap = s.game.heap := by rw [hrest]
    have hplayers : s.game.parseEvents.players = s.game.players := by rw [hrest]
    refine ht.next [.ticked s.game.parseEvents] rfl fun _ hall =>
      ⟨fun j => ?_, Punctual.of_eq hcalls⟩
    refine (hall j).of_subset ((cellsOf_congr hplayers j).symm ▸ List.Sublist.refl _)
      fun c _ hset => ?_
    show (s.game.parseEvents.heap c).combineSet = true
    rw [hheap]
    exact hset
  | send _ clock accepts i => exact hlulls (Move.lulls (.send s clock accepts i) hi)
  | join _ w grown hnew => exact hlulls (Move.lulls (.join s w grown hnew) hi)
  | receive _ w packet beyond => exact hlulls (Move.lulls (.receive s w packet beyond) hi)
  | close _ x hx => exact hlulls (Move.lulls (.close s x hx) hi)

theorem Timely.start {s : Sys ℝ} (hplayers : s.game.players = []) (hcalls : s.game.calls = []) :
    Timely s := by
  refine fun _ => ⟨fun j => Or.inl (by simp [cellsOf, hplayers]), fun c hc => ?_⟩
  rw [hcalls] at hc
  cases hc

theorem Run.timely (r : Run ℝ) : Timely r.final :=
  Run.induction (P := fun _ s => Timely s)
    (fun rand stale => Timely.start (mapInit_started rand stale).players
      (mapInit_started rand stale).calls) (fun _ _ _ _ hi hm ht => hm.timely hi ht) r

theorem Run.premature (r : Run ℝ) (h : ∃ o ∈ r.final.trace, ¬ o.PopsTimed) :
    ∃ c ∈ r.final.game.calls, c.Premature := by
  obtain ⟨o, ho, hpops⟩ := h
  cases o with
  | collided g g' =>
    obtain ⟨hw, rfl, hcalls⟩ := r.collided ho
    obtain ⟨c, hc, hearly⟩ := collisionPhase_premature hw hpops
    exact ⟨c, hcalls.subset hc, hearly⟩
  | _ => exact absurd trivial hpops

/-- In every run, every `CombineTime` has been assigned when it is read, if and only if no virus has
popped the only cell of a player, its time not set, into small balls alone. -/
theorem times_set_when_read (r : Run ℝ) :
    (∀ c ∈ r.final.game.calls, ¬ c.Premature) ↔ ∀ o ∈ r.final.trace, o.PopsTimed := by
  constructor
  · intro hall o ho
    by_contra hpops
    obtain ⟨c, hc, hearly⟩ := r.premature ⟨o, ho, hpops⟩
    exact hall c hc hearly
  · exact fun hall => (r.timely hall).2

theorem Game.Poised.pops_unset {g : Game ℝ} {p : Player ℝ} (h : g.Poised p) : ¬ g.PopsTimed := by
  intro hall
  have hbefore : (g.beforeDynamic 0).Poised p :=
    h.same h.static_quiet.told.same (h.static_quiet.players.trans h.players) rfl
  obtain ⟨hfirst, hbig, hvirus, hcells, hsize⟩ := hbefore.eats
  have hone : 0 < g.players.length := by
    rw [h.players]
    exact Nat.one_pos
  refine hall 0 hone (.inner (g.beforeDynamic 0) Sys.firstCell 0 0) (.single ?_) ?_
  · simp [DynamicPoint.next, hcells]
  · refine ⟨maxFood, hfirst, hbig, hvirus, hcells, hbefore.combine, ?_, ?_⟩
    · rw [hsize]
      norm_num
    · rw [hsize, smallBallCount_fifteen]
      exact Nat.succ_ne_zero 14

/-- The player that has fed pops without a time. -/
theorem time_not_set : ¬ ∀ c ∈ feeding.final.game.calls, ¬ c.Premature := by
  obtain ⟨g, p, hpoised, hcollided⟩ := feeding_pounces
  obtain ⟨c, hc, hearly⟩ := feeding.premature ⟨_, hcollided, hpoised.pops_unset⟩
  exact fun hall => hall c hc hearly

end Agar
