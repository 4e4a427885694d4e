import Agar.Popping
import Agar.Passes
import Agar.Orders
import Agar.Reports
import Agar.Divisions

/-! The cameras: `CalculateCamera` divides by the sum of the radii of the player's cells and
`UpdateView` by their number. A player whose last cell is eaten stays in `Players`. -/

namespace Agar
open Trace

namespace Game
variable {g g' : Game ℝ} {touched : Set ℕ} {i j : ℕ}

/-- The player has a cell with a radius. -/
def Stocked (g : Game ℝ) (j : ℕ) : Prop := ∃ c ∈ g.cellsOf j, 0 < (g.heap c).radius

theorem Stocked.retains (h : g.Stocked j) (hr : Retains (fun c => 0 < c.radius) touched g g')
    (hj : j ∉ touched) : g'.Stocked j := by
  obtain ⟨c, hc, hradius⟩ := h
  exact ⟨c, by rwa [hr.others j hj], hr.lasting c hradius⟩

theorem Stocked.of_eq (h : g.Stocked j) (hcells : g'.cellsOf i = g.cellsOf j)
    (hradius : ∀ c ∈ g.cellsOf j, (g'.heap c).radius = (g.heap c).radius) : g'.Stocked i := by
  obtain ⟨c, hc, hpos⟩ := h
  exact ⟨c, by rwa [hcells], by rwa [hradius c hc]⟩

theorem stocked_congr (hcells : g'.cellsOf i = g.cellsOf j)
    (hradius : ∀ c ∈ g.cellsOf j, (g'.heap c).radius = (g.heap c).radius) :
    g'.Stocked i ↔ g.Stocked j := by
  refine ⟨fun h => h.of_eq hcells.symm fun c hc => ?_, fun h => h.of_eq hcells hradius⟩
  exact (hradius c (hcells ▸ hc)).symm

theorem stocked_iff_mass (hw : WellFormed g) : g.Stocked j ↔ 0 < g.mass j := by
  have hsize : ∀ c ∈ g.cellsOf j, 0 ≤ (g.heap c).size := fun c _ => Cell.size_nonneg _
  constructor
  · rintro ⟨c, hc, hradius⟩
    have hle := List.single_le_sum (l := (g.cellsOf j).map fun c => (g.heap c).size)
      (fun s hs => by obtain ⟨d, hd, rfl⟩ := List.mem_map.mp hs; exact hsize d hd) _
      (List.mem_map_of_mem hc)
    exact (Cell.size_pos hradius).trans_le hle
  · intro hmass
    by_contra hbare
    have hnone : ∀ s ∈ (g.cellsOf j).map fun c => (g.heap c).size, s = 0 := by
      intro s hs
      obtain ⟨c, hc, rfl⟩ := List.mem_map.mp hs
      have hflat : (g.heap c).radius = 0 := le_antisymm
        (not_lt.mp fun hpos => hbare ⟨c, hc, hpos⟩) (hw.radius c (hw.owned j c hc).1)
      simp [Cell.size, hflat]
    rw [mass, List.sum_eq_zero hnone] at hmass
    exact lt_irrefl _ hmass

theorem collideStatic_stocked (g : Game ℝ) (n : ℕ) (h : g.Stocked j) :
    (g.collideStatic n).Stocked j :=
  h.retains (collideStatic_retains Cell.lasting_radius g n) (Set.notMem_empty j)

theorem popVirus_stocked (hw : WellFormed g) {cell : CellPtr} (hcell : cell ∈ g.cellsOf i)
    (d : CellPtr) (hi : i < g.players.length) (hroom : (g.cellsOf i).length < 16)
    (h : g.Stocked j) : (g.popVirus i cell d).Stocked j := by
  have ho := hw.owned i cell hcell
  by_cases hij : j = i
  · subst hij
    have hheld : g.Held j := ⟨hi, hw.cells_nodup j, fun c hc => (hw.owned j c hc).1⟩
    rw [stocked_iff_mass hw] at h
    rw [stocked_iff_mass ((popVirus_leads ho hi).wellFormed hw)]
    rcases le_or_gt (g.heap cell).size 500 with hsmall | hbig
    · rwa [popVirus_mass_small hheld hcell d hsmall]
    · exact h.trans (popVirus_mass_big hheld hcell d hbig hroom)
  · obtain ⟨news, hnews, -⟩ := popVirus_sprouts g d (i := i) ho.1 hi
    refine h.of_eq (hnews.others j hij) fun c hc => ?_
    rw [hnews.heap c (hw.owned j c hc).1]
    rintro rfl
    exact hw.cells_disjoint j i hij c hc hcell

theorem collideDynamicWith_stocked (g : Game ℝ) (i : ℕ) (cell : CellPtr) (myLoop loop : ℕ)
    (hw : WellFormed g) (hi : i < g.players.length) (hcell : cell ∈ g.cellsOf i)
    (h : g.Stocked j) : (g.collideDynamicWith i cell myLoop loop).1.Stocked j := by
  have ho := hw.owned i cell hcell
  fun_induction collideDynamicWith g i cell myLoop loop with
  | case1 g loop hnone => exact h
  | case2 g loop d hd flag result hbig g' hpop =>
    have heat : Retains (fun c => 0 < c.radius) ∅ g g' := (retains_noteCollide g cell d).trans
      (eatDynamic_retains Cell.lasting_radius _ cell d loop)
    exact popVirus_stocked ((eatDynamic_leads ho hd).wellFormed hw) hcell d hi hpop.2
      (h.retains heat (Set.notMem_empty j))
  | case3 g loop d hd flag result hbig g' hpop ih =>
    have heat : Retains (fun c => 0 < c.radius) ∅ g g' := (retains_noteCollide g cell d).trans
      (eatDynamic_retains Cell.lasting_radius _ cell d loop)
    have hleads := eatDynamic_leads ho hd
    exact ih (hleads.wellFormed hw) hi hcell (h.retains heat (Set.notMem_empty j))
      (ho.mono (hleads.frame hw))
  | case4 g loop d hd flag result hbig hsmall =>
    -- a cell of `DynamicMap` is food or a virus, so it absorbs nothing
    refine absurd hsmall.2 (not_not.mpr ?_)
    rcases (hw.dynamic d (List.mem_of_getElem? hd)).2.2 with h | h
    · exact Or.inl (by rw [show flag = foodFlag from h]; rfl)
    · exact Or.inr (by rw [show flag = virusFlag from h]; rfl)
  | case5 g loop d hd flag result hbig hsmall ih =>
    have hlt := (hw.dynamic d (List.mem_of_getElem? hd)).2.1
    have hleads := leads_noteCollide ho.1 hlt
    exact ih (hleads.wellFormed hw) hi hcell h (ho.mono (hleads.frame hw))

theorem collideDynamic_stocked (hw : WellFormed g) (hi : i < g.players.length)
    (h : g.Stocked j) : (g.collideDynamic i).Stocked j := by
  have hfrom : ∀ (g : Game ℝ) myLoop, WellFormed g → i < g.players.length → g.Stocked j →
      (g.collideDynamicFrom i myLoop).Stocked j := by
    intro g myLoop
    fun_induction collideDynamicFrom g i myLoop with
    | case1 g myLoop hnone => exact fun _ _ h => h
    | case2 g myLoop cell hc hback ih =>
      intro hw hi h
      have hcell := List.mem_of_getElem? hc
      have hleads := collideDynamicWith_leads g i cell myLoop 0 (hw.owned i cell hcell) hi
      exact ih (hleads.wellFormed hw) (by rw [players_length (hleads.frame hw)]; exact hi)
        (collideDynamicWith_stocked g i cell myLoop 0 hw hi hcell h)
    | case3 g myLoop cell hc hback ih =>
      intro hw hi h
      have hcell := List.mem_of_getElem? hc
      have hleads := collideDynamicWith_leads g i cell myLoop 0 (hw.owned i cell hcell) hi
      exact ih (hleads.wellFormed hw) (by rw [players_length (hleads.frame hw)]; exact hi)
        (collideDynamicWith_stocked g i cell myLoop 0 hw hi hcell h)
  exact hfrom g 0 hw hi h

/-- Between the outer index and the inner one stands a cell with a radius. The scan does not come
back to it. -/
def Anchored (g : Game ℝ) (i : ℕ) (myLoop : ℤ) (loop : ℕ) : Prop :=
  ∃ n < loop, myLoop < n ∧ ∃ c, (g.cellsOf i)[n]? = some c ∧ 0 < (g.heap c).radius

theorem Anchored.stocked {myLoop : ℤ} {loop : ℕ} (h : g.Anchored i myLoop loop) : g.Stocked i := by
  obtain ⟨n, -, -, c, hc, hradius⟩ := h
  exact ⟨c, List.mem_of_getElem? hc, hradius⟩

/-- Either nothing has been absorbed and the cell is in its slot, or what absorbed it stands behind
the outer index. -/
def Scanning (g : Game ℝ) (i : ℕ) (cell : CellPtr) (myLoop : ℤ) (loop : ℕ) : Prop :=
  g.Anchored i myLoop loop ∨ g.Stocked i ∧ ∃ m < loop, myLoop = m ∧ (g.cellsOf i)[m]? = some cell

theorem Scanning.retains {cell : CellPtr} {myLoop : ℤ} {loop : ℕ}
    (h : g.Scanning i cell myLoop loop) (hr : Retains (fun c => 0 < c.radius) ∅ g g') :
    g'.Scanning i cell myLoop loop := by
  have hcells : g'.cellsOf i = g.cellsOf i := hr.others i (Set.notMem_empty i)
  rcases h with ⟨n, hn, hm, c, hc, hradius⟩ | ⟨hstocked, m, hm, hmyLoop, hcell⟩
  · exact Or.inl ⟨n, hn, hm, c, by rwa [hcells], hr.lasting c hradius⟩
  · exact Or.inr ⟨hstocked.retains hr (Set.notMem_empty i), m, hm, hmyLoop, by rwa [hcells]⟩

theorem Scanning.next {cell : CellPtr} {myLoop : ℤ} {loop : ℕ}
    (h : g.Scanning i cell myLoop loop) : g.Scanning i cell myLoop (loop + 1) := by
  rcases h with ⟨n, hn, hanchored⟩ | ⟨hstocked, m, hm, hslot⟩
  · exact Or.inl ⟨n, hn.trans (Nat.lt_succ_self loop), hanchored⟩
  · exact Or.inr ⟨hstocked, m, hm.trans (Nat.lt_succ_self loop), hslot⟩

theorem Scanning.eats {cell o : CellPtr} {myLoop : ℤ} {loop : ℕ}
    (h : g.Scanning i cell myLoop loop) (ho : (g.cellsOf i)[loop]? = some o)
    (hcell : 0 < (g.heap cell).radius) :
    (g.eatOwn i cell o loop).Scanning i cell myLoop loop := by
  have hr := eatOwn_retains Cell.lasting_radius g i cell o loop
  have hkept : ∀ n < loop, ((g.eatOwn i cell o loop).cellsOf i)[n]? = (g.cellsOf i)[n]? := by
    intro n hn
    rw [eatOwn_cellsOf g i loop cell o ho, List.getElem?_eraseIdx_of_lt hn]
  rcases h with ⟨n, hn, hm, c, hc, hradius⟩ | ⟨-, m, hm, hmyLoop, hslot⟩
  · exact Or.inl ⟨n, hn, hm, c, by rwa [hkept n hn], hr.lasting c hradius⟩
  · have hslot' : ((g.eatOwn i cell o loop).cellsOf i)[m]? = some cell := by rwa [hkept m hm]
    exact Or.inr ⟨⟨cell, List.mem_of_getElem? hslot', hr.lasting cell hcell⟩, m, hm, hmyLoop,
      hslot'⟩

theorem anchored_absorbs {cell o : CellPtr} {myLoop : ℤ} {loop : ℕ} (hm : -1 ≤ myLoop)
    (hl : myLoop < loop) (ho : (g.cellsOf i)[loop]? = some o) (hradius : 0 < (g.heap o).radius) :
    (g.absorbOwn i cell o myLoop).Anchored i (max (-1) (myLoop - 1)) (loop + 1) := by
  have hlast := (absorbOwn_retains Cell.lasting_radius g i cell o myLoop).lasting o hradius
  have hlt := getElem?_lt ho
  rcases lt_or_ge myLoop 0 with hneg | hpos
  · have hcells : (g.absorbOwn i cell o myLoop).cellsOf i = g.cellsOf i := by
      unfold absorbOwn eraseCellAt
      rw [if_neg fun hin => absurd hin.1 (not_le.mpr hneg)]
      rfl
    exact ⟨loop, Nat.lt_succ_self loop, by omega, o, by rwa [hcells], hlast⟩
  · obtain ⟨m, rfl⟩ := Int.eq_ofNat_of_zero_le hpos
    have hcells : (g.absorbOwn i cell o m).cellsOf i = (g.cellsOf i).eraseIdx m := by
      unfold absorbOwn eraseCellAt
      rw [if_pos ⟨hpos, hl.trans (Int.ofNat_lt.mpr hlt)⟩]
      exact cellsOf_setCells_self _ _ _ (lt_of_cellsOf ho)
    refine ⟨loop - 1, by omega, by omega, o, ?_, hlast⟩
    rw [hcells, List.getElem?_eraseIdx_of_ge (by omega), Nat.sub_add_cancel (by omega)]
    exact ho

/-- The cell and those it is compared with have no negative radius. -/
def Unsigned (g : Game ℝ) (i : ℕ) (cell : CellPtr) : Prop :=
  ∀ c ∈ cell :: g.cellsOf i, 0 ≤ (g.heap c).radius

theorem Unsigned.retains {cell : CellPtr} (h : g.Unsigned i cell)
    (hr : Retains (fun c => 0 ≤ c.radius) touched g g') : g'.Unsigned i cell := fun c hc =>
  hr.lasting c (h c (List.cons_subset_cons cell (hr.cells i).subset hc))

theorem Unsigned.noteSelf {cell : CellPtr} (h : g.Unsigned i cell) (a b : CellPtr) :
    (g.noteSelf a b).Unsigned i cell := by
  have hr : Retains (fun c => 0 ≤ c.radius) ∅ g (g.noteSelf a b) := noteSelf_retains g a b
  exact h.retains hr

theorem collideSelfWith_stocked (g : Game ℝ) (i : ℕ) (cell : CellPtr) (myLoop : ℤ) (loop : ℕ)
    (hu : g.Unsigned i cell) (hm : -1 ≤ myLoop) (hl : myLoop < loop)
    (h : g.Scanning i cell myLoop loop) :
    (g.collideSelfWith i cell myLoop loop).1.Stocked i := by
  fun_induction collideSelfWith g i cell myLoop loop with
  | case1 g myLoop loop hnone =>
    rcases h with hanchored | ⟨hstocked, -⟩
    · exact hanchored.stocked
    · exact hstocked
  | case2 g myLoop loop o ho result g' hready hover hbig ih =>
    have hnote : Retains (fun c => 0 < c.radius) ∅ g g' := noteSelf_retains g cell o
    have hcells : g'.cellsOf i = g.cellsOf i := hnote.others i (Set.notMem_empty i)
    have hsolid : 0 < (g.heap cell).radius :=
      (hu o (List.mem_cons_of_mem cell (List.mem_of_getElem? ho))).trans_lt hbig
    have hu' : g'.Unsigned i cell := hu.noteSelf cell o
    refine ih (hu'.retains (eatOwn_retains Cell.lasting_unsigned g' i cell o loop)) hm hl
      (Scanning.eats ?_ (by rw [hcells]; exact ho) (hnote.lasting cell hsolid))
    exact h.retains hnote
  | case3 g myLoop loop o ho result g' hready hover hbig ih =>
    have hnote : Retains (fun c => 0 < c.radius) ∅ g g' := noteSelf_retains g cell o
    have hcells : g'.cellsOf i = g.cellsOf i := hnote.others i (Set.notMem_empty i)
    have hsolid : 0 < (g.heap o).radius := Cell.solid_of_rank_le hover (not_lt.mp hbig)
      (hu cell List.mem_cons_self)
    have hu' : g'.Unsigned i cell := hu.noteSelf cell o
    exact ih (hu'.retains (absorbOwn_retains Cell.lasting_unsigned g' i cell o myLoop))
      (le_max_left _ _) (by push_cast; omega) (Or.inl (anchored_absorbs hm hl
      (by rw [hcells]; exact ho) (hnote.lasting o hsolid)))
  | case4 g myLoop loop o ho result g' hready hover ih =>
    exact ih (hu.noteSelf cell o) hm (by push_cast; omega)
      (h.retains (noteSelf_retains g cell o)).next
  | case5 g myLoop loop o ho result g' hready htouch ih =>
    have hr : Retains (fun c => 0 < c.radius) ∅ g (g'.pushApart cell o) :=
      (noteSelf_retains g cell o).trans (pushApart_retains Cell.lasting_radius g' cell o)
    have hu' : g'.Unsigned i cell := hu.noteSelf cell o
    have hpush : Retains (fun c => 0 ≤ c.radius) ∅ g' (g'.pushApart cell o) :=
      pushApart_retains Cell.lasting_unsigned g' cell o
    exact ih (hu'.retains hpush) hm (by push_cast; omega) (h.retains hr).next
  | case6 g myLoop loop o ho result g' hready htouch ih =>
    exact ih (hu.noteSelf cell o) hm (by push_cast; omega)
      (h.retains (noteSelf_retains g cell o)).next

theorem collideSelf_stocked (hw : WellFormed g) (i : ℕ) (h : g.Stocked j) :
    (g.collideSelf i).Stocked j := by
  by_cases hij : j = i
  · subst hij
    have hfrom : ∀ (g : Game ℝ) myLoop, WellFormed g → g.Stocked j →
        (g.collideSelfFrom j myLoop).Stocked j := by
      intro g myLoop
      fun_induction collideSelfFrom g j myLoop with
      | case1 g myLoop hnone => exact fun _ h => h
      | case2 g myLoop cell hc r ih =>
        intro hw h
        have hcell := List.mem_of_getElem? hc
        have hunsigned : g.Unsigned j cell := fun c hmem =>
          hw.radius c (hw.owned j c ((List.mem_cons.mp hmem).elim (fun heq => heq ▸ hcell) id)).1
        have hleads := collideSelfWith_leads g j cell myLoop (myLoop + 1)
          (hw.owned j cell hcell) (by push_cast; omega) (Or.inl ⟨by omega, hc⟩)
        exact ih (hleads.wellFormed hw) (collideSelfWith_stocked g j cell myLoop (myLoop + 1)
          hunsigned (by omega) (by omega) (Or.inr ⟨h, myLoop, Nat.lt_succ_self _, rfl, hc⟩))
    exact hfrom g 0 hw h
  · exact h.retains (collideSelf_retains Cell.lasting_radius g i) hij

/-- The first loop of the collision phase. -/
def ownPasses {K : Type} [Field K] [LinearOrder K] [Arith K] [FloorRing K] (g : Game K) : Game K :=
  (List.range g.players.length).foldl collideOwn g

theorem ownPasses_stocked (hw : WellFormed g) (h : g.Stocked j) : g.ownPasses.Stocked j := by
  have hall : ∀ is : List ℕ, (∀ i ∈ is, i < g.players.length) →
      (is.foldl collideOwn g).Stocked j := by
    intro is
    induction is using List.reverseRecOn with
    | nil => exact fun _ => h
    | append_singleton is i ih =>
      intro his
      have hbefore := ih fun k hk => his k (List.mem_append_left _ hk)
      have hleads := collideOwns_leads is g fun k hk => his k (List.mem_append_left _ hk)
      have hi : i < (is.foldl collideOwn g).players.length := by
        rw [players_length (hleads.frame hw)]
        exact his i (List.mem_append_right _ (List.mem_singleton_self i))
      rw [List.foldl_append]
      have hstatic := collideStatic_leads (is.foldl collideOwn g) i
      have hw' := hstatic.wellFormed (hleads.wellFormed hw)
      have hi' : i < ((is.foldl collideOwn g).collideStatic i).players.length := by
        rw [players_length (hstatic.frame (hleads.wellFormed hw))]
        exact hi
      exact collideSelf_stocked ((collideDynamic_leads _ i hi').wellFormed hw') i
        (collideDynamic_stocked hw' hi' (collideStatic_stocked _ i hbefore))
  exact hall _ fun i hi => List.mem_range.mp hi

/-- The cell in slot `n` of player `k` is taken by another one. -/
structure Taken (g : Game ℝ) (k n : ℕ) (g' : Game ℝ) : Prop where
  index : k < g.players.length
  length : g'.players.length = g.players.length
  cells : g'.cellsOf k = (g.cellsOf k).eraseIdx n
  others : ∀ j, j ≠ k → g'.cellsOf j = g.cellsOf j
  radius : ∀ c, 0 < (g'.heap c).radius ↔ 0 < (g.heap c).radius

theorem Taken.stocked_other {k n : ℕ} (h : Taken g k n g') (hj : j ≠ k) :
    g'.Stocked j ↔ g.Stocked j := by
  unfold Stocked
  simp only [h.others j hj, h.radius]

theorem Taken.stocked {k n : ℕ} (h : Taken g k n g') :
    g'.Stocked k ↔ ∃ c ∈ (g.cellsOf k).eraseIdx n, 0 < (g.heap c).radius := by
  unfold Stocked
  simp only [h.cells, h.radius]

theorem Taken.bare {k n : ℕ} (h : Taken g k n g') (hbare : ¬ g.Stocked j) : ¬ g'.Stocked j := by
  by_cases hj : j = k
  · subst hj
    rw [h.stocked]
    rintro ⟨c, hc, hradius⟩
    exact hbare ⟨c, (List.eraseIdx_sublist _ _).subset hc, hradius⟩
  · rwa [h.stocked_other hj]

theorem addSize_radius (g : Game ℝ) {p : CellPtr} {s : ℝ} (hs : 0 ≤ s)
    (hp : 0 < (g.heap p).radius) (c : CellPtr) :
    0 < ((g.addSize p s).heap c).radius ↔ 0 < (g.heap c).radius := by
  unfold addSize
  rw [setCell_heap]
  split_ifs with hc
  · rw [hc]
    exact iff_of_true (Cell.lasting_radius.addSize _ s hs hp) hp
  · rfl

theorem eatOther_taken {x loop : ℕ} {cell o : CellPtr} (ho : (g.cellsOf x)[loop]? = some o)
    (hcell : 0 < (g.heap cell).radius) :
    Taken g x loop ((g.noteCollide cell o).eatOther x cell o loop) where
  index := lt_of_cellsOf ho
  length := eraseCell_length _ x loop
  cells := cellsOf_setCells_self _ _ _ (lt_of_cellsOf ho)
  others := fun _ hj => cellsOf_setCells_ne _ _ hj.symm
  radius := addSize_radius (g.noteCollide cell o) (Cell.size_nonneg _) hcell

theorem absorbOther_taken {myLoop : ℕ} {cell o : CellPtr}
    (hcell : (g.cellsOf i)[myLoop]? = some cell) (ho : 0 < (g.heap o).radius) :
    Taken g i myLoop ((g.noteCollide cell o).absorbOther i cell o myLoop) where
  index := lt_of_cellsOf hcell
  length := eraseCell_length _ i myLoop
  cells := cellsOf_setCells_self _ _ _ (lt_of_cellsOf hcell)
  others := fun _ hj => cellsOf_setCells_ne _ _ hj.symm
  radius := addSize_radius (g.noteCollide cell o) (Cell.size_nonneg _) ho

end Game

namespace OtherPoint
open Game

/-- The next round takes the last cell with a radius from a player. -/
def TakesLast : OtherPoint ℝ → Prop
  | .outer _ _ _ _ => False
  | .inner g i x cell myLoop loop => ∃ o, (g.cellsOf x)[loop]? = some o ∧
      ((g.heap cell).collide (g.heap o) = .bigger ∧
          (∀ c ∈ (g.cellsOf x).eraseIdx loop, ¬ 0 < (g.heap c).radius) ∨
        (g.heap cell).collide (g.heap o) = .smaller ∧
          ∀ c ∈ (g.cellsOf i).eraseIdx myLoop, ¬ 0 < (g.heap c).radius)

/-- What a round makes of the cells of the players. -/
inductive Round (pt : OtherPoint ℝ) (g' : Game ℝ) : Prop
  | stay (hplayers : g'.players = pt.game.players) (hheap : g'.heap = pt.game.heap)
      (hlast : ¬ pt.TakesLast)
  | take (k n : ℕ) (htaken : Taken pt.game k n g')
      (hlast : pt.TakesLast ↔ ∀ c ∈ (pt.game.cellsOf k).eraseIdx n, ¬ 0 < (pt.game.heap c).radius)

theorem retains_of_next {P : Cell ℝ → Prop} (hP : Cell.Lasting P) {pt pt' : OtherPoint ℝ}
    (hn : pt.next = some pt') : Retains P Set.univ pt.game pt'.game := by
  cases pt with
  | outer g i x myLoop =>
    unfold OtherPoint.next at hn
    dsimp only at hn
    split_ifs at hn
    · rcases hcell : (g.cellsOf i)[myLoop]? with - | cell <;>
        · simp only [hcell, Option.some.injEq] at hn
          rw [← hn]
          exact Retains.refl g
    · rw [← Option.some.inj hn]
      exact Retains.refl g
  | inner g i x cell myLoop loop =>
    unfold OtherPoint.next at hn
    dsimp only at hn
    rcases ho : (g.cellsOf x)[loop]? with - | o
    · simp only [ho, Option.some.injEq] at hn
      rw [← hn]
      exact Retains.refl g
    · simp only [ho] at hn
      have hnote : Retains P Set.univ g (g.noteCollide cell o) := retains_noteCollide g cell o
      split_ifs at hn
      · rw [← Option.some.inj hn]
        exact hnote.trans ((eatOther_retains hP _ i x cell o loop).mono (Set.subset_univ _))
      · rw [← Option.some.inj hn]
        exact hnote.trans ((absorbOther_retains hP _ i x cell o myLoop).mono (Set.subset_univ _))
      · rw [← Option.some.inj hn]
        exact hnote

theorem retains_of_leads {P : Cell ℝ → Prop} (hP : Cell.Lasting P) {pt pt' : OtherPoint ℝ}
    (h : Leads pt pt') : Retains P Set.univ pt.game pt'.game := by
  induction h with
  | refl => exact Retains.refl _
  | tail _ hn ih => exact ih.trans (retains_of_next hP hn)

theorem round_of_next {pt pt' : OtherPoint ℝ} (h : pt.InRange)
    (hu : ∀ i, ∀ c ∈ pt.game.cellsOf i, 0 ≤ (pt.game.heap c).radius)
    (hn : pt.next = some pt') : pt.Round pt'.game := by
  cases pt with
  | outer g i x myLoop =>
    have hgame : pt'.game = g := by
      unfold OtherPoint.next at hn
      dsimp only at hn
      split_ifs at hn
      · rcases hcell : (g.cellsOf i)[myLoop]? with - | cell <;>
          · simp only [hcell, Option.some.injEq] at hn
            rw [← hn]
            rfl
      · rw [← Option.some.inj hn]
        rfl
    rw [hgame]
    exact .stay rfl rfl id
  | inner g i x cell myLoop loop =>
    obtain ⟨-, -, hcell⟩ := h
    unfold OtherPoint.next at hn
    dsimp only at hn
    rcases ho : (g.cellsOf x)[loop]? with - | o
    · simp only [ho, Option.some.injEq] at hn
      rw [← hn]
      refine .stay rfl rfl ?_
      rintro ⟨o, ho', -⟩
      rw [ho] at ho'
      cases ho'
    · simp only [ho] at hn
      have hlast : (inner g i x cell myLoop loop).TakesLast ↔
          (g.heap cell).collide (g.heap o) = .bigger ∧
            (∀ c ∈ (g.cellsOf x).eraseIdx loop, ¬ 0 < (g.heap c).radius) ∨
          (g.heap cell).collide (g.heap o) = .smaller ∧
            ∀ c ∈ (g.cellsOf i).eraseIdx myLoop, ¬ 0 < (g.heap c).radius := by
        simp only [TakesLast, ho, Option.some.injEq, exists_eq_left']
      split_ifs at hn with hbig hsmall
      · rw [← Option.some.inj hn]
        have hsolid : 0 < (g.heap cell).radius :=
          Cell.solid_of_bigger hbig (hu i cell (List.mem_of_getElem? hcell))
        refine .take x loop (eatOther_taken ho hsolid) (hlast.trans ?_)
        simp only [hbig, true_and, reduceCtorEq, false_and, or_false]
        rfl
      · rw [← Option.some.inj hn]
        have hsolid : 0 < (g.heap o).radius := Cell.solid_of_rank (by rw [hsmall]; decide) hbig
          (hu i cell (List.mem_of_getElem? hcell)) (hu x o (List.mem_of_getElem? ho))
        refine .take i myLoop (absorbOther_taken hcell hsolid)
          (hlast.trans ?_)
        simp only [hsmall, true_and, reduceCtorEq, false_and, false_or]
        rfl
      · rw [← Option.some.inj hn]
        refine .stay rfl rfl fun htakes => ?_
        rcases hlast.mp htakes with ⟨hbig', -⟩ | ⟨hsmall', -⟩
        · exact hbig hbig'
        · exact hsmall hsmall'

variable {pt : OtherPoint ℝ} {g' : Game ℝ} {j : ℕ}

theorem Round.length (h : pt.Round g') : g'.players.length = pt.game.players.length := by
  cases h with
  | stay hplayers hheap hlast => rw [hplayers]
  | take k n htaken hlast => exact htaken.length

theorem Round.stocked (h : pt.Round g') (hsafe : ¬ pt.TakesLast) (hj : pt.game.Stocked j) :
    g'.Stocked j := by
  cases h with
  | stay hplayers hheap hlast =>
    exact hj.of_eq (cellsOf_congr hplayers j) fun c _ => by rw [hheap]
  | take k n htaken hlast =>
    by_cases hjk : j = k
    · rw [hjk, htaken.stocked]
      rw [hlast] at hsafe
      push Not at hsafe
      exact hsafe
    · exact (htaken.stocked_other hjk).mpr hj

theorem Round.bare (h : pt.Round g') (hj : ¬ pt.game.Stocked j) : ¬ g'.Stocked j := by
  cases h with
  | stay hplayers hheap hlast =>
    rwa [stocked_congr (cellsOf_congr hplayers j) fun c _ => by rw [hheap]]
  | take k n htaken hlast => exact htaken.bare hj

theorem Round.takes (h : pt.Round g') (htakes : pt.TakesLast) :
    ∃ j < pt.game.players.length, ¬ g'.Stocked j := by
  cases h with
  | stay hplayers hheap hlast => exact absurd htakes hlast
  | take k n htaken hlast =>
    refine ⟨k, htaken.index, ?_⟩
    rw [htaken.stocked]
    rintro ⟨c, hc, hradius⟩
    exact hlast.mp htakes c hc hradius

theorem onward {g : Game ℝ} (h : Leads (.outer g 0 1 0) pt) :
    ∃ i x, Leads pt (.outer g.othersPass i x 0) := by
  obtain ⟨i, x, hend, hlast⟩ := pass_leads g
  have hunique : Relator.RightUnique fun a b : OtherPoint ℝ => a.next = some b :=
    fun a b c hb hc => Option.some.inj (hb.symm.trans hc)
  rcases Relation.ReflTransGen.total_of_right_unique hunique h hend with hpath | hpath
  · exact ⟨i, x, hpath⟩
  · rcases Relation.ReflTransGen.cases_head hpath with heq | ⟨q, hq, -⟩
    · exact ⟨i, x, heq ▸ .refl⟩
    · rw [hlast] at hq
      cases hq

end OtherPoint

namespace Game
variable {g : Game ℝ} {j : ℕ}

/-- No player loses the last cell with a radius to another player. -/
def SparesLast (g : Game ℝ) : Prop :=
  ∀ pt, OtherPoint.Leads (.outer g.ownPasses 0 1 0) pt → ¬ pt.TakesLast

theorem collisionPhase_eq (g : Game ℝ) : g.collisionPhase = g.ownPasses.othersPass := rfl

theorem ownPasses_leads (g : Game ℝ) : Leads g g.ownPasses :=
  collideOwns_leads _ g fun _ hi => List.mem_range.mp hi

theorem othersPass_round (hw : WellFormed g) {pt pt' : OtherPoint ℝ}
    (h : OtherPoint.Leads (.outer g.ownPasses 0 1 0) pt) (hn : pt.next = some pt') :
    pt.Round pt'.game := by
  have hw' := (ownPasses_leads g).wellFormed hw
  let b : Board := ⟨g.ownPasses, hw'.stored_nodup⟩
  have hvisits : b.VisitsOthers pt := h
  have hkept := OtherPoint.retains_of_leads Cell.lasting_unsigned h
  refine OtherPoint.round_of_next hvisits.steady.inRange (fun i c hc => ?_) hn
  exact hkept.lasting c (hw'.radius c (hw'.owned i c ((hkept.cells i).subset hc)).1)

theorem collisionPhase_stocked (hw : WellFormed g) (hsafe : g.SparesLast) (h : g.Stocked j) :
    g.collisionPhase.Stocked j := by
  obtain ⟨i, x, hend, -⟩ := OtherPoint.pass_leads g.ownPasses
  have hall : ∀ pt, OtherPoint.Leads (.outer g.ownPasses 0 1 0) pt → pt.game.Stocked j := by
    intro pt hpt
    induction hpt with
    | refl => exact ownPasses_stocked hw h
    | tail hpt hn ih => exact (othersPass_round hw hpt hn).stocked (hsafe _ hpt) ih
  exact hall _ hend

theorem collisionPhase_bare (hw : WellFormed g) (h : ¬ g.SparesLast) :
    ∃ j < g.collisionPhase.players.length, ¬ g.collisionPhase.Stocked j := by
  unfold SparesLast at h
  push Not at h
  obtain ⟨pt, hpt, htakes⟩ := h
  obtain ⟨i, x, hend⟩ := OtherPoint.onward hpt
  rcases Relation.ReflTransGen.cases_head hend with heq | ⟨pt', hn, hrest⟩
  · rw [heq] at htakes
    exact absurd htakes id
  have hround := othersPass_round hw hpt hn
  obtain ⟨j, hj, hbare⟩ := hround.takes htakes
  have hall : ∀ q, OtherPoint.Leads pt' q →
      q.game.players.length = pt'.game.players.length ∧ ¬ q.game.Stocked j := by
    intro q hq
    induction hq with
    | refl => exact ⟨rfl, hbare⟩
    | tail hq hn' ih =>
      have hround' := othersPass_round hw ((hpt.tail hn).trans hq) hn'
      exact ⟨hround'.length.trans ih.1, hround'.bare ih.2⟩
  obtain ⟨hlength, hbare'⟩ := hall _ hrest
  refine ⟨j, ?_, hbare'⟩
  rw [collisionPhase_eq]
  have hlength' : g.ownPasses.othersPass.players.length = pt'.game.players.length := hlength
  rw [hlength', hround.length]
  exact hj

theorem Cell.radius_pos_iff {c : Cell ℝ} (h : 0 ≤ c.radius) : 0 < c.radius ↔ 0 < c.size := by
  refine ⟨Cell.size_pos, fun hsize => lt_of_le_of_ne h fun hzero => ?_⟩
  rw [Cell.size, ← hzero, zero_mul, zero_mul] at hsize
  exact lt_irrefl _ hsize

theorem modifyPlayer_stocked (g : Game ℝ) (i : ℕ) (f : Player ℝ → Player ℝ)
    (hf : ∀ p, (f p).cells = p.cells) : (g.modifyPlayer i f).Stocked j ↔ g.Stocked j :=
  stocked_congr (cellsOf_modifyPlayer g i f hf j) fun _ _ => rfl

theorem splitCells_stocked (hw : WellFormed g) {i : ℕ} (hi : i < g.players.length) :
    (g.splitCells i).Stocked j ↔ g.Stocked j := by
  have hsplit := splitCells_upTo hi (hw.cap i) (hw.cells_nodup i) fun c hc => (hw.owned i c hc).1
  by_cases hij : j = i
  · subst hij
    rw [stocked_iff_mass ((splitCells_leads g j).wellFormed hw), stocked_iff_mass hw, hsplit.mass]
  · refine stocked_congr ?_ fun c hc => ?_
    · unfold cellsOf
      rw [hsplit.players, List.getElem?_modify_ne _ _ (Ne.symm hij)]
    · rw [hsplit.rest c (hw.owned j c hc).1]
      intro hmem
      exact hw.cells_disjoint j i hij c hc (List.mem_of_mem_take (g.splitting_subset i _ hmem))

theorem feedCells_stocked (hw : WellFormed g) (i : ℕ) :
    (g.feedCells i).Stocked j ↔ g.Stocked j := by
  have hspat := feedCells_spat (hw.cells_nodup i) fun c hc => (hw.owned i c hc).1
  have hleads := feedCells_leads g i
  have hcells : (g.feedCells i).cellsOf j = g.cellsOf j := cellsOf_congr hspat.players j
  have hradius : ∀ c ∈ g.cellsOf j,
      (0 < ((g.feedCells i).heap c).radius ↔ 0 < (g.heap c).radius) := by
    intro c hc
    have hlt := (hw.owned j c hc).1
    by_cases hejects : c ∈ g.ejecting (g.cellsOf i)
    · rw [Cell.radius_pos_iff (hw.radius c hlt), Cell.radius_pos_iff
        ((hleads.wellFormed hw).radius c (hlt.trans_le (hleads.frame hw).allocated))]
      have hlighter : ((g.feedCells i).heap c).size = (g.heap c).size - feedSize :=
        hspat.lighter c hejects
      have hbig : (playerMinSize : ℝ) < (g.heap c).size - feedSize :=
        of_decide_eq_true (List.mem_filter.mp hejects).2
      have hmin := playerMinSize_pos
      have hfeed : (0 : ℝ) < feedSize := by norm_num [feedSize]
      exact iff_of_true (by linarith) (by linarith)
    · have hrest : (g.feedCells i).heap c = g.heap c := hspat.rest c hlt hejects
      rw [hrest]
  unfold Stocked
  rw [hcells]
  exact exists_congr fun c => and_congr_right fun hc => hradius c hc

theorem commands_stocked (hw : WellFormed g) {i : ℕ} {p : Player ℝ}
    (hp : g.players[i]? = some p) : (g.commands i p).Stocked j ↔ g.Stocked j := by
  have hsplit : (g.splitCommand i p).Stocked j ↔ g.Stocked j := by
    unfold splitCommand
    split_ifs
    · have hlen : i < (g.modifyPlayer i lowerSplit).players.length := by
        show i < (g.players.modify i lowerSplit).length
        rw [List.length_modify]
        exact getElem?_lt hp
      exact (splitCells_stocked (hw.modifyPlayer i lowerSplit fun _ => rfl) hlen).trans
        (modifyPlayer_stocked g i lowerSplit fun _ => rfl)
    · rfl
  have hw' := (splitCommand_spec hw hp).1
  unfold commands feedCommand
  split_ifs
  · exact (feedCells_stocked (hw'.modifyPlayer i lowerFeed fun _ => rfl) i).trans
      ((modifyPlayer_stocked _ i lowerFeed fun _ => rfl).trans hsplit)
  · exact hsplit

end Game

theorem Player.totalRadius_eq (g : Game ℝ) (p : Player ℝ) :
    (p.calculateCamera g).totalRadius = (p.cells.map fun c => (g.heap c).radius).sum := by
  unfold calculateCamera
  dsimp only
  rw [List.sum_eq_foldl, List.foldl_map]

theorem Player.focused_iff {g : Game ℝ} {p : Player ℝ}
    (hradius : ∀ c ∈ p.cells, 0 ≤ (g.heap c).radius) :
    p.Focused g ↔ ∃ c ∈ p.cells, 0 < (g.heap c).radius := by
  unfold Focused
  rw [totalRadius_eq]
  constructor
  · rintro ⟨hsum, -⟩
    by_contra hnone
    push Not at hnone
    have hzero : ∀ r ∈ p.cells.map fun c => (g.heap c).radius, r = 0 := by
      intro r hr
      obtain ⟨c, hc, rfl⟩ := List.mem_map.mp hr
      exact le_antisymm (hnone c hc) (hradius c hc)
    rw [List.sum_eq_zero hzero] at hsum
    exact lt_irrefl _ hsum
  · rintro ⟨c, hc, hpos⟩
    have hle := List.single_le_sum (l := p.cells.map fun c => (g.heap c).radius)
      (fun r hr => by obtain ⟨d, hd, rfl⟩ := List.mem_map.mp hr; exact hradius d hd) _
      (List.mem_map_of_mem hc)
    exact ⟨hpos.trans_le hle, List.length_pos_of_mem hc⟩

/-- Where a camera is calculated and a view is updated, the divisors are positive. -/
def Obs.Focused : Obs ℝ → Prop
  | .joined p _ g' => p.Focused g'
  | .updated u => u.parsed.player.Focused u.commanded
  | _ => True

/-- No player loses the last cell with a radius to another player. -/
def Obs.SparesLast : Obs ℝ → Prop
  | .collided g _ => g.SparesLast
  | _ => True

open Game

theorem updatePlayer_focused {g : Game ℝ} (hw : WellFormed g) {i : ℕ} {p : Player ℝ}
    (hp : g.players[i]? = some p) :
    (Obs.updated (g.updatePlayer i p)).Focused ↔ g.Stocked i := by
  have hw' := (commands_spec hw hp).1
  obtain ⟨ms, hext⟩ := parsed_spec g i p
  have hcells : (g.updatePlayer i p).parsed.player.cells = (g.commands i p).cellsOf i := by
    rw [hext.player, (start_spec hw hp).2]
  rw [← commands_stocked hw hp]
  refine (Player.focused_iff fun c hc => ?_).trans ?_
  · rw [hcells] at hc
    exact hw'.radius c (hw'.owned i c hc).1
  · rw [hcells]
    rfl

/-- As long as nobody loses a last cell everybody has one and all divisors are positive. Once
somebody has lost it, a divisor has been zero or the player waits for its update. -/
structure Sighted (a : Stage) (s : Sys ℝ) : Prop where
  clear : (∀ o ∈ s.trace, o.SparesLast) →
    (∀ j < s.game.players.length, s.game.Stocked j) ∧ ∀ o ∈ s.trace, o.Focused
  blind : (∃ o ∈ s.trace, ¬ o.SparesLast) → (∃ o ∈ s.trace, ¬ o.Focused) ∨
    ∃ j < s.game.players.length, Awaits a j ∧ ¬ s.game.Stocked j

theorem Sighted.next {a b : Stage} {s s' : Sys ℝ} (h : Sighted a s) (os : List (Obs ℝ))
    (htrace : s'.trace = s.trace ++ os) (hos : ∀ o ∈ os, o.SparesLast)
    (hclear : (∀ j < s.game.players.length, s.game.Stocked j) →
      (∀ j < s'.game.players.length, s'.game.Stocked j) ∧ ∀ o ∈ os, o.Focused)
    (hblind : ∀ j < s.game.players.length, Awaits a j → ¬ s.game.Stocked j →
      (∃ o ∈ os, ¬ o.Focused) ∨
        ∃ i < s'.game.players.length, Awaits b i ∧ ¬ s'.game.Stocked i) : Sighted b s' := by
  refine ⟨fun hall => ?_, fun hany => ?_⟩
  · rw [htrace] at hall ⊢
    obtain ⟨hstocked, hdefined⟩ := h.clear fun o ho => hall o (List.mem_append_left _ ho)
    obtain ⟨hstocked', hdefined'⟩ := hclear hstocked
    refine ⟨hstocked', fun o ho => ?_⟩
    rcases List.mem_append.mp ho with ho | ho
    · exact hdefined o ho
    · exact hdefined' o ho
  · rw [htrace] at hany ⊢
    obtain ⟨o, ho, htakes⟩ := hany
    have hold : o ∈ s.trace := (List.mem_append.mp ho).resolve_right fun ho => htakes (hos o ho)
    rcases h.blind ⟨o, hold, htakes⟩ with ⟨d, hd, hdark⟩ | ⟨j, hj, hawaits, hbare⟩
    · exact Or.inl ⟨d, List.mem_append_left _ hd, hdark⟩
    · rcases hblind j hj hawaits hbare with ⟨d, hd, hdark⟩ | hlater
      · exact Or.inl ⟨d, List.mem_append_right _ hd, hdark⟩
      · exact Or.inr hlater

theorem Sighted.collide {s : Sys ℝ} (h : Sighted .started s) (hw : s.game.WellFormed) :
    Sighted .collided s.collide := by
  have hf := (collisionPhase_leads s.game).frame hw
  have hlength : s.collide.game.players.length = s.game.players.length := players_length hf
  have htrace : s.collide.trace = s.trace ++ [.collided s.game s.game.collisionPhase] := rfl
  refine ⟨fun hall => ?_, fun hany => ?_⟩
  · rw [htrace] at hall ⊢
    obtain ⟨hstocked, hdefined⟩ := h.clear fun o ho => hall o (List.mem_append_left _ ho)
    have hsafe : s.game.SparesLast :=
      hall (.collided s.game s.game.collisionPhase) (List.mem_append_right _ List.mem_cons_self)
    refine ⟨fun j hj => collisionPhase_stocked hw hsafe (hstocked j (hlength ▸ hj)), fun o ho => ?_⟩
    rcases List.mem_append.mp ho with ho | ho
    · exact hdefined o ho
    · rw [List.mem_singleton.mp ho]
      trivial
  · rw [htrace] at hany ⊢
    obtain ⟨o, ho, htakes⟩ := hany
    rcases List.mem_append.mp ho with ho | ho
    · rcases h.blind ⟨o, ho, htakes⟩ with ⟨d, hd, hdark⟩ | ⟨j, -, hawaits, -⟩
      · exact Or.inl ⟨d, List.mem_append_left _ hd, hdark⟩
      · exact hawaits.elim
    · rw [List.mem_singleton.mp ho] at htakes
      obtain ⟨j, hj, hbare⟩ := collisionPhase_bare hw htakes
      exact Or.inr ⟨j, hj, trivial, hbare⟩

theorem Sighted.update {s : Sys ℝ} {n : ℕ} (h : Sighted (.updating n) s)
    (hw : s.game.WellFormed) {p : Player ℝ} (hp : s.game.players[n]? = some p) :
    Sighted (.updating (n + 1)) (s.updateAt n) := by
  have hfocused := updatePlayer_focused hw hp
  have hlength : (s.game.updatePlayer n p).after.players.length = s.game.players.length := by
    have hcore := congrArg List.length (after_players hw hp)
    rwa [List.length_map, List.length_set, List.length_map] at hcore
  have hstocked : ∀ j, (s.game.updatePlayer n p).after.Stocked j ↔ s.game.Stocked j := fun j =>
    (stocked_congr (after_cellsOf hw hp j) fun _ _ => rfl).trans (commands_stocked hw hp)
  unfold Sys.updateAt
  rw [hp]
  refine h.next [.updated (s.game.updatePlayer n p), .requested p.wsi] rfl (fun o ho => ?_)
    (fun hall => ⟨fun j hj => (hstocked j).mpr (hall j (hlength ▸ hj)), fun o ho => ?_⟩)
    fun j hj ha hbare => ?_
  · rcases List.mem_pair.mp ho with rfl | rfl <;> trivial
  · rcases List.mem_pair.mp ho with rfl | rfl
    · exact hfocused.mpr (hall n (getElem?_lt hp))
    · trivial
  · rcases Nat.eq_or_lt_of_le ha with rfl | hlt
    · exact Or.inl ⟨_, List.mem_cons_self, fun hdefined => hbare (hfocused.mp hdefined)⟩
    · exact Or.inr ⟨j, hlength.symm ▸ hj, hlt, fun h => hbare ((hstocked j).mp h)⟩

theorem Lulls.stocked {s s' : Sys ℝ} (h : Lulls s s') (hw : s.game.WellFormed)
    (hs : ∀ j < s.game.players.length, s.game.Stocked j) :
    ∀ j < s'.game.players.length, s'.game.Stocked j := by
  intro j hj
  have hq : s'.game.players[j]? = some s'.game.players[j] := List.getElem?_eq_getElem hj
  have hcells : s'.game.cellsOf j = s'.game.players[j].cells := by simp [cellsOf, hq]
  rcases h.players _ (List.mem_of_getElem? hq) with ⟨p, hp, hpc⟩ | ⟨hone, hradius⟩
  · obtain ⟨i, hi⟩ := List.mem_iff_getElem?.mp hp
    have hcells' : s.game.cellsOf i = p.cells := by simp [cellsOf, hi]
    refine (hs i (getElem?_lt hi)).of_eq (by rw [hcells, hcells', hpc]) fun c hc => ?_
    exact (h.cell c (hw.owned i c hc).1).1
  · refine ⟨s.game.allocated, by rw [hcells, hone]; exact List.mem_singleton_self _, ?_⟩
    rw [hradius]
    norm_num

theorem join_focused (s : Sys ℝ) (w : Wsi) (grown : ℕ) :
    (Obs.joined (s.game.newPlayer w).1 s.game (s.join w grown).game).Focused := by
  obtain ⟨-, -, -, -, hradius⟩ := newPlayer_spec s.game w
  have hcells := (newPlayer_player s.game w).2.1
  have hpos : 0 < ((s.join w grown).game.heap s.game.allocated).radius := by
    show 0 < ((s.game.newPlayer w).2.heap s.game.allocated).radius
    rw [hradius]
    norm_num
  refine (Player.focused_iff fun c hc => ?_).mpr ⟨s.game.allocated, ?_, hpos⟩
  · rw [hcells] at hc
    rw [List.mem_singleton.mp hc]
    exact hpos.le
  · rw [hcells]
    exact List.mem_singleton_self _

theorem Move.sighted {a b : Stage} {s s' : Sys ℝ} (h : Move (a, s) (b, s')) (hi : Invariant a s)
    (hs : Sighted a s) : Sighted b s' := by
  have hw := hi.wellFormed
  have hlulls : ∀ os : List (Obs ℝ), Lulls s s' → s'.trace = s.trace ++ os →
      (∀ o ∈ os, o.SparesLast ∧ o.Focused) → (∀ j, ¬ Awaits a j) → Sighted b s' :=
    fun os hl htrace hos hawaits => hs.next os htrace (fun o ho => (hos o ho).1)
      (fun hstocked => ⟨hl.stocked hw hstocked, fun o ho => (hos o ho).2⟩)
      fun j _ hj => absurd hj (hawaits j)
  have hrests : s'.trace = s.trace ++ [] → s'.game.players = s.game.players →
      (∀ c, (s'.game.heap c).radius = (s.game.heap c).radius) →
      (∀ j, Awaits a j → Awaits b j) → Sighted b s' := by
    intro htrace hplayers hradius hawaits
    have hstocked : ∀ j, s'.game.Stocked j ↔ s.game.Stocked j := fun j =>
      stocked_congr (cellsOf_congr hplayers j) fun c _ => hradius c
    refine hs.next [] htrace (fun o ho => by cases ho) (fun hall => ?_) fun j hj ha hbare =>
      Or.inr ⟨j, by rwa [hplayers], hawaits j ha, fun h => hbare ((hstocked j).mp h)⟩
    exact ⟨fun j hj => (hstocked j).mpr (hall j (hplayers ▸ hj)), fun o ho => by cases ho⟩
  cases h with
  | begin _ clock =>
    have hm := updateDynamic_motion (s.game.beginTick clock) (clock - s.game.currentTime)
    exact hrests (List.append_nil _).symm hm.players (fun c => (hm.identity c).2.2.2)
      fun _ ha => ha.elim
  | kick _ x hx =>
    exact hlulls [.erased s.game x] (Move.lulls (.kick s x hx) hi) rfl
      (fun o ho => List.mem_singleton.mp ho ▸ ⟨trivial, trivial⟩) fun _ => id
  | collide _ => exact hs.collide hw
  | drive _ dt =>
    have hm := drive_motion s.game dt
    exact hrests (List.append_nil _).symm hm.players (fun c => (hm.identity c).2.2.2)
      fun j _ => Nat.zero_le j
  | update _ n p hp => exact hs.update hw hp
  | replay _ n hn =>
    have hrest := (parseEvents_prunes hi.additions).rest
    have hheap : s.game.parseEvents.heap = s.game.heap := by rw [hrest]
    have hplayers : s.game.parseEvents.players = s.game.players := by rw [hrest]
    have hstocked : ∀ j, s.game.parseEvents.Stocked j ↔ s.game.Stocked j := fun j =>
      stocked_congr (cellsOf_congr hplayers j) fun c _ => by rw [hheap]
    refine hs.next [.ticked s.game.parseEvents] rfl
      (fun o ho => List.mem_singleton.mp ho ▸ trivial) (fun hall => ⟨fun j hj => ?_, fun o ho => ?_⟩)
      fun j hj ha _ => absurd ha (not_le.mpr (hn ▸ hj))
    · exact (hstocked j).mpr (hall j (by rwa [← hplayers]))
    · exact List.mem_singleton.mp ho ▸ trivial
  | send _ clock accepts i =>
    have hl := Move.lulls (.send s clock accepts i) hi
    rcases Sys.sendAt_cases s clock accepts i with h | ⟨p, hp, -, -, h⟩
    · exact hlulls [] hl (by rw [h, List.append_nil]) (fun o ho => by cases ho) fun _ => id
    · exact hlulls [.wrote p.wsi clock p.wsMessage.pending] hl (by rw [h])
        (fun o ho => List.mem_singleton.mp ho ▸ ⟨trivial, trivial⟩) fun _ => id
  | join _ w grown hnew =>
    exact hlulls [_] (Move.lulls (.join s w grown hnew) hi) rfl
      (fun o ho => List.mem_singleton.mp ho ▸ ⟨trivial, join_focused s w grown⟩) fun _ => id
  | receive _ w packet beyond =>
    have hl := Move.lulls (.receive s w packet beyond) hi
    by_cases hlen : packet.length < 1
    · have hreceive : s.receive w packet beyond = s.observe (.received w packet) := if_pos hlen
      exact hlulls [.received w packet] hl (by rw [hreceive]; rfl)
        (fun o ho => List.mem_singleton.mp ho ▸ ⟨trivial, trivial⟩) fun _ => id
    · have hreceive : s.receive w packet beyond = ({ s.observe (.received w packet) with
          game := s.game.receiveAll w packet beyond } : Sys ℝ).observe (.requested w) := if_neg hlen
      refine hlulls [.received w packet, .requested w] hl (by rw [hreceive]; simp [Sys.observe])
        (fun o ho => ?_) fun _ => id
      rcases List.mem_pair.mp ho with rfl | rfl <;> exact ⟨trivial, trivial⟩
  | close _ x hx =>
    exact hlulls [.erased s.game x] (Move.lulls (.close s x hx) hi) rfl
      (fun o ho => List.mem_singleton.mp ho ▸ ⟨trivial, trivial⟩) fun _ => id

theorem Run.sighted (r : Run ℝ) : Sighted .idle r.final := by
  refine Run.induction (P := Sighted) (fun rand stale => ?_)
    (fun a s b s' hi hm hs => hm.sighted hi hs) r
  refine ⟨fun _ => ⟨fun j hj => ?_, fun o ho => by cases ho⟩, fun ⟨o, ho, _⟩ => by cases ho⟩
  have hnone : (Sys.init rand stale).game.players = [] := (mapInit_started rand stale).players
  rw [hnone] at hj
  cases hj

theorem Sighted.darkens {s : Sys ℝ} (h : Sighted .idle s) (htakes : ∃ o ∈ s.trace, ¬ o.SparesLast) :
    ∃ o ∈ s.trace, ¬ o.Focused := by
  rcases h.blind htakes with hdark | ⟨j, -, hawaits, -⟩
  · exact hdark
  · exact hawaits.elim

/-- Where a camera is calculated and a view is updated, the divisors are positive and the view is
computed from numbers. A new player's camera is at the origin before. -/
def Obs.CameraDefined : Obs ℝ → Prop
  | .joined p _ g' => p.Focused g' ∧
      Player.checkedView g' { p with camera := 0 } = some p.sighting
  | .updated u => u.parsed.player.Focused u.commanded ∧
      u.parsed.player.checkedView u.commanded = some u.finished.player.sighting
  | _ => True

theorem Obs.CameraDefined.focused {o : Obs ℝ} (h : o.CameraDefined) : o.Focused := by
  cases o with
  | joined p g g' => exact h.1
  | updated u => exact h.1
  | _ => trivial

/-- As long as no phase has left a cell without a radius, all centers are numbers. -/
def Numbered (s : Sys ℝ) : Prop :=
  (∀ o ∈ s.trace, o.Solid) → ∀ o ∈ s.trace, o.Focused → o.CameraDefined

theorem updatePlayer_numbered {g : Game ℝ} (hw : WellFormed g) (hsharp : g.Sharp) {i : ℕ}
    {p : Player ℝ} (hp : g.players[i]? = some p)
    (h : (Obs.updated (g.updatePlayer i p)).Focused) :
    (Obs.updated (g.updatePlayer i p)).CameraDefined := by
  have hview := Player.checkedView_of_focused (g := g.commands i p) h fun c _ => by
    rw [commands_blurred hw hp]
    exact hsharp c
  refine ⟨h, hview.trans ?_⟩
  rw [finished_eq]
  rfl

theorem join_numbered {a : Stage} {s : Sys ℝ} (hb : Blurring a s) (w : Wsi) (grown : ℕ)
    (h : (Obs.joined (s.game.newPlayer w).1 s.game (s.join w grown).game).Focused) :
    (Obs.joined (s.game.newPlayer w).1 s.game (s.join w grown).game).CameraDefined := by
  let p : Player ℝ := { (s.game.newPlayer w).1 with camera := 0 }
  have hf : p.Focused (s.join w grown).game := h
  have hcells : p.cells = [s.game.allocated] := rfl
  refine ⟨h, (Player.checkedView_of_focused hf fun c hc => ?_).trans rfl⟩
  rw [hcells] at hc
  rw [List.mem_singleton.mp hc, blurred_congr (g := s.game) (by rfl)]
  exact Bool.eq_false_iff.mpr fun hc => lt_irrefl _ (hb.old _ hc)

theorem Move.numbered {a b : Stage} {s s' : Sys ℝ} (h : Move (a, s) (b, s')) (hi : Invariant a s)
    (hb : Blurring a s) (hs : Numbered s) : Numbered s' := by
  have hnext : ∀ os : List (Obs ℝ), s'.trace = s.trace ++ os →
      (∀ o ∈ os, s.game.Sharp → o.Focused → o.CameraDefined) → Numbered s' := by
    intro os htrace hos hsolid o ho
    rw [htrace] at hsolid ho
    have hsolid' : ∀ o ∈ s.trace, o.Solid := fun o ho => hsolid o (List.mem_append_left _ ho)
    rcases List.mem_append.mp ho with ho | ho
    · exact hs hsolid' o ho
    · exact hos o ho (hb.sharp hsolid')
  cases h with
  | begin _ clock => exact hnext [] (List.append_nil _).symm fun o ho => by cases ho
  | kick _ x hx =>
    exact hnext [.erased s.game x] rfl fun o ho _ _ => List.mem_singleton.mp ho ▸ trivial
  | collide _ =>
    exact hnext [.collided s.game s.game.collisionPhase] rfl fun o ho _ _ =>
      List.mem_singleton.mp ho ▸ trivial
  | drive _ dt => exact hnext [] (List.append_nil _).symm fun o ho => by cases ho
  | update _ n p hp =>
    have htrace : (s.updateAt n).trace =
        s.trace ++ [.updated (s.game.updatePlayer n p), .requested p.wsi] := by
      unfold Sys.updateAt
      rw [hp]
    refine hnext _ htrace fun o ho hsharp hf => ?_
    rcases List.mem_pair.mp ho with rfl | rfl
    · exact updatePlayer_numbered hi.wellFormed hsharp hp hf
    · trivial
  | replay _ n hn =>
    exact hnext [.ticked s.game.parseEvents] rfl fun o ho _ _ =>
      List.mem_singleton.mp ho ▸ trivial
  | send _ clock accepts i =>
    rcases Sys.sendAt_cases s clock accepts i with h | ⟨p, hp, -, -, h⟩
    · exact hnext [] (by rw [h, List.append_nil]) fun o ho => by cases ho
    · exact hnext [.wrote p.wsi clock p.wsMessage.pending] (by rw [h]) fun o ho _ _ =>
        List.mem_singleton.mp ho ▸ trivial
  | join _ w grown hnew =>
    refine hnext [.joined (s.game.newPlayer w).1 s.game (s.join w grown).game] rfl fun o ho _ hf => ?_
    obtain rfl := List.mem_singleton.mp ho
    exact join_numbered hb w grown hf
  | receive _ w packet beyond =>
    by_cases hlen : packet.length < 1
    · have hreceive : s.receive w packet beyond = s.observe (.received w packet) := if_pos hlen
      exact hnext [.received w packet] (by rw [hreceive]; rfl) fun o ho _ _ =>
        List.mem_singleton.mp ho ▸ trivial
    · have hreceive : s.receive w packet beyond = ({ s.observe (.received w packet) with
          game := s.game.receiveAll w packet beyond } : Sys ℝ).observe (.requested w) := if_neg hlen
      refine hnext [.received w packet, .requested w] (by rw [hreceive]; simp [Sys.observe])
        fun o ho _ _ => ?_
      rcases List.mem_pair.mp ho with rfl | rfl <;> trivial
  | close _ x hx =>
    exact hnext [.erased s.game x] rfl fun o ho _ _ => List.mem_singleton.mp ho ▸ trivial

theorem Run.numbered (r : Run ℝ) : Numbered r.final := by
  refine (Run.induction (P := fun a s => Blurring a s ∧ Numbered s) (fun rand stale => ?_)
    (fun a s b s' hi hm hs => ⟨hm.blurring hi hs.1, hm.numbered hi hs.1 hs.2⟩) r).2
  exact ⟨init_blurring rand stale, fun _ o ho => by cases ho⟩

/-- In every run the divisors of `CalculateCamera` and of `UpdateView` are positive whenever these
run, if and only if no player has lost its last cell with a radius to another player. As long as no
cell is updated without a radius, the same is true with all views computed from numbers. -/
theorem camera_defined (r : Run ℝ) :
    ((∀ o ∈ r.final.trace, o.Focused) ↔ ∀ o ∈ r.final.trace, o.SparesLast) ∧
    ((∀ o ∈ r.final.trace, o.Solid) →
      ((∀ o ∈ r.final.trace, o.CameraDefined) ↔ ∀ o ∈ r.final.trace, o.SparesLast)) := by
  have hfocused : (∀ o ∈ r.final.trace, o.Focused) ↔ ∀ o ∈ r.final.trace, o.SparesLast := by
    constructor
    · intro hdefined
      by_contra htakes
      push Not at htakes
      obtain ⟨o, ho, hdark⟩ := r.sighted.darkens htakes
      exact hdark (hdefined o ho)
    · exact fun hspares => (r.sighted.clear hspares).2
  refine ⟨hfocused, fun hsolid => ⟨fun hdefined => ?_, fun hspares o ho => ?_⟩⟩
  · exact hfocused.mp fun o ho => (hdefined o ho).focused
  · exact r.numbered hsolid o ho (hfocused.mpr hspares o ho)

namespace Game
variable {g g' : Game ℝ} {a b n : CellPtr}

theorem Effect.rand (h : Effect g g') (hrand : ∀ m, g.rand m = 0) : ∀ m, g'.rand m = 0 := by
  cases h with
  | draw => exact fun m => hrand (m + 1)
  | stray i myLoop p slot hp hslot =>
    unfold eraseCellAt
    split_ifs
    · exact hrand
    · exact hrand
  | _ => exact hrand

theorem Leads.rand (h : Leads g g') (hw : WellFormed g) (hrand : ∀ m, g.rand m = 0) :
    ∀ m, g'.rand m = 0 := by
  have hall : ∀ {g' : Game ℝ}, Relation.ReflTransGen Effect g g' → ∀ m, g'.rand m = 0 := by
    intro g' h
    induction h with
    | refl => exact hrand
    | tail _ he ih => exact he.rand ih
  exact hall (h hw)

theorem updatePlayer_rand (hw : WellFormed g) {p : Player ℝ} (hfeed : p.doFeed = false)
    (hrand : ∀ m, g.rand m = 0) : ∀ m, (g.updatePlayer 0 p).after.rand m = 0 := by
  have hcommands : g.commands 0 p = g.splitCommand 0 p := by
    unfold commands feedCommand
    rw [hfeed, if_neg Bool.false_ne_true]
  have hafter : (g.updatePlayer 0 p).after.rand = (g.commands 0 p).rand := rfl
  rw [hafter, hcommands]
  unfold splitCommand
  split_ifs
  · have hw' := hw.modifyPlayer 0 lowerSplit fun _ => rfl
    exact (splitCells_leads (g.modifyPlayer 0 lowerSplit) 0).rand hw' hrand
  · exact hrand

theorem ownPasses_quiet (hspares : ∀ i : ℕ, ∀ c ∈ g.cellsOf i, g.Spares c)
    (hrest : ∀ (i m n : ℕ) (c o : CellPtr), m < n → (g.cellsOf i)[m]? = some c →
      (g.cellsOf i)[n]? = some o → g.Rest c o) : Quiet g g.ownPasses := by
  refine quiet_foldl g fun g' hq i _ => ?_
  obtain ⟨cs, rfl⟩ := hq
  exact collideOwn_quiet _ i (fun c hc => ⟨(hspares i c hc).static, (hspares i c hc).dynamic⟩)
    (hrest i)

theorem not_sparesLast (hquiet : Quiet g g.ownPasses) (htwo : g.players.length = 2)
    (hcells : g.cellsOf 0 = [a, b]) (hother : g.cellsOf 1 = [n]) (hbn : b ≠ n)
    (hpos : ∀ c ∈ [a, b, n], 0 < (g.heap c).radius ∧ (g.heap c).position = 0)
    (ha : (g.heap a).size / (g.heap n).size < 0.75)
    (hb : (g.heap b).size / (g.heap n).size < 0.75) : ¬ g.SparesLast := by
  have hplayers := hquiet.players
  have hheap := hquiet.heap
  have hcells' := hquiet.cellsOf
  unfold SparesLast
  generalize g.ownPasses = t at *
  rw [← hheap] at hpos ha hb
  rw [← hcells'] at hcells hother
  rw [← hplayers] at htwo
  obtain ⟨hra, hpa⟩ := hpos a (by simp)
  obtain ⟨hrb, hpb⟩ := hpos b (by simp)
  obtain ⟨hrn, hpn⟩ := hpos n (by simp)
  have hfirst : (t.cellsOf 0)[0]? = some a := by rw [hcells]; rfl
  have hlarge : (t.cellsOf 1)[0]? = some n := by rw [hother]; rfl
  have hsmaller : (t.heap a).collide (t.heap n) = .smaller := by
    rw [Cell.collide_same hra hrn (hpa.trans hpn.symm), if_neg (by linarith), if_pos ha]
  -- the first cell is taken
  have htaken := absorbOther_taken (i := 0) hfirst hrn
  let t' := (t.noteCollide a n).absorbOther 0 a n 0
  have hleft : t'.cellsOf 0 = [b] := by
    rw [show t'.cellsOf 0 = _ from htaken.cells, hcells]
    rfl
  have hright : t'.cellsOf 1 = [n] := (htaken.others 1 one_ne_zero).trans hother
  have hb' : t'.heap b = t.heap b := setCell_heap_ne _ _ _ hbn
  have hn' : t'.heap n = (t.heap n).addSize (t.heap a).size := setCell_heap_self _ _ _
  have hgrown : (t'.heap n).size = (t.heap a).size + (t.heap n).size := by
    rw [hn']
    exact Cell.addSize_size (add_nonneg (Cell.size_nonneg _) (Cell.size_nonneg _))
  have hpath : OtherPoint.Leads (.outer t 0 1 0) (.inner t' 0 1 b 0 0) := by
    refine .head (b := .inner t 0 1 a 0 0) ?_ (.head (b := .outer t' 0 1 0) ?_ (.single ?_))
    · simp [OtherPoint.next, htwo, hfirst]
    · simp [OtherPoint.next, hlarge, hsmaller, t']
    · have hlen : t'.players.length = 2 := htaken.length.trans htwo
      simp [OtherPoint.next, hlen, hleft]
  intro hspares
  refine hspares _ hpath ⟨n, by rw [hright]; rfl, Or.inr ⟨?_, fun c hc => ?_⟩⟩
  · have hrn' : 0 < (t'.heap n).radius := (htaken.radius n).mpr hrn
    have hlt : (t'.heap b).size / (t'.heap n).size < 0.75 := by
      rw [hb', hgrown]
      have hsn := Cell.size_pos hrn
      rw [div_lt_iff₀ hsn] at hb
      rw [div_lt_iff₀ (by linarith [Cell.size_nonneg (t.heap a)])]
      nlinarith [Cell.size_nonneg (t.heap a)]
    rw [Cell.collide_same (by rw [hb']; exact hrb) hrn' (by rw [hb', hn']; exact hpb.trans hpn.symm),
      if_neg (by linarith), if_pos hlt]
  · rw [hleft] at hc
    cases hc

end Game

namespace Sys
variable {s : Sys ℝ} {p : Player ℝ} {m t clock : ℝ}

theorem join_of_sent (hplayers : s.game.players = [p]) {w : Wsi} (hw : w ≠ p.wsi)
    (hsent : p.sendTime = clock) (accepts : ℕ → Bool) (grown : ℕ) :
    s.writeable w clock accepts grown = s.join w grown := by
  have hany : (s.game.players.any fun p => w = p.wsi) = false := by simp [hplayers, hw]
  have hsend : s.sendAll clock accepts = s := by
    rw [sendAll, hplayers]
    rcases sendAt_cases s clock accepts 0 with hnone | ⟨q, hq, hcan, -, -⟩
    · exact hnone
    · obtain rfl : p = q := by simpa [hplayers] using hq
      have hnot : p.canSend clock = false := by
        unfold Player.canSend
        norm_num [hsent, timeoutAck, sendInterval]
      rw [hnot] at hcan
      cases hcan
  unfold writeable
  rw [hany, hsend]
  rfl

end Sys

namespace Swarm
open Sys
variable {s : Sys ℝ} {p : Player ℝ} {m t : ℝ} {a b : CellPtr}

theorem splits_rand (h : Swarm s p m t) {clock : ℝ} (hclock : clock ≤ t)
    (hconnected : p.wsMessage.connected = true) (hrand : ∀ n, s.game.rand n = 0) :
    ∀ n, (s.step (.tick clock)).game.rand n = 0 := by
  obtain ⟨hplayers, -⟩ := h.tickMoved_huddle hclock hconnected
  have hall : ∀ q ∈ s.game.players, q.wsMessage.connected = true := by
    rw [h.players]
    exact fun q hq => List.mem_singleton.mp hq ▸ hconnected
  have hi : Invariant (.updating 0) (s.tickMoved clock) :=
    Moves.invariant (tickMoved_moves s clock) h.kept.invariant
  have hmoved : (s.tickMoved clock).game.rand = s.game.rand := by
    obtain ⟨cs, hcs⟩ := tickMoved_told (h.huddle hclock).calm hall h.still
    rw [hcs]
    rfl
  rw [← hmoved] at hrand
  have hstep : (s.step (.tick clock)).game =
      ((s.tickMoved clock).game.updatePlayer 0 p).after := tick_after h.kept hplayers
  rw [hstep]
  exact Game.updatePlayer_rand hi.wellFormed h.doFeed hrand

/-- The food is out of reach of the player that joins, too. -/
theorem join_remote (h : Swarm s p m t) (w : Wsi) (grown : ℕ) :
    (s.join w grown).game.Remote := by
  have hw := h.kept.invariant.wellFormed
  obtain ⟨-, hold, -⟩ := Game.newPlayer_spec s.game w
  refine ⟨fun d q hq => ?_, fun d hd => ?_⟩
  · rw [show (s.join w grown).game.heap q = s.game.heap q from hold q (hw.static_lt hq).ne]
    exact h.remote.static d q hq
  · rw [show (s.join w grown).game.heap d = s.game.heap d from hold d (hw.dynamic d hd).2.1.ne]
    exact h.remote.dynamic d hd

theorem join_connected (h : Swarm s p m t) (hconnected : p.wsMessage.connected = true) (w : Wsi)
    (grown : ℕ) : ∀ q ∈ (s.join w grown).game.players, q.wsMessage.connected = true := by
  intro q hq
  have hmessage : (s.game.newPlayer w).1.wsMessage = .new :=
    (Game.newPlayer_player s.game w).2.2.2.2.2.2.1
  have hmessages : (s.join w grown).game.players.map Player.wsMessage = [p.wsMessage, .new] := by
    rw [join_players, MovedVector.emplaceBack_carried message_carried, h.players, hmessage]
    rfl
  have hmem := List.mem_map_of_mem (f := Player.wsMessage) hq
  rw [hmessages] at hmem
  rcases List.mem_pair.mp hmem with heq | heq
  · rw [heq]
    exact hconnected
  · rw [heq]
    exact Message.new_connected

/-- While nothing may combine and all cells lie in one place, the players' own passes do nothing. -/
theorem own_quiet {g : Game ℝ} {n : CellPtr} {clock : ℝ} (hremote : g.Remote)
    (hcells : ∀ i, g.cellsOf i = if i = 1 then [n] else if i = 0 then [a, b] else [])
    (hcentral : ∀ i : ℕ, ∀ c ∈ g.cellsOf i, Game.Central (g.heap c))
    (hlate : ∀ c ∈ [a, b], clock ≤ (g.heap c).combineTime) (htime : g.currentTime = clock) :
    Game.Quiet g g.ownPasses := by
  refine Game.ownPasses_quiet (fun i c hc => hremote.spares (hcentral i c hc))
    fun i j k c o hjk hc ho => ?_
  have hcentral₁ := hcentral i c (List.mem_of_getElem? hc)
  have hcentral₂ := hcentral i o (List.mem_of_getElem? ho)
  refine ⟨fun hready => ?_, Or.inr ⟨hcentral₁.origin.trans hcentral₂.origin.symm,
    hcentral₁.resting.onMap⟩⟩
  have hk := Game.getElem?_lt ho
  rw [hcells] at hk
  split_ifs at hk with hi hi'
  · -- the big player has no second cell
    have hk' : k < 1 := hk
    omega
  · have hmem : c ∈ [a, b] := by
      have hc' := List.mem_of_getElem? hc
      rwa [hcells, if_neg hi, if_pos hi'] at hc'
    have hready' : (g.heap c).combineTime < g.currentTime := of_decide_eq_true hready.1
    rw [htime] at hready'
    exact absurd hready' (not_lt.mpr (hlate c hmem))
  · exact absurd hk (Nat.not_lt_zero k)

/-- The cells of both players in a tick that begins right after the second one has joined. -/
theorem tickStart_joined (h : Swarm s p m t) (hconnected : p.wsMessage.connected = true)
    (clock : ℝ) (w : Wsi) (grown : ℕ) :
    Game.Quiet ((s.join w grown).game.beginTick clock)
      ((s.join w grown).tickStart clock).game ∧
    ((s.join w grown).tickStart clock).game.Remote ∧
    ∀ i, ((s.join w grown).tickStart clock).game.cellsOf i =
      if i = 1 then [s.game.allocated] else if i = 0 then p.cells else [] := by
  have hremote := h.join_remote w grown
  have hone : s.game.players.length = 1 := by rw [h.players]; rfl
  have hq : Game.Quiet ((s.join w grown).game.beginTick clock)
      ((s.join w grown).tickStart clock).game := by
    rw [tickStart_of_connected (h.join_connected hconnected w grown)]
    exact Game.updateDynamic_quiet _ _ fun e he => (hremote.dynamic e he).1
  refine ⟨hq, hremote.same ((Game.beginTick_same _ clock).trans hq.told.same), fun i => ?_⟩
  have hcells : ((s.join w grown).tickStart clock).game.cellsOf i =
      (s.join w grown).game.cellsOf i := hq.cellsOf i
  rw [hcells, Game.cellsOf_join, hone, h.cellsOf]

/-- A bigger player joins where the cells of the only player are, and eats them all. -/
theorem devoured (h : Swarm s p m t) (hcells : p.cells = [a, b]) (hm : m < 7500)
    (hrand : ∀ n, s.game.rand n = 0) (hconnected : p.wsMessage.connected = true) {clock : ℝ}
    (hclock : clock ≤ t) (w : Wsi) (grown : ℕ) :
    ∃ o ∈ ((s.join w grown).step (.tick clock)).trace, ¬ o.SparesLast := by
  have hw := h.kept.invariant.wellFormed
  have hnew : ((s.join w grown).game.heap s.game.allocated).Fresh :=
    (Game.newPlayer_fresh hrand w).1
  obtain ⟨-, hold, -⟩ := Game.newPlayer_spec s.game w
  have hown : ∀ c ∈ p.cells, c < s.game.allocated := fun c hc =>
    (hw.owned 0 c (by rw [h.cellsOf, if_pos rfl]; exact hc)).1
  have hheap : ∀ c ∈ p.cells, (s.join w grown).game.heap c = s.game.heap c := fun c hc =>
    hold c (hown c hc).ne
  have hlen : (s.join w grown).game.players.length = 2 := by
    rw [join_players, MovedVector.emplaceBack_length, h.players]
    rfl
  refine ⟨_, tick_collides (h.join_connected hconnected w grown) clock, ?_⟩
  obtain ⟨hq, hremote, hcells'⟩ := h.tickStart_joined hconnected clock w grown
  have hqheap : ((s.join w grown).tickStart clock).game.heap = (s.join w grown).game.heap := hq.heap
  have hqplayers : ((s.join w grown).tickStart clock).game.players =
      (s.join w grown).game.players := hq.players
  have hqtime : ((s.join w grown).tickStart clock).game.currentTime = clock := hq.currentTime
  rw [← hqplayers] at hlen
  rw [← hqheap] at hnew hheap
  generalize ((s.join w grown).tickStart clock).game = g at *
  have hcentral : ∀ i : ℕ, ∀ c ∈ g.cellsOf i, Game.Central (g.heap c) := by
    intro i c hc
    rw [hcells'] at hc
    split_ifs at hc
    · rw [List.mem_singleton.mp hc]
      exact hnew.central
    · rw [hheap c hc]
      exact (h.parked c hc).1.central
    · cases hc
  have hlate : ∀ c ∈ p.cells, clock ≤ (g.heap c).combineTime := by
    intro c hc
    rw [hheap c hc]
    rcases h.combine with hlone | hcombine
    · rw [hcells] at hlone
      cases hlone
    · rw [hcombine c hc]
      exact hclock
  have hsmall : ∀ c ∈ p.cells, (g.heap c).size / (g.heap s.game.allocated).size < 0.75 := by
    intro c hc
    have hsize : (g.heap s.game.allocated).size = 10000 := by
      unfold Cell.size
      rw [hnew.radius]
      norm_num
    rw [hsize, hheap c hc, (h.parked c hc).2, div_lt_iff₀ (by norm_num)]
    linarith
  rw [hcells] at hown hsmall hlate hcells'
  have hzero : g.cellsOf 0 = [a, b] := hcells' 0
  have hfirst : g.cellsOf 1 = [s.game.allocated] := hcells' 1
  refine Game.not_sparesLast (own_quiet hremote hcells' hcentral hlate hqtime) hlen hzero hfirst
    (hown b (by simp)).ne (fun c hc => ?_) (hsmall a (by simp)) (hsmall b (by simp))
  have hplace : ∃ i, c ∈ g.cellsOf i := by
    rcases List.mem_cons.mp hc with rfl | hc
    · exact ⟨0, by rw [hzero]; simp⟩
    · rcases List.mem_pair.mp hc with rfl | rfl
      · exact ⟨0, by rw [hzero]; simp⟩
      · exact ⟨1, by rw [hfirst]; simp⟩
  obtain ⟨i, hi⟩ := hplace
  exact ⟨(hcentral i c hi).positive, (hcentral i c hi).origin⟩

end Swarm

open Sys

/-- A player splits. Another one joins where the two halves are and eats both of them in one tick,
so that the first one has no cell when it is updated. -/
def devouring : Run ℝ where
  rand := placing corner corner
  stale := fun _ => 0
  events := [.writeable 0 0 (fun _ => true) 1, .receive 0 [msgSplit] fun _ => 0, .tick 1,
    .writeable 0 6 (fun _ => true) 1, .writeable 1 6 (fun _ => true) 2, .tick 7]

theorem Sys.Kept.devours {s : Sys ℝ} (hkept : s.Kept) (h : s.game.Joined corner corner 0) :
    ∃ o ∈ (devouring.events.foldl Sys.step s).trace, ¬ o.SparesLast := by
  unfold devouring
  rw [List.foldl_cons, List.foldl_cons, List.foldl_cons, List.foldl_cons, List.foldl_cons,
    List.foldl_cons, List.foldl_nil]
  have hbig : 42 < Real.sqrt (10000 * 100) := Real.lt_sqrt_of_sq_lt (by norm_num)
  obtain ⟨p₁, hswarm₁, hcells₁, hattends₁, hconnected₁⟩ := hkept.swarm h 1
  obtain ⟨-, -, hjoined, -⟩ := first_joins hkept h
  have hrand₁ := hjoined.placed.rand
  generalize s.step (.writeable 0 0 (fun _ => true) 1) = s₁ at *
  -- the first player splits
  have hrand₂ : ∀ n, (s₁.step (.receive 0 [msgSplit] fun _ => 0)).game.rand n = 0 := by
    have hgame : (s₁.step (.receive 0 [msgSplit] fun _ => 0)).game =
        s₁.game.handled 0 [msgSplit] := receive_handled s₁ 0 [msgSplit] _ fun hr => by
      exact absurd (Option.some.inj hr.1.1) (by decide)
    rw [hgame]
    exact hrand₁
  obtain ⟨p₂, hswarm₂, hcells₂, hsplit₂, hwsi₂, hmessage₂, hsent₂⟩ :=
    hswarm₁.asks hattends₁ fun _ => 0
  generalize s₁.step (.receive 0 [msgSplit] fun _ => 0) = s₂ at *
  have hconnected₂ : p₂.wsMessage.connected = true := by
    rw [hmessage₂]
    exact hconnected₁
  have hrand₃ := hswarm₂.splits_rand le_rfl hconnected₂ hrand₂
  obtain ⟨p₃, hswarm₃, hcells₃, hattends₃, hpending₃⟩ := hswarm₂.splits le_rfl hconnected₂ hsplit₂
    hwsi₂ (by rw [hmessage₂]; exact hattends₁.start) (hsent₂.trans hattends₁.sent)
    (by rw [hcells₂, hcells₁]; decide) hbig
  generalize s₂.step (.tick 1) = s₃ at *
  have hrand₄ : ∀ n, (s₃.step (.writeable 0 6 (fun _ => true) 1)).game.rand n = 0 := by
    obtain ⟨q, hgame, -⟩ := drained hswarm₃.players hattends₃ hpending₃ 6 (by norm_num) 1
    rw [hgame]
    exact hrand₃
  obtain ⟨p₄, hswarm₄, hcells₄, hattends₄, hconnected₄⟩ :=
    hswarm₃.drains hattends₃ hpending₃ 6 (by norm_num) 1
  generalize s₃.step (.writeable 0 6 (fun _ => true) 1) = s₄ at *
  have htwo : p₄.cells = [firstCell, s₂.game.allocated] := by
    rw [hcells₄, hcells₃, hcells₂, hcells₁]
    rfl
  -- the second player joins
  have hjoin : s₄.step (.writeable 1 6 (fun _ => true) 2) = s₄.join 1 2 :=
    join_of_sent hswarm₄.players (by rw [hattends₄.wsi]; decide) hattends₄.sent _ _
  rw [hjoin]
  exact hswarm₄.devoured htwo (by norm_num) hrand₄ hconnected₄ (by norm_num) 1 2

/-- A player whose last cell has been eaten divides by zero. -/
theorem eaten_up : ¬ ∀ o ∈ devouring.final.trace, o.CameraDefined := by
  have hjoined : (Sys.init (placing corner corner) fun _ => (0 : ℝ)).game.Joined corner corner 0 :=
    Game.mapInit_joined corner corner _
  have hdevours := Sys.Kept.devours ⟨init_invariant _ _, init_gone _ _⟩ hjoined
  obtain ⟨o, ho, hdark⟩ := devouring.sighted.darkens hdevours
  exact fun hall => hdark (hall o ho).focused

end Agar
