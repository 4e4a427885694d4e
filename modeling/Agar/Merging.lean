import Agar.CollisionEffects

/-! `CollideSelf` step by step: the cells it compares, merges and erases, and when the mass of a
player survives it. -/

namespace Agar

/-- Where `CollideSelf` stands: at the head of its outer or of its inner loop. -/
inductive SelfPoint (K : Type)
  | outer (g : Game K) (myLoop : ℕ)
  | inner (g : Game K) (cell : CellPtr) (myLoop : ℤ) (loop : ℕ)

namespace SelfPoint

def game {K : Type} : SelfPoint K → Game K
  | .outer g _ => g
  | .inner g _ _ _ => g

section Next
variable {K : Type} [Field K] [LinearOrder K] [Arith K]

/-- The next round, none at the end of the outer loop. -/
def next (i : ℕ) : SelfPoint K → Option (SelfPoint K)
  | .outer g myLoop =>
    match (g.cellsOf i)[myLoop]? with
    | none => none
    | some cell => some (.inner g cell myLoop (myLoop + 1))
  | .inner g cell myLoop loop =>
    match (g.cellsOf i)[loop]? with
    | none => some (.outer g (myLoop + 1).toNat)
    | some otherCell =>
      let result := (g.heap cell).collide (g.heap otherCell)
      let g' := g.noteSelf cell otherCell
      if g.ready cell ∧ g.ready otherCell then
        if Collision.overlap.rank ≤ result.rank then
          if (g.heap otherCell).radius < (g.heap cell).radius then
            some (.inner (g'.eatOwn i cell otherCell loop) cell myLoop loop)
          else some (.inner (g'.absorbOwn i cell otherCell myLoop) cell (max (-1) (myLoop - 1))
            (loop + 1))
        else some (.inner g' cell myLoop (loop + 1))
      else if Collision.none.rank < result.rank then
        some (.inner (g'.pushApart cell otherCell) cell myLoop (loop + 1))
      else some (.inner g' cell myLoop (loop + 1))

end Next

/-- From one point to another in some rounds. -/
abbrev Leads (i : ℕ) : SelfPoint ℝ → SelfPoint ℝ → Prop :=
  Relation.ReflTransGen fun a b => a.next i = some b

theorem inner_leads (g : Game ℝ) (i : ℕ) (cell : CellPtr) (myLoop : ℤ) (loop : ℕ) :
    Leads i (.inner g cell myLoop loop) (.outer (g.collideSelfWith i cell myLoop loop).1
      ((g.collideSelfWith i cell myLoop loop).2 + 1).toNat) := by
  fun_induction Game.collideSelfWith g i cell myLoop loop with
  | case1 g myLoop loop hnone => exact .single (by simp only [next, hnone])
  | case2 g myLoop loop o ho result g' hready hover hbig ih =>
    exact .head (by simp only [next, ho, if_pos hready, if_pos hover, if_pos hbig, g', result]) ih
  | case3 g myLoop loop o ho result g' hready hover hbig ih =>
    exact .head (by simp only [next, ho, if_pos hready, if_pos hover, if_neg hbig, g', result]) ih
  | case4 g myLoop loop o ho result g' hready hover ih =>
    exact .head (by simp only [next, ho, if_pos hready, if_neg hover, g', result]) ih
  | case5 g myLoop loop o ho result g' hready htouch ih =>
    exact .head (by simp only [next, ho, if_neg hready, if_pos htouch, g', result]) ih
  | case6 g myLoop loop o ho result g' hready htouch ih =>
    exact .head (by simp only [next, ho, if_neg hready, if_neg htouch, g', result]) ih

theorem outer_leads (g : Game ℝ) (i myLoop : ℕ) : ∃ n,
    Leads i (.outer g myLoop) (.outer (g.collideSelfFrom i myLoop) n) ∧
      (outer (g.collideSelfFrom i myLoop) n).next i = none := by
  fun_induction Game.collideSelfFrom g i myLoop with
  | case1 g myLoop hnone => exact ⟨myLoop, .refl, by simp only [next, hnone]⟩
  | case2 g myLoop cell hcell r ih =>
    obtain ⟨n, hleads, hend⟩ := ih
    refine ⟨n, .head (by simp only [next, hcell]) ((inner_leads g i cell myLoop
      (myLoop + 1)).trans ?_), hend⟩
    exact hleads

end SelfPoint

namespace Game

/-- The other cell, which is not smaller, takes the mass of the cell. -/
def Absorbs (g : Game ℝ) (cell otherCell : CellPtr) : Prop :=
  (g.ready cell ∧ g.ready otherCell) ∧
    Collision.overlap.rank ≤ ((g.heap cell).collide (g.heap otherCell)).rank ∧
    ¬ (g.heap otherCell).radius < (g.heap cell).radius

/-- The total mass of the player's cells. -/
noncomputable def mass (g : Game ℝ) (i : ℕ) : ℝ := ((g.cellsOf i).map fun c => (g.heap c).size).sum

end Game

namespace SelfPoint

/-- What one round can do. -/
inductive Round (i : ℕ) : SelfPoint ℝ → SelfPoint ℝ → Prop
  | enter (g : Game ℝ) (myLoop : ℕ) (cell : CellPtr) (h : (g.cellsOf i)[myLoop]? = some cell) :
      Round i (.outer g myLoop) (.inner g cell myLoop (myLoop + 1))
  | leave (g : Game ℝ) (cell : CellPtr) (myLoop : ℤ) (loop : ℕ)
      (h : (g.cellsOf i)[loop]? = none) :
      Round i (.inner g cell myLoop loop) (.outer g (myLoop + 1).toNat)
  | eat (g : Game ℝ) (cell : CellPtr) (myLoop : ℤ) (loop : ℕ) (o : CellPtr)
      (h : (g.cellsOf i)[loop]? = some o) : Round i (.inner g cell myLoop loop)
        (.inner ((g.noteSelf cell o).eatOwn i cell o loop) cell myLoop loop)
  | absorb (g : Game ℝ) (cell : CellPtr) (myLoop : ℤ) (loop : ℕ) (o : CellPtr)
      (h : (g.cellsOf i)[loop]? = some o) (habsorbs : g.Absorbs cell o) :
      Round i (.inner g cell myLoop loop) (.inner ((g.noteSelf cell o).absorbOwn i cell o myLoop)
        cell (max (-1) (myLoop - 1)) (loop + 1))
  | push (g : Game ℝ) (cell : CellPtr) (myLoop : ℤ) (loop : ℕ) (o : CellPtr)
      (h : (g.cellsOf i)[loop]? = some o) : Round i (.inner g cell myLoop loop)
        (.inner ((g.noteSelf cell o).pushApart cell o) cell myLoop (loop + 1))
  | pass (g : Game ℝ) (cell : CellPtr) (myLoop : ℤ) (loop : ℕ) (o : CellPtr)
      (h : (g.cellsOf i)[loop]? = some o) : Round i (.inner g cell myLoop loop)
        (.inner (g.noteSelf cell o) cell myLoop (loop + 1))

theorem round_of_next {i : ℕ} {a b : SelfPoint ℝ} (h : a.next i = some b) : Round i a b := by
  cases a with
  | outer g myLoop =>
    unfold next at h
    dsimp only at h
    rcases hcell : (g.cellsOf i)[myLoop]? with - | cell
    · simp [hcell] at h
    · simp only [hcell, Option.some.injEq] at h
      exact h ▸ .enter g myLoop cell hcell
  | inner g cell myLoop loop =>
    unfold next at h
    dsimp only at h
    rcases ho : (g.cellsOf i)[loop]? with - | o
    · simp only [ho, Option.some.injEq] at h
      exact h ▸ .leave g cell myLoop loop ho
    · simp only [ho] at h
      by_cases hready : g.ready cell = true ∧ g.ready o = true
      · rw [if_pos hready] at h
        by_cases hover : Collision.overlap.rank ≤ ((g.heap cell).collide (g.heap o)).rank
        · rw [if_pos hover] at h
          by_cases hbig : (g.heap o).radius < (g.heap cell).radius
          · rw [if_pos hbig, Option.some.injEq] at h
            exact h ▸ .eat g cell myLoop loop o ho
          · rw [if_neg hbig, Option.some.injEq] at h
            exact h ▸ .absorb g cell myLoop loop o ho ⟨hready, hover, hbig⟩
        · rw [if_neg hover, Option.some.injEq] at h
          exact h ▸ .pass g cell myLoop loop o ho
      · rw [if_neg hready] at h
        by_cases htouch : Collision.none.rank < ((g.heap cell).collide (g.heap o)).rank
        · rw [if_pos htouch, Option.some.injEq] at h
          exact h ▸ .push g cell myLoop loop o ho
        · rw [if_neg htouch, Option.some.injEq] at h
          exact h ▸ .pass g cell myLoop loop o ho

theorem next_of_absorbs {i : ℕ} {g : Game ℝ} {cell o : CellPtr} {myLoop : ℤ} {loop : ℕ}
    (h : (g.cellsOf i)[loop]? = some o) (ha : g.Absorbs cell o) :
    (inner g cell myLoop loop).next i = some (.inner ((g.noteSelf cell o).absorbOwn i cell o myLoop)
      cell (max (-1) (myLoop - 1)) (loop + 1)) := by
  simp only [next, h, if_pos ha.1, if_pos ha.2.1, if_neg ha.2.2]

end SelfPoint

namespace Game

theorem noteSelf_cellsOf (g : Game ℝ) (a b : CellPtr) (i : ℕ) :
    (g.noteSelf a b).cellsOf i = g.cellsOf i := cellsOf_congr (noteSelf_players g a b) i

theorem noteSelf_undefined (g : Game ℝ) (a b : CellPtr) :
    (g.noteSelf a b).undefined = g.undefined := by
  unfold noteSelf noteCombine
  dsimp only
  split_ifs <;> rfl

theorem eatOwn_cellsOf (g : Game ℝ) (i loop : ℕ) (cell o : CellPtr)
    (h : (g.cellsOf i)[loop]? = some o) :
    (g.eatOwn i cell o loop).cellsOf i = (g.cellsOf i).eraseIdx loop :=
  cellsOf_setCells_self _ _ _ (lt_of_cellsOf h)

theorem absorbOwn_cellsOf (g : Game ℝ) (i m : ℕ) (cell o : CellPtr)
    (h : (g.cellsOf i)[m]? = some cell) :
    (g.absorbOwn i cell o m).cellsOf i = (g.cellsOf i).eraseIdx m ∧
      (g.absorbOwn i cell o m).undefined = g.undefined := by
  have hlt := getElem?_lt h
  unfold absorbOwn eraseCellAt
  rw [if_pos ⟨Int.natCast_nonneg m, Int.ofNat_lt.mpr hlt⟩, Int.toNat_natCast]
  exact ⟨cellsOf_setCells_self _ _ _ (lt_of_cellsOf h), rfl⟩

theorem absorbOwn_sublist (g : Game ℝ) (i : ℕ) (cell o : CellPtr) (myLoop : ℤ) :
    ((g.absorbOwn i cell o myLoop).cellsOf i).Sublist (g.cellsOf i) := by
  unfold absorbOwn
  exact eraseCellAt_sublist _ i myLoop i

theorem addSize_heap_congr {g g' : Game ℝ} (h : g'.heap = g.heap) (p : CellPtr) (s : ℝ) :
    (g'.addSize p s).heap = (g.addSize p s).heap := by
  unfold addSize
  funext q
  rw [setCell_heap, setCell_heap, note_heap, note_heap, h]

theorem absorbOwn_heap (g : Game ℝ) (i : ℕ) (cell o : CellPtr) (myLoop : ℤ) :
    (g.absorbOwn i cell o myLoop).heap = (g.addSize o (g.heap cell).size).heap := by
  unfold absorbOwn eraseCellAt
  dsimp only
  split_ifs <;> rfl

theorem moveRel_size (g : Game ℝ) (p : CellPtr) (v : Vec2 ℝ) (q : CellPtr) :
    ((g.setCell p ((g.heap p).moveRel v)).heap q).size = (g.heap q).size := by
  rw [setCell_heap]
  split_ifs with hq
  · rw [hq]
    rfl
  · rfl

theorem pushApart_size (g : Game ℝ) (a b q : CellPtr) :
    ((g.pushApart a b).heap q).size = (g.heap q).size := by
  unfold pushApart
  dsimp only
  rw [moveRel_size, moveRel_size]

theorem addSize_sizes (g : Game ℝ) (p : CellPtr) {s : ℝ} (hs : 0 ≤ s) (q : CellPtr) :
    ((g.addSize p s).heap q).size = (g.heap q).size + if q = p then s else 0 := by
  unfold addSize
  rw [setCell_heap]
  split_ifs with hq
  · rw [hq, Cell.addSize_size (by linarith [Cell.size_nonneg (g.heap p)]), add_comm]
  · exact (add_zero _).symm

theorem sum_handed {α : Type} [DecidableEq α] {l : List α} (hl : l.Nodup) (f : α → ℝ) {n : ℕ}
    {loser winner : α} (hn : l[n]? = some loser) (hw : winner ∈ l) (hne : winner ≠ loser) :
    ((l.eraseIdx n).map fun q => f q + if q = winner then f loser else 0).sum = (l.map f).sum := by
  obtain ⟨hlt, hget⟩ := List.getElem?_eq_some_iff.mp hn
  have herase : l.eraseIdx n = l.erase loser := by
    rw [← hget, hl.erase_getElem n hlt]
  have hloser : loser ∈ l := List.mem_of_getElem? hn
  have hwinner : winner ∈ l.erase loser := hl.mem_erase_iff.mpr ⟨hne, hw⟩
  have hrest : (((l.erase loser).erase winner).map fun q =>
      f q + if q = winner then f loser else 0) = ((l.erase loser).erase winner).map f := by
    refine List.map_congr_left fun q hq => ?_
    rw [if_neg ((hl.erase loser).mem_erase_iff.mp hq).1, add_zero]
  rw [herase, ← List.sum_map_erase _ hwinner, hrest, if_pos rfl, ← List.sum_map_erase f hloser,
    ← List.sum_map_erase f hwinner]
  ring

theorem mass_handed {g g' : Game ℝ} {i n : ℕ} (hnodup : (g.cellsOf i).Nodup)
    {loser winner : CellPtr} (hn : (g.cellsOf i)[n]? = some loser) (hw : winner ∈ g.cellsOf i)
    (hne : winner ≠ loser) (hcells : g'.cellsOf i = (g.cellsOf i).eraseIdx n)
    (hheap : g'.heap = (g.addSize winner (g.heap loser).size).heap) : g'.mass i = g.mass i := by
  unfold mass
  rw [hcells, ← sum_handed hnodup (fun c => (g.heap c).size) hn hw hne, hheap]
  refine congrArg List.sum (List.map_congr_left fun q _ => ?_)
  exact addSize_sizes g winner (Cell.size_nonneg _) q

theorem mass_congr {g g' : Game ℝ} {i : ℕ} (hcells : g'.cellsOf i = g.cellsOf i)
    (hsize : ∀ q, (g'.heap q).size = (g.heap q).size) : g'.mass i = g.mass i := by
  unfold mass
  rw [hcells]
  exact congrArg List.sum (List.map_congr_left fun q _ => hsize q)

end Game

/-- The cells of a player, each of them once. -/
structure OwnCells where
  game : Game ℝ
  index : ℕ
  distinct : (game.cellsOf index).Nodup

namespace OwnCells

/-- The pass comes to the point. -/
def Visits (c : OwnCells) (pt : SelfPoint ℝ) : Prop :=
  SelfPoint.Leads c.index (.outer c.game 0) pt

/-- The cells are merged soundly: two different cells are compared, both still in `Cells`; the slot
erased for a cell that is absorbed is its own; no erase is outside of the vector; the mass stays. -/
structure MergesSoundly (c : OwnCells) : Prop where
  compared : ∀ g cell myLoop loop o, c.Visits (.inner g cell myLoop loop) →
    (g.cellsOf c.index)[loop]? = some o → cell ∈ g.cellsOf c.index ∧ o ≠ cell
  erased : ∀ g cell myLoop loop o, c.Visits (.inner g cell myLoop loop) →
    (g.cellsOf c.index)[loop]? = some o → g.Absorbs cell o →
    0 ≤ myLoop ∧ (g.cellsOf c.index)[myLoop.toNat]? = some cell
  defined : (c.game.collideSelf c.index).undefined = c.game.undefined
  mass : (c.game.collideSelf c.index).mass c.index = c.game.mass c.index

/-- A cell is absorbed only by one of the last two cells of the vector. -/
def AbsorbsLast (c : OwnCells) : Prop :=
  ∀ g cell myLoop loop o, c.Visits (.inner g cell myLoop loop) →
    (g.cellsOf c.index)[loop]? = some o → g.Absorbs cell o → (g.cellsOf c.index).length ≤ loop + 2

theorem Visits.next {c : OwnCells} {pt pt' : SelfPoint ℝ} (h : c.Visits pt)
    (hn : pt.next c.index = some pt') : c.Visits pt' := h.tail hn

theorem Visits.distinct {c : OwnCells} {pt : SelfPoint ℝ} (h : c.Visits pt) :
    (pt.game.cellsOf c.index).Nodup := by
  induction h with
  | refl => exact c.distinct
  | tail _ hn ih =>
    cases SelfPoint.round_of_next hn with
    | enter g myLoop cell h => exact ih
    | leave g cell myLoop loop h => exact ih
    | eat g cell myLoop loop o h =>
      rw [← g.noteSelf_cellsOf cell o] at h
      show (((g.noteSelf cell o).eatOwn c.index cell o loop).cellsOf c.index).Nodup
      rw [(g.noteSelf cell o).eatOwn_cellsOf _ _ cell o h, g.noteSelf_cellsOf]
      exact ih.sublist (List.eraseIdx_sublist _ _)
    | absorb g cell myLoop loop o h habsorbs =>
      show (((g.noteSelf cell o).absorbOwn c.index cell o myLoop).cellsOf c.index).Nodup
      have hsub := (g.noteSelf cell o).absorbOwn_sublist c.index cell o myLoop
      rw [g.noteSelf_cellsOf] at hsub
      exact List.Nodup.sublist hsub ih
    | push g cell myLoop loop o h =>
      show (((g.noteSelf cell o).pushApart cell o).cellsOf c.index).Nodup
      rw [show ((g.noteSelf cell o).pushApart cell o).cellsOf c.index =
        (g.noteSelf cell o).cellsOf c.index from rfl, g.noteSelf_cellsOf]
      exact ih
    | pass g cell myLoop loop o h =>
      show ((g.noteSelf cell o).cellsOf c.index).Nodup
      rw [g.noteSelf_cellsOf]
      exact ih

/-- What holds at every point of a sound pass: nothing is lost, and the cell of the inner loop is in
its slot, unless the loop is over. -/
structure Steady (c : OwnCells) (pt : SelfPoint ℝ) : Prop where
  defined : pt.game.undefined = c.game.undefined
  mass : pt.game.mass c.index = c.game.mass c.index
  slot : ∀ g cell myLoop loop, pt = .inner g cell myLoop loop →
    (∃ m : ℕ, myLoop = m ∧ m < loop ∧ (g.cellsOf c.index)[m]? = some cell) ∨
      (g.cellsOf c.index).length ≤ loop

theorem slot_ne {l : List CellPtr} (hl : l.Nodup) {m loop : ℕ} (hlt : m < loop) {cell o : CellPtr}
    (hm : l[m]? = some cell) (ho : l[loop]? = some o) : o ≠ cell := by
  rintro rfl
  obtain ⟨hm', hm⟩ := List.getElem?_eq_some_iff.mp hm
  obtain ⟨ho', ho⟩ := List.getElem?_eq_some_iff.mp ho
  exact hlt.ne ((hl.getElem_inj_iff).mp (hm.trans ho.symm))

theorem Steady.slotOf {c : OwnCells} {g : Game ℝ} {cell : CellPtr} {myLoop : ℤ} {loop : ℕ}
    (h : c.Steady (.inner g cell myLoop loop)) {o : CellPtr}
    (ho : (g.cellsOf c.index)[loop]? = some o) :
    ∃ m : ℕ, myLoop = m ∧ m < loop ∧ (g.cellsOf c.index)[m]? = some cell := by
  rcases h.slot g cell myLoop loop rfl with h | h
  · exact h
  · exact absurd (Game.getElem?_lt ho) (not_lt.mpr h)

theorem Steady.next {c : OwnCells} {pt pt' : SelfPoint ℝ} (hs : c.Steady pt) (hv : c.Visits pt)
    (hlast : c.AbsorbsLast) (hn : pt.next c.index = some pt') : c.Steady pt' := by
  have hnodup := hv.distinct
  cases SelfPoint.round_of_next hn with
  | enter g myLoop cell h =>
    refine ⟨hs.defined, hs.mass, ?_⟩
    rintro g' cell' myLoop' loop' ⟨⟩
    exact Or.inl ⟨myLoop, rfl, Nat.lt_succ_self _, h⟩
  | leave g cell myLoop loop h =>
    refine ⟨hs.defined, hs.mass, ?_⟩
    rintro g' cell' myLoop' loop' ⟨⟩
  | eat g cell myLoop loop o h =>
    obtain ⟨m, rfl, hlt, hm⟩ := hs.slotOf h
    have hcells := g.noteSelf_cellsOf cell o c.index
    have hheap := (Game.noteSelf_frame g cell o).1
    have heaten := (g.noteSelf cell o).eatOwn_cellsOf c.index loop cell o
      (by rw [hcells]; exact h)
    rw [hcells] at heaten
    refine ⟨(g.noteSelf_undefined cell o).trans hs.defined, ?_, ?_⟩
    · refine Eq.trans ?_ hs.mass
      refine Game.mass_handed hnodup h (List.mem_of_getElem? hm) (slot_ne hnodup hlt hm h).symm
        heaten ?_
      show ((g.noteSelf cell o).addSize cell ((g.noteSelf cell o).heap o).size).heap = _
      rw [hheap]
      exact Game.addSize_heap_congr hheap cell _
    · rintro g' cell' myLoop' loop' ⟨⟩
      refine Or.inl ⟨m, rfl, hlt, ?_⟩
      rw [heaten, List.getElem?_eraseIdx_of_lt hlt]
      exact hm
  | absorb g cell myLoop loop o h habsorbs =>
    obtain ⟨m, rfl, hlt, hm⟩ := hs.slotOf h
    have hcells := g.noteSelf_cellsOf cell o c.index
    have hheap := (Game.noteSelf_frame g cell o).1
    obtain ⟨habsorbed, hdefined⟩ := (g.noteSelf cell o).absorbOwn_cellsOf c.index m cell o
      (by rw [hcells]; exact hm)
    rw [hcells] at habsorbed
    refine ⟨(hdefined.trans (g.noteSelf_undefined cell o)).trans hs.defined, ?_, ?_⟩
    · refine Eq.trans ?_ hs.mass
      refine Game.mass_handed hnodup hm (List.mem_of_getElem? h) (slot_ne hnodup hlt hm h)
        habsorbed ?_
      show ((g.noteSelf cell o).absorbOwn _ _ _ _).heap = _
      rw [Game.absorbOwn_heap, hheap]
      exact Game.addSize_heap_congr hheap o _
    · rintro g' cell' myLoop' loop' ⟨⟩
      refine Or.inr ?_
      have hlen := hlast g cell m loop o hv h habsorbs
      have hm' := Game.getElem?_lt hm
      rw [habsorbed, List.length_eraseIdx_of_lt hm']
      omega
  | push g cell myLoop loop o h =>
    obtain ⟨m, rfl, hlt, hm⟩ := hs.slotOf h
    have hcells := g.noteSelf_cellsOf cell o c.index
    have hheap := (Game.noteSelf_frame g cell o).1
    refine ⟨(g.noteSelf_undefined cell o).trans hs.defined, ?_, ?_⟩
    · refine Eq.trans ?_ hs.mass
      refine Game.mass_congr hcells fun q => ?_
      show (((g.noteSelf cell o).pushApart cell o).heap q).size = (g.heap q).size
      rw [Game.pushApart_size, hheap]
    · rintro g' cell' myLoop' loop' ⟨⟩
      refine Or.inl ⟨m, rfl, hlt.trans (Nat.lt_succ_self _), ?_⟩
      rw [show ((g.noteSelf cell o).pushApart cell o).cellsOf c.index =
        (g.noteSelf cell o).cellsOf c.index from rfl, hcells]
      exact hm
  | pass g cell myLoop loop o h =>
    obtain ⟨m, rfl, hlt, hm⟩ := hs.slotOf h
    have hcells := g.noteSelf_cellsOf cell o c.index
    have hheap := (Game.noteSelf_frame g cell o).1
    refine ⟨(g.noteSelf_undefined cell o).trans hs.defined, ?_, ?_⟩
    · refine Eq.trans ?_ hs.mass
      refine Game.mass_congr hcells fun q => ?_
      show ((g.noteSelf cell o).heap q).size = (g.heap q).size
      rw [hheap]
    · rintro g' cell' myLoop' loop' ⟨⟩
      refine Or.inl ⟨m, rfl, hlt.trans (Nat.lt_succ_self _), ?_⟩
      rw [hcells]
      exact hm

theorem Visits.steady {c : OwnCells} (hlast : c.AbsorbsLast) {pt : SelfPoint ℝ}
    (h : c.Visits pt) : c.Steady pt := by
  induction h with
  | refl =>
    refine ⟨rfl, rfl, ?_⟩
    rintro g cell myLoop loop ⟨⟩
  | tail hv hn ih => exact ih.next hv hlast hn

theorem absorbsLast_of_merges {c : OwnCells} (h : c.MergesSoundly) : c.AbsorbsLast := by
  intro g cell myLoop loop o hv ho habsorbs
  by_contra hlen
  obtain ⟨h0, hm⟩ := h.erased g cell myLoop loop o hv ho habsorbs
  obtain ⟨m, rfl⟩ := Int.eq_ofNat_of_zero_le h0
  rw [Int.toNat_natCast] at hm
  have hcells := g.noteSelf_cellsOf cell o c.index
  obtain ⟨habsorbed, -⟩ := (g.noteSelf cell o).absorbOwn_cellsOf c.index m cell o
    (by rw [hcells]; exact hm)
  rw [hcells] at habsorbed
  have hv' := hv.next (SelfPoint.next_of_absorbs ho habsorbs)
  have hm' := Game.getElem?_lt hm
  have hlt : loop + 1 < ((g.cellsOf c.index).eraseIdx m).length := by
    rw [List.length_eraseIdx_of_lt hm']
    omega
  -- the next comparison is with the erased cell
  have hmem := (h.compared _ cell _ (loop + 1) _ hv' (by
    rw [habsorbed]
    exact List.getElem?_eq_getElem hlt)).1
  obtain ⟨hlt', hget⟩ := List.getElem?_eq_some_iff.mp hm
  have hnodup : (g.cellsOf c.index).Nodup := hv.distinct
  rw [habsorbed, ← hnodup.erase_getElem m hlt', hget] at hmem
  exact (hnodup.mem_erase_iff.mp hmem).1 rfl

/-- Own cells are merged soundly exactly when a cell is absorbed only near the end of the vector:
elsewhere the inner loop goes on with the cell that has just been erased. -/
theorem merges_soundly (c : OwnCells) : c.MergesSoundly ↔ c.AbsorbsLast := by
  constructor
  · exact absorbsLast_of_merges
  · intro hlast
    obtain ⟨n, hend, -⟩ := SelfPoint.outer_leads c.game c.index 0
    have hv : c.Visits (.outer (c.game.collideSelf c.index) n) := hend
    refine ⟨fun g cell myLoop loop o hv ho => ?_, fun g cell myLoop loop o hv ho _ => ?_,
      (hv.steady hlast).defined, (hv.steady hlast).mass⟩
    · obtain ⟨m, -, hlt, hm⟩ := (hv.steady hlast).slotOf ho
      exact ⟨List.mem_of_getElem? hm, slot_ne hv.distinct hlt hm ho⟩
    · obtain ⟨m, rfl, -, hm⟩ := (hv.steady hlast).slotOf ho
      exact ⟨Int.natCast_nonneg m, by rwa [Int.toNat_natCast]⟩

end OwnCells

theorem collide_twins {a b : Cell ℝ} {r : ℝ} (hr : 0 < r) (ha : a.radius = r) (hb : b.radius = r)
    (hpos : a.position = b.position) : a.collide b = .overlap := by
  have hlength : (b.position - a.position).length = 0 := by
    rw [hpos]
    simp [Vec2.length]
  have hoverlap : a.overlapOf b = 2 * r := by
    unfold Cell.overlapOf
    rw [hlength, ha, hb]
    ring
  have hsize : a.size / b.size = 1 := by
    have hne : b.size ≠ 0 := (Cell.size_pos (by rw [hb]; exact hr)).ne'
    unfold Cell.size at hne ⊢
    rw [ha, ← hb]
    exact div_self hne
  rw [Cell.collide_of_solid (ha ▸ hr) (hb ▸ hr), hoverlap, hsize, ha, hb, min_self,
    div_self (by positivity)]
  rw [if_pos (by positivity), if_pos (by norm_num), if_neg (by norm_num), if_neg (by norm_num)]

/-- A player with four cells. -/
def fourfold (K : Type) [Field K] : Player K where
  wsi := 0
  cells := [0, 1, 2, 3]
  camera := 0
  doSplit := false
  doFeed := false
  topLeft := ⟨0, 0⟩
  bottomRight := ⟨0, 0⟩
  totalRadius := 0
  sendTime := 0
  blocks := []
  cellHistory := []
  wsMessage := .new

/-- A cell of the smallest radius, ready to combine. -/
def readyCell (K : Type) [Field K] (p : CellPtr) : Cell K where
  force := 0
  acceleration := 0
  velocity := 0
  position := 0
  id := BitVec.ofNat 32 p
  color := 0
  flag := playerFlag
  radius := playerMinRadius
  mouseVector := 0
  combineTime := 0
  combineSet := true

/-- The cells of the player lie in one place. -/
def fourCells (K : Type) [Field K] : Game K :=
  { Game.empty (fun _ => 0) fun _ => 0 with
    allocated := 4
    heap := readyCell K
    players := [fourfold K]
    currentTime := 1 }

theorem fourCells_distinct : ((fourCells ℝ).cellsOf 0).Nodup := by
  show ([0, 1, 2, 3] : List ℕ).Nodup
  decide

theorem fourCells_absorbs : (fourCells ℝ).Absorbs 0 1 := by
  have hready : ∀ p, (fourCells ℝ).ready p = true := fun p => by
    have hlt : (0 : ℝ) < 1 := zero_lt_one
    exact decide_eq_true hlt
  have hcollide : ((fourCells ℝ).heap 0).collide ((fourCells ℝ).heap 1) = .overlap :=
    collide_twins (r := playerMinRadius) (by norm_num [playerMinRadius]) rfl rfl rfl
  refine ⟨⟨hready 0, hready 1⟩, ?_, lt_irrefl (playerMinRadius : ℝ)⟩
  rw [hcollide]

/-- The first of four equal cells is absorbed by the second one and goes on to the fourth. -/
theorem absorbed_cell_compared : ¬ OwnCells.MergesSoundly
    { game := fourCells ℝ, index := 0, distinct := fourCells_distinct } := by
  intro h
  have hv : OwnCells.Visits { game := fourCells ℝ, index := 0, distinct := fourCells_distinct }
      (.inner (fourCells ℝ) 0 (0 : ℕ) 1) := .single rfl
  have hlen : (4 : ℕ) ≤ 1 + 2 :=
    OwnCells.absorbsLast_of_merges h _ 0 _ 1 1 hv rfl fourCells_absorbs
  exact absurd hlen (by decide)

end Agar
