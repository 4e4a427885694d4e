import Agar.Containers

/-! What lasts of a cell: a property that growing and moving leave survives the collision passes, in
all cells at once. A pop is the one step in which new cells come up. -/

namespace Agar

/-- A property of cells that growing and moving leave. -/
structure Cell.Lasting (P : Cell ℝ → Prop) : Prop where
  addSize : ∀ c s, 0 ≤ s → P c → P (c.addSize s)
  moveRel : ∀ c v, P c → P (c.moveRel v)

theorem Cell.lasting_combineSet : Cell.Lasting fun c => c.combineSet = true :=
  ⟨fun _ _ _ h => h, fun _ _ h => h⟩

theorem Cell.lasting_radius : Cell.Lasting fun c => 0 < c.radius :=
  ⟨fun _ _ hs h => addSize_radius_pos (add_pos_of_pos_of_nonneg (size_pos h) hs), fun _ _ h => h⟩

theorem Cell.lasting_unsigned : Cell.Lasting fun c => 0 ≤ c.radius :=
  ⟨fun _ _ _ _ => Real.sqrt_nonneg _, fun _ _ h => h⟩

/-- `CombineTime` is read before anything was assigned to it. -/
def Call.Premature : Call ℝ → Prop
  | .readCombine _ assigned => assigned = false
  | _ => False

namespace Game
variable {P : Cell ℝ → Prop} {touched : Set ℕ} {g g' g'' : Game ℝ}

/-- No cell is created, the players named may lose cells, and what lasts of a cell lasts. -/
structure Retains (P : Cell ℝ → Prop) (touched : Set ℕ) (g g' : Game ℝ) : Prop where
  allocated : g'.allocated = g.allocated
  lasting : ∀ p, P (g.heap p) → P (g'.heap p)
  cells : ∀ j, (g'.cellsOf j).Sublist (g.cellsOf j)
  others : ∀ j ∉ touched, g'.cellsOf j = g.cellsOf j

theorem Retains.refl (g : Game ℝ) : Retains P touched g g :=
  ⟨rfl, fun _ h => h, fun _ => List.Sublist.refl _, fun _ _ => rfl⟩

theorem Retains.trans (h : Retains P touched g g') (h' : Retains P touched g' g'') :
    Retains P touched g g'' where
  allocated := h'.allocated.trans h.allocated
  lasting := fun p hp => h'.lasting p (h.lasting p hp)
  cells := fun j => (h'.cells j).trans (h.cells j)
  others := fun j hj => (h'.others j hj).trans (h.others j hj)

theorem Retains.mono {touched' : Set ℕ} (h : Retains P touched g g') (hsub : touched ⊆ touched') :
    Retains P touched' g g' :=
  ⟨h.allocated, h.lasting, h.cells, fun j hj => h.others j fun hj' => hj (hsub hj')⟩

theorem retains_foldl {α : Type} {f : Game ℝ → α → Game ℝ} {l : List α}
    (h : ∀ g, ∀ a ∈ l, Retains P touched g (f g a)) (g : Game ℝ) :
    Retains P touched g (l.foldl f g) := by
  induction l generalizing g with
  | nil => exact Retains.refl g
  | cons a l ih =>
    exact (h g a List.mem_cons_self).trans
      (ih (fun g b hb => h g b (List.mem_cons_of_mem a hb)) _)

theorem Retains.of_eq (hallocated : g'.allocated = g.allocated) (hheap : g'.heap = g.heap)
    (hplayers : g'.players = g.players) : Retains P touched g g' :=
  ⟨hallocated, fun p hp => by rwa [hheap], fun j => by rw [cellsOf_congr hplayers],
    fun j _ => cellsOf_congr hplayers j⟩

theorem retains_note (g : Game ℝ) (c : Call ℝ) : Retains P touched g (g.note c) :=
  Retains.of_eq rfl rfl rfl

theorem retains_noteCollide (g : Game ℝ) (a b : CellPtr) : Retains P touched g (g.noteCollide a b) :=
  retains_note g _

theorem retains_pushRemoveDynamic (g : Game ℝ) (p : CellPtr) :
    Retains P touched g (g.pushRemoveDynamic p) := Retains.of_eq rfl rfl rfl

theorem retains_setCell {p : CellPtr} {c : Cell ℝ} (h : P (g.heap p) → P c) :
    Retains P touched g (g.setCell p c) := by
  refine ⟨rfl, fun q hq => ?_, fun _ => List.Sublist.refl _, fun _ _ => rfl⟩
  rw [setCell_heap]
  split_ifs with hqp
  · exact h (hqp ▸ hq)
  · exact hq

theorem retains_addSize (hP : Cell.Lasting P) (g : Game ℝ) (p : CellPtr) {s : ℝ} (hs : 0 ≤ s) :
    Retains P touched g (g.addSize p s) :=
  (retains_note g (.addSize p (g.heap p).size s)).trans (retains_setCell (hP.addSize _ s hs))

theorem retains_eraseCell (g : Game ℝ) {i : ℕ} (hi : i ∈ touched) (loop : ℕ) :
    Retains P touched g (g.eraseCell i loop) :=
  ⟨rfl, fun _ h => h, eraseCell_sublist g i loop,
    fun _ hj => cellsOf_setCells_ne g _ fun h => hj (h ▸ hi)⟩

theorem retains_eraseCellAt (g : Game ℝ) {i : ℕ} (hi : i ∈ touched) (myLoop : ℤ) :
    Retains P touched g (g.eraseCellAt i myLoop) := by
  unfold eraseCellAt
  split_ifs
  · exact retains_eraseCell g hi _
  · exact Retains.of_eq rfl rfl rfl

theorem eatStatic_retains (hP : Cell.Lasting P) (g : Game ℝ) (cell s : CellPtr) (b : Vec2i)
    (loop : ℕ) : Retains P touched g (g.eatStatic cell s b loop) := by
  have herase : Retains P touched (g.addSize cell (g.heap s).size) (g.eatStatic cell s b loop) :=
    Retains.of_eq rfl rfl rfl
  exact (retains_addSize hP g cell (Cell.size_nonneg (g.heap s))).trans herase

theorem collideBlock_retains (hP : Cell.Lasting P) (g : Game ℝ) (cell : CellPtr) (b : Vec2i)
    (loop : ℕ) : Retains P ∅ g (g.collideBlock cell b loop) := by
  fun_induction collideBlock g cell b loop with
  | case1 g loop hnone => exact Retains.refl g
  | case2 g loop s hs hbig ih =>
    exact ((retains_noteCollide g cell s).trans (eatStatic_retains hP _ cell s b loop)).trans ih
  | case3 g loop s hs hbig ih => exact (retains_noteCollide g cell s).trans ih

theorem collideStatic_retains (hP : Cell.Lasting P) (g : Game ℝ) (i : ℕ) :
    Retains P ∅ g (g.collideStatic i) :=
  retains_foldl (fun g cell _ => retains_foldl (fun g b _ => collideBlock_retains hP g cell b 0) g) g

theorem eatDynamic_retains (hP : Cell.Lasting P) (g : Game ℝ) (cell d : CellPtr) (loop : ℕ) :
    Retains P touched g (g.eatDynamic cell d loop) := by
  have herase : Retains P touched (g.addSize cell (g.heap d).size) (g.eatDynamic cell d loop) :=
    Retains.of_eq rfl rfl rfl
  exact (retains_addSize hP g cell (Cell.size_nonneg (g.heap d))).trans herase

theorem noteSelf_retains (g : Game ℝ) (a b : CellPtr) : Retains P touched g (g.noteSelf a b) :=
  Retains.of_eq (noteSelf_frame g a b).2.2 (noteSelf_frame g a b).1 (noteSelf_players g a b)

theorem eatOwn_retains (hP : Cell.Lasting P) (g : Game ℝ) (i : ℕ) (cell o : CellPtr) (loop : ℕ) :
    Retains P {i} g (g.eatOwn i cell o loop) :=
  ((retains_addSize hP g cell (Cell.size_nonneg (g.heap o))).trans
    (retains_pushRemoveDynamic _ o)).trans (retains_eraseCell _ (Set.mem_singleton i) loop)

theorem absorbOwn_retains (hP : Cell.Lasting P) (g : Game ℝ) (i : ℕ) (cell o : CellPtr)
    (myLoop : ℤ) : Retains P {i} g (g.absorbOwn i cell o myLoop) :=
  (((retains_addSize hP g o (Cell.size_nonneg (g.heap cell))).trans (retains_note _ _)).trans
    (retains_pushRemoveDynamic _ cell)).trans
      (retains_eraseCellAt _ (Set.mem_singleton i) myLoop)

theorem pushApart_retains (hP : Cell.Lasting P) (g : Game ℝ) (cell o : CellPtr) :
    Retains P touched g (g.pushApart cell o) :=
  (retains_setCell (hP.moveRel _ _)).trans (retains_setCell (hP.moveRel _ _))

theorem collideSelfWith_retains (hP : Cell.Lasting P) (g : Game ℝ) (i : ℕ) (cell : CellPtr)
    (myLoop : ℤ) (loop : ℕ) : Retains P {i} g (g.collideSelfWith i cell myLoop loop).1 := by
  fun_induction collideSelfWith g i cell myLoop loop with
  | case1 g myLoop loop hnone => exact Retains.refl g
  | case2 g myLoop loop o ho result g' hready hover hbig ih =>
    exact ((noteSelf_retains g cell o).trans (eatOwn_retains hP g' i cell o loop)).trans ih
  | case3 g myLoop loop o ho result g' hready hover hbig ih =>
    exact ((noteSelf_retains g cell o).trans (absorbOwn_retains hP g' i cell o myLoop)).trans ih
  | case4 g myLoop loop o ho result g' hready hover ih =>
    exact (noteSelf_retains g cell o).trans ih
  | case5 g myLoop loop o ho result g' hready htouch ih =>
    exact ((noteSelf_retains g cell o).trans (pushApart_retains hP g' cell o)).trans ih
  | case6 g myLoop loop o ho result g' hready htouch ih =>
    exact (noteSelf_retains g cell o).trans ih

theorem collideSelf_retains (hP : Cell.Lasting P) (g : Game ℝ) (i : ℕ) :
    Retains P {i} g (g.collideSelf i) := by
  have hfrom : ∀ (g : Game ℝ) myLoop, Retains P {i} g (g.collideSelfFrom i myLoop) := by
    intro g myLoop
    fun_induction collideSelfFrom g i myLoop with
    | case1 g myLoop hnone => exact Retains.refl g
    | case2 g myLoop cell hc r ih =>
      exact (collideSelfWith_retains hP g i cell myLoop (myLoop + 1)).trans ih
  exact hfrom g 0

theorem eatOther_retains (hP : Cell.Lasting P) (g : Game ℝ) (i x : ℕ) (cell o : CellPtr)
    (loop : ℕ) : Retains P {i, x} g (g.eatOther x cell o loop) :=
  ((retains_addSize hP g cell (Cell.size_nonneg (g.heap o))).trans
    (retains_pushRemoveDynamic _ o)).trans (retains_eraseCell _ (Or.inr rfl) loop)

theorem absorbOther_retains (hP : Cell.Lasting P) (g : Game ℝ) (i x : ℕ) (cell o : CellPtr)
    (myLoop : ℕ) : Retains P {i, x} g (g.absorbOther i cell o myLoop) :=
  ((retains_addSize hP g o (Cell.size_nonneg (g.heap cell))).trans
    (retains_pushRemoveDynamic _ cell)).trans (retains_eraseCell _ (Or.inl rfl) myLoop)

theorem collideOtherWith_retains (hP : Cell.Lasting P) (g : Game ℝ) (i x : ℕ) (cell : CellPtr)
    (myLoop loop : ℕ) : Retains P {i, x} g (g.collideOtherWith i x cell myLoop loop).1 := by
  fun_induction collideOtherWith g i x cell myLoop loop with
  | case1 g loop hnone => exact Retains.refl g
  | case2 g loop o ho result g' hbig ih =>
    exact ((retains_noteCollide g cell o).trans (eatOther_retains hP g' i x cell o loop)).trans ih
  | case3 g loop o ho result g' hbig hsmall =>
    exact (retains_noteCollide g cell o).trans (absorbOther_retains hP g' i x cell o myLoop)
  | case4 g loop o ho result g' hbig hsmall ih => exact (retains_noteCollide g cell o).trans ih

theorem collideOtherFrom_retains (hP : Cell.Lasting P) (g : Game ℝ) (i x myLoop : ℕ) :
    Retains P {i, x} g (g.collideOtherFrom i x myLoop) := by
  fun_induction collideOtherFrom g i x myLoop with
  | case1 g myLoop hnone => exact Retains.refl g
  | case2 g myLoop cell hc hback ih =>
    exact (collideOtherWith_retains hP g i x cell myLoop 0).trans ih
  | case3 g myLoop cell hc hback ih =>
    exact (collideOtherWith_retains hP g i x cell myLoop 0).trans ih

/-- No call since has read a `CombineTime` too early. -/
def Punctual (g g' : Game ℝ) : Prop := ∀ c ∈ g'.calls, c ∈ g.calls ∨ ¬ c.Premature

theorem Punctual.of_eq (h : g'.calls = g.calls) : Punctual g g' := fun _ hc => Or.inl (h ▸ hc)

theorem Punctual.trans (h : Punctual g g') (h' : Punctual g' g'') : Punctual g g'' := fun c hc => by
  rcases h' c hc with hc | hc
  · exact h c hc
  · exact Or.inr hc

theorem punctual_calls {c : Call ℝ} (hc : ¬ c.Premature) (h : g'.calls = g.calls ++ [c]) :
    Punctual g g' := fun d hd => by
  rw [h] at hd
  rcases List.mem_append.mp hd with hd | hd
  · exact Or.inl hd
  · exact Or.inr (List.mem_singleton.mp hd ▸ hc)

theorem punctual_foldl {α : Type} {f : Game ℝ → α → Game ℝ} (h : ∀ g a, Punctual g (f g a))
    (g : Game ℝ) (l : List α) : Punctual g (l.foldl f g) := by
  induction l generalizing g with
  | nil => exact Punctual.of_eq rfl
  | cons a l ih => exact (h g a).trans (ih _)

theorem noteCollide_punctual (g : Game ℝ) (a b : CellPtr) : Punctual g (g.noteCollide a b) :=
  punctual_calls id rfl

theorem grow_punctual {p : CellPtr} {s : ℝ} (h : g'.calls = (g.addSize p s).calls) :
    Punctual g g' := punctual_calls (c := .addSize p (g.heap p).size s) id h

theorem collideBlock_punctual (g : Game ℝ) (cell : CellPtr) (b : Vec2i) (loop : ℕ) :
    Punctual g (g.collideBlock cell b loop) := by
  fun_induction collideBlock g cell b loop with
  | case1 g loop hnone => exact Punctual.of_eq rfl
  | case2 g loop s hs hbig ih =>
    have heat : Punctual (g.noteCollide cell s) ((g.noteCollide cell s).eatStatic cell s b loop) :=
      grow_punctual rfl
    exact ((noteCollide_punctual g cell s).trans heat).trans ih
  | case3 g loop s hs hbig ih => exact (noteCollide_punctual g cell s).trans ih

theorem collideStatic_punctual (g : Game ℝ) (i : ℕ) : Punctual g (g.collideStatic i) :=
  punctual_foldl (fun g cell =>
    punctual_foldl (fun g b => collideBlock_punctual g cell b 0) g _) g _

theorem eatDynamic_punctual (g : Game ℝ) (cell d : CellPtr) (loop : ℕ) :
    Punctual g ((g.noteCollide cell d).eatDynamic cell d loop) := by
  have heat : Punctual (g.noteCollide cell d) ((g.noteCollide cell d).eatDynamic cell d loop) :=
    grow_punctual rfl
  exact (noteCollide_punctual g cell d).trans heat

theorem collideOtherWith_punctual (g : Game ℝ) (i x : ℕ) (cell : CellPtr) (myLoop loop : ℕ) :
    Punctual g (g.collideOtherWith i x cell myLoop loop).1 := by
  fun_induction collideOtherWith g i x cell myLoop loop with
  | case1 g loop hnone => exact Punctual.of_eq rfl
  | case2 g loop o ho result g' hbig ih =>
    have heat : Punctual g' (g'.eatOther x cell o loop) := grow_punctual rfl
    exact ((noteCollide_punctual g cell o).trans heat).trans ih
  | case3 g loop o ho result g' hbig hsmall =>
    have habsorb : Punctual g' (g'.absorbOther i cell o myLoop) := grow_punctual rfl
    exact (noteCollide_punctual g cell o).trans habsorb
  | case4 g loop o ho result g' hbig hsmall ih => exact (noteCollide_punctual g cell o).trans ih

theorem collideOtherFrom_punctual (g : Game ℝ) (i x myLoop : ℕ) :
    Punctual g (g.collideOtherFrom i x myLoop) := by
  fun_induction collideOtherFrom g i x myLoop with
  | case1 g myLoop hnone => exact Punctual.of_eq rfl
  | case2 g myLoop cell hc hback ih =>
    exact (collideOtherWith_punctual g i x cell myLoop 0).trans ih
  | case3 g myLoop cell hc hback ih =>
    exact (collideOtherWith_punctual g i x cell myLoop 0).trans ih

/-- New cells have come up behind those of player `i`, with their combine times; of the others only
`cell` has changed. -/
structure Sprouts (i : ℕ) (cell : CellPtr) (g g' : Game ℝ) (news : List CellPtr) : Prop where
  allocated : g.allocated ≤ g'.allocated
  length : g'.players.length = g.players.length
  cells : g'.cellsOf i = g.cellsOf i ++ news
  others : ∀ j, j ≠ i → g'.cellsOf j = g.cellsOf j
  fresh : ∀ p ∈ news, g.allocated ≤ p ∧ p < g'.allocated ∧ (g'.heap p).combineSet = true
  heap : ∀ q < g.allocated, q ≠ cell → g'.heap q = g.heap q
  set : (g.heap cell).combineSet = true → (g'.heap cell).combineSet = true
  punctual : Punctual g g'

variable {i : ℕ} {cell : CellPtr}

theorem Sprouts.of_eq (hallocated : g'.allocated = g.allocated) (hplayers : g'.players = g.players)
    (hheap : ∀ q, q ≠ cell → g'.heap q = g.heap q)
    (hset : (g.heap cell).combineSet = true → (g'.heap cell).combineSet = true)
    (hcalls : Punctual g g') : Sprouts i cell g g' [] :=
  ⟨hallocated.ge, by rw [hplayers], by rw [cellsOf_congr hplayers, List.append_nil],
    fun j _ => cellsOf_congr hplayers j, fun _ hp => (by cases hp), fun q _ => hheap q, hset,
    hcalls⟩

theorem Sprouts.trans {cell' : CellPtr} {news news' : List CellPtr}
    (h : Sprouts i cell g g' news) (h' : Sprouts i cell' g' g'' news') (hcell : cell < g.allocated)
    (hcell' : cell' = cell ∨ g.allocated ≤ cell') : Sprouts i cell g g'' (news ++ news') where
  allocated := h.allocated.trans h'.allocated
  length := h'.length.trans h.length
  cells := by rw [h'.cells, h.cells, List.append_assoc]
  others := fun j hj => (h'.others j hj).trans (h.others j hj)
  fresh := fun p hp => by
    rcases List.mem_append.mp hp with hp | hp
    · obtain ⟨hge, hlt, hset⟩ := h.fresh p hp
      refine ⟨hge, hlt.trans_le h'.allocated, ?_⟩
      by_cases hpc : p = cell'
      · rw [hpc] at hset ⊢
        exact h'.set hset
      · rw [h'.heap p hlt hpc]
        exact hset
    · obtain ⟨hge, hlt, hset⟩ := h'.fresh p hp
      exact ⟨h.allocated.trans hge, hlt, hset⟩
  heap := fun q hq hqc => by
    have hqc' : q ≠ cell' := by
      rcases hcell' with hc | hc
      · rwa [hc]
      · exact (hq.trans_le hc).ne
    rw [h'.heap q (hq.trans_le h.allocated) hqc', h.heap q hq hqc]
  set := fun hset => by
    rcases hcell' with hc | hc
    · rw [hc] at h'
      exact h'.set (h.set hset)
    · rw [h'.heap cell (hcell.trans_le h.allocated) (hcell.trans_le hc).ne]
      exact h.set hset
  punctual := h.punctual.trans h'.punctual

theorem sprouts_spawn {base : Game ℝ} {c : Cell ℝ} (hbase : Sprouts i cell g base [])
    (hallocated : base.allocated = g.allocated) (hi : i < g.players.length)
    (hcell : cell < g.allocated) (hc : c.combineSet = true) :
    Sprouts i cell g (base.spawn i c) [g.allocated] := by
  have hspawn : Sprouts i cell base (base.spawn i c) [base.allocated] := by
    have hi' : i < base.players.length := by rw [hbase.length]; exact hi
    refine ⟨Nat.le_succ _, ?_, ?_, fun j hj => ?_, fun p hp => ?_, fun q hq _ => ?_,
      fun hset => ?_, punctual_calls (c := .pushed ((base.spawn i c).cellsOf i).length) id rfl⟩
    · simp [spawn, pushCell, setCells, note, setCell]
    · rw [spawn_cellsOf _ _ _ _ hi', if_pos rfl]
    · rw [spawn_cellsOf _ _ _ _ hi', if_neg (Ne.symm hj)]
    · rw [List.mem_singleton.mp hp, spawn_heap, if_pos rfl]
      exact ⟨le_rfl, Nat.lt_succ_self _, hc⟩
    · rw [spawn_heap, if_neg hq.ne]
    · rw [spawn_heap, if_neg (by rw [hallocated]; exact hcell.ne)]
      exact hset
  have h := hbase.trans hspawn hcell (Or.inl rfl)
  rwa [hallocated] at h

theorem bigPop_sprouts (g : Game ℝ) (angle : Vec2 ℝ) (hcell : cell < g.allocated)
    (hi : i < g.players.length) :
    Sprouts i cell g (g.bigPop i cell angle).2 [g.allocated] ∧
    ((g.bigPop i cell angle).2.heap cell).combineSet = true := by
  obtain ⟨-, h2⟩ := bigPop_eq g i cell angle hcell
  have hbase : Sprouts i cell g (g.bigPopBase cell) [] := by
    refine Sprouts.of_eq rfl rfl (fun q hq => ?_) (fun _ => ?_) (grow_punctual rfl)
    · simp [bigPopBase, addSize, setCombine, setCell, note, hq]
    · simp [bigPopBase, setCombine, setCell]
  have hnew : ((g.bigPop i cell angle).2.heap g.allocated).combineSet = true := by
    simp [bigPop, newPlayerCell, newCell, setCombine, setCell, pushCell, setCells, note, addSize,
      Cell.addVelocity, hcell.ne, hcell.ne.symm]
  rw [h2]
  refine ⟨sprouts_spawn hbase rfl hi hcell hnew, ?_⟩
  rw [spawn_heap, bigPopBase_allocated, if_neg hcell.ne]
  simp [bigPopBase, setCombine, setCell]

theorem bigPops_sprouts (g : Game ℝ) (angle : Vec2 ℝ) (left : ℕ) (hcell : cell < g.allocated)
    (hi : i < g.players.length) : ∃ news, Sprouts i cell g (g.bigPops i cell angle left) news ∧
      (500 < (g.heap cell).size ∧ (g.cellsOf i).length < 16 → left ≠ 0 →
        ((g.bigPops i cell angle left).heap cell).combineSet = true) := by
  induction left generalizing g cell angle with
  | zero => exact ⟨[], Sprouts.of_eq rfl rfl (fun _ _ => rfl) id (Punctual.of_eq rfl), fun _ h => absurd rfl h⟩
  | succ left ih =>
    rw [bigPops]
    split_ifs with h
    · obtain ⟨hpop, hset⟩ := bigPop_sprouts g (angle.rotate (6.28 / 4)) hcell hi
      have h1 := (bigPop_eq g i cell (angle.rotate (6.28 / 4)) hcell).1
      obtain ⟨-, hlt, -⟩ := hpop.fresh g.allocated List.mem_cons_self
      obtain ⟨news, hnews, -⟩ := ih (g.bigPop i cell (angle.rotate (6.28 / 4))).2
        (angle.rotate (6.28 / 4))
        (h1 ▸ hlt : (g.bigPop i cell (angle.rotate (6.28 / 4))).1 < _)
        (by rw [hpop.length]; exact hi)
      refine ⟨_, hpop.trans hnews hcell (Or.inr (by rw [h1])), fun _ _ => ?_⟩
      rw [hnews.heap cell (hcell.trans_le hpop.allocated) (by rw [h1]; exact hcell.ne)]
      exact hset
    · exact ⟨[], Sprouts.of_eq rfl rfl (fun _ _ => rfl) id (Punctual.of_eq rfl), fun hbig => absurd hbig h⟩

theorem smallBall_sprouts (g : Game ℝ) (d : CellPtr) (sizeSmall sumR : ℝ)
    (hcell : cell < g.allocated) (hi : i < g.players.length) :
    Sprouts i cell g (g.smallBall i cell d sizeSmall sumR) [g.allocated] ∧
    (g.smallBall i cell d sizeSmall sumR).heap cell = g.heap cell := by
  have hnew : ((g.smallBall i cell d sizeSmall sumR).heap g.allocated).combineSet = true := by
    simp [smallBall, randDirection, nextRand, newPlayerCell, newCell, setCombine, setCell,
      pushCell, setCells, note, Cell.addVelocity]
  have hbase : Sprouts i cell g g.nextRand.2.nextRand.2 [] :=
    Sprouts.of_eq rfl rfl (fun _ _ => rfl) id (Punctual.of_eq rfl)
  rw [smallBall_eq]
  refine ⟨sprouts_spawn hbase rfl hi hcell hnew, ?_⟩
  rw [spawn_heap]
  exact if_neg hcell.ne

theorem smallBallsLoop_sprouts (g : Game ℝ) (d : CellPtr) (sizeSmall sumR : ℝ) (n : ℕ)
    (hcell : cell < g.allocated) (hi : i < g.players.length) :
    (∃ news, news.length = n ∧
      Sprouts i cell g (g.smallBallsLoop i cell d sizeSmall sumR n) news) ∧
    (g.smallBallsLoop i cell d sizeSmall sumR n).heap cell = g.heap cell := by
  induction n generalizing g with
  | zero => exact ⟨⟨[], rfl, Sprouts.of_eq rfl rfl (fun _ _ => rfl) id (Punctual.of_eq rfl)⟩, rfl⟩
  | succ n ih =>
    obtain ⟨hball, hsame⟩ := smallBall_sprouts g d sizeSmall sumR hcell hi
    obtain ⟨⟨news, hlen, hnews⟩, hsame'⟩ := ih (g.smallBall i cell d sizeSmall sumR)
      (hcell.trans_le hball.allocated) (by rw [hball.length]; exact hi)
    refine ⟨⟨_, ?_, hball.trans hnews hcell (Or.inl rfl)⟩, hsame'.trans hsame⟩
    rw [List.length_append, hlen, List.length_singleton, Nat.add_comm]

theorem smallBalls_sprouts (g : Game ℝ) (d : CellPtr) (hcell : cell < g.allocated)
    (hi : i < g.players.length) :
    let balls := smallBallCount (g.cellsOf i).length (g.heap cell).size
    (∃ news, news.length = balls ∧ Sprouts i cell g (g.smallBalls i cell d) news) ∧
    (g.smallBalls i cell d).heap cell = if balls ≠ 0 then
      (g.heap cell).addSize (-(balls : ℝ) * smallBallSize balls (g.heap cell).size)
    else g.heap cell := by
  intro balls
  unfold smallBalls
  dsimp only
  rw [show smallBallCount (g.cellsOf i).length (g.heap cell).size = balls from rfl]
  split_ifs with hballs
  · let base := (g.note (.slots (g.cellsOf i).length)).addSize cell
      (-(balls : ℝ) * smallBallSize balls (g.heap cell).size)
    have hbase : Sprouts i cell g base [] :=
      Sprouts.of_eq rfl rfl (fun q hq => setCell_heap_ne _ _ _ hq) (fun hset => by
        show (((g.note _).addSize cell _).heap cell).combineSet = true
        unfold addSize
        rw [setCell_heap_self]
        exact hset) ((punctual_calls (c := .slots (g.cellsOf i).length) id rfl).trans
          (grow_punctual rfl))
    obtain ⟨⟨news, hlen, hnews⟩, hsame⟩ := smallBallsLoop_sprouts base d
      (smallBallSize balls (g.heap cell).size)
      ((base.heap cell).radius + Cell.getRadius (smallBallSize balls (g.heap cell).size)) balls
      hcell hi
    refine ⟨⟨news, hlen, hbase.trans hnews hcell (Or.inl rfl)⟩, hsame.trans ?_⟩
    exact setCell_heap_self _ _ _
  · have hnone : balls = 0 := not_not.mp hballs
    have hslots : Punctual g (g.note (.slots (g.cellsOf i).length)) := punctual_calls id rfl
    exact ⟨⟨[], hnone.symm, Sprouts.of_eq rfl rfl (fun _ _ => rfl) id hslots⟩, rfl⟩

theorem popVirus_sprouts (g : Game ℝ) (d : CellPtr) (hcell : cell < g.allocated)
    (hi : i < g.players.length) : ∃ news, Sprouts i cell g (g.popVirus i cell d) news ∧
      (500 < (g.heap cell).size ∧ (g.cellsOf i).length < 16 →
        ((g.popVirus i cell d).heap cell).combineSet = true) := by
  obtain ⟨news, hnews, hset⟩ := bigPops_sprouts g ⟨1, 0⟩ 4 hcell hi
  let popped := (g.bigPops i cell ⟨1, 0⟩ 4).note (.pop cell (g.heap cell).size (g.cellsOf i).length)
  have hpopped : Sprouts i cell g popped news :=
    ⟨hnews.allocated, hnews.length, hnews.cells, hnews.others, hnews.fresh, hnews.heap, hnews.set,
      hnews.punctual.trans (punctual_calls id rfl)⟩
  obtain ⟨⟨balls, -, hballs⟩, -⟩ := smallBalls_sprouts popped d (i := i)
    (hcell.trans_le hpopped.allocated) (by rw [hpopped.length]; exact hi)
  exact ⟨_, hpopped.trans hballs hcell (Or.inl rfl), fun hbig =>
    hballs.set (hset hbig (by decide))⟩

theorem splitCell_sprouts {i : ℕ} {cell : CellPtr} (hcell : cell < g.allocated)
    (hi : i < g.players.length) : Sprouts i cell g (g.splitCell i cell) [g.allocated] ∧
      ((g.splitCell i cell).heap cell).combineSet = true := by
  have hbase : Sprouts i cell g (g.splitBase cell) [] := by
    refine Sprouts.of_eq rfl rfl (fun q hq => ?_) (fun _ => ?_) (Punctual.of_eq rfl)
    · simp [splitBase, setCombine, setCell, hq]
    · simp [splitBase, setCombine, setCell]
  have hnew : ((g.splitCell i cell).heap g.allocated).combineSet = true := by
    simp [splitCell, newPlayerCell, newCell, setCombine, setCell, pushCell, setCells, note,
      Cell.addVelocity]
  rw [splitCell_eq g i cell hcell]
  refine ⟨sprouts_spawn hbase rfl hi hcell hnew, ?_⟩
  rw [spawn_heap]
  have hne : cell ≠ (g.splitBase cell).allocated := hcell.ne
  rw [if_neg hne]
  simp [splitBase, setCombine, setCell]

theorem feedCell_sprouts (g : Game ℝ) (i : ℕ) {cell : CellPtr} (hcell : cell < g.allocated) :
    Sprouts i cell g (g.feedCell cell) [] := by
  by_cases hsize : playerMinSize < (g.heap cell).size - feedSize
  · have hplayers : (g.feedCell cell).players = g.players := by
      rw [feedCell, if_pos hsize]
      rfl
    refine ⟨?_, by rw [hplayers], by rw [cellsOf_congr hplayers, List.append_nil],
      fun j _ => cellsOf_congr hplayers j, fun p hp => (by cases hp), fun q hq hqc => ?_,
      fun hset => ?_, ?_⟩
    · rw [feedCell, if_pos hsize]
      exact Nat.le_succ _
    · simp [feedCell, hsize, newCell, nextRand, setCell, addSize, note, addDynamic, hqc, hq.ne]
    · simp [feedCell, hsize, newCell, nextRand, setCell, addSize, note, addDynamic, hcell.ne,
        Cell.addSize, hset]
    · refine grow_punctual (p := cell) (s := -feedSize) ?_
      rw [feedCell, if_pos hsize]
      rfl
  · rw [feedCell, if_neg hsize]
    exact Sprouts.of_eq rfl rfl (fun _ _ => rfl) id (Punctual.of_eq rfl)

end Game

/-- Packets, sends and the coming and going of players leave the sizes and the times of the cells
alone, and a new player has one new cell. -/
structure Lulls (s s' : Sys ℝ) : Prop where
  calls : s'.game.calls = s.game.calls
  cell : ∀ c < s.game.allocated, (s'.game.heap c).radius = (s.game.heap c).radius ∧
    (s'.game.heap c).combineSet = (s.game.heap c).combineSet
  players : ∀ q ∈ s'.game.players, (∃ p ∈ s.game.players, q.cells = p.cells) ∨
    (q.cells = [s.game.allocated] ∧ (s'.game.heap s.game.allocated).radius = 1000)
  trace : ∃ os, s'.trace = s.trace ++ os ∧ ∀ o ∈ os, ∀ g g', o ≠ .collided g g'

theorem Game.mouse_lulls (g : Game ℝ) (cells : List CellPtr) (m : Vec2 ℝ) :
    (g.mouse cells m).calls = g.calls ∧ ∀ c, ((g.mouse cells m).heap c).radius =
      (g.heap c).radius ∧ ((g.mouse cells m).heap c).combineSet = (g.heap c).combineSet := by
  unfold mouse
  induction cells generalizing g with
  | nil => exact ⟨rfl, fun c => ⟨rfl, rfl⟩⟩
  | cons q cells ih =>
    obtain ⟨hcalls, hcell⟩ := ih (g.setCell q { g.heap q with
      mouseVector := m - (g.heap q).position })
    refine ⟨hcalls, fun c => ?_⟩
    obtain ⟨hr, hs⟩ := hcell c
    rw [List.foldl_cons, hr, hs, setCell_heap]
    split_ifs with h
    · rw [h]
      exact ⟨rfl, rfl⟩
    · exact ⟨rfl, rfl⟩

theorem Game.receiveAll_lulls (g : Game ℝ) (w : Wsi) (packet : List Byte) (beyond : ℕ → Byte) :
    (g.receiveAll w packet beyond).calls = g.calls ∧
    ∀ c, ((g.receiveAll w packet beyond).heap c).radius = (g.heap c).radius ∧
      ((g.receiveAll w packet beyond).heap c).combineSet = (g.heap c).combineSet := by
  unfold receiveAll
  induction List.range g.players.length generalizing g with
  | nil => exact ⟨rfl, fun c => ⟨rfl, rfl⟩⟩
  | cons i is ih =>
    have hat : (receiveAt w packet beyond g i).calls = g.calls ∧
        ∀ c, ((receiveAt w packet beyond g i).heap c).radius = (g.heap c).radius ∧
          ((receiveAt w packet beyond g i).heap c).combineSet = (g.heap c).combineSet := by
      unfold receiveAt
      rcases g.players[i]? with - | p
      · exact ⟨rfl, fun c => ⟨rfl, rfl⟩⟩
      · dsimp only
        split_ifs
        · unfold receivePlayer
          dsimp only
          split_ifs
          · exact mouse_lulls (g.modifyPlayer i _) _ _
          all_goals exact ⟨rfl, fun c => ⟨rfl, rfl⟩⟩
        · exact ⟨rfl, fun c => ⟨rfl, rfl⟩⟩
    obtain ⟨hcalls, hcell⟩ := ih (receiveAt w packet beyond g i)
    exact ⟨hcalls.trans hat.1, fun c => ⟨(hcell c).1.trans (hat.2 c).1,
      (hcell c).2.trans (hat.2 c).2⟩⟩

theorem Lulls.of_cells {s s' : Sys ℝ} (hcalls : s'.game.calls = s.game.calls)
    (hheap : s'.game.heap = s.game.heap)
    (hplayers : ∀ q ∈ s'.game.players, ∃ p ∈ s.game.players, q.cells = p.cells)
    (os : List (Obs ℝ)) (htrace : s'.trace = s.trace ++ os)
    (hos : ∀ o ∈ os, ∀ g g', o ≠ .collided g g') : Lulls s s' :=
  ⟨hcalls, fun c _ => by rw [hheap]; exact ⟨rfl, rfl⟩, fun q hq => Or.inl (hplayers q hq), os,
    htrace, hos⟩

theorem Sys.erasePlayer_lulls (s : Sys ℝ) (x : ℕ) : Lulls s (s.erasePlayer x) := by
  refine .of_cells rfl rfl (fun q hq => ?_) [.erased s.game x] rfl (by simp)
  have hmap : (s.erasePlayer x).game.players.map Player.cells =
      (s.game.players.map Player.cells).eraseIdx x :=
    MovedVector.eraseAt_carried Game.moves_carried _ _
  have hmem : q.cells ∈ (s.erasePlayer x).game.players.map Player.cells :=
    List.mem_map_of_mem hq
  rw [hmap] at hmem
  obtain ⟨p, hp, hcells⟩ := List.mem_map.mp ((List.eraseIdx_sublist _ _).subset hmem)
  exact ⟨p, hp, hcells.symm⟩

theorem Move.lulls {a : Stage} {s s' : Sys ℝ} (h : Move (a, s) (a, s')) (hi : Invariant a s) :
    Lulls s s' := by
  cases h with
  | kick _ x hx => exact s.erasePlayer_lulls x
  | send _ clock accepts i =>
    rcases Sys.sendAt_cases s clock accepts i with h | ⟨p, hp, -, -, h⟩
    · rw [h]
      exact .of_cells rfl rfl (fun q hq => ⟨q, hq, rfl⟩) [] (List.append_nil _).symm
        fun o ho => by cases ho
    · rw [h]
      refine .of_cells rfl rfl (fun q hq => ?_) [.wrote p.wsi clock p.wsMessage.pending] rfl
        (by simp)
      rcases List.mem_or_eq_of_mem_set hq with hq | hq
      · exact ⟨q, hq, rfl⟩
      · exact ⟨p, List.mem_of_getElem? hp, by rw [hq]⟩
  | join _ w grown hw =>
    obtain ⟨-, hheap, -, -, hradius⟩ := Game.newPlayer_spec s.game w
    have hcells : (s.join w grown).game.players.map Player.cells =
        s.game.players.map Player.cells ++ [(s.game.newPlayer w).1.cells] :=
      MovedVector.emplaceBack_carried Game.moves_carried _ _ _
    refine ⟨rfl, fun c hc => ?_, fun q hq => ?_, [_], rfl, by simp⟩
    · show ((s.game.newPlayer w).2.heap c).radius = _ ∧
        ((s.game.newPlayer w).2.heap c).combineSet = _
      rw [hheap c hc.ne]
      exact ⟨rfl, rfl⟩
    · have hmem : q.cells ∈ (s.join w grown).game.players.map Player.cells :=
        List.mem_map_of_mem hq
      rw [hcells] at hmem
      rcases List.mem_append.mp hmem with hmem | hmem
      · obtain ⟨p, hp, hpc⟩ := List.mem_map.mp hmem
        exact Or.inl ⟨p, hp, hpc.symm⟩
      · exact Or.inr ⟨List.mem_singleton.mp hmem, hradius⟩
  | receive _ w packet beyond =>
    unfold Sys.receive
    dsimp only
    split_ifs with hlen
    · exact .of_cells rfl rfl (fun q hq => ⟨q, hq, rfl⟩) [.received w packet] rfl (by simp)
    · have hne : packet ≠ [] := fun h => hlen (by rw [h]; decide)
      obtain ⟨hcalls, hcell⟩ := s.game.receiveAll_lulls w packet beyond
      refine ⟨hcalls, fun c _ => hcell c, fun q hq => Or.inl ?_, [.received w packet,
        .requested w], by simp [Sys.observe], by simp⟩
      have hplayers : (s.game.receiveAll w packet beyond).players =
          s.game.players.map (Player.received w packet) :=
        (Game.receiveAll_spec hi.wellFormed hne).2
      have hq' : q ∈ (s.game.receiveAll w packet beyond).players := hq
      rw [hplayers] at hq'
      obtain ⟨p, hp, rfl⟩ := List.mem_map.mp hq'
      refine ⟨p, hp, ?_⟩
      unfold Player.received
      split_ifs <;> rfl
  | close _ x hx => exact s.erasePlayer_lulls x

theorem Game.Motion.prefix_calls {moved : List CellPtr} {g g' : Game ℝ} (h : Motion moved g g') :
    g.calls <+: g'.calls := by
  obtain ⟨cs, hcalls, -⟩ := h.calls
  rw [hcalls]
  exact List.prefix_append _ _

/-- What was recorded stays recorded, and a collision phase is what it says. -/
structure Recorded (s s' : Sys ℝ) : Prop where
  calls : s.game.calls <+: s'.game.calls
  collided : ∀ g g', .collided g g' ∈ s'.trace → .collided g g' ∈ s.trace ∨
    (g.WellFormed ∧ g' = g.collisionPhase ∧ s'.game = g')

theorem Recorded.of_trace {s s' : Sys ℝ} (hcalls : s.game.calls <+: s'.game.calls)
    (os : List (Obs ℝ)) (htrace : s'.trace = s.trace ++ os)
    (hos : ∀ o ∈ os, ∀ g g', o ≠ .collided g g') : Recorded s s' := by
  refine ⟨hcalls, fun g g' h => ?_⟩
  rw [htrace] at h
  rcases List.mem_append.mp h with h | h
  · exact Or.inl h
  · exact absurd rfl (hos _ h g g')

theorem Lulls.recorded {s s' : Sys ℝ} (h : Lulls s s') : Recorded s s' := by
  obtain ⟨os, htrace, hos⟩ := h.trace
  exact .of_trace (by rw [h.calls]) os htrace hos

theorem Move.recorded {a b : Stage} {s s' : Sys ℝ} (h : Move (a, s) (b, s'))
    (hi : Invariant a s) : Recorded s s' := by
  cases h with
  | begin _ clock =>
    have hm := Game.updateDynamic_motion (s.game.beginTick clock) (clock - s.game.currentTime)
    have hcalls : (s.game.beginTick clock).calls <+: ((s.game.beginTick clock).updateDynamic
        (clock - s.game.currentTime)).calls := hm.prefix_calls
    exact .of_trace hcalls [] (List.append_nil _).symm fun o ho => by cases ho
  | kick _ x hx => exact (Move.lulls (.kick s x hx) hi).recorded
  | collide _ =>
    refine ⟨((Game.collisionPhase_leads s.game).frame hi.wellFormed).calls, fun g g' h => ?_⟩
    rcases List.mem_append.mp h with h | h
    · exact Or.inl h
    · obtain ⟨rfl, rfl⟩ := Obs.collided.inj (List.mem_singleton.mp h)
      exact Or.inr ⟨hi.wellFormed, rfl, rfl⟩
  | drive _ dt =>
    exact .of_trace (Game.drive_motion s.game dt).prefix_calls [] (List.append_nil _).symm
      fun o ho => by cases ho
  | update _ n p hp =>
    obtain ⟨-, hdrift, -⟩ := Game.commands_spec hi.wellFormed hp
    unfold Sys.updateAt
    rw [hp]
    refine .of_trace hdrift.calls _ rfl fun o ho g g' hc => ?_
    rw [hc] at ho
    simp at ho
  | replay _ n hn =>
    have hcalls : s.game.parseEvents.calls = s.game.calls := by
      rw [(Game.parseEvents_prunes hi.additions).rest]
    refine .of_trace ?_ [.ticked s.game.parseEvents] rfl (by simp)
    show _ <+: s.game.parseEvents.calls
    rw [hcalls]
  | send _ clock accepts i => exact (Move.lulls (.send s clock accepts i) hi).recorded
  | join _ w grown hnew => exact (Move.lulls (.join s w grown hnew) hi).recorded
  | receive _ w packet beyond => exact (Move.lulls (.receive s w packet beyond) hi).recorded
  | close _ x hx => exact (Move.lulls (.close s x hx) hi).recorded

theorem DynamicPoint.onward {g : Game ℝ} {i : ℕ} {pt : DynamicPoint ℝ}
    (h : Leads i (.outer g 0) pt) : ∃ n, Leads i pt (.outer (g.collideDynamic i) n) := by
  obtain ⟨n, hend, hlast⟩ := outer_leads g i 0
  refine ⟨n, ?_⟩
  have hunique : Relator.RightUnique fun a b : DynamicPoint ℝ => a.next i = some b :=
    fun a b c hb hc => Option.some.inj (hb.symm.trans hc)
  rcases Relation.ReflTransGen.total_of_right_unique hunique h hend with hpath | hpath
  · exact hpath
  · rcases Relation.ReflTransGen.cases_head hpath with heq | ⟨q, hq, -⟩
    · rw [← heq]
      exact .refl
    · have hq' : (DynamicPoint.outer (g.collideDynamicFrom i 0) n).next i = some q := hq
      rw [hlast] at hq'
      cases hq'

theorem Game.collideOwn_frame {g : Game ℝ} (hw : g.WellFormed) {n : ℕ}
    (hn : n < g.players.length) :
    Frame (((g.beforeDynamic n).collideDynamic n).collideSelf n) g.collisionPhase := by
  obtain ⟨k, hk⟩ := Nat.exists_eq_add_of_lt hn
  have hdone : ((g.beforeDynamic n).collideDynamic n).collideSelf n =
      (List.range (n + 1)).foldl collideOwn g := by
    rw [List.range_succ, List.foldl_append]
    rfl
  have hstart := collideOwns_leads (List.range (n + 1)) g fun i hi =>
    (List.mem_range.mp hi).trans_le hn
  have hw' := hstart.wellFormed hw
  have hsplit : List.range g.players.length =
      List.range (n + 1) ++ (List.range k).map (n + 1 + ·) := by
    rw [hk, show n + k + 1 = n + 1 + k by omega]
    exact List.range_add ..
  have hrest := collideOwns_leads ((List.range k).map (n + 1 + ·))
    ((List.range (n + 1)).foldl collideOwn g) fun i hi => by
      obtain ⟨j, hj, rfl⟩ := List.mem_map.mp hi
      rw [players_length (hstart.frame hw), hk]
      have := List.mem_range.mp hj
      omega
  unfold collisionPhase
  dsimp only
  rw [hdone, hsplit, List.foldl_append]
  exact (hrest.trans (leads_foldl _ (fun g i => collideOtherPlayer_leads g i) _ _)).frame hw'

theorem Game.collideOwn_calls {g : Game ℝ} (hw : g.WellFormed) {n : ℕ}
    (hn : n < g.players.length) :
    (((g.beforeDynamic n).collideDynamic n).collideSelf n).calls <+: g.collisionPhase.calls :=
  (collideOwn_frame hw hn).calls

theorem Run.collided (r : Run ℝ) {g g' : Game ℝ} (h : .collided g g' ∈ r.final.trace) :
    g.WellFormed ∧ g' = g.collisionPhase ∧ g'.calls <+: r.final.game.calls := by
  refine Run.induction (P := fun _ s => ∀ g g', .collided g g' ∈ s.trace → g.WellFormed ∧
    g' = g.collisionPhase ∧ g'.calls <+: s.game.calls) (fun _ _ g g' h => by cases h)
    (fun a s b s' hi hm hs g g' h => ?_) r g g' h
  have hr := hm.recorded hi
  rcases hr.collided g g' h with h | ⟨hw, hphase, hgame⟩
  · obtain ⟨hw, hphase, hcalls⟩ := hs g g' h
    exact ⟨hw, hphase, hcalls.trans hr.calls⟩
  · exact ⟨hw, hphase, by rw [hgame]⟩

end Agar
