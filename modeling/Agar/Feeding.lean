import Agar.Containers
import Agar.Worlds

/-! A player that feeds and eats its food again: its only cell shrinks and is never divided. In the
end it finds the viruses. -/

namespace Agar
open MovedVector Sys

/-- The viruses of the map. -/
def viruses : List CellPtr := List.range' maxFood maxVirus

/-- A place out of reach of the origin. -/
def aside : Draw := (1200, 0)

theorem spot_aside : spot aside = ⟨1200, 0⟩ := by
  refine Vec2.ext ?_ ?_
  · show ((1200 % mapSize : ℕ) : ℝ) = 1200
    norm_num [mapSize, numBlocks, blockSize]
  · show ((0 % mapSize : ℕ) : ℝ) = 0
    norm_num

theorem mem_viruses {d : CellPtr} (h : d ∈ viruses) : d < firstCell := (List.mem_range'_1.mp h).2

/-- A food that lies at the origin. -/
structure Cell.Dropped (c : Cell ℝ) : Prop where
  resting : c.Resting
  origin : c.position = 0
  positive : 0 < c.radius
  size : c.size = 15
  flag : c.flag = foodFlag

/-- The cell with size `m`. -/
noncomputable def Cell.sized (c : Cell ℝ) (m : ℝ) : Cell ℝ := { c with radius := Real.sqrt (m * 100) }

section Sized
variable {c : Cell ℝ} {m : ℝ}

theorem Cell.sized_size (hm : 0 ≤ m) : (c.sized m).size = m := Cell.sqrt_size hm

theorem Cell.sized_pos (hm : 0 < m) : 0 < (c.sized m).radius := Real.sqrt_pos.mpr (by linarith)

theorem Cell.sized_le (hm : m ≤ 10000) : (c.sized m).radius ≤ 1000 :=
  Real.sqrt_le_iff.mpr ⟨by norm_num, by linarith⟩

theorem Cell.Resting.sized (h : c.Resting) (m : ℝ) : (c.sized m).Resting :=
  ⟨h.force, h.acceleration, h.velocity, h.onMap⟩

end Sized

namespace Game
variable {g g' : Game ℝ} {p p' : Player ℝ} {c c' : Cell ℝ} {foods foods' : List CellPtr} {m m' : ℝ}

theorem Placed.congr {food virus : Draw} (h : Placed food virus g) (hrand : ∀ n, g'.rand n = 0)
    (hstatic : g'.staticMap = g.staticMap) (hdynamic : g'.dynamicMap = g.dynamicMap)
    (hheap : ∀ q < firstCell, g'.heap q = g.heap q) : Placed food virus g' := by
  have hfirst : maxFood ≤ firstCell := Nat.le_add_right maxFood maxVirus
  refine ⟨hrand, fun b s hs => ?_, ?_, hdynamic.trans h.dynamic, fun d hd => ?_⟩
  · rw [hstatic] at hs
    have hold := h.static b s hs
    rwa [hheap s (hold.1.trans_le hfirst)]
  · rw [hstatic]
    exact h.first
  · rw [hdynamic] at hd
    have hold := h.virus d hd
    rw [h.dynamic] at hd
    rwa [hheap d (mem_viruses hd)]

/-- One player is there with its only cell, `c` with size `m`, and some of its food lies where it
stands. -/
structure Fed (g : Game ℝ) (p : Player ℝ) (c : Cell ℝ) (foods : List CellPtr) (m : ℝ) : Prop where
  placed : Placed corner aside { g with dynamicMap := viruses }
  dynamic : g.dynamicMap = viruses ++ foods
  dropped : ∀ f ∈ foods, firstCell < f ∧ f < g.allocated ∧ (g.heap f).Dropped
  allocated : firstCell < g.allocated
  players : g.players = [p]
  cells : p.cells = [firstCell]
  cell : g.heap firstCell = c.sized m
  origin : c.position = 0
  positive : 0 < m
  small : m ≤ 10000

theorem Fed.congr (h : Fed g p c foods m) (hrand : ∀ n, g'.rand n = 0)
    (hstatic : g'.staticMap = g.staticMap) (hheap : ∀ q < firstCell, g'.heap q = g.heap q)
    (hallocated : g.allocated ≤ g'.allocated) (hplayers : g'.players = [p'])
    (hcells : p'.cells = p.cells) (hdynamic : g'.dynamicMap = viruses ++ foods')
    (hdropped : ∀ f ∈ foods', firstCell < f ∧ f < g'.allocated ∧ (g'.heap f).Dropped)
    (hcell : g'.heap firstCell = c'.sized m') (horigin : c'.position = 0) (hpositive : 0 < m')
    (hsmall : m' ≤ 10000) : Fed g' p' c' foods' m' :=
  ⟨h.placed.congr hrand hstatic rfl hheap, hdynamic, hdropped, h.allocated.trans_le hallocated,
    hplayers, hcells.trans h.cells, hcell, horigin, hpositive, hsmall⟩

theorem Fed.same (h : Fed g p c foods m) (hs : Same g g') (hplayers : g'.players = [p'])
    (hcells : p'.cells = p.cells) : Fed g' p' c foods m := by
  refine h.congr (fun n => ?_) hs.staticMap (fun q _ => congrFun hs.heap q) hs.allocated.ge hplayers
    hcells (hs.dynamicMap.trans h.dynamic) (fun f hf => ?_) ?_ h.origin h.positive h.small
  · rw [hs.rand]
    exact h.placed.rand n
  · rw [hs.heap, hs.allocated]
    exact h.dropped f hf
  · rw [hs.heap]
    exact h.cell

theorem Fed.setPlayer (h : Fed g p c foods m) (hcells : p'.cells = p.cells) :
    Fed { g with players := [p'] } p' c foods m :=
  h.congr h.placed.rand rfl (fun _ _ => rfl) le_rfl rfl hcells h.dynamic h.dropped h.cell h.origin
    h.positive h.small

theorem Fed.quiet (h : Fed g p c foods m) (hq : Quiet g g') : Fed g' p c foods m :=
  h.same hq.told.same (hq.players.trans h.players) rfl

theorem Fed.cellsOf (h : Fed g p c foods m) (i : ℕ) :
    g.cellsOf i = if i = 0 then [firstCell] else [] := by
  unfold Game.cellsOf
  rw [h.players]
  rcases i with - | i
  · exact h.cells
  · simp

theorem Fed.virus (h : Fed g p c foods m) {d : CellPtr} (hd : d ∈ viruses) :
    (g.heap d).Resting ∧ (g.heap d).position = ⟨1200, 0⟩ ∧ (g.heap d).radius = virusMinRadius ∧
      (g.heap d).flag = virusFlag := by
  rw [← spot_aside]
  exact h.placed.virus d hd

theorem Fed.static (h : Fed g p c foods m) (b : Vec2i) {s : CellPtr} (hs : s ∈ g.staticMap b) :
    (g.heap firstCell).collide (g.heap s) ≠ .bigger := by
  obtain ⟨-, hposition, hradius⟩ := h.placed.static b s hs
  have hposition' : (g.heap s).position = spot corner := hposition
  have hradius' : (g.heap s).radius = foodRadius := hradius
  rw [h.cell, collide_remote (c := c.sized m) h.origin (Cell.sized_le h.small)
    (hposition' ▸ corner_far) (by rw [hradius']; norm_num [foodRadius])]
  exact Collision.noConfusion

theorem Fed.eat {f : CellPtr} (h : Fed g p c (f :: foods) m) (hmax : m + 15 ≤ 10000) :
    Fed ((g.noteCollide firstCell f).eatDynamic firstCell f viruses.length) p c foods (m + 15) := by
  obtain ⟨-, -, hfood⟩ := h.dropped f List.mem_cons_self
  have hsize : (g.heap firstCell).size = m := by rw [h.cell, Cell.sized_size h.positive.le]
  have hcell : (((g.noteCollide firstCell f).eatDynamic firstCell f viruses.length).heap
      firstCell) = c.sized (m + 15) := by
    simp only [eatDynamic, eraseDynamic, pushRemoveDynamic, addSize, noteCollide, note, setCell,
      Cell.addSize, arith_sqrt_real, if_true]
    rw [hsize, hfood.size, h.cell, add_comm]
    rfl
  have hothers : ∀ q, q ≠ firstCell →
      ((g.noteCollide firstCell f).eatDynamic firstCell f viruses.length).heap q = g.heap q := by
    intro q hq
    simp [eatDynamic, eraseDynamic, pushRemoveDynamic, addSize, noteCollide, note, setCell, hq]
  refine h.congr h.placed.rand rfl (fun q hq => hothers q hq.ne) le_rfl h.players rfl ?_
    (fun q hq => ?_) hcell h.origin (by linarith [h.positive]) hmax
  · show g.dynamicMap.eraseIdx viruses.length = _
    rw [h.dynamic, List.eraseIdx_append_of_length_le le_rfl, Nat.sub_self]
    rfl
  · obtain ⟨hlt, hold⟩ := h.dropped q (List.mem_cons_of_mem f hq)
    rw [hothers q hlt.ne']
    exact ⟨hlt, hold⟩

theorem Fed.spares (h : Fed g p c foods m) {d : CellPtr} (hd : d ∈ viruses) :
    (g.heap firstCell).collide (g.heap d) = .none := by
  obtain ⟨-, hposition, hradius, -⟩ := h.virus hd
  rw [h.cell]
  refine collide_remote (c := c.sized m) h.origin (Cell.sized_le h.small) ?_ ?_
  · rw [hposition]
    norm_num
  · rw [hradius]
    norm_num [virusMinRadius]

theorem Fed.tastes {f : CellPtr} (h : Fed g p c foods m) (hf : f ∈ foods) (hm : 20 < m) :
    (g.heap firstCell).collide (g.heap f) = .bigger := by
  obtain ⟨-, -, hfood⟩ := h.dropped f hf
  rw [h.cell, Cell.collide_same (Cell.sized_pos h.positive) hfood.positive
    (h.origin.trans hfood.origin.symm), Cell.sized_size h.positive.le, hfood.size]
  refine if_pos ?_
  rw [gt_iff_lt, lt_div_iff₀ (by norm_num)]
  linarith

/-- The first cell has a weight of its own and that of its food, together `total`. -/
def Grazes (g : Game ℝ) (p : Player ℝ) (c : Cell ℝ) (total : ℝ) : Prop :=
  ∃ foods m, Fed g p c foods m ∧ 20 < m ∧ m + 15 * (foods.length : ℝ) = total

theorem Fed.entry (h : Fed g p c foods m) {loop : ℕ} (hloop : loop ≤ viruses.length) {d : CellPtr}
    (hd : g.dynamicMap[loop]? = some d) : d ∈ viruses ∧ loop + 1 ≤ viruses.length ∨
      loop = viruses.length ∧ ∃ fs, foods = d :: fs := by
  rw [h.dynamic] at hd
  rcases hloop.lt_or_eq with hlt | rfl
  · rw [List.getElem?_append_left hlt] at hd
    exact Or.inl ⟨List.mem_of_getElem? hd, hlt⟩
  · rw [List.getElem?_append_right le_rfl, Nat.sub_self] at hd
    rcases foods with - | ⟨f, fs⟩
    · cases hd
    · exact Or.inr ⟨rfl, fs, by rw [Option.some.inj hd]⟩

theorem Grazes.scan {total : ℝ} (h : Grazes g p c total) (hmax : total ≤ 10000) (i : ℕ)
    (cell : CellPtr) (hcell : cell = firstCell) (myLoop loop : ℕ) (hloop : loop ≤ viruses.length) :
    Fed (g.collideDynamicWith i cell myLoop loop).1 p c [] total ∧
      (g.collideDynamicWith i cell myLoop loop).2 = false := by
  fun_induction Game.collideDynamicWith g i cell myLoop loop with
  | case1 g loop hnone =>
    obtain ⟨foods, m, hfed, hm, rfl⟩ := h
    rw [hfed.dynamic, List.getElem?_eq_none_iff, List.length_append] at hnone
    obtain rfl := List.eq_nil_of_length_eq_zero (l := foods) (by omega)
    rw [List.length_nil, Nat.cast_zero, mul_zero, add_zero]
    exact ⟨hfed, rfl⟩
  | case2 g loop d hd flag result hbig g' hpop =>
    obtain ⟨foods, m, hfed, hm, rfl⟩ := h
    subst hcell
    rcases hfed.entry hloop hd with ⟨hvirus, -⟩ | ⟨-, fs, rfl⟩
    · exact absurd (hbig.symm.trans (hfed.spares hvirus)) Collision.noConfusion
    · obtain ⟨-, -, hfood⟩ := hfed.dropped d List.mem_cons_self
      have hnot : flag.isVirus = false := congrArg CellFlag.isVirus hfood.flag
      rw [hnot] at hpop
      cases hpop.1
  | case3 g loop d hd flag result hbig g' hpop ih =>
    obtain ⟨foods, m, hfed, hm, rfl⟩ := h
    subst hcell
    rcases hfed.entry hloop hd with ⟨hvirus, -⟩ | ⟨rfl, fs, rfl⟩
    · exact absurd (hbig.symm.trans (hfed.spares hvirus)) Collision.noConfusion
    · rw [List.length_cons, Nat.cast_succ] at hmax ih ⊢
      have hlen : (0 : ℝ) ≤ fs.length := Nat.cast_nonneg _
      have hnext := hfed.eat (by linarith)
      exact ih ⟨fs, m + 15, hnext, by linarith, by ring⟩ hloop
  | case4 g loop d hd flag result hbig hsmall =>
    obtain ⟨foods, m, hfed, hm, rfl⟩ := h
    subst hcell
    rcases hfed.entry hloop hd with ⟨hvirus, -⟩ | ⟨-, fs, rfl⟩
    · exact absurd (hsmall.1.symm.trans (hfed.spares hvirus)) Collision.noConfusion
    · exact absurd (hfed.tastes List.mem_cons_self hm) hbig
  | case5 g loop d hd flag result hbig hsmall ih =>
    obtain ⟨foods, m, hfed, hm, htotal⟩ := h
    rcases hfed.entry hloop hd with ⟨-, hnext⟩ | ⟨-, fs, rfl⟩
    · exact ih ⟨foods, m, hfed.quiet (quiet_note g _), hm, htotal⟩ hnext
    · subst hcell
      exact absurd (hfed.tastes List.mem_cons_self hm) hbig

theorem Grazes.collideDynamic {total : ℝ} (h : Grazes g p c total) (hmax : total ≤ 10000) :
    Fed (g.collideDynamic 0) p c [] total := by
  obtain ⟨hnext, hstay⟩ := h.scan hmax 0 firstCell rfl 0 0 (Nat.zero_le _)
  obtain ⟨foods, m, hfed, -⟩ := h
  have hhead : (g.cellsOf 0)[0]? = some firstCell := by
    rw [hfed.cellsOf]
    rfl
  have hend : ((g.collideDynamicWith 0 firstCell 0 0).1.cellsOf 0)[0 + 1]? = none := by
    rw [hnext.cellsOf]
    rfl
  have hdone : g.collideDynamic 0 = (g.collideDynamicWith 0 firstCell 0 0).1 := by
    unfold Game.collideDynamic
    rw [collideDynamicFrom]
    split
    · next hnone => rw [hhead] at hnone; cases hnone
    · next cell hcell =>
      obtain rfl := Option.some.inj (hhead.symm.trans hcell)
      rw [if_neg (by rw [hstay]; exact Bool.false_ne_true), collideDynamicFrom]
      split
      · rfl
      · next hcell' => rw [hend] at hcell'; cases hcell'
  rw [hdone]
  exact hnext

theorem Grazes.quiet {total : ℝ} (h : Grazes g p c total) (hq : Quiet g g') :
    Grazes g' p c total := by
  obtain ⟨foods, m, hfed, hrest⟩ := h
  exact ⟨foods, m, hfed.quiet hq, hrest⟩

theorem Grazes.same {total : ℝ} (h : Grazes g p c total) (hs : Same g g')
    (hplayers : g'.players = [p']) (hcells : p'.cells = p.cells) : Grazes g' p' c total := by
  obtain ⟨foods, m, hfed, hrest⟩ := h
  exact ⟨foods, m, hfed.same hs hplayers hcells, hrest⟩

theorem Grazes.collisionPhase {total : ℝ} (h : Grazes g p c total) (hmax : total ≤ 10000) :
    Fed g.collisionPhase p c [] total := by
  obtain ⟨foods, m, hfed, -⟩ := id h
  have hstatic := collideStatic_quiet g 0 fun o ho b s hs => by
    rw [hfed.cellsOf, if_pos rfl] at ho
    rw [List.mem_singleton.mp ho]
    exact hfed.static b hs
  have hdynamic := (h.quiet hstatic).collideDynamic hmax
  have hself := hdynamic.quiet (collideSelfFrom_quiet _ 0 0 fun k n _ o hkn _ ho => by
    have hn := getElem?_lt ho
    rw [hdynamic.cellsOf, if_pos rfl, List.length_singleton] at hn
    omega)
  have hphase : g.collisionPhase = g.collideOwn 0 := by
    have hlen : (g.collideOwn 0).players.length = 1 := by
      rw [show (g.collideOwn 0).players = [p] from hself.players]
      rfl
    unfold Game.collisionPhase
    dsimp only
    rw [hfed.players, List.length_singleton, List.range_one, List.foldl_cons, List.foldl_nil, hlen,
      List.range_one, List.foldl_cons, List.foldl_nil]
    unfold collideOtherPlayer
    rw [hlen]
    rfl
  rw [hphase]
  exact hself

theorem Fed.resting (h : Fed g p c foods m) : ∀ d ∈ g.dynamicMap, (g.heap d).Resting := by
  intro d hd
  rw [h.dynamic] at hd
  rcases List.mem_append.mp hd with hd | hd
  · exact (h.virus hd).1
  · exact (h.dropped d hd).2.2.resting

theorem Fed.own (h : Fed g p c foods m) : g.players.flatMap Player.cells = [firstCell] := by
  rw [h.players, List.flatMap_singleton, h.cells]

theorem Fed.drive (h : Fed g p c foods m) (hrest : c.Resting) (hmouse : c.mouseVector = 0)
    (dt : ℝ) : Fed (g.drive dt) p c foods m := by
  have htold := drive_told g dt fun o ho => by
    rw [h.own] at ho
    rw [List.mem_singleton.mp ho, h.cell]
    exact ⟨hrest.sized m, hmouse⟩
  refine h.same htold.same ?_ rfl
  obtain ⟨cs, hcs⟩ := htold
  rw [hcs]
  exact h.players

theorem Fed.ejects (h : Fed g p c [] m) (hmouse : c.mouseVector = 0) (hm : 40 < m) :
    Fed (g.feedCell firstCell) p c [g.allocated] (m - 20) := by
  have hsize : (g.heap firstCell).size = m := by rw [h.cell, Cell.sized_size h.positive.le]
  have hbig : playerMinSize < (g.heap firstCell).size - feedSize := by
    rw [hsize]
    norm_num [playerMinSize, getSize, playerMinRadius, feedSize]
    linarith
  have hne : firstCell ≠ g.allocated := h.allocated.ne
  have hmouse' : (g.heap firstCell).mouseVector = 0 := by rw [h.cell]; exact hmouse
  have horigin : (g.heap firstCell).position = 0 := by rw [h.cell]; exact h.origin
  have hcell : (g.feedCell firstCell).heap firstCell = c.sized (m - 20) := by
    have hshrunk : (g.heap firstCell).addSize (-feedSize) = c.sized (m - 20) := by
      unfold Cell.addSize
      rw [hsize, h.cell]
      unfold Cell.sized feedSize
      rw [arith_sqrt_real, neg_add_eq_sub]
    rw [← hshrunk]
    simp [feedCell, hbig, newCell, nextRand, setCell, addSize, note, addDynamic, hne]
  have hdirection : (0 : Vec2 ℝ).perp = 0 := Vec2.ext rfl neg_zero
  have hnew : ((g.feedCell firstCell).heap g.allocated).Dropped := by
    have hposition : ((g.feedCell firstCell).heap g.allocated).position = 0 := by
      simp [feedCell, hbig, newCell, nextRand, setCell, addSize, note, addDynamic, hmouse',
        hdirection, Cell.addForce, Cell.addSize, horigin]
    have hradius : ((g.feedCell firstCell).heap g.allocated).radius = Cell.getRadius (15 : ℝ) := by
      simp [feedCell, hbig, newCell, nextRand, setCell, addSize, note, addDynamic, Cell.addForce]
      norm_num [feedSize, feedMult]
    refine ⟨⟨?_, ?_, ?_, ?_⟩, hposition, ?_, ?_, ?_⟩
    · simp [feedCell, hbig, newCell, nextRand, setCell, addSize, note, addDynamic, hmouse',
        hdirection, Cell.addForce, Cell.addSize]
    · simp [feedCell, hbig, newCell, nextRand, setCell, addSize, note, addDynamic, Cell.addForce]
    · simp [feedCell, hbig, newCell, nextRand, setCell, addSize, note, addDynamic, Cell.addForce]
    · rw [hposition]
      exact onMap_zero
    · rw [hradius]
      exact Cell.getRadius_pos (by norm_num)
    · unfold Cell.size
      rw [hradius]
      exact Cell.sqrt_size (by norm_num)
    · simp [feedCell, hbig, newCell, nextRand, setCell, addSize, note, addDynamic, Cell.addForce,
        foodFlag]
  refine h.congr (fun n => ?_) ?_ (fun q hq => ?_) ?_ ?_ rfl ?_ (fun f hf => ?_) hcell h.origin
    (by linarith) (by linarith [h.small])
  · rw [feedCell, if_pos hbig]
    exact h.placed.rand (n + 1)
  · rw [feedCell, if_pos hbig]
    rfl
  · have hq' : q ≠ g.allocated := (hq.trans h.allocated).ne
    simp [feedCell, hbig, newCell, nextRand, setCell, addSize, note, addDynamic, hq', hq.ne]
  · rw [feedCell, if_pos hbig]
    exact Nat.le_succ _
  · rw [feedCell, if_pos hbig]
    exact h.players
  · rw [feedCell, if_pos hbig]
    show g.dynamicMap ++ [g.allocated] = _
    rw [h.dynamic, List.append_nil]
  · rw [List.mem_singleton.mp hf]
    refine ⟨h.allocated, ?_, hnew⟩
    rw [feedCell, if_pos hbig]
    exact Nat.lt_succ_self _

theorem Fed.update (h : Fed g p c [] m) (hmouse : c.mouseVector = 0) (hm : 40 < m)
    (hw : WellFormed g) (hsplit : p.doSplit = false) (hfeed : p.doFeed = true) :
    Grazes (g.updatePlayer 0 p).after (g.updatePlayer 0 p).finished.player c (m - 5) := by
  have hp : g.players[0]? = some p := by rw [h.players]; rfl
  have hlowered : Fed (g.modifyPlayer 0 lowerFeed) (lowerFeed p) c [] m :=
    h.congr h.placed.rand rfl (fun _ _ => rfl) le_rfl
      (show g.players.modify 0 lowerFeed = _ by rw [h.players]; rfl) rfl h.dynamic h.dropped h.cell
      h.origin h.positive h.small
  have hcommands : g.commands 0 p = (g.modifyPlayer 0 lowerFeed).feedCell firstCell := by
    unfold commands splitCommand feedCommand
    rw [hsplit, if_neg Bool.false_ne_true, hfeed, if_pos rfl]
    show (g.modifyPlayer 0 lowerFeed).feedCells 0 = _
    unfold feedCells
    rw [hlowered.cellsOf, if_pos rfl]
    rfl
  have hejected := hlowered.ejects hmouse hm
  rw [← hcommands] at hejected
  have hcells : (g.updatePlayer 0 p).finished.player.cells = (lowerFeed p).cells := by
    rw [(finished_player hw hp).2.1, hejected.cellsOf, if_pos rfl]
    exact h.cells.symm
  refine ⟨[g.allocated], m - 20, ?_, by linarith, ?_⟩
  · refine hejected.congr hejected.placed.rand rfl (fun _ _ => rfl) le_rfl ?_ hcells
      hejected.dynamic hejected.dropped hejected.cell h.origin hejected.positive hejected.small
    show (g.commands 0 p).players.set 0 _ = _
    rw [hejected.players]
    rfl
  · rw [List.length_singleton]
    ring

/-- The only cell of the only player lies where the viruses are. It has never been divided and is
about to pop into small balls alone. -/
structure Poised (g : Game ℝ) (p : Player ℝ) : Prop where
  players : g.players = [p]
  cells : p.cells = [firstCell]
  position : (g.heap firstCell).position = ⟨1200, 0⟩
  radius : (g.heap firstCell).radius = Real.sqrt (300 * 100)
  combine : (g.heap firstCell).combineSet = false
  dynamic : g.dynamicMap = viruses
  virus : ∀ d ∈ viruses, (g.heap d).Resting ∧ (g.heap d).position = ⟨1200, 0⟩ ∧
    (g.heap d).radius = virusMinRadius ∧ (g.heap d).flag = virusFlag
  static : ∀ b, ∀ s ∈ g.staticMap b, (g.heap s).position = spot corner ∧
    (g.heap s).radius = foodRadius

theorem Poised.same (h : Poised g p) (hs : Same g g') (hplayers : g'.players = [p'])
    (hcells : p'.cells = p.cells) : Poised g' p' := by
  refine ⟨hplayers, hcells.trans h.cells, ?_, ?_, ?_, hs.dynamicMap.trans h.dynamic,
    fun d hd => ?_, fun b q hq => ?_⟩
  · rw [hs.heap]
    exact h.position
  · rw [hs.heap]
    exact h.radius
  · rw [hs.heap]
    exact h.combine
  · rw [hs.heap]
    exact h.virus d hd
  · rw [hs.staticMap] at hq
    rw [hs.heap]
    exact h.static b q hq

end Game

/-- The player of connection 0 has been sent its messages at the time `t`, and its buffer starts
where the constructor has put it. -/
structure Player.Attends (p : Player ℝ) (t : ℝ) : Prop where
  wsi : p.wsi = 0
  doSplit : p.doSplit = false
  start : ∀ r, p.wsMessage.region = some r → r.start = lwsPre
  sent : p.sendTime = t

theorem Message.connected_of_ptr_le {m : Message} (h : m.ptr ≤ lwsPre) : m.connected = true := by
  have hpre : lwsPre = 16 := rfl
  have hroom : (maxSize >>> 2 : ℕ) = 16384 := rfl
  have hsize : maxSize = 65536 := rfl
  unfold connected spaceLeft
  rw [decide_eq_true_eq, hroom, hsize]
  omega

theorem Player.attends_updated {g : Game ℝ} {p : Player ℝ} {t : ℝ} (hwsi : p.wsi = 0)
    (hstart : ∀ r, p.wsMessage.region = some r → r.start = lwsPre) (hsent : p.sendTime = t)
    (hw : g.WellFormed) (hp : g.players[0]? = some p) :
    (g.updatePlayer 0 p).finished.player.Attends t ∧
      (g.updatePlayer 0 p).finished.player.doFeed = false := by
  obtain ⟨hwsi', -, hsplit, hfeed, htime, hmessage⟩ := Game.finished_player hw hp
  refine ⟨⟨hwsi'.trans hwsi, hsplit, fun r hr => ?_, htime.trans hsent⟩, hfeed⟩
  rw [hmessage, Message.appendAll_eq_write] at hr
  obtain ⟨r', hr', rfl⟩ := Option.map_eq_some_iff.mp hr
  rw [AppendBuffer.pushAll_start]
  exact hstart r' hr'

theorem Player.Attends.updated {g : Game ℝ} {p : Player ℝ} {t : ℝ} (h : p.Attends t)
    (hw : g.WellFormed) (hp : g.players[0]? = some p) :
    (g.updatePlayer 0 p).finished.player.Attends t ∧
      (g.updatePlayer 0 p).finished.player.doFeed = false :=
  Player.attends_updated h.wsi h.start h.sent hw hp

theorem Player.Attends.received {p : Player ℝ} {t : ℝ} (h : p.Attends t) {packet : List Byte}
    (hpacket : packet.head? ≠ some msgSplit) : (p.received 0 packet).Attends t := by
  unfold Player.received
  split_ifs
  · exact ⟨h.wsi, by simp [h.doSplit, hpacket], h.start, h.sent⟩
  · exact h

namespace Sys
open Game

/-- The server runs as it should, and what the last tick has removed is gone. -/
structure Kept (s : Sys ℝ) : Prop where
  invariant : Invariant .idle s
  gone : s.game.Gone

theorem Kept.step {s : Sys ℝ} (h : s.Kept) (e : Event ℝ) : (s.step e).Kept := by
  obtain ⟨hi, hgone⟩ := Moves.keeps (P := fun _ s => s.game.Gone)
    (fun a s b s' hi hm hg => hm.gone hi hg) (step_moves h.invariant e) h.invariant h.gone
  exact ⟨hi, hgone⟩

theorem drained {s : Sys ℝ} {p : Player ℝ} {t : ℝ} (hplayers : s.game.players = [p])
    (h : p.Attends t) (hpending : p.wsMessage.pending ≠ []) (clock : ℝ) (hlate : t + 5 < clock)
    (grown : ℕ) :
    ∃ q, (s.step (.writeable 0 clock (fun _ => true) grown)).game =
      { s.game with players := [q] } ∧
      q.Attends clock ∧ q.wsMessage.connected = true ∧ q.cells = p.cells ∧
      q.doFeed = p.doFeed := by
  have hany : (s.game.players.any fun p => 0 = p.wsi) = true := by
    rw [hplayers]
    simp [h.wsi]
  have hall : s.sendAll clock (fun _ => true) = s.sendAt clock (fun _ => true) 0 := by
    rw [sendAll, hplayers]
    rfl
  have hp : s.game.players[0]? = some p := by rw [hplayers]; rfl
  have hcan : p.canSend clock = true := by
    unfold Player.canSend
    simp only [h.sent, timeoutAck, decide_eq_true_eq]
    exact Or.inl (by linarith)
  have hsent : (p.wsMessage.send true).1 = true ∧
      (p.wsMessage.send true).2 = { p.wsMessage with ack := false }.clear := by
    unfold Message.send
    rw [if_pos ⟨fun hlen => hpending (List.eq_nil_of_length_eq_zero hlen), rfl⟩]
    exact ⟨rfl, rfl⟩
  have hsend : p.send clock true = (true, { p with
      wsMessage := { p.wsMessage with ack := false }.clear, sendTime := clock }) := by
    unfold Player.send
    rw [if_pos ⟨hcan, hsent.1⟩, hsent.2]
  refine ⟨{ p with wsMessage := { p.wsMessage with ack := false }.clear, sendTime := clock }, ?_,
    ⟨h.wsi, h.doSplit, fun r hr => ?_, rfl⟩, ?_, rfl, rfl⟩
  · show (s.writeable 0 clock (fun _ => true) grown).game = _
    unfold writeable
    dsimp only
    rw [hany, if_pos rfl, hall]
    unfold sendAt
    rw [hp]
    dsimp only
    rw [hsend, if_pos rfl]
    show s.game.setPlayer 0 _ = _
    unfold setPlayer
    rw [hplayers]
    rfl
  · obtain ⟨r', hr', rfl⟩ := Option.map_eq_some_iff.mp hr
    exact h.start r' hr'
  · refine Message.connected_of_ptr_le ?_
    unfold Message.ptr Message.clear
    dsimp only
    rcases hr : p.wsMessage.region with - | r
    · exact Nat.zero_le _
    · exact (h.start r hr).le

variable {s : Sys ℝ} {p : Player ℝ} {c : Cell ℝ} {foods : List CellPtr} {m total t : ℝ}

theorem tickStart_fed (h : Fed s.game p c foods m) (hconnected : p.wsMessage.connected = true)
    (clock : ℝ) : Fed (s.tickStart clock).game p c foods m := by
  have hall : ∀ q ∈ s.game.players, q.wsMessage.connected = true := by
    rw [h.players]
    exact fun q hq => List.mem_singleton.mp hq ▸ hconnected
  have hbegun := h.same (beginTick_same s.game clock) h.players rfl
  rw [tickStart_of_connected hall]
  exact hbegun.quiet (updateDynamic_quiet _ _ hbegun.resting)

theorem tickStart_grazes (h : Grazes s.game p c total) (hconnected : p.wsMessage.connected = true)
    (clock : ℝ) : Grazes (s.tickStart clock).game p c total := by
  obtain ⟨foods, m, hfed, hrest⟩ := h
  exact ⟨foods, m, tickStart_fed hfed hconnected clock, hrest⟩

theorem updated_attends (hi : Invariant .idle s) {clock : ℝ}
    (hplayers : (s.tickMoved clock).game.players = [p]) (ha : p.Attends t) :
    ((s.tickMoved clock).game.updatePlayer 0 p).finished.player.Attends t ∧
    ((s.tickMoved clock).game.updatePlayer 0 p).finished.player.doFeed = false ∧
    ((s.tickMoved clock).game.updatePlayer 0 p).finished.player.wsMessage.pending ≠ [] := by
  have hi' : Invariant (.updating 0) (s.tickMoved clock) :=
    Moves.invariant (tickMoved_moves s clock) hi
  have hp : (s.tickMoved clock).game.players[0]? = some p := by rw [hplayers]; rfl
  obtain ⟨hattends, hfeed⟩ := ha.updated hi'.wellFormed hp
  exact ⟨hattends, hfeed, updated_pending hi'.wellFormed hp
    (hi'.buffers p (List.mem_of_getElem? hp))⟩

theorem tick_after (hk : s.Kept) {clock : ℝ} (hplayers : (s.tickMoved clock).game.players = [p]) :
    (s.tick clock).game = ((s.tickMoved clock).game.updatePlayer 0 p).after := by
  have hall : (s.tickMoved clock).updateAll.game =
      ((s.tickMoved clock).game.updatePlayer 0 p).after := by
    have hone : (s.tickMoved clock).updateAll = (s.tickMoved clock).updateAt 0 := by
      rw [updateAll, hplayers]
      rfl
    rw [hone]
    unfold updateAt
    rw [hplayers]
    rfl
  rw [tick_game, replay_nothing hk.invariant hk.gone, hall]

theorem tick_grazes (h : Grazes s.game p c total) (hk : s.Kept) (ha : p.Attends t)
    (hfeed : p.doFeed = true) (hconnected : p.wsMessage.connected = true) (hrest : c.Resting)
    (hmouse : c.mouseVector = 0) (hbig : 40 < total) (hmax : total ≤ 10000) (clock : ℝ) :
    ∃ q, Grazes (s.step (.tick clock)).game q c (total - 5) ∧ q.Attends t ∧ q.doFeed = false ∧
      q.wsMessage.pending ≠ [] := by
  have hphase := (tickStart_grazes h hconnected clock).collisionPhase hmax
  have hmoved : Fed (s.tickMoved clock).game p c [] total :=
    hphase.drive hrest hmouse (clock - s.game.currentTime)
  have hi' : Invariant (.updating 0) (s.tickMoved clock) :=
    Moves.invariant (tickMoved_moves s clock) hk.invariant
  have hfed := hmoved.update hmouse hbig hi'.wellFormed ha.doSplit hfeed
  rw [← tick_after hk hmoved.players] at hfed
  exact ⟨_, hfed, updated_attends hk.invariant hmoved.players ha⟩

/-- The player asks for food, a tick passes, and the messages of the tick are sent. -/
def feedRound (n : ℕ) : List (Event ℝ) :=
  [.receive 0 [msgFeed] fun _ => 0, .tick (6 * (n + 1)), .writeable 0 (6 * (n + 1)) (fun _ => true) 1]

/-- After `n` rounds. -/
structure Shrinks (n : ℕ) (s : Sys ℝ) (p : Player ℝ) (c : Cell ℝ) : Prop where
  kept : s.Kept
  grazes : Grazes s.game p c (10000 - 5 * n)
  attends : p.Attends (6 * n)
  idle : p.doFeed = false
  connected : p.wsMessage.connected = true

theorem asked_grazes (h : Grazes s.game p c total) (ha : p.Attends t)
    (hconnected : p.wsMessage.connected = true) (beyond : ℕ → Byte) :
    ∃ q, Grazes (s.step (.receive 0 [msgFeed] beyond)).game q c total ∧ q.Attends t ∧
      q.doFeed = true ∧ q.wsMessage.connected = true := by
  obtain ⟨foods, m, hfed, -⟩ := id h
  have hgame := receive_handled s 0 [msgFeed] beyond fun hr => by
    exact absurd (Option.some.inj hr.1.1) (by decide)
  have hasked : p.received 0 [msgFeed] = { p with
      wsMessage := p.wsMessage.acknowledge
      doSplit := p.doSplit || false
      doFeed := p.doFeed || true } := if_pos ⟨ha.wsi.symm, List.cons_ne_nil _ _⟩
  have hplayers : (s.receive 0 [msgFeed] beyond).game.players = [p.received 0 [msgFeed]] := by
    rw [hgame]
    show s.game.players.map _ = _
    rw [hfed.players]
    rfl
  have hcells : (p.received 0 [msgFeed]).cells = p.cells := by rw [hasked]
  have hsame : Same s.game (s.receive 0 [msgFeed] beyond).game := by
    refine ⟨?_, ?_⟩
    · rw [hgame]
      rfl
    · rw [hplayers, hfed.players, List.map_singleton, List.map_singleton, hcells]
  refine ⟨p.received 0 [msgFeed], h.same hsame hplayers hcells, ha.received ?_, ?_, ?_⟩
  · exact fun hhead => absurd (Option.some.inj hhead) (by decide)
  · rw [hasked]
    exact Bool.or_true _
  · rw [hasked]
    exact hconnected

theorem Shrinks.next {n : ℕ} (h : Shrinks n s p c) (hrest : c.Resting) (hmouse : c.mouseVector = 0)
    (hn : n < 1940) : ∃ q, Shrinks (n + 1) ((feedRound n).foldl Sys.step s) q c := by
  obtain ⟨hkept, hgrazes, hattends, -, hconnected⟩ := h
  have hn' : (n : ℝ) + 1 ≤ 1940 := by exact_mod_cast hn
  have hn0 : (0 : ℝ) ≤ n := Nat.cast_nonneg n
  rw [feedRound, List.foldl_cons, List.foldl_cons, List.foldl_cons, List.foldl_nil]
  obtain ⟨q₁, hgrazes₁, hattends₁, hfeed₁, hconnected₁⟩ :=
    asked_grazes hgrazes hattends hconnected fun _ => 0
  have hkept₁ := hkept.step (.receive 0 [msgFeed] fun _ => 0)
  generalize s.step (.receive 0 [msgFeed] fun _ => 0) = s₁ at *
  obtain ⟨q₂, hgrazes₂, hattends₂, hidle₂, hpending₂⟩ := tick_grazes hgrazes₁ hkept₁ hattends₁ hfeed₁
    hconnected₁ hrest hmouse (by linarith) (by linarith) (6 * (n + 1))
  have hkept₂ := hkept₁.step (.tick (6 * (n + 1)))
  generalize s₁.step (.tick (6 * (n + 1))) = s₂ at *
  obtain ⟨foods, m, hfed₂, hm, htotal⟩ := hgrazes₂
  obtain ⟨q₃, hgame₃, hattends₃, hconnected₃, hcells₃, hidle₃⟩ :=
    drained hfed₂.players hattends₂ hpending₂ (6 * (n + 1)) (by linarith) 1
  have hfed₃ := hfed₂.setPlayer hcells₃
  rw [← hgame₃] at hfed₃
  have htotal' : (10000 : ℝ) - 5 * n - 5 = 10000 - 5 * (n + 1 : ℕ) := by
    push_cast
    ring
  refine ⟨q₃, hkept₂.step (.writeable 0 (6 * (n + 1)) (fun _ => true) 1),
    ⟨foods, m, hfed₃, hm, htotal.trans htotal'⟩, ?_, hidle₃.trans hidle₂, hconnected₃⟩
  push_cast
  exact hattends₃

theorem first_joins (hkept : s.Kept) {food virus : Draw} (h : s.game.Joined food virus 0) :
    ∃ p, (s.step (.writeable 0 0 (fun _ => true) 1)).Kept ∧
      (s.step (.writeable 0 0 (fun _ => true) 1)).game.Joined food virus 1 ∧
      (s.step (.writeable 0 0 (fun _ => true) 1)).game.players = [p] ∧ p.cells = [firstCell] ∧
      p.Attends 0 ∧ p.doFeed = false ∧ p.wsMessage.connected = true := by
  have hkept' := hkept.step (.writeable 0 0 (fun _ => true) 1)
  have hjoined := h.join 1
  have hnone : s.game.players = [] := List.map_eq_nil_iff.mp h.wsis
  have hplayers := join_first hnone 0 1
  have hstep : s.step (.writeable 0 0 (fun _ => true) 1) = s.join 0 1 :=
    h.writeable 0 (fun _ => true) 1
  rw [hstep] at hkept' ⊢
  have hwsi : (s.game.newPlayer 0).1.wsi = 0 := rfl
  have hsent : (s.game.newPlayer 0).1.sendTime = 0 := rfl
  generalize (s.game.newPlayer 0).1 = p at hplayers hwsi hsent
  generalize s.join 0 1 = s' at *
  have hfresh := hjoined.fresh p (by rw [hplayers]; exact List.mem_singleton_self p)
  have hcells : p.cells = [firstCell] := by
    have hall := hjoined.cells
    rw [hplayers] at hall
    exact (List.cons.inj hall).1
  refine ⟨p, hkept', hjoined, hplayers, hcells, ⟨hwsi, hfresh.doSplit, fun r hr => ?_, hsent⟩,
    hfresh.doFeed, ?_⟩
  · rw [hfresh.message] at hr
    exact (Option.some.inj hr) ▸ rfl
  · rw [hfresh.message]
    exact Message.new_connected

theorem shrinks_start (hkept : s.Kept) (h : s.game.Joined corner aside 0) :
    ∃ p c, Shrinks 0 (s.step (.writeable 0 0 (fun _ => true) 1)) p c ∧ c.Fresh := by
  obtain ⟨p, hkept', hjoined, hplayers, hcells, hattends, hfeed, hconnected⟩ := first_joins hkept h
  generalize s.step (.writeable 0 0 (fun _ => true) 1) = s' at *
  have hcell := hjoined.cell 0 one_pos
  have hsized : s'.game.heap firstCell = (s'.game.heap firstCell).sized 10000 := by
    have hradius : (s'.game.heap firstCell).radius = 1000 := hcell.radius
    have hroot : Real.sqrt (10000 * 100) = 1000 := by
      rw [show (10000 : ℝ) * 100 = 1000 * 1000 by norm_num]
      exact Real.sqrt_mul_self (by norm_num)
    unfold Cell.sized
    rw [hroot, ← hradius]
  refine ⟨p, s'.game.heap firstCell, ⟨hkept', ⟨[], 10000, ?_, by norm_num, by simp⟩, ?_, hfeed,
    hconnected⟩, hcell⟩
  · exact ⟨hjoined.placed.congr hjoined.placed.rand rfl hjoined.placed.dynamic.symm
      fun _ _ => rfl, hjoined.placed.dynamic.trans (List.append_nil _).symm,
      fun f hf => (by cases hf), by rw [hjoined.allocated]; exact Nat.lt_succ_self _, hplayers, hcells,
      hsized, hcell.central.origin, by norm_num, le_rfl⟩
  · rw [show (6 : ℝ) * (0 : ℕ) = 0 by norm_num]
    exact hattends

theorem shrinks_rounds (h : Shrinks 0 s p c) (hrest : c.Resting) (hmouse : c.mouseVector = 0)
    {n : ℕ} (hn : n ≤ 1940) :
    ∃ q, Shrinks n (((List.range n).flatMap feedRound).foldl Sys.step s) q c := by
  induction n with
  | zero => exact ⟨p, h⟩
  | succ n ih =>
    obtain ⟨q, hq⟩ := ih (by omega)
    rw [List.range_succ, List.flatMap_append, List.foldl_append, List.flatMap_singleton]
    exact hq.next hrest hmouse (by omega)

/-- The packet that sends the cell where the viruses are. -/
def mousePacket : List Byte := [msgMouse, 0xB0, 0x04, 0, 0]

theorem mouseAt_mousePacket (beyond : ℕ → Byte) : mouseAt mousePacket beyond = ⟨1200, 0⟩ := by
  rw [Game.mouseAt_of_long (by decide) beyond fun _ => 0]
  decide

theorem turned_grazes (h : Grazes s.game p c total) (ha : p.Attends t) (hfeed : p.doFeed = false)
    (hconnected : p.wsMessage.connected = true) (beyond : ℕ → Byte) :
    ∃ q, Grazes (s.step (.receive 0 mousePacket beyond)).game q
        { c with mouseVector := ⟨1200, 0⟩ } total ∧ q.Attends t ∧ q.doFeed = false ∧
      q.wsMessage.connected = true := by
  obtain ⟨foods, m, hfed, hrest⟩ := h
  have hgame := receive_handled s 0 mousePacket beyond fun hr => absurd hr.1.2 (by decide)
  have hasked : p.received 0 mousePacket = { p with
      wsMessage := p.wsMessage.acknowledge
      doSplit := p.doSplit || false
      doFeed := p.doFeed || false } := if_pos ⟨ha.wsi.symm, List.cons_ne_nil _ _⟩
  have hheap : ∀ q, (s.game.handled 0 mousePacket).heap q =
      if q = firstCell then { s.game.heap q with mouseVector := ⟨1200, 0⟩ }
      else s.game.heap q := by
    intro q
    have hlong : mousePacket.head? = some msgMouse ∧ 5 ≤ mousePacket.length := ⟨rfl, by decide⟩
    unfold handled
    dsimp only
    rw [if_pos hlong, mouseAt_mousePacket]
    unfold turned
    rw [hfed.players]
    have hany : ([p].any fun p => 0 = p.wsi ∧ q ∈ p.cells) = decide (q = firstCell) := by
      simp [ha.wsi, hfed.cells]
    rw [hany]
    by_cases hq : q = firstCell
    · have hposition : (s.game.heap q).position = 0 := by
        rw [hq, hfed.cell]
        exact hfed.origin
      rw [if_pos (decide_eq_true hq), if_pos hq]
      unfold look
      rw [hposition]
      congr 1
      exact Vec2.ext (by norm_num) (by norm_num)
    · rw [if_neg (by simpa using hq), if_neg hq]
  have hfed' : Fed (s.receive 0 mousePacket beyond).game (p.received 0 mousePacket)
      { c with mouseVector := ⟨1200, 0⟩ } foods m := by
    rw [hgame]
    refine hfed.congr hfed.placed.rand rfl (fun q hq => ?_) le_rfl ?_ (by rw [hasked])
      hfed.dynamic (fun f hf => ?_) ?_ hfed.origin hfed.positive hfed.small
    · rw [hheap, if_neg hq.ne]
    · show s.game.players.map _ = _
      rw [hfed.players]
      rfl
    · obtain ⟨hlt, hold⟩ := hfed.dropped f hf
      rw [hheap, if_neg hlt.ne']
      exact ⟨hlt, hold⟩
    · rw [hheap, if_pos rfl, hfed.cell]
      rfl
  refine ⟨_, ⟨foods, m, hfed', hrest⟩, ha.received ?_, ?_, ?_⟩
  · exact fun hhead => absurd (Option.some.inj hhead) (by decide)
  · rw [hasked, hfeed]
    rfl
  · rw [hasked]
    exact hconnected

theorem tick_idle (hk : s.Kept) {clock : ℝ} (hplayers : (s.tickMoved clock).game.players = [p])
    (ha : p.Attends t) (hfeed : p.doFeed = false) :
    ∃ q, (s.step (.tick clock)).game = { (s.tickMoved clock).game with players := [q] } ∧
      q.cells = p.cells ∧ q.Attends t ∧ q.doFeed = false ∧ q.wsMessage.pending ≠ [] := by
  have hi' : Invariant (.updating 0) (s.tickMoved clock) :=
    Moves.invariant (tickMoved_moves s clock) hk.invariant
  have hp : (s.tickMoved clock).game.players[0]? = some p := by rw [hplayers]; rfl
  have hcommands := commands_of_none (s.tickMoved clock).game 0 ha.doSplit hfeed
  have hafter : (s.step (.tick clock)).game =
      ((s.tickMoved clock).game.updatePlayer 0 p).after := tick_after hk hplayers
  refine ⟨_, ?_, ?_, updated_attends hk.invariant hplayers ha⟩
  · rw [hafter]
    show ((s.tickMoved clock).game.commands 0 p).setPlayer 0 _ = _
    rw [hcommands]
    unfold setPlayer
    rw [hplayers]
    rfl
  · rw [(finished_player hi'.wellFormed hp).2.1, hcommands]
    unfold Game.cellsOf
    rw [hp]

theorem tickMoved_currentTime (hi : Invariant .idle s)
    (hconnected : ∀ p ∈ s.game.players, p.wsMessage.connected = true) (clock : ℝ) :
    (s.tickMoved clock).game.currentTime = clock := by
  have hw := (Moves.invariant (tickStart_moves s clock) hi).wellFormed
  have hphase := ((collisionPhase_leads (s.tickStart clock).game).frame hw).currentTime
  have hdrive := (drive_motion (s.tickStart clock).collide.game
    (clock - s.game.currentTime)).currentTime
  have hstart : (s.tickStart clock).game.currentTime = clock := by
    rw [tickStart_of_connected hconnected]
    exact (updateDynamic_motion (s.game.beginTick clock) _).currentTime
  exact (hdrive.trans hphase).trans hstart

theorem foldl_keeps {α β : Type} (φ : Game ℝ → β) {f : Game ℝ → α → Game ℝ}
    (hf : ∀ g a, φ (f g a) = φ g) (l : List α) (g : Game ℝ) : φ (l.foldl f g) = φ g := by
  induction l generalizing g with
  | nil => rfl
  | cons a l ih => exact (ih _).trans (hf g a)

theorem driveCell_heap (dt : ℝ) (g : Game ℝ) (q : CellPtr) :
    (g.driveCell dt q).heap q = pulled ((g.heap q).update dt) := by
  have hupdated : (g.updateCell dt q).heap q = (g.heap q).update dt := by
    simp [updateCell, setCell, noteUpdate, note]
  unfold driveCell pulled
  dsimp only
  rw [hupdated]
  split_ifs <;> simp [pushMove, setCell, hupdated]

theorem drive_own {g : Game ℝ} {q : CellPtr} (hown : g.players.flatMap Player.cells = [q])
    (dt : ℝ) : (g.drive dt).heap q = pulled ((g.heap q).update dt) ∧
      (∀ r, r ≠ q → (g.drive dt).heap r = g.heap r) ∧ (g.drive dt).rand = g.rand := by
  have hothers : ∀ r, r ≠ q → (g.drive dt).heap r = g.heap r := fun r hr => by
    refine (drive_motion g dt).others r ?_
    rw [hown]
    exact fun hmem => hr (List.mem_singleton.mp hmem)
  have hmoves := foldl_keeps (fun g => g.heap) (f := pushMove) (fun _ _ => rfl) g.dynamicMap
    (g.driveCell dt q)
  have hrand := foldl_keeps (fun g => g.rand) (f := pushMove) (fun _ _ => rfl) g.dynamicMap
    (g.driveCell dt q)
  have hdriven : g.drive dt = g.dynamicMap.foldl pushMove (g.driveCell dt q) := by
    have hdynamic : (g.driveCell dt q).dynamicMap = g.dynamicMap := by
      unfold driveCell
      dsimp only
      split_ifs <;> rfl
    unfold drive
    dsimp only
    rw [hown, List.foldl_cons, List.foldl_nil, hdynamic]
  refine ⟨?_, hothers, ?_⟩
  · rw [hdriven]
    exact (congrFun hmoves q).trans (driveCell_heap dt g q)
  rw [hdriven]
  refine hrand.trans ?_
  unfold driveCell
  dsimp only
  split_ifs <;> rfl

theorem length_aside : (⟨1200, 0⟩ : Vec2 ℝ).length = 1200 := by
  unfold Vec2.length
  rw [arith_sqrt_real]
  have hsq : (1200 : ℝ) * 1200 + 0 * 0 = 1200 * 1200 := by norm_num
  rw [hsq]
  exact Real.sqrt_mul_self (by norm_num)

theorem pulled_aside (hrest : c.Resting) (hmouse : c.mouseVector = ⟨1200, 0⟩) :
    pulled (c.sized 300) = ({ c with force := ⟨360000, 0⟩ } : Cell ℝ).sized 300 := by
  have hroot : Real.sqrt (300 * 100) ≤ 1200 := Real.sqrt_le_iff.mpr ⟨by norm_num, by norm_num⟩
  have hpos : 0 < Real.sqrt (300 * 100) := Real.sqrt_pos.mpr (by norm_num)
  have halpha : 1 ≤ 1200 / Real.sqrt (300 * 100) := (one_le_div hpos).mpr hroot
  have hmouse' : (c.sized 300).mouseVector = ⟨1200, 0⟩ := hmouse
  have hsize : (c.sized 300).size = 300 := Cell.sized_size (by norm_num)
  have hradius : (c.sized 300).radius = Real.sqrt (300 * 100) := rfl
  unfold pulled
  dsimp only
  rw [hmouse', length_aside, hradius, hsize, if_pos (by linarith), if_neg (not_lt.mpr halpha)]
  have hforce : (0 : Vec2 ℝ) + (⟨1200, 0⟩ : Vec2 ℝ).normalize * (mouseForce * 300 : ℝ) =
      ⟨360000, 0⟩ := by
    unfold Vec2.normalize
    rw [length_aside]
    norm_num
    refine Vec2.ext ?_ ?_
    · norm_num [mouseForce]
    · norm_num
  unfold Cell.addForce
  rw [← hforce, ← hrest.force]
  rfl

theorem update_aside (horigin : c.position = 0) (hvelocity : c.velocity = 0) :
    ((({ c with force := ⟨360000, 0⟩ } : Cell ℝ).sized 300).update 1).position = ⟨1200, 0⟩ := by
  have hsize : (({ c with force := ⟨360000, 0⟩ } : Cell ℝ).sized 300).size = 300 :=
    Cell.sized_size (by norm_num)
  have hvelocity' : (({ c with force := ⟨360000, 0⟩ } : Cell ℝ).sized 300).velocity = 0 := hvelocity
  have hpulled : (0 : Vec2 ℝ) + (⟨360000, 0⟩ : Vec2 ℝ) / (300 : ℝ) * (1 : ℝ) = ⟨1200, 0⟩ :=
    Vec2.ext (by norm_num) (by norm_num)
  unfold Cell.update
  dsimp only
  rw [hvelocity', hsize, Vec2.normalize_zero, Vec2.zero_mul_eq, Vec2.zero_mul_eq,
    Vec2.add_zero_eq]
  unfold Cell.moveRel Cell.moveAbs
  dsimp only
  have hforce : (({ c with force := ⟨360000, 0⟩ } : Cell ℝ).sized 300).force = ⟨360000, 0⟩ := rfl
  have hposition : (({ c with force := ⟨360000, 0⟩ } : Cell ℝ).sized 300).position = 0 := horigin
  rw [hforce, hposition, hpulled]
  have hroom : (1200 : ℝ) ≤ (mapSize : ℝ) - 0.001 := by norm_num [mapSize, numBlocks, blockSize]
  refine Vec2.ext ?_ ?_
  · norm_num
    linarith
  · norm_num
    linarith

theorem drive_departs {g : Game ℝ} (h : Fed g p c [] 300) (hrest : c.Resting)
    (hmouse : c.mouseVector = ⟨1200, 0⟩) (dt : ℝ) :
    Fed (g.drive dt) p { c with force := ⟨360000, 0⟩ } [] 300 := by
  have hmotion := drive_motion g dt
  obtain ⟨hheap, hothers, hrand⟩ := drive_own h.own dt
  refine h.congr (fun n => ?_) hmotion.static (fun q hq => hothers q hq.ne) hmotion.allocated.ge
    (hmotion.players.trans h.players) rfl (hmotion.dynamic.trans h.dynamic)
    (fun f hf => by cases hf) ?_ h.origin (by norm_num) (by norm_num)
  · rw [hrand]
    exact h.placed.rand n
  · rw [hheap, h.cell, (hrest.sized 300).update, pulled_aside hrest hmouse]

theorem drive_arrives {g : Game ℝ} (h : Fed g p { c with force := ⟨360000, 0⟩ } [] 300)
    (hvelocity : c.velocity = 0) (hcombine : c.combineSet = false) : Poised (g.drive 1) p := by
  have hmotion := drive_motion g 1
  obtain ⟨hheap, hothers, -⟩ := drive_own h.own 1
  refine ⟨hmotion.players.trans h.players, h.cells, ?_, ?_, ?_,
    (hmotion.dynamic.trans h.dynamic).trans (List.append_nil _), fun d hd => ?_, fun b q hq => ?_⟩
  · rw [hheap, h.cell, (pulled_rest _).1]
    exact update_aside h.origin hvelocity
  · rw [(hmotion.identity firstCell).2.2.2, h.cell]
    rfl
  · rw [drive_combineSet, h.cell]
    exact hcombine
  · rw [hothers d (mem_viruses hd).ne]
    exact h.virus hd
  · rw [hmotion.static] at hq
    obtain ⟨hlt, hold⟩ := h.placed.static b q hq
    rw [hothers q (hlt.trans_le (Nat.le_add_right maxFood maxVirus)).ne]
    exact hold

theorem tick_departs (h : Grazes s.game p c 300) (hk : s.Kept) (ha : p.Attends t)
    (hfeed : p.doFeed = false) (hconnected : p.wsMessage.connected = true) (hrest : c.Resting)
    (hmouse : c.mouseVector = ⟨1200, 0⟩) (clock : ℝ) :
    ∃ q, Grazes (s.step (.tick clock)).game q { c with force := ⟨360000, 0⟩ } 300 ∧ q.Attends t ∧
      q.doFeed = false ∧ q.wsMessage.pending ≠ [] ∧
      (s.step (.tick clock)).game.currentTime = clock := by
  have hphase := (tickStart_grazes h hconnected clock).collisionPhase (by norm_num)
  have hmoved : Fed (s.tickMoved clock).game p { c with force := ⟨360000, 0⟩ } [] 300 :=
    drive_departs hphase hrest hmouse (clock - s.game.currentTime)
  have hall : ∀ q ∈ s.game.players, q.wsMessage.connected = true := by
    obtain ⟨foods, m, hfed, -⟩ := h
    rw [hfed.players]
    exact fun q hq => List.mem_singleton.mp hq ▸ hconnected
  obtain ⟨q, hgame, hcells, hattends, hidle, hpending⟩ := tick_idle hk hmoved.players ha hfeed
  rw [hgame]
  exact ⟨q, ⟨[], 300, hmoved.setPlayer hcells, by norm_num, by simp⟩, hattends, hidle, hpending,
    tickMoved_currentTime hk.invariant hall clock⟩

theorem tick_arrives (h : Grazes s.game p { c with force := ⟨360000, 0⟩ } 300) (hk : s.Kept)
    (ha : p.Attends t) (hfeed : p.doFeed = false) (hconnected : p.wsMessage.connected = true)
    (hvelocity : c.velocity = 0) (hcombine : c.combineSet = false) {clock : ℝ}
    (hclock : s.game.currentTime + 1 = clock) :
    ∃ q, Poised (s.step (.tick clock)).game q ∧ q.Attends t ∧ q.wsMessage.pending ≠ [] := by
  have hphase := (tickStart_grazes h hconnected clock).collisionPhase (by norm_num)
  have hmoved : Poised (s.tickMoved clock).game p := by
    have hdrive := drive_arrives hphase hvelocity hcombine
    rwa [show (1 : ℝ) = clock - s.game.currentTime by linarith] at hdrive
  obtain ⟨q, hgame, hcells, hattends, -, hpending⟩ := tick_idle hk hmoved.players ha hfeed
  refine ⟨q, ?_, hattends, hpending⟩
  rw [hgame]
  refine hmoved.same ⟨rfl, ?_⟩ rfl hcells
  rw [hmoved.players, List.map_singleton, List.map_singleton, hcells]

theorem tick_pounces (h : Poised s.game p) (hconnected : p.wsMessage.connected = true)
    (clock : ℝ) : ∃ g, Poised g p ∧ .collided g g.collisionPhase ∈ (s.step (.tick clock)).trace := by
  have hall : ∀ q ∈ s.game.players, q.wsMessage.connected = true := by
    rw [h.players]
    exact fun q hq => List.mem_singleton.mp hq ▸ hconnected
  have hbegun : Poised (s.game.beginTick clock) p :=
    h.same (beginTick_same s.game clock) h.players rfl
  have hq : Quiet (s.game.beginTick clock) (s.tickStart clock).game := by
    rw [tickStart_of_connected hall]
    refine updateDynamic_quiet _ _ fun d hd => ?_
    rw [hbegun.dynamic] at hd
    exact (hbegun.virus d hd).1
  exact ⟨_, hbegun.same hq.told.same (hq.players.trans hbegun.players) rfl,
    tick_collides hall clock⟩

end Sys

/-- The cell goes where the viruses are. -/
def leaving : List (Event ℝ) :=
  [.receive 0 mousePacket fun _ => 0, .tick 11646, .writeable 0 11646 (fun _ => true) 1,
    .tick 11647, .writeable 0 11653 (fun _ => true) 1, .tick 11659]

/-- A player feeds until little of its cell is left, and then moves it where the viruses are. -/
def feeding : Run ℝ where
  rand := placing corner aside
  stale := fun _ => 0
  events := .writeable 0 0 (fun _ => true) 1 :: (List.range 1940).flatMap feedRound ++ leaving

theorem Sys.Shrinks.pounces {s : Sys ℝ} {p : Player ℝ} {c : Cell ℝ} (h : Shrinks 1940 s p c)
    (hrest : c.Resting) (hcombine : c.combineSet = false) :
    ∃ g p, g.Poised p ∧ .collided g g.collisionPhase ∈ (leaving.foldl Sys.step s).trace := by
  obtain ⟨hkept₁, hgrazes₁, hattends₁, hidle₁, hconnected₁⟩ := h
  rw [show (10000 : ℝ) - 5 * (1940 : ℕ) = 300 by norm_num] at hgrazes₁
  rw [show (6 : ℝ) * (1940 : ℕ) = 11640 by norm_num] at hattends₁
  unfold leaving
  rw [List.foldl_cons, List.foldl_cons, List.foldl_cons, List.foldl_cons, List.foldl_cons,
    List.foldl_cons, List.foldl_nil]
  -- the mouse moves, and with the next tick it pulls the cell
  obtain ⟨p₂, hgrazes₂, hattends₂, hidle₂, hconnected₂⟩ :=
    turned_grazes hgrazes₁ hattends₁ hidle₁ hconnected₁ fun _ => 0
  have hkept₂ := hkept₁.step (.receive 0 mousePacket fun _ => 0)
  generalize s.step (.receive 0 mousePacket fun _ => 0) = s₂ at *
  obtain ⟨p₃, hgrazes₃, hattends₃, hidle₃, hpending₃, htime₃⟩ := tick_departs hgrazes₂ hkept₂
    hattends₂ hidle₂ hconnected₂ ⟨hrest.force, hrest.acceleration, hrest.velocity, hrest.onMap⟩
    rfl 11646
  have hkept₃ := hkept₂.step (.tick 11646)
  generalize s₂.step (.tick 11646) = s₃ at *
  obtain ⟨foods, m, hfed₃, hm, htotal⟩ := hgrazes₃
  obtain ⟨p₄, hgame₄, hattends₄, hconnected₄, hcells₄, hidle₄⟩ :=
    drained hfed₃.players hattends₃ hpending₃ 11646 (by norm_num) 1
  have hkept₄ := hkept₃.step (.writeable 0 11646 (fun _ => true) 1)
  have hfed₄ := hfed₃.setPlayer hcells₄
  rw [← hgame₄] at hfed₄
  generalize s₃.step (.writeable 0 11646 (fun _ => true) 1) = s₄ at *
  have htime₄ : s₄.game.currentTime + 1 = 11647 := by
    rw [hgame₄]
    show s₃.game.currentTime + 1 = 11647
    rw [htime₃]
    norm_num
  -- a second later it is there
  obtain ⟨p₅, hpoised₅, hattends₅, hpending₅⟩ := tick_arrives ⟨foods, m, hfed₄, hm, htotal⟩ hkept₄
    hattends₄ (hidle₄.trans hidle₃) hconnected₄ hrest.velocity hcombine htime₄
  generalize s₄.step (.tick 11647) = s₅ at *
  obtain ⟨p₆, hgame₆, -, hconnected₆, hcells₆, -⟩ :=
    drained hpoised₅.players hattends₅ hpending₅ 11653 (by norm_num) 1
  have hpoised₆ : Game.Poised { s₅.game with players := [p₆] } p₆ := by
    refine hpoised₅.same ⟨rfl, ?_⟩ rfl hcells₆
    rw [hpoised₅.players, List.map_singleton, List.map_singleton, hcells₆]
  rw [← hgame₆] at hpoised₆
  obtain ⟨g, hpoised, hcollided⟩ := tick_pounces hpoised₆ hconnected₆ 11659
  exact ⟨g, p₆, hpoised, hcollided⟩

theorem Sys.Kept.pounces {s : Sys ℝ} (hkept : s.Kept) (h : s.game.Joined corner aside 0) :
    ∃ g p, g.Poised p ∧
      .collided g g.collisionPhase ∈ (feeding.events.foldl Sys.step s).trace := by
  obtain ⟨p, c, hshrinks, hfresh⟩ := shrinks_start hkept h
  have hrest := hfresh.central.resting
  obtain ⟨p₁, hshrinks₁⟩ := shrinks_rounds hshrinks hrest hfresh.still (n := 1940) le_rfl
  have hevents : feeding.events.foldl Sys.step s = leaving.foldl Sys.step
      (((List.range 1940).flatMap feedRound).foldl Sys.step
        (s.step (.writeable 0 0 (fun _ => true) 1))) := by
    unfold feeding
    rw [List.foldl_append, List.foldl_cons]
  rw [hevents]
  exact hshrinks₁.pounces hrest hfresh.combine

namespace Game
variable {g : Game ℝ} {p : Player ℝ}

theorem Poised.static_quiet (h : Poised g p) : Quiet g (g.beforeDynamic 0) := by
  refine collideStatic_quiet g 0 fun c hc b s hs => ?_
  have hcells : g.cellsOf 0 = [firstCell] := by
    unfold Game.cellsOf
    rw [h.players]
    exact h.cells
  rw [hcells] at hc
  rw [List.mem_singleton.mp hc]
  obtain ⟨hposition, hradius⟩ := h.static b s hs
  have hfar := ((g.heap s).position - (g.heap firstCell).position).x_le_length
  rw [hposition, h.position, Vec2.sub_x] at hfar
  have hcorner : (spot corner).x = 15999 := by
    show ((15999 % mapSize : ℕ) : ℝ) = 15999
    norm_num [mapSize, numBlocks, blockSize]
  have hsmall : Real.sqrt (300 * 100) ≤ 1000 := Real.sqrt_le_iff.mpr ⟨by norm_num, by norm_num⟩
  have hnone : (g.heap firstCell).collide (g.heap s) = .none := by
    refine Cell.collide_far ?_
    rw [hposition, h.position, hradius, h.radius]
    have hfood : (foodRadius : ℝ) = 32 := rfl
    rw [hcorner] at hfar
    linarith
  rw [hnone]
  exact Collision.noConfusion

theorem Poised.eats (h : Poised g p) :
    g.dynamicMap[0]? = some maxFood ∧
    (g.heap firstCell).collide (g.heap maxFood) = .bigger ∧
    (g.heap maxFood).flag.isVirus = true ∧ g.cellsOf 0 = [firstCell] ∧
    ((g.heap firstCell).addSize (g.heap maxFood).size).size = 400 := by
  have hmem : maxFood ∈ viruses := List.mem_range'_1.mpr ⟨le_rfl, by decide⟩
  obtain ⟨-, hposition, hradius, hflag⟩ := h.virus maxFood hmem
  have hsize : (g.heap firstCell).size = 300 := by
    unfold Cell.size
    rw [h.radius]
    exact Cell.sqrt_size (by norm_num)
  have hvirus : (g.heap maxFood).size = 100 := by
    unfold Cell.size
    rw [hradius]
    norm_num [virusMinRadius]
  refine ⟨?_, ?_, ?_, ?_, ?_⟩
  · rw [h.dynamic]
    rfl
  · rw [Cell.collide_same (by rw [h.radius]; exact Real.sqrt_pos.mpr (by norm_num))
      (by rw [hradius]; norm_num [virusMinRadius]) (h.position.trans hposition.symm), hsize, hvirus]
    exact if_pos (by norm_num)
  · rw [hflag]
    rfl
  · unfold Game.cellsOf
    rw [h.players]
    exact h.cells
  · rw [Cell.addSize_size (by rw [hsize, hvirus]; norm_num), hsize, hvirus]
    norm_num

end Game

theorem smallBallCount_fifteen : Game.smallBallCount 1 (400 : ℝ) = 15 := by
  have hmin : (playerMinSize : ℝ) = 17.64 := by
    norm_num [playerMinSize, getSize, playerMinRadius]
  have hslots : ((Game.subSize 16 1 : ℕ) : ℝ) = (15 : ℕ) := by
    rw [Game.subSize_of_le (by decide)]
  unfold Game.smallBallCount
  rw [hmin, hslots, min_eq_left (by norm_num), trunc_natCast]
  rfl

theorem feeding_pounces : ∃ g p, g.Poised p ∧
    .collided g g.collisionPhase ∈ feeding.final.trace := by
  have hjoined : (Sys.init (placing corner aside) fun _ => (0 : ℝ)).game.Joined corner aside 0 :=
    Game.mapInit_joined corner aside _
  exact Sys.Kept.pounces ⟨init_invariant _ _, init_gone _ _⟩ hjoined

end Agar
