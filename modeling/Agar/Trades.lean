import Agar.Census
import Agar.Orders
import Agar.Popping
import Agar.Scans
import Agar.Cameras
import Agar.Lib.Ledger

/-! Where the mass of a tick goes: what the collision phase and the commands make of the mass of all
cells in the containers, accounted for by the calls they make. -/

namespace Agar
open Trace

/-- What the big halves of a pop add to the mass: a cell of the size, in a player with `count`
cells. -/
def popGain {K : Type} [Field K] [LinearOrder K] (size : K) (count : ℕ) : ℕ → K
  | 0 => 0
  | left + 1 =>
    if 500 < size ∧ count < 16 then
      size * (1 - 2 * Game.splitRatio) + popGain (size * (1 - Game.splitRatio)) (count + 1) left
    else 0

namespace Call

/-- What the call adds to the mass. -/
def gain {K : Type} [Field K] [LinearOrder K] : Call K → K
  | .pop _ size count => popGain size count 4
  | _ => 0

/-- A cell that an own cell has absorbed is compared once more. -/
def Revives {K : Type} : Call K → Call K → Prop
  | .absorb p _, c => ∃ o, c.pair = some (p, o)
  | _, _ => False

end Call

/-- No absorbed cell is compared once more. -/
def NoRevival {K : Type} (cs : List (Call K)) : Prop := cs.Pairwise fun c c' => ¬ c.Revives c'

namespace Game
variable {g g' : Game ℝ} {i : ℕ}

/-- The mass in the containers, and the calls that account for it. -/
noncomputable def massLedger : Ledger (Game ℝ) (Call ℝ) ℝ where
  log := Game.calls
  total := Game.storedMass
  gain := Call.gain
  sound := NoRevival
  sound_append := fun _ _ h => ⟨(List.pairwise_append.mp h).1, (List.pairwise_append.mp h).2.1⟩

/-- The calls since are no pops. -/
abbrev Idle (g g' : Game ℝ) : Prop := Extends (fun c : Call ℝ => c.gain = 0) g.calls g'.calls

theorem Idle.balances (h : Idle g g') (hmass : g'.storedMass = g.storedMass) :
    massLedger.Balances g g' := by
  obtain ⟨cs, hcalls, hidle⟩ := h
  exact .of_total hcalls hidle hmass

/-- Only the cells of player `i` have changed, or have come up. -/
structure Local (i : ℕ) (g g' : Game ℝ) : Prop where
  index : i < g.players.length
  length : g'.players.length = g.players.length
  static : g'.staticMap = g.staticMap
  dynamic : g'.dynamicMap = g.dynamicMap
  others : ∀ j, j ≠ i → g'.cellsOf j = g.cellsOf j
  size : ∀ q < g.allocated, q ∉ g.cellsOf i → (g'.heap q).size = (g.heap q).size

theorem storedMass_eq (g : Game ℝ) : g.storedMass = (g.statics.map fun p => (g.heap p).size).sum +
    (((List.range g.players.length).map g.mass).sum + g.loose) := by
  have hplayers : ∀ is : List ℕ, ((is.flatMap g.cellsOf).map fun p => (g.heap p).size).sum =
      (is.map g.mass).sum := by
    intro is
    induction is with
    | nil => rfl
    | cons j is ih =>
      rw [List.flatMap_cons, List.map_append, List.sum_append, ih, List.map_cons, List.sum_cons]
      rfl
  unfold storedMass stored
  rw [playerCells_eq, List.map_append, List.sum_append, List.map_append, List.sum_append, hplayers]
  rfl

theorem Local.mass (h : Local i g g') (hw : WellFormed g) :
    g'.storedMass + g.mass i = g.storedMass + g'.mass i := by
  have hstatic : g'.statics.map (fun p => (g'.heap p).size) =
      g.statics.map fun p => (g.heap p).size := by
    unfold statics
    rw [h.static]
    refine List.map_congr_left fun p hp => ?_
    obtain ⟨b, -, hb⟩ := List.mem_flatMap.mp hp
    exact h.size p (hw.static_lt hb) ((hw.static_only hb).2 i)
  have hloose : g'.loose = g.loose := by
    unfold loose
    rw [h.dynamic]
    refine congrArg List.sum (List.map_congr_left fun p hp => ?_)
    exact h.size p (hw.dynamic p hp).2.1 ((hw.dynamic_only hp).2 i)
  have hothers : ∀ j, j ≠ i → g'.mass j = g.mass j := by
    intro j hj
    unfold Game.mass
    rw [h.others j hj]
    refine congrArg List.sum (List.map_congr_left fun p hp => ?_)
    exact h.size p (hw.owned j p hp).1 (hw.cells_disjoint j i hj p hp)
  have hchange := Handover.sum_change List.nodup_range (List.mem_range.mpr h.index) g.mass g'.mass
    fun j _ hj => hothers j hj
  rw [storedMass_eq, storedMass_eq, hstatic, hloose, h.length]
  linarith

theorem Handed.balances (h : Handed g g') (hnodup : g.stored.Nodup) (hidle : Idle g g') :
    massLedger.Balances g g' := hidle.balances (h.mass hnodup)

theorem idle_step {c : Call ℝ} (h : g'.calls = g.calls ++ [c]) (hc : c.gain = 0) : Idle g g' :=
  ⟨[c], h, fun _ hd => List.mem_singleton.mp hd ▸ hc⟩

theorem idle_eats {a b p : CellPtr} {s : ℝ} (h : g'.calls = ((g.noteCollide a b).addSize p s).calls) :
    Idle g g' :=
  ⟨[.collide a b (g.heap a).radius (g.heap b).radius ((g.heap a).collide (g.heap b)),
    .addSize p ((g.noteCollide a b).heap p).size s], by rw [h]; simp [noteCollide, addSize],
    fun c hc => by rcases List.mem_pair.mp hc with rfl | rfl <;> rfl⟩

theorem idle_noteCollide (g : Game ℝ) (a b : CellPtr) : Idle g (g.noteCollide a b) :=
  idle_step rfl rfl

end Game

theorem StaticPoint.idle {pt pt' : StaticPoint ℝ} (hn : pt.next = some pt') :
    Game.Idle pt.game pt'.game := by
  obtain ⟨g, cells, blocks, loop⟩ := pt
  rcases cells with - | ⟨cell, cells⟩
  · cases hn
  rcases blocks with - | ⟨b, blocks⟩
  · obtain rfl := Option.some.inj hn
    exact .refl _ _
  rcases hs : (g.staticMap b)[loop]? with - | s
  · simp only [next, hs, Option.some.injEq] at hn
    subst hn
    exact .refl _ _
  simp only [next, hs] at hn
  split_ifs at hn with hbig
  · obtain rfl := Option.some.inj hn
    exact Game.idle_eats rfl
  · obtain rfl := Option.some.inj hn
    exact Game.idle_noteCollide g cell s

theorem OtherPoint.idle {pt pt' : OtherPoint ℝ} (hn : pt.next = some pt') :
    Game.Idle pt.game pt'.game := by
  cases pt with
  | outer g i x myLoop =>
    unfold OtherPoint.next at hn
    dsimp only at hn
    split_ifs at hn with hx hi
    · rcases hcell : (g.cellsOf i)[myLoop]? with - | cell
      · simp only [hcell, Option.some.injEq] at hn
        subst hn
        exact .refl _ _
      · simp only [hcell, Option.some.injEq] at hn
        subst hn
        exact .refl _ _
    · obtain rfl := Option.some.inj hn
      exact .refl _ _
  | inner g i x cell myLoop loop =>
    unfold OtherPoint.next at hn
    dsimp only at hn
    rcases ho : (g.cellsOf x)[loop]? with - | o
    · simp only [ho, Option.some.injEq] at hn
      subst hn
      exact .refl _ _
    simp only [ho] at hn
    split_ifs at hn with hbig hsmall
    · obtain rfl := Option.some.inj hn
      exact Game.idle_eats rfl
    · obtain rfl := Option.some.inj hn
      exact Game.idle_eats rfl
    · obtain rfl := Option.some.inj hn
      exact Game.idle_noteCollide g cell o

namespace Game
variable {g g' : Game ℝ} {i : ℕ}

theorem collideStatic_balances (hw : WellFormed g) (i : ℕ) :
    massLedger.Balances g (g.collideStatic i) := by
  let b : Board := ⟨g, hw.stored_nodup⟩
  have hvisits : b.VisitsStatic i ⟨g.collideStatic i, [], blockGrid, 0⟩ := StaticPoint.pass_leads g i
  have hidle : ∀ pt, b.VisitsStatic i pt → Idle g pt.game := by
    intro pt hv
    induction hv with
    | refl => exact .refl _ _
    | tail _ hn ih => exact ih.trans (StaticPoint.idle hn)
  exact (hidle _ hvisits).balances hvisits.steady.mass

theorem othersPass_balances (hw : WellFormed g) : massLedger.Balances g g.othersPass := by
  let b : Board := ⟨g, hw.stored_nodup⟩
  obtain ⟨i, x, hleads, -⟩ := OtherPoint.pass_leads g
  have hvisits : b.VisitsOthers (.outer g.othersPass i x 0) := hleads
  have hidle : ∀ pt, b.VisitsOthers pt → Idle g pt.game := by
    intro pt hv
    induction hv with
    | refl => exact .refl _ _
    | tail _ hn ih => exact ih.trans (OtherPoint.idle hn)
  exact (hidle _ hvisits).balances hvisits.steady.mass

theorem bigPops_gain (h : g.Held i) {popCell : CellPtr} (hcell : popCell ∈ g.cellsOf i)
    (angle : Vec2 ℝ) (left : ℕ) : (g.bigPops i popCell angle left).mass i =
      g.mass i + popGain (g.heap popCell).size (g.cellsOf i).length left := by
  induction left generalizing g popCell angle with
  | zero => exact (add_zero _).symm
  | succ left ih =>
    rw [bigPops, popGain]
    split_ifs with hbig
    · have hlt := h.allocated popCell hcell
      have hmass := bigPop_mass h hcell (angle.rotate (6.28 / 4))
      obtain ⟨hnext, hmem⟩ := bigPop_next h hcell (angle.rotate (6.28 / 4))
      obtain ⟨hcount, -, hsize, -⟩ := bigPop_numbers (angle.rotate (6.28 / 4)) hlt h.index
      have hnew := (bigPop_eq g i popCell (angle.rotate (6.28 / 4)) hlt).1
      have hrest := ih hnext hmem (angle.rotate (6.28 / 4))
      rw [hcount, hnew, hsize] at hrest
      dsimp only
      rw [hnew, hrest, hmass]
      ring
    · exact (add_zero _).symm

theorem popVirus_mass (h : g.Held i) {cell : CellPtr} (hcell : cell ∈ g.cellsOf i) (d : CellPtr) :
    (g.popVirus i cell d).mass i =
      g.mass i + popGain (g.heap cell).size (g.cellsOf i).length 4 := by
  have hheld := (bigPops_mass h hcell ⟨1, 0⟩ 4).2
  obtain ⟨news, hnews, -⟩ := bigPops_sprouts g ⟨1, 0⟩ 4 (h.allocated cell hcell) h.index
  have hstays : cell ∈ (g.bigPops i cell ⟨1, 0⟩ 4).cellsOf i := by
    rw [hnews.cells]
    exact List.mem_append_left _ hcell
  unfold popVirus
  dsimp only
  rw [smallBalls_mass (hheld.note _) hstays d, note_mass, bigPops_gain h hcell]

theorem bigPops_staticMap (g : Game ℝ) (i : ℕ) (popCell : CellPtr) (angle : Vec2 ℝ) (left : ℕ) :
    (g.bigPops i popCell angle left).staticMap = g.staticMap := by
  induction left generalizing g popCell angle with
  | zero => rfl
  | succ left ih =>
    rw [bigPops]
    split_ifs
    · exact (ih _ _ _).trans rfl
    · rfl

theorem popVirus_staticMap (g : Game ℝ) (i : ℕ) (cell d : CellPtr) :
    (g.popVirus i cell d).staticMap = g.staticMap := by
  have hloop : ∀ (g : Game ℝ) (size sumR : ℝ) (n : ℕ),
      (g.smallBallsLoop i cell d size sumR n).staticMap = g.staticMap := by
    intro g size sumR n
    induction n generalizing g with
    | zero => rfl
    | succ n ih => exact (ih _).trans rfl
  unfold popVirus smallBalls
  dsimp only
  split_ifs
  · exact (hloop _ _ _ _).trans (bigPops_staticMap g _ _ _ _)
  · exact bigPops_staticMap g _ _ _ _

theorem bigPops_idle (g : Game ℝ) (i : ℕ) (popCell : CellPtr) (angle : Vec2 ℝ) (left : ℕ) :
    Idle g (g.bigPops i popCell angle left) := by
  induction left generalizing g popCell angle with
  | zero => exact .refl _ _
  | succ left ih =>
    rw [bigPops]
    split_ifs
    · have hcalls : ∃ a b : Call ℝ, (g.bigPop i popCell (angle.rotate (6.28 / 4))).2.calls =
          (g.calls ++ [a]) ++ [b] ∧ a.gain = 0 ∧ b.gain = 0 := ⟨_, _, rfl, rfl, rfl⟩
      obtain ⟨a, b, hcalls, ha, hb⟩ := hcalls
      have hfirst : Idle g (g.bigPop i popCell (angle.rotate (6.28 / 4))).2 := by
        refine ⟨[a, b], by rw [hcalls, List.append_assoc]; rfl, fun c hc => ?_⟩
        rcases List.mem_pair.mp hc with rfl | rfl
        · exact ha
        · exact hb
      exact hfirst.trans (ih _ _ _)
    · exact .refl _ _

theorem smallBalls_idle (g : Game ℝ) (i : ℕ) (cell d : CellPtr) :
    Idle g (g.smallBalls i cell d) := by
  have hloop : ∀ (g : Game ℝ) (size sumR : ℝ) (n : ℕ),
      Idle g (g.smallBallsLoop i cell d size sumR n) := by
    intro g size sumR n
    induction n generalizing g with
    | zero => exact .refl _ _
    | succ n ih => exact (idle_step (c := .pushed _) rfl rfl).trans (ih _)
  unfold smallBalls
  dsimp only
  have hslots : Idle g (g.note (.slots (g.cellsOf i).length)) := idle_step rfl rfl
  split_ifs
  · exact (hslots.snoc (a := .addSize _ _ _) rfl).trans (hloop _ _ _ _)
  · exact hslots

theorem popVirus_balances (hw : WellFormed g) {cell : CellPtr} (hcell : cell ∈ g.cellsOf i)
    (d : CellPtr) : massLedger.Balances g (g.popVirus i cell d) := by
  obtain ⟨n, hn⟩ := List.mem_iff_getElem?.mp hcell
  have hi := lt_of_cellsOf hn
  have hheld : g.Held i := ⟨hi, hw.cells_nodup i, fun c hc => (hw.owned i c hc).1⟩
  have hlt := hheld.allocated cell hcell
  let pop : Call ℝ := .pop cell (g.heap cell).size (g.cellsOf i).length
  obtain ⟨cs, hcs, hidle⟩ := bigPops_idle g i cell ⟨1, 0⟩ 4
  obtain ⟨cs', hcs', hidle'⟩ := smallBalls_idle ((g.bigPops i cell ⟨1, 0⟩ 4).note pop) i cell d
  refine ⟨cs ++ [pop] ++ cs', ?_, fun _ => ?_⟩
  · show (((g.bigPops i cell ⟨1, 0⟩ 4).note pop).smallBalls i cell d).calls = _
    rw [hcs', note_calls, hcs]
    simp only [List.append_assoc]
    rfl
  · have hgain : massLedger.gained (cs ++ [pop] ++ cs') =
        popGain (g.heap cell).size (g.cellsOf i).length 4 := by
      rw [massLedger.gained_append, massLedger.gained_append, massLedger.gained_eq_zero hidle,
        massLedger.gained_eq_zero hidle', zero_add, add_zero]
      exact List.sum_singleton
    -- the pop leaves all cells of others alone
    obtain ⟨halves, hhalves, -⟩ := bigPops_sprouts g ⟨1, 0⟩ 4 hlt hi
    obtain ⟨⟨balls, -, hballs⟩, -⟩ := smallBalls_sprouts ((g.bigPops i cell ⟨1, 0⟩ 4).note pop) d
      (hlt.trans_le hhalves.allocated) (i := i) (by rw [note_players, hhalves.length]; exact hi)
    have hlocal : Local i g (g.popVirus i cell d) := by
      refine ⟨hi, hballs.length.trans hhalves.length, popVirus_staticMap g i cell d,
        popVirus_dynamicMap g i cell d, fun j hj => (hballs.others j hj).trans (hhalves.others j hj),
        fun q hq hqi => ?_⟩
      have hne : q ≠ cell := fun h => hqi (h ▸ hcell)
      have hsame := (hballs.heap q (hq.trans_le hhalves.allocated) hne).trans
        (hhalves.heap q hq hne)
      exact congrArg Cell.size hsame
    have hmass := hlocal.mass hw
    rw [popVirus_mass hheld hcell d] at hmass
    rw [hgain]
    show (g.popVirus i cell d).storedMass = g.storedMass + _
    linarith

end Game

theorem DynamicPoint.Steady.balances {i : ℕ} {pt pt' : DynamicPoint ℝ} (h : Steady i pt)
    (hst : Standing i pt) (hn : pt.next i = some pt') :
    Game.massLedger.Balances pt.game pt'.game := by
  have hw := h.wellFormed
  have heats : ∀ {g : Game ℝ} {cell d : CellPtr} {loop : ℕ}, g.WellFormed → cell ∈ g.cellsOf i →
      g.dynamicMap[loop]? = some d →
      Game.massLedger.Balances g ((g.noteCollide cell d).eatDynamic cell d loop) := by
    intro g cell d loop hw hcell hd
    have hsizes := Game.addSize_sizes (g.noteCollide cell d) cell (Cell.size_nonneg (g.heap d))
    refine Game.Handed.balances (.eaten cell d ⟨i, hcell, hcell⟩
      (Game.eraseDynamic_stored hd rfl rfl rfl) ?_ fun p hp => ?_) hw.stored_nodup
      (Game.idle_eats rfl)
    · have hsize := hsizes cell
      rw [if_pos rfl] at hsize
      exact hsize
    · have hsize := hsizes p
      rw [if_neg hp, add_zero] at hsize
      exact hsize
  cases round_of_next hn with
  | enter g cell myLoop hcell => exact .refl g
  | leave g cell myLoop loop hend => exact .refl g
  | pop g cell d myLoop loop hd hbig hvirus hroom =>
    have hcell := List.mem_of_getElem? hst.inRange.1
    have hfed := (Game.eatDynamic_leads (h.owned g cell myLoop loop rfl) hd).wellFormed hw
    exact (heats hw hcell hd).trans (Game.popVirus_balances hfed hcell d)
  | eat g cell d myLoop loop hd hbig hwhole =>
    exact heats hw (List.mem_of_getElem? hst.inRange.1) hd
  | absorb g cell d myLoop loop hd hsmall hother =>
    exact absurd ⟨d, hd, hsmall, hother⟩ h.not_absorbs
  | pass g cell d myLoop loop hd hbig hsmall =>
    exact Game.Handed.balances (.stay rfl rfl rfl fun _ => rfl) hw.stored_nodup
      (Game.idle_noteCollide g cell d)

namespace Game
variable {g g' : Game ℝ} {i : ℕ}

theorem collideDynamic_of_rounds {R : Game ℝ → Game ℝ → Prop} (hrefl : ∀ g, R g g)
    (htrans : ∀ a b c, R a b → R b c → R a c)
    (hround : ∀ pt pt', DynamicPoint.Steady i pt → DynamicPoint.Standing i pt →
      pt.next i = some pt' → R pt.game pt'.game)
    (hw : WellFormed g) (hi : i < g.players.length) : R g (g.collideDynamic i) := by
  obtain ⟨n, hleads, -⟩ := DynamicPoint.outer_leads g i 0
  have hall : ∀ pt, DynamicPoint.Leads i (.outer g 0) pt → DynamicPoint.Steady i pt ∧
      DynamicPoint.Standing i pt ∧ R g pt.game := by
    intro pt hl
    induction hl with
    | refl =>
      refine ⟨⟨hw, hi, fun _ _ _ _ h => by cases h⟩, ⟨hi, hw.cap i,
        fun c hc => (hw.owned i c hc).1, hw.dynamic_nodup, Nat.zero_le _⟩, hrefl g⟩
    | tail _ hn ih =>
      obtain ⟨hsteady, hstanding, hkept⟩ := ih
      exact ⟨hsteady.next hn, hstanding.next (DynamicPoint.round_of_next hn),
        htrans _ _ _ hkept (hround _ _ hsteady hstanding hn)⟩
  exact (hall _ hleads).2.2

theorem collideDynamic_balances (hw : WellFormed g) (hi : i < g.players.length) :
    massLedger.Balances g (g.collideDynamic i) :=
  collideDynamic_of_rounds (R := massLedger.Balances) (fun _ => .refl _)
    (fun _ _ _ h h' => h.trans h') (fun _ _ hsteady hstanding hn => hsteady.balances hstanding hn)
    hw hi

theorem idle_noteCombine (g : Game ℝ) (a b : CellPtr) : Idle g (g.noteCombine a b) := by
  unfold noteCombine
  dsimp only
  have hfirst : Idle g (g.note (.readCombine a (g.heap a).combineSet)) := idle_step rfl rfl
  split_ifs
  · exact hfirst.trans (idle_step rfl rfl)
  · exact hfirst

theorem idle_noteSelf (g : Game ℝ) (a b : CellPtr) : Idle g (g.noteSelf a b) :=
  (idle_noteCollide g a b).trans (idle_noteCombine _ a b)

theorem idle_eatOwn (g : Game ℝ) (i : ℕ) (cell o : CellPtr) (loop : ℕ) :
    Idle g (g.eatOwn i cell o loop) := idle_step (c := .addSize _ _ _) rfl rfl

theorem absorbOwn_calls (g : Game ℝ) (i : ℕ) (cell o : CellPtr) (myLoop : ℤ) :
    ∃ slot, (g.absorbOwn i cell o myLoop).calls =
      g.calls ++ [.addSize o (g.heap o).size (g.heap cell).size, .absorb cell slot] := by
  refine ⟨if 0 ≤ myLoop then (g.cellsOf i)[myLoop.toNat]? else none, ?_⟩
  unfold absorbOwn
  rw [(eraseCellAt_frame _ i myLoop).2.2.2.2.2.1]
  show (g.calls ++ [_]) ++ [_] = _
  rw [List.append_assoc]
  rfl

theorem idle_absorbOwn (g : Game ℝ) (i : ℕ) (cell o : CellPtr) (myLoop : ℤ) :
    Idle g (g.absorbOwn i cell o myLoop) := by
  obtain ⟨slot, hcalls⟩ := absorbOwn_calls g i cell o myLoop
  exact ⟨_, hcalls, fun c hc => by rcases List.mem_pair.mp hc with rfl | rfl <;> rfl⟩

theorem collideSelfWith_idle (g : Game ℝ) (i : ℕ) (cell : CellPtr) (myLoop : ℤ) (loop : ℕ) :
    Idle g (g.collideSelfWith i cell myLoop loop).1 := by
  fun_induction collideSelfWith g i cell myLoop loop with
  | case1 g myLoop loop hnone => exact .refl _ _
  | case2 g myLoop loop o ho result g' hready hover hbig ih =>
    exact ((idle_noteSelf g cell o).trans (idle_eatOwn g' i cell o loop)).trans ih
  | case3 g myLoop loop o ho result g' hready hover hbig ih =>
    exact ((idle_noteSelf g cell o).trans (idle_absorbOwn g' i cell o myLoop)).trans ih
  | case4 g myLoop loop o ho result g' hready hover ih => exact (idle_noteSelf g cell o).trans ih
  | case5 g myLoop loop o ho result g' hready htouch ih =>
    have hpush : Idle g' (g'.pushApart cell o) := .refl _ _
    exact ((idle_noteSelf g cell o).trans hpush).trans ih
  | case6 g myLoop loop o ho result g' hready htouch ih => exact (idle_noteSelf g cell o).trans ih

theorem collideSelfWith_compares {cell o : CellPtr} {loop : ℕ}
    (ho : (g.cellsOf i)[loop]? = some o) (myLoop : ℤ) :
    ∃ cs, (g.collideSelfWith i cell myLoop loop).1.calls = g.calls ++ cs ∧
      ∃ c ∈ cs, c.pair = some (cell, o) := by
  have hstep : Idle (g.noteCollide cell o) (g.collideSelfWith i cell myLoop loop).1 := by
    have hcombine := idle_noteCombine (g.noteCollide cell o) cell o
    rw [collideSelfWith]
    split
    · rename_i hnone
      rw [ho] at hnone
      cases hnone
    · rename_i o' ho'
      obtain rfl : o = o' := Option.some.inj (ho.symm.trans ho')
      dsimp only
      split_ifs
      · exact (hcombine.trans (idle_eatOwn _ i cell o loop)).trans (collideSelfWith_idle _ _ _ _ _)
      · exact (hcombine.trans (idle_absorbOwn _ i cell o myLoop)).trans
          (collideSelfWith_idle _ _ _ _ _)
      · exact hcombine.trans (collideSelfWith_idle _ _ _ _ _)
      · have hpush : Idle (g.noteSelf cell o) ((g.noteSelf cell o).pushApart cell o) := .refl _ _
        exact (hcombine.trans hpush).trans (collideSelfWith_idle _ _ _ _ _)
      · exact hcombine.trans (collideSelfWith_idle _ _ _ _ _)
  obtain ⟨cs, hcs, -⟩ := hstep
  refine ⟨.collide cell o (g.heap cell).radius (g.heap o).radius
    ((g.heap cell).collide (g.heap o)) :: cs, ?_, _, List.mem_cons_self, rfl⟩
  rw [hcs]
  show (g.calls ++ [_]) ++ cs = _
  rw [List.append_assoc]
  rfl

theorem stored_noteSelf (g : Game ℝ) (a b : CellPtr) :
    (g.noteSelf a b).staticMap = g.staticMap ∧ (g.noteSelf a b).dynamicMap = g.dynamicMap := by
  unfold noteSelf noteCombine
  dsimp only
  split_ifs <;> exact ⟨rfl, rfl⟩

theorem eraseCell_players (h : g'.players = g.players) (i loop : ℕ) :
    (g'.eraseCell i loop).players = (g.eraseCell i loop).players := by
  unfold eraseCell setCells
  dsimp only
  rw [h, cellsOf_congr h]

theorem eatOwn_handed {m loop : ℕ} {cell o : CellPtr} (hm : (g.cellsOf i)[m]? = some cell)
    (hlt : m < loop) (ho : (g.cellsOf i)[loop]? = some o) :
    Handed g ((g.noteSelf cell o).eatOwn i cell o loop) ∧
    (((g.noteSelf cell o).eatOwn i cell o loop).cellsOf i)[m]? = some cell := by
  have hheap := (noteSelf_frame g cell o).1
  obtain ⟨hstatic, hdynamic⟩ := stored_noteSelf g cell o
  have hkept : (((g.noteSelf cell o).eatOwn i cell o loop).cellsOf i)[m]? = some cell := by
    rw [eatOwn_cellsOf _ i loop cell o (by rw [noteSelf_cellsOf]; exact ho), noteSelf_cellsOf,
      List.getElem?_eraseIdx_of_lt hlt]
    exact hm
  have hsizes := addSize_sizes (g.noteSelf cell o) cell
    (Cell.size_nonneg ((g.noteSelf cell o).heap o))
  refine ⟨.eaten cell o ⟨i, List.mem_of_getElem? hm, List.mem_of_getElem? hkept⟩
    (eraseCell_stored ho hstatic hdynamic ?_) ?_ fun p hp => ?_, hkept⟩
  · have hsame : (((g.noteSelf cell o).addSize cell ((g.noteSelf cell o).heap o).size).pushRemoveDynamic
        o).players = g.players := noteSelf_players g cell o
    exact eraseCell_players hsame i loop
  · have hsize := hsizes cell
    rw [if_pos rfl] at hsize
    rw [← hheap]
    exact hsize
  · have hsize := hsizes p
    rw [if_neg hp, add_zero] at hsize
    rw [← hheap]
    exact hsize

theorem absorbOwn_handed {m loop : ℕ} {cell o : CellPtr} (hm : (g.cellsOf i)[m]? = some cell)
    (hlt : m < loop) (ho : (g.cellsOf i)[loop]? = some o) :
    Handed g ((g.noteSelf cell o).absorbOwn i cell o m) := by
  have hheap := (noteSelf_frame g cell o).1
  obtain ⟨hstatic, hdynamic⟩ := stored_noteSelf g cell o
  have hcells := g.noteSelf_cellsOf cell o i
  have hrange : 0 ≤ (m : ℤ) ∧ (m : ℤ) < ((g.noteSelf cell o).cellsOf i).length := by
    rw [hcells]
    exact ⟨Int.natCast_nonneg m, Int.ofNat_lt.mpr (getElem?_lt hm)⟩
  have hafter := (absorbOwn_cellsOf (g.noteSelf cell o) i m cell o (by rw [hcells]; exact hm)).1
  rw [hcells] at hafter
  have hkept : o ∈ ((g.noteSelf cell o).absorbOwn i cell o m).cellsOf i := by
    rw [hafter]
    refine List.mem_of_getElem? (i := loop - 1) ?_
    rw [List.getElem?_eraseIdx_of_ge (by omega), Nat.sub_add_cancel (by omega)]
    exact ho
  have hframe := fun g' : Game ℝ => eraseCellAt_frame g' i m
  have hsizes := addSize_sizes (g.noteSelf cell o) o
    (Cell.size_nonneg ((g.noteSelf cell o).heap cell))
  have hsame := absorbOwn_heap (g.noteSelf cell o) i cell o m
  refine .eaten o cell ⟨i, List.mem_of_getElem? ho, hkept⟩
    (eraseCell_stored hm ?_ ?_ ?_) ?_ fun p hp => ?_
  · exact (hframe _).2.2.1.trans hstatic
  · exact (hframe _).2.2.2.1.trans hdynamic
  · unfold absorbOwn eraseCellAt
    dsimp only
    rw [if_pos (by exact hrange)]
    exact eraseCell_players (noteSelf_players g cell o) i m
  · have hsize := hsizes o
    rw [if_pos rfl] at hsize
    rw [hsame, ← hheap]
    exact hsize
  · have hsize := hsizes p
    rw [if_neg hp, add_zero] at hsize
    rw [hsame, ← hheap]
    exact hsize

theorem noteSelf_handed (g : Game ℝ) (a b : CellPtr) : Handed g (g.noteSelf a b) :=
  .stay (stored_noteSelf g a b).1 (stored_noteSelf g a b).2 (noteSelf_players g a b)
    fun p => by rw [(noteSelf_frame g a b).1]

theorem pushApart_handed (g : Game ℝ) (a b : CellPtr) : Handed g (g.pushApart a b) :=
  .stay rfl rfl rfl fun p => pushApart_size g a b p

/-- The inner loop over the cells behind the one in slot `m`. An absorbed cell is not in its slot any
more, so the loop must be over. -/
theorem collideSelfWith_balances (g : Game ℝ) (i : ℕ) (cell : CellPtr) (myLoop : ℤ) (loop : ℕ)
    (hnodup : g.stored.Nodup)
    (hslot : ∃ m : ℕ, myLoop = m ∧ m < loop ∧ (g.cellsOf i)[m]? = some cell) :
    massLedger.Balances g (g.collideSelfWith i cell myLoop loop).1 := by
  fun_induction collideSelfWith g i cell myLoop loop with
  | case1 g myLoop loop hnone => exact .refl g
  | case2 g myLoop loop o ho result g' hready hover hbig ih =>
    obtain ⟨m, rfl, hlt, hm⟩ := hslot
    obtain ⟨hhanded, hkept⟩ := eatOwn_handed hm hlt ho
    exact (hhanded.balances hnodup ((idle_noteSelf g cell o).trans (idle_eatOwn g' i cell o loop))).trans
      (ih (hhanded.nodup hnodup) ⟨m, rfl, hlt, hkept⟩)
  | case3 g myLoop loop o ho result g' hready hover hbig ih =>
    obtain ⟨m, rfl, hlt, hm⟩ := hslot
    have hhanded := absorbOwn_handed hm hlt ho
    have hfirst := hhanded.balances hnodup
      ((idle_noteSelf g cell o).trans (idle_absorbOwn g' i cell o m))
    rcases hnext : ((g'.absorbOwn i cell o m).cellsOf i)[loop + 1]? with - | o'
    · have hend : ((g'.absorbOwn i cell o m).collideSelfWith i cell (max (-1) ((m : ℤ) - 1))
          (loop + 1)).1 = g'.absorbOwn i cell o m := by
        rw [collideSelfWith]
        split
        · rfl
        · rename_i o'' ho''
          rw [hnext] at ho''
          cases ho''
      rw [hend]
      exact hfirst
    · -- the absorbed cell is compared with the next one
      obtain ⟨cs, hcs, -⟩ := idle_noteSelf g cell o
      obtain ⟨slot, habsorb⟩ := absorbOwn_calls g' i cell o m
      obtain ⟨cs', hcs', c, hc, hpair⟩ := collideSelfWith_compares hnext (max (-1) ((m : ℤ) - 1))
      refine .of_unsound (l := cs ++ [.addSize o (g'.heap o).size (g'.heap cell).size,
        .absorb cell slot] ++ cs') ?_ fun hsound => ?_
      · show ((g'.absorbOwn i cell o m).collideSelfWith i cell _ (loop + 1)).1.calls = _
        rw [hcs', habsorb, hcs]
        simp only [List.append_assoc]
        rfl
      · refine (List.pairwise_append.mp hsound).2.2 (.absorb cell slot) ?_ c hc ⟨o', hpair⟩
        exact List.mem_append_right _ (List.mem_cons_of_mem _ List.mem_cons_self)
  | case4 g myLoop loop o ho result g' hready hover ih =>
    obtain ⟨m, rfl, hlt, hm⟩ := hslot
    have hnoted := noteSelf_handed g cell o
    exact (hnoted.balances hnodup (idle_noteSelf g cell o)).trans (ih (hnoted.nodup hnodup)
      ⟨m, rfl, hlt.trans (Nat.lt_succ_self _), (noteSelf_cellsOf g cell o i).symm ▸ hm⟩)
  | case5 g myLoop loop o ho result g' hready htouch ih =>
    obtain ⟨m, rfl, hlt, hm⟩ := hslot
    have hnoted := noteSelf_handed g cell o
    have hpushed := pushApart_handed g' cell o
    have hnodup' := hnoted.nodup hnodup
    exact ((hnoted.balances hnodup (idle_noteSelf g cell o)).trans
      (hpushed.balances hnodup' (.refl _ _))).trans (ih (hpushed.nodup hnodup')
        ⟨m, rfl, hlt.trans (Nat.lt_succ_self _), (noteSelf_cellsOf g cell o i).symm ▸ hm⟩)
  | case6 g myLoop loop o ho result g' hready htouch ih =>
    obtain ⟨m, rfl, hlt, hm⟩ := hslot
    have hnoted := noteSelf_handed g cell o
    exact (hnoted.balances hnodup (idle_noteSelf g cell o)).trans (ih (hnoted.nodup hnodup)
      ⟨m, rfl, hlt.trans (Nat.lt_succ_self _), (noteSelf_cellsOf g cell o i).symm ▸ hm⟩)

theorem collideSelf_balances (hw : WellFormed g) (i : ℕ) :
    massLedger.Balances g (g.collideSelf i) := by
  unfold collideSelf
  generalize 0 = myLoop
  fun_induction collideSelfFrom g i myLoop with
  | case1 g myLoop hnone => exact .refl g
  | case2 g myLoop cell hc r ih =>
    have ho := hw.owned i cell (List.mem_of_getElem? hc)
    refine (collideSelfWith_balances g i cell myLoop (myLoop + 1) hw.stored_nodup
      ⟨myLoop, rfl, Nat.lt_succ_self _, hc⟩).trans (ih ?_)
    exact (collideSelfWith_leads g i cell myLoop (myLoop + 1) ho (by push_cast; omega)
      (Or.inl ⟨by omega, hc⟩)).wellFormed hw

theorem collideOwn_balances (hw : WellFormed g) (hi : i < g.players.length) :
    massLedger.Balances g (g.collideOwn i) := by
  have hstatic := collideStatic_leads g i
  have hw' := hstatic.wellFormed hw
  have hi' : i < (g.collideStatic i).players.length := by
    rw [players_length (hstatic.frame hw)]
    exact hi
  have hw'' := (collideDynamic_leads (g.collideStatic i) i hi').wellFormed hw'
  exact ((collideStatic_balances hw i).trans (collideDynamic_balances hw' hi')).trans
    (collideSelf_balances hw'' i)

theorem collisionPhase_balances (hw : WellFormed g) :
    massLedger.Balances g g.collisionPhase := by
  have hown : massLedger.Balances g g.ownPasses := by
    refine Ledger.balances_foldl (P := fun g' => WellFormed g' ∧
      g'.players.length = g.players.length) (fun g' i hi hg' => ?_) ⟨hw, rfl⟩
    obtain ⟨hw', hlen⟩ := hg'
    have hi' : i < g'.players.length := by
      rw [hlen]
      exact List.mem_range.mp hi
    have hleads := collideOwn_leads g' i hi'
    exact ⟨collideOwn_balances hw' hi', hleads.wellFormed hw',
      (players_length (hleads.frame hw')).trans hlen⟩
  rw [collisionPhase_eq]
  exact hown.trans (othersPass_balances ((ownPasses_leads g).wellFormed hw))

end Game

end Agar
