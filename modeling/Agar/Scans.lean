import Agar.Popping
import Agar.Lib.Trace

/-! `CollideDynamic` is exhaustive (`Player.cpp`): it ends, stays within both vectors, and every cell
of the player has been tested against every cell that is left in `DynamicMap`, the pieces of the pops
included, although the outer index steps back and both vectors change under the scan. -/

namespace Agar

namespace Call

/-- What the call says of the two cells, if it is a test of the one against the other. -/
def tests {K : Type} (a b : CellPtr) : Call K → Option Collision
  | .collide a' b' _ _ result => if a' = a ∧ b' = b then some result else none
  | _ => none

/-- The call is no test, and sees no more than 16 cells if it counts free slots. -/
def Aside : Call ℝ → Prop
  | .collide .. => False
  | .slots count => count ≤ 16
  | _ => True

theorem Aside.tests {c : Call ℝ} (h : c.Aside) (a b : CellPtr) : c.tests a b = none := by
  cases c with
  | collide _ _ _ _ _ => exact h.elim
  | _ => rfl

end Call

namespace Game
variable {g g' : Game ℝ} {i : ℕ}

/-- The calls that were made since are no tests. -/
abbrev Untested (g g' : Game ℝ) : Prop := Trace.Extends Call.Aside g.calls g'.calls

theorem bigPop_untested (g : Game ℝ) (i : ℕ) (popCell : CellPtr) (angle : Vec2 ℝ) :
    Untested g (g.bigPop i popCell angle).2 :=
  ((Trace.Extends.refl Call.Aside g.calls).snoc (a := Call.addSize _ _ _) trivial).snoc
    (a := Call.pushed _) trivial

theorem bigPops_untested (g : Game ℝ) {popCell : CellPtr} (angle : Vec2 ℝ) (left : ℕ)
    (hcell : popCell < g.allocated) (hi : i < g.players.length) (hfew : (g.cellsOf i).length ≤ 16) :
    Untested g (g.bigPops i popCell angle left) ∧
      ((g.bigPops i popCell angle left).cellsOf i).length ≤ 16 := by
  induction left generalizing g popCell angle with
  | zero => exact ⟨.refl _ _, hfew⟩
  | succ left ih =>
    rw [bigPops]
    split_ifs with h
    · obtain ⟨hpop, -⟩ := bigPop_sprouts g (angle.rotate (6.28 / 4)) hcell hi
      have hnew := (bigPop_eq g i popCell (angle.rotate (6.28 / 4)) hcell).1
      obtain ⟨-, hlt, -⟩ := hpop.fresh g.allocated List.mem_cons_self
      obtain ⟨hcalls, hlen⟩ := ih (g.bigPop i popCell (angle.rotate (6.28 / 4))).2
        (angle.rotate (6.28 / 4)) (hnew ▸ hlt) (by rw [hpop.length]; exact hi)
        (by rw [hpop.cells, List.length_append, List.length_singleton]; exact h.2)
      exact ⟨(bigPop_untested g i popCell _).trans hcalls, hlen⟩
    · exact ⟨.refl _ _, hfew⟩

theorem smallBallsLoop_untested (g : Game ℝ) (i : ℕ) (cell d : CellPtr) (sizeSmall sumR : ℝ)
    (n : ℕ) : Untested g (g.smallBallsLoop i cell d sizeSmall sumR n) := by
  induction n generalizing g with
  | zero => exact .refl _ _
  | succ n ih =>
    have hball : Untested g (g.smallBall i cell d sizeSmall sumR) :=
      (Trace.Extends.refl Call.Aside g.calls).snoc (a := Call.pushed _) trivial
    exact hball.trans (ih _)

theorem smallBalls_untested (g : Game ℝ) (cell d : CellPtr) (hfew : (g.cellsOf i).length ≤ 16) :
    Untested g (g.smallBalls i cell d) := by
  have hslots : Untested g (g.note (.slots (g.cellsOf i).length)) :=
    (Trace.Extends.refl _ _).snoc hfew
  unfold smallBalls
  dsimp only
  split_ifs
  · exact (hslots.snoc (a := Call.addSize _ _ _) trivial).trans (smallBallsLoop_untested _ _ _ _ _ _ _)
  · exact hslots

/-- What a pop does to the cells of its player. -/
structure Pops (i : ℕ) (g g' : Game ℝ) : Prop where
  calls : Untested g g'
  index : i < g'.players.length
  few : (g'.cellsOf i).length ≤ 16
  allocated : ∀ c ∈ g'.cellsOf i, c < g'.allocated
  cells : g.cellsOf i <+: g'.cellsOf i
  dynamic : g'.dynamicMap = g.dynamicMap

theorem popVirus_pops (g : Game ℝ) {cell : CellPtr} (d : CellPtr) (hcell : cell ∈ g.cellsOf i)
    (hi : i < g.players.length) (hfew : (g.cellsOf i).length ≤ 16)
    (hallocated : ∀ c ∈ g.cellsOf i, c < g.allocated) : Pops i g (g.popVirus i cell d) := by
  have hlt := hallocated cell hcell
  obtain ⟨hcalls, hlen⟩ := bigPops_untested g ⟨1, 0⟩ 4 hlt hi hfew
  obtain ⟨halves, hhalves, -⟩ := bigPops_sprouts g ⟨1, 0⟩ 4 hlt hi
  let popped := (g.bigPops i cell ⟨1, 0⟩ 4).note (.pop cell (g.heap cell).size (g.cellsOf i).length)
  have hpop : Untested g popped := hcalls.snoc (a := Call.pop _ _ _) trivial
  obtain ⟨⟨balls, hballs, hsprouts⟩, -⟩ := smallBalls_sprouts popped d
    (hlt.trans_le hhalves.allocated) (i := i) (by rw [note_players, hhalves.length]; exact hi)
  have hcells : (g.popVirus i cell d).cellsOf i = g.cellsOf i ++ (halves ++ balls) := by
    rw [← List.append_assoc, ← hhalves.cells]
    exact hsprouts.cells
  constructor
  · exact hpop.trans (smallBalls_untested popped cell d hlen)
  · have hsame : (g.popVirus i cell d).players.length = g.players.length :=
      hsprouts.length.trans hhalves.length
    rw [hsame]
    exact hi
  · have hcount : (popped.cellsOf i).length ≤ 16 := hlen
    have hsum : (popped.cellsOf i).length +
        smallBallCount (popped.cellsOf i).length (popped.heap cell).size ≤ 16 :=
      smallBallCount_le hcount
    have hcells : (g.popVirus i cell d).cellsOf i = popped.cellsOf i ++ balls := hsprouts.cells
    rw [hcells, List.length_append, hballs]
    exact hsum
  · intro c hc
    rw [hcells] at hc
    rcases List.mem_append.mp hc with hc | hc
    · exact (hallocated c hc).trans_le (hhalves.allocated.trans hsprouts.allocated)
    rcases List.mem_append.mp hc with hc | hc
    · exact (hhalves.fresh c hc).2.1.trans_le hsprouts.allocated
    · exact (hsprouts.fresh c hc).2.1
  · rw [hcells]
    exact List.prefix_append _ _
  · exact popVirus_dynamicMap g i cell d

end Game

namespace DynamicPoint

@[simp] theorem game_outer (g : Game ℝ) (myLoop : ℕ) : game (.outer g myLoop) = g := rfl

@[simp] theorem game_inner (g : Game ℝ) (cell : CellPtr) (myLoop loop : ℕ) :
    game (.inner g cell myLoop loop) = g := rfl

/-- A round of the pass of player `i`. -/
inductive Round (i : ℕ) : DynamicPoint ℝ → DynamicPoint ℝ → Prop
  | enter (g : Game ℝ) (cell : CellPtr) (myLoop : ℕ) (hcell : (g.cellsOf i)[myLoop]? = some cell) :
    Round i (.outer g myLoop) (.inner g cell myLoop 0)
  | leave (g : Game ℝ) (cell : CellPtr) (myLoop loop : ℕ) (hend : g.dynamicMap.length ≤ loop) :
    Round i (.inner g cell myLoop loop) (.outer g (myLoop + 1))
  | pop (g : Game ℝ) (cell d : CellPtr) (myLoop loop : ℕ) (hd : g.dynamicMap[loop]? = some d)
    (hbig : (g.heap cell).collide (g.heap d) = .bigger)
    (hvirus : (g.heap d).flag.isVirus = true) (hroom : (g.cellsOf i).length < 16) :
    Round i (.inner g cell myLoop loop)
      (.outer (((g.noteCollide cell d).eatDynamic cell d loop).popVirus i cell d) myLoop)
  | eat (g : Game ℝ) (cell d : CellPtr) (myLoop loop : ℕ) (hd : g.dynamicMap[loop]? = some d)
    (hbig : (g.heap cell).collide (g.heap d) = .bigger)
    (hwhole : ¬ ((g.heap d).flag.isVirus = true ∧ (g.cellsOf i).length < 16)) :
    Round i (.inner g cell myLoop loop)
      (.inner ((g.noteCollide cell d).eatDynamic cell d loop) cell myLoop loop)
  | absorb (g : Game ℝ) (cell d : CellPtr) (myLoop loop : ℕ) (hd : g.dynamicMap[loop]? = some d)
    (hsmall : (g.heap cell).collide (g.heap d) = .smaller)
    (hother : ¬ ((g.heap d).flag.isFood ∨ (g.heap d).flag.isVirus)) :
    Round i (.inner g cell myLoop loop)
      (.outer ((g.noteCollide cell d).absorbDynamic i cell d myLoop) myLoop)
  | pass (g : Game ℝ) (cell d : CellPtr) (myLoop loop : ℕ) (hd : g.dynamicMap[loop]? = some d)
    (hbig : (g.heap cell).collide (g.heap d) ≠ .bigger)
    (hsmall : ¬ ((g.heap cell).collide (g.heap d) = .smaller ∧
      ¬ ((g.heap d).flag.isFood ∨ (g.heap d).flag.isVirus))) :
    Round i (.inner g cell myLoop loop) (.inner (g.noteCollide cell d) cell myLoop (loop + 1))

variable {i : ℕ} {pt pt' : DynamicPoint ℝ}

theorem round_of_next (hn : pt.next i = some pt') : Round i pt pt' := by
  cases pt with
  | outer g myLoop =>
    unfold DynamicPoint.next at hn
    dsimp only at hn
    rcases hcell : (g.cellsOf i)[myLoop]? with - | cell
    · simp [hcell] at hn
    · simp only [hcell, Option.some.injEq] at hn
      exact hn ▸ .enter g cell myLoop hcell
  | inner g cell myLoop loop =>
    unfold DynamicPoint.next at hn
    dsimp only at hn
    rcases hd : g.dynamicMap[loop]? with - | d
    · simp only [hd, Option.some.injEq] at hn
      exact hn ▸ .leave g cell myLoop loop (List.getElem?_eq_none_iff.mp hd)
    · simp only [hd] at hn
      split_ifs at hn with hbig hpop hsmall
      · exact Option.some.inj hn ▸ .pop g cell d myLoop loop hd hbig hpop.1 hpop.2
      · exact Option.some.inj hn ▸ .eat g cell d myLoop loop hd hbig hpop
      · exact Option.some.inj hn ▸ .absorb g cell d myLoop loop hd hsmall.1 hsmall.2
      · exact Option.some.inj hn ▸ .pass g cell d myLoop loop hd hbig hsmall

/-- The indices are within the vectors. -/
def InRange (i : ℕ) : DynamicPoint ℝ → Prop
  | .outer g myLoop => myLoop ≤ (g.cellsOf i).length
  | .inner g cell myLoop loop => (g.cellsOf i)[myLoop]? = some cell ∧ loop ≤ g.dynamicMap.length

/-- What holds of the two vectors at every point of a pass. -/
structure Standing (i : ℕ) (pt : DynamicPoint ℝ) : Prop where
  index : i < pt.game.players.length
  few : (pt.game.cellsOf i).length ≤ 16
  allocated : ∀ c ∈ pt.game.cellsOf i, c < pt.game.allocated
  distinct : pt.game.dynamicMap.Nodup
  inRange : pt.InRange i

theorem Standing.pops {g : Game ℝ} {cell : CellPtr} {myLoop loop : ℕ}
    (h : Standing i (.inner g cell myLoop loop)) (d : CellPtr) :
    Game.Pops i ((g.noteCollide cell d).eatDynamic cell d loop)
      (((g.noteCollide cell d).eatDynamic cell d loop).popVirus i cell d) :=
  Game.popVirus_pops _ d (List.mem_of_getElem? h.inRange.1) h.index h.few h.allocated

theorem Standing.next (h : Standing i pt) (hr : Round i pt pt') : Standing i pt' := by
  cases hr with
  | enter g cell myLoop hcell =>
    exact ⟨h.index, h.few, h.allocated, h.distinct, hcell, Nat.zero_le _⟩
  | leave g cell myLoop loop hend =>
    exact ⟨h.index, h.few, h.allocated, h.distinct, Game.getElem?_lt h.inRange.1⟩
  | pop g cell d myLoop loop hd hbig hvirus hroom =>
    have hpops := h.pops d
    refine ⟨hpops.index, hpops.few, hpops.allocated, ?_, ?_⟩
    · rw [game_outer, hpops.dynamic]
      exact h.distinct.sublist (List.eraseIdx_sublist _ _)
    · exact (Game.getElem?_lt h.inRange.1).le.trans hpops.cells.length_le
  | eat g cell d myLoop loop hd hbig hwhole =>
    refine ⟨h.index, h.few, h.allocated, h.distinct.sublist (List.eraseIdx_sublist _ _),
      h.inRange.1, ?_⟩
    have hlt := Game.getElem?_lt hd
    rw [Game.eatDynamic_dynamicMap]
    show loop ≤ (g.dynamicMap.eraseIdx loop).length
    rw [List.length_eraseIdx_of_lt hlt]
    omega
  | absorb g cell d myLoop loop hd hsmall hother =>
    have hcells : ((g.noteCollide cell d).absorbDynamic i cell d myLoop).cellsOf i =
        (g.cellsOf i).eraseIdx myLoop := Game.cellsOf_setCells_self _ _ _ h.index
    have hsub := List.eraseIdx_sublist (g.cellsOf i) myLoop
    have hlt := Game.getElem?_lt h.inRange.1
    refine ⟨?_, ?_, fun c hc => ?_, h.distinct, ?_⟩
    · rw [game_outer]
      exact h.index.trans_eq (List.length_modify _ _ _).symm
    · rw [game_outer, hcells]
      exact hsub.length_le.trans h.few
    · rw [game_outer, hcells] at hc
      exact h.allocated c (hsub.subset hc)
    · show myLoop ≤ _
      rw [hcells, List.length_eraseIdx_of_lt hlt]
      omega
  | pass g cell d myLoop loop hd hbig hsmall =>
    exact ⟨h.index, h.few, h.allocated, h.distinct, h.inRange.1, Game.getElem?_lt hd⟩

/-- The pairs the scan is through with. -/
def Behind (i : ℕ) (a b : CellPtr) : DynamicPoint ℝ → Prop
  | .outer g myLoop => a ∈ (g.cellsOf i).take myLoop ∧ b ∈ g.dynamicMap
  | .inner g cell myLoop loop => (a ∈ (g.cellsOf i).take myLoop ∧ b ∈ g.dynamicMap) ∨
      (a = cell ∧ b ∈ g.dynamicMap.take loop)

/-- The calls of the pass so far: the last test of every pair the scan is through with has left the
dynamic cell alone. -/
structure Logged (i : ℕ) (start : Game ℝ) (pt : DynamicPoint ℝ) (cs : List (Call ℝ)) : Prop where
  calls : pt.game.calls = start.calls ++ cs
  slots : ∀ count, .slots count ∈ cs → count ≤ 16
  settled : ∀ a b, pt.Behind i a b →
    ∃ r, Trace.latest (Call.tests a b) cs = some r ∧ r ≠ .bigger

variable {start : Game ℝ} {cs : List (Call ℝ)}

theorem Logged.test (h : Logged i start pt cs) (cell d : CellPtr)
    (hcalls : Game.Untested (pt.game.noteCollide cell d) pt'.game)
    (hbehind : ∀ a b, pt'.Behind i a b →
      (a = cell ∧ b = d) ∧ (pt.game.heap cell).collide (pt.game.heap d) ≠ .bigger ∨
      ¬ (a = cell ∧ b = d) ∧ pt.Behind i a b) : ∃ cs', Logged i start pt' cs' := by
  obtain ⟨l, hl, haside⟩ := hcalls
  let test : Call ℝ := .collide cell d (pt.game.heap cell).radius (pt.game.heap d).radius
    ((pt.game.heap cell).collide (pt.game.heap d))
  have hread : ∀ a b, Trace.latest (Call.tests a b) (test :: l) =
      if cell = a ∧ d = b then some ((pt.game.heap cell).collide (pt.game.heap d)) else none :=
    fun a b => Trace.latest_cons_of_none fun c hc => (haside c hc).tests a b
  refine ⟨cs ++ test :: l, ?_, fun count hcount => ?_, fun a b hab => ?_⟩
  · rw [hl]
    show (pt.game.calls ++ [test]) ++ l = _
    rw [h.calls, List.append_assoc, List.append_assoc, List.singleton_append]
  · rcases List.mem_append.mp hcount with hcount | hcount
    · exact h.slots count hcount
    rcases List.mem_cons.mp hcount with hcount | hcount
    · exact absurd hcount (by simp [test])
    · exact haside _ hcount
  · rw [Trace.latest_append, hread]
    rcases hbehind a b hab with ⟨⟨rfl, rfl⟩, hbig⟩ | ⟨hother, hold⟩
    · rw [if_pos ⟨rfl, rfl⟩]
      exact ⟨_, rfl, hbig⟩
    · rw [if_neg fun hsame => hother ⟨hsame.1.symm, hsame.2.symm⟩, Option.none_or]
      exact h.settled a b hold

theorem Logged.next (h : Logged i start pt cs) (hst : Standing i pt) (hr : Round i pt pt') :
    ∃ cs', Logged i start pt' cs' := by
  cases hr with
  | enter g cell myLoop hcell =>
    refine ⟨cs, h.calls, h.slots, fun a b hab => h.settled a b ?_⟩
    rcases hab with hab | ⟨-, hb⟩
    · exact hab
    · rw [List.take_zero] at hb
      cases hb
  | leave g cell myLoop loop hend =>
    refine ⟨cs, h.calls, h.slots, fun a b hab => h.settled a b ?_⟩
    obtain ⟨ha, hb⟩ := hab
    rw [List.take_add_one, hst.inRange.1] at ha
    rcases List.mem_append.mp ha with ha | ha
    · exact Or.inl ⟨ha, hb⟩
    · refine Or.inr ⟨List.mem_singleton.mp ha, ?_⟩
      rw [List.take_of_length_le hend]
      exact hb
  | pop g cell d myLoop loop hd hbig hvirus hroom =>
    have hpops := hst.pops d
    have hfirst : Game.Untested (g.noteCollide cell d)
        ((g.noteCollide cell d).eatDynamic cell d loop) :=
      (Trace.Extends.refl Call.Aside _).snoc (a := Call.addSize _ _ _) trivial
    refine h.test cell d (hfirst.trans hpops.calls) fun a b hab => Or.inr ?_
    obtain ⟨ha, hb⟩ := hab
    rw [hpops.dynamic] at hb
    obtain ⟨hmem, hne⟩ := (Game.mem_eraseIdx_of_nodup hst.distinct hd b).mp hb
    -- the pieces are behind the cells that were there
    obtain ⟨pieces, hpieces⟩ := hpops.cells
    have hcells : ((g.noteCollide cell d).eatDynamic cell d loop).cellsOf i = g.cellsOf i := rfl
    rw [← hpieces, hcells, List.take_append_of_le_length (Game.getElem?_lt hst.inRange.1).le] at ha
    exact ⟨fun hsame => hne hsame.2, Or.inl ⟨ha, hmem⟩⟩
  | eat g cell d myLoop loop hd hbig hwhole =>
    refine h.test cell d
      ((Trace.Extends.refl Call.Aside _).snoc (a := Call.addSize _ _ _) trivial)
      fun a b hab => Or.inr ?_
    rcases hab with ⟨ha, hb⟩ | ⟨ha, hb⟩
    · obtain ⟨hmem, hne⟩ := (Game.mem_eraseIdx_of_nodup hst.distinct hd b).mp hb
      exact ⟨fun hsame => hne hsame.2, Or.inl ⟨ha, hmem⟩⟩
    · have hb' : b ∈ (g.dynamicMap.eraseIdx loop).take loop := hb
      obtain ⟨-, hne⟩ := (Game.mem_eraseIdx_of_nodup hst.distinct hd b).mp (List.mem_of_mem_take hb')
      rw [List.take_eraseIdx_eq_take_of_le _ _ _ le_rfl] at hb'
      exact ⟨fun hsame => hne hsame.2, Or.inr ⟨ha, hb'⟩⟩
  | absorb g cell d myLoop loop hd hsmall hother =>
    refine h.test cell d
      ((Trace.Extends.refl Call.Aside _).snoc (a := Call.addSize _ _ _) trivial) fun a b hab => ?_
    by_cases hsame : a = cell ∧ b = d
    · refine Or.inl ⟨hsame, ?_⟩
      rw [game_inner, hsmall]
      decide
    · obtain ⟨ha, hb⟩ := hab
      have hcells : ((g.noteCollide cell d).absorbDynamic i cell d myLoop).cellsOf i =
          (g.cellsOf i).eraseIdx myLoop := Game.cellsOf_setCells_self _ _ _ hst.index
      rw [hcells, List.take_eraseIdx_eq_take_of_le _ _ _ le_rfl] at ha
      exact Or.inr ⟨hsame, Or.inl ⟨ha, hb⟩⟩
  | pass g cell d myLoop loop hd hbig hsmall =>
    refine h.test cell d (.refl _ _) fun a b hab => ?_
    by_cases hsame : a = cell ∧ b = d
    · exact Or.inl ⟨hsame, hbig⟩
    · refine Or.inr ⟨hsame, ?_⟩
      rcases hab with hab | ⟨ha, hb⟩
      · exact Or.inl hab
      · have hb' : b ∈ g.dynamicMap.take (loop + 1) := hb
        rw [List.take_add_one, hd] at hb'
        rcases List.mem_append.mp hb' with hb' | hb'
        · exact Or.inr ⟨ha, hb'⟩
        · exact absurd ⟨ha, List.mem_singleton.mp hb'⟩ hsame

/-- In the next round the cell eats the dynamic cell. -/
def Eats (pt : DynamicPoint ℝ) (cell d : CellPtr) : Prop :=
  ∃ g myLoop loop, pt = .inner g cell myLoop loop ∧ g.dynamicMap[loop]? = some d ∧
    (g.heap cell).collide (g.heap d) = .bigger

theorem Round.shrinks (hr : Round i pt pt') (hst : Standing i pt) :
    pt'.game.dynamicMap ⊆ pt.game.dynamicMap := by
  cases hr with
  | pop g cell d myLoop loop hd hbig hvirus hroom =>
    rw [game_outer, (hst.pops d).dynamic]
    exact (List.eraseIdx_sublist _ _).subset
  | eat g cell d myLoop loop hd hbig hwhole => exact (List.eraseIdx_sublist _ _).subset
  | _ => exact List.Subset.refl _

theorem Eats.gone {cell d : CellPtr} (h : pt.Eats cell d) (hr : Round i pt pt')
    (hst : Standing i pt) : d ∉ pt'.game.dynamicMap := by
  obtain ⟨g, myLoop, loop, rfl, hd, hbig⟩ := h
  have herased : d ∉ g.dynamicMap.eraseIdx loop := fun hmem =>
    ((Game.mem_eraseIdx_of_nodup hst.distinct hd d).mp hmem).2 rfl
  cases hr with
  | leave _ _ _ _ hend => exact absurd (Game.getElem?_lt hd) (not_lt.mpr hend)
  | pop _ _ d' _ _ hd' _ _ _ =>
    obtain rfl := Option.some.inj (hd.symm.trans hd')
    rw [game_outer, (hst.pops d).dynamic]
    exact herased
  | eat _ _ d' _ _ hd' _ _ =>
    obtain rfl := Option.some.inj (hd.symm.trans hd')
    exact herased
  | absorb _ _ d' _ _ hd' hsmall _ =>
    obtain rfl := Option.some.inj (hd.symm.trans hd')
    rw [hbig] at hsmall
    cases hsmall
  | pass _ _ d' _ _ hd' hnot _ =>
    obtain rfl := Option.some.inj (hd.symm.trans hd')
    exact absurd hbig hnot

theorem Round.eats (hr : Round i pt pt') (hst : Standing i pt) {d : CellPtr}
    (hd : d ∈ pt.game.dynamicMap) (hgone : d ∉ pt'.game.dynamicMap) : ∃ cell, pt.Eats cell d := by
  have herased : ∀ {g : Game ℝ} {d' : CellPtr} {loop : ℕ}, g.dynamicMap.Nodup →
      g.dynamicMap[loop]? = some d' → d ∈ g.dynamicMap → d ∉ g.dynamicMap.eraseIdx loop →
      d = d' := fun hnodup hd' hmem hnot => by
    by_contra hne
    exact hnot ((Game.mem_eraseIdx_of_nodup hnodup hd' d).mpr ⟨hmem, hne⟩)
  cases hr with
  | pop g cell d' myLoop loop hd' hbig hvirus hroom =>
    rw [game_outer, (hst.pops d').dynamic] at hgone
    obtain rfl := herased hst.distinct hd' hd hgone
    exact ⟨cell, g, myLoop, loop, rfl, hd', hbig⟩
  | eat g cell d' myLoop loop hd' hbig hwhole =>
    obtain rfl := herased hst.distinct hd' hd hgone
    exact ⟨cell, g, myLoop, loop, rfl, hd', hbig⟩
  | _ => exact absurd hd hgone

end DynamicPoint

/-- A player with at most 16 cells before its `CollideDynamic`. -/
structure Hunt where
  game : Game ℝ
  index : ℕ
  present : index < game.players.length
  few : (game.cellsOf index).length ≤ 16
  allocated : ∀ c ∈ game.cellsOf index, c < game.allocated
  distinct : game.dynamicMap.Nodup

namespace Hunt
variable (h : Hunt)

/-- What the pass leaves. -/
noncomputable def after : Game ℝ := h.game.collideDynamic h.index

/-- The pass comes to the point. -/
def Visits (pt : DynamicPoint ℝ) : Prop := DynamicPoint.Leads h.index (.outer h.game 0) pt

/-- The calls of the pass. -/
noncomputable def calls : List (Call ℝ) := h.after.calls.drop h.game.calls.length

/-- The result of the last test of the pass between the two cells, none if there was none. -/
noncomputable def lastTest (cell d : CellPtr) : Option Collision :=
  Trace.latest (Call.tests cell d) h.calls

/-- The pass ends and is exhaustive. -/
structure Exhausts : Prop where
  ends : ∃ n, h.Visits (.outer h.after n) ∧ (DynamicPoint.outer h.after n).next h.index = none
  inRange : ∀ pt, h.Visits pt → pt.InRange h.index
  slots : ∀ count, .slots count ∈ h.calls → count ≤ 16
  own : ∀ pt cell d, h.Visits pt → pt.Eats cell d → cell ∈ pt.game.cellsOf h.index
  once : ∀ d ∈ h.game.dynamicMap, d ∉ h.after.dynamicMap →
    ∃! e : DynamicPoint ℝ × CellPtr, h.Visits e.1 ∧ e.1.Eats e.2 d
  settled : ∀ cell ∈ h.after.cellsOf h.index, ∀ d ∈ h.after.dynamicMap,
    ∃ r, h.lastTest cell d = some r ∧ r ≠ .bigger

variable {h}

theorem Visits.standing {pt : DynamicPoint ℝ} (hv : h.Visits pt) :
    DynamicPoint.Standing h.index pt := by
  induction hv with
  | refl => exact ⟨h.present, h.few, h.allocated, h.distinct, Nat.zero_le _⟩
  | tail _ hn ih => exact ih.next (DynamicPoint.round_of_next hn)

theorem Visits.logged {pt : DynamicPoint ℝ} (hv : h.Visits pt) :
    ∃ cs, DynamicPoint.Logged h.index h.game pt cs := by
  induction hv with
  | refl =>
    refine ⟨[], (List.append_nil _).symm, fun _ hc => (by cases hc), fun a b hab => ?_⟩
    have ha : a ∈ (h.game.cellsOf h.index).take 0 := hab.1
    rw [List.take_zero] at ha
    cases ha
  | tail hv hn ih =>
    obtain ⟨cs, hlogged⟩ := ih
    exact hlogged.next (Visits.standing hv) (DynamicPoint.round_of_next hn)

theorem Visits.shrinks {pt pt' : DynamicPoint ℝ} (hv : h.Visits pt)
    (hl : DynamicPoint.Leads h.index pt pt') : pt'.game.dynamicMap ⊆ pt.game.dynamicMap := by
  induction hl with
  | refl => exact List.Subset.refl _
  | tail hl hn ih =>
    have hv' : h.Visits _ := Relation.ReflTransGen.trans hv hl
    exact List.Subset.trans ((DynamicPoint.round_of_next hn).shrinks hv'.standing) ih

theorem Visits.eaten {pt : DynamicPoint ℝ} (hv : h.Visits pt) {d : CellPtr}
    (hd : d ∈ h.game.dynamicMap) (hgone : d ∉ pt.game.dynamicMap) :
    ∃ pt' cell, h.Visits pt' ∧ pt'.Eats cell d := by
  induction hv with
  | refl => exact absurd hd hgone
  | @tail mid _ hv hn ih =>
    by_cases hmem : d ∈ mid.game.dynamicMap
    · obtain ⟨cell, heats⟩ :=
        (DynamicPoint.round_of_next hn).eats (Visits.standing hv) hmem hgone
      exact ⟨mid, cell, hv, heats⟩
    · exact ih hmem

theorem eats_mem {pt : DynamicPoint ℝ} {cell d : CellPtr} (he : pt.Eats cell d) :
    d ∈ pt.game.dynamicMap := by
  obtain ⟨g, myLoop, loop, rfl, hd, -⟩ := he
  exact List.mem_of_getElem? hd

theorem Visits.once {pt pt' : DynamicPoint ℝ} (hv : h.Visits pt)
    (hl : DynamicPoint.Leads h.index pt pt') {cell cell' d : CellPtr} (he : pt.Eats cell d)
    (he' : pt'.Eats cell' d) : pt' = pt := by
  rcases hl.cases_head with heq | ⟨mid, hn, hrest⟩
  · exact heq.symm
  · have hgone := he.gone (DynamicPoint.round_of_next hn) hv.standing
    have hmid : h.Visits mid := Relation.ReflTransGen.tail hv hn
    exact absurd (hmid.shrinks hrest (eats_mem he')) hgone

theorem eats_unique {pt pt' : DynamicPoint ℝ} {cell cell' d : CellPtr} (hv : h.Visits pt)
    (hv' : h.Visits pt') (he : pt.Eats cell d) (he' : pt'.Eats cell' d) :
    pt' = pt ∧ cell' = cell := by
  have hsame : pt' = pt := by
    rcases hv.total_of_right_unique (fun _ _ _ hb hc => Option.some.inj (hb.symm.trans hc)) hv'
      with hl | hl
    · exact hv.once hl he he'
    · exact (Visits.once hv' hl he' he).symm
  refine ⟨hsame, ?_⟩
  obtain ⟨g, myLoop, loop, rfl, -, -⟩ := he
  obtain ⟨g', myLoop', loop', hpt, -, -⟩ := he'
  rw [hsame] at hpt
  cases hpt
  rfl

/-- Every pass of `CollideDynamic` over at most 16 cells ends within both vectors, has every cell it
removes eaten once by a cell that is in `Cells`, and leaves no pair untested. -/
theorem exhausts (h : Hunt) : h.Exhausts := by
  obtain ⟨n, hend, hnone⟩ := DynamicPoint.outer_leads h.game h.index 0
  have hv : h.Visits (.outer h.after n) := hend
  obtain ⟨cs, hlogged⟩ := hv.logged
  have hcalls : h.calls = cs := by
    have hall : h.after.calls = h.game.calls ++ cs := hlogged.calls
    unfold calls
    rw [hall, List.drop_left]
  have hlen : (h.after.cellsOf h.index).length ≤ n := by
    rcases hcell : (h.after.cellsOf h.index)[n]? with - | cell
    · exact List.getElem?_eq_none_iff.mp hcell
    · have hnone' : (DynamicPoint.outer h.after n).next h.index = none := hnone
      simp [DynamicPoint.next, hcell] at hnone'
  constructor
  · exact ⟨n, hv, hnone⟩
  · exact fun pt hpt => (Visits.standing hpt).inRange
  · rw [hcalls]
    exact hlogged.slots
  · rintro pt cell d hpt ⟨g, myLoop, loop, rfl, -, -⟩
    exact List.mem_of_getElem? (Visits.standing hpt).inRange.1
  · intro d hd hgone
    obtain ⟨pt, cell, hpt, heats⟩ := hv.eaten hd hgone
    refine ⟨(pt, cell), ⟨hpt, heats⟩, fun e he => ?_⟩
    obtain ⟨h₁, h₂⟩ := eats_unique hpt he.1 heats he.2
    exact Prod.ext h₁ h₂
  · intro cell hcell d hd
    unfold lastTest
    rw [hcalls]
    refine hlogged.settled cell d ⟨?_, hd⟩
    rw [List.take_of_length_le hlen]
    exact hcell

end Hunt

/-- A cell of radius 1000 over a virus. -/
noncomputable def virusHunt : Hunt where
  game := overVirus ℝ
  index := 0
  present := Nat.zero_lt_one
  few := by
    show 1 ≤ 16
    decide
  allocated := fun c hc => by
    rw [List.mem_singleton.mp hc]
    exact Nat.zero_lt_two
  distinct := List.nodup_singleton _

theorem virus_hunted : virusHunt.Exhausts := virusHunt.exhausts

end Agar
