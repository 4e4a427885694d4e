import Agar.Lasting
import Agar.Feeding

/-! The mass of the cells: every cell keeps a positive radius until a pop spends all of a cell on its
small balls. -/

namespace Agar

namespace Game
variable {g g' : Game ℝ}

/-- Every cell in a container has a positive radius, and so has every number the code relied on. -/
def Massive (g : Game ℝ) : Prop :=
  (∀ p, g.Alive p → 0 < (g.heap p).radius) ∧ ∀ c ∈ g.calls, c.Sound

/-- A pop that leaves nothing shows in the calls, and without one all is positive. -/
structure Weighed (g : Game ℝ) : Prop where
  spent : (∃ c ∈ g.calls, c.Empties) → ∃ c ∈ g.calls, ¬ c.Sound
  positive : (∀ c ∈ g.calls, ¬ c.Empties) → g.Positive
  sound : (∀ c ∈ g.calls, ¬ c.Empties) → ∀ c ∈ g.calls, c.Sound

theorem Weighed.call {c : Call ℝ} (h : Weighed g) (hsound : g.Positive → c.Sound)
    (hleft : ¬ c.Empties) (hcalls : g'.calls = g.calls ++ [c])
    (hpositive : g.Positive → g'.Positive) : Weighed g' := by
  have hbefore : (∀ d ∈ g'.calls, ¬ d.Empties) → ∀ d ∈ g.calls, ¬ d.Empties := fun hall d hd =>
    hall d (hcalls ▸ List.mem_append_left _ hd)
  refine ⟨?_, fun hall => hpositive (h.positive (hbefore hall)), fun hall d hd => ?_⟩
  · rintro ⟨d, hd, hempties⟩
    rw [hcalls] at hd
    rcases List.mem_append.mp hd with hd | hd
    · obtain ⟨e, he, hnot⟩ := h.spent ⟨d, hd, hempties⟩
      exact ⟨e, hcalls ▸ List.mem_append_left _ he, hnot⟩
    · rw [List.mem_singleton.mp hd] at hempties
      exact absurd hempties hleft
  · rw [hcalls] at hd
    rcases List.mem_append.mp hd with hd | hd
    · exact h.sound (hbefore hall) d hd
    · rw [List.mem_singleton.mp hd]
      exact hsound (h.positive (hbefore hall))

theorem Weighed.still (h : Weighed g) (hcalls : g'.calls = g.calls)
    (hpositive : g.Positive → g'.Positive) : Weighed g' := by
  constructor
  · rw [hcalls]
    exact h.spent
  · rw [hcalls]
    exact fun hall => hpositive (h.positive hall)
  · rw [hcalls]
    exact h.sound

theorem positive_spawn {i : ℕ} {c : Cell ℝ} (h : g.Positive) (hc : 0 < c.radius) :
    (g.spawn i c).Positive := by
  intro p hp
  rw [spawn_heap]
  split_ifs with hq
  · exact hc
  · exact h p (lt_of_le_of_ne (Nat.lt_succ_iff.mp hp) hq)

theorem positive_eject {c : Cell ℝ} (h : g.Positive) (hc : 0 < c.radius) : (g.eject c).Positive := by
  intro p hp
  rw [eject_heap]
  split_ifs with hq
  · exact hc
  · exact h p (lt_of_le_of_ne (Nat.lt_succ_iff.mp hp) hq)

theorem positive_setCell {p : CellPtr} {c : Cell ℝ} (h : g.Positive) (hc : 0 < c.radius) :
    (g.setCell p c).Positive := by
  intro q hq
  rw [setCell_heap]
  split_ifs
  · exact hc
  · exact h q hq

theorem Effect.weighed (h : Effect g g') (hg : Weighed g) : Weighed g' := by
  cases h with
  | note c hsound hcap hstay hleft => exact hg.call hsound hleft rfl id
  | draw => exact hg.still rfl id
  | change p c howned hid hcolor hflag hradius hpos hpositive =>
    exact hg.still rfl fun h => positive_setCell h (hpositive h)
  | spawn i c hi hcap hid hflag hradius hpositive =>
    refine hg.call (c := .pushed ((g.spawn i c).cellsOf i).length) (fun _ => trivial) id rfl ?_
    exact fun h => positive_spawn h (hpositive h)
  | eject c hid hflag hradius => exact hg.still rfl fun h => positive_eject h hradius
  | killStatic b loop p h => exact hg.still rfl id
  | killDynamic loop p h => exact hg.still rfl id
  | kill i loop p h => exact hg.still rfl id
  | stray i myLoop p slot hp hslot =>
    obtain ⟨h1, h2, -, -, -, h6, -⟩ :=
      eraseCellAt_frame ((g.note (.absorb p slot)).pushRemoveDynamic p) i myLoop
    refine hg.call (c := .absorb p slot) (fun _ => trivial) id (by rw [h6]; rfl) fun h => ?_
    unfold Positive
    rw [h1, h2]
    exact h
  | pour p size count slots s howned hempties hcap hsum =>
    -- the emptying pop and the size it takes away are in the calls together
    have hpop : Call.pop p size count ∈
        (((g.note (.pop p size count)).note (.slots slots)).addSize p s).calls := by
      simp [addSize]
    have hadd : Call.addSize p (g.heap p).size s ∈
        (((g.note (.pop p size count)).note (.slots slots)).addSize p s).calls := by
      simp [addSize]
    refine ⟨fun _ => ⟨_, hadd, not_lt.mpr hsum⟩, fun hall => ?_, fun hall => ?_⟩
    · exact absurd hempties (hall _ hpop)
    · exact absurd hempties (hall _ hpop)

theorem Leads.weighed (h : Leads g g') (hw : WellFormed g) (hg : Weighed g) : Weighed g' := by
  have hrun : ∀ g'', Relation.ReflTransGen Effect g g'' → Weighed g'' := by
    intro g'' h
    induction h with
    | refl => exact hg
    | tail _ he ih => exact he.weighed ih
  exact hrun g' (h hw)

/-- No cell changes its size, and the calls are updates of cells. -/
structure Rests (g g' : Game ℝ) : Prop where
  allocated : g'.allocated = g.allocated
  radius : ∀ p, (g'.heap p).radius = (g.heap p).radius
  calls : ∃ cs, g'.calls = g.calls ++ cs ∧
    ∀ c ∈ cs, ∃ p < g.allocated, c = .update p (g.heap p).radius

theorem Rests.of_heap (hallocated : g'.allocated = g.allocated) (hheap : g'.heap = g.heap)
    (hcalls : g'.calls = g.calls) : Rests g g' :=
  ⟨hallocated, fun _ => by rw [hheap], [], by rw [hcalls, List.append_nil], fun _ hc => by cases hc⟩

theorem Rests.trans {g g' g'' : Game ℝ} (h : Rests g g') (h' : Rests g' g'') : Rests g g'' where
  allocated := h'.allocated.trans h.allocated
  radius := fun p => (h'.radius p).trans (h.radius p)
  calls := by
    obtain ⟨cs, hcalls, hcs⟩ := h.calls
    obtain ⟨cs', hcalls', hcs'⟩ := h'.calls
    refine ⟨cs ++ cs', by rw [hcalls', hcalls, List.append_assoc], fun c hc => ?_⟩
    rcases List.mem_append.mp hc with hc | hc
    · exact hcs c hc
    · obtain ⟨p, hp, hcp⟩ := hcs' c hc
      exact ⟨p, h.allocated ▸ hp, by rw [hcp, h.radius p]⟩

theorem Motion.rests {moved : List CellPtr} (h : Motion moved g g')
    (hmoved : ∀ p ∈ moved, p < g.allocated) : Rests g g' := by
  refine ⟨h.allocated, fun p => (h.identity p).2.2.2, ?_⟩
  obtain ⟨cs, hcalls, hcs⟩ := h.calls
  refine ⟨cs, hcalls, fun c hc => ?_⟩
  obtain ⟨p, hp, hcp⟩ := hcs c hc
  exact ⟨p, hmoved p hp, hcp⟩

theorem Rests.weighed (h : Rests g g') (hg : Weighed g) : Weighed g' := by
  obtain ⟨cs, hcalls, hcs⟩ := h.calls
  have hpositive : g.Positive → g'.Positive := fun hp p hlt => by
    rw [h.radius]
    exact hp p (h.allocated ▸ hlt)
  have hbefore : (∀ d ∈ g'.calls, ¬ d.Empties) → ∀ d ∈ g.calls, ¬ d.Empties := fun hall d hd =>
    hall d (hcalls ▸ List.mem_append_left _ hd)
  refine ⟨?_, fun hall => hpositive (hg.positive (hbefore hall)), fun hall d hd => ?_⟩
  · rintro ⟨d, hd, hempties⟩
    rw [hcalls] at hd
    rcases List.mem_append.mp hd with hd | hd
    · obtain ⟨e, he, hnot⟩ := hg.spent ⟨d, hd, hempties⟩
      exact ⟨e, hcalls ▸ List.mem_append_left _ he, hnot⟩
    · obtain ⟨p, -, rfl⟩ := hcs d hd
      exact absurd hempties id
  · rw [hcalls] at hd
    rcases List.mem_append.mp hd with hd | hd
    · exact hg.sound (hbefore hall) d hd
    · obtain ⟨p, hp, rfl⟩ := hcs d hd
      exact hg.positive (hbefore hall) p hp

theorem Weighed.of_heap (hg : Weighed g) (hallocated : g'.allocated = g.allocated)
    (hheap : g'.heap = g.heap) (hcalls : g'.calls = g.calls) : Weighed g' :=
  (Rests.of_heap hallocated hheap hcalls).weighed hg

theorem modifyPlayer_rests (g : Game ℝ) (i : ℕ) (f : Player ℝ → Player ℝ) :
    Rests g (g.modifyPlayer i f) := Rests.of_heap rfl rfl rfl

theorem splitCommand_weighed (hw : WellFormed g) (hg : Weighed g) (i : ℕ) (p : Player ℝ) :
    Weighed (g.splitCommand i p) := by
  unfold splitCommand
  split_ifs with hs
  · refine (splitCells_leads _ i).weighed ?_ ((modifyPlayer_rests g i _).weighed hg)
    exact hw.modifyPlayer i (fun p => { p with doSplit := false }) fun _ => rfl
  · exact hg

theorem feedCommand_weighed (hw : WellFormed g) (hg : Weighed g) (i : ℕ) (p : Player ℝ) :
    Weighed (g.feedCommand i p) := by
  unfold feedCommand
  split_ifs with hs
  · refine (feedCells_leads _ i).weighed ?_ ((modifyPlayer_rests g i _).weighed hg)
    exact hw.modifyPlayer i (fun p => { p with doFeed := false }) fun _ => rfl
  · exact hg

theorem join_weighed {s : Sys ℝ} (hg : Weighed s.game) (w : Wsi) (grown : ℕ) :
    Weighed (s.join w grown).game := by
  obtain ⟨hrest, hheap, -, -, hradius⟩ := newPlayer_spec s.game w
  refine hg.still rfl fun h p hp => ?_
  show 0 < ((s.game.newPlayer w).2.heap p).radius
  by_cases hq : p = s.game.allocated
  · rw [hq, hradius]
    norm_num
  · rw [hheap p hq]
    exact h p (lt_of_le_of_ne (Nat.lt_succ_iff.mp hp) hq)

theorem receiveAt_rests (g : Game ℝ) (w : Wsi) (packet : List Byte) (beyond : ℕ → Byte) (i : ℕ) :
    Rests g (receiveAt w packet beyond g i) := by
  have hmouse : ∀ (g : Game ℝ) (cells : List CellPtr) m, Rests g (g.mouse cells m) := by
    intro g cells m
    unfold mouse
    induction cells generalizing g with
    | nil => exact Rests.of_heap rfl rfl rfl
    | cons c cells ih =>
      have hstep : Rests g (g.setCell c { g.heap c with
          mouseVector := m - (g.heap c).position }) := by
        refine ⟨rfl, fun p => ?_, [], (List.append_nil _).symm, fun _ hc => by cases hc⟩
        rw [setCell_heap]
        split_ifs with hp
        · rw [hp]
        · rfl
      rw [List.foldl_cons]
      exact hstep.trans (ih _)
  unfold receiveAt
  rcases g.players[i]? with - | p
  · exact Rests.of_heap rfl rfl rfl
  · dsimp only
    split_ifs
    · unfold receivePlayer
      dsimp only
      split_ifs
      · exact (modifyPlayer_rests g i _).trans (hmouse _ _ _)
      all_goals exact Rests.of_heap rfl rfl rfl
    · exact Rests.of_heap rfl rfl rfl

theorem receiveAll_rests (g : Game ℝ) (w : Wsi) (packet : List Byte) (beyond : ℕ → Byte) :
    Rests g (g.receiveAll w packet beyond) := by
  unfold receiveAll
  induction List.range g.players.length generalizing g with
  | nil => exact Rests.of_heap rfl rfl rfl
  | cons i is ih => exact (receiveAt_rests g w packet beyond i).trans (ih _)

end Game

open Game

theorem Move.weighed {a b : Stage} {s s' : Sys ℝ} (h : Move (a, s) (b, s')) (hi : Invariant a s)
    (hg : Weighed s.game) : Weighed s'.game := by
  have hw := hi.wellFormed
  cases h with
  | begin _ clock =>
    have hmotion := updateDynamic_motion (s.game.beginTick clock) (clock - s.game.currentTime)
    refine (hmotion.rests fun p hp => (hw.dynamic p hp).2.1).weighed ?_
    exact hg.of_heap rfl rfl rfl
  | kick _ x hx => exact hg.of_heap rfl rfl rfl
  | collide _ => exact (collisionPhase_leads s.game).weighed hw hg
  | drive _ dt =>
    refine ((drive_motion s.game dt).rests fun p hp => ?_).weighed hg
    obtain ⟨i, hp⟩ := mem_playerCells.mp hp
    exact (hw.owned i p hp).1
  | update _ n p hp =>
    have hcommands : Weighed (s.game.commands n p) :=
      feedCommand_weighed (splitCommand_spec hw hp).1 (splitCommand_weighed hw hg n p) n p
    unfold Sys.updateAt
    rw [hp]
    exact hcommands.of_heap rfl rfl rfl
  | replay _ n hn =>
    have hrest := (parseEvents_prunes hi.additions).rest
    refine hg.of_heap ?_ ?_ ?_
    · show s.game.parseEvents.allocated = _
      rw [hrest]
    · show s.game.parseEvents.heap = _
      rw [hrest]
    · show s.game.parseEvents.calls = _
      rw [hrest]
  | send _ clock accepts i =>
    rcases Sys.sendAt_cases s clock accepts i with h | ⟨p, hp, -, -, h⟩
    · rw [h]
      exact hg
    · rw [h]
      exact hg.of_heap rfl rfl rfl
  | join _ w grown hw' => exact join_weighed hg w grown
  | receive _ w packet beyond =>
    unfold Sys.receive
    dsimp only
    split_ifs with hlen
    · exact hg
    · exact (receiveAll_rests s.game w packet beyond).weighed hg
  | close _ x hx => exact hg.of_heap rfl rfl rfl

theorem init_weighed (rand : ℕ → Fin (randMax + 1)) (stale : CellPtr → ℝ) :
    Weighed (Sys.init rand stale).game := by
  have h := mapInit_started rand stale
  have hcalls : (Sys.init rand stale).game.calls = [] := h.calls
  refine ⟨?_, fun _ => h.positive, fun _ c hc => ?_⟩
  · rintro ⟨c, hc, -⟩
    rw [hcalls] at hc
    cases hc
  · rw [hcalls] at hc
    cases hc

theorem Run.weighed (r : Run ℝ) : Weighed r.final.game :=
  Run.induction (P := fun _ s => Weighed s.game) init_weighed
    (fun _ _ _ _ hi hm hs => hm.weighed hi hs) r

/-- At the end of every run all radii are positive and so have been all the numbers the code relied
on, if and only if no pop has spent all of its cell on small balls. -/
theorem positive_mass (r : Run ℝ) :
    r.final.game.Massive ↔ ∀ c ∈ r.final.game.calls, ¬ c.Empties := by
  have hg := r.weighed
  have hw := r.invariant.wellFormed
  constructor
  · rintro ⟨-, hsound⟩ c hc hempties
    obtain ⟨d, hd, hnot⟩ := hg.spent ⟨c, hc, hempties⟩
    exact hnot (hsound d hd)
  · intro hall
    exact ⟨fun p hp => hg.positive hall p (hw.alive_lt hp), hg.sound hall⟩

theorem Game.popVirus_calls (g : Game ℝ) (i : ℕ) (cell d : CellPtr) :
    .pop cell (g.heap cell).size (g.cellsOf i).length ∈ (g.popVirus i cell d).calls := by
  have hloop : ∀ (n : ℕ) (g : Game ℝ) sizeSmall sumR,
      g.calls <+: (g.smallBallsLoop i cell d sizeSmall sumR n).calls := by
    intro n
    induction n with
    | zero => exact fun g _ _ => List.prefix_rfl
    | succ n ih =>
      intro g sizeSmall sumR
      have hball : g.calls <+: (g.smallBall i cell d sizeSmall sumR).calls :=
        List.prefix_append _ _
      exact hball.trans (ih _ sizeSmall sumR)
  have hballs : ∀ g : Game ℝ, g.calls <+: (g.smallBalls i cell d).calls := by
    intro g
    unfold smallBalls
    dsimp only
    split_ifs
    · refine List.IsPrefix.trans ?_ (hloop _ _ _ _)
      exact (List.prefix_append _ _).trans (List.prefix_append _ _)
    · exact List.prefix_append _ _
  exact (hballs _).subset (List.mem_append_right _ (List.mem_singleton_self _))

theorem popEmpties_small : popEmpties (400 : ℝ) 1 := by
  have hhalves : popHalves (400 : ℝ) 1 4 = 0 := if_neg fun h => absurd h.1 (by norm_num)
  have hrest : popRest (400 : ℝ) 1 = 400 := if_pos hhalves
  have hballs : popBalls (400 : ℝ) 1 = 15 := by
    unfold popBalls
    rw [hhalves, hrest]
    exact smallBallCount_fifteen
  unfold popEmpties
  rw [hballs, hrest]
  exact ⟨Nat.succ_ne_zero 14, by norm_num [playerMinSize, getSize, playerMinRadius]⟩

theorem Game.Poised.spends {g : Game ℝ} {p : Player ℝ} (h : g.Poised p) (hw : g.WellFormed) :
    ∃ c ∈ g.collisionPhase.calls, c.Empties := by
  have hbefore : (g.beforeDynamic 0).Poised p :=
    h.same h.static_quiet.told.same (h.static_quiet.players.trans h.players) rfl
  obtain ⟨hfirst, hbig, hvirus, hcells, hsize⟩ := hbefore.eats
  have hone : 0 < g.players.length := by
    rw [h.players]
    exact Nat.one_pos
  let eaten := ((g.beforeDynamic 0).noteCollide Sys.firstCell maxFood).eatDynamic Sys.firstCell
    maxFood 0
  have hcells' : eaten.cellsOf 0 = [Sys.firstCell] := hcells
  have hsize' : (eaten.heap Sys.firstCell).size = 400 := by
    rw [← hsize]
    simp [eaten, eatDynamic, eraseDynamic, pushRemoveDynamic, addSize, setCell, noteCollide, note]
  have hpopped : DynamicPoint.Leads 0 (.outer (g.beforeDynamic 0) 0)
      (.outer (eaten.popVirus 0 Sys.firstCell maxFood) 0) := by
    refine .tail (.single (b := .inner (g.beforeDynamic 0) Sys.firstCell 0 0) ?_) ?_
    · simp [DynamicPoint.next, hcells]
    · have hroom : (eaten.cellsOf 0).length < 16 := by
        rw [hcells']
        decide
      simp only [DynamicPoint.next, hfirst]
      rw [if_pos hbig, if_pos ⟨hvirus, hroom⟩]
  obtain ⟨n, honward⟩ := DynamicPoint.onward hpopped
  have hsteady := ((beforeDynamic_steady hw hone).leads hpopped).1
  have hpass := (hsteady.leads honward).2
  have hself := ((collideSelf_leads _ 0).frame (hsteady.leads honward).1.wellFormed).calls
  have hpop := eaten.popVirus_calls 0 Sys.firstCell maxFood
  rw [hsize', hcells', List.length_singleton] at hpop
  exact ⟨_, ((hpass.trans hself).trans (collideOwn_calls hw hone)).subset hpop, popEmpties_small⟩

/-- The player that has fed is left with a cell without mass. -/
theorem mass_spent : ¬ feeding.final.game.Massive := by
  obtain ⟨g, p, hpoised, hcollided⟩ := feeding_pounces
  obtain ⟨hw, -, hcalls⟩ := feeding.collided hcollided
  obtain ⟨c, hc, hempties⟩ := hpoised.spends hw
  obtain ⟨d, hd, hnot⟩ := feeding.weighed.spent ⟨c, hcalls.subset hc, hempties⟩
  exact fun h => hnot (h.2 d hd)

end Agar
