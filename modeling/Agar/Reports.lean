import Agar.Removals
import Agar.Halving
import Agar.Lasting

/-! The removal events of every tick: exact if and only if the stray erase of `CollideSelf` is not
executed, and a player of four equal cells whose first cell is reported twice. -/

namespace Agar
open Trace

/-- The removal events of a collision phase are exact if and only if `CollideSelf` has erased no
other slot than that of the cell it absorbed. -/
def RemovalsExact : Obs ℝ → Prop
  | .collided before after => Game.Exact before after ↔
      ∀ c ∈ after.calls.drop before.calls.length, ¬ c.Strays
  | _ => True

theorem Shift.removalsExact {s s' : Sys ℝ} (h : Shift s s')
    (ht : Always (fun _ => RemovalsExact) s.trace) :
    Always (fun _ => RemovalsExact) s'.trace := by
  cases h with
  | quiet hplayers os htrace hquiet =>
    rw [htrace]
    refine always_append_of_forall ht fun o ho _ => ?_
    rcases hquiet o ho with ⟨g, hw, hevents, rfl⟩ | ⟨g, rfl⟩
    · exact Game.collisionPhase_exact hw hevents
    · trivial
  | erase x hx hplayers htrace =>
    rw [htrace]
    exact always_snoc.mpr ⟨ht, trivial⟩
  | update i p hp hplayers htrace =>
    rw [htrace]
    refine always_append_of_forall ht fun o ho _ => ?_
    rcases List.mem_pair.mp ho with rfl | rfl <;> trivial
  | write i p clock hp hcan hpending hplayers htrace =>
    rw [htrace]
    exact always_snoc.mpr ⟨ht, trivial⟩
  | join p hwsi hsend hmessage hhistory hblocks hsplit hfeed hplayers htrace =>
    rw [htrace]
    exact always_snoc.mpr ⟨ht, trivial⟩
  | receive w packet hplayers os htrace hquiet =>
    rw [htrace]
    refine always_append_of_forall ht fun o ho _ => ?_
    rcases List.mem_cons.mp ho with rfl | ho
    · trivial
    · obtain ⟨v, rfl⟩ := hquiet o ho
      trivial

/-- In every run the removal events of every tick are exact if and only if the stray erase is not
executed in it. -/
theorem removal_events (r : Run ℝ) : Always (fun _ => RemovalsExact) r.final.trace :=
  Run.induction_shift (P := fun s => Always (fun _ => RemovalsExact) s.trace)
    (fun _ _ => always_nil _) (fun _ _ _ _ h hs => h.removalsExact hs) r

namespace Game
variable {g : Game ℝ} {i : ℕ} {cell o : CellPtr}

theorem collideSelfWith_absorbs (loop : ℕ) (ho : (g.cellsOf i)[loop]? = some o)
    (h : g.Absorbs cell o) (myLoop : ℤ) : g.collideSelfWith i cell myLoop loop =
      ((g.noteSelf cell o).absorbOwn i cell o myLoop).collideSelfWith i cell
        (max (-1) (myLoop - 1)) (loop + 1) := by
  rw [collideSelfWith]
  split
  · rename_i hnone
    rw [ho] at hnone
    cases hnone
  · rename_i o' ho'
    obtain rfl : o = o' := Option.some.inj (ho.symm.trans ho')
    dsimp only
    rw [if_pos h.1, if_pos h.2.1, if_neg h.2.2]

theorem absorbs_frame (g : Game ℝ) (i : ℕ) (cell o : CellPtr) (myLoop : ℤ) :
    (∀ q, q ≠ o → ((g.noteSelf cell o).absorbOwn i cell o myLoop).heap q = g.heap q) ∧
    ((g.noteSelf cell o).absorbOwn i cell o myLoop).currentTime = g.currentTime ∧
    ((g.noteSelf cell o).absorbOwn i cell o myLoop).cellEvents.removeDynamic =
      g.cellEvents.removeDynamic ++ [cell] := by
  obtain ⟨hheap, hevents, -⟩ := noteSelf_frame g cell o
  refine ⟨fun q hq => ?_, ?_, ?_⟩
  · rw [absorbOwn_heap, addSize, setCell_heap, if_neg hq, note_heap, hheap]
  · unfold absorbOwn
    rw [(eraseCellAt_frame _ i myLoop).2.2.2.2.2.2]
    exact (noteSelf_quiet g cell o).currentTime
  · unfold absorbOwn
    rw [(eraseCellAt_frame _ i myLoop).2.2.2.2.1]
    show (g.noteSelf cell o).cellEvents.removeDynamic ++ [cell] = _
    rw [hevents]

theorem absorbs_leads {myLoop : ℤ} (hc : g.Owned cell) (ho : g.Owned o)
    (hslot : AtSlot g i cell myLoop) :
    Leads g ((g.noteSelf cell o).absorbOwn i cell o myLoop) := by
  obtain ⟨-, hevents, -⟩ := noteSelf_frame g cell o
  refine (noteSelf_leads hc.1 ho.1).next fun hf => absorbOwn_leads (hc.mono hf) (ho.mono hf) ?_
  unfold AtSlot
  rw [hevents, noteSelf_cellsOf]
  exact hslot

/-- Four cells of one radius in one place, all of which may combine. -/
structure Quartet (g : Game ℝ) (i : ℕ) (a b c d : CellPtr) (r : ℝ) : Prop where
  cells : g.cellsOf i = [a, b, c, d]
  positive : 0 < r
  radius : ∀ q ∈ g.cellsOf i, (g.heap q).radius = r
  origin : ∀ q ∈ g.cellsOf i, (g.heap q).position = 0
  combine : ∀ q ∈ g.cellsOf i, (g.heap q).combineTime < g.currentTime

variable {a b c d : CellPtr} {r : ℝ}

theorem Quartet.same {g' : Game ℝ} (h : Quartet g i a b c d r) (hcells : g'.cellsOf i = g.cellsOf i)
    (hheap : g'.heap = g.heap) (htime : g'.currentTime = g.currentTime) :
    Quartet g' i a b c d r := by
  refine ⟨hcells.trans h.cells, h.positive, ?_, ?_, ?_⟩
  all_goals rw [hcells, hheap]
  · exact h.radius
  · exact h.origin
  · rw [htime]
    exact h.combine

theorem Quartet.absorbs (h : Quartet g i a b c d r) {g' : Game ℝ} {p q : CellPtr}
    (hp : p ∈ g.cellsOf i) (hq : q ∈ g.cellsOf i) (hheap : g'.heap p = g.heap p)
    (hheap' : g'.heap q = g.heap q) (htime : g'.currentTime = g.currentTime) :
    g'.Absorbs p q := by
  have hready : ∀ s ∈ g.cellsOf i, g'.heap s = g.heap s → g'.ready s = true := by
    intro s hs hsame
    unfold ready
    rw [hsame, htime]
    exact decide_eq_true (h.combine s hs)
  have hcollide : (g'.heap p).collide (g'.heap q) = .overlap := by
    rw [hheap, hheap']
    exact collide_twins h.positive (h.radius p hp) (h.radius q hq)
      ((h.origin p hp).trans (h.origin q hq).symm)
  refine ⟨⟨hready p hp hheap, hready q hq hheap'⟩, ?_, ?_⟩
  · rw [hcollide]
  · rw [hheap, hheap', h.radius p hp, h.radius q hq]
    exact lt_irrefl r

theorem Quartet.collideSelf_twice (hw : WellFormed g) (h : Quartet g i a b c d r) :
    g.cellEvents.removeDynamic ++ [a, a] <+: (g.collideSelf i).cellEvents.removeDynamic := by
  have hmem : a ∈ g.cellsOf i ∧ b ∈ g.cellsOf i ∧ d ∈ g.cellsOf i := by
    rw [h.cells]
    simp
  obtain ⟨ha, hb, hd⟩ := hmem
  have hdistinct : a ≠ b ∧ d ≠ b ∧ a ≠ d := by
    have hnodup := hw.cells_nodup i
    rw [h.cells] at hnodup
    simp only [List.nodup_cons, List.mem_cons, List.not_mem_nil, or_false, not_or] at hnodup
    exact ⟨hnodup.1.1, fun heq => hnodup.2.1.2 heq.symm, hnodup.1.2.2⟩
  have hfirst : (g.cellsOf i)[0]? = some a := by rw [h.cells]; rfl
  have hat : AtSlot g i a (0 : ℕ) := Or.inl ⟨le_rfl, hfirst⟩
  have hstep := collideSelfWith_absorbs (0 + 1) (by rw [h.cells]; rfl)
    (h.absorbs ha hb rfl rfl rfl) (0 : ℕ)
  have hleads := absorbs_leads (hw.owned i a ha) (hw.owned i b hb) hat
  obtain ⟨hheap, htime, hremoved⟩ := absorbs_frame g i a b (0 : ℕ)
  have hcells : ((g.noteSelf a b).absorbOwn i a b (0 : ℕ)).cellsOf i = [b, c, d] := by
    rw [(absorbOwn_cellsOf (g.noteSelf a b) i 0 a b (by rw [noteSelf_cellsOf]; exact hfirst)).1,
      noteSelf_cellsOf, h.cells]
    rfl
  have hframe := hleads.frame hw
  have hw' := hleads.wellFormed hw
  have hgone : ∀ m, AtSlot ((g.noteSelf a b).absorbOwn i a b (0 : ℕ)) i a m := fun _ => .absorbed
  generalize (g.noteSelf a b).absorbOwn i a b (0 : ℕ) = g₁ at *
  have hlow : max (-1) (((0 : ℕ) : ℤ) - 1) < 3 := by decide
  generalize max (-1) (((0 : ℕ) : ℤ) - 1) = m at hstep hlow
  -- the loop goes on with a cell that has left
  have hstep' := collideSelfWith_absorbs (0 + 1 + 1) (by rw [hcells]; rfl)
    (h.absorbs ha hd (hheap a hdistinct.1) (hheap d hdistinct.2.1) htime) m
  have hleads' := absorbs_leads ((hw.owned i a ha).mono hframe) ((hw.owned i d hd).mono hframe)
    (hgone m)
  have hremoved' := (absorbs_frame g₁ i a d m).2.2
  have hframe' := hleads'.frame hw'
  have hw'' := hleads'.wellFormed hw'
  have hgone' : ∀ n, AtSlot ((g₁.noteSelf a d).absorbOwn i a d m) i a n := fun _ => .absorbed
  generalize (g₁.noteSelf a d).absorbOwn i a d m = g₂ at *
  have hrest := collideSelfWith_leads g₂ i a (max (-1) (m - 1)) (0 + 1 + 1 + 1)
    (((hw.owned i a ha).mono hframe).mono hframe') (by push_cast; omega) (hgone' _)
  have htwice : g₂.cellEvents.removeDynamic = g.cellEvents.removeDynamic ++ [a, a] := by
    rw [hremoved', hremoved, List.append_assoc]
    rfl
  unfold collideSelf
  rw [collideSelfFrom]
  split
  · rename_i hnone
    rw [hfirst] at hnone
    cases hnone
  · rename_i cell hcell
    obtain rfl : a = cell := Option.some.inj (hfirst.symm.trans hcell)
    rw [← htwice]
    dsimp only
    rw [hstep, hstep']
    exact (hrest.frame hw'').removeDynamic.trans
      ((collideSelfFrom_leads _ i _).frame (hrest.wellFormed hw'')).removeDynamic

theorem Quartet.reported_twice (hw : WellFormed g) (hi : i < g.players.length)
    (h : Quartet g i a b c d r)
    (hquiet : Quiet g ((g.beforeDynamic i).collideDynamic i)) : ¬ Exact g g.collisionPhase := by
  intro hexact
  have hself := h.same (hquiet.cellsOf i) hquiet.heap hquiet.currentTime
  have hw' : WellFormed ((g.beforeDynamic i).collideDynamic i) :=
    (collideDynamic_leads _ i (beforeDynamic_steady hw hi).index).wellFormed
      (beforeDynamic_steady hw hi).wellFormed
  have htwice := (hself.collideSelf_twice hw').trans (collideOwn_frame hw hi).removeDynamic
  have hpair : [a, a].Sublist g.collisionPhase.cellEvents.removeDynamic :=
    (List.sublist_append_right _ _).trans htwice.sublist
  have hnodup := hexact.once.2.sublist hpair
  simp at hnodup

end Game

open Sys

theorem Sys.Kept.swarm {s : Sys ℝ} (hkept : s.Kept) (h : s.game.Joined corner corner 0) (t : ℝ) :
    ∃ p, Swarm (s.step (.writeable 0 0 (fun _ => true) 1)) p 10000 t ∧ p.cells = [firstCell] ∧
      p.Attends 0 ∧ p.wsMessage.connected = true := by
  obtain ⟨p, hkept', hjoined, hplayers, hcells, hattends, hfeed, hconnected⟩ := first_joins hkept h
  generalize s.step (.writeable 0 0 (fun _ => true) 1) = s' at *
  have hcell := hjoined.cell 0 one_pos
  have hsize : (s'.game.heap firstCell).size = 10000 := by
    have hradius : (s'.game.heap firstCell).radius = 1000 := hcell.radius
    unfold Cell.size
    rw [hradius]
    norm_num
  refine ⟨p, ⟨hkept', hjoined.remote corner_far corner_far, hplayers, ?_, Or.inl ?_, hfeed⟩, hcells,
    hattends, hconnected⟩
  · rw [hcells]
    exact fun c hc => List.mem_singleton.mp hc ▸ ⟨hcell.parked, hsize⟩
  · rw [hcells]
    rfl

theorem Swarm.combines {s : Sys ℝ} {p : Player ℝ} {m t : ℝ} {a b c d : CellPtr} (h : Swarm s p m t)
    (hcells : p.cells = [a, b, c, d]) (hm : 0 < m) (hconnected : p.wsMessage.connected = true)
    {clock : ℝ} (hlate : t < clock) : ∃ g, ¬ Game.Exact g g.collisionPhase ∧
      .collided g g.collisionPhase ∈ (s.step (.tick clock)).trace := by
  have hall : ∀ q ∈ s.game.players, q.wsMessage.connected = true := by
    rw [h.players]
    exact fun q hq => List.mem_singleton.mp hq ▸ hconnected
  have hq : Game.Quiet (s.game.beginTick clock) (s.tickStart clock).game := by
    rw [tickStart_of_connected hall]
    exact Game.updateDynamic_quiet _ _ fun e he => (h.remote.dynamic e he).1
  have hw : (s.tickStart clock).game.WellFormed :=
    (Moves.invariant (tickStart_moves s clock) h.kept.invariant).wellFormed
  have hplayers : (s.tickStart clock).game.players = [p] := hq.players.trans h.players
  have hheap : (s.tickStart clock).game.heap = s.game.heap := hq.heap
  have hown : (s.tickStart clock).game.cellsOf 0 = p.cells := by simp [Game.cellsOf, hplayers]
  have hremote : (s.tickStart clock).game.Remote :=
    h.remote.same ((Game.beginTick_same s.game clock).trans hq.told.same)
  have hspares : ∀ e ∈ (s.tickStart clock).game.cellsOf 0, (s.tickStart clock).game.Spares e := by
    intro e he
    rw [hown] at he
    exact hremote.spares (by rw [hheap]; exact (h.parked e he).1.central)
  have hstatic := Game.collideStatic_quiet (s.tickStart clock).game 0 fun e he =>
    (hspares e he).static
  have hdynamic := Game.collideDynamicFrom_quiet ((s.tickStart clock).game.beforeDynamic 0) 0 0 (by
    show ∀ e ∈ ((s.tickStart clock).game.collideStatic 0).cellsOf 0, Game.Spares _ e
    rw [hstatic.cellsOf]
    exact fun e he => (hspares e he).quiet hstatic)
  have hquartet : (s.tickStart clock).game.Quartet 0 a b c d (Real.sqrt (m * 100)) := by
    refine ⟨hown.trans hcells, Real.sqrt_pos.mpr (by linarith), ?_, ?_, ?_⟩
    all_goals rw [hown, hheap]
    · exact fun e he => h.radius he
    · exact fun e he => (h.parked e he).1.central.origin
    · have htime : (s.tickStart clock).game.currentTime = clock := hq.currentTime
      rw [htime]
      rcases h.combine with hone | hcombine
      · rw [hcells] at hone
        exact absurd hone (by simp)
      · exact fun e he => (hcombine e he).trans_lt hlate
  exact ⟨_, hquartet.reported_twice hw (by rw [hplayers]; exact one_pos) (hstatic.trans hdynamic),
    tick_collides hall clock⟩

/-- A player splits twice, and waits until its four cells combine. -/
def halving : Run ℝ where
  rand := placing corner corner
  stale := fun _ => 0
  events := [.writeable 0 0 (fun _ => true) 1,
    .receive 0 [msgSplit] fun _ => 0, .tick 1, .writeable 0 6 (fun _ => true) 1,
    .receive 0 [msgSplit] fun _ => 0, .tick 7, .writeable 0 13 (fun _ => true) 1, .tick 1000]

theorem Sys.Kept.combines {s : Sys ℝ} (hkept : s.Kept) (h : s.game.Joined corner corner 0) :
    ∃ g, ¬ Game.Exact g g.collisionPhase ∧
      .collided g g.collisionPhase ∈ (halving.events.foldl Sys.step s).trace := by
  unfold halving
  rw [List.foldl_cons, List.foldl_cons, List.foldl_cons, List.foldl_cons, List.foldl_cons,
    List.foldl_cons, List.foldl_cons, List.foldl_cons, List.foldl_nil]
  have hbig : 42 < Real.sqrt (10000 * 100) := Real.lt_sqrt_of_sq_lt (by norm_num)
  have hbig' : 42 < Real.sqrt (10000 / 2 * 100) := Real.lt_sqrt_of_sq_lt (by norm_num)
  obtain ⟨p₁, hswarm₁, hcells₁, hattends₁, hconnected₁⟩ := hkept.swarm h 1
  generalize s.step (.writeable 0 0 (fun _ => true) 1) = s₁ at *
  -- the first split
  obtain ⟨p₂, hswarm₂, hcells₂, hsplit₂, hwsi₂, hmessage₂, hsent₂⟩ :=
    hswarm₁.asks hattends₁ fun _ => 0
  generalize s₁.step (.receive 0 [msgSplit] fun _ => 0) = s₂ at *
  obtain ⟨p₃, hswarm₃, hcells₃, hattends₃, hpending₃⟩ := hswarm₂.splits le_rfl
    (by rw [hmessage₂]; exact hconnected₁) hsplit₂ hwsi₂
    (by rw [hmessage₂]; exact hattends₁.start) (hsent₂.trans hattends₁.sent)
    (by rw [hcells₂, hcells₁]; decide) hbig
  generalize s₂.step (.tick 1) = s₃ at *
  obtain ⟨p₄, hswarm₄, hcells₄, hattends₄, hconnected₄⟩ :=
    hswarm₃.drains hattends₃ hpending₃ 6 (by norm_num) 1
  generalize s₃.step (.writeable 0 6 (fun _ => true) 1) = s₄ at *
  have htwo : p₄.cells = [firstCell, s₂.game.allocated] := by
    rw [hcells₄, hcells₃, hcells₂, hcells₁]
    rfl
  -- the second split
  obtain ⟨p₅, hswarm₅, hcells₅, hsplit₅, hwsi₅, hmessage₅, hsent₅⟩ :=
    hswarm₄.asks hattends₄ fun _ => 0
  generalize s₄.step (.receive 0 [msgSplit] fun _ => 0) = s₅ at *
  obtain ⟨p₆, hswarm₆, hcells₆, hattends₆, hpending₆⟩ := hswarm₅.splits
    (show (7 : ℝ) ≤ _ by norm_num) (by rw [hmessage₅]; exact hconnected₄) hsplit₅ hwsi₅
    (by rw [hmessage₅]; exact hattends₄.start) (hsent₅.trans hattends₄.sent)
    (by rw [hcells₅, htwo]; simp) hbig'
  generalize s₅.step (.tick 7) = s₆ at *
  obtain ⟨p₇, hswarm₇, hcells₇, -, hconnected₇⟩ :=
    hswarm₆.drains hattends₆ hpending₆ 13 (by norm_num) 1
  generalize s₆.step (.writeable 0 13 (fun _ => true) 1) = s₇ at *
  have hfour : p₇.cells =
      [firstCell, s₂.game.allocated, s₅.game.allocated, s₅.game.allocated + 1] := by
    rw [hcells₇, hcells₆, hcells₅, htwo]
    rfl
  exact hswarm₇.combines hfour (by norm_num) hconnected₇ (by norm_num)

/-- The removal events are exact. -/
def ReportsExactly : Obs ℝ → Prop
  | .collided before after => Game.Exact before after
  | _ => True

/-- A cell that combines with two others is reported twice. -/
theorem combined_twice : ¬ Always (fun _ => ReportsExactly) halving.final.trace := by
  have hjoined : (Sys.init (placing corner corner) fun _ => (0 : ℝ)).game.Joined corner corner 0 :=
    Game.mapInit_joined corner corner _
  obtain ⟨g, hnot, hcollided⟩ := Sys.Kept.combines ⟨init_invariant _ _, init_gone _ _⟩ hjoined
  obtain ⟨pre, post, htrace⟩ := List.append_of_mem hcollided
  intro h
  refine hnot (h pre (.collided g g.collisionPhase) ⟨post, ?_⟩)
  rw [List.append_assoc]
  exact htrace.symm

end Agar
