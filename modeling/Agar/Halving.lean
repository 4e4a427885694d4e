import Agar.Feeding
import Agar.Orders

/-! Players whose cells split where they stand: the mouse does not pull, so the halves stay at the
origin. -/

namespace Agar
open Sys

/-- A cell at rest at the origin that no mouse pulls. -/
structure Cell.Parked (c : Cell ℝ) : Prop where
  central : Game.Central c
  still : c.mouseVector = 0

theorem Cell.Fresh.parked {c : Cell ℝ} (h : c.Fresh) : c.Parked := ⟨h.central, h.still⟩

/-- One of the halves into which a parked cell of size `m` has split at the time `t`. -/
structure Cell.Half (m t : ℝ) (c : Cell ℝ) : Prop where
  parked : c.Parked
  size : c.size = m / 2
  combine : c.combineTime = t + m / 50

theorem Cell.radius_of_size {c : Cell ℝ} (hc : 0 ≤ c.radius) : c.radius = Real.sqrt (c.size * 100) := by
  unfold Cell.size
  rw [show c.radius * c.radius * 0.01 * 100 = c.radius * c.radius by ring, Real.sqrt_mul_self hc]

theorem Cell.size_le {c : Cell ℝ} (hc : 0 ≤ c.radius) (hle : c.radius ≤ 1000) : c.size ≤ 10000 := by
  unfold Cell.size
  nlinarith

namespace Game
variable {g g' : Game ℝ} {i : ℕ} {cell : CellPtr} {m : ℝ}

theorem splitCell_half (i : ℕ) (hcell : cell < g.allocated) (h : (g.heap cell).Parked) :
    ((g.splitCell i cell).heap cell).Half (g.heap cell).size g.currentTime ∧
    ((g.splitCell i cell).heap g.allocated).Half (g.heap cell).size g.currentTime := by
  obtain ⟨⟨hrest, horigin, hpositive, hsmall⟩, hstill⟩ := h
  have hne : cell ≠ g.allocated := hcell.ne
  have hhalved := splitCell_halved (g := g) i hcell
  have hsize := Cell.size_pos hpositive
  have hbound := Cell.size_le hpositive.le hsmall
  have hradius : 0 < Cell.getRadius ((g.heap cell).size / 2) ∧
      Cell.getRadius ((g.heap cell).size / 2) ≤ 1000 := by
    refine ⟨Cell.getRadius_pos (by linarith), Real.sqrt_le_iff.mpr ⟨by norm_num, by linarith⟩⟩
  constructor
  · refine ⟨⟨⟨⟨?_, ?_, ?_, ?_⟩, ?_, ?_, ?_⟩, ?_⟩, hhalved.half, ?_⟩
    all_goals simp only [splitCell, newPlayerCell, newCell, setCombine, setCell, pushCell, setCells,
      note, hne, if_true, if_false]
    · exact hrest.force
    · exact hrest.acceleration
    · exact hrest.velocity
    · exact hrest.onMap
    · exact horigin
    · exact hradius.1
    · exact hradius.2
    · exact hstill
  · refine ⟨⟨⟨⟨?_, ?_, ?_, ?_⟩, ?_, ?_, ?_⟩, ?_⟩, hhalved.other, ?_⟩
    all_goals simp only [splitCell, newPlayerCell, newCell, setCombine, setCell, pushCell, setCells,
      note, hne, hne.symm, if_true, if_false, Cell.addVelocity, hstill, horigin, Vec2.normalize_zero,
      Vec2.zero_mul_eq, Vec2.add_zero_eq]
    · exact onMap_zero
    · exact hradius.1
    · exact hradius.2

/-- After `x` rounds of the split loop over parked cells of size `m`. -/
structure Parted (g : Game ℝ) (i x : ℕ) (m : ℝ) (g' : Game ℝ) : Prop where
  allocated : g'.allocated = g.allocated + x
  players : g'.players = g.players.modify i fun p => { p with
    cells := g.cellsOf i ++ List.range' g.allocated x }
  static : g'.staticMap = g.staticMap
  dynamic : g'.dynamicMap = g.dynamicMap
  events : g'.cellEvents = g.cellEvents
  time : g'.currentTime = g.currentTime
  halves : ∀ c ∈ (g.cellsOf i).take x ++ List.range' g.allocated x,
    (g'.heap c).Half m g.currentTime
  rest : ∀ q < g.allocated, q ∉ (g.cellsOf i).take x → g'.heap q = g.heap q

theorem Parted.cellsOf {x : ℕ} (h : Parted g i x m g') (hi : i < g.players.length) (j : ℕ) :
    g'.cellsOf j = if j = i then g.cellsOf i ++ List.range' g.allocated x else g.cellsOf j := by
  unfold Game.cellsOf
  rw [h.players, List.getElem?_modify]
  split_ifs with hj hj' hj'
  · subst hj
    simp [List.getElem?_eq_getElem hi, Game.cellsOf]
  · exact absurd hj.symm hj'
  · exact absurd hj'.symm hj
  · simp

theorem Parted.next {x : ℕ} (h : Parted g i x m g') (hi : i < g.players.length)
    (hx : (g.cellsOf i)[x]? = some cell) (hfew : 2 * (g.cellsOf i).length ≤ 16)
    (hnodup : (g.cellsOf i).Nodup) (hlt : ∀ c ∈ g.cellsOf i, c < g.allocated)
    (hparked : (g.heap cell).Parked) (hsize : (g.heap cell).size = m)
    (hbig : 42 < (g.heap cell).radius) : Parted g i (x + 1) m (g'.splitAt i x) := by
  have hxlt := getElem?_lt hx
  have hcell := hlt cell (List.mem_of_getElem? hx)
  have hcells := h.cellsOf hi i
  rw [if_pos rfl] at hcells
  -- the cell has not been split before
  have hnew : cell ∉ (g.cellsOf i).take x := by
    intro hmem
    obtain ⟨n, hn, hcn⟩ := List.mem_take_iff_getElem.mp hmem
    have hsame : (g.cellsOf i)[n]? = (g.cellsOf i)[x]? := by
      rw [hx, List.getElem?_eq_getElem (by omega), hcn]
    have hnx := (List.getElem?_inj (by omega) hnodup).mp hsame
    omega
  have hkept : g'.heap cell = g.heap cell := h.rest cell hcell hnew
  have hget : (g'.cellsOf i)[x]? = some cell := by
    rw [hcells, List.getElem?_append_left hxlt]
    exact hx
  have hroom : (g'.cellsOf i).length < 16 ∧ 42 < (g'.heap cell).radius := by
    rw [hcells, hkept, List.length_append, List.length_range']
    exact ⟨by omega, hbig⟩
  have hbound : cell < g'.allocated := by
    rw [h.allocated]
    exact Nat.lt_add_right _ hcell
  have hhalved := splitCell_halved (g := g') i hbound
  obtain ⟨hmine, hother⟩ := splitCell_half (g := g') i hbound (by rw [hkept]; exact hparked)
  rw [hkept, hsize, h.time] at hmine hother
  have hsplit : g'.splitAt i x = g'.splitCell i cell := by
    unfold splitAt
    rw [hget]
    exact if_pos hroom
  have htake : (g.cellsOf i).take (x + 1) = (g.cellsOf i).take x ++ [cell] := by
    rw [List.take_add_one, hx]
    rfl
  rw [hsplit]
  constructor
  · rw [hhalved.allocated, h.allocated]
    rfl
  · rw [hhalved.players, hcells, h.players, List.modify_modify_eq, List.range'_1_concat,
      h.allocated, List.append_assoc]
    rfl
  · exact h.static
  · exact h.dynamic
  · exact h.events
  · exact h.time
  · intro c hc
    by_cases hcc : c = cell
    · rw [hcc]
      exact hmine
    by_cases hcn : c = g'.allocated
    · rw [hcn]
      exact hother
    · rw [hhalved.rest c hcc hcn]
      refine h.halves c ?_
      rw [htake, List.range'_1_concat, ← h.allocated] at hc
      rcases List.mem_append.mp hc with hc | hc
      · rcases List.mem_append.mp hc with hc | hc
        · exact List.mem_append_left _ hc
        · exact absurd (List.mem_singleton.mp hc) hcc
      · rcases List.mem_append.mp hc with hc | hc
        · exact List.mem_append_right _ hc
        · exact absurd (List.mem_singleton.mp hc) hcn
  · intro q hq hqn
    rw [htake, List.mem_append, List.mem_singleton, not_or] at hqn
    rw [hhalved.rest q hqn.2 (h.allocated ▸ (Nat.lt_add_right _ hq).ne)]
    exact h.rest q hq hqn.1

theorem splitCells_parted (hi : i < g.players.length) (hfew : 2 * (g.cellsOf i).length ≤ 16)
    (hnodup : (g.cellsOf i).Nodup) (hlt : ∀ c ∈ g.cellsOf i, c < g.allocated)
    (hparked : ∀ c ∈ g.cellsOf i, (g.heap c).Parked ∧ (g.heap c).size = m ∧
      42 < (g.heap c).radius) : Parted g i (g.cellsOf i).length m (g.splitCells i) := by
  have hzero : Parted g i 0 m g := by
    refine ⟨rfl, (modify_of_fixed fun p hp => ?_).symm, rfl, rfl, rfl, rfl, fun c hc => ?_,
      fun _ _ _ => rfl⟩
    · have hcells : g.cellsOf i = p.cells := by simp [Game.cellsOf, hp]
      simp [hcells]
    · simp at hc
  have hloop : ∀ n ≤ (g.cellsOf i).length,
      Parted g i n m ((List.range n).foldl (fun g x => g.splitAt i x) g) := by
    intro n hn
    induction n with
    | zero => exact hzero
    | succ n ih =>
      have hx := List.getElem?_eq_getElem hn
      obtain ⟨hpark, hsize, hbig⟩ := hparked _ (List.mem_of_getElem? hx)
      rw [List.range_succ, List.foldl_append]
      exact (ih (by omega)).next hi hx hfew hnodup hlt hpark hsize hbig
  exact hloop _ le_rfl

/-- The cells of player `n`, of size `m`, have split where they stood. -/
structure Divided (g : Game ℝ) (n : ℕ) (m : ℝ) (g' : Game ℝ) : Prop where
  cells : ∀ j, g'.cellsOf j = if j = n then
    g.cellsOf n ++ List.range' g.allocated (g.cellsOf n).length else g.cellsOf j
  static : g'.staticMap = g.staticMap
  dynamic : g'.dynamicMap = g.dynamicMap
  events : g'.cellEvents = g.cellEvents
  halves : ∀ c ∈ g'.cellsOf n, (g'.heap c).Half m g.currentTime
  rest : ∀ q < g.allocated, q ∉ g.cellsOf n → g'.heap q = g.heap q

theorem updatePlayer_divided (hw : WellFormed g) {n : ℕ} {p : Player ℝ}
    (hp : g.players[n]? = some p) (hsplit : p.doSplit = true) (hfeed : p.doFeed = false)
    (hfew : 2 * (g.cellsOf n).length ≤ 16)
    (hparked : ∀ c ∈ g.cellsOf n, (g.heap c).Parked ∧ (g.heap c).size = m ∧
      42 < (g.heap c).radius) : Divided g n m (g.updatePlayer n p).after := by
  have hcells := cellsOf_modifyPlayer g n (fun p => { p with doSplit := false }) fun _ => rfl
  have hlen : (g.modifyPlayer n fun p => { p with doSplit := false }).players.length =
      g.players.length := List.length_modify _ _ _
  have hcommands : g.commands n p =
      (g.modifyPlayer n fun p => { p with doSplit := false }).splitCells n := by
    unfold commands splitCommand feedCommand
    rw [if_pos hsplit, hfeed]
    rfl
  have hparted := splitCells_parted (g := g.modifyPlayer n fun p => { p with doSplit := false })
    (m := m) (i := n) (by rw [hlen]; exact getElem?_lt hp) (by rw [hcells]; exact hfew)
    (by rw [hcells]; exact hw.cells_nodup n)
    (by rw [hcells]; exact fun c hc => (hw.owned n c hc).1) (by rw [hcells]; exact hparked)
  rw [← hcommands, hcells] at hparted
  have hall : ∀ j, (g.updatePlayer n p).after.cellsOf j = if j = n then
      g.cellsOf n ++ List.range' g.allocated (g.cellsOf n).length else g.cellsOf j := fun j => by
    rw [after_cellsOf hw hp, hparted.cellsOf (by rw [hlen]; exact getElem?_lt hp), hcells, hcells]
    rfl
  refine ⟨hall, hparted.static, hparted.dynamic, hparted.events, fun c hc => ?_, fun q hq hqn => ?_⟩
  · rw [hall, if_pos rfl] at hc
    refine hparted.halves c ?_
    rw [hcells, List.take_length]
    exact hc
  · refine hparted.rest q hq ?_
    rw [hcells, List.take_length]
    exact hqn

theorem after_single (hw : WellFormed g) {p : Player ℝ} (hplayers : g.players = [p]) :
    (g.updatePlayer 0 p).after.players = [(g.updatePlayer 0 p).finished.player] := by
  have hlen : (g.commands 0 p).players.length = 1 := by
    have hcore := congrArg List.length (commands_spec hw (by rw [hplayers]; rfl : g.players[0]? = some p)).2.2
    rwa [List.length_map, List.length_modify, List.length_map, hplayers] at hcore
  obtain ⟨q, hq⟩ := List.length_eq_one_iff.mp hlen
  show (g.commands 0 p).players.set 0 _ = _
  rw [hq]
  rfl

theorem Divided.remote {n : ℕ} (h : Divided g n m g') (hw : WellFormed g) (hr : Remote g)
    (hparked : ∀ c ∈ g.cellsOf n, (g.heap c).Parked) : Remote g' := by
  have hfar : ∀ q < g.allocated, 1100 < (g.heap q).position.x → g'.heap q = g.heap q := by
    intro q hq hx
    refine h.rest q hq fun hmem => ?_
    rw [(hparked q hmem).central.origin, Vec2.zero_x] at hx
    linarith
  refine ⟨fun b q hq => ?_, fun d hd => ?_⟩
  · rw [h.static] at hq
    have hold := hr.static b q hq
    rwa [hfar q (hw.static_lt hq) hold.1]
  · rw [h.dynamic] at hd
    have hold := hr.dynamic d hd
    rwa [hfar d (hw.dynamic d hd).2.1 hold.2.1]

end Game

/-- The only player has cells of size `m` at the origin, none of which may combine before `t`. -/
structure Swarm (s : Sys ℝ) (p : Player ℝ) (m t : ℝ) : Prop where
  kept : s.Kept
  remote : s.game.Remote
  players : s.game.players = [p]
  parked : ∀ c ∈ p.cells, (s.game.heap c).Parked ∧ (s.game.heap c).size = m
  combine : p.cells.length = 1 ∨ ∀ c ∈ p.cells, (s.game.heap c).combineTime = t
  doFeed : p.doFeed = false

namespace Swarm
variable {s : Sys ℝ} {p : Player ℝ} {m t sent : ℝ}

theorem cellsOf (h : Swarm s p m t) (i : ℕ) :
    s.game.cellsOf i = if i = 0 then p.cells else [] := by
  unfold Game.cellsOf
  rw [h.players]
  rcases i with - | i
  · rfl
  · simp

theorem radius (h : Swarm s p m t) {c : CellPtr} (hc : c ∈ p.cells) :
    (s.game.heap c).radius = Real.sqrt (m * 100) := by
  obtain ⟨hparked, hsize⟩ := h.parked c hc
  rw [Cell.radius_of_size hparked.central.positive.le, hsize]

theorem mem_cells (h : Swarm s p m t) {i : ℕ} {c : CellPtr} (hc : c ∈ s.game.cellsOf i) :
    c ∈ p.cells := by
  rw [h.cellsOf] at hc
  split_ifs at hc
  · exact hc
  · cases hc

theorem huddle (h : Swarm s p m t) {clock : ℝ} (hclock : clock ≤ t) : s.game.Huddle clock := by
  refine ⟨h.remote, fun i c hc => (h.parked c (h.mem_cells hc)).1.central,
    fun i j n c o hjn hc ho => ?_, fun i j _ c hc o ho => ?_⟩
  · rcases h.combine with hone | hall
    · -- there is no second cell
      have hn := Game.getElem?_lt ho
      rw [h.cellsOf] at hn
      split_ifs at hn
      · omega
      · exact absurd hn (Nat.not_lt_zero n)
    · rw [hall c (h.mem_cells (List.mem_of_getElem? hc))]
      exact Or.inl hclock
  · rw [h.radius (h.mem_cells hc), h.radius (h.mem_cells ho)]

theorem still (h : Swarm s p m t) : ∀ c ∈ s.game.players.flatMap Player.cells,
    (s.game.heap c).Resting ∧ (s.game.heap c).mouseVector = 0 := by
  rw [h.players, List.flatMap_singleton]
  exact fun c hc => ⟨(h.parked c hc).1.central.resting, (h.parked c hc).1.still⟩

theorem tickMoved_huddle (h : Swarm s p m t) {clock : ℝ} (hclock : clock ≤ t)
    (hconnected : p.wsMessage.connected = true) :
    (s.tickMoved clock).game.players = [p] ∧ (s.tickMoved clock).game.heap = s.game.heap ∧
      (s.tickMoved clock).game.allocated = s.game.allocated ∧
      (s.tickMoved clock).game.currentTime = clock ∧ (s.tickMoved clock).game.Remote := by
  have hall : ∀ q ∈ s.game.players, q.wsMessage.connected = true := by
    rw [h.players]
    exact fun q hq => List.mem_singleton.mp hq ▸ hconnected
  obtain ⟨cs, hcs⟩ := tickMoved_told (h.huddle hclock).calm hall h.still
  refine ⟨?_, ?_, ?_, ?_, ?_⟩
  all_goals rw [hcs]
  · exact h.players
  · rfl
  · rfl
  · rfl
  · exact ⟨h.remote.static, h.remote.dynamic⟩

theorem splits (h : Swarm s p m t) {clock : ℝ} (hclock : clock ≤ t)
    (hconnected : p.wsMessage.connected = true) (hsplit : p.doSplit = true) (hwsi : p.wsi = 0)
    (hstart : ∀ r, p.wsMessage.region = some r → r.start = lwsPre) (hsent : p.sendTime = sent)
    (hfew : 2 * p.cells.length ≤ 16) (hbig : 42 < Real.sqrt (m * 100)) :
    ∃ q, Swarm (s.step (.tick clock)) q (m / 2) (clock + m / 50) ∧
      q.cells = p.cells ++ List.range' s.game.allocated p.cells.length ∧ q.Attends sent ∧
      q.wsMessage.pending ≠ [] := by
  obtain ⟨hplayers, hheap, hallocated, htime, hremote⟩ := h.tickMoved_huddle hclock hconnected
  have hi : Invariant (.updating 0) (s.tickMoved clock) :=
    Moves.invariant (tickMoved_moves s clock) h.kept.invariant
  have hp : (s.tickMoved clock).game.players[0]? = some p := by rw [hplayers]; rfl
  have hcells : (s.tickMoved clock).game.cellsOf 0 = p.cells := by simp [Game.cellsOf, hplayers]
  have hparked : ∀ c ∈ (s.tickMoved clock).game.cellsOf 0,
      ((s.tickMoved clock).game.heap c).Parked ∧ ((s.tickMoved clock).game.heap c).size = m ∧
        42 < ((s.tickMoved clock).game.heap c).radius := by
    rw [hcells, hheap]
    exact fun c hc => ⟨(h.parked c hc).1, (h.parked c hc).2, by rw [h.radius hc]; exact hbig⟩
  have hdivided := Game.updatePlayer_divided hi.wellFormed hp hsplit h.doFeed
    (by rw [hcells]; exact hfew) hparked
  have hremote' := hdivided.remote hi.wellFormed hremote fun c hc => (hparked c hc).1
  have hafter := tick_after h.kept hplayers
  rw [← hafter] at hdivided hremote'
  obtain ⟨hattends, hfeed⟩ := Player.attends_updated hwsi hstart hsent hi.wellFormed hp
  have hpending := updated_pending hi.wellFormed hp (hi.buffers p (List.mem_of_getElem? hp))
  have hsingle := Game.after_single hi.wellFormed hplayers
  rw [← hafter] at hsingle
  have hown : (s.tick clock).game.cellsOf 0 =
      ((s.tickMoved clock).game.updatePlayer 0 p).finished.player.cells := by
    simp [Game.cellsOf, hsingle]
  have hnew := hdivided.cells 0
  rw [if_pos rfl, hown, hcells] at hnew
  have hhalves := hdivided.halves
  rw [hown, htime] at hhalves
  have hswarm : Swarm (s.tick clock) ((s.tickMoved clock).game.updatePlayer 0 p).finished.player
      (m / 2) (clock + m / 50) :=
    { kept := h.kept.step (.tick clock)
      remote := hremote'
      players := hsingle
      parked := fun c hc => ⟨(hhalves c hc).parked, (hhalves c hc).size⟩
      combine := Or.inr fun c hc => (hhalves c hc).combine
      doFeed := hfeed }
  rw [hallocated] at hnew
  exact ⟨_, hswarm, hnew, hattends, hpending⟩

theorem asks (h : Swarm s p m t) (ha : p.Attends sent) (beyond : ℕ → Byte) :
    ∃ q, Swarm (s.step (.receive 0 [msgSplit] beyond)) q m t ∧ q.cells = p.cells ∧
      q.doSplit = true ∧ q.wsi = 0 ∧ q.wsMessage = p.wsMessage.acknowledge ∧
      q.sendTime = p.sendTime := by
  have hgame := receive_handled s 0 [msgSplit] beyond fun hr => by
    exact absurd (Option.some.inj hr.1.1) (by decide)
  have hasked : p.received 0 [msgSplit] = { p with
      wsMessage := p.wsMessage.acknowledge
      doSplit := p.doSplit || true
      doFeed := p.doFeed || false } := if_pos ⟨ha.wsi.symm, List.cons_ne_nil _ _⟩
  have hplayers : (s.receive 0 [msgSplit] beyond).game.players = [p.received 0 [msgSplit]] := by
    rw [hgame]
    show s.game.players.map _ = _
    rw [h.players]
    rfl
  have hheap : (s.step (.receive 0 [msgSplit] beyond)).game.heap = s.game.heap := by
    show (s.receive 0 [msgSplit] beyond).game.heap = _
    rw [hgame]
    rfl
  have hremote : (s.receive 0 [msgSplit] beyond).game.Remote := by
    rw [hgame]
    exact ⟨h.remote.static, h.remote.dynamic⟩
  have hcells : (p.received 0 [msgSplit]).cells = p.cells := by rw [hasked]
  refine ⟨p.received 0 [msgSplit], ⟨h.kept.step (.receive 0 [msgSplit] beyond), hremote, hplayers,
    ?_, ?_, ?_⟩, hcells, ?_, ?_, ?_, ?_⟩
  · rw [hcells, hheap]
    exact h.parked
  · rw [hcells, hheap]
    exact h.combine
  · rw [hasked]
    simp [h.doFeed]
  · rw [hasked]
    exact Bool.or_true _
  all_goals rw [hasked]
  exact ha.wsi

theorem drains (h : Swarm s p m t) (ha : p.Attends sent) (hpending : p.wsMessage.pending ≠ [])
    (clock : ℝ) (hlate : sent + 5 < clock) (grown : ℕ) :
    ∃ q, Swarm (s.step (.writeable 0 clock (fun _ => true) grown)) q m t ∧
      q.cells = p.cells ∧ q.Attends clock ∧ q.wsMessage.connected = true := by
  obtain ⟨q, hgame, hattends, hconnected, hcells, hfeed⟩ :=
    drained h.players ha hpending clock hlate grown
  refine ⟨q, ⟨h.kept.step _, ?_, ?_, ?_, ?_, hfeed.trans h.doFeed⟩, hcells, hattends, hconnected⟩
  all_goals rw [hgame]
  · exact ⟨h.remote.static, h.remote.dynamic⟩
  · exact hcells ▸ h.parked
  · exact hcells ▸ h.combine

end Swarm

end Agar
