import Agar.Calm
import Agar.Lasting
import Agar.Merging
import Agar.Lib.Handover

/-! The mass of a player's cells where one of them eats a virus and pops (`Player.cpp`,
`CollideDynamic`): a big half adds to it, the small balls do not. -/

namespace Agar
namespace Game
variable {g g' : Game ℝ} {i : ℕ}

/-- The cells of player `i` are different cells. -/
structure Held (g : Game ℝ) (i : ℕ) : Prop where
  index : i < g.players.length
  distinct : (g.cellsOf i).Nodup
  allocated : ∀ c ∈ g.cellsOf i, c < g.allocated

theorem Held.note (h : g.Held i) (c : Call ℝ) : (g.note c).Held i :=
  ⟨h.index, h.distinct, h.allocated⟩

theorem Held.sprout {cell : CellPtr} (h : g.Held i) (hs : Sprouts i cell g g' [g.allocated]) :
    g'.Held i := by
  refine ⟨by rw [hs.length]; exact h.index, ?_, fun c hc => ?_⟩
  · rw [hs.cells]
    refine List.nodup_append.mpr ⟨h.distinct, List.nodup_singleton _, ?_⟩
    rintro c hc d hd rfl
    exact (h.allocated c hc).ne (List.mem_singleton.mp hd)
  · rw [hs.cells] at hc
    rcases List.mem_append.mp hc with hc | hc
    · exact (h.allocated c hc).trans_le hs.allocated
    · exact (hs.fresh c hc).2.1

theorem addSize_mass (h : g.Held i) {cell : CellPtr} (hcell : cell ∈ g.cellsOf i) {s : ℝ}
    (hs : 0 ≤ s + (g.heap cell).size) : (g.addSize cell s).mass i = g.mass i + s := by
  have hsum := Handover.sum_change h.distinct hcell (fun c => (g.heap c).size)
    (fun c => ((g.addSize cell s).heap c).size) fun c _ hne => by
      rw [addSize, setCell_heap_ne _ _ _ hne]
      rfl
  have hsize : ((g.addSize cell s).heap cell).size = s + (g.heap cell).size := by
    rw [addSize, setCell_heap_self]
    exact Cell.addSize_size hs
  rw [hsize] at hsum
  have hcells : (g.addSize cell s).cellsOf i = g.cellsOf i := rfl
  unfold mass
  rw [hcells]
  linarith

theorem note_mass (g : Game ℝ) (c : Call ℝ) (i : ℕ) : (g.note c).mass i = g.mass i := rfl

theorem spawn_mass (h : g.Held i) (c : Cell ℝ) : (g.spawn i c).mass i = g.mass i + c.size := by
  have hold : ∀ p ∈ g.cellsOf i, ((g.spawn i c).heap p).size = (g.heap p).size := fun p hp => by
    rw [spawn_heap, if_neg (h.allocated p hp).ne]
  unfold mass
  rw [spawn_cellsOf _ _ _ _ h.index, if_pos rfl, List.map_append, List.sum_append,
    List.map_congr_left hold]
  simp [spawn_heap]

theorem bigPop_mass (h : g.Held i) {popCell : CellPtr} (hcell : popCell ∈ g.cellsOf i)
    (angle : Vec2 ℝ) : (g.bigPop i popCell angle).2.mass i =
      g.mass i + (g.heap popCell).size * (1 - 2 * splitRatio) := by
  have hlt := h.allocated popCell hcell
  obtain ⟨-, hspawn⟩ := bigPop_eq g i popCell angle hlt
  obtain ⟨-, -, hnew, -⟩ := bigPop_numbers angle hlt h.index
  have hrest : 0 ≤ -(g.heap popCell).size * splitRatio + (g.heap popCell).size := by
    have hsize := Cell.size_nonneg (g.heap popCell)
    unfold splitRatio
    linarith
  have hbase : (g.bigPopBase popCell).mass i = g.mass i + -(g.heap popCell).size * splitRatio := by
    rw [← addSize_mass h hcell hrest]
    refine mass_congr rfl fun q => ?_
    unfold bigPopBase setCombine
    rw [setCell_heap]
    split_ifs with hq
    · rw [hq]
      rfl
    · rfl
  have hheld : (g.bigPopBase popCell).Held i := ⟨h.index, h.distinct, h.allocated⟩
  rw [hspawn, spawn_mass hheld, hbase, hnew]
  ring

theorem bigPop_next (h : g.Held i) {popCell : CellPtr} (hcell : popCell ∈ g.cellsOf i)
    (angle : Vec2 ℝ) : (g.bigPop i popCell angle).2.Held i ∧
      (g.bigPop i popCell angle).1 ∈ (g.bigPop i popCell angle).2.cellsOf i := by
  have hlt := h.allocated popCell hcell
  obtain ⟨hsprouts, -⟩ := bigPop_sprouts g angle hlt h.index
  refine ⟨h.sprout hsprouts, ?_⟩
  rw [(bigPop_eq g i popCell angle hlt).1, hsprouts.cells]
  exact List.mem_append_right _ List.mem_cons_self

theorem bigPops_mass (h : g.Held i) {popCell : CellPtr} (hcell : popCell ∈ g.cellsOf i)
    (angle : Vec2 ℝ) (left : ℕ) : g.mass i ≤ (g.bigPops i popCell angle left).mass i ∧
      (g.bigPops i popCell angle left).Held i := by
  induction left generalizing g popCell angle with
  | zero => exact ⟨le_rfl, h⟩
  | succ left ih =>
    rw [bigPops]
    split_ifs with hbig
    · have hmass := bigPop_mass h hcell (angle.rotate (6.28 / 4))
      obtain ⟨hnext, hmem⟩ := bigPop_next h hcell (angle.rotate (6.28 / 4))
      obtain ⟨hle, hheld⟩ := ih hnext hmem (angle.rotate (6.28 / 4))
      refine ⟨le_trans ?_ hle, hheld⟩
      have hgain : 0 ≤ (g.heap popCell).size * (1 - 2 * splitRatio) :=
        mul_nonneg (Cell.size_nonneg _) (by unfold splitRatio; norm_num)
      linarith
    · exact ⟨le_rfl, h⟩

theorem smallBall_mass (h : g.Held i) (cell d : CellPtr) {sizeSmall : ℝ}
    (hs : 0 ≤ sizeSmall) (sumR : ℝ) :
    (g.smallBall i cell d sizeSmall sumR).mass i = g.mass i + sizeSmall := by
  have hradius : ((g.smallBall i cell d sizeSmall sumR).heap g.allocated).radius =
      Cell.getRadius sizeSmall := by
    simp [smallBall, randDirection, nextRand, newPlayerCell, newCell, setCombine, setCell,
      pushCell, setCells, note, Cell.addVelocity]
  have hsize : ((g.smallBall i cell d sizeSmall sumR).heap g.allocated).size = sizeSmall := by
    rw [Cell.size, hradius]
    exact Cell.sqrt_size hs
  have hheld : g.nextRand.2.nextRand.2.Held i := ⟨h.index, h.distinct, h.allocated⟩
  rw [smallBall_eq, spawn_mass hheld, hsize]
  exact congrArg (· + sizeSmall) (mass_congr rfl fun _ => rfl)

theorem smallBallsLoop_mass (h : g.Held i) {cell : CellPtr} (hcell : cell ∈ g.cellsOf i)
    (d : CellPtr) {sizeSmall : ℝ} (hs : 0 ≤ sizeSmall) (sumR : ℝ) (n : ℕ) :
    (g.smallBallsLoop i cell d sizeSmall sumR n).mass i = g.mass i + n * sizeSmall := by
  induction n generalizing g with
  | zero => simp [smallBallsLoop]
  | succ n ih =>
    obtain ⟨hsprouts, -⟩ := smallBall_sprouts g d sizeSmall sumR (h.allocated cell hcell) h.index
    have hmem : cell ∈ (g.smallBall i cell d sizeSmall sumR).cellsOf i := by
      rw [hsprouts.cells]
      exact List.mem_append_left _ hcell
    rw [smallBallsLoop, ih (h.sprout hsprouts) hmem, smallBall_mass h cell d hs sumR]
    push_cast
    ring

theorem smallBalls_mass (h : g.Held i) {cell : CellPtr} (hcell : cell ∈ g.cellsOf i) (d : CellPtr) :
    (g.smallBalls i cell d).mass i = g.mass i := by
  unfold smallBalls
  dsimp only
  generalize hballs : smallBallCount (g.cellsOf i).length (g.heap cell).size = balls
  split_ifs with hnone
  · have hpos : (0 : ℝ) < balls := by exact_mod_cast Nat.pos_of_ne_zero hnone
    have hsize := Cell.size_nonneg (g.heap cell)
    have hmin := playerMinSize_pos
    have hsmall : 0 ≤ smallBallSize balls (g.heap cell).size :=
      le_min (by linarith) (div_nonneg hsize hpos.le)
    have hall : balls * smallBallSize balls (g.heap cell).size ≤ (g.heap cell).size := by
      have hle := mul_le_mul_of_nonneg_left
        (min_le_right (2 * playerMinSize) ((g.heap cell).size / balls)) hpos.le
      rwa [mul_div_cancel₀ _ hpos.ne'] at hle
    have hrest : 0 ≤ -(balls : ℝ) * smallBallSize balls (g.heap cell).size +
        ((g.note (.slots (g.cellsOf i).length)).heap cell).size := by
      rw [note_heap]
      linarith
    have hlost := addSize_mass (h.note _) hcell hrest
    have hheld : ((g.note (.slots (g.cellsOf i).length)).addSize cell
        (-(balls : ℝ) * smallBallSize balls (g.heap cell).size)).Held i :=
      ⟨h.index, h.distinct, h.allocated⟩
    rw [smallBallsLoop_mass hheld hcell d hsmall, hlost, note_mass]
    ring
  · rfl

theorem popVirus_mass_small (h : g.Held i) {cell : CellPtr} (hcell : cell ∈ g.cellsOf i)
    (d : CellPtr) (hsmall : (g.heap cell).size ≤ 500) : (g.popVirus i cell d).mass i = g.mass i := by
  have hnone : g.bigPops i cell ⟨1, 0⟩ 4 = g := by
    rw [bigPops]
    exact if_neg fun hbig => absurd hbig.1 (not_lt.mpr hsmall)
  unfold popVirus
  dsimp only
  rw [hnone, smallBalls_mass (h.note _) hcell d, note_mass]

theorem popVirus_mass_big (h : g.Held i) {cell : CellPtr} (hcell : cell ∈ g.cellsOf i)
    (d : CellPtr) (hbig : 500 < (g.heap cell).size) (hroom : (g.cellsOf i).length < 16) :
    g.mass i < (g.popVirus i cell d).mass i := by
  let angle := (⟨1, 0⟩ : Vec2 ℝ).rotate (6.28 / 4)
  obtain ⟨hnext, hmem⟩ := bigPop_next h hcell angle
  have hpops : g.bigPops i cell ⟨1, 0⟩ 4 =
      (g.bigPop i cell angle).2.bigPops i (g.bigPop i cell angle).1 angle 3 := by
    rw [bigPops]
    exact if_pos ⟨hbig, hroom⟩
  -- the first half adds to the mass, and the others take nothing away
  have hfirst := bigPop_mass h hcell angle
  have hothers := (bigPops_mass hnext hmem angle 3).1
  rw [← hpops] at hothers
  have hgain : 0 < (g.heap cell).size * (1 - 2 * splitRatio) :=
    mul_pos (by linarith) (by unfold splitRatio; norm_num)
  have hheld := (bigPops_mass h hcell ⟨1, 0⟩ 4).2
  obtain ⟨news, hnews, -⟩ := bigPops_sprouts g ⟨1, 0⟩ 4 (h.allocated cell hcell) h.index
  have hstays : cell ∈ (g.bigPops i cell ⟨1, 0⟩ 4).cellsOf i := by
    rw [hnews.cells]
    exact List.mem_append_left _ hcell
  unfold popVirus
  dsimp only
  rw [smallBalls_mass (hheld.note _) hstays d, note_mass]
  linarith

end Game

/-- A cell of a player with less than 16 cells, and the virus it eats. -/
structure Popping where
  game : Game ℝ
  index : ℕ
  cell : CellPtr
  virus : CellPtr
  myLoop : ℕ
  loop : ℕ
  held : game.Held index
  own : cell ∈ game.cellsOf index
  few : (game.cellsOf index).length < 16
  present : game.dynamicMap[loop]? = some virus
  isVirus : (game.heap virus).flag.isVirus = true
  bigger : (game.heap cell).collide (game.heap virus) = .bigger

namespace Popping
variable (p : Popping)

/-- What the scan of `DynamicMap` that comes to the virus leaves: it ends there. -/
noncomputable def after : Game ℝ :=
  (p.game.collideDynamicWith p.index p.cell p.myLoop p.loop).1

/-- The mass of the player's cells has grown by the virus. -/
def ConservesMass : Prop :=
  p.after.mass p.index = p.game.mass p.index + (p.game.heap p.virus).size

/-- The cell has eaten the virus. -/
noncomputable def fed : Game ℝ :=
  (p.game.noteCollide p.cell p.virus).eatDynamic p.cell p.virus p.loop

theorem after_eq : p.after = p.fed.popVirus p.index p.cell p.virus := by
  unfold after
  rw [Game.collideDynamicWith]
  split
  · rename_i hnone
    rw [p.present] at hnone
    cases hnone
  · rename_i d hd
    rw [p.present] at hd
    obtain rfl := Option.some.inj hd
    rw [if_pos p.bigger, if_pos]
    · rfl
    · exact ⟨p.isVirus, p.few⟩

theorem fed_held : p.fed.Held p.index := ⟨p.held.index, p.held.distinct, p.held.allocated⟩

theorem fed_size :
    (p.fed.heap p.cell).size = (p.game.heap p.cell).size + (p.game.heap p.virus).size := by
  have hsize := Game.addSize_sizes (p.game.noteCollide p.cell p.virus) p.cell
    (Cell.size_nonneg (p.game.heap p.virus)) p.cell
  rw [if_pos rfl] at hsize
  exact hsize

theorem fed_mass : p.fed.mass p.index = p.game.mass p.index + (p.game.heap p.virus).size :=
  Game.addSize_mass (g := p.game.noteCollide p.cell p.virus)
    ⟨p.held.index, p.held.distinct, p.held.allocated⟩ p.own
    (add_nonneg (Cell.size_nonneg _) (Cell.size_nonneg _))

theorem makes_mass (hbig : 500 < (p.game.heap p.cell).size + (p.game.heap p.virus).size) :
    ¬ p.ConservesMass := by
  intro hsame
  have hgrows := Game.popVirus_mass_big p.fed_held p.own p.virus (by rw [p.fed_size]; exact hbig)
    p.few
  unfold ConservesMass at hsame
  rw [← p.after_eq, hsame, p.fed_mass] at hgrows
  exact lt_irrefl _ hgrows

/-- A pop conserves the mass exactly where no big half is made. -/
theorem conserves_iff : p.ConservesMass ↔
    (p.game.heap p.cell).size + (p.game.heap p.virus).size ≤ 500 := by
  constructor
  · intro hsame
    by_contra hbig
    exact p.makes_mass (not_le.mp hbig) hsame
  · intro hsmall
    unfold ConservesMass
    rw [p.after_eq, Game.popVirus_mass_small p.fed_held p.own p.virus
      (by rw [p.fed_size]; exact hsmall), p.fed_mass]

end Popping

/-- A cell of radius 1000 over a virus. -/
def overVirus (K : Type) [Field K] : Game K :=
  { Game.empty (fun _ => 0) fun _ => 0 with
    allocated := 2
    heap := fun p => { readyCell K p with
      radius := if p = 0 then 1000 else 100
      flag := if p = 0 then playerFlag else virusFlag }
    players := [{ fourfold K with cells := [0] }]
    dynamicMap := [1] }

noncomputable def bigMeal : Popping where
  game := overVirus ℝ
  index := 0
  cell := 0
  virus := 1
  myLoop := 0
  loop := 0
  held := by
    refine ⟨Nat.zero_lt_one, List.nodup_singleton _, fun c hc => ?_⟩
    rw [List.mem_singleton.mp hc]
    exact Nat.zero_lt_two
  own := List.mem_cons_self
  few := by
    show 1 < 16
    decide
  present := rfl
  isVirus := rfl
  bigger := by
    have hover := Cell.collide_same (a := (overVirus ℝ).heap 0) (b := (overVirus ℝ).heap 1)
      (by norm_num [overVirus]) (by norm_num [overVirus]) rfl
    rw [hover, if_pos]
    norm_num [overVirus, Cell.size]

/-- A cell of size 10000 that eats a virus of size 100 is more than 10100 afterwards. -/
theorem virus_makes_mass : ¬ bigMeal.ConservesMass :=
  bigMeal.makes_mass (by norm_num [bigMeal, overVirus, Cell.size])

end Agar
