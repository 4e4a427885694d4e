import Agar.Passes

/-! Who is asked: `a->Collide(b)` against `b->Collide(a)`, and what the order of two players makes of
the fight of their only cells. -/

namespace Agar

namespace Cell
variable {a b : Cell ℝ}

/-- The cells overlap by more than 0.75 of the smaller diameter. -/
def Overlaps (a b : Cell ℝ) : Prop := 0.75 < a.overlapOf b / (2 * min a.radius b.radius)

theorem overlapOf_comm (a b : Cell ℝ) : b.overlapOf a = a.overlapOf b := by
  have hlength : (a.position - b.position).length = (b.position - a.position).length := by
    unfold Vec2.length
    congr 1
    simp only [Vec2.sub_x, Vec2.sub_y]
    ring
  unfold overlapOf
  rw [hlength]
  ring

theorem overlaps_comm : b.Overlaps a ↔ a.Overlaps b := by
  unfold Overlaps
  rw [overlapOf_comm, min_comm]

theorem Overlaps.nonneg (h : a.Overlaps b) (ha : 0 < a.radius) (hb : 0 < b.radius) :
    0 ≤ a.overlapOf b := by
  have hmin : 0 < min a.radius b.radius := lt_min ha hb
  have hlt := (lt_div_iff₀ (by positivity)).mp h
  linarith

theorem collide_of_overlaps (h : a.Overlaps b) (ha : 0 < a.radius) (hb : 0 < b.radius) :
    a.collide b = if 1.3333 < a.size / b.size then .bigger
      else if a.size / b.size < 0.75 then .smaller else .overlap := by
  have hover : a.overlapOf b / (2 * min a.radius b.radius) > 0.75 := h
  rw [collide_of_solid ha hb, if_pos (h.nonneg ha hb), if_pos hover]

theorem collide_of_apart (h : ¬ a.Overlaps b) (ha : 0 < a.radius) (hb : 0 < b.radius) :
    a.collide b = if 0 ≤ a.overlapOf b then .touch else .none := by
  have hapart : ¬ a.overlapOf b / (2 * min a.radius b.radius) > 0.75 := h
  rw [collide_of_solid ha hb, if_neg hapart]

theorem collide_bigger (ha : 0 < a.radius) (hb : 0 < b.radius) :
    a.collide b = .bigger ↔ a.Overlaps b ∧ 1.3333 < a.size / b.size := by
  by_cases h : a.Overlaps b
  · rw [collide_of_overlaps h ha hb]
    split_ifs <;> simp_all
  · rw [collide_of_apart h ha hb]
    split_ifs <;> simp [h]

theorem collide_smaller (ha : 0 < a.radius) (hb : 0 < b.radius) :
    a.collide b = .smaller ↔ a.Overlaps b ∧ a.size / b.size < 0.75 := by
  by_cases h : a.Overlaps b
  · rw [collide_of_overlaps h ha hb]
    split_ifs with h1 h2
    · simp only [false_iff, not_and, not_lt]
      exact fun _ => by linarith
    · simp [h, h2]
    · simp [h2]
  · rw [collide_of_apart h ha hb]
    split_ifs <;> simp [h]

end Cell

/-- Two cells of the game. -/
structure Encounter where
  a : Cell ℝ
  b : Cell ℝ
  solid_a : 0 < a.radius
  solid_b : 0 < b.radius

namespace Encounter

/-- Both calls of `Collide` say the same about the two cells. -/
structure Fair (e : Encounter) : Prop where
  bigger : e.a.collide e.b = .bigger ↔ e.b.collide e.a = .smaller
  smaller : e.a.collide e.b = .smaller ↔ e.b.collide e.a = .bigger
  same : e.a.collide e.b ≠ .bigger → e.a.collide e.b ≠ .smaller →
    e.b.collide e.a = e.a.collide e.b

/-- The first size is over 1.3333 of the second one, which is not under 0.75 of the first. -/
def Between (size other : ℝ) : Prop := 1.3333 < size / other ∧ 0.75 ≤ other / size

/-- The cells overlap, and only the bigger one is told so. -/
def Contested (e : Encounter) : Prop :=
  e.a.Overlaps e.b ∧ (Between e.a.size e.b.size ∨ Between e.b.size e.a.size)

theorem between_iff {size other : ℝ} :
    ¬ Between size other ↔ (1.3333 < size / other → other / size < 0.75) := by
  unfold Between
  rw [not_and, not_le]

theorem ratio_over {size other : ℝ} (hsize : 0 < size) (hother : 0 < other)
    (h : other / size < 0.75) : 1.3333 < size / other := by
  rw [div_lt_iff₀ hsize] at h
  rw [lt_div_iff₀ hother]
  linarith

theorem agree_iff (e : Encounter) :
    ((e.a.collide e.b = .bigger ↔ e.b.collide e.a = .smaller) ∧
      (e.a.collide e.b = .smaller ↔ e.b.collide e.a = .bigger)) ↔ ¬ e.Contested := by
  have ha := Cell.size_pos e.solid_a
  have hb := Cell.size_pos e.solid_b
  rw [Cell.collide_bigger e.solid_a e.solid_b, Cell.collide_smaller e.solid_b e.solid_a,
    Cell.collide_smaller e.solid_a e.solid_b, Cell.collide_bigger e.solid_b e.solid_a,
    Cell.overlaps_comm (a := e.a) (b := e.b)]
  unfold Contested
  rw [not_and, not_or, between_iff, between_iff]
  constructor
  · rintro ⟨hbigger, hsmaller⟩ hover
    exact ⟨fun h => (hbigger.mp ⟨hover, h⟩).2, fun h => (hsmaller.mpr ⟨hover, h⟩).2⟩
  · intro h
    refine ⟨⟨fun ⟨hover, hlt⟩ => ⟨hover, (h hover).1 hlt⟩, fun ⟨hover, hlt⟩ =>
      ⟨hover, ratio_over ha hb hlt⟩⟩, ⟨fun ⟨hover, hlt⟩ => ⟨hover, ratio_over hb ha hlt⟩,
      fun ⟨hover, hlt⟩ => ⟨hover, (h hover).2 hlt⟩⟩⟩

theorem fair_iff (e : Encounter) : e.Fair ↔ ¬ e.Contested := by
  rw [← agree_iff]
  constructor
  · exact fun h => ⟨h.bigger, h.smaller⟩
  · rintro ⟨hbigger, hsmaller⟩
    refine ⟨hbigger, hsmaller, fun hnot hnot' => ?_⟩
    by_cases hover : e.a.Overlaps e.b
    · have hother := fun h => hnot (hbigger.mpr h)
      have hother' := fun h => hnot' (hsmaller.mpr h)
      rw [Cell.collide_of_overlaps hover e.solid_a e.solid_b] at hnot hnot' ⊢
      rw [Cell.collide_of_overlaps (Cell.overlaps_comm.mpr hover) e.solid_b e.solid_a]
        at hother hother' ⊢
      split_ifs at hnot hnot' hother hother' ⊢ <;> simp_all
    · have hover' : ¬ e.b.Overlaps e.a := fun h => hover (Cell.overlaps_comm.mp h)
      rw [Cell.collide_of_apart hover e.solid_a e.solid_b,
        Cell.collide_of_apart hover' e.solid_b e.solid_a, Cell.overlapOf_comm]

end Encounter

/-- Two players with one cell each. -/
structure Duel where
  game : Game ℝ
  one : Player ℝ
  other : Player ℝ
  p : CellPtr
  q : CellPtr
  players : game.players = [one, other]
  one_cells : one.cells = [p]
  other_cells : other.cells = [q]
  distinct : p ≠ q
  solid_p : 0 < (game.heap p).radius
  solid_q : 0 < (game.heap q).radius

namespace Duel

def encounter (d : Duel) : Encounter where
  a := d.game.heap d.p
  b := d.game.heap d.q
  solid_a := d.solid_p
  solid_b := d.solid_q

/-- The other player comes first in `Players`. -/
def turned (d : Duel) : Duel :=
  { game := { d.game with players := [d.other, d.one] }
    one := d.other
    other := d.one
    p := d.q
    q := d.p
    players := rfl
    one_cells := d.other_cells
    other_cells := d.one_cells
    distinct := d.distinct.symm
    solid_p := d.solid_q
    solid_q := d.solid_p }

/-- Each player keeps the same cells, whichever of the two comes first. -/
def SameOutcome (d : Duel) : Prop :=
  d.game.othersPass.cellsOf 0 = d.turned.game.othersPass.cellsOf 1 ∧
  d.game.othersPass.cellsOf 1 = d.turned.game.othersPass.cellsOf 0

end Duel

namespace Game
variable {g : Game ℝ} {p q : CellPtr}

theorem collideOtherFrom_single (hp : g.cellsOf 0 = [p]) (hq : g.cellsOf 1 = [q]) :
    (g.collideOtherFrom 0 1 0).cellsOf 0 =
      (if (g.heap p).collide (g.heap q) = .smaller then [] else [p]) ∧
    (g.collideOtherFrom 0 1 0).cellsOf 1 =
      (if (g.heap p).collide (g.heap q) = .bigger then [] else [q]) := by
  have hp0 : (g.cellsOf 0)[0]? = some p := by rw [hp]; rfl
  have hq0 : (g.cellsOf 1)[0]? = some q := by rw [hq]; rfl
  have hzero := lt_of_cellsOf hp0
  have hone := lt_of_cellsOf hq0
  -- what the second round of the outer loop finds
  have hend : ∀ (g : Game ℝ) n, (g.cellsOf 0)[n]? = none → g.collideOtherFrom 0 1 n = g := by
    intro g n hn
    rw [collideOtherFrom.eq_def]
    split
    · rfl
    · rename_i h
      rw [hn] at h
      cases h
  have hinner : ∀ (g : Game ℝ) n, (g.cellsOf 1)[n]? = none →
      g.collideOtherWith 0 1 p 0 n = (g, false) := by
    intro g n hn
    rw [collideOtherWith.eq_def]
    split
    · rfl
    · rename_i h
      rw [hn] at h
      cases h
  have hstart : g.collideOtherFrom 0 1 0 =
      if (g.collideOtherWith 0 1 p 0 0).2 then
        (g.collideOtherWith 0 1 p 0 0).1.collideOtherFrom 0 1 0
      else (g.collideOtherWith 0 1 p 0 0).1.collideOtherFrom 0 1 1 := by
    rw [collideOtherFrom.eq_def]
    split
    · rename_i h
      rw [hp0] at h
      cases h
    · rename_i h
      rw [hp0] at h
      obtain rfl := Option.some.inj h
      rfl
  have hscan : g.collideOtherWith 0 1 p 0 0 =
      if (g.heap p).collide (g.heap q) = .bigger then
        ((g.noteCollide p q).eatOther 1 p q 0).collideOtherWith 0 1 p 0 0
      else if (g.heap p).collide (g.heap q) = .smaller then
        ((g.noteCollide p q).absorbOther 0 p q 0, true)
      else (g.noteCollide p q).collideOtherWith 0 1 p 0 1 := by
    rw [collideOtherWith.eq_def]
    split
    · rename_i h
      rw [hq0] at h
      cases h
    · rename_i h
      rw [hq0] at h
      obtain rfl := Option.some.inj h
      rfl
  rw [hstart, hscan]
  by_cases hbig : (g.heap p).collide (g.heap q) = .bigger
  · have hloser : ((g.noteCollide p q).eatOther 1 p q 0).cellsOf 1 = [] := by
      refine (cellsOf_setCells_self _ _ _ hone).trans ?_
      show (g.cellsOf 1).eraseIdx 0 = []
      rw [hq]
      rfl
    have hwinner : ((g.noteCollide p q).eatOther 1 p q 0).cellsOf 0 = [p] :=
      (cellsOf_setCells_ne _ _ one_ne_zero).trans hp
    rw [if_pos hbig, hinner _ 0 (by rw [hloser]; rfl), if_neg Bool.false_ne_true,
      hend _ 1 (by rw [hwinner]; rfl), hbig]
    exact ⟨hwinner, hloser⟩
  · rw [if_neg hbig]
    by_cases hsmall : (g.heap p).collide (g.heap q) = .smaller
    · have hloser : ((g.noteCollide p q).absorbOther 0 p q 0).cellsOf 0 = [] := by
        refine (cellsOf_setCells_self _ _ _ hzero).trans ?_
        show (g.cellsOf 0).eraseIdx 0 = []
        rw [hp]
        rfl
      have hwinner : ((g.noteCollide p q).absorbOther 0 p q 0).cellsOf 1 = [q] :=
        (cellsOf_setCells_ne _ _ zero_ne_one).trans hq
      rw [if_pos hsmall, if_pos rfl, hend _ 0 (by rw [hloser]; rfl), hsmall]
      exact ⟨hloser, hwinner⟩
    · have hsame : ∀ j, (g.noteCollide p q).cellsOf j = g.cellsOf j := fun j => rfl
      rw [if_neg hsmall, hinner _ 1 (by rw [hsame, hq]; rfl), if_neg Bool.false_ne_true,
        hend _ 1 (by rw [hsame, hp]; rfl), hsame, hsame, if_neg hsmall, if_neg hbig]
      exact ⟨hp, hq⟩

end Game

namespace Duel

theorem othersPass_cells (d : Duel) :
    d.game.othersPass.cellsOf 0 = (if d.encounter.a.collide d.encounter.b = .smaller then []
      else [d.p]) ∧
    d.game.othersPass.cellsOf 1 = (if d.encounter.a.collide d.encounter.b = .bigger then []
      else [d.q]) := by
  have hzero : d.game.cellsOf 0 = [d.p] := by simp [Game.cellsOf, d.players, d.one_cells]
  have hone : d.game.cellsOf 1 = [d.q] := by simp [Game.cellsOf, d.players, d.other_cells]
  have hlen : d.game.players.length = 2 := by rw [d.players]; rfl
  have hfirst : d.game.collideOtherPlayer 0 1 = d.game.collideOtherFrom 0 1 0 := by
    unfold Game.collideOtherPlayer
    rw [hlen]
    rfl
  have hpass : d.game.othersPass = d.game.collideOtherFrom 0 1 0 := by
    have hsecond : (d.game.collideOtherFrom 0 1 0).collideOtherPlayer 1 2 =
        d.game.collideOtherFrom 0 1 0 := by
      unfold Game.collideOtherPlayer
      rw [Game.collideOtherFrom_length, hlen]
      rfl
    unfold Game.othersPass
    rw [hlen]
    show (d.game.collideOtherPlayer 0 1).collideOtherPlayer 1 2 = _
    rw [hfirst, hsecond]
  rw [hpass]
  exact Game.collideOtherFrom_single hzero hone

theorem sameOutcome_iff (d : Duel) : d.SameOutcome ↔ ¬ d.encounter.Contested := by
  obtain ⟨h0, h1⟩ := d.othersPass_cells
  obtain ⟨h0', h1'⟩ := d.turned.othersPass_cells
  have ha : d.turned.encounter.a = d.encounter.b := rfl
  have hb : d.turned.encounter.b = d.encounter.a := rfl
  have hp : d.turned.p = d.q := rfl
  have hq : d.turned.q = d.p := rfl
  rw [ha, hb, hp] at h0'
  rw [ha, hb, hq] at h1'
  rw [← Encounter.agree_iff]
  unfold SameOutcome
  rw [h0, h1, h0', h1']
  split_ifs <;> simp_all

end Duel

/-- Who eats whom depends neither on which cell is asked nor on which player comes first, exactly
where one cell is over 4/3 of the other or not over 1.3333 of it, or they do not overlap. -/
theorem order_irrelevant (e : Encounter) (d : Duel) :
    (e.Fair ↔ ¬ e.Contested) ∧ (d.SameOutcome ↔ ¬ d.encounter.Contested) :=
  ⟨e.fair_iff, d.sameOutcome_iff⟩

/-- Two cells in one place, one 1.33332 times the size of the other. -/
noncomputable def closeCell (size : ℝ) : Cell ℝ where
  force := 0
  acceleration := 0
  velocity := 0
  position := 0
  id := 0
  color := 0
  flag := playerFlag
  radius := Cell.getRadius size
  mouseVector := 0
  combineTime := 0
  combineSet := true

theorem closeCell_size {size : ℝ} (h : 0 ≤ size) : (closeCell size).size = size := Cell.sqrt_size h

noncomputable def closeMatch : Encounter where
  a := closeCell 133.332
  b := closeCell 100
  solid_a := Cell.getRadius_pos (by norm_num)
  solid_b := Cell.getRadius_pos (by norm_num)

theorem closeMatch_contested : closeMatch.Contested := by
  refine ⟨?_, Or.inl ?_⟩
  · have hlength : (closeMatch.b.position - closeMatch.a.position).length = 0 := by
      simp [closeMatch, closeCell, Vec2.length]
    have hmin : 0 < min closeMatch.a.radius closeMatch.b.radius :=
      lt_min closeMatch.solid_a closeMatch.solid_b
    have hle₁ := min_le_left closeMatch.a.radius closeMatch.b.radius
    have hle₂ := min_le_right closeMatch.a.radius closeMatch.b.radius
    unfold Cell.Overlaps Cell.overlapOf
    rw [hlength, lt_div_iff₀ (by positivity)]
    linarith
  · have ha : closeMatch.a.size = 133.332 := closeCell_size (by norm_num)
    have hb : closeMatch.b.size = 100 := closeCell_size (by norm_num)
    unfold Encounter.Between
    rw [ha, hb]
    norm_num

/-- The bigger cell would eat the smaller one, which would only overlap with it. -/
theorem close_match_unfair : ¬ closeMatch.Fair := by
  rw [Encounter.fair_iff, not_not]
  exact closeMatch_contested

/-- The two cells are the only ones of two players. -/
noncomputable def closeDuel : Duel where
  game := { Game.empty (fun _ => 0) fun _ => 0 with
    allocated := 2
    heap := fun p => closeCell (if p = 0 then 133.332 else 100)
    players := [{ fourfold ℝ with cells := [0] }, { fourfold ℝ with wsi := 1, cells := [1] }] }
  one := { fourfold ℝ with cells := [0] }
  other := { fourfold ℝ with wsi := 1, cells := [1] }
  p := 0
  q := 1
  players := rfl
  one_cells := rfl
  other_cells := rfl
  distinct := zero_ne_one
  solid_p := Cell.getRadius_pos (by norm_num)
  solid_q := Cell.getRadius_pos (by norm_num)

theorem closeDuel_encounter : closeDuel.encounter = closeMatch := rfl

/-- The smaller one of them is eaten or not, as the order of the players has it. -/
theorem close_duel_turned : ¬ closeMatch.Fair ∧ ¬ closeDuel.SameOutcome := by
  obtain ⟨hfair, hsame⟩ := order_irrelevant closeMatch closeDuel
  rw [hfair, hsame, closeDuel_encounter, not_not]
  exact ⟨closeMatch_contested, closeMatch_contested⟩

end Agar
