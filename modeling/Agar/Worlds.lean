import Agar.Calm
import Agar.Packets

/-! Worlds for single runs: all foods lie in one place, all viruses in another one, and the players
join at the origin. -/

namespace Agar
open MovedVector Sys

/-- Two numbers `rand` returns for a position. -/
abbrev Draw := Fin (randMax + 1) × Fin (randMax + 1)

/-- `rand` puts all foods in one place and all viruses in another one; later it returns zero. -/
def placing (food virus : Draw) (n : ℕ) : Fin (randMax + 1) :=
  if n < 3 * maxFood then if n % 3 = 0 then food.1 else if n % 3 = 1 then food.2 else 0
  else if n < 3 * maxFood + 2 * maxVirus then if n % 2 = 0 then virus.1 else virus.2
  else 0

/-- The position `RandomPosition` makes of the two numbers. -/
noncomputable def spot (d : Draw) : Vec2 ℝ :=
  ⟨((d.1 : ℕ) % mapSize : ℕ), ((d.2 : ℕ) % mapSize : ℕ)⟩

theorem onMap_mod (m n : ℕ) : OnMap (⟨(m % mapSize : ℕ), (n % mapSize : ℕ)⟩ : Vec2 ℝ) := by
  have hbound : ∀ n : ℕ, (0 : ℝ) ≤ ((n % mapSize : ℕ) : ℝ) ∧
      ((n % mapSize : ℕ) : ℝ) ≤ (mapSize : ℝ) - 0.001 := by
    intro n
    have hlt : n % mapSize + 1 ≤ mapSize := Nat.mod_lt n (by decide)
    have hcast : ((n % mapSize : ℕ) : ℝ) + 1 ≤ (mapSize : ℝ) := by exact_mod_cast hlt
    exact ⟨Nat.cast_nonneg _, by linarith⟩
  exact ⟨(hbound m).1, (hbound m).2, (hbound n).1, (hbound n).2⟩

theorem onMap_zero : OnMap (0 : Vec2 ℝ) := by
  have hmap : (0 : ℝ) ≤ (mapSize : ℝ) - 0.001 := by norm_num [mapSize, numBlocks, blockSize]
  exact ⟨le_rfl, hmap, le_rfl, hmap⟩

theorem spot_onMap (d : Draw) : OnMap (spot d) := onMap_mod _ _

/-- The far corner of the map. -/
def corner : Draw := (15999, 15999)

theorem corner_far : 1100 < (spot corner).x := by
  show (1100 : ℝ) < ((15999 % mapSize : ℕ) : ℝ)
  norm_num [mapSize, numBlocks, blockSize]

namespace Game
variable {g : Game ℝ} {food virus : Draw}

/-- After `n` rounds of the food loop. -/
structure Sown (food virus : Draw) (n : ℕ) (g : Game ℝ) : Prop where
  rand : ∀ m, g.rand m = placing food virus (3 * n + m)
  static : ∀ b, ∀ s ∈ g.staticMap b, s < n ∧ (g.heap s).position = spot food ∧
    (g.heap s).radius = foodRadius
  first : 0 < n → 0 ∈ g.staticMap (indexFromCoord (spot food))
  dynamic : g.dynamicMap = []
  allocated : g.allocated = n

theorem addFood_sown {n : ℕ} (hn : n < maxFood) (h : Sown food virus n g) :
    Sown food virus (n + 1) g.addFood := by
  -- the state before `AddStatic`
  let g1 := (g.randomPosition.2.randomColor.2.newCell foodRadius g.randomPosition.1
    g.randomPosition.2.randomColor.1).2.setFlag g.allocated fun f => { f with isFood := true }
  have hg1 : g.addFood = g1.addStatic g.allocated := rfl
  have hx : g.rand 0 = food.1 := by
    rw [h.rand, placing, if_pos (by omega), if_pos (by omega)]
  have hy : g.rand 1 = food.2 := by
    rw [h.rand, placing, if_pos (by omega), if_neg (by omega), if_pos (by omega)]
  have hnew : (g1.heap n).position = spot food ∧ (g1.heap n).radius = foodRadius := by
    rw [← h.allocated]
    simp [g1, newCell, randomPosition, randomColor, nextRand, setFlag, setCell, hx, hy, spot]
  have hold : ∀ s, s < n → g1.heap s = g.heap s := fun s hs => by
    have hne : s ≠ g.allocated := h.allocated ▸ hs.ne
    simp [g1, newCell, randomPosition, randomColor, nextRand, setFlag, setCell, hne]
  have hstatic : ∀ b, ∀ s ∈ g1.staticMap b, s < n + 1 ∧ (g1.heap s).position = spot food ∧
      (g1.heap s).radius = foodRadius := by
    intro b s hs
    obtain ⟨hlt, hpos⟩ := h.static b s hs
    rw [hold s hlt]
    exact ⟨hlt.trans (Nat.lt_succ_self n), hpos⟩
  have hrand : ∀ m, g1.rand m = placing food virus (3 * (n + 1) + m) := by
    intro m
    show g.rand (m + 1 + 1 + 1) = _
    rw [h.rand]
    exact congrArg _ (by omega)
  have hallocated : g1.allocated = n + 1 := congrArg (· + 1) h.allocated
  have hblock : indexFromCoord (g1.heap g.allocated).position = indexFromCoord (spot food) := by
    rw [h.allocated, hnew.1]
  rw [hg1]
  unfold addStatic
  dsimp only
  rw [hblock]
  split_ifs with hany
  · refine ⟨hrand, hstatic, fun _ => ?_, h.dynamic, hallocated⟩
    -- a food is there already, so this one is not the first
    obtain ⟨q, hq, -⟩ := List.any_eq_true.mp hany
    exact h.first (Nat.zero_lt_of_lt (h.static _ q hq).1)
  · refine ⟨hrand, fun b s hs => ?_, fun _ => ?_, h.dynamic, hallocated⟩
    · dsimp only at hs ⊢
      split_ifs at hs with hb
      · rcases List.mem_append.mp hs with hs | hs
        · exact hstatic _ s hs
        · rw [List.mem_singleton.mp hs, h.allocated]
          exact ⟨Nat.lt_succ_self n, hnew⟩
      · exact hstatic b s hs
    · dsimp only
      rw [if_pos rfl]
      rcases Nat.eq_zero_or_pos n with hzero | hpos
      · rw [h.allocated, hzero]
        exact List.mem_append_right _ (List.mem_singleton_self 0)
      · exact List.mem_append_left _ (h.first hpos)

/-- The map at the start of a single run. -/
structure Placed (food virus : Draw) (g : Game ℝ) : Prop where
  rand : ∀ m, g.rand m = 0
  static : ∀ b, ∀ s ∈ g.staticMap b, s < maxFood ∧ (g.heap s).position = spot food ∧
    (g.heap s).radius = foodRadius
  first : 0 ∈ g.staticMap (indexFromCoord (spot food))
  dynamic : g.dynamicMap = List.range' maxFood maxVirus
  virus : ∀ d ∈ g.dynamicMap, (g.heap d).Resting ∧ (g.heap d).position = spot virus ∧
    (g.heap d).radius = virusMinRadius ∧ (g.heap d).flag = virusFlag

/-- After `n` rounds of the virus loop. -/
structure Strewn (food virus : Draw) (n : ℕ) (g : Game ℝ) : Prop where
  rand : ∀ m, g.rand m = placing food virus (3 * maxFood + 2 * n + m)
  static : ∀ b, ∀ s ∈ g.staticMap b, s < maxFood ∧ (g.heap s).position = spot food ∧
    (g.heap s).radius = foodRadius
  first : 0 ∈ g.staticMap (indexFromCoord (spot food))
  dynamic : g.dynamicMap = List.range' maxFood n
  virus : ∀ d ∈ g.dynamicMap, (g.heap d).Resting ∧ (g.heap d).position = spot virus ∧
    (g.heap d).radius = virusMinRadius ∧ (g.heap d).flag = virusFlag
  allocated : g.allocated = maxFood + n

theorem addVirus_strewn {n : ℕ} (hn : n < maxVirus) (h : Strewn food virus n g) :
    Strewn food virus (n + 1) g.addVirus := by
  have hfoods : maxFood = 1000 := rfl
  have hx : g.rand 0 = virus.1 := by
    rw [h.rand, placing, if_neg (by omega), if_pos (by omega), if_pos (by omega)]
  have hy : g.rand 1 = virus.2 := by
    rw [h.rand, placing, if_neg (by omega), if_pos (by omega), if_neg (by omega)]
  have hposition : (g.addVirus.heap g.allocated).position = spot virus := by
    simp [addVirus, newCell, randomPosition, nextRand, setFlag, setCell, addDynamic, hx, hy, spot]
  have hresting : (g.addVirus.heap g.allocated).Resting := by
    refine ⟨?_, ?_, ?_, hposition ▸ spot_onMap virus⟩
    all_goals simp [addVirus, newCell, randomPosition, nextRand, setFlag, setCell, addDynamic]
  have hold : ∀ q, q < maxFood + n → g.addVirus.heap q = g.heap q := fun q hq => by
    have hne : q ≠ g.allocated := h.allocated ▸ hq.ne
    simp [addVirus, newCell, randomPosition, nextRand, setFlag, setCell, addDynamic, hne]
  obtain ⟨-, -, hflag, hradius⟩ := addVirus_eq g
  refine ⟨fun m => ?_, fun b s hs => ?_, h.first, ?_, fun d hd => ?_, ?_⟩
  · show g.rand (m + 1 + 1) = _
    rw [h.rand]
    exact congrArg _ (by omega)
  · obtain ⟨hlt, hpos⟩ := h.static b s hs
    rw [hold s (hlt.trans_le (Nat.le_add_right maxFood n))]
    exact ⟨hlt, hpos⟩
  · show g.dynamicMap ++ [g.allocated] = _
    rw [h.dynamic, h.allocated, List.range'_1_concat]
  · have hd' : d ∈ g.dynamicMap ++ [g.allocated] := hd
    rcases List.mem_append.mp hd' with hd' | hd'
    · have hlt : d < maxFood + n := by
        rw [h.dynamic] at hd'
        exact (List.mem_range'_1.mp hd').2
      rw [hold d hlt]
      exact h.virus d hd'
    · rw [List.mem_singleton.mp hd']
      exact ⟨hresting, hposition, hradius, hflag⟩
  · show g.allocated + 1 = _
    rw [h.allocated]
    omega

theorem mapInit_placed (food virus : Draw) (stale : CellPtr → ℝ) :
    Placed food virus (empty (placing food virus) stale).mapInit ∧
      (empty (placing food virus) stale).mapInit.allocated = maxFood + maxVirus := by
  have hempty : Sown food virus 0 (empty (placing food virus) stale) :=
    ⟨fun m => by rw [Nat.mul_zero, Nat.zero_add]; rfl, fun _ _ h => (by cases h),
      fun h => absurd h (lt_irrefl 0), rfl, rfl⟩
  have hfood : ∀ n ≤ maxFood,
      Sown food virus n (addFood^[n] (empty (placing food virus) stale)) := by
    intro n hn
    induction n with
    | zero => exact hempty
    | succ n ih =>
      rw [Function.iterate_succ_apply']
      exact addFood_sown hn (ih (by omega))
  have hsown := hfood maxFood le_rfl
  have hvirus : ∀ g : Game ℝ, Sown food virus maxFood g → ∀ n ≤ maxVirus,
      Strewn food virus n (addVirus^[n] g) := by
    intro g hg n hn
    induction n with
    | zero =>
      refine ⟨hg.rand, hg.static, hg.first (by decide), hg.dynamic, fun d hd => ?_, hg.allocated⟩
      have hnone : d ∈ g.dynamicMap := hd
      rw [hg.dynamic] at hnone
      cases hnone
    | succ n ih =>
      rw [Function.iterate_succ_apply']
      exact addVirus_strewn hn (ih (by omega))
  have hstrewn := hvirus _ hsown maxVirus le_rfl
  refine ⟨⟨fun m => ?_, hstrewn.static, hstrewn.first, hstrewn.dynamic, hstrewn.virus⟩,
    hstrewn.allocated⟩
  have hrand := hstrewn.rand m
  rw [placing, if_neg (by omega), if_neg (by omega)] at hrand
  exact hrand

/-- The cells of the map are out of reach of cells at the origin. -/
structure Remote (g : Game ℝ) : Prop where
  static : ∀ b, ∀ s ∈ g.staticMap b, 1100 < (g.heap s).position.x ∧
    (g.heap s).radius = foodRadius
  dynamic : ∀ d ∈ g.dynamicMap, (g.heap d).Resting ∧ 1100 < (g.heap d).position.x ∧
    (g.heap d).radius = virusMinRadius ∧ (g.heap d).flag = virusFlag

theorem Remote.same {g' : Game ℝ} (h : Remote g) (hs : Same g g') : Remote g' := by
  refine ⟨fun b q hq => ?_, fun d hd => ?_⟩
  · rw [hs.staticMap] at hq
    rw [hs.heap]
    exact h.static b q hq
  · rw [hs.dynamicMap] at hd
    rw [hs.heap]
    exact h.dynamic d hd

/-- A cell rests at the origin. -/
structure Central (c : Cell ℝ) : Prop where
  resting : c.Resting
  origin : c.position = 0
  positive : 0 < c.radius
  small : c.radius ≤ 1000

theorem collide_remote {c s : Cell ℝ} (horigin : c.position = 0) (hsmall : c.radius ≤ 1000)
    (hs : 1100 < s.position.x) (hr : s.radius ≤ 100) : c.collide s = .none := by
  refine Cell.collide_far ?_
  have hx := (s.position - c.position).x_le_length
  rw [horigin] at hx ⊢
  have hx' : s.position.x ≤ (s.position - 0).length := by
    rwa [Vec2.sub_x, Vec2.zero_x, sub_zero] at hx
  linarith

theorem Central.collide_far {c s : Cell ℝ} (h : Central c) (hs : 1100 < s.position.x)
    (hr : s.radius ≤ 100) : c.collide s = .none :=
  collide_remote h.origin h.small hs hr

theorem Remote.spares (h : Remote g) {c : CellPtr} (hc : Central (g.heap c)) : g.Spares c := by
  refine ⟨fun b s hs => ?_, fun d hd => ?_⟩
  · obtain ⟨hx, hr⟩ := h.static b s hs
    rw [hc.collide_far hx (by rw [hr]; norm_num [foodRadius])]
    exact Collision.noConfusion
  · obtain ⟨-, hx, hr, hflag⟩ := h.dynamic d hd
    rw [hc.collide_far hx (by rw [hr]; norm_num [virusMinRadius]), hflag]
    exact ⟨Collision.noConfusion, Or.inr rfl⟩

theorem Remote.of_central {g' : Game ℝ} {c : CellPtr} (h : Remote g) (hc : Central (g.heap c))
    (hstatic : g'.staticMap = g.staticMap) (hdynamic : g'.dynamicMap = g.dynamicMap)
    (hheap : ∀ q, q ≠ c → g'.heap q = g.heap q) : Remote g' := by
  have hfar : ∀ q, 1100 < (g.heap q).position.x → g'.heap q = g.heap q := by
    intro q hq
    refine hheap q fun hqc => ?_
    rw [hqc, hc.origin, Vec2.zero_x] at hq
    linarith
  refine ⟨fun b q hq => ?_, fun d hd => ?_⟩
  · rw [hstatic] at hq
    have hold := h.static b q hq
    rwa [hfar q hold.1]
  · rw [hdynamic] at hd
    have hold := h.dynamic d hd
    rwa [hfar d hold.2.1]

/-- All players have their cells at the origin, no two cells of one player may combine yet, and no
cell is big enough to eat one of another player. -/
structure Huddle (g : Game ℝ) (clock : ℝ) : Prop where
  remote : Remote g
  central : ∀ i, ∀ c ∈ g.cellsOf i, Central (g.heap c)
  waits : ∀ (i m n : ℕ) (c o : CellPtr), m < n → (g.cellsOf i)[m]? = some c →
    (g.cellsOf i)[n]? = some o → clock ≤ (g.heap c).combineTime ∨ clock ≤ (g.heap o).combineTime
  level : ∀ i j : ℕ, i ≠ j → ∀ c ∈ g.cellsOf i, ∀ o ∈ g.cellsOf j,
    (g.heap c).radius = (g.heap o).radius

theorem Huddle.calm {clock : ℝ} (h : Huddle g clock) : Calm g clock := by
  refine ⟨⟨fun i c hc => ?_, fun i m n c o hmn hc ho => ?_, fun i j hij c hc o ho => ?_⟩,
    fun d hd => (h.remote.dynamic d hd).1⟩
  · have hspares := h.remote.spares (h.central i c hc)
    exact ⟨hspares.static, hspares.dynamic⟩
  · refine ⟨?_, Or.inr ⟨?_, ?_⟩⟩
    · rintro ⟨hready, hready'⟩
      have hlt : (g.heap c).combineTime < clock := of_decide_eq_true hready
      have hlt' : (g.heap o).combineTime < clock := of_decide_eq_true hready'
      rcases h.waits i m n c o hmn hc ho with hle | hle
      · exact absurd hlt (not_lt.mpr hle)
      · exact absurd hlt' (not_lt.mpr hle)
    · exact (h.central i c (List.mem_of_getElem? hc)).origin.trans
        (h.central i o (List.mem_of_getElem? ho)).origin.symm
    · exact (h.central i c (List.mem_of_getElem? hc)).resting.onMap
  · have hcell := h.central i c hc
    have hother := h.central j o ho
    have hone : (g.heap c).size / (g.heap o).size = 1 := by
      have hpos := Cell.size_pos hother.positive
      unfold Cell.size at hpos ⊢
      rw [h.level i j hij c hc o ho]
      exact div_self hpos.ne'
    have hcollide := Cell.collide_same hcell.positive hother.positive
      (hcell.origin.trans hother.origin.symm)
    rw [hone, if_neg (by norm_num), if_neg (by norm_num)] at hcollide
    show (g.heap c).collide (g.heap o) ≠ _ ∧ (g.heap c).collide (g.heap o) ≠ _
    rw [hcollide]
    exact ⟨Collision.noConfusion, Collision.noConfusion⟩

end Game

theorem trunc_natCast (n : ℕ) : trunc (n : ℝ) = n := by
  unfold trunc
  rw [if_pos (Nat.cast_nonneg n), Int.floor_natCast]

theorem Player.updateView_first (g : Game ℝ) (p : Player ℝ) {c : CellPtr} (hcells : p.cells = [c])
    (hcamera : p.camera = 0) (horigin : (g.heap c).position = 0)
    (hradius : (g.heap c).radius = 1000) :
    p.updateView g = { p with
      totalRadius := 1000, topLeft := ⟨0, 0⟩, bottomRight := ⟨128, 80⟩,
      blocks := viewBlocks ⟨0, 0⟩ ⟨128, 80⟩ } := by
  have hcamera' : (p.calculateCamera g) = { p with totalRadius := 1000 } := by
    cases p
    dsimp only at hcells hcamera
    subst hcells hcamera
    unfold calculateCamera
    simp [horigin, hradius, Vec2.zero_mul_eq]
  unfold updateView
  rw [hcamera']
  have hleft : indexFromCoord ((0 : Vec2 ℝ) - (⟨8000 * 1.6, 8000⟩ : Vec2 ℝ)) = ⟨0, 0⟩ := by
    unfold indexFromCoord
    norm_num [trunc, mapSize, numBlocks, blockSize]
  have hright : indexFromCoord ((0 : Vec2 ℝ) + (⟨8000 * 1.6, 8000⟩ : Vec2 ℝ)) = ⟨128, 80⟩ := by
    have hx : trunc (12800 : ℝ) = 12800 := by exact_mod_cast trunc_natCast 12800
    have hy : trunc (8000 : ℝ) = 8000 := by exact_mod_cast trunc_natCast 8000
    unfold indexFromCoord
    norm_num [mapSize, numBlocks, blockSize]
    rw [hx, hy]
    decide
  have hview : ((4 : ℝ) + ((1 : ℕ) : ℝ) * 3) * (1000 / ((1 : ℕ) : ℝ)) + 1000 = 8000 := by
    norm_num
  dsimp only
  rw [hcells, hcamera, List.length_singleton, hview]
  have hsighted : ¬ decide ((1000 : ℝ) = 0) = true := by norm_num
  rw [if_neg hsighted, if_neg hsighted, hleft, hright]

/-- A cell that has just been created for a player. -/
structure Cell.Fresh (c : Cell ℝ) : Prop where
  central : Game.Central c
  still : c.mouseVector = 0
  radius : c.radius = 1000
  combine : c.combineSet = false

/-- The player looks at the origin with its first cell and has not asked for anything. -/
structure Player.Calm (p : Player ℝ) : Prop where
  doSplit : p.doSplit = false
  doFeed : p.doFeed = false
  camera : p.camera = 0
  topLeft : p.topLeft = ⟨0, 0⟩
  bottomRight : p.bottomRight = ⟨128, 80⟩
  blocks : p.blocks = viewBlocks ⟨0, 0⟩ ⟨128, 80⟩

/-- Nothing has happened to the player since it joined. -/
structure Player.Fresh (p : Player ℝ) : Prop extends p.Calm where
  message : p.wsMessage = .new
  history : p.cellHistory = []

namespace Game
variable {food virus : Draw} {g : Game ℝ}

/-- Players have joined, one for each connection below `n`, and nothing else has happened. -/
structure Joined (g : Game ℝ) (food virus : Draw) (n : ℕ) : Prop where
  placed : Placed food virus g
  allocated : g.allocated = maxFood + maxVirus + n
  wsis : g.players.map Player.wsi = List.range n
  cells : g.players.map Player.cells = (List.range n).map fun i => [maxFood + maxVirus + i]
  cell : ∀ i < n, (g.heap (maxFood + maxVirus + i)).Fresh
  fresh : ∀ p ∈ g.players, p.Fresh

theorem newPlayer_fresh (hrand : ∀ m, g.rand m = 0) (w : Wsi) :
    ((g.newPlayer w).2.heap g.allocated).Fresh ∧ (g.newPlayer w).1.Fresh := by
  have hx := hrand 0
  have hy := hrand 1
  have hposition : ((g.newPlayer w).2.heap g.allocated).position = 0 := by
    simp [newPlayer, newPlayerCell, newCell, randomPosition, randomColor, nextRand, setCell, hx, hy,
      Vec2.ext_iff]
  have hradius := (newPlayer_spec g w).2.2.2.2
  have hrest : ((g.newPlayer w).2.heap g.allocated).Resting := by
    refine ⟨?_, ?_, ?_, ?_⟩
    · simp [newPlayer, newPlayerCell, newCell, randomPosition, randomColor, nextRand, setCell]
    · simp [newPlayer, newPlayerCell, newCell, randomPosition, randomColor, nextRand, setCell]
    · simp [newPlayer, newPlayerCell, newCell, randomPosition, randomColor, nextRand, setCell]
    · rw [hposition]
      exact onMap_zero
  refine ⟨⟨⟨hrest, hposition, ?_, ?_⟩, ?_, hradius, ?_⟩, ?_⟩
  · rw [hradius]
    norm_num
  · rw [hradius]
  · simp [newPlayer, newPlayerCell, newCell, randomPosition, randomColor, nextRand, setCell]
  · simp [newPlayer, newPlayerCell, newCell, randomPosition, randomColor, nextRand, setCell]
  · obtain ⟨p, hview, hcells, hcamera, hsplit, hfeed, hmessage, hhistory⟩ : ∃ p : Player ℝ,
        (g.newPlayer w).1 = p.updateView (g.newPlayer w).2 ∧ p.cells = [g.allocated] ∧
        p.camera = 0 ∧ p.doSplit = false ∧ p.doFeed = false ∧ p.wsMessage = .new ∧
        p.cellHistory = [] := ⟨_, rfl, rfl, rfl, rfl, rfl, rfl, rfl⟩
    rw [hview, Player.updateView_first _ p hcells hcamera hposition hradius]
    exact ⟨⟨hsplit, hfeed, hcamera, rfl, rfl, rfl⟩, hmessage, hhistory⟩

theorem moveConstruct_fresh {p : Player ℝ} (h : p.Fresh) : p.moveConstruct.Fresh :=
  ⟨⟨rfl, rfl, h.camera, h.topLeft, h.bottomRight, h.blocks⟩, h.message, h.history⟩

theorem emplaceBack_fresh {ps : List (Player ℝ)} {p : Player ℝ} (capacity : ℕ)
    (hps : ∀ q ∈ ps, q.Fresh) (hp : p.Fresh) :
    ∀ q ∈ emplaceBack Player.moves capacity ps p, q.Fresh := by
  have hnew : (Player.moves.construct p : Player ℝ).Fresh := moveConstruct_fresh hp
  intro q hq
  unfold emplaceBack at hq
  split_ifs at hq
  · rcases List.mem_append.mp hq with hq | hq
    · obtain ⟨q', hq', rfl⟩ := List.mem_map.mp hq
      exact moveConstruct_fresh (hps q' hq')
    · rw [List.mem_singleton.mp hq]
      exact hnew
  · rcases List.mem_append.mp hq with hq | hq
    · exact hps q hq
    · rw [List.mem_singleton.mp hq]
      exact hnew

theorem mapInit_joined (food virus : Draw) (stale : CellPtr → ℝ) :
    (empty (placing food virus) stale).mapInit.Joined food virus 0 := by
  obtain ⟨hplaced, hallocated⟩ := mapInit_placed food virus stale
  have hnone := (mapInit_started (placing food virus) stale).players
  exact
    { placed := hplaced
      allocated := hallocated
      wsis := by rw [hnone]; rfl
      cells := by rw [hnone]; rfl
      cell := fun i hi => absurd hi (Nat.not_lt_zero i)
      fresh := fun p hp => by rw [hnone] at hp; cases hp }

theorem Joined.join {n : ℕ} {s : Sys ℝ} (h : s.game.Joined food virus n) (grown : ℕ) :
    (s.join n grown).game.Joined food virus (n + 1) := by
  obtain ⟨-, hheap, -⟩ := newPlayer_spec s.game n
  obtain ⟨hcell, hplayer⟩ := newPlayer_fresh h.placed.rand n
  have hfoods : maxFood = 1000 := rfl
  have hold : ∀ q : ℕ, q < maxFood + maxVirus + n →
      (s.join n grown).game.heap q = s.game.heap q := fun q hq => by
    refine hheap q ?_
    rw [h.allocated]
    exact hq.ne
  have hplayers := join_players s n grown
  refine ⟨⟨fun m => h.placed.rand (m + 3), fun b q hq => ?_, ?_, h.placed.dynamic, fun d hd => ?_⟩,
    ?_, ?_, ?_, fun i hi => ?_, ?_⟩
  · obtain ⟨hlt, hq'⟩ := h.placed.static b q hq
    rw [hold q (Nat.lt_add_right n (Nat.lt_add_right maxVirus hlt))]
    exact ⟨hlt, hq'⟩
  · exact h.placed.first
  · have hd' : d ∈ s.game.dynamicMap := hd
    have hlt : d < maxFood + maxVirus := by
      rw [h.placed.dynamic] at hd'
      exact (List.mem_range'_1.mp hd').2
    rw [hold d (Nat.lt_add_right n hlt)]
    exact h.placed.virus d hd
  · show s.game.allocated + 1 = _
    rw [h.allocated]
    rfl
  · rw [hplayers, emplaceBack_carried wsi_carried, h.wsis, List.range_succ]
    rfl
  · rw [hplayers, emplaceBack_carried moves_carried, h.cells, List.range_succ, List.map_append]
    show _ ++ [[s.game.allocated]] = _
    rw [h.allocated]
    rfl
  · rcases Nat.lt_or_eq_of_le (Nat.lt_succ_iff.mp hi) with hlt | rfl
    · rw [hold _ (by omega)]
      exact h.cell i hlt
    · rw [← h.allocated]
      exact hcell
  · rw [hplayers]
    exact emplaceBack_fresh _ h.fresh hplayer

theorem Joined.writeable {n : ℕ} {s : Sys ℝ} (h : s.game.Joined food virus n) (clock : ℝ)
    (accepts : ℕ → Bool) (grown : ℕ) : s.writeable n clock accepts grown = s.join n grown := by
  refine writeable_of_new (fun p hp hn => ?_) (fun p hp => ?_) clock accepts grown
  · have hmem : n ∈ s.game.players.map Player.wsi := hn ▸ List.mem_map_of_mem hp
    rw [h.wsis] at hmem
    exact lt_irrefl n (List.mem_range.mp hmem)
  · rw [(h.fresh p hp).message]
    rfl

theorem Joined.cellsOf {n : ℕ} (h : g.Joined food virus n) (i : ℕ) :
    g.cellsOf i = if i < n then [maxFood + maxVirus + i] else [] := by
  rw [cellsOf_eq_map, h.cells]
  split_ifs with hi
  · simp [hi]
  · simp [hi]

theorem Joined.connected {n : ℕ} (h : g.Joined food virus n) :
    ∀ p ∈ g.players, p.wsMessage.connected = true := by
  intro p hp
  rw [(h.fresh p hp).message]
  rfl

theorem Joined.central {n : ℕ} (h : g.Joined food virus n) :
    ∀ c ∈ g.players.flatMap Player.cells, (g.heap c).Fresh := by
  intro c hc
  rw [List.flatMap_def, h.cells] at hc
  obtain ⟨l, hl, hcl⟩ := List.mem_flatten.mp hc
  obtain ⟨i, hi, rfl⟩ := List.mem_map.mp hl
  rw [List.mem_singleton.mp hcl]
  exact h.cell i (List.mem_range.mp hi)

theorem Joined.remote {n : ℕ} (h : g.Joined food virus n) (hfood : 1100 < (spot food).x)
    (hvirus : 1100 < (spot virus).x) : Remote g := by
  refine ⟨fun b s hs => ?_, fun d hd => ?_⟩
  · obtain ⟨-, hposition, hradius⟩ := h.placed.static b s hs
    exact ⟨hposition ▸ hfood, hradius⟩
  · obtain ⟨hrest, hposition, hradius, hflag⟩ := h.placed.virus d hd
    exact ⟨hrest, hposition ▸ hvirus, hradius, hflag⟩

theorem Joined.huddle {n : ℕ} (h : g.Joined food virus n) (hfood : 1100 < (spot food).x)
    (hvirus : 1100 < (spot virus).x) (clock : ℝ) : Huddle g clock := by
  have hcell : ∀ i, ∀ c ∈ g.cellsOf i, (g.heap c).Fresh := by
    intro i c hc
    rw [h.cellsOf] at hc
    split_ifs at hc with hi
    · rw [List.mem_singleton.mp hc]
      exact h.cell i hi
    · cases hc
  refine ⟨h.remote hfood hvirus, fun i c hc => (hcell i c hc).central,
    fun i m k c o hmk hc ho => ?_, fun i j _ c hc o ho => ?_⟩
  · -- a player with one cell has no second one
    have hk := getElem?_lt ho
    rw [h.cellsOf] at hk
    split_ifs at hk
    · rw [List.length_singleton] at hk
      omega
    · exact absurd hk (Nat.not_lt_zero k)
  · rw [(hcell i c hc).radius, (hcell j o ho).radius]

theorem updated_calm (hw : WellFormed g) {i : ℕ} {p : Player ℝ} (hp : g.players[i]? = some p)
    (hcalm : p.Calm) {c : CellPtr} (hcells : p.cells = [c]) (hc : (g.heap c).Fresh) :
    (g.updatePlayer i p).commanded = g ∧ (g.updatePlayer i p).start.player = p ∧
    (g.updatePlayer i p).view.topLeft = p.topLeft ∧
    (g.updatePlayer i p).view.bottomRight = p.bottomRight ∧
    (g.updatePlayer i p).finished.player.Calm ∧
    (g.updatePlayer i p).finished.player.cells = [c] := by
  have hcommands : g.commands i p = g := commands_of_none g i hcalm.doSplit hcalm.doFeed
  have hcommanded : (g.updatePlayer i p).commanded = g := hcommands
  have hstart : (g.updatePlayer i p).start.player = p := by
    show (g.commands i p).players.getD i p = p
    rw [hcommands, List.getD_eq_getElem?_getD, hp]
    rfl
  have hview : (g.updatePlayer i p).view = p.updateView g := by
    unfold UpdateRecord.view
    rw [hstart, hcommanded]
  rw [Player.updateView_first g p hcells hcalm.camera hc.central.origin hc.radius] at hview
  obtain ⟨ms, hext⟩ := parsed_spec g i p
  have hparsed := hext.player
  rw [hstart] at hparsed
  have hfinished := finished_eq g i p
  rw [hcommands, Player.updateView_first g (g.updatePlayer i p).parsed.player
    (by rw [hparsed]; exact hcells) (by rw [hparsed]; exact hcalm.camera) hc.central.origin
    hc.radius] at hfinished
  have hplayer := finished_player hw hp
  refine ⟨hcommanded, hstart, ?_, ?_, ⟨hplayer.2.2.1, hplayer.2.2.2.1, ?_, ?_, ?_, ?_⟩, ?_⟩
  · rw [hview, hcalm.topLeft]
  · rw [hview, hcalm.bottomRight]
  · rw [hfinished]
    show (g.updatePlayer i p).parsed.player.camera = 0
    rw [hparsed]
    exact hcalm.camera
  · rw [hfinished]
    rfl
  · rw [hfinished]
    rfl
  · rw [hfinished]
    rfl
  · rw [hplayer.2.1, hcommands]
    simp [Game.cellsOf, hp, hcells]

end Game

structure Sys.Reached (s : Sys ℝ) : Prop where
  invariant : Invariant .idle s
  watch : Watch .idle s

namespace Sys

theorem init_reached (rand : ℕ → Fin (randMax + 1)) (stale : CellPtr → ℝ) :
    (Sys.init rand stale).Reached := ⟨init_invariant rand stale, init_watch rand stale⟩

theorem Reached.step {s : Sys ℝ} (h : s.Reached) (e : Event ℝ) : (s.step e).Reached := by
  obtain ⟨hi, hwatch⟩ := Moves.keeps (P := Watch) (fun a s b s' hi hm => hm.watch hi)
    (step_moves h.invariant e) h.invariant h.watch
  exact ⟨hi, hwatch⟩

theorem Reached.digested {s : Sys ℝ} (h : s.Reached) (clock : ℝ) {i : ℕ} {p : Player ℝ}
    (hp : (s.tickMoved clock).game.players[i]? = some p) :
    p.sight.Sound (s.tickMoved clock).game ∧
    ∃ ds, Digested ((s.tickMoved clock).game.updatePlayer i p) ds := by
  obtain ⟨hi, hwatch⟩ := Moves.keeps (P := Watch) (fun a s b s' hi hm => hm.watch hi)
    (tickMoved_moves s clock) h.invariant h.watch
  have hsound := hwatch.sound _ (List.mem_of_getElem? (sights_getElem? hp))
  exact ⟨hsound, Game.digested hi rfl hp hsound.nodup⟩

/-- The first cell of the first player. -/
def firstCell : CellPtr := maxFood + maxVirus

/-- One player is there, with its first cell at the origin. -/
structure Solo (s : Sys ℝ) (p : Player ℝ) : Prop where
  remote : s.game.Remote
  players : s.game.players = [p]
  cells : p.cells = [firstCell]
  central : Game.Central (s.game.heap firstCell)
  connected : p.wsMessage.connected = true

theorem Solo.cellsOf {s : Sys ℝ} {p : Player ℝ} (h : Solo s p) {i : ℕ} {c : CellPtr}
    (hc : c ∈ s.game.cellsOf i) : i = 0 ∧ c = firstCell := by
  unfold Game.cellsOf at hc
  rw [h.players] at hc
  rcases i with - | i
  · refine ⟨rfl, ?_⟩
    have hc' : c ∈ p.cells := hc
    rw [h.cells] at hc'
    exact List.mem_singleton.mp hc'
  · simp at hc

theorem Solo.huddle {s : Sys ℝ} {p : Player ℝ} (h : Solo s p) (clock : ℝ) :
    s.game.Huddle clock := by
  refine ⟨h.remote, fun i c hc => ?_, fun i m n c o hmn hc ho => ?_, fun i j hij c hc o ho => ?_⟩
  · rw [(h.cellsOf hc).2]
    exact h.central
  · -- there is no second cell
    have hi := (h.cellsOf (List.mem_of_getElem? ho)).1
    have hlen := Game.getElem?_lt ho
    rw [hi] at hlen
    simp [Game.cellsOf, h.players, h.cells] at hlen
    omega
  · exact absurd ((h.cellsOf hc).1.trans (h.cellsOf ho).1.symm) hij

theorem Solo.allConnected {s : Sys ℝ} {p : Player ℝ} (h : Solo s p) :
    ∀ q ∈ s.game.players, q.wsMessage.connected = true := by
  rw [h.players]
  exact fun q hq => List.mem_singleton.mp hq ▸ h.connected

theorem Solo.own {s : Sys ℝ} {p : Player ℝ} (h : Solo s p) :
    s.game.players.flatMap Player.cells = [firstCell] := by
  rw [h.players, List.flatMap_singleton, h.cells]

theorem Solo.told {s : Sys ℝ} {p : Player ℝ} (h : Solo s p) (clock : ℝ) :
    Game.Told (firstCell :: s.game.dynamicMap)
      ((s.game.beginTick clock).setCell firstCell (Game.pulled (s.game.heap firstCell)))
      (s.tickMoved clock).game :=
  tickMoved_pulled (h.huddle clock).calm h.allConnected h.own h.central.resting

theorem Solo.receive {s : Sys ℝ} {p : Player ℝ} (h : Solo s p) (packet : List Byte)
    (beyond : ℕ → Byte) (hlong : packet.head? = some msgMouse → 5 ≤ packet.length) :
    Solo (s.receive p.wsi packet beyond) (p.received p.wsi packet) ∧
    (s.receive p.wsi packet beyond).game.heap firstCell =
      if packet.head? = some msgMouse then
        Game.look (s.game.heap firstCell) (mouseAt packet fun _ => 0)
      else s.game.heap firstCell := by
  have hgame := receive_handled s p.wsi packet beyond fun hr =>
    absurd (hlong hr.1.1) (not_le.mpr hr.1.2)
  have hheap : (s.game.handled p.wsi packet).heap firstCell =
      if packet.head? = some msgMouse then
        Game.look (s.game.heap firstCell) (mouseAt packet fun _ => 0)
      else s.game.heap firstCell := by
    unfold Game.handled
    by_cases hmouse : packet.head? = some msgMouse
    · simp [hmouse, hlong hmouse, Game.turned, h.players, h.cells]
    · simp [hmouse]
  have hothers : ∀ q, q ≠ firstCell → (s.game.handled p.wsi packet).heap q = s.game.heap q := by
    intro q hq
    unfold Game.handled
    dsimp only
    split_ifs
    · simp [Game.turned, h.players, h.cells, hq]
    · rfl
  rw [hgame]
  refine ⟨⟨?_, ?_, ?_, ?_, ?_⟩, hheap⟩
  · rw [hgame]
    exact h.remote.of_central h.central rfl rfl hothers
  · rw [hgame]
    show s.game.players.map (Player.received p.wsi packet) = _
    rw [h.players]
    rfl
  · unfold Player.received
    split_ifs <;> exact h.cells
  · rw [hgame, hheap]
    split_ifs
    · have hcentral := h.central
      exact ⟨⟨hcentral.resting.force, hcentral.resting.acceleration, hcentral.resting.velocity,
        hcentral.resting.onMap⟩, hcentral.origin, hcentral.positive, hcentral.small⟩
    · exact h.central
  · unfold Player.received
    split_ifs <;> exact h.connected

/-- One player is there, and nothing has happened to its cell. -/
structure Lone (s : Sys ℝ) (p : Player ℝ) : Prop where
  reached : s.Reached
  remote : s.game.Remote
  players : s.game.players = [p]
  calm : p.Calm
  cells : p.cells = [firstCell]
  cell : (s.game.heap firstCell).Fresh

theorem Lone.solo {s : Sys ℝ} {p : Player ℝ} (h : Lone s p)
    (hconnected : p.wsMessage.connected = true) : Solo s p :=
  ⟨h.remote, h.players, h.cells, h.cell.central, hconnected⟩

theorem Lone.still {s : Sys ℝ} {p : Player ℝ} (h : Lone s p) :
    ∀ c ∈ s.game.players.flatMap Player.cells,
      (s.game.heap c).Resting ∧ (s.game.heap c).mouseVector = 0 := by
  rw [h.players, List.flatMap_singleton, h.cells]
  exact fun c hc => List.mem_singleton.mp hc ▸ ⟨h.cell.central.resting, h.cell.still⟩

theorem Lone.told {s : Sys ℝ} {p : Player ℝ} (h : Lone s p)
    (hconnected : p.wsMessage.connected = true) (clock : ℝ) :
    Game.Told (firstCell :: s.game.dynamicMap) (s.game.beginTick clock)
      (s.tickMoved clock).game := by
  have hsolo := h.solo hconnected
  have htold := tickMoved_told (hsolo.huddle clock).calm hsolo.allConnected h.still
  rwa [hsolo.own] at htold

theorem Lone.same {s : Sys ℝ} {p : Player ℝ} (h : Lone s p)
    (hconnected : p.wsMessage.connected = true) (clock : ℝ) :
    Game.Same s.game (s.tickMoved clock).game :=
  (Game.beginTick_same s.game clock).trans (h.told hconnected clock).same

theorem Lone.moved {s : Sys ℝ} {p : Player ℝ} (h : Lone s p)
    (hconnected : p.wsMessage.connected = true) (clock : ℝ) :
    (s.tickMoved clock).game.players = [p] := by
  obtain ⟨cs, hcs⟩ := h.told hconnected clock
  rw [hcs]
  exact h.players

/-- The player commands nothing and sees what it saw. -/
theorem Lone.updated {s : Sys ℝ} {p : Player ℝ} (h : Lone s p)
    (hconnected : p.wsMessage.connected = true) (clock : ℝ) :
    ((s.tickMoved clock).game.updatePlayer 0 p).commanded = (s.tickMoved clock).game ∧
    ((s.tickMoved clock).game.updatePlayer 0 p).view.topLeft = p.topLeft ∧
    ((s.tickMoved clock).game.updatePlayer 0 p).view.bottomRight = p.bottomRight ∧
    ((s.tickMoved clock).game.updatePlayer 0 p).finished.player.Calm ∧
    ((s.tickMoved clock).game.updatePlayer 0 p).finished.player.cells = [firstCell] := by
  have hi : Invariant (.updating 0) (s.tickMoved clock) :=
    Moves.invariant (tickMoved_moves s clock) h.reached.invariant
  have hp : (s.tickMoved clock).game.players[0]? = some p := by
    rw [h.moved hconnected clock]
    rfl
  have hcell : ((s.tickMoved clock).game.heap firstCell).Fresh := by
    rw [(h.same hconnected clock).heap]
    exact h.cell
  obtain ⟨hcommanded, -, hview⟩ := Game.updated_calm hi.wellFormed hp h.calm h.cells hcell
  exact ⟨hcommanded, hview⟩

theorem Lone.tick {s : Sys ℝ} {p : Player ℝ} (h : Lone s p)
    (hconnected : p.wsMessage.connected = true) (clock : ℝ) :
    (s.tickMoved clock).game.players = [p] ∧ Game.Same s.game (s.step (.tick clock)).game ∧
    Lone (s.step (.tick clock))
      ((s.tickMoved clock).game.updatePlayer 0 p).finished.player := by
  have hplayers := h.moved hconnected clock
  obtain ⟨hcommanded, -, -, hcalm, hcells⟩ := h.updated hconnected clock
  have hsolo := h.solo hconnected
  obtain ⟨hsame, -⟩ := tick_same h.reached.invariant (hsolo.huddle clock).calm
    hsolo.allConnected h.still (by
      unfold Idle
      rw [h.players]
      exact fun q hq => List.mem_singleton.mp hq ▸ ⟨h.calm.doSplit, h.calm.doFeed⟩)
  have hafter : (s.tick clock).game.players =
      [((s.tickMoved clock).game.updatePlayer 0 p).finished.player] := by
    have hevents : ((s.tickMoved clock).game.updatePlayer 0 p).after.cellEvents =
        { move := firstCell :: s.game.dynamicMap } := by
      unfold UpdateRecord.after
      rw [hcommanded]
      obtain ⟨cs, hcs⟩ := h.told hconnected clock
      show (s.tickMoved clock).game.cellEvents = _
      rw [hcs]
      rfl
    rw [(tick_alone hplayers).1, Game.parseEvents_of_told hevents]
    unfold UpdateRecord.after
    rw [hcommanded]
    show (s.tickMoved clock).game.players.set 0 _ = _
    rw [hplayers]
    rfl
  have hreached := h.reached.step (.tick clock)
  have hcell' := h.cell
  rw [← hsame.heap] at hcell'
  have hstep : s.step (.tick clock) = s.tick clock := rfl
  rw [hstep] at hreached ⊢
  exact ⟨hplayers, hsame, hreached, h.remote.same hsame, hafter, hcalm, hcells, hcell'⟩

theorem Reached.lone {s : Sys ℝ} {food virus : Draw} (hreached : s.Reached)
    (h : s.game.Joined food virus 1) (hfood : 1100 < (spot food).x)
    (hvirus : 1100 < (spot virus).x) : ∃ p, Lone s p ∧ p.Fresh ∧ p.wsi = 0 := by
  obtain ⟨p, hplayers⟩ := List.length_eq_one_iff.mp
    ((List.length_map Player.wsi).symm.trans (congrArg List.length h.wsis))
  have hfresh := h.fresh p (by rw [hplayers]; exact List.mem_singleton_self p)
  have hwsi := h.wsis
  have hcells := h.cells
  rw [hplayers] at hwsi hcells
  refine ⟨p, ⟨hreached, h.remote hfood hvirus, hplayers, hfresh.toCalm, ?_, h.cell 0 one_pos⟩,
    hfresh, ?_⟩
  · exact (List.cons.inj hcells).1
  · exact (List.cons.inj hwsi).1

end Sys

end Agar
