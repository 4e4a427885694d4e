import Agar.Effect

/-! The collision passes are sequences of effects. -/

namespace Agar

namespace Cell

theorem size_nonneg (c : Cell ℝ) : 0 ≤ c.size :=
  mul_nonneg (mul_self_nonneg c.radius) (by norm_num)

theorem size_pos {c : Cell ℝ} (h : 0 < c.radius) : 0 < c.size := by
  unfold size
  positivity

theorem collide_of_solid {a b : Cell ℝ} (ha : 0 < a.radius) (hb : 0 < b.radius) :
    a.collide b = if 0 ≤ a.overlapOf b then
      if 0.75 < a.overlapOf b / (2 * min a.radius b.radius) then
        if 1.3333 < a.size / b.size then .bigger
        else if a.size / b.size < 0.75 then .smaller else .overlap
      else .touch else .none := by
  have hmin : (2 : ℝ) * min a.radius b.radius ≠ 0 := by
    have := lt_min ha hb
    positivity
  have hsize : b.size ≠ 0 := (size_pos hb).ne'
  unfold collide
  dsimp only
  simp only [quotientAbove_iff hmin, quotientAbove_iff hsize, quotientBelow_iff hsize]

theorem not_bigger_of_zero {a : Cell ℝ} (b : Cell ℝ) (h : a.radius = 0) :
    a.collide b ≠ .bigger := by
  have hsize : a.size = 0 := by simp [size, h]
  have hsmaller : quotientAbove a.size b.size 1.3333 = false := by
    unfold quotientAbove
    rw [hsize, zero_div]
    split_ifs <;> norm_num
  unfold collide
  dsimp only
  rw [hsmaller, if_neg Bool.false_ne_true]
  split_ifs <;> exact fun hc => by cases hc

theorem solid_of_bigger {a b : Cell ℝ} (h : a.collide b = .bigger) (ha : 0 ≤ a.radius) :
    0 < a.radius :=
  lt_of_le_of_ne ha fun hzero => not_bigger_of_zero b hzero.symm h

theorem solid_of_rank {a b : Cell ℝ} (h : Collision.overlap.rank ≤ (a.collide b).rank)
    (hbig : a.collide b ≠ .bigger) (ha : 0 ≤ a.radius) (hb : 0 ≤ b.radius) : 0 < b.radius := by
  refine lt_of_le_of_ne hb fun hzero => ?_
  have hmin : 2 * min a.radius b.radius = 0 := by rw [← hzero, min_eq_right ha, mul_zero]
  have hsize : b.size = 0 := by simp [size, ← hzero]
  -- the quotients are by zero, so that the signs of the dividends decide
  have hdeep : quotientAbove (a.overlapOf b) (2 * min a.radius b.radius) 0.75 =
      decide (0 < a.overlapOf b) := by
    unfold quotientAbove
    rw [if_pos hmin]
  have hlarger : quotientAbove a.size b.size 1.3333 = decide (0 < a.size) := by
    unfold quotientAbove
    rw [if_pos hsize]
  have hover : 0 < a.overlapOf b → 0 < a.radius := by
    intro hover
    unfold overlapOf at hover
    have hlength : 0 ≤ (b.position - a.position).length := Real.sqrt_nonneg _
    linarith
  unfold collide at h hbig
  dsimp only at h hbig
  rw [hdeep, hlarger] at h hbig
  by_cases hdeep : 0 < a.overlapOf b
  · rw [if_pos hdeep.le, if_pos (decide_eq_true hdeep),
      if_pos (decide_eq_true (size_pos (hover hdeep)))] at hbig
    exact hbig rfl
  · have hshallow : ¬ decide (0 < a.overlapOf b) = true := by rwa [decide_eq_true_eq]
    rw [if_neg hshallow] at h
    split_ifs at h
    · exact absurd h (by decide)
    · exact absurd h (by decide)

theorem solid_of_rank_le {a b : Cell ℝ} (h : Collision.overlap.rank ≤ (a.collide b).rank)
    (hle : a.radius ≤ b.radius) (ha : 0 ≤ a.radius) : 0 < b.radius := by
  rcases ha.lt_or_eq with hpos | hzero
  · exact hpos.trans_le hle
  · exact solid_of_rank h (not_bigger_of_zero b hzero.symm) ha (ha.trans hle)

theorem getRadius_nonneg (s : ℝ) : 0 ≤ (getRadius s : ℝ) := Real.sqrt_nonneg _

theorem getRadius_pos {s : ℝ} (h : 0 < s) : 0 < (getRadius s : ℝ) := by
  unfold getRadius
  exact Real.sqrt_pos.mpr (by positivity)

theorem addSize_radius_pos {c : Cell ℝ} {s : ℝ} (h : 0 < c.size + s) :
    0 < (c.addSize s).radius := by
  show 0 < Real.sqrt ((s + c.size) * 100)
  exact Real.sqrt_pos.mpr (by linarith)

theorem sqrt_size {s : ℝ} (h : 0 ≤ s) : Real.sqrt (s * 100) * Real.sqrt (s * 100) * 0.01 = s := by
  rw [Real.mul_self_sqrt (by positivity)]
  ring

theorem addSize_size {c : Cell ℝ} {s : ℝ} (h : 0 ≤ s + c.size) :
    (c.addSize s).size = s + c.size := sqrt_size h

end Cell

namespace Game
variable {g g' g'' : Game ℝ}

theorem Owned.mono {p : CellPtr} (ho : g.Owned p) (h : Frame g g') : g'.Owned p :=
  ⟨ho.1.trans_le h.allocated, by rw [(h.identity p ho.1).2.2]; exact ho.2⟩

theorem Leads.next (h : Leads g g') (h' : Frame g g' → Leads g' g'') : Leads g g'' :=
  fun hw => (h hw).trans (h' (h.frame hw) (h.wellFormed hw))

theorem leads_of_wellFormed (h : WellFormed g → Leads g g') : Leads g g' := fun hw => h hw hw

theorem leads_foldl_owned {f : Game ℝ → CellPtr → Game ℝ}
    (h : ∀ g p, g.Owned p → Leads g (f g p)) (g : Game ℝ) (l : List CellPtr)
    (hl : ∀ p ∈ l, g.Owned p) : Leads g (l.foldl f g) := by
  induction l generalizing g with
  | nil => exact Leads.refl g
  | cons p l ih =>
    refine (h g p (hl p List.mem_cons_self)).next fun hf => ih _ fun q hq => ?_
    exact (hl q (List.mem_cons_of_mem p hq)).mono hf

theorem leads_note {c : Call ℝ} (hs : g.Positive → c.Sound) (hc : c.Capped) (hstay : ¬ c.Strays)
    (hleft : ¬ c.Empties) (hrest : ¬ c.Drives) : Leads g (g.note c) :=
  (Effect.note g c hs hc hstay hleft hrest).leads

theorem leads_noteCollide {a b : CellPtr} (ha : a < g.allocated) (hb : b < g.allocated) :
    Leads g (g.noteCollide a b) :=
  leads_note (fun hp => ⟨hp a ha, hp b hb⟩) trivial id id id

theorem leads_addSize {p : CellPtr} {s : ℝ} (ho : g.Owned p)
    (hs : g.Positive → 0 < (g.heap p).size + s) : Leads g (g.addSize p s) := by
  refine (leads_note (c := .addSize p (g.heap p).size s) hs trivial id id id).trans ?_
  refine (Effect.change (g.note _) p ((g.heap p).addSize s) ho rfl rfl rfl ?_ (Or.inr rfl) ?_).leads
  · exact Real.sqrt_nonneg _
  · exact fun hp => Cell.addSize_radius_pos (hs hp)

theorem leads_grow {p q : CellPtr} (ho : g.Owned p) (hq : q < g.allocated) :
    Leads g (g.addSize p (g.heap q).size) :=
  leads_addSize ho fun hp => add_pos (Cell.size_pos (hp p ho.1)) (Cell.size_pos (hp q hq))

theorem collideBlock_leads (g : Game ℝ) (cell : CellPtr) (b : Vec2i) (loop : ℕ)
    (ho : g.Owned cell) : Leads g (g.collideBlock cell b loop) := by
  fun_induction collideBlock g cell b loop with
  | case1 g loop hnone => exact Leads.refl g
  | case2 g loop s hs hbig ih =>
    refine leads_of_wellFormed fun hw => ?_
    have hmem : s ∈ g.staticMap b := List.mem_of_getElem? hs
    refine (leads_noteCollide ho.1 (hw.static_lt hmem)).next fun hf1 => ?_
    refine (leads_grow (ho.mono hf1) (hw.static_lt hmem)).next fun hf2 => ?_
    refine (Effect.killStatic _ b loop s ?_).leads.next fun hf3 => ?_
    · exact hs
    · exact ih (((ho.mono hf1).mono hf2).mono hf3)
  | case3 g loop s hs hbig ih =>
    refine leads_of_wellFormed fun hw => ?_
    have hmem : s ∈ g.staticMap b := List.mem_of_getElem? hs
    exact (leads_noteCollide ho.1 (hw.static_lt hmem)).next fun hf => ih (ho.mono hf)

theorem collideStatic_leads (g : Game ℝ) (i : ℕ) : Leads g (g.collideStatic i) := by
  refine leads_of_wellFormed fun hw => leads_foldl_owned (fun g cell ho => ?_) g _ (hw.owned i)
  have hblocks : ∀ bs : List Vec2i, ∀ g : Game ℝ, g.Owned cell →
      Leads g (bs.foldl (fun g b => g.collideBlock cell b 0) g) := by
    intro bs
    induction bs with
    | nil => exact fun g _ => Leads.refl g
    | cons b bs ih =>
      exact fun g ho => (collideBlock_leads g cell b 0 ho).next fun hf => ih _ (ho.mono hf)
  exact hblocks _ g ho

theorem spawn_of_heap {g : Game ℝ} {i : ℕ} {h : CellPtr → Cell ℝ}
    (hheap : ∀ q, q ≠ g.allocated → h q = g.heap q) :
    { g with heap := h, allocated := g.allocated + 1 }.pushCell i g.allocated =
      g.spawn i (h g.allocated) := by
  have hfun : h = fun q => if q = g.allocated then h g.allocated else g.heap q := by
    funext q
    by_cases hq : q = g.allocated
    · rw [if_pos hq, hq]
    · rw [if_neg hq, hheap q hq]
  rw [hfun, spawn]
  simp [setCell]

/-- The state of a big half before its cell is allocated. -/
def bigPopBase {K : Type} [Field K] [LinearOrder K] [Arith K] (g : Game K) (popCell : CellPtr) :
    Game K :=
  (g.addSize popCell (-(g.heap popCell).size * splitRatio)).setCombine popCell
    (g.heap popCell).size

@[simp] theorem bigPopBase_allocated (g : Game ℝ) (p : CellPtr) :
    (g.bigPopBase p).allocated = g.allocated := rfl
@[simp] theorem bigPopBase_players (g : Game ℝ) (p : CellPtr) :
    (g.bigPopBase p).players = g.players := rfl
@[simp] theorem bigPopBase_cellsOf (g : Game ℝ) (p : CellPtr) (i : ℕ) :
    (g.bigPopBase p).cellsOf i = g.cellsOf i := rfl

theorem bigPop_eq (g : Game ℝ) (i : ℕ) (popCell : CellPtr) (angle : Vec2 ℝ)
    (hp : popCell < g.allocated) :
    (g.bigPop i popCell angle).1 = g.allocated ∧ (g.bigPop i popCell angle).2 =
      (g.bigPopBase popCell).spawn i ((g.bigPop i popCell angle).2.heap g.allocated) := by
  refine ⟨rfl, ?_⟩
  refine Eq.trans ?_ (spawn_of_heap (g := g.bigPopBase popCell) (i := i)
    (h := (g.bigPop i popCell angle).2.heap) ?_)
  · rfl
  · intro q hq
    have hne : q ≠ g.allocated := hq
    by_cases hq' : q = popCell
    · subst hq'
      simp [bigPop, newPlayerCell, newCell, setCombine, setCell, pushCell, setCells, note,
        addSize, hne, bigPopBase]
    · simp [bigPop, newPlayerCell, newCell, setCombine, setCell, pushCell, setCells, note,
        addSize, hne, hq', bigPopBase]

theorem setCombine_leads {p : CellPtr} {size : ℝ} (ho : g.Owned p) (hw : WellFormed g) :
    Leads g (g.setCombine p size) :=
  (Effect.change g p
    { g.heap p with combineTime := g.currentTime + size / 50, combineSet := true } ho rfl rfl rfl
    (hw.radius p ho.1) (Or.inr rfl) fun hp => hp p ho.1).leads

theorem splitRatio_rest (size : ℝ) : size + -size * splitRatio = size * (1 - splitRatio) := by ring

theorem rest_pos {size : ℝ} (h : 0 < size) : 0 < size * (1 - splitRatio) := by
  unfold splitRatio
  nlinarith

theorem bigPopBase_leads {popCell : CellPtr} (ho : g.Owned popCell) :
    Leads g (g.bigPopBase popCell) := by
  have hhalf : Leads g (g.addSize popCell (-(g.heap popCell).size * splitRatio)) :=
    leads_addSize ho fun hp => by
      rw [splitRatio_rest]
      exact rest_pos (Cell.size_pos (hp popCell ho.1))
  exact hhalf.next fun hf => leads_of_wellFormed (setCombine_leads (ho.mono hf))

theorem bigPop_leads {i : ℕ} {popCell : CellPtr} (angle : Vec2 ℝ) (ho : g.Owned popCell)
    (hi : i < g.players.length) (hcap : (g.cellsOf i).length < 16) :
    Leads g (g.bigPop i popCell angle).2 ∧
    (g.bigPop i popCell angle).2.Owned (g.bigPop i popCell angle).1 := by
  obtain ⟨h1, h2⟩ := bigPop_eq g i popCell angle ho.1
  have hne : popCell ≠ g.allocated := ho.1.ne
  have hradius : ((g.bigPop i popCell angle).2.heap g.allocated).radius =
      Cell.getRadius ((g.heap popCell).size * (1 - splitRatio)) := by
    simp [bigPop, newPlayerCell, newCell, setCombine, setCell, pushCell, setCells, note, addSize,
      Cell.addVelocity, hne, hne.symm]
  have hid : ((g.bigPop i popCell angle).2.heap g.allocated).id =
      BitVec.ofNat 32 g.allocated := by
    simp [bigPop, newPlayerCell, newCell, setCombine, setCell, pushCell, setCells, note, addSize,
      Cell.addVelocity, hne, hne.symm]
  have hflag : ((g.bigPop i popCell angle).2.heap g.allocated).flag = playerFlag := by
    simp [bigPop, newPlayerCell, newCell, setCombine, setCell, pushCell, setCells, note, addSize,
      Cell.addVelocity, hne, hne.symm, playerFlag]
  refine ⟨?_, ?_⟩
  · rw [h2]
    refine (bigPopBase_leads ho).trans (Effect.spawn (g.bigPopBase popCell) i _ hi hcap hid hflag
      ?_ fun hp => ?_).leads
    · rw [hradius]
      exact Cell.getRadius_nonneg _
    · -- the popped cell is positive after the halving, so it was before
      rw [hradius]
      by_cases hsize : 0 < (g.heap popCell).size
      · exact Cell.getRadius_pos (rest_pos hsize)
      · exfalso
        have hzero : (g.heap popCell).size = 0 :=
          le_antisymm (not_lt.mp hsize) (Cell.size_nonneg _)
        have hr : ((g.bigPopBase popCell).heap popCell).radius = 0 := by
          simp [bigPopBase, addSize, setCombine, setCell, Cell.addSize, hzero]
        exact (hp popCell ho.1).ne' hr
  · rw [h1]
    rw [h2] at hflag ⊢
    exact ⟨Nat.lt_succ_self _, hflag⟩

theorem bigPops_leads (g : Game ℝ) (i : ℕ) (popCell : CellPtr) (angle : Vec2 ℝ) (left : ℕ)
    (ho : g.Owned popCell) (hi : i < g.players.length) :
    Leads g (g.bigPops i popCell angle left) := by
  induction left generalizing g popCell angle with
  | zero => exact Leads.refl g
  | succ left ih =>
    rw [bigPops]
    split_ifs with h
    · obtain ⟨hl, ho'⟩ := bigPop_leads (angle.rotate (6.28 / 4)) ho hi h.2
      refine hl.next fun hf => ih _ _ _ ho' ?_
      have hlen := congrArg List.length hf.core
      simp only [List.length_map] at hlen
      rw [hlen]
      exact hi
    · exact Leads.refl g

theorem bigPop_numbers {i : ℕ} {popCell : CellPtr} (angle : Vec2 ℝ)
    (hp : popCell < g.allocated) (hi : i < g.players.length) :
    ((g.bigPop i popCell angle).2.cellsOf i).length = (g.cellsOf i).length + 1 ∧
    ((g.bigPop i popCell angle).2.heap popCell).size =
      (g.heap popCell).size * (1 - splitRatio) ∧
    ((g.bigPop i popCell angle).2.heap g.allocated).size =
      (g.heap popCell).size * (1 - splitRatio) ∧
    ∀ q < g.allocated, q ≠ popCell → (g.bigPop i popCell angle).2.heap q = g.heap q := by
  obtain ⟨-, h2⟩ := bigPop_eq g i popCell angle hp
  have hne : popCell ≠ g.allocated := hp.ne
  have hnn : 0 ≤ (g.heap popCell).size * (1 - splitRatio) :=
    mul_nonneg (Cell.size_nonneg _) (by unfold splitRatio; norm_num)
  refine ⟨?_, ?_, ?_, ?_⟩
  · have hi' : i < (g.bigPopBase popCell).players.length := hi
    rw [h2, spawn_cellsOf _ _ _ _ hi', if_pos rfl, List.length_append]
    rfl
  · have hrest : ((g.heap popCell).addSize (-(g.heap popCell).size * splitRatio)).size =
        (g.heap popCell).size * (1 - splitRatio) := by
      rw [Cell.addSize_size]
      · ring
      · linarith [splitRatio_rest (g.heap popCell).size]
    rw [h2, spawn_heap, bigPopBase_allocated, if_neg hne]
    simpa [bigPopBase, addSize, setCombine, setCell, Cell.size] using hrest
  · have hradius : ((g.bigPop i popCell angle).2.heap g.allocated).radius =
        Cell.getRadius ((g.heap popCell).size * (1 - splitRatio)) := by
      simp [bigPop, newPlayerCell, newCell, setCombine, setCell, pushCell, setCells, note, addSize,
        Cell.addVelocity, hne, hne.symm]
    rw [Cell.size, hradius]
    exact Cell.sqrt_size hnn
  · intro q hq hqp
    rw [h2, spawn_heap, bigPopBase_allocated, if_neg hq.ne]
    simp [bigPopBase, addSize, setCombine, setCell, note, hqp]

theorem bigPops_count (g : Game ℝ) (i : ℕ) (popCell : CellPtr) (angle : Vec2 ℝ) (left : ℕ)
    (hp : popCell < g.allocated) (hi : i < g.players.length) :
    ((g.bigPops i popCell angle left).cellsOf i).length =
        (g.cellsOf i).length + popHalves (g.heap popCell).size (g.cellsOf i).length left ∧
    ∀ q < g.allocated, q ≠ popCell → (g.bigPops i popCell angle left).heap q = g.heap q := by
  induction left generalizing g popCell angle with
  | zero => exact ⟨rfl, fun _ _ _ => rfl⟩
  | succ left ih =>
    rw [bigPops, popHalves]
    split_ifs with h
    · obtain ⟨h1, h2⟩ := bigPop_eq g i popCell (angle.rotate (6.28 / 4)) hp
      obtain ⟨hcount, -, hsize, hold⟩ := bigPop_numbers (angle.rotate (6.28 / 4)) hp hi
      have halloc : (g.bigPop i popCell (angle.rotate (6.28 / 4))).2.allocated =
          g.allocated + 1 := by rw [h2]; rfl
      have hlen : (g.bigPop i popCell (angle.rotate (6.28 / 4))).2.players.length =
          g.players.length := by
        rw [h2]
        simp [spawn, pushCell, setCells, bigPopBase, addSize, setCombine]
      obtain ⟨ih1, ih2⟩ := ih (g.bigPop i popCell (angle.rotate (6.28 / 4))).2
        (g.bigPop i popCell (angle.rotate (6.28 / 4))).1 (angle.rotate (6.28 / 4))
        (by rw [h1, halloc]; exact Nat.lt_succ_self _) (by rw [hlen]; exact hi)
      refine ⟨?_, ?_⟩
      · rw [ih1, h1, hsize, hcount]
        omega
      · intro q hq hqp
        rw [ih2 q (by rw [halloc]; exact hq.trans (Nat.lt_succ_self _)) (by rw [h1]; exact hq.ne)]
        exact hold q hq hqp
    · exact ⟨rfl, fun _ _ _ => rfl⟩

theorem bigPops_rest (g : Game ℝ) (i : ℕ) (cell : CellPtr) (angle : Vec2 ℝ)
    (hp : cell < g.allocated) (hi : i < g.players.length) :
    ((g.bigPops i cell angle 4).heap cell).size =
      popRest (g.heap cell).size (g.cellsOf i).length := by
  rw [bigPops, popRest, popHalves]
  by_cases h : 500 < (g.heap cell).size ∧ (g.cellsOf i).length < 16
  · rw [if_pos h, if_pos h, if_neg (Nat.succ_ne_zero _)]
    obtain ⟨h1, h2⟩ := bigPop_eq g i cell (angle.rotate (6.28 / 4)) hp
    obtain ⟨-, hsize, -, -⟩ := bigPop_numbers (angle.rotate (6.28 / 4)) hp hi
    have halloc : (g.bigPop i cell (angle.rotate (6.28 / 4))).2.allocated = g.allocated + 1 := by
      rw [h2]; rfl
    have hlen : (g.bigPop i cell (angle.rotate (6.28 / 4))).2.players.length =
        g.players.length := by
      rw [h2]
      simp [spawn, pushCell, setCells, bigPopBase, addSize, setCombine]
    obtain ⟨-, hold⟩ := bigPops_count (g.bigPop i cell (angle.rotate (6.28 / 4))).2 i
      (g.bigPop i cell (angle.rotate (6.28 / 4))).1 (angle.rotate (6.28 / 4)) 3
      (by rw [h1, halloc]; exact Nat.lt_succ_self _) (by rw [hlen]; exact hi)
    rw [hold cell (by rw [halloc]; exact hp.trans (Nat.lt_succ_self _)) (by rw [h1]; exact hp.ne)]
    exact hsize
  · rw [if_neg h, if_neg h, if_pos rfl]

theorem players_length (h : Frame g g') : g'.players.length = g.players.length := by
  have hlen := congrArg List.length h.core
  simpa only [List.length_map] using hlen

theorem subSize_of_le {count : ℕ} (h : count ≤ 16) : subSize 16 count = 16 - count := by
  unfold subSize
  omega

theorem trunc_of_nonneg {x : ℝ} (h : 0 ≤ x) : trunc x = ⌊x⌋ := if_pos h

theorem playerMinSize_pos : (0 : ℝ) < playerMinSize := by
  norm_num [playerMinSize, getSize, playerMinRadius]

theorem smallBallCount_le {count : ℕ} {popSize : ℝ} (h : count ≤ 16) :
    count + smallBallCount count popSize ≤ 16 := by
  have hle : trunc (min (subSize 16 count : ℝ) (popSize / playerMinSize)) ≤ (16 - count : ℕ) := by
    rw [subSize_of_le h]
    unfold trunc
    have hmin : min ((16 - count : ℕ) : ℝ) (popSize / playerMinSize) ≤ ((16 - count : ℕ) : ℤ) := by
      exact_mod_cast min_le_left _ _
    split_ifs
    · exact_mod_cast (Int.floor_le _).trans hmin
    · exact Int.ceil_le.mpr hmin
  unfold smallBallCount
  omega

theorem le_of_smallBallCount {count : ℕ} {popSize : ℝ} (h : smallBallCount count popSize ≠ 0) :
    playerMinSize ≤ popSize := by
  have hone : (1 : ℤ) ≤ trunc (min (subSize 16 count : ℝ) (popSize / playerMinSize)) := by
    unfold smallBallCount at h
    omega
  have hle : (1 : ℝ) ≤ min (subSize 16 count : ℝ) (popSize / playerMinSize) := by
    unfold trunc at hone
    split_ifs at hone with h0
    · exact_mod_cast Int.le_floor.mp hone
    · have := Int.ceil_le.mpr (show min (subSize 16 count : ℝ) (popSize / playerMinSize) ≤
        ((0 : ℤ) : ℝ) by push_cast; exact (not_le.mp h0).le)
      omega
  have hdiv := hle.trans (min_le_right _ _)
  rwa [le_div_iff₀ playerMinSize_pos, one_mul] at hdiv

theorem smallBallSize_pos {balls : ℕ} {popSize : ℝ} (h : 0 < popSize) (hb : balls ≠ 0) :
    0 < smallBallSize balls popSize := by
  have hb' : (0 : ℝ) < balls := by exact_mod_cast Nat.pos_of_ne_zero hb
  have := playerMinSize_pos
  exact lt_min (by linarith) (div_pos h hb')

theorem smallBalls_rest {balls : ℕ} {popSize : ℝ}
    (h : 2 * playerMinSize * (balls : ℝ) < popSize) :
    0 < popSize + -(balls : ℝ) * smallBallSize balls popSize := by
  have hle : (balls : ℝ) * smallBallSize balls popSize ≤ balls * (2 * playerMinSize) :=
    mul_le_mul_of_nonneg_left (min_le_left _ _) (Nat.cast_nonneg _)
  linarith

theorem smallBall_eq (g : Game ℝ) (i : ℕ) (cell d : CellPtr) (sizeSmall sumR : ℝ) :
    g.smallBall i cell d sizeSmall sumR = g.nextRand.2.nextRand.2.spawn i
      ((g.smallBall i cell d sizeSmall sumR).heap g.allocated) := by
  refine Eq.trans ?_ (spawn_of_heap (g := g.nextRand.2.nextRand.2) (i := i)
    (h := (g.smallBall i cell d sizeSmall sumR).heap) ?_)
  · rfl
  · intro q hq
    have hne : q ≠ g.allocated := hq
    simp [smallBall, randDirection, nextRand, newPlayerCell, newCell, setCombine, setCell,
      pushCell, setCells, note, hne]

theorem smallBall_leads {i : ℕ} (cell d : CellPtr) {sizeSmall : ℝ} (sumR : ℝ) (hs : 0 < sizeSmall)
    (hi : i < g.players.length) (hcap : (g.cellsOf i).length < 16) :
    Leads g (g.smallBall i cell d sizeSmall sumR) ∧
    ((g.smallBall i cell d sizeSmall sumR).cellsOf i).length = (g.cellsOf i).length + 1 := by
  have heq := smallBall_eq g i cell d sizeSmall sumR
  have hradius : ((g.smallBall i cell d sizeSmall sumR).heap g.allocated).radius =
      Cell.getRadius sizeSmall := by
    simp [smallBall, randDirection, nextRand, newPlayerCell, newCell, setCombine, setCell,
      pushCell, setCells, note, Cell.addVelocity]
  have hid : ((g.smallBall i cell d sizeSmall sumR).heap g.allocated).id =
      BitVec.ofNat 32 g.allocated := by
    simp [smallBall, randDirection, nextRand, newPlayerCell, newCell, setCombine, setCell,
      pushCell, setCells, note, Cell.addVelocity]
  have hflag : ((g.smallBall i cell d sizeSmall sumR).heap g.allocated).flag = playerFlag := by
    simp [smallBall, randDirection, nextRand, newPlayerCell, newCell, setCombine, setCell,
      pushCell, setCells, note, Cell.addVelocity, playerFlag]
  have hpos : 0 < ((g.smallBall i cell d sizeSmall sumR).heap g.allocated).radius :=
    hradius ▸ Cell.getRadius_pos hs
  constructor
  · rw [heq]
    refine ((Effect.draw g).leads.trans (Effect.draw g.nextRand.2).leads).trans ?_
    exact (Effect.spawn g.nextRand.2.nextRand.2 i _ hi hcap hid hflag hpos.le
      fun _ => hpos).leads
  · have hi' : i < g.nextRand.2.nextRand.2.players.length := hi
    rw [heq, spawn_cellsOf _ _ _ _ hi', if_pos rfl, List.length_append]
    rfl

theorem smallBallsLoop_leads (g : Game ℝ) (i : ℕ) (cell d : CellPtr) (sizeSmall sumR : ℝ) (n : ℕ)
    (hs : 0 < sizeSmall) (hi : i < g.players.length) (hcap : (g.cellsOf i).length + n ≤ 16) :
    Leads g (g.smallBallsLoop i cell d sizeSmall sumR n) := by
  induction n generalizing g with
  | zero => exact Leads.refl g
  | succ n ih =>
    obtain ⟨hl, hlen⟩ := smallBall_leads cell d sumR hs hi (by omega)
    exact hl.next fun hf => ih _ (by rw [players_length hf]; exact hi) (by omega)

theorem smallBalls_all {balls : ℕ} {popSize : ℝ} (hb : balls ≠ 0)
    (h : popSize ≤ 2 * playerMinSize * (balls : ℝ)) :
    popSize + -(balls : ℝ) * smallBallSize balls popSize = 0 := by
  have hb' : (0 : ℝ) < balls := by exact_mod_cast Nat.pos_of_ne_zero hb
  have hmin : smallBallSize balls popSize = popSize / balls :=
    min_eq_right ((div_le_iff₀ hb').mpr h)
  rw [hmin]
  field_simp
  ring

theorem smallBalls_leads {i : ℕ} {cell d : CellPtr} {size : ℝ} {count : ℕ} (ho : g.Owned cell)
    (hi : i < g.players.length) (hsize : (g.heap cell).size = popRest size count)
    (hcount : (g.cellsOf i).length = count + popHalves size count 4) :
    Leads g ((g.note (.pop cell size count)).smallBalls i cell d) := by
  refine leads_of_wellFormed fun hw => ?_
  have hcap : (g.cellsOf i).length ≤ 16 := hw.cap i
  have hnum : smallBallCount (g.cellsOf i).length (g.heap cell).size = popBalls size count := by
    rw [hsize, hcount]
    rfl
  unfold smallBalls
  dsimp only
  rw [note_heap, note_cellsOf, hnum, hsize]
  -- the balls that follow are within the cap
  have hloop : ∀ g' : Game ℝ, Frame g g' → (g'.cellsOf i).length = (g.cellsOf i).length →
      popBalls size count ≠ 0 → ∀ sumR : ℝ, Leads g' (g'.smallBallsLoop i cell d
        (smallBallSize (popBalls size count) (popRest size count)) sumR (popBalls size count)) := by
    intro g' hf hlen hballs sumR
    have hpos : 0 < popRest size count := by
      rw [← hsize]
      exact playerMinSize_pos.trans_le (le_of_smallBallCount (hnum ▸ hballs))
    refine smallBallsLoop_leads g' i cell d _ _ _ (smallBallSize_pos hpos hballs) ?_ ?_
    · rw [players_length hf]
      exact hi
    · rw [hlen, ← hnum]
      exact smallBallCount_le hcap
  have hslots : Leads (g.note (.pop cell size count))
      ((g.note (.pop cell size count)).note (.slots (g.cellsOf i).length)) :=
    leads_note (fun _ => trivial) hcap id id id
  by_cases hempties : popEmpties size count
  · rw [if_pos hempties.1]
    refine (Effect.pour g cell size count (g.cellsOf i).length _ ho hempties hcap ?_).leads.next
      fun hf => hloop _ hf rfl hempties.1 _
    rw [hsize, smallBalls_all hempties.1 hempties.2]
  · have hpop : Leads g (g.note (.pop cell size count)) :=
      leads_note (fun _ => trivial) trivial id hempties id
    split_ifs with hballs
    · have hgrow : Leads ((g.note (.pop cell size count)).note (.slots (g.cellsOf i).length))
          (((g.note (.pop cell size count)).note (.slots (g.cellsOf i).length)).addSize cell
            (-(popBalls size count : ℝ) *
              smallBallSize (popBalls size count) (popRest size count))) := by
        refine leads_addSize ho fun _ => ?_
        rw [note_heap, note_heap, hsize]
        exact smallBalls_rest (not_le.mp fun hle => hempties ⟨hballs, hle⟩)
      exact ((hpop.trans hslots).trans hgrow).next fun hf => hloop _ hf rfl hballs _
    · exact hpop.trans hslots

theorem popVirus_leads {i : ℕ} {cell d : CellPtr} (ho : g.Owned cell)
    (hi : i < g.players.length) : Leads g (g.popVirus i cell d) := by
  have hbig := bigPops_leads g i cell ⟨1, 0⟩ 4 ho hi
  refine hbig.next fun hf => smallBalls_leads (ho.mono hf) ?_ (bigPops_rest g i cell ⟨1, 0⟩ ho.1 hi)
    (bigPops_count g i cell ⟨1, 0⟩ 4 ho.1 hi).1
  rw [players_length hf]
  exact hi

theorem eatDynamic_leads {cell d : CellPtr} {loop : ℕ} (ho : g.Owned cell)
    (hd : g.dynamicMap[loop]? = some d) :
    Leads g ((g.noteCollide cell d).eatDynamic cell d loop) := by
  refine leads_of_wellFormed fun hw => ?_
  have hlt := (hw.dynamic d (List.mem_of_getElem? hd)).2.1
  refine (leads_noteCollide ho.1 hlt).next fun hf => ?_
  refine (leads_grow (ho.mono hf) hlt).trans ?_
  exact (Effect.killDynamic ((g.noteCollide cell d).addSize cell _) loop d hd).leads

theorem collideDynamicWith_leads (g : Game ℝ) (i : ℕ) (cell : CellPtr) (myLoop loop : ℕ)
    (ho : g.Owned cell) (hi : i < g.players.length) :
    Leads g (g.collideDynamicWith i cell myLoop loop).1 := by
  fun_induction collideDynamicWith g i cell myLoop loop with
  | case1 g loop hnone => exact Leads.refl g
  | case2 g loop d hd flag result hbig g' hpop =>
    exact (eatDynamic_leads ho hd).next fun hf => popVirus_leads (ho.mono hf) hi
  | case3 g loop d hd flag result hbig g' hpop ih =>
    exact (eatDynamic_leads ho hd).next fun hf => ih (ho.mono hf) hi
  | case4 g loop d hd flag result hbig hsmall =>
    -- a cell of `DynamicMap` is food or a virus, so it absorbs nothing
    refine leads_of_wellFormed fun hw => absurd hsmall.2 (not_not.mpr ?_)
    rcases (hw.dynamic d (List.mem_of_getElem? hd)).2.2 with h | h
    · exact Or.inl (by rw [show flag = foodFlag from h]; rfl)
    · exact Or.inr (by rw [show flag = virusFlag from h]; rfl)
  | case5 g loop d hd flag result hbig hsmall ih =>
    have hmem : d ∈ g.dynamicMap := List.mem_of_getElem? hd
    refine leads_of_wellFormed fun hw => ?_
    exact (leads_noteCollide ho.1 (hw.dynamic d hmem).2.1).next fun hf => ih (ho.mono hf) hi

theorem collideDynamicFrom_leads (g : Game ℝ) (i myLoop : ℕ) (hi : i < g.players.length) :
    Leads g (g.collideDynamicFrom i myLoop) := by
  fun_induction collideDynamicFrom g i myLoop with
  | case1 g myLoop hnone => exact Leads.refl g
  | case2 g myLoop cell hc hback ih =>
    refine leads_of_wellFormed fun hw => ?_
    have ho := hw.owned i cell (List.mem_of_getElem? hc)
    exact (collideDynamicWith_leads g i cell myLoop 0 ho hi).next fun hf =>
      ih (by rw [players_length hf]; exact hi)
  | case3 g myLoop cell hc hback ih =>
    refine leads_of_wellFormed fun hw => ?_
    have ho := hw.owned i cell (List.mem_of_getElem? hc)
    exact (collideDynamicWith_leads g i cell myLoop 0 ho hi).next fun hf =>
      ih (by rw [players_length hf]; exact hi)

theorem collideDynamic_leads (g : Game ℝ) (i : ℕ) (hi : i < g.players.length) :
    Leads g (g.collideDynamic i) := collideDynamicFrom_leads g i 0 hi

theorem noteSelf_leads {a b : CellPtr} (ha : a < g.allocated) (hb : b < g.allocated) :
    Leads g (g.noteSelf a b) := by
  refine (leads_noteCollide ha hb).trans ?_
  have hread (g : Game ℝ) (p : CellPtr) (b : Bool) : Leads g (g.note (.readCombine p b)) :=
    leads_note (fun _ => trivial) trivial id id id
  unfold noteSelf noteCombine
  dsimp only
  split_ifs
  · exact (hread _ _ _).trans (hread _ _ _)
  · exact hread _ _ _

theorem moveRel_leads {p : CellPtr} {v : Vec2 ℝ} (ho : g.Owned p) :
    Leads g (g.setCell p ((g.heap p).moveRel v)) :=
  leads_of_wellFormed fun hw =>
    (Effect.change g p ((g.heap p).moveRel v) ho rfl rfl rfl (hw.radius p ho.1)
      (Or.inl (moveAbs_onMap _ _)) fun hp => hp p ho.1).leads

theorem pushApart_leads {a b : CellPtr} (ha : g.Owned a) (hb : g.Owned b) :
    Leads g (g.pushApart a b) :=
  (moveRel_leads ha).next fun hf => moveRel_leads (hb.mono hf)

theorem noteSelf_frame (g : Game ℝ) (a b : CellPtr) :
    (g.noteSelf a b).heap = g.heap ∧ (g.noteSelf a b).cellEvents = g.cellEvents ∧
    (g.noteSelf a b).allocated = g.allocated := by
  unfold noteSelf noteCombine
  dsimp only
  split_ifs <;> exact ⟨rfl, rfl, rfl⟩

theorem eatOwn_leads {i loop : ℕ} {cell o : CellPtr} (hc : g.Owned cell)
    (ho : (g.cellsOf i)[loop]? = some o) : Leads g (g.eatOwn i cell o loop) := by
  refine leads_of_wellFormed fun hw => ?_
  refine (leads_grow hc (hw.owned i o (List.mem_of_getElem? ho)).1).trans ?_
  exact (Effect.kill (g.addSize cell _) i loop o ho).leads

/-- The cell is at its slot, or it has been reported as removed before. -/
def AtSlot (g : Game ℝ) (i : ℕ) (cell : CellPtr) (myLoop : ℤ) : Prop :=
  (0 ≤ myLoop ∧ (g.cellsOf i)[myLoop.toNat]? = some cell) ∨ cell ∈ g.cellEvents.removeDynamic

theorem absorbOwn_leads {i : ℕ} {cell o : CellPtr} {myLoop : ℤ} (hc : g.Owned cell)
    (ho : g.Owned o) (hslot : AtSlot g i cell myLoop) :
    Leads g (g.absorbOwn i cell o myLoop) := by
  have hgrow : Leads g (g.addSize o (g.heap cell).size) := leads_grow ho hc.1
  refine hgrow.trans ?_
  unfold absorbOwn
  dsimp only
  by_cases hat : 0 ≤ myLoop ∧ (g.cellsOf i)[myLoop.toNat]? = some cell
  · have hlt := getElem?_lt hat.2
    have hin : 0 ≤ myLoop ∧ myLoop < (g.cellsOf i).length := ⟨hat.1, by omega⟩
    have herase : ∀ g' : Game ℝ, g'.cellsOf i = g.cellsOf i →
        g'.eraseCellAt i myLoop = g'.eraseCell i myLoop.toNat := fun g' h => by
      rw [eraseCellAt, if_pos (by rw [h]; exact hin)]
    rw [if_pos hat.1, hat.2, herase (pushRemoveDynamic ((g.addSize o _).note _) cell) rfl]
    refine (leads_note (c := .absorb cell (some cell)) (fun _ => trivial) trivial
      (fun h => h rfl) id id).trans ?_
    exact (Effect.kill ((g.addSize o _).note _) i myLoop.toNat cell hat.2).leads
  · have hgone : cell ∈ g.cellEvents.removeDynamic := hslot.resolve_left hat
    refine (Effect.stray (g.addSize o _) i myLoop cell _ hgone ?_).leads
    intro h
    split_ifs at h with h0
    exact hat ⟨h0, h⟩

theorem AtSlot.absorbed {i : ℕ} {cell o : CellPtr} {myLoop myLoop' : ℤ} :
    AtSlot (g.absorbOwn i cell o myLoop) i cell myLoop' := by
  have hpush : ∀ g' : Game ℝ, cell ∈ (g'.pushRemoveDynamic cell).cellEvents.removeDynamic :=
    fun g' => List.mem_append_right _ List.mem_cons_self
  refine Or.inr ?_
  unfold absorbOwn
  rw [(eraseCellAt_frame _ i myLoop).2.2.2.2.1]
  exact hpush _

theorem collideSelfWith_leads (g : Game ℝ) (i : ℕ) (cell : CellPtr) (myLoop : ℤ) (loop : ℕ)
    (hc : g.Owned cell) (hl : myLoop < loop) (hslot : AtSlot g i cell myLoop) :
    Leads g (g.collideSelfWith i cell myLoop loop).1 := by
  fun_induction collideSelfWith g i cell myLoop loop with
  | case1 g myLoop loop hnone => exact Leads.refl g
  | case2 g myLoop loop o ho result g' hready hover hbig ih =>
    refine leads_of_wellFormed fun hw => ?_
    have hoo := hw.owned i o (List.mem_of_getElem? ho)
    obtain ⟨-, hevents, -⟩ := noteSelf_frame g cell o
    have hn : g'.cellsOf i = g.cellsOf i := cellsOf_congr (noteSelf_players _ _ _) i
    have hi : i < g'.players.length := by
      rw [show g'.players = g.players from noteSelf_players _ _ _]
      exact lt_of_cellsOf ho
    refine (noteSelf_leads hc.1 hoo.1).next fun hf => ?_
    refine (eatOwn_leads (hc.mono hf) (by rw [hn]; exact ho)).next fun hf' => ?_
    refine ih ((hc.mono hf).mono hf') hl ?_
    -- the slot erased is behind the one of the cell
    rcases hslot with ⟨h0, hat⟩ | hgone
    · refine Or.inl ⟨h0, ?_⟩
      have hcells : (g'.eatOwn i cell o loop).cellsOf i = (g'.cellsOf i).eraseIdx loop :=
        cellsOf_setCells_self _ _ _ hi
      rw [hcells, hn, List.getElem?_eraseIdx_of_lt (by omega)]
      exact hat
    · refine Or.inr ?_
      have hmem : cell ∈ g'.cellEvents.removeDynamic := by
        rw [show g'.cellEvents = g.cellEvents from hevents]
        exact hgone
      exact List.mem_append_left _ hmem
  | case3 g myLoop loop o ho result g' hready hover hbig ih =>
    refine leads_of_wellFormed fun hw => ?_
    have hoo := hw.owned i o (List.mem_of_getElem? ho)
    obtain ⟨-, hevents, -⟩ := noteSelf_frame g cell o
    have hn : g'.cellsOf i = g.cellsOf i := cellsOf_congr (noteSelf_players _ _ _) i
    have hslot' : AtSlot g' i cell myLoop := by
      unfold AtSlot
      rw [hn, show g'.cellEvents = g.cellEvents from hevents]
      exact hslot
    refine (noteSelf_leads hc.1 hoo.1).next fun hf => ?_
    refine (absorbOwn_leads (hc.mono hf) (hoo.mono hf) hslot').next fun hf' => ?_
    exact ih ((hc.mono hf).mono hf') (max_lt (by push_cast; omega) (by push_cast; omega))
      AtSlot.absorbed
  | case4 g myLoop loop o ho result g' hready hover ih =>
    refine leads_of_wellFormed fun hw => ?_
    have hoo := hw.owned i o (List.mem_of_getElem? ho)
    obtain ⟨-, hevents, -⟩ := noteSelf_frame g cell o
    have hn : g'.cellsOf i = g.cellsOf i := cellsOf_congr (noteSelf_players _ _ _) i
    refine (noteSelf_leads hc.1 hoo.1).next fun hf => ih (hc.mono hf) (by push_cast; omega) ?_
    unfold AtSlot
    rw [hn, show g'.cellEvents = g.cellEvents from hevents]
    exact hslot
  | case5 g myLoop loop o ho result g' hready htouch ih =>
    refine leads_of_wellFormed fun hw => ?_
    have hoo := hw.owned i o (List.mem_of_getElem? ho)
    obtain ⟨-, hevents, -⟩ := noteSelf_frame g cell o
    have hn : g'.cellsOf i = g.cellsOf i := cellsOf_congr (noteSelf_players _ _ _) i
    refine (noteSelf_leads hc.1 hoo.1).next fun hf => ?_
    refine (pushApart_leads (hc.mono hf) (hoo.mono hf)).next fun hf' => ?_
    refine ih ((hc.mono hf).mono hf') (by push_cast; omega) ?_
    unfold AtSlot
    rw [show (g'.pushApart cell o).cellsOf i = g.cellsOf i from hn,
      show (g'.pushApart cell o).cellEvents = g.cellEvents from hevents]
    exact hslot
  | case6 g myLoop loop o ho result g' hready htouch ih =>
    refine leads_of_wellFormed fun hw => ?_
    have hoo := hw.owned i o (List.mem_of_getElem? ho)
    obtain ⟨-, hevents, -⟩ := noteSelf_frame g cell o
    have hn : g'.cellsOf i = g.cellsOf i := cellsOf_congr (noteSelf_players _ _ _) i
    refine (noteSelf_leads hc.1 hoo.1).next fun hf => ih (hc.mono hf) (by push_cast; omega) ?_
    unfold AtSlot
    rw [hn, show g'.cellEvents = g.cellEvents from hevents]
    exact hslot

theorem collideSelfFrom_leads (g : Game ℝ) (i myLoop : ℕ) :
    Leads g (g.collideSelfFrom i myLoop) := by
  fun_induction collideSelfFrom g i myLoop with
  | case1 g myLoop hnone => exact Leads.refl g
  | case2 g myLoop cell hc r ih =>
    refine leads_of_wellFormed fun hw => ?_
    have ho := hw.owned i cell (List.mem_of_getElem? hc)
    refine (collideSelfWith_leads g i cell myLoop (myLoop + 1) ho (by push_cast; omega)
      (Or.inl ⟨by omega, hc⟩)).trans ih

theorem collideSelf_leads (g : Game ℝ) (i : ℕ) : Leads g (g.collideSelf i) :=
  collideSelfFrom_leads g i 0

theorem collideOtherWith_leads (g : Game ℝ) (i x : ℕ) (cell : CellPtr) (myLoop loop : ℕ)
    (hix : i ≠ x) (hc : g.Owned cell) (hm : (g.cellsOf i)[myLoop]? = some cell) :
    Leads g (g.collideOtherWith i x cell myLoop loop).1 := by
  fun_induction collideOtherWith g i x cell myLoop loop with
  | case1 g loop hnone => exact Leads.refl g
  | case2 g loop o ho result g' hbig ih =>
    refine leads_of_wellFormed fun hw => ?_
    have hoo := hw.owned x o (List.mem_of_getElem? ho)
    refine (leads_noteCollide hc.1 hoo.1).next fun hf => ?_
    have heat : Leads g' (g'.eatOther x cell o loop) :=
      (leads_grow (hc.mono hf) (hoo.mono hf).1).trans
        (Effect.kill (g'.addSize cell (g'.heap o).size) x loop o ho).leads
    refine heat.next fun hf' => ih ((hc.mono hf).mono hf') ?_
    rw [show (g'.eatOther x cell o loop).cellsOf i = g.cellsOf i from
      cellsOf_setCells_ne _ _ (Ne.symm hix)]
    exact hm
  | case3 g loop o ho result g' hbig hsmall =>
    refine leads_of_wellFormed fun hw => ?_
    have hoo := hw.owned x o (List.mem_of_getElem? ho)
    refine (leads_noteCollide hc.1 hoo.1).next fun hf => ?_
    exact (leads_grow (hoo.mono hf) (hc.mono hf).1).trans
      (Effect.kill (g'.addSize o (g'.heap cell).size) i myLoop cell hm).leads
  | case4 g loop o ho result g' hbig hsmall ih =>
    refine leads_of_wellFormed fun hw => ?_
    have hoo := hw.owned x o (List.mem_of_getElem? ho)
    exact (leads_noteCollide hc.1 hoo.1).next fun hf => ih (hc.mono hf) hm

theorem collideOtherFrom_leads (g : Game ℝ) (i x myLoop : ℕ) (hix : i ≠ x) :
    Leads g (g.collideOtherFrom i x myLoop) := by
  fun_induction collideOtherFrom g i x myLoop with
  | case1 g myLoop hnone => exact Leads.refl g
  | case2 g myLoop cell hc hback ih =>
    refine leads_of_wellFormed fun hw => ?_
    have ho := hw.owned i cell (List.mem_of_getElem? hc)
    exact (collideOtherWith_leads g i x cell myLoop 0 hix ho hc).trans ih
  | case3 g myLoop cell hc hback ih =>
    refine leads_of_wellFormed fun hw => ?_
    have ho := hw.owned i cell (List.mem_of_getElem? hc)
    exact (collideOtherWith_leads g i x cell myLoop 0 hix ho hc).trans ih

theorem collideOtherPlayer_leads (g : Game ℝ) (i : ℕ) :
    Leads g (g.collideOtherPlayer i (i + 1)) := by
  have hrange : ∀ xs : List ℕ, (∀ x ∈ xs, i ≠ x) → ∀ g : Game ℝ,
      Leads g (xs.foldl (fun g x => g.collideOtherFrom i x 0) g) := by
    intro xs
    induction xs with
    | nil => exact fun _ g => Leads.refl g
    | cons x xs ih =>
      exact fun hx g => (collideOtherFrom_leads g i x 0 (hx x List.mem_cons_self)).trans
        (ih (fun y hy => hx y (List.mem_cons_of_mem x hy)) _)
  refine hrange _ (fun x hx => ?_) g
  have := (List.mem_range'_1.mp hx).1
  omega

theorem collideOwn_leads (g : Game ℝ) (i : ℕ) (hi : i < g.players.length) :
    Leads g (g.collideOwn i) := by
  refine (collideStatic_leads g i).next fun hf => ?_
  have hi' : i < (g.collideStatic i).players.length := by
    rw [players_length hf]
    exact hi
  exact (collideDynamic_leads _ i hi').trans (collideSelf_leads _ i)

theorem collideOwns_leads (is : List ℕ) (g : Game ℝ) (h : ∀ i ∈ is, i < g.players.length) :
    Leads g (is.foldl collideOwn g) := by
  induction is generalizing g with
  | nil => exact Leads.refl g
  | cons i is ih =>
    refine (collideOwn_leads g i (h i List.mem_cons_self)).next fun hf => ih _ fun j hj => ?_
    rw [players_length hf]
    exact h j (List.mem_cons_of_mem i hj)

theorem collisionPhase_leads (g : Game ℝ) : Leads g g.collisionPhase := by
  refine (collideOwns_leads _ g fun i hi => List.mem_range.mp hi).trans ?_
  exact leads_foldl _ (fun g i => collideOtherPlayer_leads g i) _ _

/-- The state of a split before its cell is allocated. -/
def splitBase {K : Type} [Field K] [Arith K] (g : Game K) (cell : CellPtr) : Game K :=
  (g.setCell cell
    { g.heap cell with radius := Cell.getRadius ((g.heap cell).size / 2) }).setCombine cell
    (g.heap cell).size

theorem splitCell_eq (g : Game ℝ) (i : ℕ) (cell : CellPtr) (hp : cell < g.allocated) :
    g.splitCell i cell =
      (g.splitBase cell).spawn i ((g.splitCell i cell).heap g.allocated) := by
  refine Eq.trans ?_ (spawn_of_heap (g := g.splitBase cell) (i := i)
    (h := (g.splitCell i cell).heap) ?_)
  · rfl
  · intro q hq
    have hne : q ≠ g.allocated := hq
    by_cases hq' : q = cell
    · subst hq'
      simp [splitCell, newPlayerCell, newCell, setCombine, setCell, pushCell, setCells, note, hne,
        splitBase]
    · simp [splitCell, newPlayerCell, newCell, setCombine, setCell, pushCell, setCells, note, hne,
        hq', splitBase]

theorem splitCell_leads {i : ℕ} {cell : CellPtr} (ho : g.Owned cell)
    (hi : i < g.players.length) (hcap : (g.cellsOf i).length < 16) :
    Leads g (g.splitCell i cell) := by
  have hne : cell ≠ g.allocated := ho.1.ne
  have hhalf : Leads g (g.setCell cell
      { g.heap cell with radius := Cell.getRadius ((g.heap cell).size / 2) }) :=
    (Effect.change g cell
      { g.heap cell with radius := Cell.getRadius ((g.heap cell).size / 2) } ho rfl rfl rfl
      (Cell.getRadius_nonneg _) (Or.inr rfl) fun hp =>
        Cell.getRadius_pos (half_pos (Cell.size_pos (hp cell ho.1)))).leads
  have hbase : Leads g (g.splitBase cell) :=
    hhalf.next fun hf => leads_of_wellFormed (setCombine_leads (ho.mono hf))
  have hradius : ((g.splitCell i cell).heap g.allocated).radius =
      ((g.splitBase cell).heap cell).radius := by
    simp [splitCell, splitBase, newPlayerCell, newCell, setCombine, setCell, pushCell, setCells,
      note, Cell.addVelocity, hne.symm]
  have hid : ((g.splitCell i cell).heap g.allocated).id = BitVec.ofNat 32 g.allocated := by
    simp [splitCell, newPlayerCell, newCell, setCombine, setCell, pushCell, setCells, note,
      Cell.addVelocity, hne.symm]
  have hflag : ((g.splitCell i cell).heap g.allocated).flag = playerFlag := by
    simp [splitCell, newPlayerCell, newCell, setCombine, setCell, pushCell, setCells, note,
      Cell.addVelocity, hne.symm, playerFlag]
  rw [splitCell_eq g i cell ho.1]
  refine hbase.next fun hf => leads_of_wellFormed fun hw => ?_
  refine (Effect.spawn (g.splitBase cell) i _ hi hcap hid hflag ?_ fun hp => ?_).leads
  · rw [hradius]
    exact hw.radius cell ho.1
  · rw [hradius]
    exact hp cell ho.1

theorem splitAt_leads (g : Game ℝ) (i x : ℕ) : Leads g (g.splitAt i x) := by
  unfold splitAt
  rcases h : (g.cellsOf i)[x]? with - | cell
  · exact Leads.refl g
  · dsimp only
    split_ifs with hs
    · exact leads_of_wellFormed fun hw =>
        splitCell_leads (hw.owned i cell (List.mem_of_getElem? h)) (lt_of_cellsOf h) hs.1
    · exact Leads.refl g

theorem splitCells_leads (g : Game ℝ) (i : ℕ) : Leads g (g.splitCells i) :=
  leads_foldl _ (fun g x => splitAt_leads g i x) g _

theorem eject_of_heap {g : Game ℝ} {h : CellPtr → Cell ℝ}
    (hheap : ∀ q, q ≠ g.allocated → h q = g.heap q) :
    { g with heap := h, allocated := g.allocated + 1 }.addDynamic g.allocated =
      g.eject (h g.allocated) := by
  have hfun : h = fun q => if q = g.allocated then h g.allocated else g.heap q := by
    funext q
    by_cases hq : q = g.allocated
    · rw [if_pos hq, hq]
    · rw [if_neg hq, hheap q hq]
  rw [hfun, eject]
  simp [setCell]

theorem feedCell_leads (g : Game ℝ) (cell : CellPtr) (ho : g.Owned cell) :
    Leads g (g.feedCell cell) := by
  by_cases hsize : playerMinSize < (g.heap cell).size - feedSize
  · have hstart : Leads g (g.addSize cell (-feedSize)).nextRand.2 := by
      refine (leads_addSize ho fun _ => ?_).trans (Effect.draw _).leads
      linarith [playerMinSize_pos]
    have heq : g.feedCell cell = (g.addSize cell (-feedSize)).nextRand.2.eject
        ((g.feedCell cell).heap g.allocated) := by
      refine Eq.trans ?_ (eject_of_heap (g := (g.addSize cell (-feedSize)).nextRand.2)
        (h := (g.feedCell cell).heap) ?_)
      · rw [feedCell, if_pos hsize]
        rfl
      · intro q hq
        have hne : q ≠ g.allocated := hq
        simp [feedCell, hsize, newCell, nextRand, setCell, addSize, note, addDynamic, hne]
    have hradius : ((g.feedCell cell).heap g.allocated).radius =
        Cell.getRadius ((feedSize : ℝ) * feedMult) := by
      simp [feedCell, hsize, newCell, nextRand, setCell, addSize, note, addDynamic, Cell.addForce]
    have hpos : 0 < ((g.feedCell cell).heap g.allocated).radius := by
      rw [hradius]
      exact Cell.getRadius_pos (by norm_num [feedSize, feedMult])
    have hid : ((g.feedCell cell).heap g.allocated).id = BitVec.ofNat 32 g.allocated := by
      simp [feedCell, hsize, newCell, nextRand, setCell, addSize, note, addDynamic, Cell.addForce]
    have hflag : ((g.feedCell cell).heap g.allocated).flag = foodFlag := by
      simp [feedCell, hsize, newCell, nextRand, setCell, addSize, note, addDynamic, Cell.addForce,
        foodFlag]
    rw [heq]
    exact hstart.trans
      (Effect.eject (g.addSize cell (-feedSize)).nextRand.2 _ hid hflag hpos).leads
  · rw [feedCell, if_neg hsize]
    exact Leads.refl g

theorem feedCells_leads (g : Game ℝ) (i : ℕ) : Leads g (g.feedCells i) :=
  leads_of_wellFormed fun hw => leads_foldl_owned feedCell_leads g _ (hw.owned i)

end Game

end Agar
