import Agar.Sights
import Agar.Rounds

/-! Calm ticks: ticks in which no cell meets another one that it could eat and no cell moves. Single
runs are followed through them. -/

namespace Agar

namespace Vec2

theorem sub_self_eq (v : Vec2 ℝ) : v - v = 0 := Vec2.ext (sub_self v.x) (sub_self v.y)

@[simp] theorem length_zero : (0 : Vec2 ℝ).length = 0 := by
  simp [length]

@[simp] theorem normalize_zero : (0 : Vec2 ℝ).normalize = 0 := by
  unfold normalize
  rw [length_zero]
  exact if_pos rfl

@[simp] theorem zero_mul_eq (s : ℝ) : (0 : Vec2 ℝ) * s = 0 := Vec2.ext (zero_mul s) (zero_mul s)

@[simp] theorem add_zero_eq (v : Vec2 ℝ) : v + 0 = v := Vec2.ext (add_zero v.x) (add_zero v.y)

@[simp] theorem zero_div_eq (s : ℝ) : (0 : Vec2 ℝ) / s = 0 := Vec2.ext (zero_div s) (zero_div s)

theorem x_le_length (v : Vec2 ℝ) : v.x ≤ v.length := by
  unfold length
  exact Real.le_sqrt_of_sq_le (by nlinarith [mul_self_nonneg v.y])

end Vec2

namespace Cell

theorem collide_far {a b : Cell ℝ} (h : b.radius + a.radius < (b.position - a.position).length) :
    a.collide b = .none := by
  unfold Cell.collide Cell.overlapOf
  exact if_neg (by linarith)

theorem collide_same {a b : Cell ℝ} (ha : 0 < a.radius) (hb : 0 < b.radius)
    (hpos : a.position = b.position) : a.collide b =
      if a.size / b.size > 1.3333 then .bigger else if a.size / b.size < 0.75 then .smaller
      else .overlap := by
  have hoverlap : a.overlapOf b = b.radius + a.radius := by
    unfold Cell.overlapOf
    rw [hpos, Vec2.sub_self_eq, Vec2.length_zero, sub_zero]
  have hmin : 0 < min a.radius b.radius := lt_min ha hb
  have hdeep : (b.radius + a.radius) / (2 * min a.radius b.radius) > 0.75 := by
    rw [gt_iff_lt, lt_div_iff₀ (by positivity)]
    have hle₁ := min_le_left a.radius b.radius
    have hle₂ := min_le_right a.radius b.radius
    linarith
  rw [collide_of_solid ha hb, hoverlap, if_pos (by positivity), if_pos hdeep]

theorem moveRel_zero {c : Cell ℝ} (h : OnMap c.position) : c.moveRel 0 = c := by
  have hpos := moveAbs_of_onMap h c
  unfold moveRel
  rw [Vec2.add_zero_eq]
  unfold moveAbs at hpos ⊢
  dsimp only at hpos ⊢
  rw [hpos]

/-- Nothing moves the cell. -/
structure Resting (c : Cell ℝ) : Prop where
  force : c.force = 0
  acceleration : c.acceleration = 0
  velocity : c.velocity = 0
  onMap : OnMap c.position

theorem Resting.update {c : Cell ℝ} (h : c.Resting) (dt : ℝ) : c.update dt = c := by
  have hmove := moveRel_zero h.onMap
  obtain ⟨hforce, hacceleration, hvelocity, -⟩ := h
  cases c
  dsimp only at hforce hacceleration hvelocity
  subst hforce hacceleration hvelocity
  unfold Cell.update
  simp only [Vec2.normalize_zero, Vec2.zero_mul_eq, Vec2.add_zero_eq, Vec2.zero_div_eq]
  rw [hmove]

end Cell

namespace Game
variable {g g' : Game ℝ}

/-- Only the record of calls has grown. -/
def Quiet (g g' : Game ℝ) : Prop := ∃ cs, g' = { g with calls := g.calls ++ cs }

theorem Quiet.refl (g : Game ℝ) : Quiet g g := ⟨[], by rw [List.append_nil]⟩

theorem Quiet.trans {g g' g'' : Game ℝ} (h : Quiet g g') (h' : Quiet g' g'') : Quiet g g'' := by
  obtain ⟨cs, rfl⟩ := h
  obtain ⟨cs', rfl⟩ := h'
  exact ⟨cs ++ cs', by simp⟩

theorem quiet_note (g : Game ℝ) (c : Call ℝ) : Quiet g (g.note c) := ⟨[c], rfl⟩

theorem Quiet.heap (h : Quiet g g') : g'.heap = g.heap := by
  obtain ⟨cs, rfl⟩ := h
  rfl

theorem Quiet.players (h : Quiet g g') : g'.players = g.players := by
  obtain ⟨cs, rfl⟩ := h
  rfl

theorem Quiet.cellsOf (h : Quiet g g') (i : ℕ) : g'.cellsOf i = g.cellsOf i :=
  cellsOf_congr h.players i

theorem Quiet.staticMap (h : Quiet g g') : g'.staticMap = g.staticMap := by
  obtain ⟨cs, rfl⟩ := h
  rfl

theorem Quiet.dynamicMap (h : Quiet g g') : g'.dynamicMap = g.dynamicMap := by
  obtain ⟨cs, rfl⟩ := h
  rfl

theorem Quiet.currentTime (h : Quiet g g') : g'.currentTime = g.currentTime := by
  obtain ⟨cs, rfl⟩ := h
  rfl

theorem quiet_foldl {α : Type} {f : Game ℝ → α → Game ℝ} {l : List α} (g : Game ℝ)
    (h : ∀ g', Quiet g g' → ∀ a ∈ l, Quiet g' (f g' a)) : Quiet g (l.foldl f g) := by
  induction l generalizing g with
  | nil => exact Quiet.refl g
  | cons a l ih =>
    have ha := h g (Quiet.refl g) a List.mem_cons_self
    exact ha.trans (ih _ fun g' hg' b hb => h g' (ha.trans hg') b (List.mem_cons_of_mem a hb))

theorem noteSelf_quiet (g : Game ℝ) (a b : CellPtr) : Quiet g (g.noteSelf a b) := by
  have hcollide : Quiet g (g.noteCollide a b) := quiet_note g _
  refine hcollide.trans ?_
  unfold noteSelf noteCombine
  dsimp only
  split_ifs
  · exact (quiet_note _ _).trans (quiet_note _ _)
  · exact quiet_note _ _

/-- Nothing on the map is small enough for the cell to eat it. -/
structure Spares (g : Game ℝ) (c : CellPtr) : Prop where
  static : ∀ b, ∀ s ∈ g.staticMap b, (g.heap c).collide (g.heap s) ≠ .bigger
  dynamic : ∀ d ∈ g.dynamicMap, (g.heap c).collide (g.heap d) ≠ .bigger ∧
    ((g.heap d).flag.isFood ∨ (g.heap d).flag.isVirus)

theorem Spares.quiet {c : CellPtr} (h : Spares g c) (hq : Quiet g g') : Spares g' c := by
  refine ⟨?_, ?_⟩
  · rw [hq.heap, hq.staticMap]
    exact h.static
  · rw [hq.heap, hq.dynamicMap]
    exact h.dynamic

/-- The cells do not combine, and they do not push each other. -/
def Rest (g : Game ℝ) (c o : CellPtr) : Prop :=
  ¬ (g.ready c ∧ g.ready o) ∧ ((g.heap c).collide (g.heap o) = .none ∨
    (g.heap c).position = (g.heap o).position ∧ OnMap (g.heap c).position)

theorem collideBlock_quiet (g : Game ℝ) (cell : CellPtr) (b : Vec2i) (loop : ℕ)
    (h : ∀ s ∈ g.staticMap b, (g.heap cell).collide (g.heap s) ≠ .bigger) :
    Quiet g (g.collideBlock cell b loop) := by
  fun_induction collideBlock g cell b loop with
  | case1 g loop hnone => exact Quiet.refl g
  | case2 g loop s hs hbig ih => exact absurd hbig (h s (List.mem_of_getElem? hs))
  | case3 g loop s hs hbig ih => exact (quiet_note g _).trans (ih h)

theorem collideStatic_quiet (g : Game ℝ) (i : ℕ) (h : ∀ c ∈ g.cellsOf i, ∀ b,
    ∀ s ∈ g.staticMap b, (g.heap c).collide (g.heap s) ≠ .bigger) : Quiet g (g.collideStatic i) := by
  have hblocks : ∀ c ∈ g.cellsOf i, ∀ (bs : List Vec2i) (g' : Game ℝ), Quiet g g' →
      Quiet g' (bs.foldl (fun g b => g.collideBlock c b 0) g') := by
    intro c hc bs g' hg'
    refine quiet_foldl g' fun g'' hg'' b _ => collideBlock_quiet g'' c b 0 ?_
    have hq := hg'.trans hg''
    rw [hq.staticMap, hq.heap]
    exact h c hc b
  exact quiet_foldl g fun g' hg' c hc => hblocks c hc blockGrid g' hg'

theorem collideDynamicWith_quiet (g : Game ℝ) (i : ℕ) (cell : CellPtr) (myLoop loop : ℕ)
    (h : ∀ d ∈ g.dynamicMap, (g.heap cell).collide (g.heap d) ≠ .bigger ∧
      ((g.heap d).flag.isFood ∨ (g.heap d).flag.isVirus)) :
    Quiet g (g.collideDynamicWith i cell myLoop loop).1 ∧
      (g.collideDynamicWith i cell myLoop loop).2 = false := by
  fun_induction collideDynamicWith g i cell myLoop loop with
  | case1 g loop hnone => exact ⟨Quiet.refl g, rfl⟩
  | case2 g loop d hd flag result hbig g' hpop =>
    exact absurd hbig (h d (List.mem_of_getElem? hd)).1
  | case3 g loop d hd flag result hbig g' hpop ih =>
    exact absurd hbig (h d (List.mem_of_getElem? hd)).1
  | case4 g loop d hd flag result hbig hsmall =>
    exact absurd (h d (List.mem_of_getElem? hd)).2 hsmall.2
  | case5 g loop d hd flag result hbig hsmall ih =>
    obtain ⟨hq, hback⟩ := ih h
    exact ⟨(quiet_note g _).trans hq, hback⟩

theorem collideDynamicFrom_quiet (g : Game ℝ) (i myLoop : ℕ)
    (h : ∀ c ∈ g.cellsOf i, g.Spares c) : Quiet g (g.collideDynamicFrom i myLoop) := by
  fun_induction collideDynamicFrom g i myLoop with
  | case1 g myLoop hnone => exact Quiet.refl g
  | case2 g myLoop cell hc hback ih =>
    have hfalse := (collideDynamicWith_quiet g i cell myLoop 0
      (h cell (List.mem_of_getElem? hc)).dynamic).2
    rw [hback] at hfalse
    cases hfalse
  | case3 g myLoop cell hc hback ih =>
    have hq := (collideDynamicWith_quiet g i cell myLoop 0
      (h cell (List.mem_of_getElem? hc)).dynamic).1
    refine hq.trans (ih fun c hc' => ?_)
    rw [hq.cellsOf] at hc'
    exact (h c hc').quiet hq

theorem setCell_self_eq (g : Game ℝ) (p : CellPtr) : g.setCell p (g.heap p) = g := by
  unfold setCell
  have hheap : (fun q => if q = p then g.heap p else g.heap q) = g.heap := by
    funext q
    split_ifs with hq
    · rw [hq]
    · rfl
  rw [hheap]

theorem pushApart_same {c o : CellPtr} (hpos : (g.heap c).position = (g.heap o).position)
    (ho : OnMap (g.heap c).position) : g.pushApart c o = g := by
  have hc : (g.heap c).moveRel 0 = g.heap c := Cell.moveRel_zero ho
  have ho' : (g.heap o).moveRel 0 = g.heap o := Cell.moveRel_zero (hpos ▸ ho)
  unfold pushApart
  dsimp only
  rw [hpos, Vec2.sub_self_eq, Vec2.normalize_zero, Vec2.zero_mul_eq, Vec2.zero_mul_eq,
    Vec2.zero_mul_eq, hc, setCell_self_eq, ho', setCell_self_eq]

theorem collideSelfWith_quiet (g : Game ℝ) (i : ℕ) (cell : CellPtr) (myLoop : ℤ) (loop : ℕ)
    (h : ∀ (n : ℕ) (o : CellPtr), loop ≤ n → (g.cellsOf i)[n]? = some o → g.Rest cell o) :
    Quiet g (g.collideSelfWith i cell myLoop loop).1 ∧
      (g.collideSelfWith i cell myLoop loop).2 = myLoop := by
  have hnext : ∀ {g g' : Game ℝ} {loop : ℕ}, Quiet g g' →
      (∀ (n : ℕ) (o : CellPtr), loop ≤ n → (g.cellsOf i)[n]? = some o → g.Rest cell o) →
      ∀ (n : ℕ) (o : CellPtr), loop + 1 ≤ n → (g'.cellsOf i)[n]? = some o → g'.Rest cell o := by
    intro g g' loop hq h n o hn ho
    rw [hq.cellsOf] at ho
    have hrest := h n o (by omega) ho
    unfold Rest ready at hrest ⊢
    rwa [hq.heap, hq.currentTime]
  fun_induction collideSelfWith g i cell myLoop loop with
  | case1 g myLoop loop hnone => exact ⟨Quiet.refl g, rfl⟩
  | case2 g myLoop loop o ho result g' hready hover hbig ih =>
    exact absurd hready (h loop o le_rfl ho).1
  | case3 g myLoop loop o ho result g' hready hover hbig ih =>
    exact absurd hready (h loop o le_rfl ho).1
  | case4 g myLoop loop o ho result g' hready hover ih =>
    exact absurd hready (h loop o le_rfl ho).1
  | case5 g myLoop loop o ho result g' hready htouch ih =>
    have hq : Quiet g g' := noteSelf_quiet g cell o
    rcases (h loop o le_rfl ho).2 with hnone | ⟨hpos, honMap⟩
    · rw [show result = .none from hnone] at htouch
      exact absurd htouch (lt_irrefl _)
    · have hsame : g'.pushApart cell o = g' := by
        refine pushApart_same ?_ ?_
        · rw [hq.heap]
          exact hpos
        · rw [hq.heap]
          exact honMap
      rw [hsame] at ih ⊢
      obtain ⟨hq', hm⟩ := ih (hnext hq h)
      exact ⟨hq.trans hq', hm⟩
  | case6 g myLoop loop o ho result g' hready htouch ih =>
    have hq : Quiet g g' := noteSelf_quiet g cell o
    obtain ⟨hq', hm⟩ := ih (hnext hq h)
    exact ⟨hq.trans hq', hm⟩

theorem collideSelfFrom_quiet (g : Game ℝ) (i myLoop : ℕ)
    (h : ∀ (m n : ℕ) (c o : CellPtr), m < n → (g.cellsOf i)[m]? = some c → (g.cellsOf i)[n]? = some o →
      g.Rest c o) : Quiet g (g.collideSelfFrom i myLoop) := by
  fun_induction collideSelfFrom g i myLoop with
  | case1 g myLoop hnone => exact Quiet.refl g
  | case2 g myLoop cell hcell r ih =>
    obtain ⟨hq, hm⟩ := collideSelfWith_quiet g i cell myLoop (myLoop + 1) fun n o hn ho =>
      h myLoop n cell o (by omega) hcell ho
    refine hq.trans (ih fun m n c o hmn hc ho => ?_)
    have hq' : Quiet g r.1 := hq
    rw [hq'.cellsOf] at hc ho
    have hrest := h m n c o hmn hc ho
    unfold Rest ready at hrest ⊢
    rwa [hq'.heap, hq'.currentTime]

theorem collideOtherWith_quiet (g : Game ℝ) (i x : ℕ) (cell : CellPtr) (myLoop loop : ℕ)
    (h : ∀ o ∈ g.cellsOf x, (g.heap cell).collide (g.heap o) ≠ .bigger ∧
      (g.heap cell).collide (g.heap o) ≠ .smaller) :
    Quiet g (g.collideOtherWith i x cell myLoop loop).1 ∧
      (g.collideOtherWith i x cell myLoop loop).2 = false := by
  fun_induction collideOtherWith g i x cell myLoop loop with
  | case1 g loop hnone => exact ⟨Quiet.refl g, rfl⟩
  | case2 g loop o ho result g' hbig ih =>
    exact absurd hbig (h o (List.mem_of_getElem? ho)).1
  | case3 g loop o ho result g' hbig hsmall =>
    exact absurd hsmall (h o (List.mem_of_getElem? ho)).2
  | case4 g loop o ho result g' hbig hsmall ih =>
    obtain ⟨hq, hback⟩ := ih h
    exact ⟨(quiet_note g _).trans hq, hback⟩

theorem collideOtherFrom_quiet (g : Game ℝ) (i x myLoop : ℕ)
    (h : ∀ c ∈ g.cellsOf i, ∀ o ∈ g.cellsOf x, (g.heap c).collide (g.heap o) ≠ .bigger ∧
      (g.heap c).collide (g.heap o) ≠ .smaller) : Quiet g (g.collideOtherFrom i x myLoop) := by
  fun_induction collideOtherFrom g i x myLoop with
  | case1 g myLoop hnone => exact Quiet.refl g
  | case2 g myLoop cell hc hback ih =>
    have hfalse := (collideOtherWith_quiet g i x cell myLoop 0
      (h cell (List.mem_of_getElem? hc))).2
    rw [hback] at hfalse
    cases hfalse
  | case3 g myLoop cell hc hback ih =>
    have hq := (collideOtherWith_quiet g i x cell myLoop 0 (h cell (List.mem_of_getElem? hc))).1
    refine hq.trans (ih fun c hc' o ho' => ?_)
    rw [hq.cellsOf] at hc' ho'
    rw [hq.heap]
    exact h c hc' o ho'

/-- No cell of a player meets anything it could do something with. -/
structure Peaceful (g : Game ℝ) : Prop where
  spares : ∀ i : ℕ, ∀ c ∈ g.cellsOf i, g.Spares c
  rest : ∀ (i m n : ℕ) (c o : CellPtr), m < n → (g.cellsOf i)[m]? = some c → (g.cellsOf i)[n]? = some o → g.Rest c o
  others : ∀ i j : ℕ, i ≠ j → ∀ c ∈ g.cellsOf i, ∀ o ∈ g.cellsOf j,
    (g.heap c).collide (g.heap o) ≠ .bigger ∧ (g.heap c).collide (g.heap o) ≠ .smaller

theorem collideOwn_quiet (g : Game ℝ) (i : ℕ) (hspares : ∀ c ∈ g.cellsOf i, g.Spares c)
    (hrest : ∀ (m n : ℕ) (c o : CellPtr), m < n → (g.cellsOf i)[m]? = some c → (g.cellsOf i)[n]? = some o →
      g.Rest c o) : Quiet g (g.collideOwn i) := by
  have hkeep : ∀ {g' : Game ℝ}, Quiet g g' → ∀ c ∈ g'.cellsOf i, g'.Spares c := by
    intro g' hq c hc
    rw [hq.cellsOf] at hc
    exact (hspares c hc).quiet hq
  have hstatic := collideStatic_quiet g i fun c hc => (hspares c hc).static
  have hdynamic := hstatic.trans (collideDynamicFrom_quiet _ i 0 (hkeep hstatic))
  refine hdynamic.trans (collideSelfFrom_quiet _ i 0 fun m n c o hmn hc ho => ?_)
  rw [hdynamic.cellsOf] at hc ho
  have hr := hrest m n c o hmn hc ho
  unfold Rest ready at hr ⊢
  rwa [hdynamic.heap, hdynamic.currentTime]

theorem Peaceful.quiet (h : Peaceful g) (hq : Quiet g g') : Peaceful g' := by
  obtain ⟨cs, rfl⟩ := hq
  exact ⟨fun i c hc => ⟨(h.spares i c hc).static, (h.spares i c hc).dynamic⟩, h.rest, h.others⟩

theorem collideOwns_quiet (h : Peaceful g) (is : List ℕ) : Quiet g (is.foldl collideOwn g) :=
  quiet_foldl g fun g' hg' i _ =>
    collideOwn_quiet g' i ((h.quiet hg').spares i) ((h.quiet hg').rest i)

theorem collideOtherPlayer_quiet (h : Peaceful g) (i : ℕ) :
    Quiet g (g.collideOtherPlayer i (i + 1)) := by
  refine quiet_foldl g fun g' hg' x hx => collideOtherFrom_quiet g' i x 0 ?_
  refine (h.quiet hg').others i x ?_
  have := (List.mem_range'_1.mp hx).1
  omega

theorem Peaceful.collisionPhase (h : Peaceful g) : Quiet g g.collisionPhase := by
  have hown := collideOwns_quiet h (List.range g.players.length)
  exact hown.trans (quiet_foldl _ fun g' hg' i _ =>
    collideOtherPlayer_quiet ((h.quiet hown).quiet hg') i)

theorem updateCell_quiet (dt : ℝ) (g : Game ℝ) {p : CellPtr} (h : (g.heap p).Resting) :
    Quiet g (g.updateCell dt p) := by
  refine (quiet_note g (.update p (g.heap p).radius)).trans ?_
  unfold updateCell
  rw [h.update]
  have hsame := setCell_self_eq (g.noteUpdate p) p
  rw [show (g.noteUpdate p).heap p = g.heap p from rfl] at hsame
  rw [hsame]
  exact Quiet.refl _

theorem updateDynamic_quiet (g : Game ℝ) (dt : ℝ) (h : ∀ d ∈ g.dynamicMap, (g.heap d).Resting) :
    Quiet g (g.updateDynamic dt) :=
  quiet_foldl g fun g' hg' d hd => updateCell_quiet dt g' (by rw [hg'.heap]; exact h d hd)

/-- The cell once the mouse has pulled it. -/
def pulled {K : Type} [Field K] [LinearOrder K] [Arith K] (c : Cell K) : Cell K :=
  let alpha := c.mouseVector.length / c.radius
  let direction : Vec2 K := c.mouseVector.normalize * (mouseForce * c.size : K)
  let direction : Vec2 K := if alpha < 1 then direction * alpha else direction
  if 0.1 < alpha then c.addForce direction else c

theorem pulled_of_still {c : Cell ℝ} (h : c.mouseVector = 0) : pulled c = c := by
  unfold pulled
  simp only [h, Vec2.length_zero, zero_div]
  exact if_neg (by norm_num)

theorem pulled_rest (c : Cell ℝ) : (pulled c).position = c.position ∧
    (pulled c).radius = c.radius ∧ (pulled c).mouseVector = c.mouseVector := by
  unfold pulled
  dsimp only
  split_ifs <;> exact ⟨rfl, rfl, rfl⟩

theorem driveCell_resting (dt : ℝ) (g : Game ℝ) {p : CellPtr} (h : (g.heap p).Resting) :
    ∃ g', Quiet g g' ∧ g.driveCell dt p = (g'.setCell p (pulled (g.heap p))).pushMove p := by
  refine ⟨g.updateCell dt p, updateCell_quiet dt g h, ?_⟩
  have hheap : (g.updateCell dt p).heap p = g.heap p := by rw [(updateCell_quiet dt g h).heap]
  unfold driveCell pulled
  dsimp only
  rw [hheap]
  split_ifs
  · rfl
  · rfl
  · rw [← hheap, setCell_self_eq]

/-- Calls are made, and cells are reported to move. -/
def Told (moves : List CellPtr) (g g' : Game ℝ) : Prop :=
  ∃ cs, g' = { g with
    calls := g.calls ++ cs
    cellEvents := { g.cellEvents with move := g.cellEvents.move ++ moves } }

theorem Quiet.told (h : Quiet g g') : Told [] g g' := by
  obtain ⟨cs, rfl⟩ := h
  exact ⟨cs, by simp⟩

theorem Told.trans {l l' : List CellPtr} {g g' g'' : Game ℝ} (h : Told l g g')
    (h' : Told l' g' g'') : Told (l ++ l') g g'' := by
  obtain ⟨cs, rfl⟩ := h
  obtain ⟨cs', rfl⟩ := h'
  exact ⟨cs ++ cs', by simp⟩

theorem Told.heap {l : List CellPtr} (h : Told l g g') : g'.heap = g.heap := by
  obtain ⟨cs, rfl⟩ := h
  rfl

theorem pushMove_told (g : Game ℝ) (p : CellPtr) : Told [p] g (g.pushMove p) :=
  ⟨[], by simp [pushMove]⟩

theorem told_foldl {f : Game ℝ → CellPtr → Game ℝ} (l : List CellPtr) (g : Game ℝ)
    (h : ∀ g', g'.heap = g.heap → ∀ p ∈ l, Told [p] g' (f g' p)) : Told l g (l.foldl f g) := by
  induction l generalizing g with
  | nil => exact (Quiet.refl g).told
  | cons p l ih =>
    have hp := h g rfl p List.mem_cons_self
    exact hp.trans (ih _ fun g' hg' q hq => h g' (hg'.trans hp.heap) q (List.mem_cons_of_mem p hq))

theorem driveCell_told (dt : ℝ) (g : Game ℝ) {p : CellPtr} (h : (g.heap p).Resting)
    (hmouse : (g.heap p).mouseVector = 0) : Told [p] g (g.driveCell dt p) := by
  obtain ⟨g', hq, hdrive⟩ := driveCell_resting dt g h
  rw [hdrive, pulled_of_still hmouse, ← hq.heap, setCell_self_eq]
  exact hq.told.trans (pushMove_told g' p)

theorem drive_told (g : Game ℝ) (dt : ℝ)
    (h : ∀ c ∈ g.players.flatMap Player.cells,
      (g.heap c).Resting ∧ (g.heap c).mouseVector = 0) :
    Told (g.players.flatMap Player.cells ++ g.dynamicMap) g (g.drive dt) := by
  have hown := told_foldl (f := driveCell dt) (g.players.flatMap Player.cells) g
    fun g' hg' c hc => by
      have hcell := h c hc
      rw [← hg'] at hcell
      exact driveCell_told dt g' hcell.1 hcell.2
  have hdynamic : ((g.players.flatMap Player.cells).foldl (driveCell dt) g).dynamicMap =
      g.dynamicMap := by
    obtain ⟨cs, hcs⟩ := hown
    rw [hcs]
  have hmap := told_foldl g.dynamicMap ((g.players.flatMap Player.cells).foldl (driveCell dt) g)
    fun g' _ p _ => pushMove_told g' p
  have htold := hown.trans hmap
  unfold drive
  dsimp only
  rw [hdynamic]
  exact htold

/-- Nothing in the game moves, and no cell eats another one. -/
structure Calm (g : Game ℝ) (clock : ℝ) : Prop where
  peaceful : Peaceful (g.beginTick clock)
  dynamic : ∀ d ∈ g.dynamicMap, (g.heap d).Resting

end Game

namespace Sys
open Game

theorem collide_quiet {s : Sys ℝ} {clock : ℝ} (h : s.game.Calm clock)
    (hconnected : ∀ p ∈ s.game.players, p.wsMessage.connected = true) :
    Quiet (s.game.beginTick clock) (s.tickStart clock).collide.game := by
  have hstart : Quiet (s.game.beginTick clock) (s.tickStart clock).game := by
    rw [tickStart_of_connected hconnected]
    exact updateDynamic_quiet _ _ h.dynamic
  exact hstart.trans (h.peaceful.quiet hstart).collisionPhase

theorem tickMoved_trace {s : Sys ℝ}
    (hconnected : ∀ p ∈ s.game.players, p.wsMessage.connected = true) (clock : ℝ) :
    (s.tickMoved clock).trace = s.trace ++ [.collided (s.tickStart clock).game
      (s.tickStart clock).game.collisionPhase] := by
  unfold tickMoved
  rw [tickStart_of_connected hconnected]
  rfl

theorem tick_collides {s : Sys ℝ}
    (hconnected : ∀ p ∈ s.game.players, p.wsMessage.connected = true) (clock : ℝ) :
    .collided (s.tickStart clock).game (s.tickStart clock).game.collisionPhase ∈
      (s.step (.tick clock)).trace := by
  have hextends : (s.tickMoved clock).trace <+: (s.tick clock).trace := by
    rw [tick_trace]
    exact (updates_extend (s.tickMoved clock) _).trans (List.prefix_append _ _)
  refine hextends.subset ?_
  rw [tickMoved_trace hconnected]
  exact List.mem_append_right _ (List.mem_singleton_self _)

theorem tickMoved_told {s : Sys ℝ} {clock : ℝ} (h : s.game.Calm clock)
    (hconnected : ∀ p ∈ s.game.players, p.wsMessage.connected = true)
    (hown : ∀ c ∈ s.game.players.flatMap Player.cells,
      (s.game.heap c).Resting ∧ (s.game.heap c).mouseVector = 0) :
    Told (s.game.players.flatMap Player.cells ++ s.game.dynamicMap) (s.game.beginTick clock)
      (s.tickMoved clock).game := by
  have hq := collide_quiet h hconnected
  have hdrive := drive_told (s.tickStart clock).collide.game (clock - s.game.currentTime) (by
    rw [hq.players, hq.heap]
    exact hown)
  rw [hq.players, hq.dynamicMap] at hdrive
  exact hq.told.trans hdrive

theorem tickMoved_pulled {s : Sys ℝ} {clock : ℝ} {c : CellPtr} (h : s.game.Calm clock)
    (hconnected : ∀ p ∈ s.game.players, p.wsMessage.connected = true)
    (hcells : s.game.players.flatMap Player.cells = [c]) (hrest : (s.game.heap c).Resting) :
    Told (c :: s.game.dynamicMap)
      ((s.game.beginTick clock).setCell c (pulled (s.game.heap c))) (s.tickMoved clock).game := by
  have hq := collide_quiet h hconnected
  obtain ⟨g', hq', hdrive⟩ := driveCell_resting (clock - s.game.currentTime)
    (s.tickStart clock).collide.game (p := c) (by rw [hq.heap]; exact hrest)
  rw [hq.heap] at hdrive
  have hmoves : ∀ (l : List CellPtr) (g : Game ℝ), Told l g (l.foldl pushMove g) :=
    fun l g => told_foldl l g fun g' _ p _ => pushMove_told g' p
  obtain ⟨cs, hcs⟩ := hq.trans hq'
  have hmoved : (s.tickMoved clock).game =
      s.game.dynamicMap.foldl pushMove ((g'.setCell c (pulled (s.game.heap c))).pushMove c) := by
    show (s.tickStart clock).collide.game.drive (clock - s.game.currentTime) = _
    unfold drive
    dsimp only
    rw [hq.players, show (s.game.beginTick clock).players = s.game.players from rfl, hcells,
      List.foldl_cons, List.foldl_nil, hdrive, hcs]
    rfl
  rw [hmoved]
  have hset : Told [] ((s.game.beginTick clock).setCell c (pulled (s.game.heap c)))
      (g'.setCell c (pulled (s.game.heap c))) := by
    rw [hcs]
    exact ⟨cs, by simp [setCell]⟩
  exact (hset.trans (pushMove_told _ c)).trans (hmoves s.game.dynamicMap _)

end Sys

namespace Game
variable {g g' : Game ℝ}

/-- The cells are the same, in the same places. -/
structure Same (g g' : Game ℝ) : Prop where
  rest : g' = { g with
    players := g'.players
    calls := g'.calls
    currentTime := g'.currentTime
    cellEvents := g'.cellEvents }
  cells : g'.players.map Player.cells = g.players.map Player.cells

theorem Same.trans {g g' g'' : Game ℝ} (h : Same g g') (h' : Same g' g'') : Same g g'' := by
  refine ⟨?_, h'.cells.trans h.cells⟩
  rw [h'.rest, h.rest]

theorem Told.same {l : List CellPtr} (h : Told l g g') : Same g g' := by
  obtain ⟨cs, rfl⟩ := h
  exact ⟨rfl, rfl⟩

theorem beginTick_same (g : Game ℝ) (clock : ℝ) : Same g (g.beginTick clock) := ⟨rfl, rfl⟩

theorem Same.heap (h : Same g g') : g'.heap = g.heap := by rw [h.rest]

theorem Same.staticMap (h : Same g g') : g'.staticMap = g.staticMap := by rw [h.rest]

theorem Same.dynamicMap (h : Same g g') : g'.dynamicMap = g.dynamicMap := by rw [h.rest]

theorem Same.allocated (h : Same g g') : g'.allocated = g.allocated := by rw [h.rest]

theorem Same.rand (h : Same g g') : g'.rand = g.rand := by rw [h.rest]

theorem commands_of_none (g : Game ℝ) (i : ℕ) {p : Player ℝ} (hsplit : p.doSplit = false)
    (hfeed : p.doFeed = false) : g.commands i p = g := by
  unfold commands splitCommand feedCommand
  rw [hsplit, hfeed]
  rfl

theorem parseEvents_of_told {l : List CellPtr} (hevents : g.cellEvents = { move := l }) :
    g.parseEvents = g := by
  unfold parseEvents
  rw [hevents]
  rfl

end Game

namespace Sys
open Game

/-- Nobody has asked for anything. -/
def Idle (s : Sys ℝ) : Prop := ∀ p ∈ s.game.players, p.doSplit = false ∧ p.doFeed = false

theorem updateAt_same {s : Sys ℝ} (hw : s.game.WellFormed) (hidle : s.Idle) (i : ℕ) :
    Same s.game (s.updateAt i).game ∧ (s.updateAt i).Idle ∧
      (s.updateAt i).game.cellEvents = s.game.cellEvents := by
  unfold updateAt
  rcases hp : s.game.players[i]? with - | p
  · exact ⟨⟨rfl, rfl⟩, hidle, rfl⟩
  · obtain ⟨hsplit, hfeed⟩ := hidle p (List.mem_of_getElem? hp)
    have hcommands := commands_of_none s.game i hsplit hfeed
    have hfinished := finished_player hw hp
    rw [hcommands] at hfinished
    have hafter : (s.game.updatePlayer i p).after =
        s.game.setPlayer i (s.game.updatePlayer i p).finished.player := by
      show (s.game.commands i p).setPlayer i _ = _
      rw [hcommands]
    refine ⟨⟨?_, ?_⟩, ?_, ?_⟩
    · dsimp only
      rw [hafter]
      rfl
    · dsimp only
      rw [hafter]
      show (s.game.players.set i _).map Player.cells = _
      rw [List.map_set]
      refine map_set_same hp ?_
      rw [hfinished.2.1]
      simp [cellsOf, hp]
    · dsimp only
      rw [Idle, hafter]
      intro q hq
      rcases List.mem_or_eq_of_mem_set hq with hq | hq
      · exact hidle q hq
      · rw [hq]
        exact ⟨hfinished.2.2.1, hfinished.2.2.2.1⟩
    · dsimp only
      rw [hafter]
      rfl

theorem updateAll_same {s : Sys ℝ} (hw : s.game.WellFormed) (hidle : s.Idle) :
    Same s.game s.updateAll.game ∧ s.updateAll.Idle ∧
      s.updateAll.game.cellEvents = s.game.cellEvents := by
  unfold updateAll
  induction List.range s.game.players.length generalizing s with
  | nil => exact ⟨⟨rfl, rfl⟩, hidle, rfl⟩
  | cons i is ih =>
    obtain ⟨hsame, hidle', hevents⟩ := updateAt_same hw hidle i
    have hw' : (s.updateAt i).game.WellFormed := by
      unfold updateAt
      rcases hp : s.game.players[i]? with - | p
      · exact hw
      · exact after_wellFormed hw hp
    obtain ⟨hsame', hidle'', hevents'⟩ := ih hw' hidle'
    exact ⟨hsame.trans hsame', hidle'', hevents'.trans hevents⟩

theorem tick_same {s : Sys ℝ} {clock : ℝ} (hi : Invariant .idle s) (h : s.game.Calm clock)
    (hconnected : ∀ p ∈ s.game.players, p.wsMessage.connected = true)
    (hown : ∀ c ∈ s.game.players.flatMap Player.cells,
      (s.game.heap c).Resting ∧ (s.game.heap c).mouseVector = 0) (hidle : s.Idle) :
    Same s.game (s.tick clock).game ∧ (s.tick clock).Idle := by
  have htold := tickMoved_told h hconnected hown
  have hi' : Invariant (.updating 0) (s.tickMoved clock) :=
    Moves.invariant (tickMoved_moves s clock) hi
  have hidle' : (s.tickMoved clock).Idle := by
    obtain ⟨cs, hcs⟩ := htold
    unfold Idle
    rw [hcs]
    exact hidle
  obtain ⟨hsame, hidle'', hevents⟩ := updateAll_same hi'.wellFormed hidle'
  have hmoves : (s.tickMoved clock).updateAll.game.cellEvents =
      { move := s.game.players.flatMap Player.cells ++ s.game.dynamicMap } := by
    rw [hevents]
    obtain ⟨cs, hcs⟩ := htold
    rw [hcs]
    rfl
  have hgame := tick_game s clock
  rw [parseEvents_of_told hmoves] at hgame
  have hmoved : Same s.game (s.tickMoved clock).game :=
    (beginTick_same s.game clock).trans htold.same
  have hall : Same s.game (s.tickMoved clock).updateAll.game := hmoved.trans hsame
  rw [← hgame] at hall
  refine ⟨hall, ?_⟩
  unfold Idle at hidle'' ⊢
  rw [hgame]
  exact hidle''

end Sys

end Agar
