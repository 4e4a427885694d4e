import Agar.Lasting

/-! The divisions by a cell's size. `Cell::Update` divides by `Size()`, which is zero for a cell that
a pop has spent on its small balls. Such a cell has no center from then on. -/

namespace Agar
open Trace

section Blurred
variable {K : Type} [Zero K] [DecidableEq K]

/-- An `Update` of the cell that divides by a size of zero. -/
def Call.blurs (c : CellPtr) : Call K → Bool
  | .update p radius => p = c && radius = 0
  | _ => false

/-- An `Update` of the cell has divided by zero: its center is not a number. -/
def Game.blurred (g : Game K) (c : CellPtr) : Bool := g.calls.any (Call.blurs c)

/-- No `Update` so far has divided by zero. -/
def Game.Sharp (g : Game K) : Prop := ∀ c, g.blurred c = false

end Blurred

/-- The collision phase leaves no player a cell without a radius. -/
def Obs.Solid : Obs ℝ → Prop
  | .collided _ g => ∀ i, ∀ c ∈ g.cellsOf i, 0 < (g.heap c).radius
  | _ => True

/-- A collision phase has left the cell to a player without a radius. -/
def Spent (tr : List (Obs ℝ)) (c : CellPtr) : Prop :=
  ∃ g g', .collided g g' ∈ tr ∧ ∃ i, c ∈ g'.cellsOf i ∧ (g'.heap c).radius = 0

theorem Spent.mono {tr os : List (Obs ℝ)} {c : CellPtr} (h : Spent tr c) : Spent (tr ++ os) c := by
  obtain ⟨g, g', hphase, hspent⟩ := h
  exact ⟨g, g', List.mem_append_left os hphase, hspent⟩

theorem spent_append {tr os : List (Obs ℝ)} (hos : ∀ o ∈ os, ∀ g g', o ≠ .collided g g')
    (c : CellPtr) : Spent (tr ++ os) c ↔ Spent tr c := by
  refine ⟨fun ⟨g, g', hphase, hspent⟩ => ?_, Spent.mono⟩
  rcases List.mem_append.mp hphase with hphase | hphase
  · exact ⟨g, g', hphase, hspent⟩
  · exact absurd rfl (hos _ hphase g g')

theorem spent_collided (tr : List (Obs ℝ)) (g g' : Game ℝ) (c : CellPtr) :
    Spent (tr ++ [.collided g g']) c ↔
      Spent tr c ∨ ∃ i, c ∈ g'.cellsOf i ∧ (g'.heap c).radius = 0 := by
  constructor
  · rintro ⟨h, h', hphase, hspent⟩
    rcases List.mem_append.mp hphase with hphase | hphase
    · exact Or.inl ⟨h, h', hphase, hspent⟩
    · obtain ⟨rfl, rfl⟩ := Obs.collided.inj (List.mem_singleton.mp hphase)
      exact Or.inr hspent
  · rintro (hspent | hspent)
    · exact hspent.mono
    · exact ⟨g, g', List.mem_append_right tr List.mem_cons_self, hspent⟩

theorem not_spent {tr : List (Obs ℝ)} (h : ∀ o ∈ tr, o.Solid) (c : CellPtr) : ¬ Spent tr c := by
  rintro ⟨g, g', hphase, i, hc, hradius⟩
  have hsolid : ∀ i, ∀ c ∈ g'.cellsOf i, 0 < (g'.heap c).radius := h _ hphase
  exact (hsolid i c hc).ne' hradius

namespace Game
variable {g g' : Game ℝ}

theorem blurred_congr (h : g'.calls = g.calls) (c : CellPtr) : g'.blurred c = g.blurred c := by
  unfold blurred
  rw [h]

theorem blurred_note {call : Call ℝ} (h : ¬ call.Drives) (c : CellPtr) :
    (g.note call).blurred c = g.blurred c := by
  have hnone : call.blurs c = false := by
    cases call with
    | update p radius => exact absurd trivial h
    | _ => rfl
  show (g.calls ++ [call]).any _ = _
  rw [List.any_append, List.any_cons, hnone]
  exact Bool.or_false _

theorem pushCell_blurred (g : Game ℝ) (i : ℕ) (p c : CellPtr) :
    (g.pushCell i p).blurred c = g.blurred c := by
  have hstay : ¬ (Call.pushed (K := ℝ) ((g.setCells i (g.cellsOf i ++ [p])).cellsOf i).length).Drives :=
    id
  exact blurred_note hstay c

theorem Effect.blurred (h : Effect g g') (c : CellPtr) : g'.blurred c = g.blurred c := by
  cases h with
  | note call hs hc hstay hleft hrest => exact blurred_note hrest c
  | spawn i cell hi hcap hid hflag hradius hpositive => exact pushCell_blurred _ i _ c
  | stray i myLoop p slot hp hslot =>
    rw [blurred_congr (eraseCellAt_frame _ i myLoop).2.2.2.2.2.1]
    have hstay : ¬ (Call.absorb (K := ℝ) p slot).Drives := id
    exact blurred_note hstay c
  | pour p size count slots s howned hempties hcap hsum =>
    have hpop : ¬ (Call.pop p size count).Drives := id
    have hslots : ¬ (Call.slots (K := ℝ) slots).Drives := id
    have hgrow : ¬ (Call.addSize p (g.heap p).size s).Drives := id
    exact (blurred_note hgrow c).trans ((blurred_note hslots c).trans (blurred_note hpop c))
  | _ => rfl

/-- The cells of `DynamicMap` have a radius. -/
def Rounded (g : Game ℝ) : Prop := ∀ d ∈ g.dynamicMap, 0 < (g.heap d).radius

theorem Rounded.drift (h : Rounded g) (hw : WellFormed g) (hd : Drift g g') {c : CellPtr}
    (hc : c < g.allocated) (hmem : c ∈ g'.dynamicMap) : 0 < (g'.heap c).radius := by
  have hold := hd.dynamic c hc hmem
  have hflag : (g.heap c).flag ≠ playerFlag := by
    rcases (hw.dynamic c hold).2.2 with hflag | hflag <;>
      · rw [hflag]
        decide
  rw [hd.others c hc hflag]
  exact h c hold

theorem Effect.rounded (he : Effect g g') (hw : WellFormed g) (h : Rounded g) : Rounded g' := by
  intro c hc
  by_cases hlt : c < g.allocated
  · exact h.drift hw he.frame.toDrift hlt hc
  · have hnew : c ∉ g.dynamicMap := fun hmem => hlt (hw.dynamic c hmem).2.1
    cases he with
    | eject cell hid hflag hradius =>
      rcases List.mem_append.mp hc with hc | hc
      · exact absurd hc hnew
      · rw [eject_heap, if_pos (List.mem_singleton.mp hc)]
        exact hradius
    | killDynamic loop p h => exact absurd ((List.eraseIdx_sublist _ _).subset hc) hnew
    | stray i myLoop p slot hp hslot =>
      rw [(eraseCellAt_frame _ i myLoop).2.2.2.1] at hc
      exact absurd hc hnew
    | _ => exact absurd hc hnew

theorem collisionPhase_blurred (hw : WellFormed g) (c : CellPtr) :
    g.collisionPhase.blurred c = g.blurred c :=
  keeps_of_effects (P := fun g' => g'.blurred c = g.blurred c)
    (fun _ _ _ he h => (he.blurred c).trans h) (collisionPhase_leads g hw) hw rfl

theorem commands_blurred (hw : WellFormed g) {i : ℕ} {p : Player ℝ} (hp : g.players[i]? = some p)
    (c : CellPtr) : (g.commands i p).blurred c = g.blurred c :=
  commands_keeps (P := fun g' => g'.blurred c = g.blurred c) (fun _ _ _ _ h => h)
    (fun _ _ _ he h => (he.blurred c).trans h) hw hp rfl

theorem updateCell_blurred (dt : ℝ) (g : Game ℝ) (p c : CellPtr) :
    (updateCell dt g p).blurred c = true ↔
      g.blurred c = true ∨ p = c ∧ (g.heap c).radius = 0 := by
  show (g.calls ++ [Call.update p (g.heap p).radius]).any (Call.blurs c) = true ↔ _
  rw [List.any_append, Bool.or_eq_true]
  refine or_congr_right ?_
  simp only [List.any_cons, List.any_nil, Bool.or_false, Call.blurs, Bool.and_eq_true,
    decide_eq_true_eq]
  exact and_congr_right fun hpc => by rw [hpc]

theorem driveCell_blurred (dt : ℝ) (g : Game ℝ) (p c : CellPtr) :
    (driveCell dt g p).blurred c = true ↔
      g.blurred c = true ∨ p = c ∧ (g.heap c).radius = 0 := by
  have hcalls : (driveCell dt g p).calls = (updateCell dt g p).calls := by
    unfold driveCell
    dsimp only
    split_ifs <;> rfl
  rw [blurred_congr hcalls]
  exact updateCell_blurred dt g p c

theorem foldl_blurred {f : Game ℝ → CellPtr → Game ℝ} (l : List CellPtr) (g : Game ℝ) (c : CellPtr)
    (hmotion : ∀ g, ∀ p ∈ l, Motion l g (f g p))
    (hstep : ∀ g p, (f g p).blurred c = true ↔
      g.blurred c = true ∨ p = c ∧ (g.heap c).radius = 0) :
    (l.foldl f g).blurred c = true ↔ g.blurred c = true ∨ c ∈ l ∧ (g.heap c).radius = 0 := by
  have hloop : ∀ (ps : List CellPtr) (g : Game ℝ), ps ⊆ l → ((ps.foldl f g).blurred c = true ↔
      g.blurred c = true ∨ c ∈ ps ∧ (g.heap c).radius = 0) := by
    intro ps
    induction ps with
    | nil => simp
    | cons p ps ih =>
      intro g hsub
      obtain ⟨hp, hps⟩ := List.cons_subset.mp hsub
      have hradius := ((hmotion g p hp).identity c).2.2.2
      rw [List.foldl_cons, ih _ hps, hstep, hradius, List.mem_cons, or_assoc]
      refine or_congr_right ?_
      rw [← or_and_right, eq_comm]
  exact hloop l g (List.Subset.refl l)

theorem updateDynamic_blurred (hround : Rounded g) (dt : ℝ) (c : CellPtr) :
    (g.updateDynamic dt).blurred c = true ↔ g.blurred c = true := by
  refine (foldl_blurred g.dynamicMap g c (fun g p hp => updateCell_motion dt g hp)
    fun g p => updateCell_blurred dt g p c).trans (or_iff_left ?_)
  exact fun h => (hround c h.1).ne' h.2

theorem drive_blurred (g : Game ℝ) (dt : ℝ) (c : CellPtr) : (g.drive dt).blurred c = true ↔
    g.blurred c = true ∨ ∃ i, c ∈ g.cellsOf i ∧ (g.heap c).radius = 0 := by
  have hpush : ∀ (l : List CellPtr) (g : Game ℝ), (l.foldl pushMove g).calls = g.calls := by
    intro l
    induction l with
    | nil => exact fun g => rfl
    | cons p l ih => exact fun g => ih (g.pushMove p)
  unfold drive
  dsimp only
  rw [blurred_congr (hpush _ _), foldl_blurred (g.players.flatMap Player.cells) g c
    (fun g p hp => driveCell_motion dt g hp) fun g p => driveCell_blurred dt g p c,
    mem_playerCells, exists_and_right]

end Game

/-- The cells that have been updated with a size of zero are those that a collision phase has left
to a player without a radius. After the phase they wait for the update. -/
structure Blurring (a : Stage) (s : Sys ℝ) : Prop where
  rounded : s.game.Rounded
  old : ∀ c, s.game.blurred c = true → c < s.game.allocated
  spent : ∀ c, Spent s.trace c ↔ s.game.blurred c = true ∨
    a = .collided ∧ ∃ i, c ∈ s.game.cellsOf i ∧ (s.game.heap c).radius = 0

theorem Blurring.spent_iff {a : Stage} {s : Sys ℝ} (h : Blurring a s) (ha : a ≠ .collided)
    (c : CellPtr) : Spent s.trace c ↔ s.game.blurred c = true :=
  (h.spent c).trans (or_iff_left fun hc => ha hc.1)

theorem Blurring.sharp {a : Stage} {s : Sys ℝ} (h : Blurring a s)
    (hsolid : ∀ o ∈ s.trace, o.Solid) : s.game.Sharp := fun c =>
  Bool.eq_false_iff.mpr fun hc => not_spent hsolid c ((h.spent c).mpr (Or.inl hc))

theorem Blurring.next {a b : Stage} {s s' : Sys ℝ} (h : Blurring a s) (ha : a ≠ .collided)
    (hb : b ≠ .collided) (hrounded : s'.game.Rounded)
    (hallocated : s.game.allocated ≤ s'.game.allocated)
    (hblurred : ∀ c, s'.game.blurred c = true ↔ s.game.blurred c = true) {os : List (Obs ℝ)}
    (htrace : s'.trace = s.trace ++ os) (hos : ∀ o ∈ os, ∀ g g', o ≠ .collided g g') :
    Blurring b s' := by
  refine ⟨hrounded, fun c hc => (h.old c ((hblurred c).mp hc)).trans_le hallocated, fun c => ?_⟩
  rw [htrace, spent_append hos, h.spent_iff ha, hblurred]
  exact (or_iff_left fun hc => hb hc.1).symm

theorem Move.blurring {a b : Stage} {s s' : Sys ℝ} (h : Move (a, s) (b, s')) (hi : Invariant a s)
    (hs : Blurring a s) : Blurring b s' := by
  have hw := hi.wellFormed
  have hlull : a = b → a ≠ .collided → Lulls s s' → Game.Still s.game s'.game → Blurring b s' := by
    rintro rfl ha hl hstill
    obtain ⟨os, htrace, hos⟩ := hl.trace
    refine hs.next ha ha (fun d hd => ?_) hstill.allocated
      (fun c => by rw [Game.blurred_congr hl.calls]) htrace hos
    rw [hstill.dynamic] at hd
    have hflag : (s.game.heap d).flag ≠ playerFlag := by
      rcases (hw.dynamic d hd).2.2 with hflag | hflag <;>
        · rw [hflag]
          decide
    rw [hstill.others d (hw.dynamic d hd).2.1 hflag]
    exact hs.rounded d hd
  cases h with
  | begin _ clock =>
    have hm := Game.updateDynamic_motion (s.game.beginTick clock) (clock - s.game.currentTime)
    refine hs.next (by simp) (by simp) (fun d hd => ?_) hm.allocated.ge
      (fun c => Game.updateDynamic_blurred (g := s.game.beginTick clock) hs.rounded _ c)
      (List.append_nil _).symm fun o ho => by cases ho
    have hd' : d ∈ ((s.game.beginTick clock).updateDynamic _).dynamicMap := hd
    rw [hm.dynamic] at hd'
    exact ((hm.identity d).2.2.2).symm ▸ hs.rounded d hd'
  | kick _ x hx =>
    exact hlull rfl (by simp) (Move.lulls (.kick s x hx) hi) (Move.still (.kick s x hx) hi)
  | collide _ =>
    have hleads := Game.collisionPhase_leads s.game
    have hblurred := Game.collisionPhase_blurred hw
    refine ⟨Game.keeps_of_effects (fun _ _ hw he hr => he.rounded hw hr) (hleads hw) hw hs.rounded,
      fun c hc => ?_, fun c => ?_⟩
    · have hc' : s.game.collisionPhase.blurred c = true := hc
      rw [hblurred] at hc'
      exact (hs.old c hc').trans_le (hleads.frame hw).allocated
    · show Spent (s.trace ++ [.collided s.game s.game.collisionPhase]) c ↔
        s.game.collisionPhase.blurred c = true ∨ _
      rw [spent_collided, hs.spent_iff (by simp), hblurred]
      exact or_congr_right (and_iff_right rfl).symm
  | drive _ dt =>
    have hm := Game.drive_motion s.game dt
    refine ⟨fun d hd => ?_, fun c hc => ?_, fun c => ?_⟩
    · have hd' : d ∈ (s.game.drive dt).dynamicMap := hd
      rw [hm.dynamic] at hd'
      exact ((hm.identity d).2.2.2).symm ▸ hs.rounded d hd'
    · show c < (s.game.drive dt).allocated
      rw [hm.allocated]
      rcases (Game.drive_blurred s.game dt c).mp hc with hold | ⟨i, hi', -⟩
      · exact hs.old c hold
      · exact (hw.owned i c hi').1
    · rw [hs.spent c]
      refine Iff.trans ?_ (or_iff_left fun hc => by cases hc.1).symm
      exact (or_congr_right (and_iff_right rfl)).trans (Game.drive_blurred s.game dt c).symm
  | update _ n p hp =>
    obtain ⟨-, hdrift, -⟩ := Game.commands_spec hw hp
    have hrounded : (s.game.commands n p).Rounded :=
      Game.commands_keeps (fun _ _ _ _ hr => hr) (fun _ _ hw he hr => he.rounded hw hr) hw hp
        hs.rounded
    have hblurred := Game.commands_blurred hw hp
    unfold Sys.updateAt
    rw [hp]
    exact hs.next (by simp) (by simp) hrounded hdrift.allocated
      (fun c => by rw [← hblurred c]; rfl) rfl (by simp)
  | replay _ n hn =>
    have hp := Game.parseEvents_prunes hi.additions
    have hheap : s.game.parseEvents.heap = s.game.heap := by rw [hp.rest]
    have hcalls : s.game.parseEvents.calls = s.game.calls := by rw [hp.rest]
    have htrace : ∀ o ∈ [Obs.ticked s.game.parseEvents], ∀ g g', o ≠ .collided g g' := by simp
    have hallocated : s.game.parseEvents.allocated = s.game.allocated := by rw [hp.rest]
    have hrounded : s.game.parseEvents.Rounded := fun d hd => by
      rw [hheap]
      exact hs.rounded d (hp.dynamic.subset hd)
    have hblurred : ∀ c, s.game.parseEvents.blurred c = true ↔ s.game.blurred c = true :=
      fun c => by rw [Game.blurred_congr hcalls]
    exact hs.next (by simp) (by simp) hrounded hallocated.ge hblurred rfl htrace
  | send _ clock accepts i =>
    exact hlull rfl (by simp) (Move.lulls (.send s clock accepts i) hi)
      (Move.still (.send s clock accepts i) hi)
  | join _ w grown hnew =>
    exact hlull rfl (by simp) (Move.lulls (.join s w grown hnew) hi)
      (Move.still (.join s w grown hnew) hi)
  | receive _ w packet beyond =>
    exact hlull rfl (by simp) (Move.lulls (.receive s w packet beyond) hi)
      (Move.still (.receive s w packet beyond) hi)
  | close _ x hx =>
    exact hlull rfl (by simp) (Move.lulls (.close s x hx) hi) (Move.still (.close s x hx) hi)

theorem init_blurring (rand : ℕ → Fin (randMax + 1)) (stale : CellPtr → ℝ) :
    Blurring .idle (Sys.init rand stale) := by
  have h := Game.mapInit_started rand stale
  have hnone : ∀ c, (Sys.init rand stale).game.blurred c = false := fun c => by
    unfold Game.blurred
    rw [show (Sys.init rand stale).game.calls = [] from h.calls]
    rfl
  refine ⟨fun d hd => h.positive d (h.wellFormed.dynamic d hd).2.1, fun c hc => ?_, fun c => ?_⟩
  · rw [hnone] at hc
    cases hc
  · rw [hnone]
    exact iff_of_false (fun ⟨_, _, hphase, _⟩ => by cases hphase) (by simp)

theorem Run.blurring (r : Run ℝ) : Blurring .idle r.final :=
  Run.induction (P := Blurring) init_blurring (fun _ _ _ _ hi hm hs => hm.blurring hi hs) r

section Checked
variable {K : Type} [Field K] [LinearOrder K] [Arith K]

/-- The quotient, when the divisor is not zero. -/
def checkedDiv (a b : K) : Option K := if b = 0 then none else some (a / b)

/-- The center of the cell, when it is a number. -/
def Game.center (g : Game K) (c : CellPtr) : Option (Vec2 K) :=
  if g.blurred c then none else some (g.heap c).position

namespace Player

/-- The camera of `CalculateCamera`, when all it is computed from are numbers. -/
def checkedCamera (g : Game K) (p : Player K) : Option (Vec2 K) := do
  let totalRadius := p.cells.foldl (fun t c => t + (g.heap c).radius) (0 : K)
  let inv ← checkedDiv 1 totalRadius
  let pos ← p.cells.foldlM (fun t c => do
    let center ← g.center c
    return t + center * ((g.heap c).radius * inv)) (0 : Vec2 K)
  return p.camera * (0.95 : K) + pos * (1 - 0.95 : K)

variable [FloorRing K]

/-- The camera and the corners of `UpdateView`, when all they are computed from are numbers. -/
def checkedView (g : Game K) (p : Player K) : Option (Vec2 K × Vec2i × Vec2i) := do
  let camera ← p.checkedCamera g
  let totalRadius := p.cells.foldl (fun t c => t + (g.heap c).radius) (0 : K)
  let size : K := p.cells.length
  let mean ← checkedDiv totalRadius size
  let view := (4 + size * 3) * mean + 1000
  return (camera, indexFromCoord (camera - (⟨view * 1.6, view⟩ : Vec2 K)),
    indexFromCoord (camera + (⟨view * 1.6, view⟩ : Vec2 K)))

/-- The camera and the corners of the view. -/
def sighting (p : Player K) : Vec2 K × Vec2i × Vec2i := (p.camera, p.topLeft, p.bottomRight)

end Player

end Checked

theorem checkedDiv_of_ne {a b : ℝ} (h : b ≠ 0) : checkedDiv a b = some (a / b) := if_neg h

theorem Game.foldlM_center (g : Game ℝ) (inv : ℝ) (l : List CellPtr)
    (h : ∀ c ∈ l, g.blurred c = false) (v : Vec2 ℝ) :
    (l.foldlM (fun t c => do
      let center ← g.center c
      return t + center * ((g.heap c).radius * inv)) v : Option (Vec2 ℝ)) =
    some (l.foldl (fun t c => t + (g.heap c).position * ((g.heap c).radius * inv)) v) := by
  induction l generalizing v with
  | nil => rfl
  | cons c l ih =>
    have hcenter : g.center c = some (g.heap c).position :=
      if_neg (Bool.eq_false_iff.mp (h c List.mem_cons_self))
    rw [List.foldlM_cons, List.foldl_cons, hcenter]
    exact ih (fun d hd => h d (List.mem_cons_of_mem c hd)) _

namespace Player
variable {g : Game ℝ} {p : Player ℝ}

/-- The divisors of `CalculateCamera` and of `UpdateView` are positive. -/
def Focused (g : Game ℝ) (p : Player ℝ) : Prop :=
  0 < (p.calculateCamera g).totalRadius ∧ 0 < p.cells.length

/-- With positive divisors and cells that all have centers the view has a value, the one of the
model. -/
theorem checkedView_of_focused (hf : p.Focused g) (hc : ∀ c ∈ p.cells, g.blurred c = false) :
    p.checkedView g = some (p.updateView g).sighting := by
  obtain ⟨hradius, hcells⟩ := hf
  have hlength : (p.cells.length : ℝ) ≠ 0 := Nat.cast_ne_zero.mpr hcells.ne'
  have htotal : p.cells.foldl (fun t c => t + (g.heap c).radius) (0 : ℝ) ≠ 0 := hradius.ne'
  have hsighted : ¬ decide ((p.calculateCamera g).totalRadius = 0) = true := by
    rw [decide_eq_true_eq]
    exact hradius.ne'
  have hcamera : p.checkedCamera g = some (p.calculateCamera g).camera := by
    unfold checkedCamera calculateCamera
    dsimp only
    rw [checkedDiv_of_ne htotal]
    dsimp only [Option.bind_eq_bind, Option.bind_some]
    have hpos := g.foldlM_center (1 / p.cells.foldl (fun t c => t + (g.heap c).radius) (0 : ℝ))
      p.cells hc 0
    dsimp only [Option.bind_eq_bind] at hpos
    rw [hpos]
    rfl
  unfold checkedView
  rw [hcamera]
  dsimp only [Option.bind_eq_bind, Option.bind_some]
  rw [checkedDiv_of_ne hlength]
  unfold sighting updateView
  dsimp only
  rw [if_neg hsighted, if_neg hsighted]
  rfl

end Player

end Agar
