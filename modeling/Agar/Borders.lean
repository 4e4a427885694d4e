import Agar.Containers
import Agar.Worlds
import Agar.Divisions

/-! The map's borders: every motion is clamped to the map and every cell a pop creates is clamped in
the same tick, but the cells of the split and feed commands stay where they are created. -/

namespace Agar
open Trace

section Places
variable {K : Type} [Field K] [LinearOrder K] [Arith K]

namespace Cell

/-- The center of the cell that a split creates. -/
def splitPosition (c : Cell K) : Vec2 K :=
  c.position + c.mouseVector.normalize * (2 : K) * getRadius (c.size / 2)

/-- The center of the food that a cell ejects, for the value of `rand()`. -/
def feedPosition (c : Cell K) (r : ℕ) : Vec2 K :=
  let direction := c.mouseVector.normalize
  let direction := direction +
    direction.perp * (feedDeviation : K) * ((r : K) / (randMax : K) - 0.5)
  c.position + direction * ((c.addSize (-feedSize)).radius + getRadius ((feedSize : K) * feedMult))

end Cell

namespace Game

/-- The center of the cell that the split loop creates at index `x`, if it creates one. -/
def splitPlace (g : Game K) (i x : ℕ) : Option (Vec2 K) :=
  match (g.cellsOf i)[x]? with
  | none => none
  | some cell =>
    if (g.cellsOf i).length < 16 ∧ 42 < (g.heap cell).radius then
      some (g.heap cell).splitPosition else none

/-- The center of the food that the cell ejects, if it is big enough. -/
def feedPlace (g : Game K) (cell : CellPtr) : Option (Vec2 K) :=
  if playerMinSize < (g.heap cell).size - feedSize then
    some ((g.heap cell).feedPosition (g.rand 0)) else none

/-- What the rounds of a loop create, each seen from the state before it. -/
def created {α : Type} (step : Game K → α → Game K) (place : Game K → α → Option (Vec2 K)) :
    Game K → List α → List (Vec2 K)
  | _, [] => []
  | g, a :: as => (place g a).toList ++ created step place (step g a) as

/-- The centers of the cells that the commands of player `i` create. -/
def commandPlaces (g : Game K) (i : ℕ) (p : Player K) : List (Vec2 K) :=
  let lowered := g.modifyPlayer i fun p => { p with doSplit := false }
  let split := g.splitCommand i p
  (if p.doSplit then created (fun g x => g.splitAt i x) (fun g x => g.splitPlace i x) lowered
    (List.range (lowered.cellsOf i).length) else []) ++
  (if p.doFeed then created feedCell feedPlace
    (split.modifyPlayer i fun p => { p with doFeed := false }) (split.cellsOf i) else [])

end Game

/-- The centers of the cells that the commands of the update create. -/
def UpdateRecord.places (u : UpdateRecord K) : List (Vec2 K) := u.before.commandPlaces u.index u.player

end Places

namespace Game
variable {g g' : Game ℝ}

/-- Cells have come up in the places, all others are where they were. -/
structure Creates (g g' : Game ℝ) (places : List (Vec2 ℝ)) : Prop where
  allocated : g.allocated ≤ g'.allocated
  position : ∀ c < g.allocated, (g'.heap c).position = (g.heap c).position
  alive : ∀ c, g.Alive c → g'.Alive c
  fresh : ∀ c, g'.Alive c → g.Alive c ∨ (g'.heap c).position ∈ places
  placed : ∀ v ∈ places, ∃ c, g'.Alive c ∧ (g'.heap c).position = v

theorem Creates.refl (g : Game ℝ) : Creates g g [] :=
  ⟨le_rfl, fun _ _ => rfl, fun _ h => h, fun _ h => Or.inl h, fun v hv => by cases hv⟩

theorem Creates.trans {g'' : Game ℝ} {l l' : List (Vec2 ℝ)} (hw : WellFormed g')
    (h : Creates g g' l) (h' : Creates g' g'' l') : Creates g g'' (l ++ l') := by
  have hsame : ∀ c, g'.Alive c → (g''.heap c).position = (g'.heap c).position :=
    fun c hc => h'.position c (hw.alive_lt hc)
  refine ⟨h.allocated.trans h'.allocated, fun c hc => ?_, fun c hc => h'.alive c (h.alive c hc),
    fun c hc => ?_, fun v hv => ?_⟩
  · exact (h'.position c (hc.trans_le h.allocated)).trans (h.position c hc)
  · rcases h'.fresh c hc with hc' | hc'
    · rcases h.fresh c hc' with hold | hnew
      · exact Or.inl hold
      · rw [hsame c hc']
        exact Or.inr (List.mem_append_left _ hnew)
    · exact Or.inr (List.mem_append_right _ hc')
  · rcases List.mem_append.mp hv with hv | hv
    · obtain ⟨c, hc, hpos⟩ := h.placed v hv
      exact ⟨c, h'.alive c hc, (hsame c hc).trans hpos⟩
    · exact h'.placed v hv

theorem Creates.of_alive (hallocated : g.allocated ≤ g'.allocated)
    (hposition : ∀ c < g.allocated, (g'.heap c).position = (g.heap c).position)
    (halive : ∀ c, g'.Alive c ↔ g.Alive c) : Creates g g' [] :=
  ⟨hallocated, hposition, fun c => (halive c).mpr, fun c hc => Or.inl ((halive c).mp hc),
    fun v hv => by cases hv⟩

theorem created_creates {α : Type} (step : Game ℝ → α → Game ℝ)
    (place : Game ℝ → α → Option (Vec2 ℝ)) {P : Game ℝ → α → Prop} (l : List α) {g : Game ℝ}
    (hw : WellFormed g) (hP : ∀ a ∈ l, P g a)
    (hstep : ∀ g a, WellFormed g → P g a → WellFormed (step g a) ∧
      Creates g (step g a) (place g a).toList ∧ ∀ b, P g b → P (step g a) b) :
    WellFormed (l.foldl step g) ∧ Creates g (l.foldl step g) (created step place g l) := by
  induction l generalizing g with
  | nil => exact ⟨hw, Creates.refl g⟩
  | cons a l ih =>
    obtain ⟨hw', hc, hkeep⟩ := hstep g a hw (hP a List.mem_cons_self)
    obtain ⟨hw'', hc'⟩ := ih hw' fun b hb => hkeep b (hP b (List.mem_cons_of_mem a hb))
    exact ⟨hw'', hc.trans hw' hc'⟩

theorem splitAt_creates (hw : WellFormed g) (i x : ℕ) :
    Creates g (g.splitAt i x) (g.splitPlace i x).toList := by
  unfold splitAt splitPlace
  rcases hx : (g.cellsOf i)[x]? with - | cell
  · exact Creates.refl g
  · dsimp only
    split_ifs with hs
    · have ho := hw.owned i cell (List.mem_of_getElem? hx)
      have hne : cell ≠ g.allocated := ho.1.ne
      have hi : i < g.players.length := lt_of_cellsOf hx
      have hnew : ((g.splitCell i cell).heap g.allocated).position =
          (g.heap cell).splitPosition := by
        simp [splitCell, newPlayerCell, newCell, setCombine, setCell, pushCell, setCells, note,
          Cell.addVelocity, Cell.splitPosition, hne.symm, hne]
      have halive : ∀ c, (g.splitCell i cell).Alive c ↔ g.Alive c ∨ c = g.allocated := by
        intro c
        rw [splitCell_eq g i cell ho.1]
        exact alive_spawn (g := g.splitBase cell) hi c
      have hold : ∀ c < g.allocated,
          ((g.splitCell i cell).heap c).position = (g.heap c).position := by
        intro c hc
        have hca : c ≠ g.allocated := hc.ne
        by_cases hcc : c = cell
        · subst hcc
          simp [splitCell, newPlayerCell, newCell, setCombine, setCell, pushCell, setCells, note,
            hca]
        · simp [splitCell, newPlayerCell, newCell, setCombine, setCell, pushCell, setCells, note,
            hca, hcc]
      refine ⟨?_, hold, fun c hc => (halive c).mpr (Or.inl hc), fun c hc => ?_, fun v hv => ?_⟩
      · rw [splitCell_eq g i cell ho.1]
        exact Nat.le_succ _
      · rcases (halive c).mp hc with hc | rfl
        · exact Or.inl hc
        · exact Or.inr (List.mem_singleton.mpr hnew)
      · rw [List.mem_singleton.mp hv]
        exact ⟨g.allocated, (halive _).mpr (Or.inr rfl), hnew⟩
    · exact Creates.refl g

theorem feedCell_creates {cell : CellPtr} (ho : g.Owned cell) :
    Creates g (g.feedCell cell) (g.feedPlace cell).toList := by
  unfold feedPlace
  split_ifs with hsize
  · have hne : cell ≠ g.allocated := ho.1.ne
    have hnew : ((g.feedCell cell).heap g.allocated).position =
        (g.heap cell).feedPosition (g.rand 0) := by
      simp [feedCell, hsize, newCell, nextRand, setCell, addSize, note, addDynamic, Cell.addForce,
        Cell.addSize, Cell.feedPosition]
    have hold : ∀ c < g.allocated, ((g.feedCell cell).heap c).position = (g.heap c).position := by
      intro c hc
      have hca : c ≠ g.allocated := hc.ne
      by_cases hcc : c = cell
      · subst hcc
        simp [feedCell, hsize, newCell, nextRand, setCell, addSize, note, addDynamic, hca,
          Cell.addSize]
      · simp [feedCell, hsize, newCell, nextRand, setCell, addSize, note, addDynamic, hca, hcc]
    have halive : ∀ c, (g.feedCell cell).Alive c ↔ g.Alive c ∨ c = g.allocated := by
      intro c
      rw [feedCell, if_pos hsize]
      exact alive_eject (g := (g.addSize cell (-feedSize)).nextRand.2)
        (c := (g.feedCell cell).heap g.allocated) c
    refine ⟨?_, hold, fun c hc => (halive c).mpr (Or.inl hc), fun c hc => ?_, fun v hv => ?_⟩
    · rw [feedCell, if_pos hsize]
      exact Nat.le_succ _
    · rcases (halive c).mp hc with hc | rfl
      · exact Or.inl hc
      · exact Or.inr (List.mem_singleton.mpr hnew)
    · rw [List.mem_singleton.mp hv]
      exact ⟨g.allocated, (halive _).mpr (Or.inr rfl), hnew⟩
  · rw [feedCell, if_neg hsize]
    exact Creates.refl g

theorem modifyPlayer_alive (g : Game ℝ) (i : ℕ) (f : Player ℝ → Player ℝ)
    (hf : ∀ p, (f p).cells = p.cells) (c : CellPtr) : (g.modifyPlayer i f).Alive c ↔ g.Alive c := by
  simp only [Alive, cellsOf_modifyPlayer g i f hf]
  exact Iff.rfl

theorem modifyPlayer_creates (g : Game ℝ) (i : ℕ) (f : Player ℝ → Player ℝ)
    (hf : ∀ p, (f p).cells = p.cells) : Creates g (g.modifyPlayer i f) [] :=
  .of_alive le_rfl (fun _ _ => rfl) (modifyPlayer_alive g i f hf)

theorem commands_creates (hw : WellFormed g) (i : ℕ) (p : Player ℝ) :
    Creates g (g.commands i p) (g.commandPlaces i p) := by
  have hsplit : WellFormed (g.splitCommand i p) ∧ Creates g (g.splitCommand i p)
      (if p.doSplit then created (fun g x => g.splitAt i x) (fun g x => g.splitPlace i x)
        (g.modifyPlayer i fun p => { p with doSplit := false })
        (List.range ((g.modifyPlayer i fun p => { p with doSplit := false }).cellsOf i).length)
      else []) := by
    unfold splitCommand splitCells
    split_ifs
    · have hlowered : WellFormed (g.modifyPlayer i fun p => { p with doSplit := false }) :=
        hw.modifyPlayer i _ fun _ => rfl
      obtain ⟨hw', hc⟩ := created_creates (P := fun _ _ => True)
        (fun g x => g.splitAt i x) (fun g x => g.splitPlace i x)
        (List.range ((g.modifyPlayer i fun p => { p with doSplit := false }).cellsOf i).length)
        hlowered (fun _ _ => trivial) fun g x hg _ =>
          ⟨(splitAt_leads g i x).wellFormed hg, splitAt_creates hg i x, fun _ _ => trivial⟩
      have hstart := modifyPlayer_creates g i (fun p => { p with doSplit := false }) fun _ => rfl
      exact ⟨hw', Creates.trans (l := []) hlowered hstart hc⟩
    · exact ⟨hw, Creates.refl g⟩
  refine hsplit.2.trans hsplit.1 ?_
  unfold commands feedCommand feedCells
  split_ifs
  · have hlowered : WellFormed ((g.splitCommand i p).modifyPlayer i fun p =>
        { p with doFeed := false }) := hsplit.1.modifyPlayer i _ fun _ => rfl
    have hcells := cellsOf_modifyPlayer (g.splitCommand i p) i
      (fun p => { p with doFeed := false }) (fun _ => rfl) i
    have hfeeds := created_creates (P := Owned) feedCell feedPlace
      ((g.splitCommand i p).cellsOf i) hlowered
      (fun c hc => hlowered.owned i c (by rw [hcells]; exact hc)) fun g c hg ho =>
        ⟨(feedCell_leads g c ho).wellFormed hg, feedCell_creates ho,
          fun c' ho' => ho'.mono ((feedCell_leads g c ho).frame hg)⟩
    have hstart := modifyPlayer_creates (g.splitCommand i p) i
      (fun p => { p with doFeed := false }) fun _ => rfl
    rw [hcells]
    exact Creates.trans (l := []) hlowered hstart hfeeds.2
  · exact Creates.refl _

end Game

theorem Move.onMap {a b : Stage} {s s' : Sys ℝ} (h : Move (a, s) (b, s')) (hi : Invariant a s) :
    ∀ c < s.game.allocated, OnMap (s.game.heap c).position → OnMap (s'.game.heap c).position := by
  have hstill : Game.Still s.game s'.game → ∀ c < s.game.allocated,
      OnMap (s.game.heap c).position → OnMap (s'.game.heap c).position := fun hs c hc ho => by
    rw [hs.position c hc]
    exact ho
  cases h with
  | begin _ clock =>
    exact fun c _ ho => (Game.updateDynamic_motion (s.game.beginTick clock) _).onMap c ho
  | kick _ x hx => exact hstill (Move.still (.kick s x hx) hi)
  | collide _ => exact ((Game.collisionPhase_leads s.game).frame hi.wellFormed).onMap
  | drive _ dt => exact fun c _ ho => (Game.drive_motion s.game dt).onMap c ho
  | update _ n p hp =>
    obtain ⟨-, hdrift, -⟩ := Game.commands_spec hi.wellFormed hp
    unfold Sys.updateAt
    rw [hp]
    exact hdrift.onMap
  | replay _ n hn =>
    intro c _ ho
    have hheap : s.game.parseEvents.heap = s.game.heap := by
      rw [(Game.parseEvents_prunes hi.additions).rest]
    show OnMap (s.game.parseEvents.heap c).position
    rwa [hheap]
  | send _ clock accepts i => exact hstill (Move.still (.send s clock accepts i) hi)
  | join _ w grown hw => exact hstill (Move.still (.join s w grown hw) hi)
  | receive _ w packet beyond => exact hstill (Move.still (.receive s w packet beyond) hi)
  | close _ x hx => exact hstill (Move.still (.close s x hx) hi)

namespace Game

/-- All cells so far lie on the map. -/
def Grounded (g : Game ℝ) : Prop := ∀ p < g.allocated, OnMap (g.heap p).position

theorem addStatic_rest (g : Game ℝ) (p : CellPtr) :
    (g.addStatic p).heap = g.heap ∧ (g.addStatic p).allocated = g.allocated := by
  unfold addStatic
  dsimp only
  split_ifs <;> exact ⟨rfl, rfl⟩

theorem addFood_grounded (h : Grounded g) : Grounded g.addFood := by
  -- the state before `AddStatic`
  let g1 := (g.randomPosition.2.randomColor.2.newCell foodRadius g.randomPosition.1
    g.randomPosition.2.randomColor.1).2.setFlag g.allocated fun f => { f with isFood := true }
  obtain ⟨hheap, hallocated⟩ := addStatic_rest g1 g.allocated
  intro p hp
  have hlt : p < (g1.addStatic g.allocated).allocated := hp
  rw [hallocated] at hlt
  show OnMap ((g1.addStatic g.allocated).heap p).position
  rw [hheap]
  by_cases hq : p = g.allocated
  · have hnew : (g1.heap p).position = g.randomPosition.1 := by
      simp [g1, hq, newCell, randomPosition, randomColor, nextRand, setFlag, setCell]
    rw [hnew]
    exact onMap_mod _ _
  · have hold : g1.heap p = g.heap p := by
      simp [g1, hq, newCell, randomPosition, randomColor, nextRand, setFlag, setCell]
    rw [hold]
    exact h p (Nat.lt_of_le_of_ne (Nat.lt_succ_iff.mp hlt) hq)

theorem addVirus_grounded (h : Grounded g) : Grounded g.addVirus := by
  intro p hp
  by_cases hq : p = g.allocated
  · have hnew : (g.addVirus.heap p).position = g.randomPosition.1 := by
      simp [hq, addVirus, newCell, randomPosition, nextRand, setFlag, setCell, addDynamic]
    rw [hnew]
    exact onMap_mod _ _
  · have hold : g.addVirus.heap p = g.heap p := by
      simp [hq, addVirus, newCell, randomPosition, nextRand, setFlag, setCell, addDynamic]
    rw [hold]
    exact h p (Nat.lt_of_le_of_ne (Nat.lt_succ_iff.mp hp) hq)

theorem mapInit_grounded (rand : ℕ → Fin (randMax + 1)) (stale : CellPtr → ℝ) :
    Grounded (empty rand stale).mapInit := by
  have hiterate : ∀ {f : Game ℝ → Game ℝ}, (∀ g, Grounded g → Grounded (f g)) →
      ∀ g, Grounded g → ∀ n, Grounded (f^[n] g) := by
    intro f hf g hg n
    induction n with
    | zero => exact hg
    | succ n ih =>
      rw [Function.iterate_succ_apply']
      exact hf _ ih
  have hempty : Grounded (empty rand stale) := fun p hp => absurd hp (Nat.not_lt_zero p)
  exact hiterate (fun _ => addVirus_grounded) _ (hiterate (fun _ => addFood_grounded) _ hempty _) _

end Game

/-- The end of a tick. -/
def Obs.isTicked {K : Type} : Obs K → Bool
  | .ticked _ => true
  | _ => false

/-- The updates of the tick that is going on. -/
def Updating (tr : List (Obs ℝ)) (u : UpdateRecord ℝ) : Prop := .updated u ∈ since Obs.isTicked tr

/-- At the end of a tick all cells are on the map if and only if the commands of the tick have put
all their new cells on the map. -/
def PlacedExactly (pre : List (Obs ℝ)) (o : Obs ℝ) : Prop :=
  ∀ g, o = .ticked g → ((∀ c, g.Alive c → OnMap (g.heap c).position) ↔
    ∀ u, Updating pre u → ∀ v ∈ u.places, OnMap v)

/-- How far the cells are on the map at a stage of the tick. -/
def Bordered : Stage → Sys ℝ → Prop
  | .updating _, s =>
    (∀ c, s.game.Alive c → OnMap (s.game.heap c).position ∨
      ∃ u, Updating s.trace u ∧ (s.game.heap c).position ∈ u.places) ∧
    ∀ u, Updating s.trace u → ∀ v ∈ u.places,
      ∃ c, s.game.Alive c ∧ (s.game.heap c).position = v
  | _, s => ∀ u, ¬ Updating s.trace u

structure Borders (a : Stage) (s : Sys ℝ) : Prop where
  watch : Watch a s
  gone : s.game.Gone
  foods : ∀ p < maxFood, OnMap (s.game.heap p).position
  bordered : Bordered a s
  ticks : Always PlacedExactly s.trace

theorem Move.plain {a : Stage} {s s' : Sys ℝ} (h : Move (a, s) (a, s')) :
    ∃ os, s'.trace = s.trace ++ os ∧ ∀ o ∈ os, o.isTicked = false ∧ ∀ u, o ≠ .updated u := by
  cases h with
  | kick _ x hx => exact ⟨[.erased s.game x], rfl, by simp [Obs.isTicked]⟩
  | send _ clock accepts i =>
    rcases Sys.sendAt_cases s clock accepts i with h | ⟨p, -, -, -, h⟩
    · exact ⟨[], by rw [h, List.append_nil], fun o ho => by cases ho⟩
    · exact ⟨[.wrote p.wsi clock p.wsMessage.pending], by rw [h], by simp [Obs.isTicked]⟩
  | join _ w grown hw => exact ⟨_, rfl, by simp [Obs.isTicked]⟩
  | receive _ w packet beyond =>
    unfold Sys.receive
    dsimp only
    split_ifs
    · exact ⟨[.received w packet], rfl, by simp [Obs.isTicked]⟩
    · exact ⟨[.received w packet, .requested w], by simp [Sys.observe], by simp [Obs.isTicked]⟩
  | close _ x hx => exact ⟨[.erased s.game x], rfl, by simp [Obs.isTicked]⟩

theorem updating_append {tr os : List (Obs ℝ)} (h : ∀ o ∈ os, o.isTicked = false)
    (u : UpdateRecord ℝ) : Updating (tr ++ os) u ↔ Updating tr u ∨ .updated u ∈ os := by
  unfold Updating
  rw [since_append_of_unmarked h, List.mem_append]

theorem always_of_unticked {tr os : List (Obs ℝ)} (h : Always PlacedExactly tr)
    (hos : ∀ o ∈ os, o.isTicked = false) : Always PlacedExactly (tr ++ os) := by
  refine always_append_of_forall h fun o ho pre g hg => ?_
  have := hos o ho
  rw [hg] at this
  cases this

theorem Bordered.plain {a : Stage} {s s' : Sys ℝ} (h : Bordered a s) (ha : ∀ n, a ≠ .updating n)
    (htrace : ∀ u, Updating s'.trace u → Updating s.trace u) : Bordered a s' := by
  cases a with
  | updating n => exact absurd rfl (ha n)
  | _ => exact fun u hu => h u (htrace u hu)

theorem drive_bordered {s : Sys ℝ} {dt : ℝ} (hi : Invariant .collided s)
    (hb : Borders .collided s) :
    Bordered (.updating 0) { s with game := s.game.drive dt } := by
  have hmove := Move.drive s dt
  have hwatch := hmove.watch hi hb.watch
  have hi' := hmove.invariant hi
  refine ⟨fun c hc => Or.inl ?_, fun u hu => absurd hu (hb.bordered u)⟩
  have hmoves : (s.game.drive dt).cellEvents.move =
      s.game.players.flatMap Player.cells ++ s.game.dynamicMap := by
    have htidy : s.game.cellEvents.move = [] := hi.tidy
    rw [Game.drive_move, htidy, List.nil_append]
  have hmotion := Game.drive_motion s.game dt
  have hmoved : c ∈ s.game.players.flatMap Player.cells ++ s.game.dynamicMap →
      OnMap ((s.game.drive dt).heap c).position := fun hc => by
    rw [← hmoves] at hc
    exact (hwatch.settled c hc).2.2
  rcases hc with ⟨b, hc⟩ | hc | ⟨i, hc⟩
  · exact hmotion.onMap c (hb.foods c (hi'.wellFormed.static b c hc).1)
  · have hc' : c ∈ (s.game.drive dt).dynamicMap := hc
    rw [hmotion.dynamic] at hc'
    exact hmoved (List.mem_append_right _ hc')
  · have hc' : c ∈ (s.game.drive dt).cellsOf i := hc
    rw [Game.cellsOf_congr hmotion.players] at hc'
    exact hmoved (List.mem_append_left _ (Game.mem_playerCells.mpr ⟨i, hc'⟩))

theorem update_bordered {s : Sys ℝ} {n : ℕ} {p : Player ℝ} (hi : Invariant (.updating n) s)
    (hb : Bordered (.updating n) s) (hp : s.game.players[n]? = some p) :
    Bordered (.updating (n + 1)) (s.updateAt n) := by
  have hw := hi.wellFormed
  have hcreates := Game.commands_creates hw n p
  have halive : ∀ c, (s.game.updatePlayer n p).after.Alive c ↔ (s.game.commands n p).Alive c := by
    intro c
    simp only [Game.Alive, Game.after_cellsOf hw hp]
    exact Iff.rfl
  have htrace : (s.updateAt n).trace =
      s.trace ++ [.updated (s.game.updatePlayer n p), .requested p.wsi] := by
    unfold Sys.updateAt
    rw [hp]
  have hgame : (s.updateAt n).game = (s.game.updatePlayer n p).after := by
    unfold Sys.updateAt
    rw [hp]
  have hupdating : ∀ u, Updating (s.updateAt n).trace u ↔
      Updating s.trace u ∨ u = s.game.updatePlayer n p := by
    intro u
    rw [htrace, updating_append (by simp [Obs.isTicked])]
    simp
  obtain ⟨hwithin, hshown⟩ := hb
  have hsame : ∀ c, s.game.Alive c →
      ((s.game.commands n p).heap c).position = (s.game.heap c).position :=
    fun c hc => hcreates.position c (hw.alive_lt hc)
  refine ⟨fun c hc => ?_, fun u hu v hv => ?_⟩
  · rw [hgame] at hc ⊢
    rcases hcreates.fresh c ((halive c).mp hc) with hold | hnew
    · have hpos : ((s.game.updatePlayer n p).after.heap c).position = (s.game.heap c).position :=
        hsame c hold
      rw [hpos]
      rcases hwithin c hold with hmap | ⟨u, hu, hv⟩
      · exact Or.inl hmap
      · exact Or.inr ⟨u, (hupdating u).mpr (Or.inl hu), hv⟩
    · exact Or.inr ⟨_, (hupdating _).mpr (Or.inr rfl), hnew⟩
  · rw [hgame]
    rcases (hupdating u).mp hu with hu | rfl
    · obtain ⟨c, hc, hpos⟩ := hshown u hu v hv
      exact ⟨c, (halive c).mpr (hcreates.alive c hc), (hsame c hc).trans hpos⟩
    · obtain ⟨c, hc, hpos⟩ := hcreates.placed v hv
      exact ⟨c, (halive c).mpr hc, hpos⟩

theorem Move.borders {a b : Stage} {s s' : Sys ℝ} (h : Move (a, s) (b, s')) (hi : Invariant a s)
    (hb : Borders a s) : Borders b s' := by
  have hfoods : ∀ p < maxFood, OnMap (s'.game.heap p).position := fun p hp =>
    h.onMap hi p (hp.trans_le hi.wellFormed.food_le) (hb.foods p hp)
  have hwatch := h.watch hi hb.watch
  have hgone := h.gone hi hb.gone
  have hplain : a = b → (∀ n, a ≠ .updating n) → Borders b s' := by
    rintro rfl ha
    obtain ⟨os, htrace, hos⟩ := h.plain
    refine ⟨hwatch, hgone, hfoods, hb.bordered.plain ha fun u hu => ?_, ?_⟩
    · rw [htrace, updating_append fun o ho => (hos o ho).1] at hu
      exact hu.resolve_right fun hmem => (hos _ hmem).2 u rfl
    · rw [htrace]
      exact always_of_unticked hb.ticks fun o ho => (hos o ho).1
  cases h with
  | begin _ clock => exact ⟨hwatch, hgone, hfoods, hb.bordered, hb.ticks⟩
  | kick _ x hx => exact hplain rfl fun n hn => by cases hn
  | collide _ =>
    refine ⟨hwatch, hgone, hfoods, fun u hu => hb.bordered u ?_,
      always_of_unticked hb.ticks (by simp [Obs.isTicked])⟩
    have hu' := (updating_append (by simp [Obs.isTicked]) u).mp hu
    simpa using hu'
  | drive _ dt => exact ⟨hwatch, hgone, hfoods, drive_bordered hi hb, hb.ticks⟩
  | update _ n p hp =>
    refine ⟨hwatch, hgone, hfoods, update_bordered hi hb.bordered hp, ?_⟩
    unfold Sys.updateAt
    rw [hp]
    exact always_of_unticked hb.ticks (by simp [Obs.isTicked])
  | replay _ n hn =>
    have hreplay := hb.gone.parseEvents hi.wellFormed hi.additions
    obtain ⟨hwithin, hshown⟩ := hb.bordered
    refine ⟨hwatch, hgone, hfoods, fun u hu => ?_, ?_⟩
    · have hu' : Obs.updated u ∈ since Obs.isTicked
          (s.trace ++ [.ticked s.game.parseEvents]) := hu
      rw [since_snoc, if_pos (by rfl)] at hu'
      cases hu'
    · refine always_snoc.mpr ⟨hb.ticks, fun g hg => ?_⟩
      obtain rfl : s.game = g := by
        have := Obs.ticked.inj hg
        rwa [hreplay] at this
      constructor
      · intro hall u hu v hv
        obtain ⟨c, hc, rfl⟩ := hshown u hu v hv
        exact hall c hc
      · intro hplaces c hc
        rcases hwithin c hc with hmap | ⟨u, hu, hv⟩
        · exact hmap
        · exact hplaces u hu _ hv
  | send _ clock accepts i => exact hplain rfl fun n hn => by cases hn
  | join _ w grown hw => exact hplain rfl fun n hn => by cases hn
  | receive _ w packet beyond => exact hplain rfl fun n hn => by cases hn
  | close _ x hx => exact hplain rfl fun n hn => by cases hn

theorem Run.borders (r : Run ℝ) : Borders .idle r.final := by
  refine Run.induction (P := Borders) (fun rand stale => ?_)
    (fun a s b s' hi hm hb => hm.borders hi hb) r
  have hgrounded := Game.mapInit_grounded rand stale
  have hstarted := Game.mapInit_started rand stale
  exact ⟨init_watch rand stale, init_gone rand stale,
    fun p hp => hgrounded p (hp.trans_le hstarted.wellFormed.food_le), fun u hu => (by cases hu),
    always_nil _⟩

/-- As long as no cell is updated without a radius, which would leave it no center. -/
def OnMapExactly (pre : List (Obs ℝ)) (o : Obs ℝ) : Prop :=
  (∀ o ∈ pre, o.Solid) → PlacedExactly pre o

/-- In every run, at the end of every tick before which no cell was updated without a radius, all
cells are on the map if and only if all cells that the split and feed commands of the tick created
were put on it. -/
theorem cells_on_map (r : Run ℝ) : Always OnMapExactly r.final.trace :=
  r.borders.ticks.mono fun _ _ hplaced _ => hplaced

/-- At the end of a tick all cells are on the map. -/
def AllOnMap (_ : List (Obs ℝ)) (o : Obs ℝ) : Prop :=
  ∀ g, o = .ticked g → ∀ c, g.Alive c → OnMap (g.heap c).position

/-- A player at the origin looks to the left and splits. -/
def splitLeft (K : Type) [Field K] : Run K where
  rand := placing corner corner
  stale := fun _ => 0
  events := [.writeable 0 0 (fun _ => true) 8,
    .receive 0 [msgMouse, 0x18, 0xFC, 0, 0] (fun _ => 0), .receive 0 [msgSplit] (fun _ => 0),
    .tick (1 / 60)]

theorem splitPosition_left {c : Cell ℝ} (hposition : c.position = 0) (hradius : c.radius = 1000)
    (hmouse : c.mouseVector = ⟨-1000, 0⟩) : ¬ OnMap c.splitPosition := by
  have hlength : (⟨-1000, 0⟩ : Vec2 ℝ).length = 1000 := by
    unfold Vec2.length
    rw [arith_sqrt_real, show (-1000 : ℝ) * -1000 + 0 * 0 = 1000 ^ 2 by norm_num]
    exact Real.sqrt_sq (by norm_num)
  have hdirection : (⟨-1000, 0⟩ : Vec2 ℝ).normalize.x = -1 := by
    unfold Vec2.normalize
    rw [hlength]
    norm_num
  have hpos : 0 < Cell.getRadius (c.size / 2) :=
    Cell.getRadius_pos (half_pos (Cell.size_pos (by rw [hradius]; norm_num)))
  have hx : c.splitPosition.x = -1 * 2 * Cell.getRadius (c.size / 2) := by
    unfold Cell.splitPosition
    rw [hposition, hmouse, Vec2.add_x, Vec2.mul_x, Vec2.mul_x, hdirection, Vec2.zero_x, zero_add]
  intro hmap
  have hle : (0 : ℝ) ≤ c.splitPosition.x := hmap.1
  rw [hx] at hle
  linarith

theorem Game.splitPosition_mem {g : Game ℝ} {p : Player ℝ} {c : CellPtr}
    (hplayers : g.players = [p]) (hcells : p.cells = [c]) (hsplit : p.doSplit = true)
    (hbig : 42 < (g.heap c).radius) : (g.heap c).splitPosition ∈ g.commandPlaces 0 p := by
  have hlowered : (g.modifyPlayer 0 fun p => { p with doSplit := false }).cellsOf 0 = [c] := by
    rw [Game.cellsOf_modifyPlayer g 0 (fun p => { p with doSplit := false }) (fun _ => rfl) 0]
    simp [Game.cellsOf, hplayers, hcells]
  have hplace : (g.modifyPlayer 0 fun p => { p with doSplit := false }).splitPlace 0 0 =
      some (g.heap c).splitPosition := by
    unfold Game.splitPlace
    rw [hlowered]
    exact if_pos ⟨show 1 < 16 by decide, hbig⟩
  unfold Game.commandPlaces
  dsimp only
  rw [if_pos hsplit, hlowered]
  refine List.mem_append_left _ (List.mem_append_left _ ?_)
  dsimp only
  rw [hplace]
  exact List.mem_singleton_self _

theorem Sys.Solo.split_off {s : Sys ℝ} {p : Player ℝ} (h : s.Solo p) (clock : ℝ)
    (hsplit : p.doSplit = true) (hradius : (s.game.heap Sys.firstCell).radius = 1000)
    (hmouse : (s.game.heap Sys.firstCell).mouseVector = ⟨-1000, 0⟩)
    (hticks : Always PlacedExactly (s.tick clock).trace) :
    ¬ Always AllOnMap (s.tick clock).trace := by
  have htold := h.told clock
  have hplayers : (s.tickMoved clock).game.players = [p] := by
    obtain ⟨cs, hcs⟩ := htold
    rw [hcs]
    exact h.players
  have hcell : (s.tickMoved clock).game.heap Sys.firstCell =
      Game.pulled (s.game.heap Sys.firstCell) := by
    rw [htold.heap, Game.setCell_heap_self]
  obtain ⟨hposition', hradius', hmouse'⟩ := Game.pulled_rest (s.game.heap Sys.firstCell)
  obtain ⟨-, htrace⟩ := tick_alone hplayers
  have hplace := Game.splitPosition_mem hplayers h.cells hsplit
    (by rw [hcell, hradius', hradius]; norm_num)
  rw [hcell] at hplace
  intro hall
  let pre := (s.tickMoved clock).trace ++
    [.updated ((s.tickMoved clock).game.updatePlayer 0 p), .requested p.wsi]
  have hpre : pre ++ [.ticked (s.tick clock).game] <+: (s.tick clock).trace := by
    rw [htrace, List.append_assoc]
    exact List.prefix_rfl
  have hupdating : Updating pre ((s.tickMoved clock).game.updatePlayer 0 p) :=
    (updating_append (by simp [Obs.isTicked]) _).mpr (Or.inr List.mem_cons_self)
  have hmap := (hticks pre _ hpre _ rfl).mp (hall pre _ hpre _ rfl) _ hupdating _ hplace
  exact splitPosition_left (hposition'.trans h.central.origin) (hradius'.trans hradius)
    (hmouse'.trans hmouse) hmap

theorem Sys.Reached.splits_left {s : Sys ℝ} (hreached : s.Reached)
    (h : s.game.Joined corner corner 0)
    (hticks : Always PlacedExactly ((splitLeft ℝ).events.foldl Sys.step s).trace) :
    ¬ Always AllOnMap ((splitLeft ℝ).events.foldl Sys.step s).trace := by
  unfold splitLeft at hticks ⊢
  simp only [List.foldl_cons, List.foldl_nil] at hticks ⊢
  have hjoin : s.step (.writeable 0 0 (fun _ => true) 8) = s.join 0 8 := h.writeable 0 _ 8
  have hreached' := hreached.step (.writeable 0 0 (fun _ => true) 8)
  rw [hjoin] at hticks hreached' ⊢
  obtain ⟨p, hlone, hfresh, hwsi⟩ := hreached'.lone (h.join 8) corner_far corner_far
  have hsolo := hlone.solo (by rw [hfresh.message]; rfl)
  generalize s.join 0 8 = s₁ at hlone hsolo hticks ⊢
  have hmouse := hsolo.receive [msgMouse, 0x18, 0xFC, 0, 0] (fun _ => 0) fun _ => le_rfl
  rw [hwsi] at hmouse
  obtain ⟨hsolo₂, hcell₂⟩ := hmouse
  rw [if_pos (show [msgMouse, 0x18, 0xFC, 0, 0].head? = some msgMouse from rfl)] at hcell₂
  generalize hs₂ : s₁.receive 0 [msgMouse, 0x18, 0xFC, 0, 0] (fun _ => 0) = s₂ at hsolo₂ hcell₂
  generalize hp₂ : p.received 0 [msgMouse, 0x18, 0xFC, 0, 0] = p₂ at hsolo₂
  have hwsi₂ : p₂.wsi = 0 := by
    rw [← hp₂]
    unfold Player.received
    split_ifs <;> exact hwsi
  have hsplit := hsolo₂.receive [msgSplit] (fun _ => 0) fun h => absurd h (by decide)
  rw [hwsi₂] at hsplit
  obtain ⟨hsolo₃, hcell₃⟩ := hsplit
  rw [if_neg (show ¬ [msgSplit].head? = some msgMouse by decide), hcell₂] at hcell₃
  generalize hs₃ : s₂.receive 0 [msgSplit] (fun _ => 0) = s₃ at hsolo₃ hcell₃
  have hfinal : ((s₁.step (.receive 0 [msgMouse, 0x18, 0xFC, 0, 0] fun _ => 0)).step
      (.receive 0 [msgSplit] fun _ => 0)).step (.tick (1 / 60)) = s₃.tick (1 / 60) := by
    rw [← hs₃, ← hs₂]
    rfl
  rw [hfinal] at hticks ⊢
  refine hsolo₃.split_off _ ?_ ?_ ?_ hticks
  · unfold Player.received
    rw [if_pos ⟨hwsi₂.symm, List.cons_ne_nil _ _⟩]
    exact Bool.or_true _
  · rw [hcell₃]
    exact hlone.cell.radius
  · rw [hcell₃]
    have hmouseAt : mouseAt [msgMouse, 0x18, 0xFC, 0, 0] (fun _ => 0) = ⟨-1000, 0⟩ := by decide
    unfold Game.look
    rw [hmouseAt, hlone.cell.central.origin]
    ext <;> simp

/-- The half of a cell at the border that looks over it is created off the map. -/
theorem split_off_map : ¬ Always AllOnMap (splitLeft ℝ).final.trace := by
  have hjoined : (Sys.init (placing corner corner) fun _ => (0 : ℝ)).game.Joined corner corner 0 :=
    Game.mapInit_joined corner corner _
  exact (Sys.init_reached _ _).splits_left hjoined (splitLeft ℝ).borders.ticks

end Agar
