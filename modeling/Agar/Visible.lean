import Agar.Ghosts
import Agar.Larder
import Agar.Divisions

/-! What a player is told to see: the events that all players of a tick are shown, and the history
after them, compared with the cells that reach into the view. -/

namespace Agar
open Trace

/-- A collision phase. -/
def Obs.phase {K : Type} : Obs K → Option (Game K × Game K)
  | .collided before after => some (before, after)
  | _ => none

/-- What is reported after a collision phase that has left the state: the cells that roam have
moved, and the phase has removed what it says. -/
def Game.report {K : Type} (g : Game K) : CellEvents :=
  { g.cellEvents with move := g.players.flatMap Player.cells ++ g.dynamicMap }

/-- The events at a stage of the tick are those of its collision phase. -/
def Announced : Stage → Sys ℝ → Prop
  | .collided, s => ∃ before, latest Obs.phase s.trace = some (before, s.game)
  | .updating _, s => ∃ before after, latest Obs.phase s.trace = some (before, after) ∧
      s.game.cellEvents = after.report
  | _, _ => True

theorem Move.announced {a b : Stage} {s s' : Sys ℝ} (h : Move (a, s) (b, s')) (hi : Invariant a s)
    (hs : Announced a s) : Announced b s' := by
  cases h with
  | begin _ clock => trivial
  | kick _ x hx => trivial
  | collide _ =>
    refine ⟨s.game, ?_⟩
    show latest Obs.phase (s.trace ++ [.collided s.game s.game.collisionPhase]) = _
    rw [latest_append]
    rfl
  | drive _ dt =>
    obtain ⟨before, hbefore⟩ := hs
    refine ⟨before, s.game, hbefore, ?_⟩
    have hm := Game.drive_motion s.game dt
    have hmove : s.game.cellEvents.move = [] := hi.tidy
    have hdriven := Game.drive_move s.game dt
    rw [hmove, List.nil_append] at hdriven
    show (s.game.drive dt).cellEvents = ⟨s.game.players.flatMap Player.cells ++ s.game.dynamicMap,
      s.game.cellEvents.addStatic, s.game.cellEvents.removeStatic, s.game.cellEvents.addDynamic,
      s.game.cellEvents.removeDynamic⟩
    rw [← hdriven, ← hm.addStatic, ← hm.addDynamic, ← hm.removeStatic, ← hm.removeDynamic]
  | update _ n p hp =>
    obtain ⟨before, after, hlatest, hevents⟩ := hs
    obtain ⟨-, hgrows, -, -, -, -, hsame⟩ := Sys.updateAt_frame hi.wellFormed hp
    refine ⟨before, after, ?_, by rw [hsame, hgrows.events, hevents]⟩
    unfold Sys.updateAt
    rw [hp]
    show latest Obs.phase (s.trace ++ [.updated _, .requested _]) = _
    rw [latest_append_of_none (by simp [Obs.phase])]
    exact hlatest
  | _ => trivial

/-- The update works on the events of the collision phase before it. -/
def UpdateRecord.Announces (tr : List (Obs ℝ)) (u : UpdateRecord ℝ) : Prop :=
  ∃ before after, latest Obs.phase tr = some (before, after) ∧
    u.before.cellEvents = after.report ∧ u.commanded.cellEvents = after.report

/-- In every run all players updated in a tick are shown the same events: every cell that was with a
player or in `DynamicMap` after the collision phase has moved, and what the phase removed is gone.
The commands of the players before do not change them. -/
theorem events_shared (r : Run ℝ) : Always (AtUpdates UpdateRecord.Announces) r.final.trace := by
  refine Run.induction_updates (P := Announced) (fun _ _ => trivial)
    (fun _ _ _ _ hi hm hs => hm.announced hi hs) (fun n s p hi hs hp => ?_) r
  obtain ⟨before, after, hlatest, hevents⟩ := hs
  refine ⟨before, after, hlatest, hevents, ?_⟩
  exact (Game.commands_grows s.game n p).events.trans hevents

/-- While the players are updated, a cell of a history that roams is among those reported as
moved. -/
def Mustered : Stage → Sys ℝ → Prop
  | .updating _, s => ∀ v ∈ s.sights, ∀ c ∈ v.history, s.game.Roams c →
      c ∈ s.game.cellEvents.move
  | _, _ => True

structure Muster (a : Stage) (s : Sys ℝ) : Prop where
  seance : Seance a s
  mourned : Mourned a s.game
  mustered : Mustered a s

theorem Muster.update {s : Sys ℝ} {n : ℕ} (h : Muster (.updating n) s)
    (hi : Invariant (.updating n) s) {p : Player ℝ} (hp : s.game.players[n]? = some p) :
    Mustered (.updating (n + 1)) (s.updateAt n) := by
  have hw := hi.wellFormed
  obtain ⟨hd, hgrows, hallocated, -, -, hdynamic, hevents⟩ := Sys.updateAt_frame hw hp
  have hmem : p.sight ∈ s.sights := List.mem_of_getElem? (Sys.sights_getElem? hp)
  obtain ⟨ds, hds⟩ := Game.digested hi rfl hp (h.seance.watch.sound _ hmem).nodup
  have hroams : ∀ c < s.game.allocated, (s.updateAt n).game.Roams c → s.game.Roams c := by
    intro c hc hr
    refine hd.roams hc ((Game.roams_congr hdynamic fun i => ?_).mp hr)
    unfold Sys.updateAt
    rw [hp]
    exact Game.after_cellsOf hw hp i
  have hsights : (s.updateAt n).sights =
      s.sights.set n (s.game.updatePlayer n p).finished.player.sight := by
    unfold Sys.updateAt
    rw [hp]
    exact map_of_core_set (f := Player.sight) (fun _ => rfl) (Game.after_players hw hp)
  have hold : ∀ v ∈ s.sights, ∀ c ∈ v.history, (s.updateAt n).game.Roams c →
      c ∈ s.game.cellEvents.move := fun v hv c hc hr =>
    h.mustered v hv c hc (hroams c ((h.seance.watch.sound v hv).cell c hc).2.1 hr)
  intro v hv c hc hr
  rw [hevents, hgrows.events]
  rw [hsights] at hv
  rcases List.mem_or_eq_of_mem_set hv with hv | rfl
  · exact hold v hv c hc hr
  · -- what is new in the history has moved
    rw [hds.sight] at hc
    have hc' : c ∈ (s.game.updatePlayer n p).parsed.player.cellHistory := hc
    rw [hds.history] at hc'
    rcases Player.mem_known.mp (List.mem_of_mem_filter hc') with ⟨hc', -⟩ | ⟨hc', -⟩
    · exact hold _ hmem c hc' hr
    · rw [← hgrows.events]
      exact hc'

theorem Move.muster {a b : Stage} {s s' : Sys ℝ} (h : Move (a, s) (b, s')) (hi : Invariant a s)
    (hs : Muster a s) : Muster b s' := by
  refine ⟨h.seance hi hs.seance, h.mourned hi hs.mourned, ?_⟩
  cases h with
  | drive _ dt =>
    have hm := Game.drive_motion s.game dt
    have hdriven := Game.drive_move s.game dt
    intro v hv c hc hr
    show c ∈ (s.game.drive dt).cellEvents.move
    rw [hdriven]
    refine List.mem_append_right _ (List.mem_append.mpr ?_)
    have hr' := (Game.roams_congr hm.dynamic fun i => Game.cellsOf_congr hm.players i).mp hr
    exact hr'.symm.imp Game.mem_playerCells.mpr id
  | update _ n p hp => exact hs.update hi hp
  | _ => trivial

theorem init_muster (rand : ℕ → Fin (randMax + 1)) (stale : CellPtr → ℝ) :
    Muster .idle (Sys.init rand stale) := ⟨init_seance rand stale, trivial, trivial⟩

/-- After `ParseEvents` the history consists of the cells reported as moved that reach into the
view, and of the ghosts whose centers are in it, as long as no cell has been updated without a
radius. -/
def UpdateRecord.Spots (tr : List (Obs ℝ)) (u : UpdateRecord ℝ) : Prop :=
  (∀ o ∈ tr, o.Solid) → ∀ c, c ∈ u.parsed.player.cellHistory ↔
    c ∈ u.commanded.cellEvents.move ∧ u.player.touches u.commanded c = true ∨
    c ∈ u.player.cellHistory ∧ u.player.sees u.commanded c = true ∧ Lost tr c

theorem Muster.spots {s : Sys ℝ} {n : ℕ} (h : Muster (.updating n) s)
    (hi : Invariant (.updating n) s) {p : Player ℝ} (hp : s.game.players[n]? = some p) :
    (s.game.updatePlayer n p).Spots s.trace := by
  have hw := hi.wellFormed
  have hsight := Sys.sights_getElem? hp
  have hmem : p.sight ∈ s.sights := List.mem_of_getElem? hsight
  have hsound := h.seance.watch.sound _ hmem
  obtain ⟨ds, hds⟩ := Game.digested hi rfl hp hsound.nodup
  obtain ⟨hwc, hd, -⟩ := Game.commands_spec hw hp
  have hgrows := Game.commands_grows s.game n p
  have hkeeps : (s.game.updatePlayer n p).finished.player.sight.history =
      (s.game.updatePlayer n p).parsed.player.cellHistory := by
    rw [hds.sight]
  have htouches : ∀ c ∈ p.cellHistory, p.sees (s.game.commands n p) c = true →
      p.touches (s.game.commands n p) c = true := fun c hc hsees => by
    obtain ⟨-, hlt, hmap⟩ := hsound.cell c hc
    exact Player.touches_of_sees (hd.onMap c hlt hmap)
      (hwc.radius c (hlt.trans_le hd.allocated)) hsees
  intro _ c
  constructor
  · intro hc
    have hc' := hc
    rw [hds.history, List.mem_filter] at hc'
    obtain ⟨hknown, hstays⟩ := hc'
    rcases Player.mem_known.mp hknown with ⟨hold, hsees⟩ | ⟨hmoved, ht, -⟩
    · rcases h.seance.known n _ hsight c hold with hr | hlost | ⟨-, hreported⟩
      · left
        refine ⟨?_, htouches c hold hsees⟩
        show c ∈ (s.game.commands n p).cellEvents.move
        rw [hgrows.events]
        exact h.mustered _ hmem c hold hr
      · exact Or.inr ⟨hold, hsees, hlost⟩
      · -- a cell reported as removed that reaches into the view leaves the history
        refine absurd ((hds.deleted.mem c).mpr ⟨?_, htouches c hold hsees, hknown⟩)
          (of_decide_eq_true hstays)
        show c ∈ (s.game.commands n p).cellEvents.removeDynamic
        rw [hgrows.events]
        exact hreported
    · exact Or.inl ⟨hmoved, ht⟩
  · rintro (⟨hmoved, ht⟩ | ⟨hold, hsees, hlost⟩)
    · have hroams : (s.game.commands n p).Roams c := by
        have hmoved' : c ∈ (s.game.commands n p).cellEvents.move := hmoved
        rw [hgrows.events] at hmoved'
        exact hgrows.roams (hi.tidy.2 c hmoved')
      rw [← hkeeps]
      exact hds.keeps (Game.Buried.commands h.mourned hw hp) ⟨hroams, hmoved, ht⟩
    · rw [← hkeeps]
      exact (h.seance.history hi hp c).2 hold hsees hlost

/-- In every run, after `ParseEvents` of every update, the history lists exactly the cells in
`CELL_MOVE` that reach into the view, besides cells that have left the game without a report while
their centers stay in view. -/
theorem history_exact (r : Run ℝ) : Always (AtUpdates UpdateRecord.Spots) r.final.trace :=
  Run.induction_updates (P := Muster) init_muster (fun _ _ _ _ hi hm hs => hm.muster hi hs)
    (fun _ _ _ hi hs hp => hs.spots hi hp) r

end Agar
