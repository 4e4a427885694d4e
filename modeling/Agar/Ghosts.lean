import Agar.Views
import Agar.Borders
import Agar.Rejoining

/-! Ghosts: the cells that leave the game without a report, and the histories that keep them. -/

namespace Agar
open Trace

/-- The cell leaves the game with this entry of the trace and is not reported as removed: it belongs
to a player who leaves, or a stray erase of the collision phase takes it. -/
def Obs.Loses (c : CellPtr) : Obs ℝ → Prop
  | .erased g x => c ∈ g.cellsOf x
  | .collided g g' => g.Roams c ∧ ¬ g'.Roams c ∧ c ∉ g'.cellEvents.removeDynamic
  | _ => False

def Lost (tr : List (Obs ℝ)) (c : CellPtr) : Prop := ∃ o ∈ tr, o.Loses c

theorem Lost.append {tr : List (Obs ℝ)} {c : CellPtr} (h : Lost tr c) (os : List (Obs ℝ)) :
    Lost (tr ++ os) c := by
  obtain ⟨o, ho, hloses⟩ := h
  exact ⟨o, List.mem_append_left os ho, hloses⟩

theorem lost_append_iff {tr os : List (Obs ℝ)} (h : ∀ o ∈ os, ∀ c, ¬ o.Loses c) (c : CellPtr) :
    Lost (tr ++ os) c ↔ Lost tr c := by
  refine ⟨?_, fun h => h.append os⟩
  rintro ⟨o, ho, hloses⟩
  rcases List.mem_append.mp ho with ho | ho
  · exact ⟨o, ho, hloses⟩
  · exact absurd hloses (h o ho c)

theorem lost_snoc (tr : List (Obs ℝ)) (o : Obs ℝ) (c : CellPtr) :
    Lost (tr ++ [o]) c ↔ Lost tr c ∨ o.Loses c := by
  constructor
  · rintro ⟨o', ho, hloses⟩
    rcases List.mem_append.mp ho with ho | ho
    · exact Or.inl ⟨o', ho, hloses⟩
    · exact Or.inr (List.mem_singleton.mp ho ▸ hloses)
  · rintro (h | h)
    · exact h.append [o]
    · exact ⟨o, List.mem_append_right tr (List.mem_singleton_self o), h⟩

namespace Game
variable {g g' : Game ℝ} {c : CellPtr}

theorem WellFormed.roams_lt (hw : WellFormed g) (h : g.Roams c) : c < g.allocated :=
  hw.alive_lt h.alive

theorem roams_congr (hdynamic : g'.dynamicMap = g.dynamicMap)
    (hcells : ∀ i, g'.cellsOf i = g.cellsOf i) : g'.Roams c ↔ g.Roams c := by
  unfold Roams
  simp only [hdynamic, hcells]

theorem Drift.roams (h : Drift g g') (hc : c < g.allocated) (hr : g'.Roams c) : g.Roams c :=
  hr.imp (h.dynamic c hc) fun ⟨i, hi⟩ => ⟨i, h.cells i c hc hi⟩

theorem Grows.roams (h : Grows g g') (hr : g.Roams c) : g'.Roams c :=
  hr.imp (fun hd => h.dynamic hd) fun ⟨i, hi⟩ => ⟨i, h.cells i hi⟩

theorem Effect.reports (h : Effect g g') {c : CellPtr} (hc : c ∈ g'.cellEvents.removeDynamic) :
    c ∈ g.cellEvents.removeDynamic ∨ g.Roams c := by
  cases h with
  | killDynamic loop p h =>
    refine (List.mem_append.mp hc).imp_right fun hc => ?_
    exact Or.inl (List.mem_singleton.mp hc ▸ List.mem_of_getElem? h)
  | kill i loop p h =>
    refine (List.mem_append.mp hc).imp_right fun hc => ?_
    exact Or.inr ⟨i, List.mem_singleton.mp hc ▸ List.mem_of_getElem? h⟩
  | stray i myLoop p slot hp hslot =>
    rw [(eraseCellAt_frame ((g.note (.absorb p slot)).pushRemoveDynamic p) i myLoop).2.2.2.2.1] at hc
    rcases List.mem_append.mp hc with hc | hc
    · exact Or.inl hc
    · exact Or.inl (List.mem_singleton.mp hc ▸ hp)
  | _ => exact Or.inl hc

theorem effects_report (h : Relation.ReflTransGen Effect g g') (hlt : c < g.allocated)
    (hc : c ∈ g'.cellEvents.removeDynamic) : c ∈ g.cellEvents.removeDynamic ∨ g.Roams c := by
  induction h with
  | refl => exact Or.inl hc
  | tail h he ih =>
    rcases he.reports hc with hc | hr
    · exact ih hc
    · exact Or.inr ((frame_of_effects h).toDrift.roams hlt hr)

end Game

/-- What a move makes of the cells that roam: none comes back, and one that goes is lost. -/
structure Flock (s s' : Sys ℝ) : Prop where
  allocated : s.game.allocated ≤ s'.game.allocated
  back : ∀ c < s.game.allocated, s'.game.Roams c → s.game.Roams c
  forth : ∀ c, s.game.Roams c → s'.game.Roams c ∨ Lost s'.trace c
  lost : ∀ c, Lost s.trace c → Lost s'.trace c
  loses : ∀ c, Lost s'.trace c → Lost s.trace c ∨ s.game.Roams c ∧ ¬ s'.game.Roams c

theorem Flock.of_iff {s s' : Sys ℝ} (hallocated : s.game.allocated ≤ s'.game.allocated)
    (h : ∀ c, s'.game.Roams c ↔ s.game.Roams c) {os : List (Obs ℝ)}
    (htrace : s'.trace = s.trace ++ os) (hos : ∀ o ∈ os, ∀ c, ¬ o.Loses c) : Flock s s' := by
  refine ⟨hallocated, fun c _ => (h c).mp, fun c hc => Or.inl ((h c).mpr hc), fun c hc => ?_,
    fun c hc => Or.inl ?_⟩
  · rw [htrace]
    exact hc.append os
  · rwa [htrace, lost_append_iff hos] at hc

theorem Sys.erasePlayer_flock {s : Sys ℝ} (hw : s.game.WellFormed) (x : ℕ) :
    Flock s (s.erasePlayer x) := by
  refine ⟨le_rfl, fun c _ hc => ?_, fun c hc => ?_, fun c hc => hc.append _, fun c hc => ?_⟩
  · refine hc.imp id fun ⟨i, hi⟩ => ?_
    rw [Game.cellsOf_erasePlayer] at hi
    exact ⟨_, hi⟩
  · rcases hc with hd | ⟨i, hi⟩
    · exact Or.inl (Or.inl hd)
    rcases Nat.lt_trichotomy i x with hix | rfl | hix
    · refine Or.inl (Or.inr ⟨i, ?_⟩)
      rw [Game.cellsOf_erasePlayer, if_pos hix]
      exact hi
    · exact Or.inr ((lost_snoc _ _ _).mpr (Or.inr hi))
    · refine Or.inl (Or.inr ⟨i - 1, ?_⟩)
      rw [Game.cellsOf_erasePlayer, if_neg (by omega), Nat.sub_add_cancel (by omega)]
      exact hi
  · refine ((lost_snoc _ _ _).mp hc).imp_right fun hi => ⟨Or.inr ⟨x, hi⟩, ?_⟩
    -- the cells of a player who leaves are nowhere else
    rintro (hd | ⟨i, hi'⟩)
    · exact (hw.dynamic_only hd).2 x hi
    · rw [Game.cellsOf_erasePlayer] at hi'
      refine hw.cells_disjoint x _ ?_ c hi hi'
      split_ifs <;> omega

theorem Move.flock {a : Stage} {s s' : Sys ℝ} (h : Move (a, s) (a, s')) (hi : Invariant a s) :
    Flock s s' := by
  have hw := hi.wellFormed
  have hkeeps : ∀ os : List (Obs ℝ), s.game.allocated ≤ s'.game.allocated →
      s'.game.dynamicMap = s.game.dynamicMap →
      s'.game.players.map Player.cells = s.game.players.map Player.cells →
      s'.trace = s.trace ++ os → (∀ o ∈ os, ∀ c, ¬ o.Loses c) → Flock s s' := by
    intro os hallocated hdynamic hcells htrace hos
    refine Flock.of_iff hallocated (fun c => Game.roams_congr hdynamic fun i => ?_) htrace hos
    rw [Game.cellsOf_eq_map, Game.cellsOf_eq_map, hcells]
  cases h with
  | kick _ x hx => exact Sys.erasePlayer_flock hw x
  | send _ clock accepts i =>
    rcases Sys.sendAt_cases s clock accepts i with h | ⟨p, hp, -, -, h⟩
    · rw [h]
      exact Flock.of_iff le_rfl (fun c => Iff.rfl) (List.append_nil _).symm
        fun o ho => (by cases ho)
    · refine hkeeps [.wrote p.wsi clock p.wsMessage.pending] (by rw [h]; exact le_rfl)
        (by rw [h]; rfl) ?_ (by rw [h]) fun o ho =>
          List.mem_singleton.mp ho ▸ fun c => id
      rw [h]
      show (s.game.players.set i _).map Player.cells = _
      rw [List.map_set]
      exact map_set_same hp rfl
  | join _ w grown hw' =>
    have hcells := Game.cellsOf_join s w grown
    have hnone : s.game.cellsOf s.game.players.length = [] := by
      rw [Game.cellsOf, List.getElem?_eq_none le_rfl]
    have hloses : ∀ c, ¬ Obs.Loses c (.joined (s.game.newPlayer w).1 s.game (s.join w grown).game) :=
      fun c => id
    refine ⟨Nat.le_succ _, fun c hc hr => ?_, fun c hr => Or.inl ?_, fun c hc => hc.append _,
      fun c hc => Or.inl ?_⟩
    · refine hr.imp id (Exists.imp fun i hi => ?_)
      rw [hcells] at hi
      split_ifs at hi
      · exact absurd hc (List.mem_singleton.mp hi ▸ lt_irrefl _)
      · exact hi
    · refine hr.imp id (Exists.imp fun i hi => ?_)
      rw [hcells, if_neg]
      · exact hi
      · rintro rfl
        rw [hnone] at hi
        cases hi
    · exact ((lost_snoc _ _ _).mp hc).resolve_right (hloses c)
  | receive _ w packet beyond =>
    by_cases hlen : packet.length < 1
    · have hreceive : s.receive w packet beyond = s.observe (.received w packet) := if_pos hlen
      exact hkeeps [.received w packet] (by rw [hreceive]; exact le_rfl)
        (by rw [hreceive]; rfl) (by rw [hreceive]; rfl) (by rw [hreceive]; rfl) fun o ho =>
          List.mem_singleton.mp ho ▸ fun c => id
    · have hreceive : s.receive w packet beyond = ({ s.observe (.received w packet) with
          game := s.game.receiveAll w packet beyond } : Sys ℝ).observe (.requested w) := if_neg hlen
      have hne : packet ≠ [] := fun h => hlen (by rw [h]; decide)
      have hstill := Game.receiveAll_still hw w hne beyond
      refine hkeeps [.received w packet, .requested w] (by rw [hreceive]; exact hstill.allocated)
        (by rw [hreceive]; exact hstill.dynamic) ?_ (by rw [hreceive]; simp [Sys.observe])
        fun o ho => ?_
      · rw [hreceive]
        show (s.game.receiveAll w packet beyond).players.map Player.cells = _
        rw [(Game.receiveAll_spec hw hne).2, List.map_map]
        refine List.map_congr_left fun p _ => ?_
        show (p.received w packet).cells = p.cells
        unfold Player.received
        split_ifs <;> rfl
      · rcases List.mem_pair.mp ho with rfl | rfl <;> exact fun c => id
  | close _ x hx => exact Sys.erasePlayer_flock hw x

/-- All entries of the histories are cells of the game. -/
def Game.Truthful (g : Game ℝ) : Prop := ∀ p ∈ g.players, ∀ c ∈ p.cellHistory, g.Roams c

/-- A cell of the history that is lost has its center in the view. -/
def UpdateRecord.Haunted (tr : List (Obs ℝ)) (u : UpdateRecord ℝ) : Prop :=
  ∃ c ∈ u.player.cellHistory, u.player.sees u.commanded c = true ∧ Lost tr c

/-- At the end of a tick all histories are truthful if and only if no update of the tick was
haunted. -/
def TruthfulExactly (tr : List (Obs ℝ)) : Obs ℝ → Prop
  | .ticked g => g.Truthful ↔ ∀ u, Updating tr u → ¬ u.Haunted tr
  | _ => True

/-- The updates of the tick so far were haunted as the histories of their players are. -/
def Tallied : Stage → Sys ℝ → Prop
  | .updating n, s =>
    (∃ i < n, ∃ v, s.sights[i]? = some v ∧ ∃ c ∈ v.history, Lost s.trace c) ↔
      ∃ u, Updating s.trace u ∧ u.Haunted s.trace
  | _, s => ∀ u, ¬ Updating s.trace u

structure Seance (a : Stage) (s : Sys ℝ) : Prop where
  watch : Watch a s
  gone : s.game.Gone
  lost : ∀ c, Lost s.trace c → c < s.game.allocated ∧ ¬ s.game.Roams c ∧
    ((∃ i, Awaits a i) → c ∉ s.game.cellEvents.removeDynamic)
  known : ∀ i v, s.sights[i]? = some v → ∀ c ∈ v.history, s.game.Roams c ∨ Lost s.trace c ∨
    Awaits a i ∧ c ∈ s.game.cellEvents.removeDynamic
  tallied : Tallied a s

theorem Seance.next {a b : Stage} {s s' : Sys ℝ} (h : Seance a s) (hw : s.game.WellFormed)
    (hflock : Flock s s') (hwatch : Watch b s') (hgone : s'.game.Gone)
    (hreports : (∃ i, Awaits b i) → (∃ i, Awaits a i) ∧ s'.trace = s.trace ∧
      s'.game.cellEvents.removeDynamic = s.game.cellEvents.removeDynamic)
    (hsights : ∀ i v, s'.sights[i]? = some v → v.history = [] ∨
      ∃ j, s.sights[j]? = some v ∧ (Awaits a j → Awaits b i))
    (htallied : Tallied b s') : Seance b s' := by
  refine ⟨hwatch, hgone, fun c hc => ?_, fun i v hv c hc => ?_, htallied⟩
  · rcases hflock.loses c hc with hold | ⟨hroams, hgoes⟩
    · obtain ⟨hlt, hdead, hsilent⟩ := h.lost c hold
      refine ⟨hlt.trans_le hflock.allocated, fun hr => hdead (hflock.back c hlt hr), fun hb => ?_⟩
      obtain ⟨ha, -, hevents⟩ := hreports hb
      rw [hevents]
      exact hsilent ha
    · refine ⟨(hw.roams_lt hroams).trans_le hflock.allocated, hgoes, fun hb => ?_⟩
      rw [(hreports hb).2.1] at hc
      exact absurd hroams (h.lost c hc).2.1
  · rcases hsights i v hv with hnone | ⟨j, hj, hawaits⟩
    · rw [hnone] at hc
      cases hc
    · rcases h.known j v hj c hc with hr | hlost | ⟨ha, hreported⟩
      · exact (hflock.forth c hr).imp_right Or.inl
      · exact Or.inr (Or.inl (hflock.lost c hlost))
      · refine Or.inr (Or.inr ⟨hawaits ha, ?_⟩)
        rw [(hreports ⟨i, hawaits ha⟩).2.2]
        exact hreported

theorem Seance.next_silent {a b : Stage} {s s' : Sys ℝ} (h : Seance a s) (hw : s.game.WellFormed)
    (hflock : Flock s s') (hwatch : Watch b s') (hgone : s'.game.Gone)
    (ha : ∀ i, ¬ Awaits a i) (hb : ∀ i, ¬ Awaits b i)
    (hsights : ∀ v ∈ s'.sights, v ∈ s.sights ∨ v.history = [])
    (htallied : Tallied b s') : Seance b s' := by
  refine h.next hw hflock hwatch hgone (fun ⟨i, hi⟩ => absurd hi (hb i)) (fun i v hv => ?_) htallied
  rcases hsights v (List.mem_of_getElem? hv) with hold | hnone
  · obtain ⟨j, hj⟩ := List.mem_iff_getElem?.mp hold
    exact Or.inr ⟨j, hj, fun hi => absurd hi (ha j)⟩
  · exact Or.inl hnone

theorem Seance.collide {s : Sys ℝ} (h : Seance .started s) (hi : Invariant .started s)
    (hwatch : Watch .collided s.collide) (hgone : s.collide.game.Gone) :
    Seance .collided s.collide := by
  have hw := hi.wellFormed
  have hevents : s.game.cellEvents = {} := hi.tidy
  have heffects := Game.collisionPhase_leads s.game hw
  have hf := (Game.collisionPhase_leads s.game).frame hw
  have hsights : s.collide.sights = s.sights := map_of_core (fun _ => rfl) hf.core
  refine ⟨hwatch, hgone, fun c hc => ?_, fun i v hv c hc => ?_, fun u hu => ?_⟩
  · rcases (lost_snoc _ _ _).mp hc with hold | ⟨hroams, hgoes, hunreported⟩
    · obtain ⟨hlt, hdead, -⟩ := h.lost c hold
      refine ⟨hlt.trans_le hf.allocated, fun hr => hdead (hf.toDrift.roams hlt hr), fun _ hc' => ?_⟩
      rcases Game.effects_report heffects hlt hc' with hc' | hr
      · rw [hevents] at hc'
        cases hc'
      · exact hdead hr
    · exact ⟨(hw.roams_lt hroams).trans_le hf.allocated, hgoes, fun _ => hunreported⟩
  · rw [hsights] at hv
    rcases h.known i v hv c hc with hr | hlost | ⟨ha, -⟩
    · by_cases hr' : s.collide.game.Roams c
      · exact Or.inl hr'
      by_cases hreported : c ∈ s.collide.game.cellEvents.removeDynamic
      · exact Or.inr (Or.inr ⟨trivial, hreported⟩)
      · exact Or.inr (Or.inl ((lost_snoc _ _ _).mpr (Or.inr ⟨hr, hr', hreported⟩)))
    · exact Or.inr (Or.inl (hlost.append _))
    · exact ha.elim
  · refine h.tallied u ?_
    have hu' := (updating_append (by simp [Obs.isTicked]) u).mp hu
    simpa using hu'

theorem Seance.history {s : Sys ℝ} {n : ℕ} (h : Seance (.updating n) s)
    (hi : Invariant (.updating n) s) {p : Player ℝ} (hp : s.game.players[n]? = some p)
    (c : CellPtr) : (c ∈ (s.game.updatePlayer n p).finished.player.sight.history →
      (s.game.updatePlayer n p).after.Roams c ∨
      c ∈ p.cellHistory ∧ p.sees (s.game.commands n p) c = true ∧ Lost s.trace c) ∧
    (c ∈ p.cellHistory → p.sees (s.game.commands n p) c = true → Lost s.trace c →
      c ∈ (s.game.updatePlayer n p).finished.player.sight.history) := by
  have hw := hi.wellFormed
  have hsight := Sys.sights_getElem? hp
  have hsound := h.watch.sound _ (List.mem_of_getElem? hsight)
  obtain ⟨ds, hds⟩ := Game.digested hi rfl hp hsound.nodup
  obtain ⟨hwc, hd, -⟩ := Game.commands_spec hw hp
  have hgrows := Game.commands_grows s.game n p
  have hafter : ∀ c, (s.game.updatePlayer n p).after.Roams c ↔ (s.game.commands n p).Roams c :=
    fun c => Game.roams_congr rfl (Game.after_cellsOf hw hp)
  have hhistory : (s.game.updatePlayer n p).finished.player.sight.history =
      (p.known (s.game.commands n p)).filter (· ∉ ds) := by
    rw [hds.sight]
    exact hds.history
  rw [hhistory, hafter]
  constructor
  · intro hc
    obtain ⟨hknown, hkept⟩ := List.mem_filter.mp hc
    rcases Player.mem_known.mp hknown with ⟨hold, hsees⟩ | ⟨hmoved, -, -⟩
    · rcases h.known n p.sight hsight c hold with hr | hlost | ⟨-, hreported⟩
      · exact Or.inl (hgrows.roams hr)
      · exact Or.inr ⟨hold, hsees, hlost⟩
      · -- a cell reported as removed whose center is in view leaves the history
        obtain ⟨-, hlt, hmap⟩ := hsound.cell c hold
        have htouches := Player.touches_of_sees (hd.onMap c hlt hmap)
          (hwc.radius c (hlt.trans_le hd.allocated)) hsees
        have hdrop : c ∈ ds := by
          refine (hds.deleted.mem c).mpr ⟨?_, htouches, hknown⟩
          show c ∈ (s.game.commands n p).cellEvents.removeDynamic
          rw [hgrows.events]
          exact hreported
        simp [hdrop] at hkept
    · rw [hgrows.events] at hmoved
      exact Or.inl (hgrows.roams (hi.tidy.2 c hmoved))
  · intro hold hsees hlost
    refine List.mem_filter.mpr ⟨Player.mem_known.mpr (Or.inl ⟨hold, hsees⟩), ?_⟩
    rw [decide_eq_true_eq]
    intro hdrop
    have hreported : c ∈ (s.game.commands n p).cellEvents.removeDynamic :=
      ((hds.deleted.mem c).mp hdrop).1
    rw [hgrows.events] at hreported
    exact (h.lost c hlost).2.2 ⟨n, le_rfl⟩ hreported

theorem Seance.update {s : Sys ℝ} {n : ℕ} (h : Seance (.updating n) s)
    (hi : Invariant (.updating n) s) {p : Player ℝ} (hp : s.game.players[n]? = some p)
    (hwatch : Watch (.updating (n + 1)) (s.updateAt n)) (hgone : (s.updateAt n).game.Gone) :
    Seance (.updating (n + 1)) (s.updateAt n) := by
  have hw := hi.wellFormed
  obtain ⟨-, hd, -⟩ := Game.commands_spec hw hp
  have hgrows := Game.commands_grows s.game n p
  have hsight := Sys.sights_getElem? hp
  have hupdate : s.updateAt n = { game := (s.game.updatePlayer n p).after, trace := s.trace ++
      [.updated (s.game.updatePlayer n p), .requested p.wsi] } := by
    unfold Sys.updateAt
    rw [hp]
  have hafter : ∀ c, (s.updateAt n).game.Roams c ↔ (s.game.commands n p).Roams c := fun c => by
    rw [hupdate]
    exact Game.roams_congr rfl (Game.after_cellsOf hw hp)
  have hevents : (s.updateAt n).game.cellEvents = s.game.cellEvents := by
    rw [hupdate]
    exact hgrows.events
  have hallocated : s.game.allocated ≤ (s.updateAt n).game.allocated := by
    rw [hupdate]
    exact hd.allocated
  have hlost : ∀ c, Lost (s.updateAt n).trace c ↔ Lost s.trace c := by
    rw [hupdate]
    refine lost_append_iff fun o ho c => ?_
    rcases List.mem_pair.mp ho with rfl | rfl <;> exact id
  have hupdating : ∀ u, Updating (s.updateAt n).trace u ↔
      Updating s.trace u ∨ u = s.game.updatePlayer n p := by
    intro u
    rw [hupdate, updating_append (by simp [Obs.isTicked])]
    simp
  have hsights : (s.updateAt n).sights =
      s.sights.set n (s.game.updatePlayer n p).finished.player.sight := by
    rw [hupdate]
    exact map_of_core_set (f := Player.sight) (fun _ => rfl) (Game.after_players hw hp)
  have hlen : n < s.sights.length := Game.getElem?_lt hsight
  have hroams : ∀ c, (s.game.updatePlayer n p).after.Roams c → (s.updateAt n).game.Roams c := by
    rw [hupdate]
    exact fun c hc => hc
  refine ⟨hwatch, hgone, fun c hc => ?_, fun i v hv c hc => ?_, ?_⟩
  · obtain ⟨hlt, hdead, hsilent⟩ := h.lost c ((hlost c).mp hc)
    refine ⟨hlt.trans_le hallocated, fun hr => hdead (hd.roams hlt ((hafter c).mp hr)), fun _ => ?_⟩
    rw [hevents]
    exact hsilent ⟨n, le_rfl⟩
  · rw [hlost, hevents]
    rw [hsights] at hv
    by_cases hin : n = i
    · subst hin
      rw [List.getElem?_set_self hlen] at hv
      rw [← Option.some.inj hv] at hc
      rcases (h.history hi hp c).1 hc with hr | ⟨-, -, hl⟩
      · exact Or.inl (hroams c hr)
      · exact Or.inr (Or.inl hl)
    · rw [List.getElem?_set_ne hin] at hv
      rcases h.known i v hv c hc with hr | hl | ⟨ha, hreported⟩
      · exact Or.inl ((hafter c).mpr (hgrows.roams hr))
      · exact Or.inr (Or.inl hl)
      · exact Or.inr (Or.inr ⟨lt_of_le_of_ne ha hin, hreported⟩)
  · show (∃ i < n + 1, _) ↔ _
    have htally : (∃ i < n, ∃ v, s.sights[i]? = some v ∧ ∃ c ∈ v.history, Lost s.trace c) ↔
        ∃ u, Updating s.trace u ∧ u.Haunted s.trace := h.tallied
    simp only [UpdateRecord.Haunted, hlost, hupdating, hsights] at htally ⊢
    constructor
    · rintro ⟨i, hin, v, hv, c, hc, hl⟩
      by_cases heq : n = i
      · subst heq
        rw [List.getElem?_set_self hlen] at hv
        rw [← Option.some.inj hv] at hc
        refine ⟨s.game.updatePlayer n p, Or.inr rfl, c, ?_⟩
        rcases (h.history hi hp c).1 hc with hr | hhaunts
        · exact absurd (hd.roams (h.lost c hl).1 ((hafter c).mp (hroams c hr))) (h.lost c hl).2.1
        · exact hhaunts
      · rw [List.getElem?_set_ne heq] at hv
        obtain ⟨u, hu, hhaunted⟩ := htally.mp ⟨i, by omega, v, hv, c, hc, hl⟩
        exact ⟨u, Or.inl hu, hhaunted⟩
    · rintro ⟨u, hu | rfl, c, hc, hsees, hl⟩
      · obtain ⟨i, hin, v, hv, hghost⟩ := htally.mpr ⟨u, hu, c, hc, hsees, hl⟩
        refine ⟨i, by omega, v, ?_, hghost⟩
        rw [List.getElem?_set_ne (by omega)]
        exact hv
      · exact ⟨n, Nat.lt_succ_self n, _, List.getElem?_set_self hlen, c,
          (h.history hi hp c).2 hc hsees hl, hl⟩

theorem Seance.truthful {s : Sys ℝ} {n : ℕ} (h : Seance (.updating n) s)
    (hn : n = s.game.players.length) : s.game.Truthful ↔
      ∀ u, Updating s.trace u → ¬ u.Haunted s.trace := by
  have htally : (∃ i < n, ∃ v, s.sights[i]? = some v ∧ ∃ c ∈ v.history, Lost s.trace c) ↔
      ∃ u, Updating s.trace u ∧ u.Haunted s.trace := h.tallied
  constructor
  · intro htruthful u hu hhaunted
    obtain ⟨i, -, v, hv, c, hc, hlost⟩ := htally.mpr ⟨u, hu, hhaunted⟩
    obtain ⟨p, hp, rfl⟩ := List.mem_map.mp (List.mem_of_getElem? hv)
    exact (h.lost c hlost).2.1 (htruthful p hp c hc)
  · intro hclear p hp c hc
    obtain ⟨i, hi⟩ := List.mem_iff_getElem?.mp hp
    have hlt : i < n := hn ▸ Game.getElem?_lt hi
    have hv := Sys.sights_getElem? hi
    rcases h.known i p.sight hv c hc with hr | hlost | ⟨hle, -⟩
    · exact hr
    · obtain ⟨u, hu, hhaunted⟩ := htally.mp ⟨i, hlt, p.sight, hv, c, hc, hlost⟩
      exact absurd hhaunted (hclear u hu)
    · exact absurd hlt (not_lt.mpr hle)

theorem Move.seance {a b : Stage} {s s' : Sys ℝ} (h : Move (a, s) (b, s')) (hi : Invariant a s)
    (hs : Seance a s) : Seance b s' := by
  have hw := hi.wellFormed
  have hwatch := h.watch hi hs.watch
  have hgone := h.gone hi hs.gone
  have hplain : a = b → (∀ n, a ≠ .updating n) → a ≠ .collided → Seance b s' := by
    rintro rfl ha hc
    have hsilent : ∀ i, ¬ Awaits a i := by
      cases a with
      | updating n => exact absurd rfl (ha n)
      | collided => exact absurd rfl hc
      | _ => exact fun _ => id
    obtain ⟨os, htrace, hos⟩ := h.plain
    refine hs.next_silent hw (h.flock hi) hwatch hgone hsilent hsilent (h.sights_still hi) ?_
    have hnone : (∀ u, ¬ Updating s.trace u) → ∀ u, ¬ Updating s'.trace u := by
      intro hnone u hu
      rw [htrace, updating_append fun o ho => (hos o ho).1] at hu
      exact hu.elim (hnone u) fun hmem => (hos _ hmem).2 u rfl
    have htallied := hs.tallied
    cases a with
    | updating n => exact absurd rfl (ha n)
    | _ => exact hnone htallied
  cases h with
  | begin _ clock =>
    have hm := Game.updateDynamic_motion (s.game.beginTick clock) (clock - s.game.currentTime)
    refine hs.next_silent hw (Flock.of_iff hm.allocated.ge (fun c => ?_) (List.append_nil _).symm
      fun o ho => (by cases ho)) hwatch hgone (fun _ => id) (fun _ => id) (fun v hv => Or.inl ?_)
      hs.tallied
    · exact Game.roams_congr hm.dynamic fun i => Game.cellsOf_congr hm.players i
    · have hv' : v ∈ ((s.game.beginTick clock).updateDynamic
          (clock - s.game.currentTime)).players.map Player.sight := hv
      rw [hm.players] at hv'
      exact hv'
  | kick _ x hx => exact hplain rfl (fun n hn => by cases hn) (fun hn => by cases hn)
  | collide _ => exact hs.collide hi hwatch hgone
  | drive _ dt =>
    have hm := Game.drive_motion s.game dt
    have hsights : ({ s with game := s.game.drive dt } : Sys ℝ).sights = s.sights :=
      congrArg (List.map Player.sight) hm.players
    refine hs.next hw (Flock.of_iff hm.allocated.ge (fun c => ?_) (List.append_nil _).symm
      fun o ho => (by cases ho)) hwatch hgone (fun _ => ⟨⟨0, trivial⟩, rfl, hm.removeDynamic⟩)
      (fun i v hv => Or.inr ⟨i, hsights ▸ hv, fun _ => Nat.zero_le i⟩) ?_
    · exact Game.roams_congr hm.dynamic fun i => Game.cellsOf_congr hm.players i
    · refine ⟨?_, ?_⟩
      · rintro ⟨i, hlt, -⟩
        exact absurd hlt (Nat.not_lt_zero i)
      · rintro ⟨u, hu, -⟩
        exact absurd hu (hs.tallied u)
  | update _ n p hp => exact hs.update hi hp hwatch hgone
  | replay _ n hn =>
    have hsame : s.game.parseEvents = s.game := hs.gone.parseEvents hw hi.additions
    refine ⟨hwatch, hgone, fun c hc => ?_, fun i v hv c hc => ?_, fun u hu => ?_⟩
    · have hc' := ((lost_snoc s.trace (.ticked s.game.parseEvents) c).mp hc).resolve_right id
      obtain ⟨hlt, hdead, -⟩ := hs.lost c hc'
      refine ⟨?_, ?_, fun ⟨i, hi⟩ => hi.elim⟩
      · show c < s.game.parseEvents.allocated
        rwa [hsame]
      · show ¬ s.game.parseEvents.Roams c
        rwa [hsame]
    · have hv' : (s.game.parseEvents.players.map Player.sight)[i]? = some v := hv
      rw [hsame] at hv'
      have hlt : i < n := by
        have hlt := Game.getElem?_lt hv'
        rwa [List.length_map, ← hn] at hlt
      rcases hs.known i v hv' c hc with hr | hlost | ⟨hle, -⟩
      · refine Or.inl ?_
        show s.game.parseEvents.Roams c
        rwa [hsame]
      · exact Or.inr (Or.inl (hlost.append _))
      · exact absurd hlt (not_lt.mpr hle)
    · have hu' : Obs.updated u ∈ since Obs.isTicked (s.trace ++ [.ticked s.game.parseEvents]) := hu
      rw [since_append_marked (l := []) rfl] at hu'
      cases hu'
  | send _ clock accepts i => exact hplain rfl (fun n hn => by cases hn) (fun hn => by cases hn)
  | join _ w grown hnew => exact hplain rfl (fun n hn => by cases hn) (fun hn => by cases hn)
  | receive _ w packet beyond => exact hplain rfl (fun n hn => by cases hn) (fun hn => by cases hn)
  | close _ x hx => exact hplain rfl (fun n hn => by cases hn) (fun hn => by cases hn)

theorem Moves.seance {x y : Stage × Sys ℝ} (h : Moves x y) (hi : Invariant x.1 x.2)
    (hs : Seance x.1 x.2) : Invariant y.1 y.2 ∧ Seance y.1 y.2 :=
  Moves.keeps (P := Seance) (fun _ _ _ _ hi hm hs => hm.seance hi hs) h hi hs

theorem init_seance (rand : ℕ → Fin (randMax + 1)) (stale : CellPtr → ℝ) :
    Seance .idle (Sys.init rand stale) := by
  refine ⟨init_watch rand stale, init_gone rand stale, fun c hc => ?_, fun i v hv => ?_,
    fun u hu => by cases hu⟩
  · obtain ⟨o, ho, -⟩ := hc
    cases ho
  · rw [init_sights] at hv
    cases hv

theorem Move.atTicks {Q : List (Obs ℝ) → Obs ℝ → Prop} {a b : Stage} {s s' : Sys ℝ}
    (h : Move (a, s) (b, s')) (hQ : ∀ pre o, o.isTicked = false → Q pre o)
    (ht : Always Q s.trace) (htick : ∀ n, a = .updating n → n = s.game.players.length →
      Q s.trace (.ticked s.game.parseEvents)) : Always Q s'.trace := by
  have hplain : ∀ os : List (Obs ℝ), s'.trace = s.trace ++ os → (∀ o ∈ os, o.isTicked = false) →
      Always Q s'.trace := by
    intro os htrace hos
    rw [htrace]
    exact always_append_of_forall ht fun o ho pre => hQ pre o (hos o ho)
  have hstill : a = b → Always Q s'.trace := by
    rintro rfl
    obtain ⟨os, htrace, hos⟩ := h.plain
    exact hplain os htrace fun o ho => (hos o ho).1
  cases h with
  | begin _ clock => exact ht
  | collide _ => exact hplain _ rfl (by simp [Obs.isTicked])
  | drive _ dt => exact ht
  | update _ n p hp =>
    refine hplain [.updated (s.game.updatePlayer n p), .requested p.wsi] ?_
      (by simp [Obs.isTicked])
    unfold Sys.updateAt
    rw [hp]
  | replay _ n hn => exact always_snoc.mpr ⟨ht, htick n rfl hn⟩
  | _ => exact hstill rfl

/-- In every run all entries of the histories are cells of the game at the end of a tick if and only
if no update of the tick finds a lost cell of the history in its view. -/
theorem no_ghosts (r : Run ℝ) : Always TruthfulExactly r.final.trace := by
  refine (Run.induction (P := fun a s => Seance a s ∧ Always TruthfulExactly s.trace)
    (fun rand stale => ⟨init_seance rand stale, always_nil _⟩) (fun a s b s' hi hm hs => ?_) r).2
  refine ⟨hm.seance hi hs.1, hm.atTicks (fun pre o ho => ?_) hs.2 fun n ha hn => ?_⟩
  · cases o <;> trivial
  · subst ha
    show s.game.parseEvents.Truthful ↔ _
    rw [hs.1.gone.parseEvents hi.wellFormed hi.additions]
    exact hs.1.truthful hn

namespace Sys

/-- The first cell of the second player. -/
def secondCell : CellPtr := maxFood + maxVirus + 1

theorem tick_pair {s : Sys ℝ} {clock : ℝ} {p q : Player ℝ}
    (hplayers : (s.tickMoved clock).game.players = [p, q]) :
    (s.tick clock).game = (((s.tickMoved clock).updateAt 0).updateAt 1).game.parseEvents := by
  have hall : (s.tickMoved clock).updateAll = ((s.tickMoved clock).updateAt 0).updateAt 1 := by
    rw [updateAll, hplayers]
    rfl
  rw [tick_game, hall]

/-- Two players are at the origin, and the first one knows the cell of the second one. -/
structure Pair (s : Sys ℝ) (p q : Player ℝ) : Prop where
  reached : s.Reached
  remote : s.game.Remote
  players : s.game.players = [p, q]
  calm : p.Calm
  wsi : p.wsi = 0
  wsi' : q.wsi = 1
  cells : p.cells = [firstCell]
  cells' : q.cells = [secondCell]
  cell : (s.game.heap firstCell).Fresh
  cell' : (s.game.heap secondCell).Fresh
  connected : p.wsMessage.connected = true
  knows : secondCell ∈ p.cellHistory

theorem first_update {s : Sys ℝ} (hreached : s.Reached) {clock : ℝ} {p : Player ℝ}
    (hp : (s.tickMoved clock).game.players[0]? = some p) (hfresh : p.Fresh) {own : CellPtr}
    (hcells : p.cells = [own]) (hown : ((s.tickMoved clock).game.heap own).Fresh)
    {moves : List CellPtr} (hevents : (s.tickMoved clock).game.cellEvents = { move := moves })
    (hfew : moves.length ≤ 1000) {c : CellPtr} (hmoved : c ∈ moves)
    (hc : ((s.tickMoved clock).game.heap c).Fresh) :
    ((s.tickMoved clock).game.updatePlayer 0 p).finished.player.wsMessage.connected = true ∧
    c ∈ ((s.tickMoved clock).game.updatePlayer 0 p).finished.player.cellHistory := by
  have hi : Invariant (.updating 0) (s.tickMoved clock) :=
    Moves.invariant (tickMoved_moves s clock) hreached.invariant
  obtain ⟨hcommanded, -, hleft, hright, -, -⟩ :=
    Game.updated_calm hi.wellFormed hp hfresh.toCalm hcells hown
  obtain ⟨hsound, ds, hds⟩ := hreached.digested clock hp
  have hmove : ((s.tickMoved clock).game.updatePlayer 0 p).commanded.cellEvents.move.Nodup := by
    rw [hcommanded]
    exact hi.tidy.1
  constructor
  · obtain ⟨-, hcost⟩ := UpdateRecord.cost_le (u := (s.tickMoved clock).game.updatePlayer 0 p)
      (by rw [hcommanded, hevents]) (by rw [hcommanded, hevents]) hleft hright
    rw [hcommanded, hevents] at hcost
    have hhistory : p.cellHistory.length = 0 := by rw [hfresh.history]; rfl
    have hbytes : ((s.tickMoved clock).game.updatePlayer 0 p).cost ≤
        5 * p.cellHistory.length + 44 * moves.length + 9 := hcost
    have hptr : ((s.tickMoved clock).game.updatePlayer 0 p).finished.player.wsMessage.ptr =
        16 + ((s.tickMoved clock).game.updatePlayer 0 p).cost := by
      rw [(Game.finished_player hi.wellFormed hp).2.2.2.2.2, Message.appendAll_ptr _ _
        (hi.buffers p (List.mem_of_getElem? hp)), hds.bytes_said hsound.nodup hmove,
        hfresh.message]
      rfl
    have hsize : maxSize = 65536 := by decide
    exact (Message.connected_iff (by omega)).mpr (by omega)
  · have hhistory : ((s.tickMoved clock).game.updatePlayer 0 p).finished.player.cellHistory =
        (p.known (s.tickMoved clock).game).filter (· ∉ ds) := by
      have hparsed : ((s.tickMoved clock).game.updatePlayer 0 p).finished.player.cellHistory =
          ((s.tickMoved clock).game.updatePlayer 0 p).parsed.player.cellHistory :=
        congrArg Sight.history hds.sight
      rw [hparsed, hds.history, hcommanded]
      rfl
    rw [hhistory]
    refine List.mem_filter.mpr ⟨Player.mem_known.mpr (Or.inr ⟨?_, ?_, ?_⟩), ?_⟩
    · rw [hevents]
      exact hmoved
    · exact Game.Joined.touches hc hfresh
    · simp [Player.kept, hfresh.history]
    · rw [decide_eq_true_eq]
      intro hdead
      have hreported := ((hds.deleted.mem c).mp hdead).1
      rw [hcommanded, hevents] at hreported
      cases hreported

theorem updateAt_calm {s : Sys ℝ} {n : ℕ} (hi : Invariant (.updating n) s) {p : Player ℝ}
    (hp : s.game.players[n]? = some p) (hcalm : p.Calm) {own : CellPtr} (hcells : p.cells = [own])
    (hown : (s.game.heap own).Fresh) :
    (s.updateAt n).game = s.game.setPlayer n (s.game.updatePlayer n p).finished.player := by
  obtain ⟨hcommanded, -⟩ := Game.updated_calm hi.wellFormed hp hcalm hcells hown
  unfold updateAt
  rw [hp]
  show (s.game.updatePlayer n p).commanded.setPlayer n _ = _
  rw [hcommanded]

theorem Reached.updates {s : Sys ℝ} (hreached : s.Reached) {clock : ℝ} {p q : Player ℝ}
    (hboth : (s.tickMoved clock).game.players = [p, q]) (hp : p.Fresh) (hq : q.Fresh)
    (hcells : p.cells = [firstCell]) (hcells' : q.cells = [secondCell])
    (hcell : ((s.tickMoved clock).game.heap firstCell).Fresh)
    (hcell' : ((s.tickMoved clock).game.heap secondCell).Fresh) {moves : List CellPtr}
    (hevents : (s.tickMoved clock).game.cellEvents = { move := moves }) :
    ∃ q', (s.tick clock).game.players =
      [((s.tickMoved clock).game.updatePlayer 0 p).finished.player, q'] ∧
      q'.wsi = q.wsi ∧ q'.cells = [secondCell] := by
  have hi : Invariant (.updating 0) (s.tickMoved clock) :=
    Moves.invariant (tickMoved_moves s clock) hreached.invariant
  have htick := tick_pair hboth
  generalize s.tickMoved clock = t at *
  have hfirst : t.game.players[0]? = some p := by rw [hboth]; rfl
  have hgame := updateAt_calm hi hfirst hp.toCalm hcells hcell
  have hi' : Invariant (.updating 1) (t.updateAt 0) := (Move.update _ 0 p hfirst).invariant hi
  generalize (t.game.updatePlayer 0 p).finished.player = p' at *
  have hsecond : (t.updateAt 0).game.players[1]? = some q := by
    rw [hgame]
    show (t.game.players.set 0 p')[1]? = some q
    rw [hboth]
    rfl
  have hcell'' : ((t.updateAt 0).game.heap secondCell).Fresh := by
    rw [hgame]
    exact hcell'
  have hgame' := updateAt_calm hi' hsecond hq.toCalm hcells' hcell''
  have hcells'' := (Game.updated_calm hi'.wellFormed hsecond hq.toCalm hcells' hcell'').2.2.2.2.2
  have hwsi := (Game.finished_player hi'.wellFormed hsecond).1
  generalize ((t.updateAt 0).game.updatePlayer 1 q).finished.player = q' at *
  have hevents' : ((t.updateAt 0).updateAt 1).game.cellEvents = { move := moves } := by
    rw [hgame', hgame]
    exact hevents
  refine ⟨q', ?_, hwsi, hcells''⟩
  rw [htick, Game.parseEvents_of_told hevents', hgame', hgame]
  show (t.game.players.set 0 p').set 1 q' = _
  rw [hboth]
  rfl

theorem Reached.pair {s : Sys ℝ} (hreached : s.Reached) (h : s.game.Joined corner corner 2)
    (clock : ℝ) : ∃ p q, Pair (s.tick clock) p q := by
  have hlen := congrArg List.length h.wsis
  rw [List.length_map, List.length_range] at hlen
  obtain ⟨p, q, hplayers⟩ := List.length_eq_two.mp hlen
  have hwsis := h.wsis
  have hcells := h.cells
  rw [hplayers] at hwsis hcells
  obtain ⟨hwp, hwq⟩ : p.wsi = 0 ∧ q.wsi = 1 := by simpa [List.range_succ] using hwsis
  obtain ⟨hcp, hcq⟩ : p.cells = [firstCell] ∧ q.cells = [secondCell] := by
    simpa [List.range_succ, firstCell, secondCell] using hcells
  have hfp := h.fresh p (by simp [hplayers])
  have hfq := h.fresh q (by simp [hplayers])
  have hcell : (s.game.heap firstCell).Fresh := h.cell 0 two_pos
  have hcell' : (s.game.heap secondCell).Fresh := h.cell 1 one_lt_two
  have hcalm := (h.huddle corner_far corner_far clock).calm
  have hstill : ∀ c ∈ s.game.players.flatMap Player.cells,
      (s.game.heap c).Resting ∧ (s.game.heap c).mouseVector = 0 := fun c hc =>
    ⟨(h.central c hc).central.resting, (h.central c hc).still⟩
  have hidle : s.Idle := fun r hr => ⟨(h.fresh r hr).doSplit, (h.fresh r hr).doFeed⟩
  obtain ⟨hsame, -⟩ := tick_same hreached.invariant hcalm h.connected hstill hidle
  have htold := tickMoved_told hcalm h.connected hstill
  have hmoved := (Game.beginTick_same s.game clock).trans htold.same
  have hi : Invariant (.updating 0) (s.tickMoved clock) :=
    Moves.invariant (tickMoved_moves s clock) hreached.invariant
  have hboth : (s.tickMoved clock).game.players = [p, q] := by
    obtain ⟨cs, hcs⟩ := htold
    rw [hcs]
    exact hplayers
  have hfirst : (s.tickMoved clock).game.players[0]? = some p := by rw [hboth]; rfl
  have hevents : (s.tickMoved clock).game.cellEvents =
      { move := firstCell :: secondCell :: s.game.dynamicMap } := by
    obtain ⟨cs, hcs⟩ := htold
    rw [hcs, hplayers]
    show ({ move := [] ++ ([p, q].flatMap Player.cells ++ s.game.dynamicMap) } : CellEvents) = _
    rw [List.flatMap_cons, List.flatMap_singleton, hcp, hcq]
    rfl
  have hdynamic : s.game.dynamicMap.length = 100 := by
    rw [h.placed.dynamic]
    rfl
  have hfresh : ((s.tickMoved clock).game.heap firstCell).Fresh := by
    rw [hmoved.heap]
    exact hcell
  have hfresh' : ((s.tickMoved clock).game.heap secondCell).Fresh := by
    rw [hmoved.heap]
    exact hcell'
  obtain ⟨-, -, -, -, hpcalm, hpcells⟩ :=
    Game.updated_calm hi.wellFormed hfirst hfp.toCalm hcp hfresh
  obtain ⟨hconnected, hknows⟩ := first_update hreached hfirst hfp hcp hfresh hevents
    (by simp [hdynamic]) (List.mem_cons_of_mem _ List.mem_cons_self) hfresh'
  have hwsi := (Game.finished_player hi.wellFormed hfirst).1
  obtain ⟨q', hafter, hwsi', hqcells⟩ :=
    hreached.updates hboth hfp hfq hcp hcq hfresh hfresh' hevents
  exact ⟨_, q',
    { reached := hreached.step (.tick clock)
      remote := (h.remote corner_far corner_far).same hsame
      players := hafter
      calm := hpcalm
      wsi := hwsi.trans hwp
      wsi' := hwsi'.trans hwq
      cells := hpcells
      cells' := hqcells
      cell := by rw [hsame.heap]; exact hcell
      cell' := by rw [hsame.heap]; exact hcell'
      connected := hconnected
      knows := hknows }⟩

theorem Pair.leaves {s : Sys ℝ} {p q : Player ℝ} (h : s.Pair p q) :
    Lone (s.step (.peerClose 1)) p ∧ (s.step (.peerClose 1)).game.heap = s.game.heap ∧
    Lost (s.step (.peerClose 1)).trace secondCell := by
  have hstep : s.step (.peerClose 1) = s.erasePlayer 1 := by
    show s.peerClose 1 = _
    unfold peerClose
    have hfind : s.game.players.findIdx? (fun p => decide ((1 : Wsi) = p.wsi)) = some 1 := by
      rw [h.players]
      simp [List.findIdx?_cons, h.wsi, h.wsi']
    rw [hfind]
  have hreached := h.reached.step (.peerClose 1)
  rw [hstep] at hreached ⊢
  refine ⟨⟨hreached, ⟨h.remote.static, h.remote.dynamic⟩, ?_, h.calm, h.cells, h.cell⟩, rfl, ?_⟩
  · show MovedVector.eraseAt Player.moves s.game.players 1 = [p]
    rw [h.players]
    rfl
  · refine ⟨.erased s.game 1, List.mem_append_right _ (List.mem_singleton_self _), ?_⟩
    show secondCell ∈ s.game.cellsOf 1
    unfold Game.cellsOf
    rw [h.players]
    show secondCell ∈ q.cells
    rw [h.cells']
    exact List.mem_singleton_self _

theorem Lone.haunted {s : Sys ℝ} {p : Player ℝ} (h : s.Lone p) (hseance : Seance .idle s)
    (hconnected : p.wsMessage.connected = true) (hknows : secondCell ∈ p.cellHistory)
    (hcell : (s.game.heap secondCell).position = 0) (hlost : Lost s.trace secondCell)
    (clock : ℝ) : ¬ (s.step (.tick clock)).game.Truthful := by
  obtain ⟨hplayers, -, hlone⟩ := h.tick hconnected clock
  have hp : (s.tickMoved clock).game.players[0]? = some p := by rw [hplayers]; rfl
  obtain ⟨hi, hmoved⟩ := (tickMoved_moves s clock).seance h.reached.invariant hseance
  obtain ⟨-, hafter⟩ :=
    (tick_moves h.reached.invariant clock).seance h.reached.invariant hseance
  have htold := h.told hconnected clock
  have hsame := (Game.beginTick_same s.game clock).trans htold.same
  have hsees : p.sees ((s.tickMoved clock).game.commands 0 p) secondCell = true := by
    rw [Game.commands_of_none _ 0 h.calm.doSplit h.calm.doFeed]
    unfold Player.sees inside indexFromCoord
    rw [h.calm.topLeft, h.calm.bottomRight, hsame.heap, hcell]
    norm_num [trunc, blockSize, mapSize, numBlocks]
  have hlost' : Lost (s.tickMoved clock).trace secondCell := by
    obtain ⟨o, ho, hloses⟩ := hlost
    have hprefix := (tickMoved_moves s clock).trace_extends h.reached.invariant
    exact ⟨o, hprefix.subset ho, hloses⟩
  have hghost := (hmoved.history hi hp secondCell).2 hknows hsees hlost'
  have hlost'' : Lost (s.tick clock).trace secondCell := by
    obtain ⟨o, ho, hloses⟩ := hlost
    have hprefix := (tick_moves h.reached.invariant clock).trace_extends h.reached.invariant
    exact ⟨o, hprefix.subset ho, hloses⟩
  intro htruthful
  refine (hafter.lost secondCell hlost'').2.1 (htruthful _ ?_ secondCell hghost)
  rw [hlone.players]
  exact List.mem_singleton_self _

end Sys

theorem Seance.steps {s : Sys ℝ} (h : Seance .idle s) (hi : Invariant .idle s)
    (es : List (Event ℝ)) : Seance .idle (es.foldl Sys.step s) :=
  ((Sys.steps_moves hi es).seance hi h).2

/-- Two players join. One of them leaves when the other one has seen its cell, and another tick
runs. -/
def departing (K : Type) [Field K] : Run K where
  rand := placing corner corner
  stale := fun _ => 0
  events := arrivals K 2 ++ [.tick 1, .peerClose 1, .tick 2]

/-- Every entry of a history is a cell of the game at the end of every tick. -/
def NeverHaunted : Obs ℝ → Prop
  | .ticked g => g.Truthful
  | _ => True

theorem Sys.Reached.departs {s : Sys ℝ} (hreached : s.Reached) (hseance : Seance .idle s)
    (h : s.game.Joined corner corner 2) :
    ¬ Always (fun _ => NeverHaunted)
      (((s.step (.tick 1)).step (.peerClose 1)).step (.tick 2)).trace := by
  obtain ⟨p, q, hpair⟩ := hreached.pair h 1
  obtain ⟨hlone, hheap, hlost⟩ := hpair.leaves
  have hcell := hpair.cell'.central.origin
  rw [← hheap] at hcell
  have hseance' := hseance.steps hreached.invariant [.tick 1, .peerClose 1]
  rw [List.foldl_cons, List.foldl_cons, List.foldl_nil] at hseance'
  have hghost := hlone.haunted hseance' hpair.connected hpair.knows hcell hlost 2
  intro halways
  have htrace := Sys.tick_trace ((s.step (.tick 1)).step (.peerClose 1)) 2
  have hlast := (always_snoc.mp (htrace ▸ halways)).2
  exact hghost hlast

theorem left_behind : ¬ Always (fun _ => NeverHaunted) (departing ℝ).final.trace := by
  obtain ⟨hreached, hjoined⟩ := arrivals_joined 2
  have hseance := (init_seance (placing corner corner) fun _ => 0).steps (init_invariant _ _)
    (arrivals ℝ 2)
  generalize hs : (arrivals ℝ 2).foldl Sys.step
    (Sys.init (placing corner corner) fun _ => 0) = s at hreached hjoined hseance
  have hfinal : (departing ℝ).final = ((s.step (.tick 1)).step (.peerClose 1)).step (.tick 2) := by
    unfold Run.final departing
    dsimp only
    rw [List.foldl_append, hs, List.foldl_cons, List.foldl_cons, List.foldl_cons, List.foldl_nil]
  rw [hfinal]
  exact hreached.departs hseance hjoined

end Agar
