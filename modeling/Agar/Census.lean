import Agar.Herd
import Agar.Ghosts
import Agar.Passes

/-! The census of a run: every cell that was ever created is in one place of one container, or it was
reported as removed in one collision phase, or it left with its player. -/

namespace Agar
open Trace

theorem append_right_swap (l₁ l₂ l₃ : List CellPtr) : (l₁ ++ l₂ ++ l₃).Perm (l₁ ++ l₃ ++ l₂) := by
  rw [List.append_assoc, List.append_assoc]
  exact List.perm_append_comm.append_left l₁

namespace Game
variable {g g' g'' : Game ℝ}

/-- The cells in the containers, and those that the events report as removed. -/
def accounted {K : Type} (g : Game K) : List CellPtr :=
  g.stored ++ (g.cellEvents.removeStatic ++ g.cellEvents.removeDynamic)

/-- The census has grown by the cells that are new. -/
def Counts (g g' : Game ℝ) : Prop :=
  ∃ fresh : List CellPtr, g'.accounted.Perm (g.accounted ++ fresh) ∧
    List.range g'.allocated = List.range g.allocated ++ fresh

theorem Counts.of_perm (h : g'.accounted.Perm g.accounted) (hallocated : g'.allocated = g.allocated) :
    Counts g g' := ⟨[], by rwa [List.append_nil], by rw [hallocated, List.append_nil]⟩

theorem Counts.refl (g : Game ℝ) : Counts g g := .of_perm (List.Perm.refl _) rfl

theorem Counts.trans (h : Counts g g') (h' : Counts g' g'') : Counts g g'' := by
  obtain ⟨fresh, hperm, hrange⟩ := h
  obtain ⟨fresh', hperm', hrange'⟩ := h'
  refine ⟨fresh ++ fresh', ?_, by rw [hrange', hrange, List.append_assoc]⟩
  rw [← List.append_assoc]
  exact hperm'.trans (hperm.append_right fresh')

theorem Counts.born (hstored : g'.stored.Perm (g.allocated :: g.stored))
    (hevents : g'.cellEvents = g.cellEvents) (hallocated : g'.allocated = g.allocated + 1) :
    Counts g g' := by
  refine ⟨[g.allocated], ?_, by rw [hallocated, List.range_succ]⟩
  unfold accounted
  rw [hevents]
  exact (hstored.append_right _).trans (List.perm_append_singleton _ _).symm

theorem Counts.died {p : CellPtr} (hstored : g.stored.Perm (p :: g'.stored))
    (hevents : (g'.cellEvents.removeStatic ++ g'.cellEvents.removeDynamic).Perm
      (p :: (g.cellEvents.removeStatic ++ g.cellEvents.removeDynamic)))
    (hallocated : g'.allocated = g.allocated) : Counts g g' := by
  refine .of_perm ?_ hallocated
  unfold accounted
  exact ((hevents.append_left _).trans List.perm_middle).trans (hstored.symm.append_right _)

theorem stored_congr (hstatic : g'.staticMap = g.staticMap) (hdynamic : g'.dynamicMap = g.dynamicMap)
    (hcells : g'.players.map Player.cells = g.players.map Player.cells) : g'.stored = g.stored := by
  unfold stored
  have hplayers := congrArg List.flatten hcells
  rw [← List.flatMap_def, ← List.flatMap_def] at hplayers
  rw [hstatic, hdynamic, hplayers]

theorem spawn_stored {i : ℕ} {c : Cell ℝ} (hi : i < g.players.length) :
    (g.spawn i c).stored.Perm (g.allocated :: g.stored) := by
  have hlength : (g.spawn i c).players.length = g.players.length := List.length_modify ..
  have hplayers : ((g.spawn i c).players.flatMap Player.cells).Perm
      (g.allocated :: g.players.flatMap Player.cells) := by
    rw [playerCells_eq, playerCells_eq, hlength]
    refine Handover.flatMap_perm_cons List.nodup_range (List.mem_range.mpr hi) ?_ fun j _ hj => ?_
    · rw [spawn_cellsOf g i c i hi, if_pos rfl]
      exact List.perm_append_singleton _ _
    · rw [spawn_cellsOf g i c j hi, if_neg (Ne.symm hj)]
  exact ((hplayers.append_right _).append_left _).trans List.perm_middle

theorem eject_stored (g : Game ℝ) (c : Cell ℝ) :
    (g.eject c).stored.Perm (g.allocated :: g.stored) := by
  show (_ ++ (_ ++ (g.dynamicMap ++ [g.allocated]))).Perm _
  rw [← List.append_assoc, ← List.append_assoc]
  refine (List.perm_append_singleton _ _).trans ?_
  rw [List.append_assoc]
  exact List.Perm.refl _

theorem eraseDynamic_stored {loop : ℕ} {p : CellPtr} (h : g.dynamicMap[loop]? = some p)
    (hstatic : g'.staticMap = g.staticMap) (hdynamic : g'.dynamicMap = g.dynamicMap.eraseIdx loop)
    (hplayers : g'.players = g.players) : g.stored.Perm (p :: g'.stored) := by
  unfold stored
  rw [hstatic, hdynamic, hplayers, ← List.append_assoc, ← List.append_assoc]
  exact ((eraseIdx_perm h).append_left _).trans List.perm_middle

theorem Effect.counts (h : Effect g g') (hw : WellFormed g)
    (hnodup : g'.cellEvents.removeDynamic.Nodup) : Counts g g' := by
  have hlast : ∀ (l l' : List CellPtr) p, (l ++ (l' ++ [p])).Perm (p :: (l ++ l')) := fun l l' p => by
    rw [← List.append_assoc]
    exact List.perm_append_singleton _ _
  cases h with
  | spawn i c hi => exact .born (spawn_stored hi) rfl rfl
  | eject c => exact .born (eject_stored g c) rfl rfl
  | killStatic b loop p h =>
    have hb : b ∈ blockGrid := by
      rw [← (hw.static b p (List.mem_of_getElem? h)).2.2]
      exact mem_blockGrid (indexFromCoord_bounds _).1 (indexFromCoord_bounds _).2
    refine .died (removeStaticAt_stored hb h rfl rfl rfl) ?_ rfl
    show ((g.cellEvents.removeStatic ++ [p]) ++ _).Perm _
    rw [List.append_assoc]
    exact List.perm_middle
  | killDynamic loop p h => exact .died (eraseDynamic_stored h rfl rfl rfl) (hlast _ _ p) rfl
  | kill i loop p h => exact .died (eraseCell_stored h rfl rfl rfl) (hlast _ _ p) rfl
  | stray i myLoop p slot hp hslot =>
    rw [(eraseCellAt_frame ((g.note (.absorb p slot)).pushRemoveDynamic p) i myLoop).2.2.2.2.1]
      at hnodup
    exact absurd rfl ((List.nodup_append.mp hnodup).2.2 p hp p List.mem_cons_self)
  | _ => exact .of_perm (List.Perm.refl _) rfl

theorem counts_of_effects (h : Relation.ReflTransGen Effect g g') (hw : WellFormed g)
    (hnodup : g'.cellEvents.removeDynamic.Nodup) : Counts g g' := by
  induction h with
  | refl => exact Counts.refl g
  | tail h he ih =>
    refine (ih (hnodup.sublist he.frame.removeDynamic.sublist)).trans ?_
    exact he.counts (wellFormed_of_effects h hw) hnodup

theorem collisionPhase_steady (hw : WellFormed g)
    (hnodup : g.collisionPhase.cellEvents.removeDynamic.Nodup) :
    ∀ c ∈ g.collisionPhase.calls.drop g.calls.length, ¬ c.Strays := by
  have hrun : ∀ g', Relation.ReflTransGen Effect g g' →
      (∀ c ∈ g'.calls.drop g.calls.length, ¬ c.Strays) ∨ ¬ g'.cellEvents.removeDynamic.Nodup := by
    intro g' h
    induction h with
    | refl => exact Or.inl (by simp)
    | tail h he ih => exact he.reported (frame_of_effects h).calls.length_le ih
  exact (hrun _ (collisionPhase_leads g hw)).resolve_right fun hnot => hnot hnodup

theorem modifyPlayer_stored (g : Game ℝ) (i : ℕ) (f : Player ℝ → Player ℝ)
    (hf : ∀ p, (f p).cells = p.cells) : (g.modifyPlayer i f).stored = g.stored := by
  refine stored_congr rfl rfl ?_
  show (g.players.modify i f).map Player.cells = _
  apply List.ext_getElem?
  intro n
  rw [List.getElem?_map, List.getElem?_map, List.getElem?_modify]
  rcases g.players[n]? with - | p
  · rfl
  · by_cases h : i = n <;> simp [h, hf]

theorem modifyPlayer_counts (g : Game ℝ) (i : ℕ) (f : Player ℝ → Player ℝ)
    (hf : ∀ p, (f p).cells = p.cells) : Counts g (g.modifyPlayer i f) := by
  refine .of_perm (List.Perm.of_eq ?_) rfl
  unfold accounted
  rw [modifyPlayer_stored g i f hf]
  rfl

theorem commands_counts (hw : WellFormed g) (hnodup : g.cellEvents.removeDynamic.Nodup) {i : ℕ}
    {p : Player ℝ} (hp : g.players[i]? = some p) : Counts g (g.commands i p) := by
  have hevents : (g.commands i p).cellEvents = g.cellEvents := (commands_grows g i p).events
  have hmid : (g.splitCommand i p).cellEvents.removeDynamic.Nodup := by
    refine (hevents ▸ hnodup : (g.commands i p).cellEvents.removeDynamic.Nodup).sublist ?_
    unfold commands feedCommand
    split_ifs
    · exact ((feedCells_leads _ i).frame
        ((splitCommand_spec hw hp).1.modifyPlayer i lowerFeed fun _ => rfl)).removeDynamic.sublist
    · exact List.Sublist.refl _
  have hsplit : Counts g (g.splitCommand i p) := by
    unfold splitCommand at hmid ⊢
    split_ifs at hmid ⊢
    · have hw' := hw.modifyPlayer i lowerSplit fun _ => rfl
      exact (modifyPlayer_counts g i lowerSplit fun _ => rfl).trans
        (counts_of_effects (splitCells_leads _ i hw') hw' hmid)
    · exact Counts.refl g
  refine hsplit.trans ?_
  have hend : ((g.splitCommand i p).feedCommand i p).cellEvents.removeDynamic.Nodup := by
    have h := hevents ▸ hnodup
    exact h
  unfold commands feedCommand at hend ⊢
  split_ifs at hend ⊢
  · have hw' := (splitCommand_spec hw hp).1.modifyPlayer i lowerFeed fun _ => rfl
    exact (modifyPlayer_counts _ i lowerFeed fun _ => rfl).trans
      (counts_of_effects (feedCells_leads _ i hw') hw' hend)
  · exact Counts.refl _

end Game

/-- The cells that leave the game with this entry of the trace. -/
def Obs.fallen {K : Type} : Obs K → List CellPtr
  | .collided _ after => after.cellEvents.removeStatic ++ after.cellEvents.removeDynamic
  | .erased g x => g.cellsOf x
  | _ => []

def fallen {K : Type} (tr : List (Obs K)) : List CellPtr := tr.flatMap Obs.fallen

/-- No stray erase is made in the collision phase. -/
def Obs.Steady : Obs ℝ → Prop
  | .collided before after => ∀ c ∈ after.calls.drop before.calls.length, ¬ c.Strays
  | _ => True

theorem fallen_append (tr os : List (Obs ℝ)) : fallen (tr ++ os) = fallen tr ++ fallen os :=
  List.flatMap_append

/-- Every cell created so far is in a container or has fallen, once. -/
structure Audited (s : Sys ℝ) : Prop where
  once : s.game.cellEvents.removeDynamic.Nodup
  counted : (s.game.stored ++ fallen s.trace).Perm (List.range s.game.allocated)

theorem Audited.keep {s s' : Sys ℝ} (h : Audited s)
    (hdead : s'.game.cellEvents.removeDynamic = s.game.cellEvents.removeDynamic ∨
      s'.game.cellEvents.removeDynamic = [])
    (hstored : s'.game.stored = s.game.stored) (hallocated : s'.game.allocated = s.game.allocated)
    {l : List (Obs ℝ)} (htrace : s'.trace = s.trace ++ l) (hos : fallen l = []) :
    Audited s' := by
  refine ⟨?_, ?_⟩
  · rcases hdead with hdead | hdead <;> rw [hdead]
    · exact h.once
    · exact List.nodup_nil
  · rw [hstored, hallocated, htrace, fallen_append, hos, List.append_nil]
    exact h.counted

theorem Sys.erasePlayer_stored {s : Sys ℝ} {x : ℕ} (hx : x < s.game.players.length) :
    s.game.stored.Perm ((s.erasePlayer x).game.stored ++ s.game.cellsOf x) := by
  have hcells : (s.erasePlayer x).game.players.flatMap Player.cells =
      ((s.game.players.map Player.cells).eraseIdx x).flatten := by
    rw [List.flatMap_def]
    exact congrArg List.flatten (MovedVector.eraseAt_carried Game.moves_carried _ _)
  have hslot : (s.game.players.map Player.cells)[x]? = some (s.game.cellsOf x) := by
    rw [List.getElem?_map, Game.cellsOf, List.getElem?_eq_getElem hx]
    rfl
  have hslots : (s.game.players.map Player.cells).Perm
      (s.game.cellsOf x :: (s.game.players.map Player.cells).eraseIdx x) := by
    obtain ⟨hlt, heq⟩ := List.getElem?_eq_some_iff.mp hslot
    rw [← heq]
    exact (List.getElem_cons_eraseIdx_perm hlt).symm
  have hplayers : (s.game.players.flatMap Player.cells).Perm
      (s.game.cellsOf x ++ (s.erasePlayer x).game.players.flatMap Player.cells) := by
    rw [hcells, List.flatMap_def, ← List.flatten_cons]
    exact hslots.flatten
  unfold Game.stored
  show List.Perm _ ((_ ++ ((s.erasePlayer x).game.players.flatMap Player.cells ++
    s.game.dynamicMap)) ++ _)
  generalize (s.erasePlayer x).game.players.flatMap Player.cells = left at hplayers ⊢
  have hmoved : ∀ a b c d : List CellPtr, (a ++ (d ++ b ++ c)).Perm (a ++ (b ++ c) ++ d) :=
    fun a b c d => by grind
  exact ((hplayers.append_right _).append_left _).trans (hmoved _ _ _ _)

theorem Audited.erase {s : Sys ℝ} (h : Audited s) {x : ℕ} (hx : x < s.game.players.length) :
    Audited (s.erasePlayer x) := by
  refine ⟨h.once, ?_⟩
  have hfallen : fallen (s.erasePlayer x).trace = fallen s.trace ++ s.game.cellsOf x := by
    show fallen (s.trace ++ [.erased s.game x]) = _
    rw [fallen_append]
    exact congrArg _ (List.flatMap_singleton _ _)
  rw [hfallen, ← List.append_assoc]
  refine (append_right_swap _ _ _).trans (List.Perm.trans ?_ h.counted)
  exact (Sys.erasePlayer_stored hx).symm.append_right _

theorem Game.receiveAll_stored {g : Game ℝ} (hw : g.WellFormed) (w : Wsi) {packet : List Byte}
    (hne : packet ≠ []) (beyond : ℕ → Byte) : (g.receiveAll w packet beyond).stored = g.stored := by
  have hstill := Game.receiveAll_still hw w hne beyond
  refine Game.stored_congr hstill.static hstill.dynamic ?_
  rw [(Game.receiveAll_spec hw hne).2, List.map_map]
  refine List.map_congr_left fun p _ => ?_
  show (p.received w packet).cells = p.cells
  unfold Player.received
  split_ifs <;> rfl

theorem Sys.join_stored (s : Sys ℝ) (w : Wsi) (grown : ℕ) :
    (s.join w grown).game.stored.Perm (s.game.stored ++ [s.game.allocated]) := by
  have hcells : (s.join w grown).game.players.flatMap Player.cells =
      s.game.players.flatMap Player.cells ++ [s.game.allocated] := by
    have hmap := MovedVector.emplaceBack_carried Game.moves_carried s.game.capacity s.game.players
      (s.game.newPlayer w).1
    rw [List.flatMap_def, List.flatMap_def]
    refine (congrArg List.flatten hmap).trans ?_
    rw [List.flatten_append]
    rfl
  unfold Game.stored
  rw [hcells]
  refine (List.Perm.append_left _ ?_).trans (List.Perm.of_eq (List.append_assoc _ _ _).symm)
  exact append_right_swap _ _ _

theorem Audited.join {s : Sys ℝ} (h : Audited s) (w : Wsi) (grown : ℕ) :
    Audited (s.join w grown) := by
  refine ⟨h.once, ?_⟩
  have hfallen : fallen (s.join w grown).trace = fallen s.trace := by
    show fallen (s.trace ++ [_]) = _
    rw [fallen_append]
    exact List.append_nil _
  have hrange : List.range (s.join w grown).game.allocated =
      List.range s.game.allocated ++ [s.game.allocated] := List.range_succ
  rw [hfallen, hrange]
  exact (((s.join_stored w grown).append_right _).trans (append_right_swap _ _ _)).trans
    (h.counted.append_right _)

theorem Sys.updateAt_stored {s : Sys ℝ} (hw : s.game.WellFormed) {n : ℕ} {p : Player ℝ}
    (hp : s.game.players[n]? = some p) :
    (s.updateAt n).game.stored = (s.game.commands n p).stored := by
  obtain ⟨-, -, -, -, hstatic, hdynamic, -⟩ := Sys.updateAt_frame hw hp
  refine Game.stored_congr hstatic hdynamic ?_
  have hplayers : (s.updateAt n).game.players =
      (s.game.commands n p).players.set n (s.game.updatePlayer n p).finished.player := by
    unfold Sys.updateAt
    rw [hp]
    rfl
  obtain ⟨hstart, hsame⟩ := Game.start_spec hw hp
  rw [hplayers, List.map_set]
  refine map_set_same hstart ?_
  rw [(Game.finished_player hw hp).2.1, hsame]

theorem Audited.collide {s : Sys ℝ} (h : Audited s) (hi : Invariant .started s)
    (hnodup : s.collide.game.cellEvents.removeDynamic.Nodup) : Audited s.collide := by
  have hevents : s.game.cellEvents = {} := hi.tidy
  obtain ⟨fresh, hperm, hrange⟩ := Game.counts_of_effects
    (Game.collisionPhase_leads s.game hi.wellFormed) hi.wellFormed hnodup
  refine ⟨hnodup, ?_⟩
  have hfallen : fallen s.collide.trace = fallen s.trace ++
      (s.collide.game.cellEvents.removeStatic ++ s.collide.game.cellEvents.removeDynamic) := by
    show fallen (s.trace ++ [.collided s.game s.game.collisionPhase]) = _
    rw [fallen_append]
    exact congrArg _ (List.flatMap_singleton _ _)
  have hbefore : s.game.accounted = s.game.stored := by
    unfold Game.accounted
    rw [hevents]
    exact List.append_nil _
  rw [hbefore] at hperm
  rw [hfallen]
  show (s.game.collisionPhase.stored ++ _).Perm (List.range s.game.collisionPhase.allocated)
  rw [hrange, ← List.append_assoc]
  refine (append_right_swap _ _ _).trans ?_
  exact ((hperm.append_right _).trans (append_right_swap _ _ _)).trans (h.counted.append_right _)

theorem Move.audited {a b : Stage} {s s' : Sys ℝ} (h : Move (a, s) (b, s')) (hi : Invariant a s)
    (hg : s.game.Gone) (hsteady : ∀ o ∈ s'.trace, o.Steady) (hs : Audited s) : Audited s' := by
  have hw := hi.wellFormed
  cases h with
  | begin _ clock =>
    have hm := Game.updateDynamic_motion (s.game.beginTick clock) (clock - s.game.currentTime)
    refine hs.keep (Or.inr hm.removeDynamic) ?_ hm.allocated (List.append_nil _).symm rfl
    exact Game.stored_congr hm.static hm.dynamic (congrArg _ hm.players)
  | kick _ x hx => exact hs.erase hx
  | collide _ =>
    refine hs.collide hi ?_
    have hphase : Obs.Steady (.collided s.game s.game.collisionPhase) :=
      hsteady _ (List.mem_append_right _ List.mem_cons_self)
    exact ((Game.collisionPhase_exact hw hi.tidy).mpr hphase).once.2
  | drive _ dt =>
    have hm := Game.drive_motion s.game dt
    exact hs.keep (Or.inl hm.removeDynamic) (Game.stored_congr hm.static hm.dynamic
      (congrArg _ hm.players)) hm.allocated (List.append_nil _).symm rfl
  | update _ n p hp =>
    obtain ⟨-, hgrows, hallocated, -, -, -, hevents⟩ := Sys.updateAt_frame hw hp
    obtain ⟨fresh, hperm, hrange⟩ := Game.commands_counts hw hs.once hp
    have hfallen : fallen (s.updateAt n).trace = fallen s.trace := by
      unfold Sys.updateAt
      rw [hp]
      show fallen (s.trace ++ [.updated _, .requested _]) = _
      rw [fallen_append]
      exact List.append_nil _
    refine ⟨by rw [hevents, hgrows.events]; exact hs.once, ?_⟩
    rw [Sys.updateAt_stored hw hp, hallocated, hfallen, hrange]
    unfold Game.accounted at hperm
    rw [hgrows.events] at hperm
    -- the events are those of the collision phase
    have hborn : (s.game.commands n p).stored.Perm (s.game.stored ++ fresh) := by
      refine (List.perm_append_right_iff
        (s.game.cellEvents.removeStatic ++ s.game.cellEvents.removeDynamic)).mp ?_
      exact hperm.trans (append_right_swap _ _ _)
    exact ((hborn.append_right _).trans (append_right_swap _ _ _)).trans
      (hs.counted.append_right fresh)
  | replay _ n hn =>
    have hgame : s.game.parseEvents = s.game := hg.parseEvents hw hi.additions
    show Audited ⟨s.game.parseEvents, s.trace ++ [.ticked s.game.parseEvents]⟩
    rw [hgame]
    exact hs.keep (Or.inl rfl) rfl rfl rfl rfl
  | send _ clock accepts i =>
    rcases Sys.sendAt_cases s clock accepts i with h | ⟨p, hp, -, -, h⟩
    · rw [h]
      exact hs
    · rw [h]
      refine hs.keep (Or.inl rfl) (Game.stored_congr rfl rfl ?_) rfl rfl rfl
      show (s.game.players.set i _).map Player.cells = _
      rw [List.map_set]
      exact map_set_same hp rfl
  | join _ w grown hnew => exact hs.join w grown
  | receive _ w packet beyond =>
    unfold Sys.receive
    dsimp only
    split_ifs with hlen
    · exact hs.keep (l := [.received w packet]) (Or.inl rfl) rfl rfl rfl rfl
    · have hne : packet ≠ [] := fun h => hlen (by rw [h]; decide)
      have hstill := Game.receiveAll_still hw w hne beyond
      exact hs.keep (l := [.received w packet, .requested w])
        (Or.inl (congrArg CellEvents.removeDynamic hstill.events))
        (Game.receiveAll_stored hw w hne beyond)
        (Game.receiveAll_allocated _ _ _ _) (by simp [Sys.observe]) rfl
  | close _ x hx => exact hs.erase hx

theorem init_audited (rand : ℕ → Fin (randMax + 1)) (stale : CellPtr → ℝ) :
    Audited (Sys.init rand stale) := by
  have hw := (init_invariant rand stale).wellFormed
  have hstart := Game.mapInit_started rand stale
  have hevents : (Sys.init rand stale).game.cellEvents = {} := hstart.events
  have hplayers : (Sys.init rand stale).game.players = [] := hstart.players
  obtain ⟨hallocated, hdynamic, -⟩ := Game.mapInit_herd rand stale
  have hfood : (Sys.init rand stale).game.larder.Perm (List.range maxFood) := by
    refine (List.perm_ext_iff_of_nodup hw.larder_nodup List.nodup_range).mpr fun c => ?_
    rw [hw.mem_larder, List.mem_range]
    exact ⟨fun ⟨b, hc⟩ => (hw.static b c hc).1, Game.mapInit_stored rand stale c⟩
  refine ⟨by rw [hevents]; exact List.nodup_nil, ?_⟩
  have hstored : (Sys.init rand stale).game.stored =
      (Sys.init rand stale).game.larder ++ List.range' maxFood maxVirus := by
    have hherd : (Sys.init rand stale).game.dynamicMap = List.range' maxFood maxVirus := hdynamic
    unfold Game.stored Game.larder
    rw [hplayers, hherd, List.flatMap_nil, List.nil_append]
  have hrange : List.range (Sys.init rand stale).game.allocated =
      List.range maxFood ++ List.range' maxFood maxVirus := by
    refine (congrArg List.range hallocated).trans ?_
    rw [List.range_eq_range', List.range_eq_range', ← List.range'_append_1, Nat.zero_add]
  rw [hstored, hrange]
  show (_ ++ []).Perm _
  rw [List.append_nil]
  exact hfood.append_right _

theorem Run.forall_phases {P : Obs ℝ → Prop}
    (hphase : ∀ g : Game ℝ, g.WellFormed → g.cellEvents = {} → P (.collided g g.collisionPhase))
    (hother : ∀ o : Obs ℝ, (∀ g g', o ≠ .collided g g') → P o) (r : Run ℝ) :
    ∀ o ∈ r.final.trace, P o := by
  refine Run.induction_shift (P := fun s => ∀ o ∈ s.trace, P o) (fun _ _ o ho => by cases ho)
    (fun a s s' hi h hs => ?_) r
  have hmore : ∀ os, s'.trace = s.trace ++ os → (∀ o ∈ os, P o) → ∀ o ∈ s'.trace, P o := by
    intro os htrace hos o ho
    rw [htrace] at ho
    exact (List.mem_append.mp ho).elim (hs o) (hos o)
  cases h with
  | quiet hplayers os htrace hquiet =>
    refine hmore os htrace fun o ho => ?_
    rcases hquiet o ho with ⟨g, hw, hevents, rfl⟩ | ⟨g, rfl⟩
    · exact hphase g hw hevents
    · exact hother _ fun _ _ h => by cases h
  | erase x hx hplayers htrace =>
    exact hmore _ htrace fun o ho =>
      List.mem_singleton.mp ho ▸ hother _ fun _ _ h => by cases h
  | update i p hp hplayers htrace =>
    refine hmore _ htrace fun o ho => hother o fun _ _ h => ?_
    rcases List.mem_pair.mp ho with rfl | rfl <;> cases h
  | write i p clock hp hcan hpending hplayers htrace =>
    exact hmore _ htrace fun o ho =>
      List.mem_singleton.mp ho ▸ hother _ fun _ _ h => by cases h
  | join p hwsi hsend hmessage hhistory hblocks hsplit hfeed hplayers htrace =>
    exact hmore _ htrace fun o ho =>
      List.mem_singleton.mp ho ▸ hother _ fun _ _ h => by cases h
  | receive w packet hplayers os htrace hquiet =>
    refine hmore _ htrace fun o ho => hother o fun _ _ h => ?_
    rcases List.mem_cons.mp ho with rfl | ho
    · cases h
    · obtain ⟨v, rfl⟩ := hquiet o ho
      cases h

/-- The cells in the containers, those reported as removed by all collision phases and those of the
players who left are together all cells ever created, each once. -/
def Run.Accounts (r : Run ℝ) : Prop :=
  (r.final.game.stored ++ fallen r.final.trace).Perm (List.range r.final.game.allocated)

/-- In every run no cell is forgotten or counted twice if and only if no collision phase made a
stray erase. -/
theorem cells_accounted (r : Run ℝ) : r.Accounts ↔ ∀ o ∈ r.final.trace, o.Steady := by
  constructor
  · intro hcounted
    have honce : (fallen r.final.trace).Nodup :=
      (List.nodup_append.mp (hcounted.nodup_iff.mpr List.nodup_range)).2.1
    have hphases := Run.forall_phases (P := fun o => o.fallen.Nodup → o.Steady)
      (fun g hw _ hnodup => Game.collisionPhase_steady hw (List.nodup_append.mp hnodup).2.1)
      (fun o ho _ => by
        cases o with
        | collided g g' => exact absurd rfl (ho g g')
        | _ => trivial) r
    exact fun o ho => hphases o ho ((List.nodup_flatMap.mp honce).1 o ho)
  · intro hsteady
    have haudited := Run.induction
      (P := fun _ s => s.game.Gone ∧ ((∀ o ∈ s.trace, o.Steady) → Audited s))
      (fun rand stale => ⟨init_gone rand stale, fun _ => init_audited rand stale⟩)
      (fun a s b s' hi hm hs => ⟨hm.gone hi hs.1, fun hall => ?_⟩) r
    · exact (haudited.2 hsteady).counted
    · obtain ⟨os, hos⟩ := (hm.shift hi).trace_extends
      refine hm.audited hi hs.1 hall (hs.2 fun o ho => hall o ?_)
      rw [hos]
      exact List.mem_append_left os ho

end Agar
