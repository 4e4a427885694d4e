import Agar.Trades

/-! The mass of a run: what the containers weigh is what the map was strewn with, what the players
brought and took away, what the pops made of it and what the feeding lost. -/

namespace Agar
open Trace

namespace Game
variable {g g' : Game ℝ} {i : ℕ}

theorem storedMass_congr (hstored : g'.stored = g.stored)
    (hradius : ∀ p ∈ g.stored, (g'.heap p).radius = (g.heap p).radius) :
    g'.storedMass = g.storedMass := by
  unfold storedMass
  rw [hstored]
  refine congrArg List.sum (List.map_congr_left fun p hp => ?_)
  unfold Cell.size
  rw [hradius p hp]

theorem splitCommand_mass (hw : WellFormed g) {p : Player ℝ} (hp : g.players[i]? = some p) :
    (g.splitCommand i p).storedMass = g.storedMass ∧
    (g.splitCommand i p).dynamicMap = g.dynamicMap := by
  unfold splitCommand
  split_ifs
  · let lowered := g.modifyPlayer i lowerSplit
    have hw' : WellFormed lowered := hw.modifyPlayer i lowerSplit fun _ => rfl
    have hi : i < lowered.players.length := by
      show i < (g.players.modify i lowerSplit).length
      rw [List.length_modify]
      exact getElem?_lt hp
    have hdone := splitCells_upTo hi (hw'.cap i) (hw'.cells_nodup i)
      fun c hc => (hw'.owned i c hc).1
    have hlocal : Local i lowered (lowered.splitCells i) := by
      refine ⟨hi, ?_, (grows_foldl (fun g x => splitAt_grows g i x) lowered _).static, hdone.dynamic,
        fun j hj => ?_, fun q hq hqi => ?_⟩
      · rw [hdone.players, List.length_modify]
      · unfold cellsOf
        rw [hdone.players, List.getElem?_modify_ne _ _ (Ne.symm hj)]
      · exact congrArg Cell.size (hdone.rest q hq fun hmem =>
          hqi (List.mem_of_mem_take (splitting_subset lowered i _ hmem)))
    have hmass := hlocal.mass hw'
    rw [hdone.mass] at hmass
    have hlowered : lowered.storedMass = g.storedMass :=
      storedMass_congr (modifyPlayer_stored g i lowerSplit fun _ => rfl) fun _ _ => rfl
    exact ⟨by rw [← hlowered]; exact add_right_cancel hmass, hdone.dynamic⟩
  · exact ⟨rfl, rfl⟩

/-- What the ejected food lacks of what the cells lose. -/
noncomputable def fed (g g' : Game ℝ) : ℝ :=
  (1 - feedMult) * feedSize * ((g'.dynamicMap.length - g.dynamicMap.length : ℕ) : ℝ)

theorem feedCells_mass (hw : WellFormed g) (i : ℕ) :
    (g.feedCells i).storedMass = g.storedMass - fed g (g.feedCells i) := by
  have hspat : Spat (g.cellsOf i) g (g.feedCells i) :=
    feedCells_spat (hw.cells_nodup i) fun c hc => (hw.owned i c hc).1
  let ejecting := g.ejecting (g.cellsOf i)
  let food := List.range' g.allocated ejecting.length
  have hsub : ejecting ⊆ g.cellsOf i := fun c hc => List.mem_of_mem_filter hc
  have hstatic : (g.feedCells i).staticMap = g.staticMap :=
    (grows_foldl feedCell_grows g (g.cellsOf i)).static
  have hstored : (g.feedCells i).stored = g.stored ++ food := by
    unfold stored
    rw [hstatic, hspat.players, hspat.dynamic]
    simp only [List.append_assoc]
    rfl
  -- those that eject among all cells
  have hcount : (g.stored.filter fun c => decide (c ∈ ejecting)).length = ejecting.length := by
    refine List.Perm.length_eq ((List.perm_ext_iff_of_nodup (hw.stored_nodup.filter _)
      ((hw.cells_nodup i).filter _)).mpr fun c => ?_)
    rw [List.mem_filter, decide_eq_true_iff]
    exact ⟨And.right, fun hc => ⟨cellsOf_stored (hsub hc), hc⟩⟩
  have hold : (g.stored.map fun c => ((g.feedCells i).heap c).size).sum =
      g.storedMass - feedSize * (ejecting.length : ℝ) := by
    rw [← hcount]
    refine Handover.sum_spent (fun c => decide (c ∈ ejecting)) (fun c _ hc => ?_) fun c hmem hc => ?_
    · exact hspat.lighter c (of_decide_eq_true hc)
    · exact congrArg Cell.size (hspat.rest c (hw.stored_lt hmem) (of_decide_eq_false hc))
  have hnew : (food.map fun f => ((g.feedCells i).heap f).size).sum =
      feedSize * feedMult * (ejecting.length : ℝ) := by
    have hsame : food.map (fun f => ((g.feedCells i).heap f).size) =
        List.replicate ejecting.length (feedSize * feedMult) := by
      refine List.eq_replicate_iff.mpr ⟨by simp [food], fun s hs => ?_⟩
      obtain ⟨f, hf, rfl⟩ := List.mem_map.mp hs
      exact (hspat.food f hf).1
    rw [hsame, List.sum_replicate, nsmul_eq_mul, mul_comm]
  have hlength : (g.feedCells i).dynamicMap.length - g.dynamicMap.length = ejecting.length := by
    rw [hspat.dynamic, List.length_append, List.length_range', Nat.add_sub_cancel_left]
  unfold fed
  rw [hlength]
  unfold storedMass at hold ⊢
  rw [hstored, List.map_append, List.sum_append, hold, hnew]
  ring

theorem commands_mass (hw : WellFormed g) {p : Player ℝ} (hp : g.players[i]? = some p) :
    (g.commands i p).storedMass = g.storedMass - fed g (g.commands i p) := by
  obtain ⟨hmass, hdynamic⟩ := splitCommand_mass hw hp
  have hw' := (splitCommand_spec hw hp).1
  unfold commands feedCommand
  split_ifs
  · let lowered := (g.splitCommand i p).modifyPlayer i lowerFeed
    have hlowered : lowered.storedMass = g.storedMass :=
      (storedMass_congr (modifyPlayer_stored _ i lowerFeed fun _ => rfl) fun _ _ => rfl).trans hmass
    have hfed := feedCells_mass (hw'.modifyPlayer i lowerFeed fun _ => rfl) i
    have hsame : fed lowered (lowered.feedCells i) = fed g (lowered.feedCells i) := by
      unfold fed
      rw [show lowered.dynamicMap = g.dynamicMap from hdynamic]
    show (lowered.feedCells i).storedMass = _ - fed g (lowered.feedCells i)
    rw [← hsame, ← hlowered]
    exact hfed
  · have hnone : fed g (g.splitCommand i p) = 0 := by
      unfold fed
      rw [hdynamic, Nat.sub_self, Nat.cast_zero, mul_zero]
    rw [hnone, hmass, sub_zero]

theorem init_mass (rand : ℕ → Fin (randMax + 1)) (stale : CellPtr → ℝ) :
    (Sys.init rand stale).game.storedMass = 20240 := by
  have hcounted := (init_audited rand stale).counted
  have hallocated : (Sys.init rand stale).game.allocated = maxFood + maxVirus :=
    (mapInit_herd rand stale).1
  rw [hallocated] at hcounted
  have hall : (Sys.init rand stale).game.stored.Perm (List.range (maxFood + maxVirus)) := by
    refine List.Perm.trans (List.Perm.of_eq ?_) hcounted
    exact (List.append_nil _).symm
  have hseeded := iterate_seeded rand stale maxFood
  have hfood : (List.range maxFood).map (fun c => ((Sys.init rand stale).game.heap c).size) =
      List.replicate maxFood (foodRadius * foodRadius * 0.01) := by
    refine List.eq_replicate_iff.mpr ⟨by simp, fun s hs => ?_⟩
    obtain ⟨c, hc, rfl⟩ := List.mem_map.mp hs
    have hlt := List.mem_range.mp hc
    have hold := (mapInit_released rand stale).old c (by rwa [hseeded.allocated])
    have hradius := (congrArg Cell.radius hold).trans (hseeded.cell c hlt).2.2
    exact congrArg (fun r : ℝ => r * r * 0.01) hradius
  have hvirus : herd.map (fun c => ((Sys.init rand stale).game.heap c).size) =
      List.replicate maxVirus (virusMinRadius * virusMinRadius * 0.01) := by
    refine List.eq_replicate_iff.mpr ⟨by simp [herd], fun s hs => ?_⟩
    obtain ⟨c, hc, rfl⟩ := List.mem_map.mp hs
    exact congrArg (fun r : ℝ => r * r * 0.01) ((mapInit_herd rand stale).2.2 c hc).1
  have hrange : List.range (maxFood + maxVirus) = List.range maxFood ++ herd := by
    unfold herd
    rw [List.range_eq_range', List.range_eq_range', ← List.range'_append_1, Nat.zero_add]
  unfold storedMass
  rw [(hall.map _).sum_eq, hrange, List.map_append, List.sum_append, hfood, hvirus,
    List.sum_replicate, List.sum_replicate]
  norm_num [maxFood, maxVirus, foodRadius, virusMinRadius]

end Game

/-- What an entry of the trace adds to the mass. -/
noncomputable def Obs.gain : Obs ℝ → ℝ
  | .joined _ _ _ => 10000
  | .erased before x => -before.mass x
  | .collided before after => Game.massLedger.gained (after.calls.drop before.calls.length)
  | .updated u => -Game.fed u.before u.commanded
  | _ => 0

/-- In the collision phase no absorbed cell is compared once more. -/
def Obs.LetsGo : Obs ℝ → Prop
  | .collided before after => NoRevival (after.calls.drop before.calls.length)
  | _ => True

namespace Sys
variable {s s' : Sys ℝ}

/-- The mass in the containers, and the trace that accounts for it. -/
noncomputable def massLedger : Ledger (Sys ℝ) (Obs ℝ) ℝ where
  log := Sys.trace
  total s := s.game.storedMass
  gain := Obs.gain
  sound tr := ∀ o ∈ tr, o.LetsGo
  sound_append := fun _ _ h => ⟨fun o ho => h o (List.mem_append_left _ ho),
    fun o ho => h o (List.mem_append_right _ ho)⟩

theorem balances_of_stored {l : List (Obs ℝ)} (htrace : s'.trace = s.trace ++ l)
    (hos : ∀ o ∈ l, o.gain = 0) (hstored : s'.game.stored = s.game.stored)
    (hradius : ∀ p ∈ s.game.stored, (s'.game.heap p).radius = (s.game.heap p).radius) :
    massLedger.Balances s s' :=
  .of_total htrace hos (Game.storedMass_congr hstored hradius)

theorem erase_balances {x : ℕ} (hx : x < s.game.players.length) :
    massLedger.Balances s (s.erasePlayer x) := by
  refine ⟨[.erased s.game x], rfl, fun _ => ?_⟩
  have hmass : s.game.storedMass = (s.erasePlayer x).game.storedMass + s.game.mass x := by
    unfold Game.storedMass Game.mass
    rw [((erasePlayer_stored hx).map _).sum_eq, List.map_append, List.sum_append]
    rfl
  show (s.erasePlayer x).game.storedMass = s.game.storedMass + ([-s.game.mass x]).sum
  rw [List.sum_singleton, hmass]
  exact (add_neg_cancel_right _ _).symm

theorem join_balances (hw : s.game.WellFormed) (w : Wsi) (grown : ℕ) :
    massLedger.Balances s (s.join w grown) := by
  refine ⟨[.joined (s.game.newPlayer w).1 s.game (s.join w grown).game], rfl, fun _ => ?_⟩
  obtain ⟨-, hold, -, -, hradius⟩ := Game.newPlayer_spec s.game w
  have hnew : ((s.join w grown).game.heap s.game.allocated).size = 10000 := by
    show ((s.game.newPlayer w).2.heap s.game.allocated).size = _
    unfold Cell.size
    rw [hradius]
    norm_num
  have hsame : s.game.stored.map (fun c => ((s.join w grown).game.heap c).size) =
      s.game.stored.map fun c => (s.game.heap c).size :=
    List.map_congr_left fun c hc => congrArg Cell.size (hold c (hw.stored_lt hc).ne)
  show (s.join w grown).game.storedMass = s.game.storedMass + ([(10000 : ℝ)]).sum
  unfold Game.storedMass
  rw [((join_stored s w grown).map _).sum_eq, List.map_append, List.sum_append, hsame,
    List.map_singleton, hnew]

end Sys

theorem Move.balances {a b : Stage} {s s' : Sys ℝ} (h : Move (a, s) (b, s')) (hi : Invariant a s)
    (hg : s.game.Gone) : Sys.massLedger.Balances s s' := by
  have hw := hi.wellFormed
  cases h with
  | begin _ clock =>
    have hm := Game.updateDynamic_motion (s.game.beginTick clock) (clock - s.game.currentTime)
    exact Sys.balances_of_stored (List.append_nil _).symm (fun o ho => by cases ho)
      (Game.stored_congr hm.static hm.dynamic (congrArg _ hm.players))
      fun p _ => (hm.identity p).2.2.2
  | kick _ x hx => exact Sys.erase_balances hx
  | collide _ =>
    refine ⟨[.collided s.game s.game.collisionPhase], rfl, fun hsound => ?_⟩
    obtain ⟨cs, hcalls, htotal⟩ := Game.collisionPhase_balances hw
    have hsince : s.game.collisionPhase.calls.drop s.game.calls.length = cs := by
      have hlog : s.game.collisionPhase.calls = s.game.calls ++ cs := hcalls
      rw [hlog, List.drop_left]
    have hletsGo : NoRevival cs := hsince ▸ hsound _ List.mem_cons_self
    show s.game.collisionPhase.storedMass = s.game.storedMass +
      ([Game.massLedger.gained (s.game.collisionPhase.calls.drop s.game.calls.length)]).sum
    rw [List.sum_singleton, hsince]
    exact htotal hletsGo
  | drive _ dt =>
    have hm := Game.drive_motion s.game dt
    exact Sys.balances_of_stored (List.append_nil _).symm (fun o ho => by cases ho)
      (Game.stored_congr hm.static hm.dynamic (congrArg _ hm.players))
      fun p _ => (hm.identity p).2.2.2
  | update _ n p hp =>
    have hmass : (s.updateAt n).game.storedMass = (s.game.commands n p).storedMass :=
      Game.storedMass_congr (Sys.updateAt_stored hw hp) fun c _ => by
        rw [(Sys.updateAt_frame hw hp).2.2.2.1]
    refine ⟨[.updated (s.game.updatePlayer n p), .requested p.wsi], ?_, fun _ => ?_⟩
    · show (s.updateAt n).trace = _
      unfold Sys.updateAt
      rw [hp]
      rfl
    · show (s.updateAt n).game.storedMass =
        s.game.storedMass + ([-Game.fed s.game (s.game.commands n p), (0 : ℝ)]).sum
      rw [hmass, Game.commands_mass hw hp]
      simp [sub_eq_add_neg]
  | replay _ n hn =>
    have hgame : s.game.parseEvents = s.game := hg.parseEvents hw hi.additions
    refine Sys.balances_of_stored (l := [.ticked s.game.parseEvents]) rfl
      (fun o ho => List.mem_singleton.mp ho ▸ rfl) ?_ fun p _ => ?_
    · exact congrArg Game.stored hgame
    · exact congrArg (fun g : Game ℝ => (g.heap p).radius) hgame
  | send _ clock accepts i =>
    rcases Sys.sendAt_cases s clock accepts i with h | ⟨p, hp, -, -, h⟩
    · rw [h]
      exact .refl s
    · rw [h]
      refine Sys.balances_of_stored (l := [.wrote p.wsi clock p.wsMessage.pending]) rfl
        (fun o ho => List.mem_singleton.mp ho ▸ rfl) (Game.stored_congr rfl rfl ?_) fun _ _ => rfl
      show (s.game.players.set i _).map Player.cells = _
      rw [List.map_set]
      exact map_set_same hp rfl
  | join _ w grown hnew => exact Sys.join_balances hw w grown
  | receive _ w packet beyond =>
    unfold Sys.receive
    dsimp only
    split_ifs with hlen
    · exact Sys.balances_of_stored (l := [.received w packet]) rfl
        (fun o ho => List.mem_singleton.mp ho ▸ rfl) rfl fun _ _ => rfl
    · have hne : packet ≠ [] := fun h => hlen (by rw [h]; decide)
      refine Sys.balances_of_stored (l := [.received w packet, .requested w])
        (by simp [Sys.observe]) (fun o ho => ?_) (Game.receiveAll_stored hw w hne beyond)
        fun p _ => ?_
      · rcases List.mem_pair.mp ho with rfl | rfl <;> rfl
      · exact ((s.game.receiveAll_lulls w packet beyond).2 p).1
  | close _ x hx => exact Sys.erase_balances hx

/-- As long as no absorbed cell is compared once more, the mass in the containers is the mass of the
map at the start and what the trace has added. -/
def Run.Balanced (r : Run ℝ) : Prop := (∀ o ∈ r.final.trace, o.LetsGo) →
  r.final.game.storedMass = 20240 + Sys.massLedger.gained r.final.trace

/-- In every run the mass in the containers is the mass strewn at the start and brought by the
players, less what left with them and what feeding lost, and what the big halves of the pops added,
unless an absorbed cell has been compared once more. -/
theorem mass_accounted (r : Run ℝ) : r.Balanced := by
  have hrun := Run.induction (P := fun _ s => s.game.Gone ∧ (Sys.massLedger.sound s.trace →
      s.game.storedMass = 20240 + Sys.massLedger.gained s.trace))
    (fun rand stale => ⟨init_gone rand stale, fun _ => ?_⟩)
    (fun a s b s' hi hm hs => ⟨hm.gone hi hs.1, (hm.balances hi hs.1).carry hs.2⟩) r
  · exact hrun.2
  · rw [Game.init_mass]
    exact (add_zero _).symm

end Agar
