import Agar.Cameras
import Agar.Clients
import Agar.Schedule
import Agar.Trades

/-! Players without cells: they stay in `Players`, and no cell comes back to them. -/

namespace Agar
open MovedVector Trace

namespace Game
variable {g g' g'' : Game ℝ}

/-- The players without cells are still without. -/
def Denies (g g' : Game ℝ) : Prop := ∀ j, g.cellsOf j = [] → g'.cellsOf j = []

theorem Denies.refl (g : Game ℝ) : Denies g g := fun _ => id

theorem Denies.trans (h : Denies g g') (h' : Denies g' g'') : Denies g g'' :=
  fun j hj => h' j (h j hj)

theorem denies_of_players (h : g'.players = g.players) : Denies g g' := fun j hj => by
  rw [cellsOf_congr h, hj]

theorem Retains.denies {P : Cell ℝ → Prop} {touched : Set ℕ} (h : Retains P touched g g') :
    Denies g g' := fun j hj => by
  have hsub := h.cells j
  rw [hj] at hsub
  exact List.sublist_nil.mp hsub

end Game

theorem DynamicPoint.Steady.denies {i : ℕ} {pt pt' : DynamicPoint ℝ} (h : Steady i pt)
    (hst : Standing i pt) (hn : pt.next i = some pt') : Game.Denies pt.game pt'.game := by
  have heats : ∀ (g : Game ℝ) (cell d : CellPtr) (loop : ℕ),
      Game.Denies g ((g.noteCollide cell d).eatDynamic cell d loop) := fun g cell d loop =>
    Game.denies_of_players rfl
  cases round_of_next hn with
  | enter g cell myLoop hcell => exact .refl g
  | leave g cell myLoop loop hend => exact .refl g
  | pop g cell d myLoop loop hd hbig hvirus hroom =>
    refine (heats g cell d loop).trans fun j hj => ?_
    have hcell : cell ∈ g.cellsOf i := List.mem_of_getElem? hst.inRange.1
    obtain ⟨news, hnews, -⟩ := Game.popVirus_sprouts
      ((g.noteCollide cell d).eatDynamic cell d loop) d (i := i)
      (h.owned g cell myLoop loop rfl).1 h.index
    -- who pops has a cell
    have hne : j ≠ i := by
      rintro rfl
      have hempty : g.cellsOf j = [] := hj
      rw [hempty] at hcell
      cases hcell
    show (((g.noteCollide cell d).eatDynamic cell d loop).popVirus i cell d).cellsOf j = []
    rw [hnews.others j hne, hj]
  | eat g cell d myLoop loop hd hbig hwhole => exact heats g cell d loop
  | absorb g cell d myLoop loop hd hsmall hother =>
    exact absurd ⟨d, hd, hsmall, hother⟩ h.not_absorbs
  | pass g cell d myLoop loop hd hbig hsmall =>
    exact Game.denies_of_players rfl

theorem OtherPoint.Round.denies {pt : OtherPoint ℝ} {g' : Game ℝ} (h : pt.Round g') :
    Game.Denies pt.game g' := by
  cases h with
  | stay hplayers hheap hlast => exact Game.denies_of_players hplayers
  | take k n htaken hlast =>
    intro j hj
    by_cases hjk : j = k
    · subst hjk
      rw [htaken.cells, hj]
      rfl
    · rw [htaken.others j hjk, hj]

namespace Game
variable {g : Game ℝ} {i : ℕ}

theorem collideDynamic_denies (hw : WellFormed g) (hi : i < g.players.length) :
    Denies g (g.collideDynamic i) :=
  collideDynamic_of_rounds (R := Denies) Denies.refl (fun _ _ _ h h' => h.trans h')
    (fun _ _ hsteady hstanding hn => hsteady.denies hstanding hn) hw hi

theorem collideOwn_denies (hw : WellFormed g) (hi : i < g.players.length) :
    Denies g (g.collideOwn i) := by
  have hleads := collideStatic_leads g i
  have hlen := players_length (hleads.frame hw)
  exact ((collideStatic_retains Cell.lasting_radius g i).denies.trans
    (collideDynamic_denies (hleads.wellFormed hw) (by rw [hlen]; exact hi))).trans
      (collideSelf_retains Cell.lasting_radius _ i).denies

theorem ownPasses_denies (hw : WellFormed g) : Denies g g.ownPasses := by
  have hall : ∀ is : List ℕ, (∀ i ∈ is, i < g.players.length) →
      Denies g (is.foldl collideOwn g) := by
    intro is
    induction is using List.reverseRecOn with
    | nil => exact fun _ => Denies.refl g
    | append_singleton is i ih =>
      intro his
      have hbefore := ih fun k hk => his k (List.mem_append_left _ hk)
      have hleads := collideOwns_leads is g fun k hk => his k (List.mem_append_left _ hk)
      rw [List.foldl_append]
      refine hbefore.trans (collideOwn_denies (hleads.wellFormed hw) ?_)
      rw [players_length (hleads.frame hw)]
      exact his i (List.mem_append_right _ (List.mem_singleton_self i))
  exact hall _ fun i hi => List.mem_range.mp hi

theorem collisionPhase_denies (hw : WellFormed g) : Denies g g.collisionPhase := by
  obtain ⟨i, x, hend, -⟩ := OtherPoint.pass_leads g.ownPasses
  have hall : ∀ pt, OtherPoint.Leads (.outer g.ownPasses 0 1 0) pt → Denies g pt.game := by
    intro pt hpt
    induction hpt with
    | refl => exact ownPasses_denies hw
    | tail hpt hn ih => exact ih.trans (othersPass_round hw hpt hn).denies
  exact hall _ hend

theorem splitCells_denies (hw : WellFormed g) (hi : i < g.players.length) :
    Denies g (g.splitCells i) := by
  intro j hj
  by_cases hji : j = i
  · subst hji
    unfold splitCells
    rw [hj]
    exact hj
  · have hsplit := splitCells_upTo hi (hw.cap i) (hw.cells_nodup i) fun c hc => (hw.owned i c hc).1
    have hothers : (g.splitCells i).cellsOf j = g.cellsOf j := by
      unfold cellsOf
      rw [hsplit.players, List.getElem?_modify_ne _ _ (Ne.symm hji)]
    rw [hothers, hj]

theorem commands_denies (hw : WellFormed g) {p : Player ℝ} (hp : g.players[i]? = some p) :
    Denies g (g.commands i p) := by
  have hlower : ∀ (g : Game ℝ) (f : Player ℝ → Player ℝ), (∀ p, (f p).cells = p.cells) →
      Denies g (g.modifyPlayer i f) := fun g f hf j hj => by
    rw [cellsOf_modifyPlayer g i f hf j, hj]
  have hsplit : Denies g (g.splitCommand i p) := by
    unfold splitCommand
    split_ifs
    · have hlen : i < (g.modifyPlayer i lowerSplit).players.length := by
        show i < (g.players.modify i lowerSplit).length
        rw [List.length_modify]
        exact getElem?_lt hp
      exact (hlower g lowerSplit fun _ => rfl).trans
        (splitCells_denies (hw.modifyPlayer i lowerSplit fun _ => rfl) hlen)
    · exact Denies.refl g
  have hw' := (splitCommand_spec hw hp).1
  unfold commands feedCommand
  split_ifs
  · have hw'' : WellFormed ((g.splitCommand i p).modifyPlayer i lowerFeed) :=
      hw'.modifyPlayer i lowerFeed fun _ => rfl
    have hspat := feedCells_spat (hw''.cells_nodup i) fun c hc => (hw''.owned i c hc).1
    exact (hsplit.trans (hlower _ lowerFeed fun _ => rfl)).trans (denies_of_players hspat.players)
  · exact hsplit

end Game

/-- An update has left the present player of the connection without cells. -/
def Eliminated (w : Wsi) (tr : List (Obs ℝ)) : Prop := ∃ u ∈ updatesOf w tr, u.finished.player.cells = []

/-- The connection and the cells of a player. -/
def Player.seat (p : Player ℝ) : Wsi × List CellPtr := (p.wsi, p.cells)

theorem seat_carried : Carried Player.moves Player.seat := carried_of_flags _ fun _ _ _ => rfl

namespace Sys

/-- Players who have been left without cells have none. -/
def Bereft (s : Sys ℝ) : Prop := ∀ c ∈ s.game.players.map Player.seat, Eliminated c.1 s.trace → c.2 = []

theorem Bereft.keep {s s' : Sys ℝ} (h : s.Bereft) (os : List (Obs ℝ))
    (htrace : s'.trace = s.trace ++ os) (hos : ∀ w, Silent w os)
    (hseats : ∀ c' ∈ s'.game.players.map Player.seat, ∃ c ∈ s.game.players.map Player.seat,
      c.1 = c'.1 ∧ (c.2 = [] → c'.2 = [])) : s'.Bereft := by
  intro c' hc' hlost
  obtain ⟨c, hc, hwsi, hnone⟩ := hseats c' hc'
  refine hnone (h c hc ?_)
  unfold Eliminated at hlost ⊢
  rwa [htrace, (hos c'.1).updatesOf, ← hwsi] at hlost

theorem seats_of_core {g g' : Game ℝ}
    (hcore : g'.players.map Player.core = g.players.map Player.core) (hdenies : g.Denies g') :
    ∀ c' ∈ g'.players.map Player.seat, ∃ c ∈ g.players.map Player.seat,
      c.1 = c'.1 ∧ (c.2 = [] → c'.2 = []) := by
  intro c' hc'
  obtain ⟨p', hp', rfl⟩ := List.mem_map.mp hc'
  obtain ⟨j, hj⟩ := List.mem_iff_getElem?.mp hp'
  have hget : (g.players.map Player.core)[j]? = some p'.core := by
    rw [← hcore, List.getElem?_map, hj]
    rfl
  rw [List.getElem?_map] at hget
  obtain ⟨p, hp, hsame⟩ := Option.map_eq_some_iff.mp hget
  refine ⟨p.seat, List.mem_map_of_mem (List.mem_of_getElem? hp), (congrArg Player.wsi hsame :), ?_⟩
  intro hnone
  have hcells : g.cellsOf j = p.cells := by simp [Game.cellsOf, hp]
  have hcells' : g'.cellsOf j = p'.cells := by simp [Game.cellsOf, hj]
  exact hcells'.symm.trans (hdenies j (hcells.trans hnone))

theorem Bereft.erase {s : Sys ℝ} (h : s.Bereft) (x : ℕ) : (s.erasePlayer x).Bereft := by
  refine h.keep [.erased s.game x] rfl (fun w o ho => ?_) fun c' hc' => ?_
  · rw [List.mem_singleton.mp ho]
    exact ⟨rfl, rfl⟩
  · have hseats : (s.erasePlayer x).game.players.map Player.seat =
        (s.game.players.map Player.seat).eraseIdx x := eraseAt_carried seat_carried _ _
    rw [hseats] at hc'
    exact ⟨c', (List.eraseIdx_sublist _ _).subset hc', rfl, id⟩

theorem Bereft.join {s : Sys ℝ} (h : s.Bereft) {w : Wsi} (grown : ℕ)
    (hw : ∀ p ∈ s.game.players, w ≠ p.wsi) : (s.join w grown).Bereft := by
  let p : Player ℝ := (s.game.newPlayer w).1
  let o : Obs ℝ := .joined p s.game (s.join w grown).game
  have htrace : (s.join w grown).trace = s.trace ++ [o] := rfl
  have hseats : (s.join w grown).game.players.map Player.seat =
      s.game.players.map Player.seat ++ [p.seat] := emplaceBack_carried seat_carried _ _ _
  intro c hc hlost
  rw [hseats] at hc
  rcases List.mem_append.mp hc with hc | hc
  · obtain ⟨q, hq, rfl⟩ := List.mem_map.mp hc
    have hsilent : Silent q.seat.1 [o] := fun o' ho => by
      rw [List.mem_singleton.mp ho]
      exact ⟨decide_eq_false (hw q hq), rfl⟩
    refine h _ hc ?_
    unfold Eliminated at hlost ⊢
    rwa [htrace, hsilent.updatesOf] at hlost
  · obtain rfl := List.mem_singleton.mp hc
    obtain ⟨u, hu, -⟩ := hlost
    have hlife : life p.wsi (s.trace ++ [o]) = [] := by
      unfold life
      rw [since_snoc, if_pos (by simp [o, Obs.joins])]
    have hnone : updatesOf p.wsi (s.trace ++ [o]) = [] := by
      unfold updatesOf
      rw [hlife]
      rfl
    rw [htrace] at hu
    have hu' : u ∈ updatesOf p.wsi (s.trace ++ [o]) := hu
    rw [hnone] at hu'
    cases hu'

theorem Bereft.send {s : Sys ℝ} (h : s.Bereft) (clock : ℝ) (accepts : ℕ → Bool) (i : ℕ) :
    (s.sendAt clock accepts i).Bereft := by
  rcases sendAt_cases s clock accepts i with hsame | ⟨p, hp, -, -, hsent⟩
  · rw [hsame]
    exact h
  · rw [hsent]
    refine h.keep [.wrote p.wsi clock p.wsMessage.pending] rfl (fun w o ho => ?_) fun c' hc' => ?_
    · rw [List.mem_singleton.mp ho]
      exact ⟨rfl, rfl⟩
    · refine ⟨c', ?_, rfl, id⟩
      have hseats : (s.game.players.set i { p with
          wsMessage := { p.wsMessage with ack := false }.clear, sendTime := clock }).map
            Player.seat = s.game.players.map Player.seat := by
        rw [List.map_set]
        exact map_set_same (f := Player.seat) (q := { p with
          wsMessage := { p.wsMessage with ack := false }.clear, sendTime := clock }) hp rfl
      rw [← hseats]
      exact hc'

theorem Bereft.receive {s : Sys ℝ} (h : s.Bereft) (hi : Invariant .idle s) (w : Wsi)
    (packet : List Byte) (beyond : ℕ → Byte) : (s.receive w packet beyond).Bereft := by
  have hreceived : ∀ p : Player ℝ, (p.received w packet).seat = p.seat := fun p => by
    unfold Player.received
    split_ifs <;> rfl
  unfold Sys.receive
  dsimp only
  split_ifs with hlen
  · refine h.keep [.received w packet] rfl (fun v o ho => ?_) fun c hc => ⟨c, hc, rfl, id⟩
    rw [List.mem_singleton.mp ho]
    exact ⟨rfl, rfl⟩
  · have hne : packet ≠ [] := fun hnil => hlen (by rw [hnil]; decide)
    refine h.keep [.received w packet, .requested w] (by simp [observe]) (fun v o ho => ?_)
      fun c hc => ⟨c, ?_, rfl, id⟩
    · rcases List.mem_pair.mp ho with rfl | rfl <;> exact ⟨rfl, rfl⟩
    · have hspec : (s.game.receiveAll w packet beyond).players =
          s.game.players.map (Player.received w packet) :=
        (Game.receiveAll_spec hi.wellFormed hne).2
      have hc' : c ∈ (s.game.receiveAll w packet beyond).players.map Player.seat := hc
      rw [hspec, List.map_map] at hc'
      obtain ⟨p, hp, rfl⟩ := List.mem_map.mp hc'
      exact List.mem_map.mpr ⟨p, hp, (hreceived p).symm⟩

theorem Bereft.update {s : Sys ℝ} (h : s.Bereft) {n : ℕ} {p : Player ℝ}
    (hi : Invariant (.updating n) s) (hp : s.game.players[n]? = some p) :
    (s.updateAt n).Bereft := by
  have hw := hi.wellFormed
  let u := s.game.updatePlayer n p
  have hupdate : s.updateAt n =
      { game := u.after, trace := s.trace ++ [.updated u, .requested p.wsi] } := by
    unfold updateAt
    rw [hp]
  have hwsis := updateAt_wsi hw hp
  rw [hupdate] at hwsis ⊢
  intro c' hc' hlost
  obtain ⟨p', hp', rfl⟩ := List.mem_map.mp hc'
  obtain ⟨j, hj⟩ := List.mem_iff_getElem?.mp hp'
  have hcells' : p'.cells = (s.game.commands n p).cellsOf j := by
    rw [← Game.after_cellsOf hw hp]
    have hget : u.after.players[j]? = some p' := hj
    simp [Game.cellsOf, u, hget]
  obtain ⟨q, hq, hwsi⟩ : ∃ q, s.game.players[j]? = some q ∧ q.wsi = p'.wsi := by
    have hget := congrArg (fun l => l[j]?) hwsis
    simp only [List.getElem?_map, hj, Option.map_some] at hget
    exact Option.map_eq_some_iff.mp hget.symm
  have hbefore : Eliminated q.wsi s.trace → p'.cells = [] := fun hold => by
    have hnone : q.cells = [] := h q.seat (List.mem_map_of_mem (List.mem_of_getElem? hq)) hold
    rw [hcells']
    refine Game.commands_denies hw hp j ?_
    simp [Game.cellsOf, hq, hnone]
  obtain ⟨v, hv, hnone⟩ := hlost
  have hv' : v ∈ updatesOf q.wsi (s.trace ++ [.updated u, .requested p.wsi]) := hwsi ▸ hv
  by_cases hjn : j = n
  · subst hjn
    obtain rfl := Option.some.inj (hp.symm.trans hq)
    rw [updatesOf_update s.trace (show u.player.wsi = p.wsi from rfl)] at hv'
    rcases List.mem_append.mp hv' with hold | hnew
    · exact hbefore ⟨v, hold, hnone⟩
    · rw [List.mem_singleton.mp hnew, (Game.finished_player hw hp).2.1] at hnone
      exact hcells'.trans hnone
  · have hne : p.wsi ≠ q.wsi := key_ne hi.distinct hp hq (Ne.symm hjn)
    have hsilent : Silent q.wsi [.updated u, .requested p.wsi] := fun o ho => by
      rcases List.mem_pair.mp ho with rfl | rfl
      · exact ⟨rfl, if_neg hne⟩
      · exact ⟨rfl, rfl⟩
    rw [hsilent.updatesOf] at hv'
    exact hbefore ⟨v, hv', hnone⟩

end Sys

theorem Move.bereft {a b : Stage} {s s' : Sys ℝ} (h : Move (a, s) (b, s')) (hi : Invariant a s)
    (hs : s.Bereft) : s'.Bereft := by
  have hquiet : ∀ {s' : Sys ℝ}, s'.game.players = s.game.players →
      ∀ c' ∈ s'.game.players.map Player.seat, ∃ c ∈ s.game.players.map Player.seat,
        c.1 = c'.1 ∧ (c.2 = [] → c'.2 = []) := fun hplayers =>
    Sys.seats_of_core (by rw [hplayers]) (Game.denies_of_players hplayers)
  cases h with
  | begin _ clock =>
    refine hs.keep [] (List.append_nil _).symm (fun w => Silent.nil w) (hquiet ?_)
    exact (Game.updateDynamic_motion (s.game.beginTick clock) _).players
  | kick _ x hx => exact hs.erase x
  | collide _ =>
    refine hs.keep [.collided s.game s.game.collisionPhase] rfl (fun w o ho => ?_)
      (Sys.seats_of_core ((Game.collisionPhase_leads s.game).frame hi.wellFormed).core
        (Game.collisionPhase_denies hi.wellFormed))
    rw [List.mem_singleton.mp ho]
    exact ⟨rfl, rfl⟩
  | drive _ dt =>
    refine hs.keep [] (List.append_nil _).symm (fun w => Silent.nil w) (hquiet ?_)
    exact (Game.drive_motion s.game dt).players
  | update _ n p hp => exact hs.update hi hp
  | replay _ n hn =>
    refine hs.keep [.ticked s.game.parseEvents] rfl (fun w o ho => ?_) (hquiet ?_)
    · rw [List.mem_singleton.mp ho]
      exact ⟨rfl, rfl⟩
    · show s.game.parseEvents.players = _
      rw [(Game.parseEvents_prunes hi.additions).rest]
  | send _ clock accepts i => exact hs.send clock accepts i
  | join _ w grown hw => exact hs.join grown hw
  | receive _ w packet beyond => exact hs.receive hi w packet beyond
  | close _ x hx => exact hs.erase x

/-- A player that an update has left without cells has none after this update either, and the block
in the corner is all it sees. -/
def StaysOut (tr : List (Obs ℝ)) (u : UpdateRecord ℝ) : Prop := Eliminated u.player.wsi tr →
  u.finished.player.cells = [] ∧ u.finished.player.blocks = [⟨0, 0⟩]

theorem Player.updateView_blind {g : Game ℝ} {p : Player ℝ} (h : p.cells = []) :
    (p.updateView g).blocks = [⟨0, 0⟩] := by
  have hradius : (p.calculateCamera g).totalRadius = 0 := by
    rw [totalRadius_eq, h]
    rfl
  unfold updateView
  dsimp only
  rw [if_pos (decide_eq_true hradius), if_pos (decide_eq_true hradius)]
  decide

theorem Sys.Bereft.staysOut {s : Sys ℝ} (h : s.Bereft) {n : ℕ} {p : Player ℝ}
    (hi : Invariant (.updating n) s) (hp : s.game.players[n]? = some p) :
    StaysOut s.trace (s.game.updatePlayer n p) := by
  intro hlost
  have hw := hi.wellFormed
  have hnone : p.cells = [] := h p.seat (List.mem_map_of_mem (List.mem_of_getElem? hp)) hlost
  have hcommanded : (s.game.commands n p).cellsOf n = [] :=
    Game.commands_denies hw hp n (by simp [Game.cellsOf, hp, hnone])
  have hparsed : (s.game.updatePlayer n p).parsed.player.cells = [] := by
    obtain ⟨ms, hext⟩ := Game.parsed_spec s.game n p
    rw [hext.player, (Game.start_spec hw hp).2]
    exact hcommanded
  refine ⟨(Game.finished_player hw hp).2.1.trans hcommanded, ?_⟩
  have hfinished : (s.game.updatePlayer n p).finished.player.blocks =
      ((s.game.updatePlayer n p).parsed.player.updateView (s.game.commands n p)).blocks := by
    rw [Game.finished_eq]
    rfl
  rw [hfinished]
  exact Player.updateView_blind hparsed

/-- In every run a player that an update has left without cells gets none for as long as it is
there, whatever its client sends, and sees nothing but the block in the corner. -/
theorem out_for_good (r : Run ℝ) : Always (AtUpdates StaysOut) r.final.trace := by
  refine Run.induction_updates (P := fun _ s => s.Bereft) (fun rand stale => ?_)
    (fun a s b s' hi hm hs => hm.bereft hi hs) (fun n s p hi hs hp => hs.staysOut hi hp) r
  intro c hc
  have hnone : (Sys.init rand stale).game.players = [] := (Game.mapInit_started rand stale).players
  rw [hnone] at hc
  cases hc

end Agar
