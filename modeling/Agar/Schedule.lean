import Agar.Screens
import Agar.Writes

/-! What is done in which order: the players a tick drops and updates, and what a writable callback
delivers. -/

namespace Agar
open MovedVector Picture Trace

/-- The player whose connection is erased here. -/
def Obs.leaver {K : Type} : Obs K → Option Wsi
  | .erased g x => (g.players[x]?).map Player.wsi
  | _ => none

namespace Sys

theorem erasePlayer_channels (s : Sys ℝ) (x : ℕ) :
    (s.erasePlayer x).game.players.map Player.channel =
      (s.game.players.map Player.channel).eraseIdx x := eraseAt_carried channel_carried _ _

theorem kickFrom_channels (s : Sys ℝ) (x : ℕ) :
    (s.kickFrom x).game.players.map Player.channel =
      (s.game.players.map Player.channel).take x ++
        ((s.game.players.map Player.channel).drop x).filter fun c => c.2.connected := by
  fun_induction kickFrom s x with
  | case1 s x hnone =>
    have hlen : (s.game.players.map Player.channel).length ≤ x := by
      simpa using List.getElem?_eq_none_iff.mp hnone
    rw [List.take_of_length_le hlen, List.drop_eq_nil_of_le hlen, List.filter_nil, List.append_nil]
  | case2 s x p hp hconnected ih =>
    have hget : (s.game.players.map Player.channel)[x]? = some p.channel := by
      rw [List.getElem?_map, hp]
      rfl
    obtain ⟨hlt, hx⟩ := List.getElem?_eq_some_iff.mp hget
    rw [ih, List.drop_eq_getElem_cons hlt, hx, List.filter_cons_of_pos (by exact hconnected),
      List.take_succ_eq_append_getElem hlt, hx, List.append_assoc]
    rfl
  | case3 s x p hp hconnected ih =>
    have hget : (s.game.players.map Player.channel)[x]? = some p.channel := by
      rw [List.getElem?_map, hp]
      rfl
    obtain ⟨hlt, hx⟩ := List.getElem?_eq_some_iff.mp hget
    rw [ih, erasePlayer_channels, List.drop_eq_getElem_cons hlt, hx,
      List.filter_cons_of_neg (by exact hconnected)]
    generalize s.game.players.map Player.channel = l at *
    rw [List.eraseIdx_eq_take_drop_succ, List.take_append_of_le_length (by simp; omega),
      List.take_take, min_self, List.drop_append_of_le_length (by simp; omega)]
    simp

theorem kickFrom_trace (s : Sys ℝ) (x : ℕ) : ∃ kicks, (s.kickFrom x).trace = s.trace ++ kicks ∧
    (∀ o ∈ kicks, ∃ g n, o = .erased g n) ∧ kicks.filterMap Obs.leaver =
      (((s.game.players.map Player.channel).drop x).filter fun c => !c.2.connected).map Prod.fst := by
  fun_induction kickFrom s x with
  | case1 s x hnone =>
    have hlen : (s.game.players.map Player.channel).length ≤ x := by
      simpa using List.getElem?_eq_none_iff.mp hnone
    refine ⟨[], (List.append_nil _).symm, fun o ho => (by cases ho), ?_⟩
    rw [List.drop_eq_nil_of_le hlen]
    rfl
  | case2 s x p hp hconnected ih =>
    have hget : (s.game.players.map Player.channel)[x]? = some p.channel := by
      rw [List.getElem?_map, hp]
      rfl
    obtain ⟨hlt, hx⟩ := List.getElem?_eq_some_iff.mp hget
    obtain ⟨kicks, htrace, hkicks, hleavers⟩ := ih
    refine ⟨kicks, htrace, hkicks, ?_⟩
    rw [hleavers, List.drop_eq_getElem_cons hlt, hx, List.filter_cons_of_neg]
    simpa [Player.channel] using hconnected
  | case3 s x p hp hconnected ih =>
    have hget : (s.game.players.map Player.channel)[x]? = some p.channel := by
      rw [List.getElem?_map, hp]
      rfl
    obtain ⟨hlt, hx⟩ := List.getElem?_eq_some_iff.mp hget
    obtain ⟨kicks, htrace, hkicks, hleavers⟩ := ih
    refine ⟨.erased s.game x :: kicks, ?_, fun o ho => ?_, ?_⟩
    · rw [htrace]
      show (s.trace ++ [.erased s.game x]) ++ kicks = _
      rw [List.append_assoc]
      rfl
    · rcases List.mem_cons.mp ho with rfl | ho
      · exact ⟨s.game, x, rfl⟩
      · exact hkicks o ho
    · have hleaver : Obs.leaver (.erased s.game x) = some p.wsi := by
        show (s.game.players[x]?).map Player.wsi = _
        rw [hp]
        rfl
      rw [List.filterMap_cons_some hleaver, hleavers, erasePlayer_channels,
        List.drop_eq_getElem_cons hlt, hx, List.filter_cons_of_pos (by simpa [Player.channel] using hconnected),
        List.map_cons]
      generalize s.game.players.map Player.channel = l at *
      rw [List.eraseIdx_eq_take_drop_succ, List.drop_append_of_le_length (by simp; omega)]
      simp [Player.channel]

/-- The entries of an update in the trace. -/
def updateEntries (u : UpdateRecord ℝ) : List (Obs ℝ) := [.updated u, .requested u.player.wsi]

theorem updateAt_wsi {s : Sys ℝ} (hw : s.game.WellFormed) {n : ℕ} {p : Player ℝ}
    (hp : s.game.players[n]? = some p) :
    (s.updateAt n).game.players.map Player.wsi = s.game.players.map Player.wsi := by
  unfold updateAt
  rw [hp]
  have hplayers : (s.game.updatePlayer n p).after.players.map Player.wsi =
      (s.game.players.map Player.wsi).set n (s.game.updatePlayer n p).finished.player.wsi :=
    map_of_core_set (f := Player.wsi) (fun _ => rfl) (Game.after_players hw hp)
  rw [hplayers, map_set_same hp (Game.finished_player hw hp).1]

theorem updateAll_trace {s : Sys ℝ} (hi : Invariant (.updating 0) s) : ∃ us : List (UpdateRecord ℝ),
    s.updateAll.trace = s.trace ++ us.flatMap updateEntries ∧
    us.map UpdateRecord.index = List.range s.game.players.length ∧
    us.map (fun u => u.player.wsi) = s.game.players.map Player.wsi ∧
    s.updateAll.game.players.map Player.wsi = s.game.players.map Player.wsi := by
  have hloop : ∀ n ≤ s.game.players.length, ∃ us : List (UpdateRecord ℝ),
      Invariant (.updating n) ((List.range n).foldl updateAt s) ∧
      ((List.range n).foldl updateAt s).trace = s.trace ++ us.flatMap updateEntries ∧
      us.map UpdateRecord.index = List.range n ∧
      us.map (fun u => u.player.wsi) = (s.game.players.map Player.wsi).take n ∧
      ((List.range n).foldl updateAt s).game.players.map Player.wsi =
        s.game.players.map Player.wsi := by
    intro n hn
    induction n with
    | zero => exact ⟨[], hi, (List.append_nil _).symm, rfl, rfl, rfl⟩
    | succ n ih =>
      obtain ⟨us, hi', htrace, hindex, hwsi, hplayers⟩ := ih (by omega)
      rw [List.range_succ, List.foldl_append, List.foldl_cons, List.foldl_nil]
      generalize (List.range n).foldl updateAt s = t at *
      have hlen := congrArg List.length hplayers
      rw [List.length_map, List.length_map] at hlen
      obtain ⟨p, hp⟩ : ∃ p, t.game.players[n]? = some p :=
        ⟨_, List.getElem?_eq_getElem (by omega)⟩
      have hget : (s.game.players.map Player.wsi)[n]? = some p.wsi := by
        rw [← hplayers, List.getElem?_map, hp]
        rfl
      obtain ⟨hlt, hx⟩ := List.getElem?_eq_some_iff.mp hget
      refine ⟨us ++ [t.game.updatePlayer n p], (Move.update t n p hp).invariant hi', ?_, ?_, ?_,
        (updateAt_wsi hi'.wellFormed hp).trans hplayers⟩
      · have hat : (t.updateAt n).trace = t.trace ++ updateEntries (t.game.updatePlayer n p) := by
          unfold updateAt
          rw [hp]
          rfl
        rw [hat, htrace, List.flatMap_append, List.flatMap_singleton, List.append_assoc]
      · rw [List.map_append, hindex]
        rfl
      · rw [List.map_append, hwsi, List.take_succ_eq_append_getElem hlt, hx]
        rfl
  obtain ⟨us, -, htrace, hindex, hwsi, hplayers⟩ := hloop _ le_rfl
  refine ⟨us, htrace, hindex, ?_, hplayers⟩
  rw [hwsi, ← List.length_map (f := Player.wsi), List.take_length]

/-- The players of the state whose buffers have room, or have none. -/
def roomy (s : Sys ℝ) : List (Player ℝ) := s.game.players.filter fun p => p.wsMessage.connected

def clogged (s : Sys ℝ) : List (Player ℝ) := s.game.players.filter fun p => !p.wsMessage.connected

/-- A tick erases the players whose buffers have no room, in order, runs one collision phase, and
updates each of the others once, in order, with a request for a writable callback right after. -/
def Scheduled (s : Sys ℝ) (clock : ℝ) : Prop :=
  ∃ (kicks : List (Obs ℝ)) (before : Game ℝ) (us : List (UpdateRecord ℝ)),
    (s.tick clock).trace = s.trace ++ kicks ++ [.collided before before.collisionPhase] ++
      us.flatMap updateEntries ++ [.ticked (s.tick clock).game] ∧
    (∀ o ∈ kicks, ∃ g n, o = .erased g n) ∧
    kicks.filterMap Obs.leaver = s.clogged.map Player.wsi ∧
    us.map UpdateRecord.index = List.range s.roomy.length ∧
    us.map (fun u => u.player.wsi) = s.roomy.map Player.wsi ∧
    (s.tick clock).game.players.map Player.wsi = s.roomy.map Player.wsi

theorem filter_channels (s : Sys ℝ) (test : Message → Bool) :
    ((s.game.players.map Player.channel).filter fun c => test c.2).map Prod.fst =
      (s.game.players.filter fun p => test p.wsMessage).map Player.wsi := by
  rw [List.filter_map, List.map_map]
  rfl

theorem tick_scheduled {s : Sys ℝ} (hi : Invariant .idle s) (clock : ℝ) : s.Scheduled clock := by
  have hbegin : ((s.game.beginTick clock).updateDynamic (clock - s.game.currentTime)).players =
      s.game.players := (Game.updateDynamic_motion (s.game.beginTick clock) _).players
  obtain ⟨kicks, hkicked, hkicks, hleavers⟩ := kickFrom_trace
    { s with game := (s.game.beginTick clock).updateDynamic (clock - s.game.currentTime) } 0
  have hleft := kickFrom_channels
    { s with game := (s.game.beginTick clock).updateDynamic (clock - s.game.currentTime) } 0
  dsimp only at hleavers hleft hkicked
  rw [hbegin, List.drop_zero, s.filter_channels fun m => !m.connected] at hleavers
  rw [hbegin, List.drop_zero, List.take_zero, List.nil_append] at hleft
  have hi₁ := Moves.invariant (tickStart_moves s clock) hi
  have hi₂ := Moves.invariant (tickMoved_moves s clock) hi
  have hplayers : (s.tickMoved clock).game.players.map Player.wsi = s.roomy.map Player.wsi := by
    have hmoved : (s.tickMoved clock).game.players = (s.tickStart clock).collide.game.players :=
      (Game.drive_motion (s.tickStart clock).collide.game (clock - s.game.currentTime)).players
    have hcollided : (s.tickStart clock).collide.game.players.map Player.wsi =
        (s.tickStart clock).game.players.map Player.wsi := map_of_core (fun _ => rfl)
      ((Game.collisionPhase_leads (s.tickStart clock).game).frame hi₁.wellFormed).core
    have hstart : (s.tickStart clock).game.players.map Player.wsi = s.roomy.map Player.wsi := by
      have hfst := congrArg (List.map Prod.fst) hleft
      rw [s.filter_channels fun m => m.connected, List.map_map] at hfst
      exact hfst
    rw [hmoved, hcollided, hstart]
  obtain ⟨us, hupdated, hindex, hwsi, hafter⟩ := updateAll_trace hi₂
  have hi₃ := Moves.invariant (updateAll_moves hi₂).1 hi₂
  refine ⟨kicks, (s.tickStart clock).game, us, ?_, hkicks, hleavers, ?_, hwsi.trans hplayers, ?_⟩
  · have hcollide : (s.tickMoved clock).trace = s.trace ++ kicks ++
        [.collided (s.tickStart clock).game (s.tickStart clock).game.collisionPhase] := by
      rw [← hkicked]
      rfl
    rw [tick_trace, hupdated, hcollide]
  · rw [hindex, ← List.length_map (f := Player.wsi), hplayers, List.length_map]
  · rw [← hplayers, ← hafter, tick_game]
    exact congrArg (fun g => g.players.map Player.wsi) (Game.parseEvents_prunes hi₃.additions).rest

/-- Every tick of every run goes by the schedule: the players past the reserve of their buffers
leave, and no other player misses its update or is updated twice. -/
theorem tick_schedule (r : Run ℝ) (clock : ℝ) : r.final.Scheduled clock :=
  tick_scheduled r.invariant clock

end Sys

theorem Player.send_pending {p : Player ℝ} {clock : ℝ} (hcan : p.canSend clock = true) :
    (p.send clock true).2.wsMessage.pending = [] ∧ (p.send clock true).2.sight = p.sight := by
  by_cases hpending : p.wsMessage.pending = []
  · have hwaits : p.waiting clock = false := by simp [Player.waiting, hpending]
    rw [Player.send_of_not_waiting hwaits]
    exact ⟨hpending, rfl⟩
  · have hcond : p.wsMessage.pending.length ≠ 0 ∧ true = true := by simpa using hpending
    have hsend : p.wsMessage.send true = (true, { p.wsMessage with ack := false }.clear) := by
      unfold Message.send
      rw [if_pos hcond]
    unfold Player.send
    rw [hsend, if_pos ⟨hcan, rfl⟩]
    exact ⟨clear_pending _, rfl⟩

/-- The packets that have gone out bring the client of the player up to date. -/
def Sys.Delivered (s : Sys ℝ) (p : Player ℝ) : Prop :=
  ∃ ws, Wire.format.decode ((life p.wsi s.trace).flatMap (Obs.accepted p.wsi)) = some ws ∧
    s.Renders p (screen ws)

/-- A writable callback of any connection delivers to all players who may send. -/
def Run.Delivers (r : Run ℝ) (w : Wsi) (clock : ℝ) (grown : ℕ) : Prop :=
  (r.final.writeable w clock (fun _ => true) grown).game.allocated ≤ 2 ^ 32 →
    ∀ (i : ℕ) (p : Player ℝ), r.final.game.players[i]? = some p → p.canSend clock = true →
      ∃ p' : Player ℝ, (r.final.writeable w clock (fun _ => true) grown).game.players[i]? = some p' ∧
        p'.sight = p.sight ∧ (r.final.writeable w clock (fun _ => true) grown).Delivered p'

theorem Sys.writeable_carries (s : Sys ℝ) (w : Wsi) (clock : ℝ) (accepts : ℕ → Bool) (grown : ℕ)
    {i : ℕ} {p : Player ℝ} (hp : s.game.players[i]? = some p) :
    ∃ p', (s.writeable w clock accepts grown).game.players[i]? = some p' ∧
      p'.sight = (p.send clock (accepts i)).2.sight ∧
      p'.wsMessage = (p.send clock (accepts i)).2.wsMessage := by
  have hsent : (s.sendAll clock accepts).game.players[i]? = some (p.send clock (accepts i)).2 := by
    have hget := sends_get s clock accepts s.game.players.length i
    rw [hp, Option.map_some, if_pos (Game.getElem?_lt hp)] at hget
    exact hget
  unfold writeable
  dsimp only
  split_ifs
  · exact ⟨_, hsent, rfl, rfl⟩
  · generalize s.sendAll clock accepts = t at *
    have hcarried : Carried Player.moves fun p : Player ℝ => (p.sight, p.wsMessage) :=
      carried_of_flags _ fun _ _ _ => rfl
    have hmap : (t.join w grown).game.players.map (fun p => (p.sight, p.wsMessage)) =
        t.game.players.map (fun p => (p.sight, p.wsMessage)) ++
          [((t.game.newPlayer w).1.sight, (t.game.newPlayer w).1.wsMessage)] :=
      emplaceBack_carried hcarried _ _ _
    have hget := congrArg (fun l => l[i]?) hmap
    rw [List.getElem?_append_left (by simpa using Game.getElem?_lt hsent), List.getElem?_map,
      List.getElem?_map, hsent] at hget
    obtain ⟨p', hp', hsame⟩ := Option.map_eq_some_iff.mp hget
    exact ⟨p', hp', (Prod.mk.inj hsame).1, (Prod.mk.inj hsame).2⟩

/-- In every run, after a writable callback in which `lws_write` accepts, the packets that have gone
out to a player who may send are enough for its client to show the history, the food of the view and
the current values of all cells that are no player's. -/
theorem callback_delivers (r : Run ℝ) (w : Wsi) (clock : ℝ) (grown : ℕ) :
    r.Delivers w clock grown := by
  intro hfew i p hp hcan
  have hmoves := Sys.writeable_moves r.final w clock (fun _ => true) grown
  have hi := Moves.invariant hmoves r.invariant
  have hportrayed := (Moves.keeps (P := Portrayed) (fun _ _ _ _ hi hm hs => hm.portrayed hi hs)
    hmoves r.invariant r.portrayed).2
  have hstreams := (Moves.keeps (P := fun _ s => Streaming s)
    (fun _ _ _ _ hi hm hs => (hm.shift hi).streaming hi hs) hmoves r.invariant r.streaming).2
  obtain ⟨p', hp', hsight, hmessage⟩ :=
    Sys.writeable_carries r.final w clock (fun _ => true) grown hp
  obtain ⟨hpending, hkept⟩ := Player.send_pending hcan
  obtain ⟨ws, hdecode, hrenders⟩ :=
    hportrayed.rendered hi hstreams hfew p' (List.mem_of_getElem? hp')
  refine ⟨p', hp', hsight.trans hkept, ws, ?_, hrenders⟩
  unfold Sys.bytesTo at hdecode
  rwa [hmessage, hpending, List.append_nil] at hdecode

end Agar
