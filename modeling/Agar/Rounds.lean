import Agar.Reach

/-! Rounds of the server in which nothing goes out of the way: nobody is dropped, nothing waits to
be sent. Single runs are followed with these. -/

namespace Agar
open MovedVector

namespace Sys

theorem tick_game (s : Sys ℝ) (clock : ℝ) :
    (s.tick clock).game = (s.tickMoved clock).updateAll.game.parseEvents := by
  unfold tick
  generalize (s.tickMoved clock).updateAll = t
  rfl

theorem tick_trace (s : Sys ℝ) (clock : ℝ) :
    (s.tick clock).trace = (s.tickMoved clock).updateAll.trace ++ [.ticked (s.tick clock).game] := by
  rw [tick_game]
  unfold tick
  generalize (s.tickMoved clock).updateAll = t
  rfl

theorem tick_alone {s : Sys ℝ} {clock : ℝ} {p : Player ℝ}
    (hplayers : (s.tickMoved clock).game.players = [p]) :
    (s.tick clock).game = ((s.tickMoved clock).game.updatePlayer 0 p).after.parseEvents ∧
    (s.tick clock).trace = (s.tickMoved clock).trace ++
      [.updated ((s.tickMoved clock).game.updatePlayer 0 p), .requested p.wsi,
        .ticked (s.tick clock).game] := by
  have hall : (s.tickMoved clock).updateAll = (s.tickMoved clock).updateAt 0 := by
    rw [updateAll, hplayers]
    rfl
  have hupdate : (s.tickMoved clock).updateAt 0 = Sys.mk
      ((s.tickMoved clock).game.updatePlayer 0 p).after
      ((s.tickMoved clock).trace ++ [.updated ((s.tickMoved clock).game.updatePlayer 0 p),
        .requested p.wsi]) := by
    unfold updateAt
    rw [hplayers]
    rfl
  rw [tick_trace, tick_game, hall, hupdate]
  exact ⟨rfl, List.append_assoc _ _ _⟩

theorem kickFrom_of_connected {s : Sys ℝ}
    (h : ∀ p ∈ s.game.players, p.wsMessage.connected = true) (x : ℕ) : s.kickFrom x = s := by
  fun_induction kickFrom s x with
  | case1 s x hnone => rfl
  | case2 s x p hp hconnected ih => exact ih h
  | case3 s x p hp hconnected ih => exact absurd (h p (List.mem_of_getElem? hp)) hconnected

theorem tickStart_of_connected {s : Sys ℝ}
    (h : ∀ p ∈ s.game.players, p.wsMessage.connected = true) (clock : ℝ) :
    s.tickStart clock = { s with
      game := (s.game.beginTick clock).updateDynamic (clock - s.game.currentTime) } := by
  refine kickFrom_of_connected (fun p hp => h p ?_) 0
  have hplayers := (Game.updateDynamic_motion (s.game.beginTick clock)
    (clock - s.game.currentTime)).players
  have hp' : p ∈ ((s.game.beginTick clock).updateDynamic (clock - s.game.currentTime)).players := hp
  rw [hplayers] at hp'
  exact hp'

theorem sendAll_of_empty {s : Sys ℝ} (h : ∀ p ∈ s.game.players, p.wsMessage.pending = [])
    (clock : ℝ) (accepts : ℕ → Bool) : s.sendAll clock accepts = s := by
  have hsend : ∀ i, s.sendAt clock accepts i = s := by
    intro i
    rcases sendAt_cases s clock accepts i with heq | ⟨p, hp, -, hpending, -⟩
    · exact heq
    · exact absurd (h p (List.mem_of_getElem? hp)) hpending
  unfold sendAll
  induction List.range s.game.players.length with
  | nil => rfl
  | cons i is ih => rw [List.foldl_cons, hsend, ih]

theorem join_players (s : Sys ℝ) (w : Wsi) (grown : ℕ) :
    (s.join w grown).game.players =
      emplaceBack Player.moves s.game.capacity s.game.players (s.game.newPlayer w).1 := rfl

theorem mapInit_capacity (rand : ℕ → Fin (randMax + 1)) (stale : CellPtr → ℝ) :
    (Game.empty rand stale).mapInit.capacity = 0 := by
  have hfood : ∀ (g : Game ℝ) n, (Game.addFood^[n] g).capacity = g.capacity := by
    intro g n
    induction n with
    | zero => rfl
    | succ n ih =>
      rw [Function.iterate_succ_apply', ← ih]
      unfold Game.addFood Game.addStatic
      dsimp only
      split_ifs <;> rfl
  have hvirus : ∀ (g : Game ℝ) n, (Game.addVirus^[n] g).capacity = g.capacity := by
    intro g n
    induction n with
    | zero => rfl
    | succ n ih =>
      rw [Function.iterate_succ_apply', ← ih]
      rfl
  unfold Game.mapInit
  rw [hvirus, hfood]
  rfl

theorem join_first {s : Sys ℝ} (hnone : s.game.players = []) (w : Wsi) (grown : ℕ) :
    (s.join w grown).game.players = [(s.game.newPlayer w).1] := by
  rw [join_players, hnone]
  unfold emplaceBack
  split_ifs <;> rfl

theorem join_wsi (s : Sys ℝ) (w : Wsi) (grown : ℕ) :
    (s.join w grown).game.players.map Player.wsi = s.game.players.map Player.wsi ++ [w] :=
  emplaceBack_carried wsi_carried s.game.capacity s.game.players (s.game.newPlayer w).1

theorem writeable_of_new {s : Sys ℝ} {w : Wsi} (hw : ∀ p ∈ s.game.players, w ≠ p.wsi)
    (h : ∀ p ∈ s.game.players, p.wsMessage.pending = []) (clock : ℝ) (accepts : ℕ → Bool)
    (grown : ℕ) : s.writeable w clock accepts grown = s.join w grown := by
  have hany : (s.game.players.any fun p => w = p.wsi) = false := by
    rw [List.any_eq_false]
    intro p hp
    simpa using hw p hp
  unfold writeable
  rw [hany, sendAll_of_empty h]
  rfl

theorem first_writeable {s : Sys ℝ} (hnone : s.game.players = []) :
    (s.step (.writeable 0 0 (fun _ => true) 8)).game.players.map Player.wsi = [0] := by
  show (s.writeable 0 0 (fun _ => true) 8).game.players.map Player.wsi = [0]
  rw [writeable_of_new (by simp [hnone]) (by simp [hnone]), join_wsi, hnone]
  rfl

theorem updated_said (g : Game ℝ) (i : ℕ) (p : Player ℝ) :
    ∃ ms x y, (g.updatePlayer i p).finished.said = ms ++ [.position x y] := by
  rw [Game.finished_eq]
  exact ⟨_, _, _, (List.append_assoc _ _ _).symm⟩

theorem updated_pending {g : Game ℝ} (hw : g.WellFormed) {i : ℕ} {p : Player ℝ}
    (hp : g.players[i]? = some p) (hbuffer : p.wsMessage.region.isSome) :
    (g.updatePlayer i p).finished.player.wsMessage.pending ≠ [] := by
  obtain ⟨ms, x, y, hsaid⟩ := updated_said g i p
  rw [(Game.finished_player hw hp).2.2.2.2.2, Message.appendAll_pending _ _ hbuffer, hsaid]
  simp [Msg.encode]

theorem updates_extend (s : Sys ℝ) (is : List ℕ) : s.trace <+: (is.foldl updateAt s).trace := by
  induction is generalizing s with
  | nil => exact List.prefix_rfl
  | cons i is ih =>
    refine List.IsPrefix.trans ?_ (ih _)
    unfold updateAt
    rcases s.game.players[i]? with - | p
    · exact List.prefix_rfl
    · exact List.prefix_append _ _

theorem tickMoved_start_core {s : Sys ℝ} (hi : Invariant .idle s) (clock : ℝ) :
    (s.tickMoved clock).game.players.map Player.core =
      (s.tickStart clock).game.players.map Player.core := by
  have hw := (Moves.invariant (tickStart_moves s clock) hi).wellFormed
  rw [← ((Game.collisionPhase_leads (s.tickStart clock).game).frame hw).core]
  exact congrArg (List.map Player.core)
    (Game.drive_motion (s.tickStart clock).collide.game (clock - s.game.currentTime)).players

theorem tickMoved_core {s : Sys ℝ} (hi : Invariant .idle s)
    (hconnected : ∀ p ∈ s.game.players, p.wsMessage.connected = true) (clock : ℝ) :
    (s.tickMoved clock).game.players.map Player.core = s.game.players.map Player.core := by
  rw [tickMoved_start_core hi, tickStart_of_connected hconnected]
  exact congrArg (List.map Player.core)
    (Game.updateDynamic_motion (s.game.beginTick clock) (clock - s.game.currentTime)).players

theorem tick_empty {s : Sys ℝ} (hi : Invariant .idle s) {clock : ℝ}
    (hnone : (s.tickStart clock).game.players = []) : (s.tick clock).game.players = [] := by
  have hmoved : (s.tickMoved clock).game.players = [] := by
    have hcore := tickMoved_start_core hi clock
    rw [hnone] at hcore
    exact List.map_eq_nil_iff.mp hcore
  have hall : (s.tickMoved clock).updateAll = s.tickMoved clock := by
    rw [updateAll, hmoved]
    rfl
  have hadditions := (Moves.invariant (tickMoved_moves s clock) hi).additions
  rw [tick_game, hall, (Game.parseEvents_prunes hadditions).rest]
  exact hmoved

theorem kickFrom_alone {s : Sys ℝ} {p : Player ℝ} (hplayers : s.game.players = [p])
    (hconnected : p.wsMessage.connected = false) : (s.kickFrom 0).game.players = [] := by
  have herased : (s.erasePlayer 0).game.players = [] := by
    unfold erasePlayer
    rw [hplayers]
    rfl
  have hdone : (s.erasePlayer 0).kickFrom 0 = s.erasePlayer 0 :=
    kickFrom_of_connected (by rw [herased]; exact fun q hq => by cases hq) 0
  rw [kickFrom]
  split
  next hnone =>
    rw [hplayers] at hnone
    cases hnone
  next q hq =>
    rw [hplayers] at hq
    obtain rfl : p = q := Option.some.inj hq
    rw [hconnected, if_neg Bool.false_ne_true, hdone]
    exact herased

theorem tick_kicked {s : Sys ℝ} {p : Player ℝ} (hi : Invariant .idle s)
    (hplayers : s.game.players = [p]) (hconnected : p.wsMessage.connected = false) (clock : ℝ) :
    (s.tick clock).game.players = [] := by
  refine tick_empty hi (kickFrom_alone (p := p) ?_ hconnected)
  refine Eq.trans ?_ hplayers
  exact (Game.updateDynamic_motion (s.game.beginTick clock) (clock - s.game.currentTime)).players

theorem tick_nobody {s : Sys ℝ} (hi : Invariant .idle s) (hnone : s.game.players = [])
    (clock : ℝ) : (s.tick clock).game.players = [] := by
  refine tick_empty hi ?_
  rw [tickStart_of_connected (by rw [hnone]; exact fun p hp => by cases hp)]
  refine Eq.trans ?_ hnone
  exact (Game.updateDynamic_motion (s.game.beginTick clock) (clock - s.game.currentTime)).players

theorem tick_single {s : Sys ℝ} (hi : Invariant .idle s)
    (hconnected : ∀ p ∈ s.game.players, p.wsMessage.connected = true) (clock : ℝ) {p : Player ℝ}
    (hp : s.game.players.map Player.core = [p.core]) :
    ∃ q, (s.tickMoved clock).game.players[0]? = some q ∧ q.core = p.core ∧
      (s.tick clock).game.players.map Player.core =
        [((s.tickMoved clock).game.updatePlayer 0 q).finished.player.core] := by
  have hcore := (tickMoved_core hi hconnected clock).trans hp
  obtain ⟨q, hq, hqp⟩ := List.map_eq_singleton_iff.mp hcore
  have hq0 : (s.tickMoved clock).game.players[0]? = some q := by rw [hq]; rfl
  have hi' := Moves.invariant (tickMoved_moves s clock) hi
  have hall : (s.tickMoved clock).updateAll = (s.tickMoved clock).updateAt 0 := by
    rw [updateAll, hq]
    rfl
  have hupdate : ((s.tickMoved clock).updateAt 0).game.players.map Player.core =
      [((s.tickMoved clock).game.updatePlayer 0 q).finished.player.core] := by
    have hafter := Game.after_players hi'.wellFormed hq0
    rw [hq] at hafter
    unfold updateAt
    rw [hq0]
    exact hafter
  have hadditions := (Moves.invariant (.single (.update _ 0 q hq0)) hi').additions
  refine ⟨q, hq0, hqp, ?_⟩
  rw [tick_eq, hall]
  show (((s.tickMoved clock).updateAt 0).game.parseEvents).players.map Player.core = _
  rw [(Game.parseEvents_prunes hadditions).rest]
  exact hupdate

theorem updated_first {s : Sys ℝ} {clock : ℝ} {q : Player ℝ}
    (hq : (s.tickMoved clock).game.players[0]? = some q) : (s.tickMoved clock).trace ++
      [.updated ((s.tickMoved clock).game.updatePlayer 0 q)] <+: (s.tick clock).trace := by
  have hupdate : ((s.tickMoved clock).updateAt 0).trace = (s.tickMoved clock).trace ++
      [.updated ((s.tickMoved clock).game.updatePlayer 0 q), .requested q.wsi] := by
    unfold updateAt
    rw [hq]
  have hextends : ((s.tickMoved clock).updateAt 0).trace <+: (s.tick clock).trace := by
    obtain ⟨n, hn⟩ : ∃ n, (s.tickMoved clock).game.players.length = n + 1 :=
      ⟨_, (Nat.succ_pred_eq_of_pos (Game.getElem?_lt hq)).symm⟩
    have hrest := updates_extend ((s.tickMoved clock).updateAt 0) ((List.range n).map Nat.succ)
    rw [tick_eq]
    refine List.IsPrefix.trans ?_ (List.prefix_append _ _)
    show _ <+: (s.tickMoved clock).updateAll.trace
    rw [updateAll, hn, List.range_succ_eq_map, List.foldl_cons]
    exact hrest
  refine List.IsPrefix.trans ?_ hextends
  rw [hupdate]
  exact ⟨[.requested q.wsi], by simp⟩

theorem tick_first {s : Sys ℝ} (hi : Invariant .idle s)
    (hconnected : ∀ p ∈ s.game.players, p.wsMessage.connected = true) (clock : ℝ) {p : Player ℝ}
    (hp : s.game.players[0]? = some p) :
    ∃ before after u, u.player.core = p.core ∧
      (s.trace ++ [.collided before after]) ++ [.updated u] <+: (s.tick clock).trace := by
  have hmoved : (s.tickMoved clock).trace = s.trace ++ [.collided (s.tickStart clock).game
      (s.tickStart clock).game.collisionPhase] := by
    unfold tickMoved
    rw [tickStart_of_connected hconnected]
    rfl
  have hcore := tickMoved_core hi hconnected clock
  obtain ⟨q, hq, hqp⟩ : ∃ q, (s.tickMoved clock).game.players[0]? = some q ∧ q.core = p.core := by
    have hget := congrArg (fun l => l[0]?) hcore
    simp only [List.getElem?_map, hp] at hget
    rcases hq : (s.tickMoved clock).game.players[0]? with - | q
    · simp [hq] at hget
    · rw [hq] at hget
      exact ⟨q, rfl, Option.some.inj hget⟩
  have hfirst := updated_first hq
  rw [hmoved] at hfirst
  exact ⟨_, _, _, hqp, hfirst⟩

end Sys

end Agar
