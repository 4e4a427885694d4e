import Agar.Moves

/-! Runs of the server as sequences of moves, and what holds after every move. -/

namespace Agar
open MovedVector Trace

/-- How far a tick has come. -/
inductive Stage
  | idle
  /-- The clock has been read. -/
  | started
  | collided
  /-- The players before the index have been updated. -/
  | updating (n : ℕ)

/-- The collisions of the tick are over and the update of the player is still to come. -/
def Awaits : Stage → ℕ → Prop
  | .collided, _ => True
  | .updating n, i => n ≤ i
  | _, _ => False

/-- One move of the server. The game loop and the callbacks are sequences of these. -/
inductive Move : Stage × Sys ℝ → Stage × Sys ℝ → Prop
  | begin (s : Sys ℝ) (clock : ℝ) : Move (.idle, s) (.started,
      { s with game := (s.game.beginTick clock).updateDynamic (clock - s.game.currentTime) })
  | kick (s : Sys ℝ) (x : ℕ) (hx : x < s.game.players.length) :
      Move (.started, s) (.started, s.erasePlayer x)
  | collide (s : Sys ℝ) : Move (.started, s) (.collided, s.collide)
  | drive (s : Sys ℝ) (dt : ℝ) :
      Move (.collided, s) (.updating 0, { s with game := s.game.drive dt })
  | update (s : Sys ℝ) (n : ℕ) (p : Player ℝ) (hp : s.game.players[n]? = some p) :
      Move (.updating n, s) (.updating (n + 1), s.updateAt n)
  | replay (s : Sys ℝ) (n : ℕ) (hn : n = s.game.players.length) : Move (.updating n, s) (.idle,
      ({ s with game := s.game.parseEvents } : Sys ℝ).observe (.ticked s.game.parseEvents))
  | send (s : Sys ℝ) (clock : ℝ) (accepts : ℕ → Bool) (i : ℕ) :
      Move (.idle, s) (.idle, s.sendAt clock accepts i)
  | join (s : Sys ℝ) (w : Wsi) (grown : ℕ) (hw : ∀ p ∈ s.game.players, w ≠ p.wsi) :
      Move (.idle, s) (.idle, s.join w grown)
  | receive (s : Sys ℝ) (w : Wsi) (packet : List Byte) (beyond : ℕ → Byte) :
      Move (.idle, s) (.idle, s.receive w packet beyond)
  | close (s : Sys ℝ) (x : ℕ) (hx : x < s.game.players.length) :
      Move (.idle, s) (.idle, s.erasePlayer x)

/-- A sequence of moves. -/
abbrev Moves := Relation.ReflTransGen Move

namespace Sys

theorem kickFrom_moves (s : Sys ℝ) (x : ℕ) : Moves (.started, s) (.started, s.kickFrom x) := by
  fun_induction kickFrom s x with
  | case1 s x hnone => exact .refl
  | case2 s x p hp hconnected ih => exact ih
  | case3 s x p hp hconnected ih => exact .head (.kick s x (Game.getElem?_lt hp)) ih

theorem tickStart_moves (s : Sys ℝ) (clock : ℝ) :
    Moves (.idle, s) (.started, s.tickStart clock) :=
  .head (.begin s clock) (kickFrom_moves _ 0)

theorem tickMoved_moves (s : Sys ℝ) (clock : ℝ) :
    Moves (.idle, s) (.updating 0, s.tickMoved clock) :=
  ((tickStart_moves s clock).tail (.collide _)).tail (.drive _ _)

theorem tick_eq (s : Sys ℝ) (clock : ℝ) :
    s.tick clock = ({ (s.tickMoved clock).updateAll with
      game := (s.tickMoved clock).updateAll.game.parseEvents } : Sys ℝ).observe
        (.ticked (s.tickMoved clock).updateAll.game.parseEvents) := by
  rw [tick]

theorem sendAll_moves (s : Sys ℝ) (clock : ℝ) (accepts : ℕ → Bool) :
    Moves (.idle, s) (.idle, s.sendAll clock accepts) := by
  unfold sendAll
  induction List.range s.game.players.length generalizing s with
  | nil => exact .refl
  | cons i is ih => exact .head (.send s clock accepts i) (ih _)

theorem sendAt_cases (s : Sys ℝ) (clock : ℝ) (accepts : ℕ → Bool) (i : ℕ) :
    s.sendAt clock accepts i = s ∨
    ∃ p, s.game.players[i]? = some p ∧ p.canSend clock = true ∧ p.wsMessage.pending ≠ [] ∧
      s.sendAt clock accepts i =
        { game := s.game.setPlayer i { p with
            wsMessage := { p.wsMessage with ack := false }.clear, sendTime := clock }
          trace := s.trace ++ [.wrote p.wsi clock p.wsMessage.pending] } := by
  unfold sendAt
  rcases hp : s.game.players[i]? with - | p
  · exact Or.inl rfl
  · dsimp only
    by_cases hsend : p.canSend clock = true ∧ (p.wsMessage.send (accepts i)).1 = true
    · refine Or.inr ⟨p, rfl, hsend.1, ?_, ?_⟩
      · intro hnil
        have hfalse : (p.wsMessage.send (accepts i)).1 = false := by
          simp [Message.send, hnil]
        rw [hsend.2] at hfalse
        cases hfalse
      · have hcond : p.wsMessage.pending.length ≠ 0 ∧ accepts i = true := by
          by_contra hcond
          have hfalse : (p.wsMessage.send (accepts i)).1 = false := by
            simp only [Message.send, if_neg hcond]
          rw [hsend.2] at hfalse
          cases hfalse
        have hmessage : (p.wsMessage.send (accepts i)).2 =
            { p.wsMessage with ack := false }.clear := by
          simp only [Message.send, if_pos hcond]
        rw [Player.send, if_pos hsend, hmessage]
        rfl
    · left
      rw [Player.send, if_neg hsend]
      have hset : s.game.setPlayer i p = s.game := by
        have hplayers : s.game.players.set i p = s.game.players := by
          apply List.ext_getElem?
          intro n
          by_cases hn : i = n
          · subst hn
            rw [List.getElem?_set_self (Game.getElem?_lt hp), hp]
          · rw [List.getElem?_set_ne hn]
        unfold Game.setPlayer
        rw [hplayers]
      simp only [Bool.false_eq_true, if_false, hset]

theorem sendAt_wsi (s : Sys ℝ) (clock : ℝ) (accepts : ℕ → Bool) (i : ℕ) :
    (s.sendAt clock accepts i).game.players.map Player.wsi = s.game.players.map Player.wsi := by
  rcases sendAt_cases s clock accepts i with h | ⟨p, hp, -, -, h⟩
  · rw [h]
  · rw [h]
    show (s.game.players.set i _).map Player.wsi = _
    rw [List.map_set]
    apply List.ext_getElem?
    intro n
    by_cases hn : i = n
    · subst hn
      rw [List.getElem?_set_self (by simpa using Game.getElem?_lt hp), List.getElem?_map, hp]
      rfl
    · rw [List.getElem?_set_ne hn]

theorem sendAll_wsi (s : Sys ℝ) (clock : ℝ) (accepts : ℕ → Bool) :
    (s.sendAll clock accepts).game.players.map Player.wsi = s.game.players.map Player.wsi := by
  unfold sendAll
  induction List.range s.game.players.length generalizing s with
  | nil => rfl
  | cons i is ih => rw [List.foldl_cons, ih, sendAt_wsi]

theorem writeable_moves (s : Sys ℝ) (w : Wsi) (clock : ℝ) (accepts : ℕ → Bool) (grown : ℕ) :
    Moves (.idle, s) (.idle, s.writeable w clock accepts grown) := by
  unfold writeable
  dsimp only
  split_ifs with hfound
  · exact sendAll_moves s clock accepts
  · refine (sendAll_moves s clock accepts).tail (.join _ w grown fun p hp hw => hfound ?_)
    have hmem : w ∈ (s.sendAll clock accepts).game.players.map Player.wsi :=
      List.mem_map.mpr ⟨p, hp, hw.symm⟩
    rw [sendAll_wsi] at hmem
    obtain ⟨q, hq, hqw⟩ := List.mem_map.mp hmem
    exact List.any_eq_true.mpr ⟨q, hq, by simp [hqw]⟩

theorem peerClose_moves (s : Sys ℝ) (w : Wsi) : Moves (.idle, s) (.idle, s.peerClose w) := by
  unfold peerClose
  split
  next => exact .refl
  next x h => exact .single (.close s x (List.findIdx?_eq_some_iff_getElem.mp h).1)

end Sys

/-- What the events say at a stage of the tick. -/
def Tidy : Stage → Game ℝ → Prop
  | .idle, _ => True
  | .started, g => g.cellEvents = {}
  | .collided, g => g.cellEvents.move = []
  | .updating _, g => g.cellEvents.move.Nodup ∧
      ∀ p ∈ g.cellEvents.move, p ∈ g.dynamicMap ∨ ∃ i, p ∈ g.cellsOf i

/-- The containers are well formed, no two players share a connection, every player has a
buffer, and the events are those of the stage. -/
structure Invariant (a : Stage) (s : Sys ℝ) : Prop where
  wellFormed : s.game.WellFormed
  distinct : (s.game.players.map Player.wsi).Nodup
  buffers : ∀ p ∈ s.game.players, p.wsMessage.region.isSome
  additions : s.game.NoAdditions
  tidy : Tidy a s.game

/-- What the connections see of a move: the players without their cells, and the trace. -/
inductive Shift (s s' : Sys ℝ) : Prop
  | quiet (hplayers : s'.game.players.map Player.core = s.game.players.map Player.core)
      (os : List (Obs ℝ)) (htrace : s'.trace = s.trace ++ os)
      (hquiet : ∀ o ∈ os, (∃ g : Game ℝ, g.WellFormed ∧ g.cellEvents = {} ∧
        o = .collided g g.collisionPhase) ∨ ∃ g, o = .ticked g)
  | erase (x : ℕ) (hx : x < s.game.players.length)
      (hplayers : s'.game.players = eraseAt Player.moves s.game.players x)
      (htrace : s'.trace = s.trace ++ [.erased s.game x])
  | update (i : ℕ) (p : Player ℝ) (hp : s.game.players[i]? = some p)
      (hplayers : s'.game.players.map Player.core = (s.game.players.map Player.core).set i
        (s.game.updatePlayer i p).finished.player.core)
      (htrace : s'.trace = s.trace ++ [.updated (s.game.updatePlayer i p), .requested p.wsi])
  | write (i : ℕ) (p : Player ℝ) (clock : ℝ) (hp : s.game.players[i]? = some p)
      (hcan : p.canSend clock = true) (hpending : p.wsMessage.pending ≠ [])
      (hplayers : s'.game.players = s.game.players.set i { p with
        wsMessage := { p.wsMessage with ack := false }.clear, sendTime := clock })
      (htrace : s'.trace = s.trace ++ [.wrote p.wsi clock p.wsMessage.pending])
  | join (p : Player ℝ) (hwsi : ∀ q ∈ s.game.players, p.wsi ≠ q.wsi)
      (hsend : p.sendTime = 0) (hmessage : p.wsMessage = .new) (hhistory : p.cellHistory = [])
      (hblocks : p.blocks = Player.viewBlocks p.topLeft p.bottomRight)
      (hsplit : p.doSplit = false) (hfeed : p.doFeed = false)
      (hplayers : s'.game.players = emplaceBack Player.moves s.game.capacity s.game.players p)
      (htrace : s'.trace = s.trace ++ [.joined p s.game s'.game])
  | receive (w : Wsi) (packet : List Byte)
      (hplayers : s'.game.players = s.game.players.map (Player.received w packet))
      (os : List (Obs ℝ)) (htrace : s'.trace = s.trace ++ .received w packet :: os)
      (hquiet : ∀ o ∈ os, ∃ w, o = .requested w)

theorem Shift.trace_extends {s s' : Sys ℝ} (h : Shift s s') : ∃ os, s'.trace = s.trace ++ os := by
  cases h with
  | quiet hplayers os htrace hquiet => exact ⟨os, htrace⟩
  | erase x hx hplayers htrace => exact ⟨_, htrace⟩
  | update i p hp hplayers htrace => exact ⟨_, htrace⟩
  | write i p clock hp hcan hpending hplayers htrace => exact ⟨_, htrace⟩
  | join p hwsi hsend hmessage hhistory hblocks hsplit hfeed hplayers htrace => exact ⟨_, htrace⟩
  | receive w packet hplayers os htrace hquiet => exact ⟨_, htrace⟩

theorem Move.shift {a b : Stage} {s s' : Sys ℝ} (h : Move (a, s) (b, s')) (hi : Invariant a s) :
    Shift s s' := by
  cases h with
  | begin _ clock =>
    refine .quiet ?_ [] (List.append_nil _).symm fun o ho => by cases ho
    exact congrArg (List.map Player.core)
      (Game.updateDynamic_motion (s.game.beginTick clock) _).players
  | kick _ x hx => exact .erase x hx rfl rfl
  | collide _ =>
    refine .quiet ?_ [.collided s.game s.game.collisionPhase] rfl fun o ho => ?_
    · exact ((Game.collisionPhase_leads s.game).frame hi.wellFormed).core
    · exact Or.inl ⟨s.game, hi.wellFormed, hi.tidy, List.mem_singleton.mp ho⟩
  | drive _ dt =>
    refine .quiet ?_ [] (List.append_nil _).symm fun o ho => by cases ho
    exact congrArg (List.map Player.core) (Game.drive_motion s.game dt).players
  | update _ n p hp =>
    unfold Sys.updateAt
    rw [hp]
    exact .update n p hp (Game.after_players hi.wellFormed hp) rfl
  | replay _ n hn =>
    refine .quiet ?_ [.ticked s.game.parseEvents] rfl fun o ho => ?_
    · have hrest := (Game.parseEvents_prunes hi.additions).rest
      show s.game.parseEvents.players.map Player.core = _
      rw [hrest]
    · exact Or.inr ⟨_, List.mem_singleton.mp ho⟩
  | send _ clock accepts i =>
    rcases Sys.sendAt_cases s clock accepts i with h | ⟨p, hp, hcan, hpending, h⟩
    · rw [h]
      exact .quiet rfl [] (List.append_nil _).symm fun o ho => by cases ho
    · rw [h]
      exact .write i p clock hp hcan hpending rfl rfl
  | join _ w grown hw =>
    obtain ⟨h1, -, h3, h4, h5, h6, h7, h8⟩ := Game.newPlayer_player s.game w
    exact .join (s.game.newPlayer w).1 (fun q hq => by rw [h1]; exact hw q hq) h5 h7 h6 h8 h3 h4
      rfl rfl
  | receive _ w packet beyond =>
    unfold Sys.receive
    dsimp only
    split_ifs with hlen
    · have hnil : packet = [] := List.eq_nil_of_length_eq_zero (by omega)
      refine .receive w packet ?_ [] rfl fun o ho => by cases ho
      have hfix : ∀ p : Player ℝ, p.received w packet = p := fun p => if_neg fun h => h.2 hnil
      show s.game.players = _
      simp [funext hfix]
    · have hne : packet ≠ [] := fun h => hlen (by rw [h]; decide)
      refine .receive w packet (Game.receiveAll_spec hi.wellFormed hne).2 [.requested w] ?_
        fun o ho => ⟨w, List.mem_singleton.mp ho⟩
      simp [Sys.observe]
  | close _ x hx => exact .erase x hx rfl rfl

theorem carried_of_flags {β : Type} (carry : Player ℝ → β)
    (h : ∀ (p : Player ℝ) (a b : Bool), carry { p with doSplit := a, doFeed := b } = carry p) :
    Carried Player.moves carry := ⟨fun p => h p _ _, fun _ next => h next _ _⟩

theorem wsi_carried : Carried Player.moves (α := Player ℝ) Player.wsi :=
  carried_of_flags _ fun _ _ _ => rfl

theorem message_carried : Carried Player.moves (α := Player ℝ) Player.wsMessage :=
  carried_of_flags _ fun _ _ _ => rfl

theorem map_of_core {β : Type} {f : Player ℝ → β} (hf : ∀ p, f p.core = f p)
    {ps ps' : List (Player ℝ)} (h : ps'.map Player.core = ps.map Player.core) :
    ps'.map f = ps.map f := by
  have hmap : ∀ l : List (Player ℝ), l.map f = (l.map Player.core).map f := fun l => by
    rw [List.map_map]
    exact List.map_congr_left fun p _ => (hf p).symm
  rw [hmap, hmap ps, h]

theorem map_of_core_set {β : Type} {f : Player ℝ → β} (hf : ∀ p, f p.core = f p)
    {ps ps' : List (Player ℝ)} {i : ℕ} {q : Player ℝ}
    (h : ps'.map Player.core = (ps.map Player.core).set i q.core) :
    ps'.map f = (ps.map f).set i (f q) := by
  have hmap : ∀ l : List (Player ℝ), l.map f = (l.map Player.core).map f := fun l => by
    rw [List.map_map]
    exact List.map_congr_left fun p _ => (hf p).symm
  rw [hmap, h, List.map_set, hf, ← hmap]

theorem map_set_same {β : Type} {f : Player ℝ → β} {ps : List (Player ℝ)} {i : ℕ}
    {p q : Player ℝ} (hp : ps[i]? = some p) (h : f q = f p) : (ps.map f).set i (f q) = ps.map f := by
  apply List.ext_getElem?
  intro n
  by_cases hn : i = n
  · subst hn
    rw [List.getElem?_set_self (by simpa using Game.getElem?_lt hp), List.getElem?_map, hp, h]
    rfl
  · rw [List.getElem?_set_ne hn]

theorem received_wsi (w : Wsi) (packet : List Byte) (p : Player ℝ) :
    (p.received w packet).wsi = p.wsi := by
  unfold Player.received
  split_ifs <;> rfl

theorem received_region (w : Wsi) (packet : List Byte) (p : Player ℝ) :
    (p.received w packet).wsMessage.region = p.wsMessage.region := by
  unfold Player.received
  split_ifs <;> rfl

theorem Shift.distinct {a : Stage} {s s' : Sys ℝ} (h : Shift s s') (hi : Invariant a s) :
    (s'.game.players.map Player.wsi).Nodup := by
  cases h with
  | quiet hplayers os htrace hquiet =>
    rw [map_of_core (fun _ => rfl) hplayers]
    exact hi.distinct
  | erase x hx hplayers htrace =>
    rw [hplayers, eraseAt_carried wsi_carried]
    exact hi.distinct.sublist (List.eraseIdx_sublist _ _)
  | update i p hp hplayers htrace =>
    rw [map_of_core_set (f := Player.wsi) (fun _ => rfl) hplayers,
      map_set_same hp (Game.finished_player hi.wellFormed hp).1]
    exact hi.distinct
  | write i p clock hp hcan hpending hplayers htrace =>
    rw [hplayers, List.map_set, map_set_same hp rfl]
    exact hi.distinct
  | join p hwsi hsend hmessage hhistory hblocks hsplit hfeed hplayers htrace =>
    rw [hplayers, emplaceBack_carried wsi_carried]
    refine List.nodup_append.mpr ⟨hi.distinct, List.nodup_singleton _, ?_⟩
    intro a ha b hb hab
    obtain ⟨q, hq, hqa⟩ := List.mem_map.mp ha
    rw [List.mem_singleton.mp hb] at hab
    exact hwsi q hq (hab.symm.trans hqa.symm)
  | receive w packet hplayers os htrace hquiet =>
    rw [hplayers, List.map_map]
    have hf : Player.wsi ∘ Player.received w packet = Player.wsi :=
      funext (received_wsi w packet)
    rw [hf]
    exact hi.distinct

theorem Shift.messages {P : Message → Prop} (hnew : P .new)
    (happend : ∀ m (ms : List (Msg ℝ)), P m → P (m.appendAll ms))
    (hsent : ∀ m, P m → P ({ m with ack := false } : Message).clear)
    (hack : ∀ m, P m → P m.acknowledge) {a : Stage} {s s' : Sys ℝ} (h : Shift s s')
    (hi : Invariant a s) (hp : ∀ p ∈ s.game.players, P p.wsMessage) :
    ∀ p ∈ s'.game.players, P p.wsMessage := by
  have hmap : ∀ ps : List (Player ℝ), (∀ p ∈ ps, P p.wsMessage) ↔
      ∀ m ∈ ps.map Player.wsMessage, P m := fun ps =>
    (List.forall_mem_map (f := Player.wsMessage) (P := P)).symm
  have hmessages := (hmap _).mp hp
  rw [hmap]
  cases h with
  | quiet hplayers os htrace hquiet =>
    rw [map_of_core (fun _ => rfl) hplayers]
    exact hmessages
  | erase x hx hplayers htrace =>
    rw [hplayers, eraseAt_carried message_carried]
    exact fun m hm => hmessages m ((List.eraseIdx_sublist _ _).subset hm)
  | update i p hget hplayers htrace =>
    rw [map_of_core_set (f := Player.wsMessage) (fun _ => rfl) hplayers]
    intro m hm
    rcases List.mem_or_eq_of_mem_set hm with hm | hm
    · exact hmessages m hm
    · rw [hm, (Game.finished_player hi.wellFormed hget).2.2.2.2.2]
      exact happend _ _ (hp p (List.mem_of_getElem? hget))
  | write i p clock hget hcan hpending hplayers htrace =>
    rw [hplayers, List.map_set]
    intro m hm
    rcases List.mem_or_eq_of_mem_set hm with hm | hm
    · exact hmessages m hm
    · rw [hm]
      exact hsent _ (hp p (List.mem_of_getElem? hget))
  | join p hwsi hsend hmessage hhistory hblocks hsplit hfeed hplayers htrace =>
    rw [hplayers, emplaceBack_carried message_carried]
    intro m hm
    rcases List.mem_append.mp hm with hm | hm
    · exact hmessages m hm
    · rw [List.mem_singleton.mp hm, hmessage]
      exact hnew
  | receive w packet hplayers os htrace hquiet =>
    rw [hplayers]
    intro m hm
    obtain ⟨q, hq, rfl⟩ := List.mem_map.mp hm
    obtain ⟨p, hmem, rfl⟩ := List.mem_map.mp hq
    unfold Player.received
    split_ifs
    · exact hack _ (hp p hmem)
    · exact hp p hmem

theorem Shift.buffers {a : Stage} {s s' : Sys ℝ} (h : Shift s s') (hi : Invariant a s) :
    ∀ p ∈ s'.game.players, p.wsMessage.region.isSome :=
  h.messages (P := fun m => m.region.isSome) rfl
    (fun m ms hm => by rwa [Message.appendAll_isSome])
    (fun m hm => by simpa [Message.clear] using hm) (fun _ hm => hm) hi hi.buffers

theorem Move.wellFormed {a b : Stage} {s s' : Sys ℝ} (h : Move (a, s) (b, s'))
    (hi : Invariant a s) : s'.game.WellFormed := by
  have hw := hi.wellFormed
  cases h with
  | begin _ clock =>
    refine Game.updateDynamic_wellFormed ?_ _
    exact hw.of_cellsOf rfl rfl (List.Subset.refl _) rfl rfl fun _ => rfl
  | kick _ x hx => exact Game.erasePlayer_wellFormed hw x
  | collide _ => exact (Game.collisionPhase_leads s.game).wellFormed hw
  | drive _ dt => exact Game.drive_wellFormed hw dt
  | update _ n p hp =>
    unfold Sys.updateAt
    rw [hp]
    exact Game.after_wellFormed hw hp
  | replay _ n hn => exact hw.prunes (Game.parseEvents_prunes hi.additions)
  | send _ clock accepts i =>
    rcases Sys.sendAt_cases s clock accepts i with h | ⟨p, hp, -, -, h⟩
    · rw [h]
      exact hw
    · rw [h]
      refine hw.of_cellsOf rfl rfl (List.Subset.refl _) rfl rfl fun j => ?_
      rw [Game.cellsOf_eq_map, Game.cellsOf_eq_map]
      show ((List.map Player.cells (s.game.players.set i _))[j]?).getD [] = _
      rw [List.map_set, map_set_same hp rfl]
  | join _ w grown hw' => exact Game.join_wellFormed hw w grown
  | receive _ w packet beyond =>
    unfold Sys.receive
    dsimp only
    split_ifs with hlen
    · exact hw
    · exact (Game.receiveAll_spec hw fun h => hlen (by rw [h]; decide)).1
  | close _ x hx => exact Game.erasePlayer_wellFormed hw x

theorem Game.mouse_events (g : Game ℝ) (cells : List CellPtr) (m : Vec2 ℝ) :
    (g.mouse cells m).cellEvents = g.cellEvents := by
  unfold Game.mouse
  induction cells generalizing g with
  | nil => rfl
  | cons c cells ih => exact ih _

theorem Game.receiveAll_events (g : Game ℝ) (w : Wsi) (packet : List Byte) (beyond : ℕ → Byte) :
    (g.receiveAll w packet beyond).cellEvents = g.cellEvents := by
  unfold Game.receiveAll
  induction List.range g.players.length generalizing g with
  | nil => rfl
  | cons i is ih =>
    rw [List.foldl_cons, ih]
    unfold Game.receiveAt
    rcases g.players[i]? with - | p
    · rfl
    · dsimp only
      split_ifs
      · unfold Game.receivePlayer
        dsimp only
        split_ifs
        · exact Game.mouse_events _ _ _
        all_goals rfl
      · rfl

theorem Move.additions {a b : Stage} {s s' : Sys ℝ} (h : Move (a, s) (b, s'))
    (hi : Invariant a s) : s'.game.NoAdditions := by
  have hw := hi.wellFormed
  cases h with
  | begin _ clock =>
    have hm := Game.updateDynamic_motion (s.game.beginTick clock) (clock - s.game.currentTime)
    exact ⟨hm.addStatic, hm.addDynamic⟩
  | kick _ x hx => exact hi.additions
  | collide _ =>
    have hf := (Game.collisionPhase_leads s.game).frame hw
    exact ⟨hf.addStatic.trans hi.additions.1, hf.addDynamic.trans hi.additions.2⟩
  | drive _ dt =>
    have hm := Game.drive_motion s.game dt
    exact ⟨hm.addStatic.trans hi.additions.1, hm.addDynamic.trans hi.additions.2⟩
  | update _ n p hp =>
    unfold Sys.updateAt
    rw [hp]
    have hd := (Game.commands_spec hw hp).2.1
    exact ⟨hd.addStatic.trans hi.additions.1, hd.addDynamic.trans hi.additions.2⟩
  | replay _ n hn =>
    have hrest := (Game.parseEvents_prunes hi.additions).rest
    have hevents : s.game.parseEvents.cellEvents = s.game.cellEvents := by rw [hrest]
    show s.game.parseEvents.NoAdditions
    unfold Game.NoAdditions
    rw [hevents]
    exact hi.additions
  | send _ clock accepts i =>
    rcases Sys.sendAt_cases s clock accepts i with h | ⟨p, hp, -, -, h⟩
    · rw [h]
      exact hi.additions
    · rw [h]
      exact hi.additions
  | join _ w grown hw' => exact hi.additions
  | receive _ w packet beyond =>
    unfold Sys.receive
    dsimp only
    split_ifs with hlen
    · exact hi.additions
    · show (s.game.receiveAll w packet beyond).NoAdditions
      unfold Game.NoAdditions
      rw [Game.receiveAll_events]
      exact hi.additions
  | close _ x hx => exact hi.additions

theorem Move.tidy {a b : Stage} {s s' : Sys ℝ} (h : Move (a, s) (b, s')) (hi : Invariant a s) :
    Tidy b s'.game := by
  have hw := hi.wellFormed
  cases h with
  | begin _ clock => exact Game.updateDynamic_events (s.game.beginTick clock) _
  | kick _ x hx => exact hi.tidy
  | collide _ =>
    have hevents : s.game.cellEvents = {} := hi.tidy
    have hf := (Game.collisionPhase_leads s.game).frame hw
    exact hf.move.trans (by rw [hevents])
  | drive _ dt =>
    have hmove : s.game.cellEvents.move = [] := hi.tidy
    have hm := Game.drive_motion s.game dt
    have hdriven := Game.drive_move s.game dt
    rw [hmove, List.nil_append] at hdriven
    refine ⟨?_, fun p hp => ?_⟩
    · show (s.game.drive dt).cellEvents.move.Nodup
      rw [hdriven]
      exact hw.moved_nodup
    · have hp' : p ∈ (s.game.drive dt).cellEvents.move := hp
      rw [hdriven] at hp'
      rcases List.mem_append.mp hp' with hp' | hp'
      · obtain ⟨i, hp'⟩ := Game.mem_playerCells.mp hp'
        exact Or.inr ⟨i, by rwa [Game.cellsOf_congr hm.players i]⟩
      · exact Or.inl (by rwa [hm.dynamic])
  | update _ n p hp =>
    unfold Sys.updateAt
    rw [hp]
    have hd := (Game.commands_spec hw hp).2.1
    have hg := Game.commands_grows s.game n p
    obtain ⟨hnodup, hmem⟩ := hi.tidy
    refine ⟨?_, fun q hq => ?_⟩
    · show (s.game.commands n p).cellEvents.move.Nodup
      rw [hd.move]
      exact hnodup
    · have hq' : q ∈ (s.game.commands n p).cellEvents.move := hq
      rw [hd.move] at hq'
      refine (hmem q hq').imp (fun h => hg.dynamic h) ?_
      rintro ⟨i, h⟩
      exact ⟨i, by rw [Game.after_cellsOf hw hp]; exact hg.cells i h⟩
  | replay _ n hn => trivial
  | send _ clock accepts i => trivial
  | join _ w grown hw' => trivial
  | receive _ w packet beyond => trivial
  | close _ x hx => trivial

theorem Move.invariant {a b : Stage} {s s' : Sys ℝ} (h : Move (a, s) (b, s'))
    (hi : Invariant a s) : Invariant b s' :=
  ⟨h.wellFormed hi, (h.shift hi).distinct hi, (h.shift hi).buffers hi, h.additions hi, h.tidy hi⟩

theorem Moves.keeps {P : Stage → Sys ℝ → Prop}
    (hmove : ∀ a s b s', Invariant a s → Move (a, s) (b, s') → P a s → P b s') {x y : Stage × Sys ℝ}
    (h : Moves x y) (hi : Invariant x.1 x.2) (hx : P x.1 x.2) :
    Invariant y.1 y.2 ∧ P y.1 y.2 := by
  induction h with
  | refl => exact ⟨hi, hx⟩
  | tail h hm ih => exact ⟨hm.invariant ih.1, hmove _ _ _ _ ih.1 hm ih.2⟩

theorem Moves.invariant {x y : Stage × Sys ℝ} (h : Moves x y) (hi : Invariant x.1 x.2) :
    Invariant y.1 y.2 :=
  (Moves.keeps (P := fun _ _ => True) (fun _ _ _ _ _ _ _ => trivial) h hi trivial).1

theorem Moves.trace_extends {x y : Stage × Sys ℝ} (h : Moves x y) (hi : Invariant x.1 x.2) :
    x.2.trace <+: y.2.trace := by
  refine (Moves.keeps (P := fun _ s => x.2.trace <+: s.trace) (fun a s b s' hi hm hs => ?_) h hi
    List.prefix_rfl).2
  obtain ⟨os, hos⟩ := (hm.shift hi).trace_extends
  exact hs.trans ⟨os, hos.symm⟩

theorem init_invariant (rand : ℕ → Fin (randMax + 1)) (stale : CellPtr → ℝ) :
    Invariant .idle (Sys.init rand stale) := by
  have h := Game.mapInit_started rand stale
  refine ⟨h.wellFormed, ?_, ?_, ?_, trivial⟩
  · show (List.map Player.wsi (Game.empty rand stale).mapInit.players).Nodup
    rw [h.players]
    exact List.nodup_nil
  · intro p hp
    have hp' : p ∈ (Game.empty rand stale).mapInit.players := hp
    rw [h.players] at hp'
    cases hp'
  · show (Game.empty rand stale).mapInit.NoAdditions
    unfold Game.NoAdditions
    rw [h.events]
    exact ⟨rfl, rfl⟩

namespace Sys

theorem updateAt_length {s : Sys ℝ} (hw : s.game.WellFormed) {n : ℕ} {p : Player ℝ}
    (hp : s.game.players[n]? = some p) :
    (s.updateAt n).game.players.length = s.game.players.length := by
  have hlen := congrArg List.length (Game.after_players hw hp)
  rw [List.length_set, List.length_map, List.length_map] at hlen
  unfold updateAt
  rw [hp]
  exact hlen

theorem updateAll_moves {s : Sys ℝ} (hi : Invariant (.updating 0) s) :
    Moves (.updating 0, s) (.updating s.game.players.length, s.updateAll) ∧
    s.updateAll.game.players.length = s.game.players.length := by
  have hloop : ∀ n ≤ s.game.players.length,
      Moves (.updating 0, s) (.updating n, (List.range n).foldl updateAt s) ∧
      ((List.range n).foldl updateAt s).game.players.length = s.game.players.length := by
    intro n hn
    induction n with
    | zero => exact ⟨.refl, rfl⟩
    | succ n ih =>
      obtain ⟨hmoves, hlen⟩ := ih (by omega)
      rw [List.range_succ, List.foldl_append]
      obtain ⟨p, hp⟩ : ∃ p, ((List.range n).foldl updateAt s).game.players[n]? = some p :=
        ⟨_, List.getElem?_eq_getElem (by omega)⟩
      have hmove := Move.update _ n p hp
      refine ⟨hmoves.tail hmove, ?_⟩
      rw [← hlen]
      exact updateAt_length (Moves.invariant hmoves hi).wellFormed hp
  exact hloop _ le_rfl

theorem tick_moves {s : Sys ℝ} (hi : Invariant .idle s) (clock : ℝ) :
    Moves (.idle, s) (.idle, s.tick clock) := by
  have hmoved := tickMoved_moves s clock
  obtain ⟨hupdates, hlen⟩ := updateAll_moves (Moves.invariant hmoved hi)
  have hmoves := hmoved.trans hupdates
  rw [tick_eq]
  exact hmoves.tail (Move.replay (s.tickMoved clock).updateAll _ hlen.symm)

theorem step_moves {s : Sys ℝ} (hi : Invariant .idle s) (e : Event ℝ) :
    Moves (.idle, s) (.idle, s.step e) := by
  cases e with
  | tick clock => exact tick_moves hi clock
  | writeable w clock accepts grown => exact writeable_moves s w clock accepts grown
  | receive w packet beyond => exact .single (.receive s w packet beyond)
  | peerClose w => exact peerClose_moves s w
  | other => exact .refl

theorem steps_moves {s : Sys ℝ} (hi : Invariant .idle s) (es : List (Event ℝ)) :
    Moves (.idle, s) (.idle, es.foldl Sys.step s) := by
  induction es generalizing s with
  | nil => exact .refl
  | cons e es ih =>
    have h := step_moves hi e
    exact h.trans (ih (Moves.invariant h hi))

end Sys

theorem Run.induction {P : Stage → Sys ℝ → Prop}
    (hinit : ∀ rand stale, P .idle (Sys.init rand stale))
    (hmove : ∀ a s b s', Invariant a s → Move (a, s) (b, s') → P a s → P b s') (r : Run ℝ) :
    P .idle r.final :=
  (Moves.keeps hmove (Sys.steps_moves (init_invariant r.rand r.stale) r.events)
    (init_invariant r.rand r.stale) (hinit r.rand r.stale)).2

theorem Run.induction_shift {P : Sys ℝ → Prop} (hinit : ∀ rand stale, P (Sys.init rand stale))
    (hmove : ∀ a s s', Invariant a s → Shift s s' → P s → P s') (r : Run ℝ) : P r.final :=
  Run.induction (P := fun _ s => P s) hinit
    (fun a s _ s' hi hm hs => hmove a s s' hi (hm.shift hi) hs) r

theorem Run.invariant (r : Run ℝ) : Invariant .idle r.final :=
  Moves.invariant (Sys.steps_moves (init_invariant r.rand r.stale) r.events)
    (init_invariant r.rand r.stale)

/-- A property of the updates in a trace, each seen with the entries before it. -/
def AtUpdates (Q : List (Obs ℝ) → UpdateRecord ℝ → Prop) (pre : List (Obs ℝ)) : Obs ℝ → Prop
  | .updated u => Q pre u
  | _ => True

theorem Move.atUpdates {Q : List (Obs ℝ) → UpdateRecord ℝ → Prop} {a b : Stage} {s s' : Sys ℝ}
    (h : Move (a, s) (b, s')) (ht : Always (AtUpdates Q) s.trace)
    (hupdate : ∀ n p, a = .updating n → s.game.players[n]? = some p →
      Q s.trace (s.game.updatePlayer n p)) : Always (AtUpdates Q) s'.trace := by
  cases h with
  | begin _ clock => exact ht
  | kick _ x hx => exact always_snoc.mpr ⟨ht, trivial⟩
  | collide _ => exact always_snoc.mpr ⟨ht, trivial⟩
  | drive _ dt => exact ht
  | update _ n p hp =>
    unfold Sys.updateAt
    rw [hp]
    have hcons : s.trace ++ [Obs.updated (s.game.updatePlayer n p), .requested p.wsi] =
        (s.trace ++ [.updated (s.game.updatePlayer n p)]) ++ [.requested p.wsi] := by simp
    show Always (AtUpdates Q) (s.trace ++ [.updated _, .requested p.wsi])
    rw [hcons]
    exact always_snoc.mpr ⟨always_snoc.mpr ⟨ht, hupdate n p rfl hp⟩, trivial⟩
  | replay _ n hn => exact always_snoc.mpr ⟨ht, trivial⟩
  | send _ clock accepts i =>
    rcases Sys.sendAt_cases s clock accepts i with h | ⟨p, -, -, -, h⟩
    · rw [h]
      exact ht
    · rw [h]
      exact always_snoc.mpr ⟨ht, trivial⟩
  | join _ w grown hw => exact always_snoc.mpr ⟨ht, trivial⟩
  | receive _ w packet beyond =>
    unfold Sys.receive
    dsimp only
    split_ifs
    · exact always_snoc.mpr ⟨ht, trivial⟩
    · exact always_snoc.mpr ⟨always_snoc.mpr ⟨ht, trivial⟩, trivial⟩
  | close _ x hx => exact always_snoc.mpr ⟨ht, trivial⟩

theorem Run.induction_updates {P : Stage → Sys ℝ → Prop}
    {Q : List (Obs ℝ) → UpdateRecord ℝ → Prop}
    (hinit : ∀ rand stale, P .idle (Sys.init rand stale))
    (hmove : ∀ a s b s', Invariant a s → Move (a, s) (b, s') → P a s → P b s')
    (hupdate : ∀ n s p, Invariant (.updating n) s → P (.updating n) s →
      s.game.players[n]? = some p → Q s.trace (s.game.updatePlayer n p)) (r : Run ℝ) :
    Always (AtUpdates Q) r.final.trace := by
  refine (Run.induction (P := fun a s => P a s ∧ Always (AtUpdates Q) s.trace)
    (fun rand stale => ⟨hinit rand stale, always_nil _⟩) (fun a s b s' hi hm hs => ?_) r).2
  exact ⟨hmove a s b s' hi hm hs.1, hm.atUpdates hs.2 fun n p ha hp => by
    subst ha
    exact hupdate n s p hi hs.1 hp⟩

/-- In every run no player has more than sixteen cells, no `push_back` has made more, and
`16 - Cells.size()` has never been computed of more. -/
theorem sixteen_cells (r : Run ℝ) :
    (∀ p ∈ r.final.game.players, p.cells.length ≤ 16) ∧
    (∀ count, .pushed count ∈ r.final.game.calls → count ≤ 16) ∧
    ∀ count, .slots count ∈ r.final.game.calls →
      count ≤ 16 ∧ Game.subSize 16 count = 16 - count := by
  have hw := r.invariant.wellFormed
  refine ⟨fun p hp => ?_, fun count h => hw.capped _ h, fun count h => ?_⟩
  · obtain ⟨i, hi⟩ := List.mem_iff_getElem?.mp hp
    have hcap := hw.cap i
    simpa only [Game.cellsOf, hi] using hcap
  · have hcount : count ≤ 16 := hw.capped _ h
    exact ⟨hcount, Game.subSize_of_le hcount⟩

end Agar
