import Agar.Rounds

/-! The writes of the `SERVER_WRITEABLE` handler: which connections it calls `lws_write` on, and what
becomes of the players it does not write to. -/

namespace Agar
open MovedVector Trace

namespace Player
variable {K : Type} [Field K] [LinearOrder K]

/-- `Player::Send` gets as far as `lws_write`. -/
def waiting (clock : K) (p : Player K) : Bool :=
  p.canSend clock ∧ p.wsMessage.pending.length ≠ 0

theorem send_of_not_waiting {p : Player K} {clock : K} (h : p.waiting clock = false)
    (accepted : Bool) : p.send clock accepted = (false, p) := by
  unfold send
  rw [if_neg]
  rintro ⟨hcan, haccepted⟩
  have hlen : p.wsMessage.pending.length = 0 := by
    by_contra hne
    simp [waiting, hcan, hne] at h
  simp [Message.send, hlen] at haccepted

end Player

namespace Sys

/-- The connection `lws_write` is called on in a round of the loop of the handler. -/
def writesAt {K : Type} [Field K] [LinearOrder K] (s : Sys K) (clock : K) (i : ℕ) : List Wsi :=
  match s.game.players[i]? with
  | none => []
  | some p => if p.waiting clock then [p.wsi] else []

/-- The connections `lws_write` is called on by the handler, in order. -/
def writes {K : Type} [Field K] [LinearOrder K] (s : Sys K) (clock : K) (accepts : ℕ → Bool) :
    List Wsi :=
  (List.range s.game.players.length).flatMap fun n =>
    ((List.range n).foldl (sendAt clock accepts) s).writesAt clock n

theorem sendAt_get (s : Sys ℝ) (clock : ℝ) (accepts : ℕ → Bool) (i j : ℕ) :
    (s.sendAt clock accepts i).game.players[j]? = (s.game.players[j]?).map fun p =>
      if j = i then (p.send clock (accepts i)).2 else p := by
  unfold sendAt
  rcases hp : s.game.players[i]? with - | p
  · dsimp only
    by_cases hj : j = i
    · rw [hj, hp]
      rfl
    · simp [hj]
  · dsimp only
    have hplayers : ∀ o : Obs ℝ, (if (p.send clock (accepts i)).1 then s.observe o else s).game =
        s.game := fun o => by split_ifs <;> rfl
    rw [hplayers]
    show (s.game.players.set i _)[j]? = _
    by_cases hj : j = i
    · subst hj
      rw [List.getElem?_set_self (Game.getElem?_lt hp), hp]
      simp
    · rw [List.getElem?_set_ne (Ne.symm hj)]
      simp [hj]

theorem sends_get (s : Sys ℝ) (clock : ℝ) (accepts : ℕ → Bool) (n j : ℕ) :
    ((List.range n).foldl (sendAt clock accepts) s).game.players[j]? =
      (s.game.players[j]?).map fun p => if j < n then (p.send clock (accepts j)).2 else p := by
  induction n with
  | zero => simp
  | succ n ih =>
    rw [List.range_succ, List.foldl_append, List.foldl_cons, List.foldl_nil, sendAt_get, ih]
    rcases s.game.players[j]? with - | p
    · rfl
    · rcases Nat.lt_trichotomy j n with h | h | h
      · simp [h.ne, h, h.trans (Nat.lt_succ_self n)]
      · simp [h]
      · simp [h.ne', not_lt.mpr h.le, not_lt.mpr (Nat.succ_le_of_lt h)]

theorem flatMap_range_get {α β : Type} (l : List α) (f : α → List β) :
    ((List.range l.length).flatMap fun n => match l[n]? with
      | none => []
      | some a => f a) = l.flatMap f := by
  induction l with
  | nil => rfl
  | cons a l ih =>
    rw [List.length_cons, List.range_succ_eq_map, List.flatMap_cons, List.flatMap_map,
      List.flatMap_cons, ← ih]
    rfl

theorem writes_eq (s : Sys ℝ) (clock : ℝ) (accepts : ℕ → Bool) : s.writes clock accepts =
    s.game.players.flatMap fun p => if p.waiting clock then [p.wsi] else [] := by
  rw [← flatMap_range_get s.game.players]
  unfold writes writesAt
  refine congrArg (fun f => List.flatMap f (List.range s.game.players.length)) (funext fun n => ?_)
  rw [sends_get]
  rcases s.game.players[n]? with - | p
  · rfl
  · simp

theorem mem_writes {s : Sys ℝ} {clock : ℝ} {accepts : ℕ → Bool} {w : Wsi} :
    w ∈ s.writes clock accepts ↔ ∃ p ∈ s.game.players, p.waiting clock = true ∧ p.wsi = w := by
  rw [writes_eq, List.mem_flatMap]
  refine exists_congr fun p => and_congr_right fun _ => ?_
  by_cases h : p.waiting clock = true
  · simp [h, eq_comm]
  · simp [h]

theorem writes_length (s : Sys ℝ) (clock : ℝ) (accepts : ℕ → Bool) :
    (s.writes clock accepts).length = s.game.players.countP (Player.waiting clock) := by
  rw [writes_eq]
  induction s.game.players with
  | nil => rfl
  | cons p ps ih =>
    rw [List.flatMap_cons, List.length_append, ih, List.countP_cons]
    split_ifs <;> simp [add_comm]

/-- The handler writes at most once, on the connection it was called for, and leaves the messages
of the other players alone. -/
structure WritesOnly (s : Sys ℝ) (w : Wsi) (clock : ℝ) (accepts : ℕ → Bool) (grown : ℕ) : Prop where
  once : (s.writes clock accepts).length ≤ 1
  own : ∀ v ∈ s.writes clock accepts, v = w
  others : ∀ (i : ℕ) (p : Player ℝ), s.game.players[i]? = some p → p.wsi ≠ w →
    ∃ q : Player ℝ, (s.writeable w clock accepts grown).game.players[i]? = some q ∧
      q.wsMessage = p.wsMessage ∧ q.sendTime = p.sendTime

theorem writeable_get (s : Sys ℝ) (w : Wsi) (clock : ℝ) (accepts : ℕ → Bool) (grown : ℕ) {i : ℕ}
    {p : Player ℝ} (hp : s.game.players[i]? = some p) :
    ∃ q, (s.writeable w clock accepts grown).game.players[i]? = some q ∧
      q.wsMessage = (p.send clock (accepts i)).2.wsMessage ∧
      q.sendTime = (p.send clock (accepts i)).2.sendTime := by
  have hsent : (s.sendAll clock accepts).game.players[i]? = some (p.send clock (accepts i)).2 := by
    unfold sendAll
    rw [sends_get, hp, Option.map_some, if_pos (Game.getElem?_lt hp)]
  have hcarried : Carried Player.moves (α := Player ℝ) fun p => (p.wsMessage, p.sendTime) :=
    carried_of_flags _ fun _ _ _ => rfl
  unfold writeable
  dsimp only
  split_ifs with hfound
  · exact ⟨_, hsent, rfl, rfl⟩
  · have hmap := emplaceBack_carried hcarried (s.sendAll clock accepts).game.capacity
      (s.sendAll clock accepts).game.players ((s.sendAll clock accepts).game.newPlayer w).1
    have hget := congrArg (fun l => l[i]?) hmap
    rw [List.getElem?_append_left (by simpa using Game.getElem?_lt hsent), List.getElem?_map,
      List.getElem?_map, hsent, Option.map_some] at hget
    obtain ⟨q, hq, hqp⟩ := Option.map_eq_some_iff.mp hget
    exact ⟨q, hq, congrArg Prod.fst hqp, congrArg Prod.snd hqp⟩

/-- The handler keeps to its connection exactly when no other player has something to send now, and
its own at most once. -/
theorem writes_only (s : Sys ℝ) (w : Wsi) (clock : ℝ) (accepts : ℕ → Bool) (grown : ℕ) :
    s.WritesOnly w clock accepts grown ↔
      (∀ p ∈ s.game.players, p.waiting clock = true → p.wsi = w) ∧
        s.game.players.countP (Player.waiting clock) ≤ 1 := by
  constructor
  · intro h
    refine ⟨fun p hp hwaiting => h.own _ (mem_writes.mpr ⟨p, hp, hwaiting, rfl⟩), ?_⟩
    rw [← writes_length s clock accepts]
    exact h.once
  · rintro ⟨hown, honce⟩
    refine ⟨by rwa [writes_length], fun v hv => ?_, fun i p hp hne => ?_⟩
    · obtain ⟨p, hp, hwaiting, rfl⟩ := mem_writes.mp hv
      exact hown p hp hwaiting
    · have hwaiting : p.waiting clock = false := by
        by_contra h
        exact hne (hown p (List.mem_of_getElem? hp) (by simpa using h))
      have hget := writeable_get s w clock accepts grown hp
      rwa [Player.send_of_not_waiting hwaiting] at hget

end Sys

/-- One player, updated once. -/
def onePlayer (K : Type) [Field K] : Run K where
  rand := fun _ => 0
  stale := fun _ => 0
  events := [.writeable 0 0 (fun _ => true) 8, .tick 10]

theorem joined_waiting {s : Sys ℝ} (hi : Invariant .idle s) (hnone : s.game.players = []) :
    ∃ p ∈ ((s.step (.writeable 0 0 (fun _ => true) 8)).step (.tick 10)).game.players,
      p.wsi = 0 ∧ p.waiting 10 = true := by
  have hjoin : s.step (.writeable 0 0 (fun _ => true) 8) = s.join 0 8 :=
    Sys.writeable_of_new (by simp [hnone]) (by simp [hnone]) _ _ _
  have hi' : Invariant .idle (s.join 0 8) :=
    (Move.join s 0 8 (by simp [hnone])).invariant hi
  have hplayers := Sys.join_first hnone 0 8
  obtain ⟨hwsi, -, -, -, hsend, -, hmessage, -⟩ := Game.newPlayer_player s.game 0
  have hconnected : ∀ p ∈ (s.join 0 8).game.players, p.wsMessage.connected = true := by
    rw [hplayers]
    intro p hp
    rw [List.mem_singleton.mp hp, hmessage]
    exact Message.new_connected
  obtain ⟨q, hq, hqp, htick⟩ := Sys.tick_single hi' hconnected 10 (by rw [hplayers]; rfl)
  have hmoved := Moves.invariant (Sys.tickMoved_moves (s.join 0 8) 10) hi'
  obtain ⟨p, hp, hcore⟩ := List.map_eq_singleton_iff.mp htick
  have hfinished := Game.finished_player hmoved.wellFormed hq
  have hpwsi : p.wsi = 0 := by
    rw [show p.wsi = p.core.wsi from rfl, hcore]
    exact (hfinished.1.trans (congrArg Player.wsi hqp :)).trans hwsi
  have hpsend : p.sendTime = 0 := by
    rw [show p.sendTime = p.core.sendTime from rfl, hcore]
    exact (hfinished.2.2.2.2.1.trans (congrArg Player.sendTime hqp :)).trans hsend
  have hpending : p.wsMessage.pending ≠ [] := by
    rw [show p.wsMessage = p.core.wsMessage from rfl, hcore]
    exact Sys.updated_pending hmoved.wellFormed hq (hmoved.buffers q (List.mem_of_getElem? hq))
  rw [hjoin]
  refine ⟨p, ?_, hpwsi, ?_⟩
  · show p ∈ ((s.join 0 8).tick 10).game.players
    rw [hp]
    exact List.mem_singleton_self p
  · have hlen : p.wsMessage.pending.length ≠ 0 := fun h => hpending (List.eq_nil_of_length_eq_zero h)
    have hcan : p.canSend 10 = true := by
      unfold Player.canSend
      rw [hpsend]
      norm_num [timeoutAck]
    simp [Player.waiting, hcan, hlen]

/-- The first callback of connection 1 writes to connection 0. -/
theorem other_connection_written :
    ¬ (onePlayer ℝ).final.WritesOnly 1 10 (fun _ => true) 8 := by
  intro h
  obtain ⟨p, hp, hwsi, hwaiting⟩ := joined_waiting (init_invariant (fun _ => 0) fun _ => 0)
    (Game.mapInit_started _ _).players
  have hone := h.own p.wsi (Sys.mem_writes.mpr ⟨p, hp, hwaiting, rfl⟩)
  rw [hwsi] at hone
  exact absurd hone (by decide)

end Agar
