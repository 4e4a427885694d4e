import Agar.Reach

/-! The outgoing stream of a player: what `lws_write` has accepted and what still waits in the
buffer are the encodings of the messages appended since the player was created. -/

namespace Agar
open MovedVector Trace

namespace Obs
variable {K : Type}

/-- A player is created for the connection. -/
def joins (w : Wsi) : Obs K → Bool
  | .joined p _ _ => p.wsi = w
  | _ => false

/-- The bytes of the connection that `lws_write` accepts here. -/
def accepted (w : Wsi) : Obs K → List Byte
  | .wrote v _ packet => if v = w then packet else []
  | _ => []

/-- A packet of the connection is accepted. -/
def writes (w : Wsi) : Obs K → Bool
  | .wrote v _ _ => v = w
  | _ => false

theorem accepted_of_writes {w : Wsi} {o : Obs K} (h : o.writes w = false) : o.accepted w = [] := by
  cases o with
  | wrote v t packet => exact if_neg (by simpa [writes] using h)
  | _ => rfl

/-- The messages appended here for the player of the connection. -/
def appended (w : Wsi) : Obs K → List (Msg K)
  | .updated u => if u.player.wsi = w then u.finished.said else []
  | _ => []

end Obs

/-- The part of the trace in which the present player of the connection lives. -/
def life {K : Type} (w : Wsi) (tr : List (Obs K)) : List (Obs K) := since (Obs.joins w) tr

/-- The part of the trace since the last packet of the present player of the connection. -/
def waiting {K : Type} (w : Wsi) (tr : List (Obs K)) : List (Obs K) :=
  since (fun o => o.joins w || o.writes w) tr

/-- The bytes of the messages appended to the player of the connection in a part of the trace. -/
def encoded {K : Type} [Field K] [LinearOrder K] [FloorRing K] (w : Wsi) (os : List (Obs K)) :
    List Byte :=
  (os.flatMap (Obs.appended w)).flatMap Msg.encode

/-- The packets and the bytes in the buffer are the messages of a life, and the bytes in the buffer
those since the last packet. -/
structure Streams (tr : List (Obs ℝ)) (w : Wsi) (m : Message) : Prop where
  whole : (life w tr).flatMap (Obs.accepted w) ++ m.pending = encoded w (life w tr)
  rest : m.pending = encoded w (waiting w tr)

theorem Streams.append {tr os : List (Obs ℝ)} {w : Wsi} {m : Message} (h : Streams tr w m)
    (hos : ∀ o ∈ os, o.joins w = false ∧ o.writes w = false ∧ o.appended w = []) :
    Streams (tr ++ os) w m := by
  have hlife : life w (tr ++ os) = life w tr ++ os :=
    since_append_of_unmarked fun o ho => (hos o ho).1
  have hwaiting : waiting w (tr ++ os) = waiting w tr ++ os :=
    since_append_of_unmarked fun o ho => by rw [(hos o ho).1, (hos o ho).2.1]; rfl
  have haccepted : os.flatMap (Obs.accepted w) = [] :=
    List.flatMap_eq_nil_iff.mpr fun o ho => Obs.accepted_of_writes (hos o ho).2.1
  have happended : os.flatMap (Obs.appended w) = [] :=
    List.flatMap_eq_nil_iff.mpr fun o ho => (hos o ho).2.2
  constructor
  · rw [hlife, encoded, List.flatMap_append, List.flatMap_append, haccepted, happended,
      List.append_nil, List.append_nil]
    exact h.whole
  · rw [hwaiting, encoded, List.flatMap_append, happended, List.append_nil]
    exact h.rest

theorem clear_pending (m : Message) : m.clear.pending = [] := by
  unfold Message.clear Message.pending
  rcases m.region with - | r
  · rfl
  · exact AppendBuffer.window_reset r 0

theorem received_pending (w : Wsi) (packet : List Byte) (p : Player ℝ) :
    (p.received w packet).wsMessage.pending = p.wsMessage.pending := by
  unfold Message.pending
  rw [received_region]

theorem Streams.write {tr : List (Obs ℝ)} {w : Wsi} {m : Message} (clock : ℝ)
    (h : Streams tr w m) :
    Streams (tr ++ [.wrote w clock m.pending]) w { m with ack := false }.clear := by
  have hlife : life w (tr ++ [.wrote w clock m.pending]) =
      life w tr ++ [.wrote w clock m.pending] :=
    since_append_of_unmarked fun o ho => by rw [List.mem_singleton.mp ho]; rfl
  have hwaiting : waiting w (tr ++ [.wrote w clock m.pending]) = [] := by
    unfold waiting
    rw [since_snoc, if_pos (by simp [Obs.writes])]
  constructor
  · rw [hlife, encoded, List.flatMap_append, List.flatMap_append, clear_pending]
    simpa [Obs.accepted, Obs.appended, encoded] using h.whole
  · rw [hwaiting, clear_pending]
    rfl

theorem Streams.update {tr : List (Obs ℝ)} {m : Message} {u : UpdateRecord ℝ}
    (h : Streams tr u.player.wsi m) (hm : m.region.isSome) :
    Streams (tr ++ [.updated u, .requested u.player.wsi]) u.player.wsi
      (m.appendAll u.finished.said) := by
  have hjoins : ∀ o ∈ [Obs.updated u, .requested u.player.wsi],
      o.joins u.player.wsi = false ∧ o.writes u.player.wsi = false := fun o ho => by
    rcases List.mem_pair.mp ho with rfl | rfl <;> exact ⟨rfl, rfl⟩
  have hlife : life u.player.wsi (tr ++ [.updated u, .requested u.player.wsi]) =
      life u.player.wsi tr ++ [.updated u, .requested u.player.wsi] :=
    since_append_of_unmarked fun o ho => (hjoins o ho).1
  have hwaiting : waiting u.player.wsi (tr ++ [.updated u, .requested u.player.wsi]) =
      waiting u.player.wsi tr ++ [.updated u, .requested u.player.wsi] :=
    since_append_of_unmarked fun o ho => by rw [(hjoins o ho).1, (hjoins o ho).2]; rfl
  have hencoded : ∀ os, encoded u.player.wsi (os ++ [.updated u, .requested u.player.wsi]) =
      encoded u.player.wsi os ++ u.finished.said.flatMap Msg.encode := fun os => by
    simp [encoded, Obs.appended]
  constructor
  · rw [hlife, hencoded, ← h.whole, Message.appendAll_pending m _ hm, List.flatMap_append]
    simp [Obs.accepted]
  · rw [hwaiting, hencoded, ← h.rest, Message.appendAll_pending m _ hm]

theorem streams_joined (tr : List (Obs ℝ)) (p : Player ℝ) (before after : Game ℝ) :
    Streams (tr ++ [.joined p before after]) p.wsi .new := by
  have hlife : life p.wsi (tr ++ [.joined p before after]) = [] := by
    unfold life
    rw [since_snoc, if_pos (by simp [Obs.joins])]
  have hwaiting : waiting p.wsi (tr ++ [.joined p before after]) = [] := by
    unfold waiting
    rw [since_snoc, if_pos (by simp [Obs.joins])]
  constructor
  · rw [hlife]
    rfl
  · rw [hwaiting]
    rfl

theorem key_ne {α β : Type} {l : List α} {key : α → β} (h : (l.map key).Nodup) {i j : ℕ} {a b : α}
    (ha : l[i]? = some a) (hb : l[j]? = some b) (hij : i ≠ j) : key a ≠ key b := by
  intro hkey
  have hi : (l.map key)[i]? = some (key a) := by rw [List.getElem?_map, ha]; rfl
  have hj : (l.map key)[j]? = some (key a) := by rw [List.getElem?_map, hb, hkey]; rfl
  exact hij ((List.getElem?_inj (Game.getElem?_lt hi) h).mp (hi.trans hj.symm))

/-- The connection and the buffer of a player. -/
def Player.channel (p : Player ℝ) : Wsi × Message := (p.wsi, p.wsMessage)

theorem channel_carried : Carried Player.moves Player.channel := carried_of_flags _ fun _ _ _ => rfl

/-- For every player: the packets accepted for it since it was created, followed by the bytes
between `Data` and `Ptr`, are the encodings of the messages appended to it. -/
def AllStream (s : Sys ℝ) : Prop := ∀ p ∈ s.game.players,
  (life p.wsi s.trace).flatMap (Obs.accepted p.wsi) ++ p.wsMessage.pending =
    encoded p.wsi (life p.wsi s.trace)

/-- A packet is the encodings of the messages appended since the packet before it. -/
def WholeMessages (tr : List (Obs ℝ)) : Obs ℝ → Prop
  | .wrote w _ packet => packet = encoded w (waiting w tr)
  | _ => True

/-- Every channel streams. -/
def Streaming (s : Sys ℝ) : Prop :=
  ∀ c ∈ s.game.players.map Player.channel, Streams s.trace c.1 c.2

theorem Shift.streaming {a : Stage} {s s' : Sys ℝ} (h : Shift s s') (hi : Invariant a s) (hs : Streaming s) :
    Streaming s' := by
  unfold Streaming at hs ⊢
  cases h with
  | quiet hplayers os htrace hquiet =>
    rw [map_of_core (f := Player.channel) (fun _ => rfl) hplayers, htrace]
    refine fun c hc => (hs c hc).append fun o ho => ?_
    rcases hquiet o ho with ⟨g, -, -, rfl⟩ | ⟨g, rfl⟩ <;> exact ⟨rfl, rfl, rfl⟩
  | erase x hx hplayers htrace =>
    rw [hplayers, eraseAt_carried channel_carried, htrace]
    refine fun c hc => (hs c ((List.eraseIdx_sublist _ _).subset hc)).append fun o ho => ?_
    rw [List.mem_singleton.mp ho]
    exact ⟨rfl, rfl, rfl⟩
  | update i p hp hplayers htrace =>
    obtain ⟨hwsi, -, -, -, -, hmessage⟩ := Game.finished_player hi.wellFormed hp
    rw [map_of_core_set (f := Player.channel) (fun _ => rfl) hplayers, htrace]
    intro c hc
    obtain ⟨j, hj⟩ := List.mem_iff_getElem?.mp hc
    by_cases hij : i = j
    · subst hij
      have hlt : i < (s.game.players.map Player.channel).length := by
        simpa using Game.getElem?_lt hp
      rw [List.getElem?_set_self hlt] at hj
      obtain rfl := Option.some.inj hj
      have hstream := hs p.channel (List.mem_map_of_mem (List.mem_of_getElem? hp))
      simp only [Player.channel, hwsi, hmessage]
      exact Streams.update (u := s.game.updatePlayer i p) hstream
        (hi.buffers p (List.mem_of_getElem? hp))
    · rw [List.getElem?_set_ne hij, List.getElem?_map] at hj
      obtain ⟨q, hq, rfl⟩ := Option.map_eq_some_iff.mp hj
      have hne : p.wsi ≠ q.wsi := key_ne hi.distinct hp hq hij
      refine (hs _ (List.mem_map_of_mem (List.mem_of_getElem? hq))).append fun o ho => ?_
      rcases List.mem_pair.mp ho with rfl | rfl
      · exact ⟨rfl, rfl, if_neg hne⟩
      · exact ⟨rfl, rfl, rfl⟩
  | write i p clock hp hcan hpending hplayers htrace =>
    rw [hplayers, List.map_set, htrace]
    intro c hc
    obtain ⟨j, hj⟩ := List.mem_iff_getElem?.mp hc
    by_cases hij : i = j
    · subst hij
      have hlt : i < (s.game.players.map Player.channel).length := by
        simpa using Game.getElem?_lt hp
      rw [List.getElem?_set_self hlt] at hj
      obtain rfl := Option.some.inj hj
      exact Streams.write clock (hs p.channel (List.mem_map_of_mem (List.mem_of_getElem? hp)))
    · rw [List.getElem?_set_ne hij, List.getElem?_map] at hj
      obtain ⟨q, hq, rfl⟩ := Option.map_eq_some_iff.mp hj
      have hne : p.wsi ≠ q.wsi := key_ne hi.distinct hp hq hij
      refine (hs _ (List.mem_map_of_mem (List.mem_of_getElem? hq))).append fun o ho => ?_
      rw [List.mem_singleton.mp ho]
      exact ⟨rfl, by simp [Obs.writes, Player.channel, hne], rfl⟩
  | join p hwsi hsend hmessage hhistory hblocks hsplit hfeed hplayers htrace =>
    rw [hplayers, emplaceBack_carried channel_carried, htrace]
    intro c hc
    rcases List.mem_append.mp hc with hc | hc
    · obtain ⟨q, hq, rfl⟩ := List.mem_map.mp hc
      refine (hs _ hc).append fun o ho => ?_
      rw [List.mem_singleton.mp ho]
      exact ⟨by simp [Obs.joins, Player.channel, hwsi q hq], rfl, rfl⟩
    · rw [List.mem_singleton.mp hc]
      have hjoined := streams_joined s.trace p s.game s'.game
      simpa [Player.channel, hmessage] using hjoined
  | receive w packet hplayers os htrace hquiet =>
    rw [hplayers, htrace]
    intro c hc
    obtain ⟨q, hq, rfl⟩ := List.mem_map.mp hc
    obtain ⟨p, hp, rfl⟩ := List.mem_map.mp hq
    have hstream := hs p.channel (List.mem_map_of_mem hp)
    have hkeep : Streams s.trace (p.received w packet).wsi (p.received w packet).wsMessage := by
      rw [received_wsi]
      exact ⟨by rw [received_pending]; exact hstream.whole,
        by rw [received_pending]; exact hstream.rest⟩
    refine hkeep.append fun o ho => ?_
    rcases List.mem_cons.mp ho with rfl | ho
    · exact ⟨rfl, rfl, rfl⟩
    · obtain ⟨v, rfl⟩ := hquiet o ho
      exact ⟨rfl, rfl, rfl⟩

theorem Shift.wholeMessages {s s' : Sys ℝ} (h : Shift s s') (hs : Streaming s)
    (ht : Always WholeMessages s.trace) : Always WholeMessages s'.trace := by
  cases h with
  | quiet hplayers os htrace hquiet =>
    rw [htrace]
    refine always_append_of_forall ht fun o ho _ => ?_
    rcases hquiet o ho with ⟨g, -, -, rfl⟩ | ⟨g, rfl⟩ <;> trivial
  | erase x hx hplayers htrace =>
    rw [htrace]
    exact always_snoc.mpr ⟨ht, trivial⟩
  | update i p hp hplayers htrace =>
    rw [htrace]
    refine always_append_of_forall ht fun o ho _ => ?_
    rcases List.mem_pair.mp ho with rfl | rfl <;> trivial
  | write i p clock hp hcan hpending hplayers htrace =>
    rw [htrace]
    exact always_snoc.mpr
      ⟨ht, (hs p.channel (List.mem_map_of_mem (List.mem_of_getElem? hp))).rest⟩
  | join p hwsi hsend hmessage hhistory hblocks hsplit hfeed hplayers htrace =>
    rw [htrace]
    exact always_snoc.mpr ⟨ht, trivial⟩
  | receive w packet hplayers os htrace hquiet =>
    rw [htrace]
    refine always_append_of_forall ht fun o ho _ => ?_
    rcases List.mem_cons.mp ho with rfl | ho
    · trivial
    · obtain ⟨v, rfl⟩ := hquiet o ho
      trivial

/-- In every run no message is lost, duplicated, reordered, split or sent to another connection. -/
theorem stream_integrity (r : Run ℝ) :
    AllStream r.final ∧ Always WholeMessages r.final.trace := by
  have hall : Streaming r.final ∧ Always WholeMessages r.final.trace := by
    refine Run.induction_shift (P := fun s => Streaming s ∧ Always WholeMessages s.trace)
      (fun rand stale => ⟨?_, always_nil _⟩)
      (fun _ s s' hi h hs => ⟨h.streaming hi hs.1, h.wholeMessages hs.1 hs.2⟩) r
    intro c hc
    have hnone : (Sys.init rand stale).game.players = [] :=
      (Game.mapInit_started rand stale).players
    rw [hnone] at hc
    cases hc
  exact ⟨fun p hp => (hall.1 p.channel (List.mem_map_of_mem hp)).whole, hall.2⟩

end Agar
