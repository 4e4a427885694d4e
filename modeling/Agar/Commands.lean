import Agar.Stream
import Agar.Rounds

/-! The split and feed commands of a player: what `DoSplit` and `DoFeed` say of the packets of its
connection. The move constructor and the move assignment of `Player` leave both flags out. -/

namespace Agar
open MovedVector Trace

/-- The player of the connection is updated. -/
def Obs.updates {K : Type} (w : Wsi) : Obs K → Bool
  | .updated u => u.player.wsi = w
  | _ => false

/-- The part of the trace since the last update of the present player of the connection. -/
def turn {K : Type} (w : Wsi) (tr : List (Obs K)) : List (Obs K) :=
  since (fun o => o.joins w || o.updates w) tr

/-- A packet of the type has been received on the connection since its player was updated. -/
def Asked (type : Byte) (w : Wsi) (tr : List (Obs ℝ)) : Prop :=
  ∃ packet, packet.head? = some type ∧ .received w packet ∈ turn w tr

/-- The flags of a player that is updated tell whether its client asked. -/
def Obeyed (tr : List (Obs ℝ)) : Obs ℝ → Prop
  | .updated u => (u.player.doSplit = true ↔ Asked msgSplit u.player.wsi tr) ∧
      (u.player.doFeed = true ↔ Asked msgFeed u.player.wsi tr)
  | _ => True

def Player.flags (p : Player ℝ) : Bool × Bool := (p.doSplit, p.doFeed)

/-- Erasing shifts players with the same flags only, and no flag is up when the vector is moved to a
larger allocation. -/
def Harmless : Obs ℝ → Prop
  | .erased g x => ∀ j p q, x ≤ j → g.players[j]? = some p → g.players[j + 1]? = some q →
      p.flags = q.flags
  | .joined _ g _ => g.players.length = g.capacity → ∀ p ∈ g.players, p.flags = (false, false)
  | _ => True

theorem flags_sticky : Sticky Player.moves Player.flags := ⟨fun _ _ => rfl, fun _ => rfl⟩

/-- The connection of a player with the commands that wait for its update. -/
def Player.request (p : Player ℝ) : Wsi × Bool × Bool := (p.wsi, p.flags)

theorem eraseAt_request {g : Game ℝ} {x : ℕ} (hx : x < g.players.length)
    (h : Harmless (.erased g x)) :
    (eraseAt Player.moves g.players x).map Player.request =
      (g.players.map Player.request).eraseIdx x := by
  have hwsi := eraseAt_carried wsi_carried g.players x
  have hflags := eraseAt_sticky_eq flags_sticky hx h
  apply List.ext_getElem?
  intro n
  have hw := congrArg (fun l => l[n]?) hwsi
  have hf := congrArg (fun l => l[n]?) hflags
  rw [List.eraseIdx_map] at hw hf ⊢
  simp only [List.getElem?_map] at hw hf ⊢
  rcases hq : (eraseAt Player.moves g.players x)[n]? with - | q <;>
    rcases hp : (g.players.eraseIdx x)[n]? with - | p <;> rw [hq, hp] at hw hf <;>
    simp_all [Player.request]

theorem emplaceBack_request {g g' : Game ℝ} {p : Player ℝ} (h : Harmless (.joined p g g')) :
    (emplaceBack Player.moves g.capacity g.players p).map Player.request =
      g.players.map Player.request ++ [(p.wsi, false, false)] := by
  unfold emplaceBack
  split_ifs with hfull
  · rw [List.map_append, List.map_map]
    refine congrArg (· ++ _) (List.map_congr_left fun q hq => ?_)
    have hflags := h hfull q hq
    show (q.wsi, false, false) = (q.wsi, q.flags)
    rw [hflags]
  · rw [List.map_append]
    rfl

/-- The flags of a connection tell what was asked on it. -/
def Flagged (tr : List (Obs ℝ)) (c : Wsi × Bool × Bool) : Prop :=
  (c.2.1 = true ↔ Asked msgSplit c.1 tr) ∧ (c.2.2 = true ↔ Asked msgFeed c.1 tr)

theorem Asked.append {type : Byte} {w : Wsi} {tr os : List (Obs ℝ)}
    (hos : ∀ o ∈ os, o.joins w = false ∧ o.updates w = false ∧ ∀ packet, o ≠ .received w packet) :
    Asked type w (tr ++ os) ↔ Asked type w tr := by
  have hturn : turn w (tr ++ os) = turn w tr ++ os :=
    since_append_of_unmarked fun o ho => by rw [(hos o ho).1, (hos o ho).2.1]; rfl
  unfold Asked
  rw [hturn]
  constructor
  · rintro ⟨packet, htype, hmem⟩
    rcases List.mem_append.mp hmem with hmem | hmem
    · exact ⟨packet, htype, hmem⟩
    · exact absurd rfl ((hos _ hmem).2.2 packet)
  · rintro ⟨packet, htype, hmem⟩
    exact ⟨packet, htype, List.mem_append_left os hmem⟩

theorem Flagged.append {tr os : List (Obs ℝ)} {c : Wsi × Bool × Bool} (h : Flagged tr c)
    (hos : ∀ o ∈ os, o.joins c.1 = false ∧ o.updates c.1 = false ∧
      ∀ packet, o ≠ .received c.1 packet) : Flagged (tr ++ os) c := by
  unfold Flagged
  rw [Asked.append hos, Asked.append hos]
  exact h

theorem not_asked_of_turn {type : Byte} {w : Wsi} {tr : List (Obs ℝ)} (h : turn w tr = []) :
    ¬ Asked type w tr := by
  rintro ⟨packet, -, hmem⟩
  rw [h] at hmem
  cases hmem

theorem flagged_of_turn {w : Wsi} {tr : List (Obs ℝ)} (h : turn w tr = []) :
    Flagged tr (w, false, false) :=
  ⟨iff_of_false Bool.false_ne_true (not_asked_of_turn h),
    iff_of_false Bool.false_ne_true (not_asked_of_turn h)⟩

theorem asked_receive {type : Byte} {v w : Wsi} {tr : List (Obs ℝ)} {packet : List Byte} :
    Asked type v (tr ++ [.received w packet]) ↔
      Asked type v tr ∨ w = v ∧ packet.head? = some type := by
  have hturn : turn v (tr ++ [.received w packet]) = turn v tr ++ [.received w packet] :=
    since_append_of_unmarked fun o ho => by rw [List.mem_singleton.mp ho]; rfl
  unfold Asked
  rw [hturn]
  constructor
  · rintro ⟨packet', htype, hmem⟩
    rcases List.mem_append.mp hmem with hmem | hmem
    · exact Or.inl ⟨packet', htype, hmem⟩
    · obtain ⟨rfl, rfl⟩ : v = w ∧ packet' = packet := by simpa using hmem
      exact Or.inr ⟨rfl, htype⟩
  · rintro (⟨packet', htype, hmem⟩ | ⟨rfl, htype⟩)
    · exact ⟨packet', htype, List.mem_append_left _ hmem⟩
    · exact ⟨packet, htype, List.mem_append_right _ List.mem_cons_self⟩

theorem Flagged.receive {tr : List (Obs ℝ)} {w : Wsi} {packet : List Byte} {p : Player ℝ}
    (h : Flagged tr p.request) :
    Flagged (tr ++ [.received w packet]) (p.received w packet).request := by
  obtain ⟨hsplit, hfeed⟩ := h
  have hwsi : (p.received w packet).request.1 = p.wsi := received_wsi w packet p
  unfold Flagged
  rw [hwsi, asked_receive, asked_receive]
  change (p.doSplit = true ↔ Asked msgSplit p.wsi tr) at hsplit
  change (p.doFeed = true ↔ Asked msgFeed p.wsi tr) at hfeed
  rw [← hsplit, ← hfeed]
  unfold Player.received Player.request Player.flags
  split_ifs with hfor
  · simp [hfor.1]
  · have hnone : ∀ type, ¬ (w = p.wsi ∧ packet.head? = some type) := by
      rintro type ⟨hw, htype⟩
      refine hfor ⟨hw, ?_⟩
      rintro rfl
      cases htype
    simp [hnone]

def AllFlagged (s : Sys ℝ) : Prop := ∀ c ∈ s.game.players.map Player.request, Flagged s.trace c

theorem Shift.allFlagged {a : Stage} {s s' : Sys ℝ} (h : Shift s s') (hi : Invariant a s) (hs : AllFlagged s)
    (hharmless : ∀ o ∈ s'.trace, Harmless o) : AllFlagged s' := by
  unfold AllFlagged at hs ⊢
  cases h with
  | quiet hplayers os htrace hquiet =>
    rw [map_of_core (f := Player.request) (fun _ => rfl) hplayers, htrace]
    refine fun c hc => (hs c hc).append fun o ho => ?_
    rcases hquiet o ho with ⟨g, -, -, rfl⟩ | ⟨g, rfl⟩ <;> exact ⟨rfl, rfl, fun _ => by simp⟩
  | erase x hx hplayers htrace =>
    have hlast : Harmless (.erased s.game x) := hharmless _ (by rw [htrace]; simp)
    rw [hplayers, eraseAt_request hx hlast, htrace]
    refine fun c hc => (hs c ((List.eraseIdx_sublist _ _).subset hc)).append fun o ho => ?_
    rw [List.mem_singleton.mp ho]
    exact ⟨rfl, rfl, fun _ => by simp⟩
  | update i p hp hplayers htrace =>
    obtain ⟨hwsi, -, hsplit, hfeed, -⟩ := Game.finished_player hi.wellFormed hp
    rw [map_of_core_set (f := Player.request) (fun _ => rfl) hplayers, htrace]
    intro c hc
    obtain ⟨j, hj⟩ := List.mem_iff_getElem?.mp hc
    by_cases hij : i = j
    · subst hij
      have hlt : i < (s.game.players.map Player.request).length := by
        simpa using Game.getElem?_lt hp
      rw [List.getElem?_set_self hlt] at hj
      obtain rfl := Option.some.inj hj
      have hrequest : (s.game.updatePlayer i p).finished.player.request = (p.wsi, false, false) := by
        simp only [Player.request, Player.flags, hwsi, hsplit, hfeed]
      rw [hrequest]
      have hupdates : Obs.updates p.wsi (.updated (s.game.updatePlayer i p)) = true := by
        simp [Obs.updates, Game.updatePlayer]
      have hturn : turn p.wsi (s.trace ++ [.updated (s.game.updatePlayer i p)]) = [] := by
        unfold turn
        rw [since_snoc, if_pos (by rw [hupdates, Bool.or_true])]
      rw [show s.trace ++ [.updated (s.game.updatePlayer i p), .requested p.wsi] =
        (s.trace ++ [.updated (s.game.updatePlayer i p)]) ++ [.requested p.wsi] by simp]
      refine (flagged_of_turn hturn).append fun o ho => ?_
      rw [List.mem_singleton.mp ho]
      exact ⟨rfl, rfl, fun _ => by simp⟩
    · rw [List.getElem?_set_ne hij, List.getElem?_map] at hj
      obtain ⟨q, hq, rfl⟩ := Option.map_eq_some_iff.mp hj
      have hne : p.wsi ≠ q.wsi := key_ne hi.distinct hp hq hij
      refine (hs _ (List.mem_map_of_mem (List.mem_of_getElem? hq))).append fun o ho => ?_
      rcases List.mem_pair.mp ho with rfl | rfl
      · exact ⟨rfl, by simp [Obs.updates, Game.updatePlayer, Player.request, hne], fun _ => by simp⟩
      · exact ⟨rfl, rfl, fun _ => by simp⟩
  | write i p clock hp hcan hpending hplayers htrace =>
    have hset := map_set_same (f := Player.request) (q := { p with
      wsMessage := { p.wsMessage with ack := false }.clear, sendTime := clock }) hp rfl
    rw [hplayers, List.map_set, hset, htrace]
    refine fun c hc => (hs c hc).append fun o ho => ?_
    rw [List.mem_singleton.mp ho]
    exact ⟨rfl, rfl, fun _ => by simp⟩
  | join p hwsi hsend hmessage hhistory hblocks hsplit hfeed hplayers htrace =>
    have hlast : Harmless (.joined p s.game s'.game) := hharmless _ (by rw [htrace]; simp)
    rw [hplayers, emplaceBack_request hlast, htrace]
    intro c hc
    rcases List.mem_append.mp hc with hc | hc
    · obtain ⟨q, hq, rfl⟩ := List.mem_map.mp hc
      refine (hs _ hc).append fun o ho => ?_
      rw [List.mem_singleton.mp ho]
      exact ⟨by simp [Obs.joins, Player.request, hwsi q hq], rfl, fun _ => by simp⟩
    · rw [List.mem_singleton.mp hc]
      refine flagged_of_turn ?_
      unfold turn
      rw [since_snoc, if_pos (by simp [Obs.joins])]
  | receive w packet hplayers os htrace hquiet =>
    rw [hplayers, htrace]
    intro c hc
    obtain ⟨q, hq, rfl⟩ := List.mem_map.mp hc
    obtain ⟨p, hp, rfl⟩ := List.mem_map.mp hq
    rw [show s.trace ++ .received w packet :: os = (s.trace ++ [.received w packet]) ++ os by simp]
    refine (hs p.request (List.mem_map_of_mem hp)).receive.append fun o ho => ?_
    obtain ⟨v, rfl⟩ := hquiet o ho
    exact ⟨rfl, rfl, fun _ => by simp⟩

/-- As long as the moves of the players have done no harm, an update obeys its client. -/
def ObeyedUnharmed (tr : List (Obs ℝ)) (o : Obs ℝ) : Prop := (∀ e ∈ tr, Harmless e) → Obeyed tr o

theorem Shift.obeyed {s s' : Sys ℝ} (h : Shift s s')
    (hs : (∀ o ∈ s.trace, Harmless o) → AllFlagged s) (ht : Always ObeyedUnharmed s.trace) :
    Always ObeyedUnharmed s'.trace := by
  cases h with
  | quiet hplayers os htrace hquiet =>
    rw [htrace]
    refine always_append_of_forall ht fun o ho _ _ => ?_
    rcases hquiet o ho with ⟨g, -, -, rfl⟩ | ⟨g, rfl⟩ <;> trivial
  | erase x hx hplayers htrace =>
    rw [htrace]
    exact always_snoc.mpr ⟨ht, fun _ => trivial⟩
  | update i p hp hplayers htrace =>
    rw [htrace, show s.trace ++ [.updated (s.game.updatePlayer i p), .requested p.wsi] =
      (s.trace ++ [.updated (s.game.updatePlayer i p)]) ++ [.requested p.wsi] by simp]
    refine always_snoc.mpr ⟨always_snoc.mpr ⟨ht, fun hharmless => ?_⟩, fun _ => trivial⟩
    exact hs hharmless p.request (List.mem_map_of_mem (List.mem_of_getElem? hp))
  | write i p clock hp hcan hpending hplayers htrace =>
    rw [htrace]
    exact always_snoc.mpr ⟨ht, fun _ => trivial⟩
  | join p hwsi hsend hmessage hhistory hblocks hsplit hfeed hplayers htrace =>
    rw [htrace]
    exact always_snoc.mpr ⟨ht, fun _ => trivial⟩
  | receive w packet hplayers os htrace hquiet =>
    rw [htrace]
    refine always_append_of_forall ht fun o ho _ _ => ?_
    rcases List.mem_cons.mp ho with rfl | ho
    · trivial
    · obtain ⟨v, rfl⟩ := hquiet o ho
      trivial

/-- In every run, as long as every erase has shifted players with equal flags only and every
reallocation has found all flags down, the flags of a player that is updated are up if and only if
its client has asked since the last update. -/
theorem commands_obeyed (r : Run ℝ) : Always ObeyedUnharmed r.final.trace := by
  have hall : ((∀ o ∈ r.final.trace, Harmless o) → AllFlagged r.final) ∧
      Always ObeyedUnharmed r.final.trace := by
    refine Run.induction_shift
      (P := fun s => ((∀ o ∈ s.trace, Harmless o) → AllFlagged s) ∧ Always ObeyedUnharmed s.trace)
      (fun rand stale => ⟨fun _ => ?_, always_nil _⟩) (fun a s s' hi h hs => ⟨fun hharmless => ?_,
        h.obeyed hs.1 hs.2⟩) r
    · intro c hc
      have hnone : (Sys.init rand stale).game.players = [] :=
        (Game.mapInit_started rand stale).players
      rw [hnone] at hc
      cases hc
    · refine h.allFlagged hi (hs.1 fun o ho => hharmless o ?_) hharmless
      obtain ⟨os, hos⟩ := h.trace_extends
      rw [hos]
      exact List.mem_append_left os ho
  exact hall.2

/-- Two players join, the first client asks to split, the first player is erased. -/
def handOver (K : Type) [Field K] : List (Event K) :=
  [.writeable 0 0 (fun _ => true) 8, .writeable 1 0 (fun _ => true) 8,
    .receive 0 [msgSplit] (fun _ => 0), .peerClose 0]

/-- The second player is updated with the flag of the first one. -/
def handedOver (K : Type) [Field K] : Run K where
  rand := fun _ => 0
  stale := fun _ => 0
  events := handOver K ++ [.tick 0]

theorem handOver_spec {s₀ : Sys ℝ} (hi₀ : Invariant .idle s₀) (hnone : s₀.game.players = [])
    (hcapacity : s₀.game.capacity = 0) (htrace : s₀.trace = []) :
    ∃ p q₀ before₀ after₀ q₁ before₁ after₁ g,
      ((handOver ℝ).foldl Sys.step s₀).game.players = [p] ∧ p.wsi = 1 ∧
      p.doSplit = true ∧ p.wsMessage.connected = true ∧
      ((handOver ℝ).foldl Sys.step s₀).trace = [.joined q₀ before₀ after₀,
        .joined q₁ before₁ after₁, .received 0 [msgSplit], .requested 0, .erased g 0] := by
  -- the first player
  obtain ⟨s₁, hs₁⟩ : ∃ s, s = s₀.join 0 8 := ⟨_, rfl⟩
  have h₁ : s₀.step (.writeable 0 0 (fun _ => true) 8) = s₁ := by
    rw [hs₁]
    exact Sys.writeable_of_new (by simp [hnone]) (by simp [hnone]) _ _ _
  have hi₁ : Invariant .idle s₁ := hs₁ ▸ (Move.join s₀ 0 8 (by simp [hnone])).invariant hi₀
  have hp₁ : s₁.game.players = [(s₀.game.newPlayer 0).1.moveConstruct] := by
    rw [hs₁, Sys.join_players, hnone, hcapacity]
    rfl
  have hcapacity₁ : s₁.game.capacity = 8 := by
    rw [hs₁]
    show (if s₀.game.players.length = s₀.game.capacity then
      max 8 (s₀.game.players.length + 1) else s₀.game.capacity) = 8
    rw [hnone, hcapacity]
    rfl
  -- the second player
  have hnew : ∀ p ∈ s₁.game.players, 1 ≠ p.wsi := by
    rw [hp₁]
    intro p hp
    rw [List.mem_singleton.mp hp]
    exact one_ne_zero
  obtain ⟨s₂, hs₂⟩ : ∃ s, s = s₁.join 1 8 := ⟨_, rfl⟩
  have h₂ : s₁.step (.writeable 1 0 (fun _ => true) 8) = s₂ := by
    rw [hs₂]
    refine Sys.writeable_of_new hnew ?_ _ _ _
    rw [hp₁]
    intro p hp
    rw [List.mem_singleton.mp hp]
    rfl
  have hi₂ : Invariant .idle s₂ := hs₂ ▸ (Move.join s₁ 1 8 hnew).invariant hi₁
  have hp₂ : s₂.game.players =
      [(s₀.game.newPlayer 0).1.moveConstruct, (s₁.game.newPlayer 1).1.moveConstruct] := by
    rw [hs₂, Sys.join_players, hp₁, hcapacity₁]
    rfl
  -- the packet
  obtain ⟨s₃, hs₃⟩ : ∃ s, s = s₂.receive 0 [msgSplit] fun _ => 0 := ⟨_, rfl⟩
  have hp₃ : s₃.game.players =
      [{ (s₀.game.newPlayer 0).1.moveConstruct with
          wsMessage := Message.new.acknowledge, doSplit := true },
        (s₁.game.newPlayer 1).1.moveConstruct] := by
    have hspec : (s₂.game.receiveAll 0 [msgSplit] fun _ => 0).players =
        s₂.game.players.map (Player.received 0 [msgSplit]) :=
      (Game.receiveAll_spec hi₂.wellFormed (by simp)).2
    rw [hs₃]
    refine hspec.trans ?_
    rw [hp₂]
    rfl
  -- the first player leaves
  have hfinal : (handOver ℝ).foldl Sys.step s₀ = s₃.erasePlayer 0 := by
    simp only [handOver, List.foldl_cons, List.foldl_nil, h₁, h₂]
    show (s₂.receive 0 [msgSplit] fun _ => 0).peerClose 0 = _
    rw [← hs₃, Sys.peerClose, hp₃]
    rfl
  refine ⟨{ (s₁.game.newPlayer 1).1.moveConstruct with doSplit := true }, (s₀.game.newPlayer 0).1,
    s₀.game, s₁.game, (s₁.game.newPlayer 1).1, s₁.game, s₂.game, s₃.game, ?_, rfl, rfl,
    Message.new_connected, ?_⟩
  · rw [hfinal]
    show eraseAt Player.moves s₃.game.players 0 = _
    rw [hp₃]
    rfl
  · have htrace₁ : s₁.trace = [.joined (s₀.game.newPlayer 0).1 s₀.game s₁.game] := by
      rw [hs₁, Sys.join, htrace]
      rfl
    have htrace₂ : s₂.trace = s₁.trace ++ [.joined (s₁.game.newPlayer 1).1 s₁.game s₂.game] := by
      rw [hs₂]
      rfl
    have htrace₃ : s₃.trace = s₂.trace ++ [.received 0 [msgSplit]] ++ [.requested 0] := by
      rw [hs₃]
      rfl
    rw [hfinal]
    show s₃.trace ++ [.erased s₃.game 0] = _
    rw [htrace₃, htrace₂, htrace₁]
    rfl

/-- A run in which a player splits whose client never asked for it. -/
theorem command_handed_over : ¬ Always Obeyed (handedOver ℝ).final.trace := by
  have hi := Moves.invariant (Sys.steps_moves (init_invariant (fun _ => 0) fun _ => 0) (handOver ℝ))
    (init_invariant (fun _ => 0) fun _ => 0)
  obtain ⟨p, q₀, before₀, after₀, q₁, before₁, after₁, g, hplayers, hwsi, hsplit, hconnected,
    htrace⟩ := handOver_spec (init_invariant (fun _ => 0) fun _ => 0)
      (Game.mapInit_started _ _).players (Sys.mapInit_capacity _ _) rfl
  have hfinal : (handedOver ℝ).final =
      ((handOver ℝ).foldl Sys.step (Sys.init (fun _ => 0) fun _ => 0)).tick 0 := by
    unfold Run.final handedOver
    rw [List.foldl_append]
    rfl
  rw [hfinal]
  generalize (handOver ℝ).foldl Sys.step (Sys.init (fun _ => 0) fun _ => 0) = s at *
  intro h
  have hall : ∀ q ∈ s.game.players, q.wsMessage.connected = true := by
    rw [hplayers]
    intro q hq
    rw [List.mem_singleton.mp hq]
    exact hconnected
  obtain ⟨before, after, u, hu, hprefix⟩ := Sys.tick_first hi hall 0 (p := p) (by rw [hplayers]; rfl)
  have husplit : u.player.doSplit = true := (congrArg Player.doSplit hu).trans hsplit
  have huwsi : u.player.wsi = 1 := (congrArg Player.wsi hu).trans hwsi
  obtain ⟨packet, -, hmem⟩ := (h _ _ hprefix).1.mp husplit
  have hin := since_subset _ _ hmem
  rw [htrace, huwsi] at hin
  simp at hin

end Agar
