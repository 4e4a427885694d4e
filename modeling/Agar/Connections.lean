import Agar.Writes
import Agar.Stream

/-! Connections open and close, and players come and go: which connections have a player. -/

namespace Agar
open MovedVector Trace

/-- An entry a tick or a send may make: no player joins, no packet arrives, and only the
connections of players are asked for a callback. -/
def Obs.Internal (ws : List Wsi) : Obs ℝ → Prop
  | .joined .. => False
  | .received .. => False
  | .requested w => w ∈ ws
  | _ => True

theorem Obs.Internal.mono {ws ws' : List Wsi} (h : ws ⊆ ws') {o : Obs ℝ} (ho : o.Internal ws) :
    o.Internal ws' := by
  cases o with
  | requested w => exact h ho
  | joined _ _ _ => exact ho
  | received _ _ => exact ho
  | _ => trivial

/-- The connection an event is a callback of. -/
def Event.wsi {K : Type} : Event K → Option Wsi
  | .tick _ => none
  | .writeable w _ _ _ => some w
  | .receive w _ _ => some w
  | .peerClose w => some w
  | .other => none

/-- The event is the `SERVER_WRITEABLE` callback of the connection. -/
def Event.isWriteable {K : Type} (w : Wsi) : Event K → Bool
  | .writeable v _ _ _ => v = w
  | _ => false

namespace Sys

/-- The connections of the players. -/
def wsis {K : Type} (s : Sys K) : List Wsi := s.game.players.map Player.wsi

/-- Players may have gone, none has come, and the entries are internal. -/
structure Serves (s s' : Sys ℝ) : Prop where
  wsis : s'.wsis ⊆ s.wsis
  log : ∃ os, s'.trace = s.trace ++ os ∧ ∀ o ∈ os, o.Internal s.wsis

theorem Serves.refl (s : Sys ℝ) : Serves s s :=
  ⟨List.Subset.refl _, [], (List.append_nil _).symm, fun o ho => by cases ho⟩

theorem Serves.trans {s s' s'' : Sys ℝ} (h : Serves s s') (h' : Serves s' s'') :
    Serves s s'' := by
  obtain ⟨os, htrace, hos⟩ := h.log
  obtain ⟨os', htrace', hos'⟩ := h'.log
  refine ⟨List.Subset.trans h'.wsis h.wsis, os ++ os', ?_, fun o ho => ?_⟩
  · rw [htrace', htrace, List.append_assoc]
  · rcases List.mem_append.mp ho with ho | ho
    · exact hos o ho
    · exact (hos' o ho).mono h.wsis

theorem serves_of_core {s s' : Sys ℝ} (os : List (Obs ℝ))
    (hcore : s'.game.players.map Player.core = s.game.players.map Player.core)
    (htrace : s'.trace = s.trace ++ os) (hos : ∀ o ∈ os, o.Internal s.wsis) : Serves s s' := by
  refine ⟨?_, os, htrace, hos⟩
  have hwsi : s'.wsis = s.wsis := map_of_core (f := Player.wsi) (fun _ => rfl) hcore
  rw [hwsi]
  exact List.Subset.refl _

theorem erasePlayer_serves (s : Sys ℝ) (x : ℕ) : Serves s (s.erasePlayer x) := by
  refine ⟨?_, [.erased s.game x], rfl, fun o ho => ?_⟩
  · show (eraseAt Player.moves s.game.players x).map Player.wsi ⊆ _
    rw [eraseAt_carried wsi_carried]
    exact (List.eraseIdx_sublist _ _).subset
  · rw [List.mem_singleton.mp ho]
    trivial

theorem kickFrom_serves (s : Sys ℝ) (x : ℕ) : Serves s (s.kickFrom x) := by
  fun_induction kickFrom s x with
  | case1 s x hnone => exact Serves.refl s
  | case2 s x p hp hconnected ih => exact ih
  | case3 s x p hp hconnected ih => exact (erasePlayer_serves s x).trans ih

theorem updateAt_serves {s : Sys ℝ} (hw : s.game.WellFormed) (i : ℕ) :
    Serves s (s.updateAt i) := by
  unfold updateAt
  rcases hp : s.game.players[i]? with - | p
  · exact Serves.refl s
  · refine ⟨?_, _, rfl, fun o ho => ?_⟩
    · show ((s.game.updatePlayer i p).after.players).map Player.wsi ⊆ s.game.players.map Player.wsi
      rw [map_of_core_set (f := Player.wsi) (fun _ => rfl) (Game.after_players hw hp),
        map_set_same hp (Game.finished_player hw hp).1]
      exact List.Subset.refl _
    · rcases List.mem_cons.mp ho with rfl | ho
      · trivial
      · rw [List.mem_singleton.mp ho]
        exact List.mem_map_of_mem (List.mem_of_getElem? hp)

theorem updateAll_serves {s : Sys ℝ} (hi : Invariant (.updating 0) s) : Serves s s.updateAll := by
  have hloop : ∀ is : List ℕ, ∀ s : Sys ℝ, s.game.WellFormed →
      Serves s (is.foldl updateAt s) := by
    intro is
    induction is with
    | nil => exact fun s _ => Serves.refl s
    | cons i is ih =>
      intro s hw
      refine (updateAt_serves hw i).trans (ih _ ?_)
      unfold updateAt
      rcases hp : s.game.players[i]? with - | p
      · exact hw
      · exact Game.after_wellFormed hw hp
  exact hloop _ s hi.wellFormed

theorem tick_serves {s : Sys ℝ} (hi : Invariant .idle s) (clock : ℝ) : Serves s (s.tick clock) := by
  have hstart : Serves s (s.tickStart clock) := by
    refine Serves.trans ?_ (kickFrom_serves _ 0)
    refine serves_of_core [] ?_ (List.append_nil _).symm fun o ho => by cases ho
    exact congrArg (List.map Player.core)
      (Game.updateDynamic_motion (s.game.beginTick clock) _).players
  have hi₁ := Moves.invariant (tickStart_moves s clock) hi
  have hcollide : Serves (s.tickStart clock) (s.tickStart clock).collide := by
    refine serves_of_core [.collided _ _] ?_ rfl fun o ho => ?_
    · exact ((Game.collisionPhase_leads _).frame hi₁.wellFormed).core
    · rw [List.mem_singleton.mp ho]
      trivial
  have hdrive : Serves (s.tickStart clock).collide (s.tickMoved clock) := by
    refine serves_of_core [] ?_ (List.append_nil _).symm fun o ho => by cases ho
    exact congrArg (List.map Player.core)
      (Game.drive_motion (s.tickStart clock).collide.game (clock - s.game.currentTime)).players
  have hi₂ := Moves.invariant (tickMoved_moves s clock) hi
  have hi₃ := Moves.invariant (updateAll_moves hi₂).1 hi₂
  have hreplay : Serves (s.tickMoved clock).updateAll (s.tick clock) := by
    rw [tick_eq]
    refine serves_of_core [.ticked (s.tickMoved clock).updateAll.game.parseEvents] ?_ rfl
      fun o ho => ?_
    · show (s.tickMoved clock).updateAll.game.parseEvents.players.map Player.core = _
      rw [(Game.parseEvents_prunes hi₃.additions).rest]
    · rw [List.mem_singleton.mp ho]
      trivial
  exact (((hstart.trans hcollide).trans hdrive).trans (updateAll_serves hi₂)).trans hreplay

theorem sendAt_serves (s : Sys ℝ) (clock : ℝ) (accepts : ℕ → Bool) (i : ℕ) :
    Serves s (s.sendAt clock accepts i) := by
  rcases sendAt_cases s clock accepts i with h | ⟨p, hp, -, -, h⟩
  · rw [h]
    exact Serves.refl s
  · refine ⟨?_, [.wrote p.wsi clock p.wsMessage.pending], by rw [h], fun o ho => ?_⟩
    · unfold wsis
      rw [sendAt_wsi]
      exact List.Subset.refl _
    · rw [List.mem_singleton.mp ho]
      trivial

theorem sendAll_serves (s : Sys ℝ) (clock : ℝ) (accepts : ℕ → Bool) :
    Serves s (s.sendAll clock accepts) := by
  unfold sendAll
  induction List.range s.game.players.length generalizing s with
  | nil => exact Serves.refl s
  | cons i is ih => exact (sendAt_serves s clock accepts i).trans (ih _)

theorem writeable_cases (s : Sys ℝ) (w : Wsi) (clock : ℝ) (accepts : ℕ → Bool) (grown : ℕ) :
    (w ∈ s.wsis ∧ s.writeable w clock accepts grown = s.sendAll clock accepts) ∨
    (w ∉ s.wsis ∧ s.writeable w clock accepts grown = (s.sendAll clock accepts).join w grown) := by
  have hany : (s.game.players.any fun p => w = p.wsi) = true ↔ w ∈ s.wsis := by
    simp only [List.any_eq_true, decide_eq_true_eq, wsis, List.mem_map]
    exact exists_congr fun p => and_congr_right fun _ => eq_comm
  unfold writeable
  dsimp only
  split_ifs with hfound
  · exact Or.inl ⟨hany.mp hfound, rfl⟩
  · exact Or.inr ⟨fun h => hfound (hany.mpr h), rfl⟩

theorem peerClose_serves (s : Sys ℝ) (w : Wsi) : Serves s (s.peerClose w) := by
  unfold peerClose
  split
  next => exact Serves.refl s
  next x h => exact erasePlayer_serves s x

theorem receive_wsis {s : Sys ℝ} (hi : Invariant .idle s) (w : Wsi) (packet : List Byte)
    (beyond : ℕ → Byte) : (s.receive w packet beyond).wsis = s.wsis := by
  unfold wsis receive
  dsimp only
  split_ifs with hlen
  · rfl
  · have hspec : (s.game.receiveAll w packet beyond).players =
        s.game.players.map (Player.received w packet) :=
      (Game.receiveAll_spec hi.wellFormed fun h => hlen (by rw [h]; decide)).2
    show (s.game.receiveAll w packet beyond).players.map Player.wsi = _
    rw [hspec, List.map_map]
    exact List.map_congr_left fun p _ => received_wsi w packet p

theorem step_wsis {s : Sys ℝ} (hi : Invariant .idle s) (e : Event ℝ) {v : Wsi}
    (hv : v ∈ (s.step e).wsis) : v ∈ s.wsis ∨ e.wsi = some v := by
  cases e with
  | tick clock => exact Or.inl ((tick_serves hi clock).wsis hv)
  | writeable w clock accepts grown =>
    have hsent := (sendAll_serves s clock accepts).wsis
    rcases writeable_cases s w clock accepts grown with ⟨-, h⟩ | ⟨-, h⟩
    · rw [step, h] at hv
      exact Or.inl (hsent hv)
    · rw [step, h] at hv
      unfold wsis at hv
      rw [join_wsi] at hv
      rcases List.mem_append.mp hv with hv | hv
      · exact Or.inl (hsent hv)
      · exact Or.inr (congrArg some (List.mem_singleton.mp hv).symm)
  | receive w packet beyond =>
    rw [step, receive_wsis hi] at hv
    exact Or.inl hv
  | peerClose w => exact Or.inl ((peerClose_serves s w).wsis hv)
  | other => exact Or.inl hv

/-- The entries an event makes: callbacks are requested for players and for the connection of the
event, and a player joins in the callback of a connection without one. -/
theorem step_log {s : Sys ℝ} (hi : Invariant .idle s) (e : Event ℝ) :
    ∃ os, (s.step e).trace = s.trace ++ os ∧
      (∀ w, .requested w ∈ os → w ∈ s.wsis ∨ e.wsi = some w) ∧
      ∀ w, os.countP (Obs.joins w) = if e.isWriteable w ∧ w ∉ s.wsis then 1 else 0 := by
  have hserves : ∀ s' : Sys ℝ, Serves s s' →
      ∃ os, s'.trace = s.trace ++ os ∧ (∀ w, .requested w ∈ os → w ∈ s.wsis) ∧
        ∀ w, os.countP (Obs.joins w) = 0 := by
    intro s' h
    obtain ⟨os, htrace, hos⟩ := h.log
    refine ⟨os, htrace, fun w hw => hos _ hw, fun w => List.countP_eq_zero.mpr fun o ho => ?_⟩
    have hinternal := hos o ho
    cases o with
    | joined p g g' => exact absurd hinternal id
    | _ => exact Bool.false_ne_true
  cases e with
  | tick clock =>
    obtain ⟨os, htrace, hrequested, hjoins⟩ := hserves _ (tick_serves hi clock)
    refine ⟨os, htrace, fun w hw => Or.inl (hrequested w hw), fun w => ?_⟩
    rw [hjoins, if_neg fun h => absurd h.1 Bool.false_ne_true]
  | writeable v clock accepts grown =>
    obtain ⟨os, htrace, hrequested, hjoins⟩ := hserves _ (sendAll_serves s clock accepts)
    rcases writeable_cases s v clock accepts grown with ⟨hv, h⟩ | ⟨hv, h⟩
    · rw [step, h]
      refine ⟨os, htrace, fun w hw => Or.inl (hrequested w hw), fun w => ?_⟩
      rw [hjoins, if_neg]
      rintro ⟨hw, hnot⟩
      exact hnot (of_decide_eq_true hw ▸ hv)
    · obtain ⟨p, hp, g, g', hjoin⟩ : ∃ p : Player ℝ, p.wsi = v ∧ ∃ g g',
          ((s.sendAll clock accepts).join v grown).trace =
            (s.sendAll clock accepts).trace ++ [.joined p g g'] :=
        ⟨((s.sendAll clock accepts).game.newPlayer v).1, rfl, _, _, rfl⟩
      rw [step, h, hjoin, htrace]
      refine ⟨os ++ [.joined p g g'], List.append_assoc _ _ _, fun w hw => ?_, fun w => ?_⟩
      · rcases List.mem_append.mp hw with hw | hw
        · exact Or.inl (hrequested w hw)
        · cases List.mem_singleton.mp hw
      · rw [List.countP_append, hjoins, Nat.zero_add, List.countP_singleton]
        by_cases hw : v = w
        · subst hw
          rw [if_pos (by simp [Obs.joins, hp]), if_pos ⟨by simp [Event.isWriteable], hv⟩]
        · rw [if_neg (by simp [Obs.joins, hp, hw]), if_neg fun hc => hw (of_decide_eq_true hc.1)]
  | receive v packet beyond =>
    have hnone : ∀ w, ¬ ((Event.receive v packet beyond : Event ℝ).isWriteable w ∧ w ∉ s.wsis) :=
      fun w h => absurd h.1 Bool.false_ne_true
    unfold step receive
    dsimp only
    split_ifs with hlen
    · refine ⟨[.received v packet], rfl, fun w hw => ?_, fun w => (if_neg (hnone w)).symm⟩
      cases List.mem_singleton.mp hw
    · refine ⟨[.received v packet, .requested v], ?_, fun w hw => Or.inr ?_,
        fun w => (if_neg (hnone w)).symm⟩
      · simp [observe]
      · rcases List.mem_cons.mp hw with hw | hw
        · cases hw
        · cases List.mem_singleton.mp hw
          rfl
  | peerClose v =>
    obtain ⟨os, htrace, hrequested, hjoins⟩ := hserves _ (peerClose_serves s v)
    refine ⟨os, htrace, fun w hw => Or.inl (hrequested w hw), fun w => ?_⟩
    rw [hjoins, if_neg fun h => absurd h.1 Bool.false_ne_true]
  | other =>
    refine ⟨[], (List.append_nil _).symm, fun w hw => (by cases hw), fun w => ?_⟩
    rw [if_neg fun h => absurd h.1 Bool.false_ne_true]
    rfl

end Sys

/-- What libwebsockets reports: connections that open and close, and the events in between. -/
inductive Signal (K : Type)
  | established (wsi : Wsi)
  | event (e : Event K)
  | closed (wsi : Wsi)

/-- The server with its open connections. -/
structure Link (K : Type) where
  sys : Sys K
  opened : List Wsi
  /-- The length of the trace when the connection was last established. -/
  since : Wsi → ℕ

namespace Link
variable {K : Type} [Field K] [LinearOrder K] [FloorRing K] [Arith K]

def start (rand : ℕ → Fin (randMax + 1)) (stale : CellPtr → K) : Link K where
  sys := .init rand stale
  opened := []
  since := fun _ => 0

/-- `callback_wsapi` does nothing when a connection is established, and nothing when it closes. -/
def step (l : Link K) : Signal K → Link K
  | .established w =>
    { sys := l.sys.step .other, opened := w :: l.opened,
      since := fun v => if v = w then l.sys.trace.length else l.since v }
  | .event e => { l with sys := l.sys.step e }
  | .closed w => { l with sys := l.sys.step .other, opened := l.opened.filter (· ≠ w) }

/-- Callbacks come for open connections, and only a connection that is not open is established. -/
def Allows (l : Link K) : Signal K → Prop
  | .established w => w ∉ l.opened
  | .event e => ∀ w, e.wsi = some w → w ∈ l.opened
  | .closed w => w ∈ l.opened

/-- The server and its connections after the signals. -/
def after (rand : ℕ → Fin (randMax + 1)) (stale : CellPtr → K) (signals : List (Signal K)) :
    Link K := signals.foldl step (start rand stale)

end Link

/-- A run of the server under the rules of libwebsockets. -/
structure Session (K : Type) [Field K] [LinearOrder K] [FloorRing K] [Arith K] where
  rand : ℕ → Fin (randMax + 1)
  stale : CellPtr → K
  signals : List (Signal K)
  lawful : Always (fun pre x => (Link.after rand stale pre).Allows x) signals

namespace Session
variable {K : Type} [Field K] [LinearOrder K] [FloorRing K] [Arith K]

def after (c : Session K) (pre : List (Signal K)) : Link K := Link.after c.rand c.stale pre

theorem after_snoc (c : Session K) (pre : List (Signal K)) (x : Signal K) :
    c.after (pre ++ [x]) = (c.after pre).step x := by
  unfold after Link.after
  rw [List.foldl_append]
  rfl

theorem invariant (c : Session ℝ) (pre : List (Signal ℝ)) : Invariant .idle (c.after pre).sys := by
  induction pre using List.reverseRecOn with
  | nil => exact init_invariant c.rand c.stale
  | append_singleton pre x ih =>
    rw [after_snoc]
    cases x with
    | established w => exact ih
    | event e => exact Moves.invariant (Sys.step_moves ih e) ih
    | closed w => exact ih

end Session

/-- The connections an event calls `lws_write` and `lws_callback_on_writable` on. -/
def Sys.called {K : Type} [Field K] [LinearOrder K] [FloorRing K] [Arith K] (s : Sys K)
    (e : Event K) : List Wsi :=
  (((s.step e).trace.drop s.trace.length).filterMap fun o => match o with
    | .requested w => some w
    | _ => none) ++
  match e with
  | .writeable _ clock accepts _ => s.writes clock accepts
  | _ => []

/-- Every player belongs to an open connection, only open connections are called, and a connection
that is established finds no player of its own. -/
structure OnlyOpen (c : Session ℝ) : Prop where
  players : ∀ pre, pre <+: c.signals → ∀ w ∈ (c.after pre).sys.wsis, w ∈ (c.after pre).opened
  called : Always (fun pre x => ∀ e, x = .event e → ∀ w ∈ (c.after pre).sys.called e,
    w ∈ (c.after pre).opened) c.signals
  fresh : Always (fun pre x => ∀ w, x = .established w → w ∉ (c.after pre).sys.wsis) c.signals

/-- A connection that closes has no player any more. -/
def LeavesFirst (c : Session ℝ) : Prop :=
  Always (fun pre x => ∀ w, x = .closed w → w ∉ (c.after pre).sys.wsis) c.signals

theorem Sys.mem_called {s : Sys ℝ} (hi : Invariant .idle s) {e : Event ℝ} {w : Wsi}
    (h : w ∈ s.called e) : w ∈ s.wsis ∨ e.wsi = some w := by
  rcases List.mem_append.mp h with h | h
  · obtain ⟨os, htrace, hrequested, -⟩ := Sys.step_log hi e
    rw [htrace, List.drop_left] at h
    obtain ⟨o, ho, how⟩ := List.mem_filterMap.mp h
    cases o with
    | requested v => exact hrequested w (Option.some.inj how ▸ ho)
    | _ => cases how
  · cases e with
    | writeable v clock accepts grown =>
      obtain ⟨p, hp, -, rfl⟩ := Sys.mem_writes.mp h
      exact Or.inl (List.mem_map_of_mem hp)
    | _ => cases h

theorem players_opened {c : Session ℝ} (h : LeavesFirst c) (pre : List (Signal ℝ))
    (hpre : pre <+: c.signals) : ∀ w ∈ (c.after pre).sys.wsis, w ∈ (c.after pre).opened := by
  induction pre using List.reverseRecOn with
  | nil =>
    intro w hw
    have hnone : (c.after []).sys.wsis = [] :=
      congrArg (List.map Player.wsi) (Game.mapInit_started c.rand c.stale).players
    rw [hnone] at hw
    cases hw
  | append_singleton pre x ih =>
    have hbefore := ih ((List.prefix_append _ _).trans hpre)
    have hlawful := c.lawful pre x hpre
    have hleaves := h pre x hpre
    rw [c.after_snoc]
    cases x with
    | established v => exact fun w hw => List.mem_cons_of_mem _ (hbefore w hw)
    | event e =>
      intro w hw
      rcases Sys.step_wsis (c.invariant pre) e hw with hw | hw
      · exact hbefore w hw
      · exact hlawful w hw
    | closed v =>
      intro w hw
      refine List.mem_filter.mpr ⟨hbefore w hw, decide_eq_true fun hwv => ?_⟩
      exact hleaves v rfl (hwv ▸ hw)

/-- Only open connections have players exactly when every connection that closes has lost its player
before. -/
theorem only_open (c : Session ℝ) : OnlyOpen c ↔ LeavesFirst c := by
  constructor
  · rintro h pre x hpre w rfl hw
    have hafter := h.players _ hpre w (by rw [c.after_snoc]; exact hw)
    rw [c.after_snoc] at hafter
    exact of_decide_eq_true (List.mem_filter.mp hafter).2 rfl
  · intro h
    refine ⟨players_opened h, ?_, ?_⟩
    · rintro pre x hpre e rfl w hw
      rcases Sys.mem_called (c.invariant pre) hw with hw | hw
      · exact players_opened h pre ((List.prefix_append _ _).trans hpre) w hw
      · exact c.lawful pre _ hpre w hw
    · rintro pre x hpre w rfl hw
      exact c.lawful pre _ hpre (players_opened h pre ((List.prefix_append _ _).trans hpre) w hw)

/-- A connection is established, calls back once and is dropped without a close frame. -/
def dropped (K : Type) [Field K] : List (Signal K) :=
  [.established 0, .event (.writeable 0 0 (fun _ => true) 8), .closed 0]

theorem dropped_lawful :
    Always (fun pre x => (Link.after (fun _ => 0) (fun _ => 0) pre).Allows x) (dropped ℝ) := by
  show Always _ ((([] ++ [_]) ++ [_]) ++ [_])
  rw [always_snoc, always_snoc, always_snoc]
  refine ⟨⟨⟨always_nil _, ?_⟩, ?_⟩, ?_⟩
  · exact List.not_mem_nil
  · intro w hw
    exact List.mem_singleton.mpr (Option.some.inj hw).symm
  · exact List.mem_singleton_self 0

theorem Link.start_players (rand : ℕ → Fin (randMax + 1)) (stale : CellPtr → ℝ) :
    (Link.start rand stale).sys.game.players = [] := (Game.mapInit_started rand stale).players

theorem dropped_wsis {l : Link ℝ} (hnone : l.sys.game.players = []) :
    ((dropped ℝ).foldl Link.step l).sys.wsis = [0] :=
  Sys.first_writeable (s := l.sys) hnone

theorem dropped_opened {l : Link ℝ} (hnone : l.opened = []) :
    ((dropped ℝ).foldl Link.step l).opened = [] := by
  show (0 :: l.opened).filter (fun v => v ≠ 0) = []
  rw [hnone]
  rfl

/-- The player of the dropped connection stays. -/
theorem dropped_player_stays : ¬ OnlyOpen
    { rand := fun _ => 0, stale := fun _ => 0, signals := dropped ℝ, lawful := dropped_lawful } := by
  intro h
  have hopen := h.players (dropped ℝ) List.prefix_rfl 0 (by
    unfold Session.after Link.after
    rw [dropped_wsis (Link.start_players _ _)]
    exact List.mem_singleton_self 0)
  unfold Session.after Link.after at hopen
  rw [dropped_opened rfl] at hopen
  cases hopen

end Agar
