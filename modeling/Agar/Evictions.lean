import Agar.Commands
import Agar.Rejoining
import Agar.Schedule

/-! Connections that take no packets: how many ticks their players last. -/

namespace Agar
open MovedVector Trace

namespace Obs
variable {K : Type}

/-- A tick ends here. -/
def ends : Obs K → Bool
  | .ticked _ => true
  | _ => false

end Obs

section Waits
variable {K : Type} (w : Wsi) (tr : List (Obs K))

/-- The ticks since the last packet of the present player of the connection. -/
def ticksWaited : ℕ := (waiting w tr).countP Obs.ends

/-- The updates since the last packet of the present player of the connection. -/
def updatesWaited : ℕ := (waiting w tr).countP (Obs.updates w)

end Waits

namespace Message

/-- `Data` is where the constructor has put it. -/
def Based (m : Message) : Prop := ∃ r, m.region = some r ∧ r.start = lwsPre

theorem Based.ptr {m : Message} (h : m.Based) : m.ptr = lwsPre + m.pending.length := by
  obtain ⟨r, hr, hstart⟩ := h
  have hle := r.start_le
  simp only [Message.ptr, pending, hr, AppendBuffer.window_length]
  omega

theorem Based.appendAll {m : Message} (h : m.Based) (ms : List (Msg ℝ)) :
    (m.appendAll ms).Based := by
  obtain ⟨r, hr, hstart⟩ := h
  refine ⟨AppendBuffer.pushAll r (ms.flatMap Msg.encode), ?_, ?_⟩
  · rw [appendAll_eq_write, write, hr]
    rfl
  · rw [AppendBuffer.pushAll_start, hstart]

theorem Based.sent {m : Message} (h : m.Based) : ({ m with ack := false } : Message).clear.Based := by
  obtain ⟨r, hr, hstart⟩ := h
  refine ⟨AppendBuffer.reset r 0, ?_, hstart⟩
  simp [clear, hr]

end Message

theorem Run.based (r : Run ℝ) : ∀ p ∈ r.final.game.players, p.wsMessage.Based := by
  refine Run.induction_shift (P := fun s => ∀ p ∈ s.game.players, p.wsMessage.Based)
    (fun rand stale p hp => ?_) (fun a s s' hi h hs => h.messages ⟨_, rfl, rfl⟩
      (fun m ms hm => hm.appendAll ms) (fun m hm => hm.sent) (fun m hm => hm) hi hs) r
  have hnone : (Sys.init rand stale).game.players = [] := (Game.mapInit_started rand stale).players
  rw [hnone] at hp
  cases hp

theorem Run.ptr (r : Run ℝ) {p : Player ℝ} (hp : p ∈ r.final.game.players) :
    p.wsMessage.ptr = lwsPre + (encoded p.wsi (waiting p.wsi r.final.trace)).length := by
  have hrest : p.wsMessage.pending = encoded p.wsi (waiting p.wsi r.final.trace) :=
    (r.streaming p.channel (List.mem_map_of_mem hp)).rest
  rw [(r.based p hp).ptr, hrest]

/-- Every update appends at least the position of the camera. -/
def SaysPosition (_ : List (Obs ℝ)) (u : UpdateRecord ℝ) : Prop :=
  9 ≤ (u.finished.said.flatMap Msg.encode).length

theorem Run.saysPosition (r : Run ℝ) : Always (AtUpdates SaysPosition) r.final.trace := by
  refine Run.induction_updates (P := fun _ _ => True) (fun _ _ => trivial)
    (fun _ _ _ _ _ _ _ => trivial) (fun n s p _ _ _ => ?_) r
  obtain ⟨ms, x, y, hsaid⟩ := Sys.updated_said s.game n p
  unfold SaysPosition
  rw [hsaid, List.flatMap_append, List.length_append]
  exact Nat.le_add_left 9 _

theorem encoded_length {w : Wsi} {os : List (Obs ℝ)} (h : ∀ u, .updated u ∈ os →
    9 ≤ (u.finished.said.flatMap Msg.encode).length) :
    9 * os.countP (Obs.updates w) ≤ (encoded w os).length := by
  induction os with
  | nil => exact Nat.zero_le _
  | cons o os ih =>
    have hrest := ih fun u hu => h u (List.mem_cons_of_mem o hu)
    have hcons : (encoded w (o :: os)).length =
        ((o.appended w).flatMap Msg.encode).length + (encoded w os).length := by
      unfold encoded
      rw [List.flatMap_cons, List.flatMap_append, List.length_append]
    rw [hcons, List.countP_cons]
    split_ifs with hupdates
    · cases o with
      | updated u =>
        have hsaid := h u List.mem_cons_self
        have happended : (Obs.updated u).appended w = u.finished.said :=
          if_pos (of_decide_eq_true hupdates)
        rw [happended]
        omega
      | _ => cases hupdates
    · omega

theorem Run.waited_length (r : Run ℝ) (w : Wsi) : 9 * updatesWaited w r.final.trace ≤
    (encoded w (waiting w r.final.trace)).length := by
  refine encoded_length fun u hu => ?_
  obtain ⟨pre, post, htrace⟩ := List.append_of_mem (since_subset _ _ hu)
  refine r.saysPosition pre (.updated u) ⟨post, ?_⟩
  rw [htrace, List.append_assoc]
  rfl

namespace Sys

/-- No tick ends and no player is updated meanwhile, and whoever is new has joined. -/
def Lull (s s' : Sys ℝ) : Prop := ∃ os, s'.trace = s.trace ++ os ∧
  (∀ o ∈ os, o.ends = false ∧ ∀ w, o.updates w = false) ∧
  ∀ w ∈ s'.wsis, w ∈ s.wsis ∨ ∃ o ∈ os, o.joins w = true

theorem Lull.refl (s : Sys ℝ) : Lull s s :=
  ⟨[], (List.append_nil _).symm, fun o ho => (by cases ho), fun _ hw => Or.inl hw⟩

theorem Lull.trans {s s' s'' : Sys ℝ} (h : Lull s s') (h' : Lull s' s'') : Lull s s'' := by
  obtain ⟨os, htrace, hos, hwsis⟩ := h
  obtain ⟨os', htrace', hos', hwsis'⟩ := h'
  refine ⟨os ++ os', by rw [htrace', htrace, List.append_assoc], fun o ho => ?_, fun w hw => ?_⟩
  · exact (List.mem_append.mp ho).elim (hos o) (hos' o)
  · rcases hwsis' w hw with hw | ⟨o, ho, hjoins⟩
    · rcases hwsis w hw with hw | ⟨o, ho, hjoins⟩
      · exact Or.inl hw
      · exact Or.inr ⟨o, List.mem_append_left _ ho, hjoins⟩
    · exact Or.inr ⟨o, List.mem_append_right _ ho, hjoins⟩

theorem Lull.of_subset {s s' : Sys ℝ} (os : List (Obs ℝ)) (hwsis : s'.wsis ⊆ s.wsis)
    (htrace : s'.trace = s.trace ++ os)
    (hos : ∀ o ∈ os, o.ends = false ∧ ∀ w, o.updates w = false) : Lull s s' :=
  ⟨os, htrace, hos, fun _ hw => Or.inl (hwsis hw)⟩

theorem sendAt_lull (s : Sys ℝ) (clock : ℝ) (accepts : ℕ → Bool) (i : ℕ) :
    Lull s (s.sendAt clock accepts i) := by
  have hwsis : (s.sendAt clock accepts i).wsis = s.wsis := sendAt_wsi s clock accepts i
  rcases sendAt_cases s clock accepts i with h | ⟨p, -, -, -, h⟩
  · rw [h]
    exact Lull.refl s
  · refine Lull.of_subset [.wrote p.wsi clock p.wsMessage.pending] ?_ (by rw [h]) fun o ho => ?_
    · rw [hwsis]
      exact List.Subset.refl _
    · rw [List.mem_singleton.mp ho]
      exact ⟨rfl, fun _ => rfl⟩

theorem sendAll_lull (s : Sys ℝ) (clock : ℝ) (accepts : ℕ → Bool) :
    Lull s (s.sendAll clock accepts) := by
  unfold sendAll
  induction List.range s.game.players.length generalizing s with
  | nil => exact Lull.refl s
  | cons i is ih => exact (sendAt_lull s clock accepts i).trans (ih _)

theorem join_lull (s : Sys ℝ) (w : Wsi) (grown : ℕ) : Lull s (s.join w grown) := by
  let p : Player ℝ := (s.game.newPlayer w).1
  let o : Obs ℝ := .joined p s.game (s.join w grown).game
  refine ⟨[o], rfl, fun o' ho => ?_, fun v hv => ?_⟩
  · rw [List.mem_singleton.mp ho]
    exact ⟨rfl, fun _ => rfl⟩
  · have hjoin : (s.join w grown).wsis = s.wsis ++ [w] := join_wsi s w grown
    rw [hjoin] at hv
    rcases List.mem_append.mp hv with hv | hv
    · exact Or.inl hv
    · exact Or.inr ⟨o, List.mem_singleton_self _,
        decide_eq_true (List.mem_singleton.mp hv).symm⟩

theorem peerClose_lull (s : Sys ℝ) (w : Wsi) : Lull s (s.peerClose w) := by
  have hwsis := (peerClose_serves s w).wsis
  unfold peerClose at hwsis ⊢
  split at hwsis
  next => exact Lull.refl s
  next x h =>
    refine Lull.of_subset [.erased s.game x] hwsis rfl fun o ho => ?_
    rw [List.mem_singleton.mp ho]
    exact ⟨rfl, fun _ => rfl⟩

theorem receive_lull {s : Sys ℝ} (hi : Invariant .idle s) (w : Wsi) (packet : List Byte)
    (beyond : ℕ → Byte) : Lull s (s.receive w packet beyond) := by
  have hwsis : (s.receive w packet beyond).wsis ⊆ s.wsis := by
    rw [receive_wsis hi]
    exact List.Subset.refl _
  have hshort : (s.receive w packet beyond).trace = s.trace ++ [.received w packet] ∨
      (s.receive w packet beyond).trace = s.trace ++ [.received w packet, .requested w] := by
    unfold receive
    dsimp only
    split_ifs
    · exact Or.inl rfl
    · exact Or.inr (by simp [observe])
  rcases hshort with htrace | htrace
  · refine Lull.of_subset _ hwsis htrace fun o ho => ?_
    rw [List.mem_singleton.mp ho]
    exact ⟨rfl, fun _ => rfl⟩
  · refine Lull.of_subset _ hwsis htrace fun o ho => ?_
    rcases List.mem_pair.mp ho with rfl | rfl <;> exact ⟨rfl, fun _ => rfl⟩

theorem step_lull {s : Sys ℝ} (hi : Invariant .idle s) {e : Event ℝ}
    (he : ∀ clock, e ≠ .tick clock) : Lull s (s.step e) := by
  cases e with
  | tick clock => exact absurd rfl (he clock)
  | writeable w clock accepts grown =>
    rcases writeable_cases s w clock accepts grown with ⟨-, h⟩ | ⟨-, h⟩
    · rw [step, h]
      exact sendAll_lull s clock accepts
    · rw [step, h]
      exact (sendAll_lull s clock accepts).trans (join_lull _ w grown)
  | receive w packet beyond => exact receive_lull hi w packet beyond
  | peerClose w => exact peerClose_lull s w
  | other => exact Lull.refl s

theorem Lull.waited {s s' : Sys ℝ} (h : Lull s s') (w : Wsi) :
    (ticksWaited w s'.trace = ticksWaited w s.trace ∧
      updatesWaited w s'.trace = updatesWaited w s.trace ∧
      encoded w (waiting w s'.trace) = encoded w (waiting w s.trace) ∧
      (w ∈ s'.wsis → w ∈ s.wsis)) ∨
    (ticksWaited w s'.trace = 0 ∧ updatesWaited w s'.trace = 0) := by
  obtain ⟨os, htrace, hos, hwsis⟩ := h
  have hnone : ∀ l ⊆ os, l.countP Obs.ends = 0 ∧ l.countP (Obs.updates w) = 0 := fun l hl => by
    refine ⟨List.countP_eq_zero.mpr fun o ho => ?_, List.countP_eq_zero.mpr fun o ho => ?_⟩
    · rw [(hos o (hl ho)).1]
      exact Bool.false_ne_true
    · rw [(hos o (hl ho)).2 w]
      exact Bool.false_ne_true
  by_cases hmarked : ∃ o ∈ os, (o.joins w || o.writes w) = true
  -- a packet is taken or the player is new: only what comes after that counts
  · obtain ⟨o, ho, hmark⟩ := hmarked
    obtain ⟨a, b, rfl⟩ := List.append_of_mem ho
    have hwaiting : waiting w s'.trace = since (fun o => o.joins w || o.writes w) b := by
      unfold waiting
      rw [htrace, ← List.append_assoc]
      exact since_append_marked hmark
    have hsub : waiting w s'.trace ⊆ a ++ o :: b := by
      rw [hwaiting]
      exact fun o' ho' => List.mem_append_right a (List.mem_cons_of_mem o (since_subset _ _ ho'))
    exact Or.inr (hnone _ hsub)
  · have hunmarked : ∀ o ∈ os, (o.joins w || o.writes w) = false := fun o ho => by
      by_contra hmark
      exact hmarked ⟨o, ho, eq_true_of_ne_false hmark⟩
    have hwaiting : waiting w s'.trace = waiting w s.trace ++ os := by
      rw [htrace]
      exact since_append_of_unmarked hunmarked
    have hsilent : os.flatMap (Obs.appended w) = [] := List.flatMap_eq_nil_iff.mpr fun o ho => by
      cases o with
      | updated u => exact if_neg (of_decide_eq_false ((hos _ ho).2 w))
      | _ => rfl
    obtain ⟨hends, hupdates⟩ := hnone os (List.Subset.refl os)
    refine Or.inl ⟨?_, ?_, ?_, fun hw => ?_⟩
    · unfold ticksWaited
      rw [hwaiting, List.countP_append, hends, Nat.add_zero]
    · unfold updatesWaited
      rw [hwaiting, List.countP_append, hupdates, Nat.add_zero]
    · unfold encoded
      rw [hwaiting, List.flatMap_append, hsilent, List.append_nil]
    · rcases hwsis w hw with hw | ⟨o, ho, hjoins⟩
      · exact hw
      · have hmark := hunmarked o ho
        rw [hjoins] at hmark
        cases hmark

theorem updateEntries_count (us : List (UpdateRecord ℝ)) (w : Wsi) :
    (us.flatMap updateEntries).countP Obs.ends = 0 ∧
    (us.flatMap updateEntries).countP (Obs.updates w) =
      (us.map fun u => u.player.wsi).count w := by
  induction us with
  | nil => exact ⟨rfl, rfl⟩
  | cons u us ih =>
    rw [List.flatMap_cons, List.countP_append, List.countP_append, ih.1, ih.2, List.map_cons,
      List.count_cons]
    refine ⟨rfl, ?_⟩
    by_cases hw : u.player.wsi = w
    · simp [updateEntries, Obs.updates, hw, add_comm]
    · simp [updateEntries, Obs.updates, hw]

theorem Scheduled.waited {s : Sys ℝ} {clock : ℝ} (h : s.Scheduled clock)
    (hdistinct : s.wsis.Nodup) (w : Wsi) :
    ticksWaited w (s.tick clock).trace = ticksWaited w s.trace + 1 ∧
    updatesWaited w (s.tick clock).trace =
      updatesWaited w s.trace + (if w ∈ s.roomy.map Player.wsi then 1 else 0) ∧
    (encoded w (waiting w s.trace)).length ≤
      (encoded w (waiting w (s.tick clock).trace)).length := by
  obtain ⟨kicks, before, us, htrace, hkicks, -, -, hwsi, -⟩ := h
  let os : List (Obs ℝ) := kicks ++ [.collided before before.collisionPhase] ++
    us.flatMap updateEntries ++ [.ticked (s.tick clock).game]
  have hkicked : ∀ f : Obs ℝ → Bool, (∀ g n, f (.erased g n) = false) → kicks.countP f = 0 := by
    intro f hf
    refine List.countP_eq_zero.mpr fun o ho => ?_
    obtain ⟨g, n, rfl⟩ := hkicks o ho
    rw [hf]
    exact Bool.false_ne_true
  have hunmarked : ∀ o ∈ os, (o.joins w || o.writes w) = false := by
    intro o ho
    rcases List.mem_append.mp ho with ho | ho
    · rcases List.mem_append.mp ho with ho | ho
      · rcases List.mem_append.mp ho with ho | ho
        · obtain ⟨g, n, rfl⟩ := hkicks o ho
          rfl
        · rw [List.mem_singleton.mp ho]
          rfl
      · obtain ⟨u, -, ho⟩ := List.mem_flatMap.mp ho
        rcases List.mem_pair.mp ho with rfl | rfl <;> rfl
    · rw [List.mem_singleton.mp ho]
      rfl
  have hnodup : (s.roomy.map Player.wsi).Nodup :=
    hdistinct.sublist (List.filter_sublist.map Player.wsi)
  obtain ⟨hends, hupdates⟩ := updateEntries_count us w
  have hwaiting : waiting w (s.tick clock).trace = waiting w s.trace ++ os := by
    have hos : (s.tick clock).trace = s.trace ++ os := by
      rw [htrace]
      simp only [os, List.append_assoc]
    rw [hos]
    exact since_append_of_unmarked hunmarked
  have hticks : os.countP Obs.ends = 1 := by
    simp only [os, List.countP_append, hends, hkicked Obs.ends fun _ _ => rfl]
    rfl
  -- no two players share a connection, so none is updated twice
  have honce : os.countP (Obs.updates w) = if w ∈ s.roomy.map Player.wsi then 1 else 0 := by
    simp only [os, List.countP_append, hupdates, hkicked (Obs.updates w) fun _ _ => rfl, hwsi,
      hnodup.count]
    exact Nat.zero_add _
  refine ⟨?_, ?_, ?_⟩
  · unfold ticksWaited
    rw [hwaiting, List.countP_append, hticks]
  · unfold updatesWaited
    rw [hwaiting, List.countP_append, honce]
  · unfold encoded
    rw [hwaiting, List.flatMap_append, List.flatMap_append, List.length_append]
    exact Nat.le_add_right _ _

end Sys

/-- The ticks a player can take part in while its connection takes no packet: nine bytes or more are
appended in each of them, and more than a quarter of the buffer has to be left free. -/
def patience : ℕ := 5460

/-- Who is there has been updated as often as ticks have ended, and the updates are few unless the
buffer has overrun. -/
structure Sys.Waited (s : Sys ℝ) : Prop where
  updates : ∀ w ∈ s.wsis, updatesWaited w s.trace = ticksWaited w s.trace
  bound : ∀ w, updatesWaited w s.trace ≤ patience ∨
    maxSize < lwsPre + (encoded w (waiting w s.trace)).length

theorem Sys.Waited.lull {s s' : Sys ℝ} (h : s.Waited) (hl : s.Lull s') : s'.Waited where
  updates := fun w hw => by
    rcases hl.waited w with ⟨hticks, hupdates, -, hwsis⟩ | ⟨hticks, hupdates⟩
    · rw [hticks, hupdates, h.updates w (hwsis hw)]
    · rw [hticks, hupdates]
  bound := fun w => by
    rcases hl.waited w with ⟨-, hupdates, hencoded, -⟩ | ⟨-, hupdates⟩
    · rw [hupdates, hencoded]
      exact h.bound w
    · rw [hupdates]
      exact Or.inl (Nat.zero_le _)

theorem Run.roomy_waited (r : Run ℝ) {w : Wsi} (hw : w ∈ r.final.roomy.map Player.wsi) :
    updatesWaited w r.final.trace + 1 ≤ patience ∨
      maxSize < lwsPre + (encoded w (waiting w r.final.trace)).length := by
  obtain ⟨p, hp, rfl⟩ := List.mem_map.mp hw
  obtain ⟨hmem, hconnected⟩ := List.mem_filter.mp hp
  have hptr := r.ptr hmem
  have hlength := r.waited_length p.wsi
  rcases Nat.lt_or_ge maxSize p.wsMessage.ptr with hover | hfits
  · exact Or.inr (hptr ▸ hover)
  -- three quarters of the buffer hold 5459 updates of nine bytes each
  · have hroom := (Message.connected_iff hfits).mp hconnected
    have hpre : lwsPre = 16 := rfl
    have hpatience : patience = 5460 := rfl
    left
    omega

theorem Run.tick_waited (r : Run ℝ) (h : r.final.Waited) (clock : ℝ) :
    (r.final.tick clock).Waited := by
  have hscheduled := Sys.tick_schedule r clock
  have hwsis : (r.final.tick clock).wsis = r.final.roomy.map Player.wsi := by
    obtain ⟨-, -, -, -, -, -, -, -, hwsis⟩ := hscheduled
    exact hwsis
  refine ⟨fun w hw => ?_, fun w => ?_⟩
  · obtain ⟨hticks, hupdates, -⟩ := hscheduled.waited r.invariant.distinct w
    rw [hwsis] at hw
    have hbefore : w ∈ r.final.wsis := (List.filter_sublist.map Player.wsi).subset hw
    rw [hticks, hupdates, if_pos hw, h.updates w hbefore]
  · obtain ⟨-, hupdates, hlength⟩ := hscheduled.waited r.invariant.distinct w
    rw [hupdates]
    by_cases hw : w ∈ r.final.roomy.map Player.wsi
    · rw [if_pos hw]
      exact (r.roomy_waited hw).imp_right fun hover => by omega
    · rw [if_neg hw]
      exact (h.bound w).imp_right fun hover => by omega

theorem Run.waited (r : Run ℝ) : r.final.Waited := by
  obtain ⟨rand, stale, events⟩ := r
  induction events using List.reverseRecOn with
  | nil => exact ⟨fun _ _ => rfl, fun _ => Or.inl (Nat.zero_le _)⟩
  | append_singleton es e ih =>
    let r : Run ℝ := ⟨rand, stale, es⟩
    have hwaited : r.final.Waited := ih
    have hfinal : Run.final ⟨rand, stale, es ++ [e]⟩ = r.final.step e := by
      unfold Run.final
      rw [List.foldl_append]
      rfl
    rw [hfinal]
    by_cases he : ∃ clock, e = .tick clock
    · obtain ⟨clock, rfl⟩ := he
      exact r.tick_waited hwaited clock
    · exact hwaited.lull (Sys.step_lull r.invariant fun clock hclock => he ⟨clock, hclock⟩)

/-- Each player there has been updated as often as ticks have ended since its last packet, and these
ticks are few, unless its buffer has overrun. -/
def Outwaited (s : Sys ℝ) : Prop := ∀ p ∈ s.game.players,
  updatesWaited p.wsi s.trace = ticksWaited p.wsi s.trace ∧
    (ticksWaited p.wsi s.trace ≤ patience ∨ maxSize < p.wsMessage.ptr)

/-- In every run a player whose connection takes no packets is updated in every tick, and it is gone
after 5460 of them. Where its buffer has overrun before, the space left is negative, and the unsigned
comparison takes it for room. -/
theorem gone_in_time (r : Run ℝ) : Outwaited r.final := by
  intro p hp
  have hupdates := r.waited.updates p.wsi (List.mem_map_of_mem hp)
  refine ⟨hupdates, ?_⟩
  rw [r.ptr hp, ← hupdates]
  exact r.waited.bound p.wsi

end Agar
