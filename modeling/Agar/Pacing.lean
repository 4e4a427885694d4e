import Agar.Stream

/-! The pacing of the packets of a player: `ACK` and `SendTime` remember the last packet of the
connection and whether the client has answered it. -/

namespace Agar
open MovedVector Trace

/-- The client has sent a packet that is not empty. -/
def Answered (w : Wsi) (tr : List (Obs ℝ)) : Prop := ∃ packet, packet ≠ [] ∧ .received w packet ∈ tr

/-- `SendTime` and `ACK` tell of the last packet: when it was sent, and, if `ACK` is set, that it
was answered. -/
def Paced (tr : List (Obs ℝ)) (w : Wsi) (sendTime : ℝ) (ack : Bool) : Prop :=
  ∀ a t b m, life w tr = a ++ .wrote w t b :: m → (∀ o ∈ m, o.writes w = false) →
    sendTime = t ∧ (ack = true → Answered w m)

theorem split_before {α : Type} {l os a m : List α} {x : α} (kind : α → Bool)
    (h : l ++ os = a ++ x :: m) (hx : kind x = true) (hos : ∀ o ∈ os, kind o = false) :
    ∃ m', l = a ++ x :: m' ∧ m = m' ++ os := by
  have hnot : x ∉ os := fun hm => by
    rw [hos x hm] at hx
    cases hx
  rcases List.append_eq_append_iff.mp h with ⟨c, -, hc⟩ | ⟨c, hl, hc⟩
  · exact absurd (hc ▸ List.mem_append_right c List.mem_cons_self) hnot
  · rcases c with - | ⟨y, m'⟩
    · rw [List.nil_append] at hc
      exact absurd (hc ▸ List.mem_cons_self) hnot
    · obtain ⟨rfl, rfl⟩ := List.cons_eq_cons.mp hc
      exact ⟨m', hl, rfl⟩

theorem Paced.append {tr os : List (Obs ℝ)} {w : Wsi} {sendTime : ℝ} {ack ack' : Bool}
    (h : Paced tr w sendTime ack) (hos : ∀ o ∈ os, o.joins w = false ∧ o.writes w = false)
    (hack : ack' = true → ack = true ∨ Answered w os) : Paced (tr ++ os) w sendTime ack' := by
  intro a t b m heq hm
  have hlife : life w (tr ++ os) = life w tr ++ os :=
    since_append_of_unmarked fun o ho => (hos o ho).1
  rw [hlife] at heq
  obtain ⟨m', hl, rfl⟩ := split_before (Obs.writes w) heq (by simp [Obs.writes])
    fun o ho => (hos o ho).2
  obtain ⟨htime, hanswer⟩ := h a t b m' hl fun o ho => hm o (List.mem_append_left os ho)
  refine ⟨htime, fun h' => ?_⟩
  rcases hack h' with h' | ⟨packet, hne, hmem⟩
  · obtain ⟨packet, hne, hmem⟩ := hanswer h'
    exact ⟨packet, hne, List.mem_append_left os hmem⟩
  · exact ⟨packet, hne, List.mem_append_right m' hmem⟩

theorem paced_write (tr : List (Obs ℝ)) (w : Wsi) (clock : ℝ) (packet : List Byte) :
    Paced (tr ++ [.wrote w clock packet]) w clock false := by
  intro a t b m heq hm
  refine ⟨?_, fun h => by cases h⟩
  have hlife : life w (tr ++ [.wrote w clock packet]) = life w tr ++ [.wrote w clock packet] :=
    since_append_of_unmarked fun o ho => by rw [List.mem_singleton.mp ho]; rfl
  rw [hlife] at heq
  rcases m.eq_nil_or_concat with rfl | ⟨m', o, rfl⟩
  · obtain ⟨-, h⟩ := List.append_inj' heq rfl
    injection List.singleton_inj.mp h
  · have hlast : life w tr ++ [.wrote w clock packet] = (a ++ .wrote w t b :: m') ++ [o] := by
      rw [heq]
      simp
    obtain ⟨-, h⟩ := List.append_inj' hlast rfl
    have ho := hm o (by simp)
    rw [← List.singleton_inj.mp h] at ho
    simp [Obs.writes] at ho

/-- The connection of a player, with what it remembers of the last packet. -/
def Player.pace (p : Player ℝ) : Wsi × ℝ × Bool := (p.wsi, p.sendTime, p.wsMessage.ack)

theorem pace_carried : Carried Player.moves Player.pace := carried_of_flags _ fun _ _ _ => rfl

def AllPaced (s : Sys ℝ) : Prop :=
  ∀ c ∈ s.game.players.map Player.pace, Paced s.trace c.1 c.2.1 c.2.2

theorem Shift.allPaced {a : Stage} {s s' : Sys ℝ} (h : Shift s s') (hi : Invariant a s) (hs : AllPaced s) :
    AllPaced s' := by
  unfold AllPaced at hs ⊢
  cases h with
  | quiet hplayers os htrace hquiet =>
    rw [map_of_core (f := Player.pace) (fun _ => rfl) hplayers, htrace]
    refine fun c hc => (hs c hc).append (fun o ho => ?_) Or.inl
    rcases hquiet o ho with ⟨g, -, -, rfl⟩ | ⟨g, rfl⟩ <;> exact ⟨rfl, rfl⟩
  | erase x hx hplayers htrace =>
    rw [hplayers, eraseAt_carried pace_carried, htrace]
    refine fun c hc => (hs c ((List.eraseIdx_sublist _ _).subset hc)).append (fun o ho => ?_) Or.inl
    rw [List.mem_singleton.mp ho]
    exact ⟨rfl, rfl⟩
  | update i p hp hplayers htrace =>
    obtain ⟨hwsi, -, -, -, htime, hmessage⟩ := Game.finished_player hi.wellFormed hp
    have hpace : (s.game.updatePlayer i p).finished.player.pace = p.pace := by
      simp only [Player.pace, hwsi, htime, hmessage, Message.appendAll_ack]
    rw [map_of_core_set (f := Player.pace) (fun _ => rfl) hplayers, map_set_same hp hpace, htrace]
    refine fun c hc => (hs c hc).append (fun o ho => ?_) Or.inl
    rcases List.mem_pair.mp ho with rfl | rfl <;> exact ⟨rfl, rfl⟩
  | write i p clock hp hcan hpending hplayers htrace =>
    rw [hplayers, List.map_set, htrace]
    intro c hc
    obtain ⟨j, hj⟩ := List.mem_iff_getElem?.mp hc
    by_cases hij : i = j
    · subst hij
      have hlt : i < (s.game.players.map Player.pace).length := by
        simpa using Game.getElem?_lt hp
      rw [List.getElem?_set_self hlt] at hj
      obtain rfl := Option.some.inj hj
      exact paced_write s.trace p.wsi clock _
    · rw [List.getElem?_set_ne hij, List.getElem?_map] at hj
      obtain ⟨q, hq, rfl⟩ := Option.map_eq_some_iff.mp hj
      have hne : p.wsi ≠ q.wsi := key_ne hi.distinct hp hq hij
      refine (hs _ (List.mem_map_of_mem (List.mem_of_getElem? hq))).append (fun o ho => ?_) Or.inl
      rw [List.mem_singleton.mp ho]
      exact ⟨rfl, by simp [Obs.writes, Player.pace, hne]⟩
  | join p hwsi hsend hmessage hhistory hblocks hsplit hfeed hplayers htrace =>
    rw [hplayers, emplaceBack_carried pace_carried, htrace]
    intro c hc
    rcases List.mem_append.mp hc with hc | hc
    · obtain ⟨q, hq, rfl⟩ := List.mem_map.mp hc
      refine (hs _ hc).append (fun o ho => ?_) Or.inl
      rw [List.mem_singleton.mp ho]
      exact ⟨by simp [Obs.joins, Player.pace, hwsi q hq], rfl⟩
    · -- a new player has sent nothing
      rw [List.mem_singleton.mp hc]
      intro a t b m heq
      have hlife : life p.wsi (s.trace ++ [.joined p s.game s'.game]) = [] := by
        unfold life
        rw [since_snoc, if_pos (by simp [Obs.joins])]
      rw [show p.pace.1 = p.wsi from rfl, hlife] at heq
      simp at heq
  | receive w packet hplayers os htrace hquiet =>
    rw [hplayers, htrace]
    intro c hc
    obtain ⟨q, hq, rfl⟩ := List.mem_map.mp hc
    obtain ⟨p, hp, rfl⟩ := List.mem_map.mp hq
    have hpaced := hs p.pace (List.mem_map_of_mem hp)
    have htime : (p.received w packet).sendTime = p.sendTime := by
      unfold Player.received
      split_ifs <;> rfl
    show Paced _ (p.received w packet).wsi (p.received w packet).sendTime _
    rw [received_wsi, htime]
    refine hpaced.append (fun o ho => ?_) fun hack => ?_
    · rcases List.mem_cons.mp ho with rfl | ho
      · exact ⟨rfl, rfl⟩
      · obtain ⟨v, rfl⟩ := hquiet o ho
        exact ⟨rfl, rfl⟩
    · by_cases hfor : w = p.wsi ∧ packet ≠ []
      · exact Or.inr ⟨packet, hfor.2, hfor.1 ▸ List.mem_cons_self⟩
      · left
        have hsame : p.received w packet = p := if_neg hfor
        have hack' : (p.received w packet).wsMessage.ack = true := hack
        rwa [hsame] at hack'

/-- A packet of a player that sent one before: what lies between the two. The player is the same
one as long as no new one has joined for the connection. -/
def Waited (tr : List (Obs ℝ)) : Obs ℝ → Prop
  | .wrote w t _ => ∀ a t' b m, life w tr = a ++ .wrote w t' b :: m →
      (∀ o ∈ m, o.writes w = false) →
      t - t' > sendInterval ∧ (t - t' > timeoutAck ∨ Answered w m)
  | _ => True

theorem Shift.waited {s s' : Sys ℝ} (h : Shift s s') (hs : AllPaced s)
    (ht : Always Waited s.trace) : Always Waited s'.trace := by
  cases h with
  | quiet hplayers os htrace hquiet =>
    rw [htrace]
    refine always_append_of_forall ht fun o ho _ => ?_
    rcases hquiet o ho with ⟨g, -, -, rfl⟩ | ⟨g, rfl⟩ <;> trivial
  | erase x hx hplayers htrace =>
    rw [htrace]
    exact always_snoc.mpr ⟨ht, trivial⟩
  | update i p hp hplayers htrace =>
    rw [htrace]
    refine always_append_of_forall ht fun o ho _ => ?_
    rcases List.mem_pair.mp ho with rfl | rfl <;> trivial
  | write i p clock hp hcan hpending hplayers htrace =>
    rw [htrace]
    refine always_snoc.mpr ⟨ht, fun a t' b m heq hm => ?_⟩
    obtain ⟨htime, hanswer⟩ :=
      hs p.pace (List.mem_map_of_mem (List.mem_of_getElem? hp)) a t' b m heq hm
    have htime' : p.sendTime = t' := htime
    have hintervals : (sendInterval : ℝ) < timeoutAck := by norm_num [sendInterval, timeoutAck]
    simp only [Player.canSend, Bool.decide_or, Bool.or_eq_true, decide_eq_true_eq, htime'] at hcan
    rcases hcan with hlong | ⟨hack, hshort⟩
    · exact ⟨hintervals.trans hlong, Or.inl hlong⟩
    · exact ⟨hshort, Or.inr (hanswer hack)⟩
  | join p hwsi hsend hmessage hhistory hblocks hsplit hfeed hplayers htrace =>
    rw [htrace]
    exact always_snoc.mpr ⟨ht, trivial⟩
  | receive w packet hplayers os htrace hquiet =>
    rw [htrace]
    refine always_append_of_forall ht fun o ho _ => ?_
    rcases List.mem_cons.mp ho with rfl | ho
    · trivial
    · obtain ⟨v, rfl⟩ := hquiet o ho
      trivial

/-- In every run, of two consecutive packets of one player the second is sent more than the send
interval after the first, and more than the timeout after it unless the client has answered. -/
theorem send_pacing (r : Run ℝ) : Always Waited r.final.trace := by
  have hall : AllPaced r.final ∧ Always Waited r.final.trace := by
    refine Run.induction_shift (P := fun s => AllPaced s ∧ Always Waited s.trace)
      (fun rand stale => ⟨?_, always_nil _⟩)
      (fun _ s s' hi h hs => ⟨h.allPaced hi hs.1, h.waited hs.1 hs.2⟩) r
    intro c hc
    have hnone : (Sys.init rand stale).game.players = [] :=
      (Game.mapInit_started rand stale).players
    rw [hnone] at hc
    cases hc
  exact hall.2

end Agar
