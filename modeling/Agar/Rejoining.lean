import Agar.Connections
import Agar.SendBuffer
import Agar.Worlds

/-! The players one connection has had since it was established: a second one is created when the
first has been dropped and the connection calls back. -/

namespace Agar
open MovedVector Trace

/-- The player of the connection is erased. -/
def Obs.leaves {K : Type} (w : Wsi) : Obs K → Bool
  | .erased g x => g.players[x]?.any fun p => p.wsi = w
  | _ => false

namespace Sys

/-- The last that happened to a player of the connection is that it joined. -/
def Traced (s : Sys ℝ) : Prop :=
  ∀ w, w ∈ s.wsis ↔ ∃ o ∈ since (Obs.leaves w) s.trace, o.joins w = true

theorem Traced.plain {s s' : Sys ℝ} (h : Traced s) (os : List (Obs ℝ)) (hwsis : s'.wsis = s.wsis)
    (htrace : s'.trace = s.trace ++ os)
    (hos : ∀ o ∈ os, ∀ w, o.leaves w = false ∧ o.joins w = false) : Traced s' := by
  intro w
  rw [hwsis, h w, htrace, since_append_of_unmarked fun o ho => (hos o ho w).1]
  constructor
  · rintro ⟨o, ho, hjoins⟩
    exact ⟨o, List.mem_append_left _ ho, hjoins⟩
  · rintro ⟨o, ho, hjoins⟩
    rcases List.mem_append.mp ho with ho | ho
    · exact ⟨o, ho, hjoins⟩
    · rw [(hos o ho w).2] at hjoins
      cases hjoins

theorem Traced.erase {s s' : Sys ℝ} (h : Traced s) (hdistinct : s.wsis.Nodup) {x : ℕ}
    (hx : x < s.game.players.length)
    (hplayers : s'.game.players = eraseAt Player.moves s.game.players x)
    (htrace : s'.trace = s.trace ++ [.erased s.game x]) : Traced s' := by
  intro w
  have hwsis : s'.wsis = s.wsis.eraseIdx x := by
    unfold wsis
    rw [hplayers, eraseAt_carried wsi_carried]
  have hget : s.game.players[x]? = some s.game.players[x] := List.getElem?_eq_getElem hx
  have hx' : x < s.wsis.length := by simpa [wsis] using hx
  have hgone : s.wsis[x] = s.game.players[x].wsi := List.getElem_map _
  have hmem : w ∈ s.wsis.eraseIdx x ↔ w ≠ s.game.players[x].wsi ∧ w ∈ s.wsis := by
    rw [← hdistinct.erase_getElem x hx', hdistinct.mem_erase_iff, hgone]
  rw [hwsis, htrace, since_snoc, hmem]
  by_cases hw : w = s.game.players[x].wsi
  · have hleaves : Obs.leaves w (.erased s.game x) = true := by
      simp [Obs.leaves, hget, hw]
    rw [if_pos hleaves]
    constructor
    · exact fun hc => absurd hw hc.1
    · rintro ⟨o, ho, -⟩
      cases ho
  · have hleaves : ¬ Obs.leaves w (.erased s.game x) = true := by
      simp [Obs.leaves, hget, Ne.symm hw]
    rw [if_neg hleaves, h w]
    constructor
    · rintro ⟨-, o, ho, hjoins⟩
      exact ⟨o, List.mem_append_left _ ho, hjoins⟩
    · rintro ⟨o, ho, hjoins⟩
      rcases List.mem_append.mp ho with ho | ho
      · exact ⟨hw, o, ho, hjoins⟩
      · rw [List.mem_singleton.mp ho] at hjoins
        cases hjoins

theorem Traced.shift {a : Stage} {s s' : Sys ℝ} (h : Traced s) (hi : Invariant a s)
    (hs : Shift s s') : Traced s' := by
  cases hs with
  | quiet hplayers os htrace hquiet =>
    refine h.plain os (map_of_core (f := Player.wsi) (fun _ => rfl) hplayers) htrace ?_
    intro o ho w
    rcases hquiet o ho with ⟨g, -, -, rfl⟩ | ⟨g, rfl⟩ <;> exact ⟨rfl, rfl⟩
  | erase x hx hplayers htrace => exact h.erase hi.distinct hx hplayers htrace
  | update i p hp hplayers htrace =>
    refine h.plain _ ?_ htrace fun o ho w => ?_
    · unfold wsis
      rw [map_of_core_set (f := Player.wsi) (fun _ => rfl) hplayers,
        map_set_same hp (Game.finished_player hi.wellFormed hp).1]
    · rcases List.mem_cons.mp ho with rfl | ho
      · exact ⟨rfl, rfl⟩
      · rw [List.mem_singleton.mp ho]
        exact ⟨rfl, rfl⟩
  | write i p clock hp hcan hpending hplayers htrace =>
    refine h.plain _ ?_ htrace fun o ho w => ?_
    · unfold wsis
      rw [hplayers, List.map_set]
      exact map_set_same (f := Player.wsi) (q := { p with
        wsMessage := { p.wsMessage with ack := false }.clear, sendTime := clock }) hp rfl
    · rw [List.mem_singleton.mp ho]
      exact ⟨rfl, rfl⟩
  | join p hwsi hsend hmessage hhistory hblocks hsplit hfeed hplayers htrace =>
    intro w
    have hwsis : s'.wsis = s.wsis ++ [p.wsi] := by
      unfold wsis
      rw [hplayers, emplaceBack_carried wsi_carried]
    rw [hwsis, htrace, since_snoc, if_neg (by exact Bool.false_ne_true), List.mem_append, h w,
      List.mem_singleton]
    constructor
    · rintro (⟨o, ho, hjoins⟩ | hw)
      · exact ⟨o, List.mem_append_left _ ho, hjoins⟩
      · exact ⟨_, List.mem_append_right _ (List.mem_singleton_self _), decide_eq_true hw.symm⟩
    · rintro ⟨o, ho, hjoins⟩
      rcases List.mem_append.mp ho with ho | ho
      · exact Or.inl ⟨o, ho, hjoins⟩
      · rw [List.mem_singleton.mp ho] at hjoins
        exact Or.inr (of_decide_eq_true hjoins).symm
  | receive w packet hplayers os htrace hquiet =>
    refine h.plain _ ?_ htrace fun o ho v => ?_
    · unfold wsis
      rw [hplayers, List.map_map]
      exact List.map_congr_left fun p _ => received_wsi w packet p
    · rcases List.mem_cons.mp ho with rfl | ho
      · exact ⟨rfl, rfl⟩
      · obtain ⟨v', rfl⟩ := hquiet o ho
        exact ⟨rfl, rfl⟩

end Sys

theorem Session.traced (c : Session ℝ) (pre : List (Signal ℝ)) : (c.after pre).sys.Traced := by
  induction pre using List.reverseRecOn with
  | nil =>
    intro w
    have hnone : (c.after []).sys.wsis = [] :=
      congrArg (List.map Player.wsi) (Link.start_players c.rand c.stale)
    rw [hnone]
    constructor
    · intro h
      cases h
    · rintro ⟨o, ho, -⟩
      cases ho
  | append_singleton pre x ih =>
    rw [after_snoc]
    have hi := c.invariant pre
    cases x with
    | established w => exact ih
    | event e =>
      exact (Moves.keeps (P := fun _ s => s.Traced) (fun a s b s' hi hm hs =>
        hs.shift hi (hm.shift hi)) (Sys.step_moves hi e) hi ih).2
    | closed w => exact ih

namespace Link

/-- What has happened since the connection was established. -/
def entries {K : Type} (l : Link K) (w : Wsi) : List (Obs K) := l.sys.trace.drop (l.since w)

/-- A player was created for the connection and dropped again. -/
def Dropped (l : Link ℝ) (w : Wsi) : Prop :=
  ∃ a o b, l.entries w = a ++ o :: b ∧ (∃ j ∈ a, j.joins w = true) ∧ o.leaves w = true

end Link

/-- At most one player is created for a connection while it is open. -/
def OnePlayerEach (c : Session ℝ) : Prop :=
  ∀ pre, pre <+: c.signals → ∀ w ∈ (c.after pre).opened,
    ((c.after pre).entries w).countP (Obs.joins w) ≤ 1

/-- No connection calls back after its player was dropped. -/
def NoReturn (c : Session ℝ) : Prop :=
  Always (fun pre x => ∀ e w, x = .event e → e.isWriteable w = true → ¬ (c.after pre).Dropped w)
    c.signals

theorem Event.wsi_of_isWriteable {e : Event ℝ} {w : Wsi} (h : e.isWriteable w = true) :
    e.wsi = some w := by
  cases e with
  | writeable v clock accepts grown => exact congrArg some (of_decide_eq_true h)
  | _ => cases h

namespace Session

theorem since_le (c : Session ℝ) (pre : List (Signal ℝ)) (w : Wsi) :
    (c.after pre).since w ≤ (c.after pre).sys.trace.length := by
  induction pre using List.reverseRecOn with
  | nil => exact Nat.zero_le _
  | append_singleton pre x ih =>
    rw [after_snoc]
    cases x with
    | established v =>
      show (if w = v then _ else _) ≤ _
      split_ifs
      · exact le_rfl
      · exact ih
    | event e =>
      obtain ⟨os, htrace, -⟩ := Sys.step_log (c.invariant pre) e
      have hlen := congrArg List.length htrace
      rw [List.length_append] at hlen
      exact ih.trans (hlen ▸ Nat.le_add_right _ _)
    | closed v => exact ih

theorem present_of_joined (c : Session ℝ) (pre : List (Signal ℝ)) {w : Wsi}
    (hdropped : ¬ (c.after pre).Dropped w)
    (hjoined : ∃ o ∈ (c.after pre).entries w, o.joins w = true) : w ∈ (c.after pre).sys.wsis := by
  obtain ⟨j, hj, hjoins⟩ := hjoined
  obtain ⟨a, b, hab⟩ := List.append_of_mem hj
  have hb : ∀ o ∈ b, o.leaves w = false := by
    intro o ho
    by_contra hleaves
    obtain ⟨b₁, b₂, rfl⟩ := List.append_of_mem ho
    exact hdropped ⟨a ++ j :: b₁, o, b₂, by rw [hab]; simp,
      ⟨j, List.mem_append_right _ List.mem_cons_self, hjoins⟩, by simpa using hleaves⟩
  have htrace : (c.after pre).sys.trace =
      ((c.after pre).sys.trace.take ((c.after pre).since w) ++ a ++ [j]) ++ b := by
    have hsplit := List.take_append_drop ((c.after pre).since w) (c.after pre).sys.trace
    rw [← Link.entries, hab] at hsplit
    rw [List.append_assoc, List.append_assoc]
    exact hsplit.symm
  have hunmarked : j.leaves w = false := by
    cases j with
    | joined p g g' => rfl
    | _ => cases hjoins
  refine (c.traced pre w).mpr ⟨j, ?_, hjoins⟩
  rw [htrace, since_append_of_unmarked hb, since_snoc, hunmarked]
  exact List.mem_append_left _ (List.mem_append_right _ (List.mem_singleton_self j))

theorem absent_of_dropped (c : Session ℝ) (pre : List (Signal ℝ)) {w : Wsi}
    (hdropped : (c.after pre).Dropped w)
    (honce : ((c.after pre).entries w).countP (Obs.joins w) ≤ 1) :
    w ∉ (c.after pre).sys.wsis := by
  obtain ⟨a, o, b, hab, ⟨j, hj, hjoins⟩, hleaves⟩ := hdropped
  have hcount : 1 ≤ a.countP (Obs.joins w) := List.countP_pos_iff.mpr ⟨j, hj, hjoins⟩
  rw [hab, List.countP_append, List.countP_cons] at honce
  have hnone : b.countP (Obs.joins w) = 0 := by omega
  have htrace : (c.after pre).sys.trace =
      ((c.after pre).sys.trace.take ((c.after pre).since w) ++ a) ++ o :: b := by
    have hsplit := List.take_append_drop ((c.after pre).since w) (c.after pre).sys.trace
    rw [← Link.entries, hab] at hsplit
    rw [List.append_assoc]
    exact hsplit.symm
  intro hw
  obtain ⟨j', hj', hjoins'⟩ := (c.traced pre w).mp hw
  rw [htrace, since_append_marked hleaves] at hj'
  exact List.countP_eq_zero.mp hnone j' (since_subset _ _ hj') hjoins'

theorem entries_event (c : Session ℝ) (pre : List (Signal ℝ)) (e : Event ℝ) (w : Wsi) :
    ((c.after (pre ++ [.event e])).entries w).countP (Obs.joins w) =
      ((c.after pre).entries w).countP (Obs.joins w) +
        if e.isWriteable w ∧ w ∉ (c.after pre).sys.wsis then 1 else 0 := by
  obtain ⟨os, htrace, -, hjoins⟩ := Sys.step_log (c.invariant pre) e
  rw [after_snoc, ← hjoins w, ← List.countP_append]
  refine congrArg _ ?_
  show ((c.after pre).sys.step e).trace.drop ((c.after pre).since w) = _
  rw [htrace, List.drop_append_of_le_length (c.since_le pre w)]
  rfl

end Session

/-- A connection has one player at most exactly when it does not call back once its player was
dropped. -/
theorem one_player_each (c : Session ℝ) : OnePlayerEach c ↔ NoReturn c := by
  constructor
  · rintro h pre x hpre e w rfl hwriteable hdropped
    have hopen : w ∈ (c.after pre).opened :=
      c.lawful pre _ hpre w (Event.wsi_of_isWriteable hwriteable)
    have hbefore := h pre ((List.prefix_append _ _).trans hpre) w hopen
    have habsent := c.absent_of_dropped pre hdropped hbefore
    have hafter := h _ hpre w (by rw [c.after_snoc]; exact hopen)
    rw [c.entries_event, if_pos ⟨hwriteable, habsent⟩] at hafter
    obtain ⟨a, o, b, hab, ⟨j, hj, hjoins⟩, -⟩ := hdropped
    have hcount : 1 ≤ ((c.after pre).entries w).countP (Obs.joins w) :=
      List.countP_pos_iff.mpr ⟨j, hab ▸ List.mem_append_left _ hj, hjoins⟩
    omega
  · intro h pre hpre
    induction pre using List.reverseRecOn with
    | nil =>
      intro w hw
      cases hw
    | append_singleton pre x ih =>
      have hbefore := ih ((List.prefix_append _ _).trans hpre)
      intro w hw
      cases x with
      | established v =>
        rw [c.after_snoc] at hw ⊢
        by_cases hwv : w = v
        · have hnone : ((c.after pre).step (.established v)).entries w = [] := by
            show (c.after pre).sys.trace.drop (if w = v then _ else _) = []
            rw [if_pos hwv, List.drop_length]
          rw [hnone]
          exact Nat.zero_le _
        · have hsame : ((c.after pre).step (.established v)).entries w =
              (c.after pre).entries w := by
            show (c.after pre).sys.trace.drop (if w = v then _ else _) = _
            rw [if_neg hwv]
            rfl
          rw [hsame]
          rcases List.mem_cons.mp hw with hw | hw
          · exact absurd hw hwv
          · exact hbefore w hw
      | event e =>
        have hopen : w ∈ (c.after pre).opened := by
          rw [c.after_snoc] at hw
          exact hw
        rw [c.entries_event]
        split_ifs with hjoin
        · have hkept := h pre _ hpre e w rfl hjoin.1
          have hnone : ((c.after pre).entries w).countP (Obs.joins w) = 0 := by
            refine List.countP_eq_zero.mpr fun o ho hjoins => hjoin.2 ?_
            exact c.present_of_joined pre hkept ⟨o, ho, hjoins⟩
          omega
        · exact hbefore w hopen
      | closed v =>
        rw [c.after_snoc] at hw ⊢
        exact hbefore w (List.mem_filter.mp hw).1

theorem UpdateRecord.cost_le {u : UpdateRecord ℝ}
    (hstatic : u.commanded.cellEvents.removeStatic = [])
    (hdynamic : u.commanded.cellEvents.removeDynamic = [])
    (hleft : u.view.topLeft = u.player.topLeft)
    (hright : u.view.bottomRight = u.player.bottomRight) :
    9 ≤ u.cost ∧ u.cost ≤
      5 * u.player.cellHistory.length + 44 * u.commanded.cellEvents.move.length + 9 := by
  have hview : ¬ (u.player.topLeft ≠ u.view.topLeft ∨
      u.player.bottomRight ≠ u.view.bottomRight) := by
    rw [hleft, hright]
    simp
  have hhistory := List.countP_le_length (p := fun c => !u.player.sees u.commanded c)
    (l := u.player.cellHistory)
  have hnew := List.countP_le_length (p := fun c => u.player.touches u.commanded c &&
    decide (c ∉ u.player.kept u.commanded)) (l := u.commanded.cellEvents.move)
  have hmoved := List.countP_le_length (p := fun c => u.player.touches u.commanded c &&
    decide (c ∈ u.player.kept u.commanded) &&
      ((u.commanded.heap c).flag.isPlayer || (u.commanded.heap c).velocity.nonzero))
    (l := u.commanded.cellEvents.move)
  have hdead : (u.player.known u.commanded).countP (fun c => u.player.touches u.commanded c &&
      decide (c ∈ u.commanded.cellEvents.removeDynamic)) = 0 := by
    rw [hdynamic]
    simp
  unfold UpdateRecord.cost
  dsimp only
  rw [if_neg hview, hstatic, hdead, List.countP_nil]
  omega

/-- An update of a player alone appends a few bytes: the view does not change, and there are few
cells the client could know or learn of. -/
theorem Sys.Lone.cost {s : Sys ℝ} {p : Player ℝ} (h : s.Lone p)
    (hconnected : p.wsMessage.connected = true) (clock : ℝ)
    (hallocated : s.game.allocated = maxFood + maxVirus + 1)
    (hdynamic : s.game.dynamicMap = List.range' maxFood maxVirus) :
    ∃ n, 9 ≤ n ∧ n ≤ 10000 ∧
      ((s.tickMoved clock).game.updatePlayer 0 p).finished.player.wsMessage.ptr =
        p.wsMessage.ptr + n := by
  have htold := h.told hconnected clock
  have hsame := h.same hconnected clock
  have hplayers := h.moved hconnected clock
  have hp : (s.tickMoved clock).game.players[0]? = some p := by rw [hplayers]; rfl
  have hi : Invariant (.updating 0) (s.tickMoved clock) :=
    Moves.invariant (tickMoved_moves s clock) h.reached.invariant
  obtain ⟨hsound, ds, hds⟩ := h.reached.digested clock hp
  obtain ⟨hcommanded, hleft, hright, -⟩ := h.updated hconnected clock
  have hmoves : (s.tickMoved clock).game.cellEvents =
      { move := firstCell :: s.game.dynamicMap } := by
    obtain ⟨cs, hcs⟩ := htold
    rw [hcs]
    rfl
  have hhistory : p.cellHistory.length ≤ 1101 := by
    have hsub : p.cellHistory.Subperm (List.range 1101) := by
      refine List.subperm_of_subset hsound.nodup fun c hc => ?_
      have hlt := (hsound.cell c hc).2.1
      rw [hsame.allocated, hallocated] at hlt
      exact List.mem_range.mpr hlt
    have hle := hsub.length_le
    rw [List.length_range] at hle
    exact hle
  have hlength : ((s.tickMoved clock).game.cellEvents.move).length = 101 := by
    rw [hmoves, hdynamic]
    rfl
  have hmove : ((s.tickMoved clock).game.updatePlayer 0 p).commanded.cellEvents.move.Nodup := by
    rw [hcommanded]
    exact hi.tidy.1
  obtain ⟨hlow, hhigh⟩ := UpdateRecord.cost_le (u := (s.tickMoved clock).game.updatePlayer 0 p)
    (by rw [hcommanded, hmoves]) (by rw [hcommanded, hmoves]) hleft hright
  rw [hcommanded, hlength] at hhigh
  refine ⟨((s.tickMoved clock).game.updatePlayer 0 p).cost, hlow, ?_, ?_⟩
  · refine hhigh.trans ?_
    show 5 * p.cellHistory.length + 44 * 101 + 9 ≤ 10000
    omega
  · rw [(Game.finished_player hi.wellFormed hp).2.2.2.2.2, Message.appendAll_ptr _ _
      (hi.buffers p (List.mem_of_getElem? hp)), hds.bytes_said hsound.nodup hmove]

theorem Message.connected_iff {m : Message} (h : m.ptr ≤ maxSize) :
    m.connected = true ↔ m.ptr < 49152 := by
  unfold connected spaceLeft
  have hshift : maxSize >>> 2 = 16384 := by decide
  have hsize : maxSize = 65536 := by decide
  rw [hshift, decide_eq_true_iff]
  omega

/-- A player alone to whom nothing has been sent for `n` ticks, if it is still there. -/
def Waits (n : ℕ) (s : Sys ℝ) : Prop :=
  s.Reached ∧ ((∃ p, s.Lone p ∧ s.game.allocated = maxFood + maxVirus + 1 ∧
    s.game.dynamicMap = List.range' maxFood maxVirus ∧ 9 * n ≤ p.wsMessage.ptr ∧
    p.wsMessage.ptr ≤ 60000) ∨ s.game.players = [])

theorem Waits.start {s : Sys ℝ} (hreached : s.Reached) (h : s.game.Joined corner corner 0) :
    Waits 0 (s.step (.writeable 0 0 (fun _ => true) 8)) := by
  have hreached' := hreached.step (.writeable 0 0 (fun _ => true) 8)
  have hjoin : s.step (.writeable 0 0 (fun _ => true) 8) = s.join 0 8 := h.writeable 0 _ 8
  rw [hjoin] at hreached' ⊢
  have hjoined := h.join 8
  obtain ⟨p, hlone, hfresh, -⟩ := hreached'.lone hjoined corner_far corner_far
  refine ⟨hreached', Or.inl ⟨p, hlone, hjoined.allocated, hjoined.placed.dynamic, ?_, ?_⟩⟩
  · exact Nat.zero_le _
  · rw [hfresh.message]
    decide

theorem Waits.tick {s : Sys ℝ} {n : ℕ} (h : Waits n s) (clock : ℝ) :
    Waits (n + 1) (s.step (.tick clock)) := by
  obtain ⟨hreached, ⟨p, hlone, hallocated, hdynamic, hlow, hhigh⟩ | hnone⟩ := h
  · refine ⟨hreached.step (.tick clock), ?_⟩
    rcases hconnected : p.wsMessage.connected with - | -
    · exact Or.inr (Sys.tick_kicked hreached.invariant hlone.players hconnected clock)
    · obtain ⟨-, hsame, hlone'⟩ := hlone.tick hconnected clock
      obtain ⟨k, hk, hk', hptr⟩ := hlone.cost hconnected clock hallocated hdynamic
      have hsize : maxSize = 65536 := by decide
      have hroom := (Message.connected_iff (by omega)).mp hconnected
      refine Or.inl ⟨_, hlone', hsame.allocated.trans hallocated,
        hsame.dynamicMap.trans hdynamic, ?_, ?_⟩
      · rw [hptr]
        omega
      · rw [hptr]
        omega
  · refine ⟨hreached.step (.tick clock), Or.inr ?_⟩
    exact Sys.tick_nobody hreached.invariant hnone clock

theorem Waits.over {s : Sys ℝ} {n : ℕ} (h : Waits n s) (hn : 60000 < 9 * n) :
    s.game.players = [] := by
  obtain ⟨-, ⟨p, -, -, -, hlow, hhigh⟩ | hnone⟩ := h
  · omega
  · exact hnone

/-- A connection is established, and its player takes part in `n` ticks while nothing is sent. -/
def stalled (K : Type) [Field K] (n : ℕ) : List (Signal K) :=
  [.established 0, .event (.writeable 0 0 (fun _ => true) 8)] ++
    (List.range n).map fun m => .event (.tick (m / 60))

/-- Then the connection calls back. -/
def returned (K : Type) [Field K] : List (Signal K) :=
  stalled K 6667 ++ [.event (.writeable 0 112 (fun _ => true) 8)]

theorem stalled_succ (n : ℕ) :
    stalled ℝ (n + 1) = stalled ℝ n ++ [.event (.tick (n / 60))] := by
  unfold stalled
  rw [List.range_succ, List.map_append, List.map_singleton, List.append_assoc]

theorem Link.step_event (l : Link ℝ) (e : Event ℝ) : (l.step (.event e)).sys = l.sys.step e := rfl

theorem Link.step_opened (l : Link ℝ) (e : Event ℝ) : (l.step (.event e)).opened = l.opened := rfl

theorem stalled_waits {l : Link ℝ} (hreached : l.sys.Reached)
    (h : l.sys.game.Joined corner corner 0) (n : ℕ) :
    Waits n ((stalled ℝ n).foldl Link.step l).sys := by
  induction n with
  | zero => exact Waits.start hreached h
  | succ n ih =>
    rw [stalled_succ, List.foldl_append, List.foldl_cons, List.foldl_nil, Link.step_event]
    exact ih.tick (n / 60)

theorem stalled_opened (l : Link ℝ) (n : ℕ) :
    ((stalled ℝ n).foldl Link.step l).opened = 0 :: l.opened := by
  induction n with
  | zero => rfl
  | succ n ih =>
    rw [stalled_succ, List.foldl_append, List.foldl_cons, List.foldl_nil, Link.step_opened, ih]

theorem stalled_lawful (rand : ℕ → Fin (randMax + 1)) (stale : CellPtr → ℝ) (n : ℕ) :
    Always (fun pre x => (Link.after rand stale pre).Allows x) (stalled ℝ n) := by
  induction n with
  | zero =>
    show Always _ (([] ++ [_]) ++ [_])
    rw [always_snoc, always_snoc]
    refine ⟨⟨always_nil _, List.not_mem_nil⟩, fun w hw => ?_⟩
    exact List.mem_singleton.mpr (Option.some.inj hw).symm
  | succ n ih =>
    rw [stalled_succ, always_snoc]
    exact ⟨ih, fun w hw => by cases hw⟩

theorem returned_lawful (rand : ℕ → Fin (randMax + 1)) (stale : CellPtr → ℝ) :
    Always (fun pre x => (Link.after rand stale pre).Allows x) (returned ℝ) := by
  unfold returned
  rw [always_snoc]
  refine ⟨stalled_lawful rand stale 6667, fun w hw => ?_⟩
  unfold Link.after
  rw [stalled_opened]
  exact List.mem_cons.mpr (Or.inl (Option.some.inj hw).symm)

theorem stalled_entries (c : Session ℝ) (n : ℕ) :
    (0 : Wsi) ∉ (c.after [.established 0]).sys.wsis →
      ((c.after (stalled ℝ n)).entries 0).countP (Obs.joins 0) = 1 := by
  intro hnew
  induction n with
  | zero =>
    have hevent := c.entries_event [.established 0] (.writeable 0 0 (fun _ => true) 8) 0
    rw [if_pos ⟨by simp [Event.isWriteable], hnew⟩] at hevent
    have hnone : (c.after [.established 0]).entries 0 = [] := by
      rw [show [Signal.established 0] = [] ++ [.established 0] from rfl, c.after_snoc]
      exact List.drop_length
    rw [hnone] at hevent
    exact hevent
  | succ n ih =>
    rw [stalled_succ, c.entries_event, ih, if_neg fun h => absurd h.1 Bool.false_ne_true]

/-- The connection that calls back after its player was dropped for overflow gets a second one. -/
theorem second_player : ¬ OnePlayerEach
    { rand := placing corner corner, stale := fun _ => 0, signals := returned ℝ,
      lawful := returned_lawful _ _ } := by
  intro h
  let c : Session ℝ := { rand := placing corner corner, stale := fun _ => 0, signals := returned ℝ,
                         lawful := returned_lawful _ _ }
  have hjoined : (Link.start (placing corner corner) fun _ => (0 : ℝ)).sys.game.Joined corner corner
      0 := Game.mapInit_joined corner corner _
  have hwaits : Waits 6667 (c.after (stalled ℝ 6667)).sys :=
    stalled_waits (Sys.init_reached _ _) hjoined 6667
  have hgone : (c.after (stalled ℝ 6667)).sys.wsis = [] :=
    congrArg (List.map Player.wsi) (hwaits.over (by decide))
  have hnew : (0 : Wsi) ∉ (c.after [.established 0]).sys.wsis := by
    have hnone : (c.after [.established 0]).sys.wsis = [] :=
      congrArg (List.map Player.wsi) (Link.start_players _ _)
    rw [hnone]
    exact List.not_mem_nil
  have hopen : (0 : Wsi) ∈ (c.after (returned ℝ)).opened := by
    unfold returned Session.after Link.after
    rw [List.foldl_append, List.foldl_cons, List.foldl_nil, Link.step_opened, stalled_opened]
    exact List.mem_cons_self
  have hcount := c.entries_event (stalled ℝ 6667) (.writeable 0 112 (fun _ => true) 8) 0
  have hreturns : (Event.writeable 0 112 (fun _ => true) 8 : Event ℝ).isWriteable 0 = true ∧
      (0 : Wsi) ∉ (c.after (stalled ℝ 6667)).sys.wsis := by
    rw [hgone]
    exact ⟨by simp [Event.isWriteable], List.not_mem_nil⟩
  rw [stalled_entries c 6667 hnew, if_pos hreturns] at hcount
  have hone := h (returned ℝ) List.prefix_rfl 0 hopen
  have htwo : ((c.after (returned ℝ)).entries 0).countP (Obs.joins 0) = 2 := hcount
  rw [htwo] at hone
  exact absurd hone (by decide)

end Agar
