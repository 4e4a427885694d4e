import Agar.Worlds

/-! The room of the send buffer: how many bytes one update appends, and when they fit. -/

namespace Agar
open Trace

section Cost
variable {K : Type} [Field K] [LinearOrder K] [FloorRing K] [Arith K]

/-- The foods in the blocks of the first view that the second one lacks. -/
def foodsLeft (g : Game K) (old new : Player K) : ℕ :=
  ((SortedDifference.setDifference Outgoing.blockAddress old.blocks new.blocks).map fun b =>
    (g.staticMap b).length).sum

namespace UpdateRecord

/-- The bytes one update appends: `RemoveCell` takes 5, `AddCell` 23, `MoveCell` 21 and `Position`
9. Counted are the cells of the history whose centers have left the view, the moved cells that
reach into the view, new or known, the foods eaten in view, the known cells that died, the foods of
the blocks that left the view and of those that entered it, and the position. -/
def cost (u : UpdateRecord K) : ℕ :=
  let g := u.commanded
  let p := u.player
  5 * (p.cellHistory.countP fun c => !p.sees g c) +
  23 * (g.cellEvents.move.countP fun c => p.touches g c && decide (c ∉ p.kept g)) +
  21 * (g.cellEvents.move.countP fun c => p.touches g c && decide (c ∈ p.kept g) &&
    ((g.heap c).flag.isPlayer || (g.heap c).velocity.nonzero)) +
  5 * (g.cellEvents.removeStatic.countP fun c => p.sees g c) +
  5 * ((p.known g).countP fun c => p.touches g c && decide (c ∈ g.cellEvents.removeDynamic)) +
  (if p.topLeft ≠ u.view.topLeft ∨ p.bottomRight ≠ u.view.bottomRight then
    5 * foodsLeft g p u.view + 23 * foodsLeft g u.view p else 0) +
  9

end UpdateRecord
end Cost

namespace Message
variable {K : Type}

theorem bytes_append (ms ms' : List (Msg K)) : bytes (ms ++ ms') = bytes ms + bytes ms' := by
  simp [bytes]

theorem bytes_flatMap {α : Type} (l : List α) (said : α → List (Msg K)) :
    bytes (l.flatMap said) = (l.map fun a => bytes (said a)).sum := by
  induction l with
  | nil => rfl
  | cons a l ih => rw [List.flatMap_cons, bytes_append, ih, List.map_cons, List.sum_cons]

theorem bytes_of_size {ms : List (Msg K)} {n : ℕ} (h : ∀ m ∈ ms, m.size = n) :
    bytes ms = n * ms.length := by
  rw [bytes, List.map_congr_left h, List.map_const', List.sum_replicate, smul_eq_mul, mul_comm]

end Message

namespace Outgoing
open Message

theorem bytes_removed (g : Game ℝ) (cs : List CellPtr) : bytes (removed g cs) = 5 * cs.length := by
  have hsize : ∀ m ∈ removed g cs, m.size = 5 := fun m hm => by
    obtain ⟨c, -, rfl⟩ := List.mem_map.mp hm
    rfl
  rw [bytes_of_size hsize, removed, List.length_map]

theorem bytes_moves (g : Game ℝ) (p : Player ℝ) (cs : List CellPtr) :
    bytes (cs.flatMap (moveSaid g p)) =
      23 * (cs.countP fun c => p.touches g c && decide (c ∉ p.cellHistory)) +
      21 * (cs.countP fun c => p.touches g c && decide (c ∈ p.cellHistory) &&
        ((g.heap c).flag.isPlayer || (g.heap c).velocity.nonzero)) := by
  induction cs with
  | nil => rfl
  | cons c cs ih =>
    rw [List.flatMap_cons, bytes_append, ih, List.countP_cons, List.countP_cons]
    unfold moveSaid
    by_cases ht : p.touches g c = true
    · by_cases hc : c ∈ p.cellHistory
      · by_cases hm : ((g.heap c).flag.isPlayer || (g.heap c).velocity.nonzero) = true
        · simp only [ht, hc, hm, if_true, bytes, Cell.moveMsg, Msg.size, List.map_cons,
            List.map_nil, List.sum_cons, List.sum_nil]
          simp
          omega
        · simp [ht, hc, hm, bytes]
      · simp only [ht, hc, if_true, if_false, bytes, Cell.addMsg, Msg.size, List.map_cons,
          List.map_nil, List.sum_cons, List.sum_nil]
        simp
        omega
    · simp [ht, bytes]

theorem bytes_blocks (g : Game ℝ) (old new : Player ℝ) :
    bytes (blockSaid g old new) =
      if old.topLeft ≠ new.topLeft ∨ old.bottomRight ≠ new.bottomRight then
        5 * foodsLeft g old new + 23 * foodsLeft g new old else 0 := by
  have hremove : ∀ b, bytes (removeSaid g b) = 5 * (g.staticMap b).length := fun b => by
    have hsize : ∀ m ∈ removeSaid g b, m.size = 5 := fun m hm => by
      obtain ⟨c, -, rfl⟩ := List.mem_map.mp hm
      rfl
    rw [bytes_of_size hsize, removeSaid, List.length_map]
  have hadd : ∀ b, bytes (addSaid g b) = 23 * (g.staticMap b).length := fun b => by
    have hsize : ∀ m ∈ addSaid g b, m.size = 23 := fun m hm => by
      obtain ⟨c, -, rfl⟩ := List.mem_map.mp hm
      rfl
    rw [bytes_of_size hsize, addSaid, List.length_map]
  unfold blockSaid foodsLeft
  split_ifs
  · rw [bytes_append, bytes_flatMap, bytes_flatMap]
    simp only [hremove, hadd, List.sum_map_mul_left]
  · rfl

end Outgoing

theorem Digested.bytes_said {u : UpdateRecord ℝ} {ds : List CellPtr} (h : Digested u ds)
    (hhistory : u.player.cellHistory.Nodup) (hmove : u.commanded.cellEvents.move.Nodup) :
    Message.bytes u.finished.said = u.cost := by
  have hdead : ds.length = (u.player.known u.commanded).countP fun c =>
      u.player.touches u.commanded c && decide (c ∈ u.commanded.cellEvents.removeDynamic) := by
    rw [List.countP_eq_length_filter]
    refine List.Perm.length_eq ((List.perm_ext_iff_of_nodup h.deleted.nodup
      ((Player.known_nodup hhistory hmove).filter _)).mpr fun c => ?_)
    rw [h.deleted.mem c, List.mem_filter, Bool.and_eq_true, decide_eq_true_eq]
    show _ ∧ u.player.touches u.commanded c = true ∧ c ∈ u.player.known u.commanded ↔ _
    tauto
  rw [h.finished, h.said]
  unfold Outgoing.parseSaid UpdateRecord.cost
  simp only [Message.bytes_append, Outgoing.bytes_removed, Outgoing.bytes_moves,
    Outgoing.bytes_blocks, hdead, List.countP_eq_length_filter, ← add_assoc]
  rfl

/-- Every message of the update ends within the allocation. -/
def UpdateRecord.Fits (u : UpdateRecord ℝ) : Prop :=
  ∀ said, said <+: u.finished.said → (u.player.wsMessage.appendAll said).ptr ≤ maxSize

/-- The bytes of an update fit if and only if the buffer has room for their number. -/
def FitsExactly (_ : List (Obs ℝ)) (u : UpdateRecord ℝ) : Prop :=
  u.Fits ↔ u.player.wsMessage.ptr + u.cost ≤ maxSize

theorem Digested.fitsExactly {u : UpdateRecord ℝ} {ds : List CellPtr} (h : Digested u ds)
    (hhistory : u.player.cellHistory.Nodup) (hmove : u.commanded.cellEvents.move.Nodup)
    (hbuffer : u.player.wsMessage.region.isSome) (pre : List (Obs ℝ)) : FitsExactly pre u := by
  have hcost := h.bytes_said hhistory hmove
  unfold FitsExactly UpdateRecord.Fits
  constructor
  · intro hfits
    have hall := hfits _ List.prefix_rfl
    rwa [Message.appendAll_ptr _ _ hbuffer, hcost] at hall
  · rintro hroom said ⟨rest, hrest⟩
    rw [Message.appendAll_ptr _ _ hbuffer]
    have hsum : Message.bytes said + Message.bytes rest = u.cost := by
      rw [← Message.bytes_append, hrest, hcost]
    omega

/-- In every run the bytes of every update fit into the send buffer if and only if there is room
for the number of bytes that the state before them makes it append. -/
theorem send_buffer (r : Run ℝ) : Always (AtUpdates FitsExactly) r.final.trace := by
  refine Run.induction_updates (P := Watch) init_watch (fun a s b s' hi hm => hm.watch hi)
    (fun n s p hi hwatch hp => ?_) r
  have hmem : p.sight ∈ s.sights := List.mem_of_getElem? (Sys.sights_getElem? hp)
  have hnodup := (hwatch.sound _ hmem).nodup
  obtain ⟨ds, hds⟩ := Game.digested hi rfl hp hnodup
  refine hds.fitsExactly hnodup ?_ (hi.buffers p (List.mem_of_getElem? hp)) s.trace
  show (s.game.commands n p).cellEvents.move.Nodup
  rw [(Game.commands_spec hi.wellFormed hp).2.1.move]
  exact hi.tidy.1

theorem Game.Joined.touches {g : Game ℝ} {c : CellPtr} (hc : (g.heap c).Fresh) {p : Player ℝ}
    (hp : p.Fresh) : p.touches g c = true := by
  unfold Player.touches edgeInside
  rw [hp.topLeft, hp.bottomRight, hc.central.origin, hc.radius]
  norm_num [blockSize]

/-- `n` connections get their players. -/
def arrivals (K : Type) [Field K] (n : ℕ) : List (Event K) :=
  (List.range n).map fun w => .writeable w 0 (fun _ => true) 8

/-- They have joined, and a tick runs. -/
def crowd (K : Type) [Field K] (n : ℕ) : Run K where
  rand := placing corner corner
  stale := fun _ => 0
  events := arrivals K n ++ [.tick 1]

theorem arrivals_joined (n : ℕ) :
    let s := (arrivals ℝ n).foldl Sys.step (Sys.init (placing corner corner) fun _ => 0)
    s.Reached ∧ s.game.Joined corner corner n := by
  induction n with
  | zero => exact ⟨Sys.init_reached _ _, Game.mapInit_joined corner corner _⟩
  | succ n ih =>
    obtain ⟨hreached, hjoined⟩ := ih
    have hsucc : arrivals ℝ (n + 1) = arrivals ℝ n ++ [.writeable n 0 (fun _ => true) 8] := by
      unfold arrivals
      rw [List.range_succ, List.map_append]
      rfl
    rw [hsucc, List.foldl_append, List.foldl_cons, List.foldl_nil]
    refine ⟨hreached.step _, ?_⟩
    show (Sys.writeable _ n 0 (fun _ => true) 8).game.Joined corner corner (n + 1)
    rw [hjoined.writeable]
    exact hjoined.join 8

theorem crowd_cost {s : Sys ℝ} {n : ℕ} (hreached : s.Reached) (h : s.game.Joined corner corner n)
    (clock : ℝ) {p : Player ℝ} (hp : s.game.players[0]? = some p) :
    (s.tickMoved clock).game.players[0]? = some p ∧
      23 * n ≤ ((s.tickMoved clock).game.updatePlayer 0 p).cost := by
  have hfresh := h.fresh p (List.mem_of_getElem? hp)
  have hstill : ∀ c ∈ s.game.players.flatMap Player.cells,
      (s.game.heap c).Resting ∧ (s.game.heap c).mouseVector = 0 := fun c hc =>
    ⟨(h.central c hc).central.resting, (h.central c hc).still⟩
  obtain ⟨cs, hcs⟩ := Sys.tickMoved_told (h.huddle corner_far corner_far clock).calm h.connected
    hstill
  have hplayers : (s.tickMoved clock).game.players[0]? = some p := by
    rw [hcs]
    exact hp
  have hmoves : (s.tickMoved clock).game.cellEvents.move =
      s.game.players.flatMap Player.cells ++ s.game.dynamicMap := by
    rw [hcs]
    exact List.nil_append _
  have hcells : s.game.players.flatMap Player.cells =
      (List.range n).map fun i => maxFood + maxVirus + i := by
    rw [List.flatMap_def, h.cells]
    induction List.range n with
    | nil => rfl
    | cons i l ih => rw [List.map_cons, List.flatten_cons, ih]; rfl
  have hcentral : ∀ c ∈ s.game.players.flatMap Player.cells,
      ((s.tickMoved clock).game.heap c).Fresh := fun c hc => by
    rw [hcs]
    exact h.central c hc
  have hi : Invariant (.updating 0) (s.tickMoved clock) :=
    Moves.invariant (Sys.tickMoved_moves s clock) hreached.invariant
  have hn : 0 < n := by
    have hlt := Game.getElem?_lt hp
    have hlen := congrArg List.length h.wsis
    rw [List.length_map, List.length_range] at hlen
    omega
  have hown : p.cells = [maxFood + maxVirus + 0] := by
    have hget := congrArg (fun l => l[0]?) h.cells
    simp only [List.getElem?_map, hp, List.getElem?_range hn] at hget
    exact Option.some.inj hget
  have hmine : maxFood + maxVirus + 0 ∈ s.game.players.flatMap Player.cells := by
    rw [hcells]
    exact List.mem_map_of_mem (List.mem_range.mpr hn)
  obtain ⟨hcommanded, -⟩ :=
    Game.updated_calm hi.wellFormed hplayers hfresh.toCalm hown (hcentral _ hmine)
  have hcount : n ≤ (s.tickMoved clock).game.cellEvents.move.countP fun c =>
      p.touches (s.tickMoved clock).game c && decide (c ∉ p.kept (s.tickMoved clock).game) := by
    have hall : ∀ c ∈ s.game.players.flatMap Player.cells,
        (p.touches (s.tickMoved clock).game c &&
          decide (c ∉ p.kept (s.tickMoved clock).game)) = true := fun c hc => by
      rw [Game.Joined.touches (hcentral c hc) hfresh]
      simp [Player.kept, hfresh.history]
    rw [hmoves, List.countP_append, List.countP_eq_length.mpr hall, hcells, List.length_map,
      List.length_range]
    exact Nat.le_add_right n _
  refine ⟨hplayers, ?_⟩
  unfold UpdateRecord.cost
  dsimp only
  rw [hcommanded]
  show 23 * n ≤ _ + 23 * ((s.tickMoved clock).game.cellEvents.move.countP fun c =>
      p.touches (s.tickMoved clock).game c && decide (c ∉ p.kept (s.tickMoved clock).game)) +
    _ + _ + _ + _ + _
  omega

/-- The cells of 2849 players in one place do not fit into an empty buffer. -/
theorem crowd_overruns :
    ¬ Always (AtUpdates fun _ u => u.Fits) (crowd ℝ 2849).final.trace := by
  intro h
  obtain ⟨hreached, hjoined⟩ := arrivals_joined 2849
  generalize hs : (arrivals ℝ 2849).foldl Sys.step
    (Sys.init (placing corner corner) fun _ => 0) = s at hreached hjoined
  have hfinal : (crowd ℝ 2849).final = s.tick 1 := by
    unfold Run.final crowd
    dsimp only
    rw [List.foldl_append, hs]
    rfl
  obtain ⟨p, hp⟩ : ∃ p, s.game.players[0]? = some p := by
    have hlen := congrArg List.length hjoined.wsis
    rw [List.length_map, List.length_range] at hlen
    exact ⟨_, List.getElem?_eq_getElem (by omega)⟩
  obtain ⟨hmoved, hcost⟩ := crowd_cost hreached hjoined 1 hp
  obtain ⟨hsound, ds, hds⟩ := hreached.digested 1 hmoved
  have hi : Invariant (.updating 0) (s.tickMoved 1) :=
    Moves.invariant (Sys.tickMoved_moves s 1) hreached.invariant
  rw [hfinal] at h
  have hfits := h _ _ (Sys.updated_first hmoved)
  have hmessage := (hjoined.fresh p (List.mem_of_getElem? hp)).message
  have hexactly := hds.fitsExactly hsound.nodup ?_ (hi.buffers p (List.mem_of_getElem? hmoved)) []
  · have hroom := hexactly.mp hfits
    have hptr : ((s.tickMoved 1).game.updatePlayer 0 p).player.wsMessage.ptr = 16 := by
      show p.wsMessage.ptr = 16
      rw [hmessage]
      rfl
    have hsize : maxSize = 65536 := by decide
    omega
  · show (((s.tickMoved 1).game.commands 0 p).cellEvents.move).Nodup
    rw [(Game.commands_spec hi.wellFormed hmoved).2.1.move]
    exact hi.tidy.1

end Agar
