import Agar.Sights
import Agar.Refresh

/-! The views of the players over whole runs: the blocks of a view are those of its rectangle, all
of them on the map, and the food they hold. -/

namespace Agar
open Trace

/-- The blocks of the view are those of its rectangle, and the rectangle lies on the map. -/
structure Sight.Charted (v : Sight) : Prop where
  framed : Player.Framed v.topLeft v.bottomRight
  blocks : v.blocks = Player.viewBlocks v.topLeft v.bottomRight

theorem Player.updateView_charted (g : Game ℝ) (p : Player ℝ) : (p.updateView g).sight.Charted :=
  ⟨Player.updateView_framed g p, rfl⟩

theorem Outgoing.sayAll_sight (o : Outgoing ℝ) (ms : List (Msg ℝ)) :
    (o.sayAll ms).player.sight = o.player.sight := rfl

theorem Game.finished_charted (g : Game ℝ) (i : ℕ) (p : Player ℝ) :
    (g.updatePlayer i p).finished.player.sight.Charted := by
  rw [Game.finished_eq, Outgoing.sayAll_sight]
  exact Player.updateView_charted (g.commands i p) _

theorem Move.sights_from {a b : Stage} {s s' : Sys ℝ} (h : Move (a, s) (b, s'))
    (hi : Invariant a s) {v : Sight} (hv : v ∈ s'.sights) : v ∈ s.sights ∨
      (∃ n p, v = (s.game.updatePlayer n p).finished.player.sight) ∨
      ∃ w, v = (s.game.newPlayer w).1.sight := by
  have hsame : s'.game.players.map Player.core = s.game.players.map Player.core →
      v ∈ s.sights := fun hcore => by
    rwa [Sys.sights, map_of_core (f := Player.sight) (fun _ => rfl) hcore] at hv
  cases h with
  | begin _ clock =>
    refine Or.inl (hsame (congrArg (List.map Player.core) ?_))
    exact (Game.updateDynamic_motion (s.game.beginTick clock) _).players
  | kick _ x hx =>
    rw [Sys.erasePlayer_sights] at hv
    exact Or.inl ((List.eraseIdx_sublist _ _).subset hv)
  | collide _ => exact Or.inl (hsame ((Game.collisionPhase_leads s.game).frame hi.wellFormed).core)
  | drive _ dt =>
    exact Or.inl (hsame (congrArg (List.map Player.core) (Game.drive_motion s.game dt).players))
  | update _ n p hp =>
    have hsights : (s.updateAt n).sights =
        s.sights.set n (s.game.updatePlayer n p).finished.player.sight := by
      unfold Sys.updateAt
      rw [hp]
      exact map_of_core_set (f := Player.sight) (fun _ => rfl) (Game.after_players hi.wellFormed hp)
    rw [hsights] at hv
    exact (List.mem_or_eq_of_mem_set hv).imp_right fun hv => Or.inl ⟨n, p, hv⟩
  | replay _ n hn =>
    refine Or.inl (hsame (congrArg (List.map Player.core) ?_))
    show s.game.parseEvents.players = s.game.players
    rw [(Game.parseEvents_prunes hi.additions).rest]
  | send _ clock accepts i => exact Or.inl (Sys.sendAt_sights s clock accepts i ▸ hv)
  | join _ w grown hw =>
    rw [Sys.join_sights] at hv
    exact (List.mem_append.mp hv).imp_right fun hv => Or.inr ⟨w, List.mem_singleton.mp hv⟩
  | receive _ w packet beyond =>
    exact Or.inl (Sys.receive_sights hi.wellFormed w packet beyond ▸ hv)
  | close _ x hx =>
    rw [Sys.erasePlayer_sights] at hv
    exact Or.inl ((List.eraseIdx_sublist _ _).subset hv)

/-- All sights are charted. -/
def Sys.Charted (s : Sys ℝ) : Prop := ∀ v ∈ s.sights, v.Charted

theorem Move.charted {a b : Stage} {s s' : Sys ℝ} (h : Move (a, s) (b, s')) (hi : Invariant a s)
    (hc : s.Charted) : s'.Charted := by
  intro v hv
  rcases h.sights_from hi hv with hv | ⟨n, p, rfl⟩ | ⟨w, rfl⟩
  · exact hc v hv
  · exact Game.finished_charted s.game n p
  · exact Player.updateView_charted _ _

theorem init_charted (rand : ℕ → Fin (randMax + 1)) (stale : CellPtr → ℝ) :
    (Sys.init rand stale).Charted := by
  intro v hv
  rw [init_sights] at hv
  cases hv

/-- A block pointer of the view: inside `StaticMap`, and the view has no other with its address. -/
structure Sight.Mapped (v : Sight) : Prop where
  inside : ∀ b ∈ v.blocks, (0 ≤ b.x ∧ b.x < numBlocks) ∧ 0 ≤ b.y ∧ b.y < numBlocks
  sorted : SortedDifference.Sorted Outgoing.blockAddress v.blocks

theorem Sight.Charted.mapped {v : Sight} (h : v.Charted) : v.Mapped := by
  obtain ⟨⟨⟨hx, hy⟩, hx', hy'⟩, hblocks⟩ := h
  refine ⟨fun b hb => ?_, ?_⟩
  · rw [hblocks, Player.mem_viewBlocks] at hb
    omega
  · rw [hblocks]
    exact Player.viewBlocks_sorted hy hy'

/-- The views an update compares and the one it leaves. -/
def UpdateRecord.Orderly (_ : List (Obs ℝ)) (u : UpdateRecord ℝ) : Prop :=
  u.player.sight.Mapped ∧ u.finished.player.sight.Mapped ∧
  ∀ b, (b ∈ SortedDifference.setDifference Outgoing.blockAddress u.player.blocks
      u.finished.player.blocks ↔ b ∈ u.player.blocks ∧ b ∉ u.finished.player.blocks) ∧
    (b ∈ SortedDifference.setDifference Outgoing.blockAddress u.finished.player.blocks
      u.player.blocks ↔ b ∈ u.finished.player.blocks ∧ b ∉ u.player.blocks)

/-- In every run both views of an update are sorted lists of blocks of the map, and the two calls of
`std::set_difference` find the blocks that leave and that enter the view. -/
theorem views_orderly (r : Run ℝ) : Always (AtUpdates UpdateRecord.Orderly) r.final.trace := by
  refine Run.induction_updates (P := fun _ s => s.Charted) init_charted
    (fun _ _ _ _ hi hm hs => hm.charted hi hs) (fun n s p _ hs hp => ?_) r
  have hold := hs _ (List.mem_of_getElem? (Sys.sights_getElem? hp))
  have hnew := Game.finished_charted s.game n p
  refine ⟨hold.mapped, hnew.mapped, fun b => ?_⟩
  have hblocks : (s.game.updatePlayer n p).player.blocks = _ := hold.blocks
  have hblocks' : (s.game.updatePlayer n p).finished.player.blocks = _ := hnew.blocks
  rw [hblocks, hblocks']
  exact ⟨Player.mem_difference hold.framed hnew.framed, Player.mem_difference hnew.framed hold.framed⟩

namespace Outgoing

/-- The food in the blocks that are in one list and not in the other. -/
noncomputable def foodOff (g : Game ℝ) (blocks blocks' : List Vec2i) : List CellPtr :=
  (SortedDifference.setDifference blockAddress blocks blocks').flatMap g.staticMap

theorem blockSaid_foods (g : Game ℝ) {old new : Player ℝ} (hold : old.sight.Charted)
    (hnew : new.sight.Charted) : blockSaid g old new =
      removed g (foodOff g old.blocks new.blocks) ++ added g (foodOff g new.blocks old.blocks) := by
  have hremoved : ∀ bs : List Vec2i, removed g (bs.flatMap g.staticMap) = bs.flatMap (removeSaid g) :=
    fun bs => List.map_flatMap
  have hadded : ∀ bs : List Vec2i, added g (bs.flatMap g.staticMap) = bs.flatMap (addSaid g) :=
    fun bs => List.map_flatMap
  unfold blockSaid foodOff
  rw [hremoved, hadded]
  split_ifs with hmoved
  · rfl
  · -- the view is the old one, and so are the blocks
    rw [not_or, not_not, not_not] at hmoved
    have hsame : new.blocks = old.blocks := by
      have h : new.blocks = _ := hnew.blocks
      have h' : old.blocks = _ := hold.blocks
      rw [h, h']
      exact (congrArg₂ Player.viewBlocks hmoved.1 hmoved.2).symm
    have hnone : SortedDifference.setDifference blockAddress old.blocks old.blocks = [] := by
      have h' : old.blocks = _ := hold.blocks
      rw [h']
      exact Player.difference_self hold.framed
    rw [hsame, hnone]
    rfl

theorem mem_foodOff {g : Game ℝ} (hw : g.WellFormed) {v v' : Sight} (hv : v.Charted)
    (hv' : v'.Charted) {c : CellPtr} : c ∈ foodOff g v.blocks v'.blocks ↔
      (∃ b, c ∈ g.staticMap b) ∧ indexFromCoord (g.heap c).position ∈ v.blocks ∧
        indexFromCoord (g.heap c).position ∉ v'.blocks := by
  have hdiff : ∀ b, b ∈ SortedDifference.setDifference blockAddress v.blocks v'.blocks ↔
      b ∈ v.blocks ∧ b ∉ v'.blocks := by
    rw [hv.blocks, hv'.blocks]
    exact fun b => Player.mem_difference hv.framed hv'.framed
  unfold foodOff
  rw [List.mem_flatMap]
  constructor
  · rintro ⟨b, hb, hc⟩
    rw [(hw.static b c hc).2.2]
    exact ⟨⟨b, hc⟩, (hdiff b).mp hb⟩
  · rintro ⟨⟨b, hc⟩, hb⟩
    rw [(hw.static b c hc).2.2] at hb
    exact ⟨b, (hdiff b).mpr hb, hc⟩

theorem foodOff_nodup {g : Game ℝ} (hw : g.WellFormed) {v : Sight} (hv : v.Charted)
    (blocks' : List Vec2i) : (foodOff g v.blocks blocks').Nodup := by
  have hblocks : v.blocks.Nodup := by
    rw [hv.blocks]
    exact Player.viewBlocks_nodup hv.framed
  refine List.nodup_flatMap.mpr ⟨fun b _ => hw.static_nodup b, ?_⟩
  refine (SortedDifference.setDifference_nodup hblocks).imp fun {b b'} hne c hc hc' => ?_
  exact hne ((hw.static b c hc).2.2.symm.trans (hw.static b' c hc').2.2)

end Outgoing

theorem Player.sees_iff {g : Game ℝ} {p : Player ℝ} (hp : p.sight.Charted) (c : CellPtr) :
    p.sees g c = true ↔ indexFromCoord (g.heap c).position ∈ p.blocks := by
  have hblocks : p.blocks = _ := hp.blocks
  rw [hblocks, Player.mem_viewBlocks]
  unfold sees inside
  dsimp only [Player.sight]
  split_ifs with h
  · simp only [Option.isSome_some, true_iff]
    omega
  · simp only [Option.isSome_none, Bool.false_eq_true, false_iff]
    omega

end Agar
