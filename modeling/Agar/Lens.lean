import Agar.Cameras
import Agar.Charts
import Agar.Clients

/-! The camera of a player over whole runs: it starts where the player joined and closes in on the
player's cells with every update. The first part is about any point that keeps a part of where it is
and takes the rest from a target. -/

namespace Pursuit
open Metric

variable {E : Type} [NormedAddCommGroup E] [NormedSpace ℝ E] {C : Set E}

/-- The point keeps the part `a` of itself. -/
def follow (a : ℝ) (x target : E) : E := a • x + (1 - a) • target

theorem infDist_follow (hC : Convex ℝ C) {a : ℝ} (ha : 0 ≤ a) (ha' : a ≤ 1) {target : E}
    (ht : target ∈ C) (x : E) : infDist (follow a x target) C ≤ a * infDist x C := by
  refine le_of_forall_pos_le_add fun ε hε => ?_
  obtain ⟨y, hy, hdist⟩ := (infDist_lt_iff ⟨target, ht⟩).mp (lt_add_of_pos_right (infDist x C) hε)
  have hmem : follow a y target ∈ C := hC hy ht ha (sub_nonneg.mpr ha') (add_sub_cancel a 1)
  calc infDist (follow a x target) C ≤ dist (follow a x target) (follow a y target) :=
        infDist_le_dist_of_mem hmem
    _ = a * dist x y := by
        unfold follow
        rw [dist_add_right, dist_smul₀, Real.norm_of_nonneg ha]
    _ ≤ a * (infDist x C + ε) := mul_le_mul_of_nonneg_left hdist.le ha
    _ ≤ a * infDist x C + ε := by
        rw [mul_add]
        have hpart : a * ε ≤ ε := mul_le_of_le_one_left hε.le ha'
        linarith

theorem infDist_chain (hC : Convex ℝ C) {a : ℝ} (ha : 0 ≤ a) (ha' : a ≤ 1) {x₀ x target : E}
    {n : ℕ} (ht : target ∈ C) (hx : infDist x C ≤ a ^ n * infDist x₀ C) :
    infDist (follow a x target) C ≤ a ^ (n + 1) * infDist x₀ C := by
  refine (infDist_follow hC ha ha' ht x).trans ?_
  rw [pow_succ', mul_assoc]
  exact mul_le_mul_of_nonneg_left hx ha

theorem mean_mem (hC : Convex ℝ C) {ι : Type} {l : List ι} {w : ι → ℝ} {z : ι → E}
    (hw : ∀ i ∈ l, 0 ≤ w i) (hpos : 0 < (l.map w).sum) (hz : ∀ i ∈ l, z i ∈ C) :
    (l.map fun i => (w i * (1 / (l.map w).sum)) • z i).sum ∈ C := by
  set total := (l.map w).sum with htotal
  have hone : ∑ i : Fin l.length, w l[i.1] * (1 / total) = 1 := by
    rw [← Finset.sum_mul, Fin.sum_univ_fun_getElem l w, ← htotal, mul_one_div_cancel hpos.ne']
  rw [← Fin.sum_univ_fun_getElem l fun i => (w i * (1 / total)) • z i]
  refine hC.sum_mem (fun i _ => ?_) hone fun i _ => hz _ (List.getElem_mem i.2)
  exact mul_nonneg (hw _ (List.getElem_mem i.2)) (one_div_pos.mpr hpos).le

end Pursuit

namespace Agar
open Metric Trace

namespace Vec2

/-- The vector as a point of the plane. -/
def pair (v : Vec2 ℝ) : ℝ × ℝ := (v.x, v.y)

end Vec2

namespace Player
variable {g : Game ℝ} {p : Player ℝ}

/-- The mean of the cells' centers by their radii. -/
noncomputable def target (g : Game ℝ) (p : Player ℝ) : ℝ × ℝ :=
  (p.cells.map fun c => ((g.heap c).radius * (1 / (p.cells.map fun c => (g.heap c).radius).sum)) •
    (g.heap c).position.pair).sum

theorem calculateCamera_follows (g : Game ℝ) (p : Player ℝ) :
    (p.calculateCamera g).camera.pair = Pursuit.follow 0.95 p.camera.pair (p.target g) := by
  let inv : ℝ := 1 / (p.cells.map fun c => (g.heap c).radius).sum
  have hsum : ∀ (l : List CellPtr) (v : Vec2 ℝ), (l.foldl (fun t c =>
      t + (g.heap c).position * ((g.heap c).radius * inv)) v).pair =
      v.pair + (l.map fun c => ((g.heap c).radius * inv) • (g.heap c).position.pair).sum := by
    intro l
    induction l with
    | nil => exact fun v => (add_zero _).symm
    | cons c l ih =>
      intro v
      rw [List.foldl_cons, ih, List.map_cons, List.sum_cons, ← add_assoc]
      congr 1
      refine Prod.ext ?_ ?_
      · show v.x + (g.heap c).position.x * ((g.heap c).radius * inv) = _
        rw [mul_comm (g.heap c).position.x]
        rfl
      · show v.y + (g.heap c).position.y * ((g.heap c).radius * inv) = _
        rw [mul_comm (g.heap c).position.y]
        rfl
  have htotal : p.cells.foldl (fun t c => t + (g.heap c).radius) (0 : ℝ) =
      (p.cells.map fun c => (g.heap c).radius).sum := p.totalRadius_eq g
  have hpos := hsum p.cells 0
  rw [show (0 : Vec2 ℝ).pair = 0 from rfl, zero_add] at hpos
  unfold calculateCamera Pursuit.follow target
  dsimp only
  rw [htotal, ← hpos]
  refine Prod.ext ?_ ?_
  · show p.camera.x * 0.95 + _ * (1 - 0.95) = _
    rw [mul_comm p.camera.x, mul_comm _ (1 - 0.95 : ℝ)]
    rfl
  · show p.camera.y * 0.95 + _ * (1 - 0.95) = _
    rw [mul_comm p.camera.y, mul_comm _ (1 - 0.95 : ℝ)]
    rfl

theorem line_mono {x y : ℝ} (h : x ≤ y) :
    min (trunc (max x 0)) ((mapSize : ℤ) - 1) / (blockSize : ℤ) ≤
      min (trunc (max y 0)) ((mapSize : ℤ) - 1) / (blockSize : ℤ) := by
  have hfloor : trunc (max x 0) ≤ trunc (max y 0) := by
    rw [Game.trunc_of_nonneg (le_max_right x 0), Game.trunc_of_nonneg (le_max_right y 0)]
    exact Int.floor_le_floor (max_le_max_right 0 h)
  exact Int.ediv_le_ediv (by decide) (min_le_min_right _ hfloor)

theorem updateView_centered (h : p.Focused g) :
    indexFromCoord (p.updateView g).camera ∈ (p.updateView g).blocks := by
  obtain ⟨hradius, hcells⟩ := h
  let view : ℝ := (4 + (p.cells.length : ℝ) * 3) * ((p.calculateCamera g).totalRadius /
    (p.cells.length : ℝ)) + 1000
  have hview : 0 ≤ view := by positivity
  have hwide : 0 ≤ view * 1.6 := mul_nonneg hview (by norm_num)
  have hsighted : ¬ decide ((p.calculateCamera g).totalRadius = 0) = true := by
    rw [decide_eq_true_eq]
    exact hradius.ne'
  let camera : Vec2 ℝ := (p.calculateCamera g).camera
  have hblocks : (p.updateView g).blocks = viewBlocks
      (indexFromCoord (camera - (⟨view * 1.6, view⟩ : Vec2 ℝ)))
      (indexFromCoord (camera + (⟨view * 1.6, view⟩ : Vec2 ℝ))) := by
    unfold updateView
    dsimp only
    rw [if_neg hsighted, if_neg hsighted]
    rfl
  have hcamera : (p.updateView g).camera = camera := rfl
  rw [hblocks, hcamera, mem_viewBlocks]
  exact ⟨⟨line_mono (sub_le_self _ hwide), line_mono (le_add_of_nonneg_right hwide)⟩,
    line_mono (sub_le_self _ hview), line_mono (le_add_of_nonneg_right hview)⟩

end Player

/-- The camera of the update is taken from cells of the region, and some of them have a radius. -/
structure UpdateRecord.FilmsIn (C : Set (ℝ × ℝ)) (u : UpdateRecord ℝ) : Prop where
  focused : u.parsed.player.Focused u.commanded
  inside : ∀ c ∈ u.parsed.player.cells, (u.commanded.heap c).position.pair ∈ C

/-- The camera has come closer to every region to which the cells have kept since the player
joined. -/
def ClosesIn (p : Player ℝ) (us : List (UpdateRecord ℝ)) (camera : Vec2 ℝ) : Prop :=
  ∀ C : Set (ℝ × ℝ), Convex ℝ C → (∀ u ∈ us, u.FilmsIn C) →
    infDist camera.pair C ≤ 0.95 ^ us.length * infDist p.camera.pair C

theorem ClosesIn.next {p₀ p : Player ℝ} {us : List (UpdateRecord ℝ)} (h : ClosesIn p₀ us p.camera)
    {g : Game ℝ} (hw : g.WellFormed) {i : ℕ} (hp : g.players[i]? = some p) :
    ClosesIn p₀ (us ++ [g.updatePlayer i p]) (g.updatePlayer i p).finished.player.camera := by
  intro C hC hfilms
  let u := g.updatePlayer i p
  obtain ⟨hfocused, hinside⟩ := hfilms u (List.mem_append_right us List.mem_cons_self)
  have hcamera : u.parsed.player.camera = p.camera := by
    obtain ⟨ms, hext⟩ := Game.parsed_spec g i p
    rw [hext.player, (Game.start_spec hw hp).2]
  have hfinished : u.finished.player.camera = (u.parsed.player.calculateCamera u.commanded).camera := by
    show (g.updatePlayer i p).finished.player.camera = _
    rw [Game.finished_eq]
    rfl
  have hw' := (Game.commands_spec hw hp).1
  have hcells : u.parsed.player.cells = u.commanded.cellsOf i := by
    obtain ⟨ms, hext⟩ := Game.parsed_spec g i p
    rw [hext.player, (Game.start_spec hw hp).2]
    rfl
  have htarget : u.parsed.player.target u.commanded ∈ C := by
    refine Pursuit.mean_mem hC (fun c hc => ?_) ?_ hinside
    · rw [hcells] at hc
      exact hw'.radius c (hw'.owned i c hc).1
    · have hsum := hfocused.1
      rwa [Player.totalRadius_eq] at hsum
  have hbefore := h C hC fun v hv => hfilms v (List.mem_append_left _ hv)
  rw [← hcamera] at hbefore
  rw [hfinished, Player.calculateCamera_follows, List.length_append]
  exact Pursuit.infDist_chain hC (by norm_num) (by norm_num) htarget hbefore

/-- The camera of the present player of the connection. -/
def Trails (tr : List (Obs ℝ)) (v : Wsi × Vec2 ℝ) : Prop :=
  ∃ p ∈ latest (Obs.newcomer v.1) tr, ClosesIn p (updatesOf v.1 tr) v.2

theorem Trails.silent {tr os : List (Obs ℝ)} {v : Wsi × Vec2 ℝ} (h : Trails tr v)
    (hos : Silent v.1 os) : Trails (tr ++ os) v := by
  obtain ⟨p, hp, hcloses⟩ := h
  refine ⟨p, ?_, ?_⟩
  · rwa [latest_append_of_none fun o ho => Obs.newcomer_of_joins (hos o ho).1]
  · rwa [hos.updatesOf]

/-- The connection of a player and its camera. -/
def Player.shot (p : Player ℝ) : Wsi × Vec2 ℝ := (p.wsi, p.camera)

theorem shot_carried : MovedVector.Carried Player.moves Player.shot :=
  carried_of_flags _ fun _ _ _ => rfl

def AllTrail (s : Sys ℝ) : Prop := ∀ v ∈ s.game.players.map Player.shot, Trails s.trace v

theorem Shift.allTrail {a : Stage} {s s' : Sys ℝ} (h : Shift s s') (hi : Invariant a s)
    (hs : AllTrail s) : AllTrail s' := by
  unfold AllTrail at hs ⊢
  cases h with
  | quiet hplayers os htrace hquiet =>
    rw [map_of_core (f := Player.shot) (fun _ => rfl) hplayers, htrace]
    refine fun v hv => (hs v hv).silent fun o ho => ?_
    rcases hquiet o ho with ⟨g, -, -, rfl⟩ | ⟨g, rfl⟩ <;> exact ⟨rfl, rfl⟩
  | erase x hx hplayers htrace =>
    rw [hplayers, MovedVector.eraseAt_carried shot_carried, htrace]
    refine fun v hv => (hs v ((List.eraseIdx_sublist _ _).subset hv)).silent fun o ho => ?_
    rw [List.mem_singleton.mp ho]
    exact ⟨rfl, rfl⟩
  | update i p hp hplayers htrace =>
    rw [map_of_core_set (f := Player.shot) (fun _ => rfl) hplayers, htrace]
    intro v hv
    obtain ⟨j, hj⟩ := List.mem_iff_getElem?.mp hv
    by_cases hij : i = j
    · subst hij
      have hlt : i < (s.game.players.map Player.shot).length := by
        simpa using Game.getElem?_lt hp
      rw [List.getElem?_set_self hlt] at hj
      obtain rfl := Option.some.inj hj
      have hwsi : (s.game.updatePlayer i p).finished.player.wsi = p.wsi :=
        (Game.finished_player hi.wellFormed hp).1
      obtain ⟨p₀, hp₀, hcloses⟩ := hs p.shot (List.mem_map_of_mem (List.mem_of_getElem? hp))
      have hnone : ∀ o ∈ [Obs.updated (s.game.updatePlayer i p), .requested p.wsi],
          o.newcomer p.wsi = none := fun o ho => by rcases List.mem_pair.mp ho with rfl | rfl <;> rfl
      refine ⟨p₀, ?_, ?_⟩
      · show p₀ ∈ latest (Obs.newcomer (s.game.updatePlayer i p).finished.player.wsi) _
        rw [hwsi, latest_append_of_none hnone]
        exact hp₀
      · show ClosesIn p₀ (updatesOf (s.game.updatePlayer i p).finished.player.wsi _) _
        have hplayer : (s.game.updatePlayer i p).player.wsi = p.wsi := rfl
        rw [hwsi, updatesOf_update s.trace hplayer]
        exact hcloses.next hi.wellFormed hp
    · rw [List.getElem?_set_ne hij, List.getElem?_map] at hj
      obtain ⟨q, hq, rfl⟩ := Option.map_eq_some_iff.mp hj
      have hne : p.wsi ≠ q.wsi := key_ne hi.distinct hp hq hij
      refine (hs _ (List.mem_map_of_mem (List.mem_of_getElem? hq))).silent fun o ho => ?_
      rcases List.mem_pair.mp ho with rfl | rfl
      · exact ⟨rfl, if_neg hne⟩
      · exact ⟨rfl, rfl⟩
  | write i p clock hp hcan hpending hplayers htrace =>
    have hsame : s'.game.players.map Player.shot = s.game.players.map Player.shot := by
      rw [hplayers, List.map_set]
      exact map_set_same hp rfl
    rw [hsame, htrace]
    refine fun v hv => (hs v hv).silent fun o ho => ?_
    rw [List.mem_singleton.mp ho]
    exact ⟨rfl, rfl⟩
  | join p hwsi hsend hmessage hhistory hblocks hsplit hfeed hplayers htrace =>
    rw [hplayers, MovedVector.emplaceBack_carried shot_carried, htrace]
    intro v hv
    rcases List.mem_append.mp hv with hv | hv
    · obtain ⟨q, hq, rfl⟩ := List.mem_map.mp hv
      refine (hs _ hv).silent fun o ho => ?_
      rw [List.mem_singleton.mp ho]
      exact ⟨by simp [Obs.joins, Player.shot, hwsi q hq], rfl⟩
    · rw [List.mem_singleton.mp hv]
      have hlife : life p.wsi (s.trace ++ [.joined p s.game s'.game]) = [] := by
        unfold life
        rw [since_snoc, if_pos (by simp [Obs.joins])]
      refine ⟨p, ?_, fun C _ _ => ?_⟩
      · unfold latest
        simp [Obs.newcomer, Player.shot]
      · show infDist p.camera.pair C ≤ 0.95 ^ (updatesOf p.wsi _).length * _
        unfold updatesOf
        rw [hlife]
        simp
  | receive w packet hplayers os htrace hquiet =>
    have hsame : s'.game.players.map Player.shot = s.game.players.map Player.shot := by
      rw [hplayers, List.map_map]
      refine List.map_congr_left fun p _ => ?_
      show (p.received w packet).shot = p.shot
      unfold Player.received
      split_ifs <;> rfl
    rw [hsame, htrace]
    refine fun v hv => (hs v hv).silent fun o ho => ?_
    rcases List.mem_cons.mp ho with rfl | ho
    · exact ⟨rfl, rfl⟩
    · obtain ⟨x, rfl⟩ := hquiet o ho
      exact ⟨rfl, rfl⟩

/-- The camera that an update leaves: it has closed in on the cells since the player joined, its
block is in the view, and the client is told where it is. -/
structure UpdateRecord.Tracks (tr : List (Obs ℝ)) (u : UpdateRecord ℝ) : Prop where
  closesIn : ∃ p ∈ latest (Obs.newcomer u.player.wsi) tr,
    ClosesIn p (updatesOf u.player.wsi tr ++ [u]) u.finished.player.camera
  centered : u.parsed.player.Focused u.commanded →
    indexFromCoord u.finished.player.camera ∈ u.finished.player.blocks
  told : u.finished.said.getLast? =
    some (.position u.finished.player.camera.x u.finished.player.camera.y)

/-- As long as no cell has been updated without a radius, which would leave it no center. -/
def UpdateRecord.Follows (tr : List (Obs ℝ)) (u : UpdateRecord ℝ) : Prop :=
  (∀ o ∈ tr, o.Solid) → u.Tracks tr

/-- In every run, with the `n`-th update since a player joined its camera is closer to every convex
region to which its cells have kept than `0.95` to the `n` times the distance it began with, if at
each of these updates one of the cells had a radius. -/
theorem camera_closes_in (r : Run ℝ) : Always (AtUpdates UpdateRecord.Follows) r.final.trace := by
  refine Run.induction_updates (P := fun _ s => AllTrail s) (fun rand stale => ?_)
    (fun _ _ _ _ hi hm hs => (hm.shift hi).allTrail hi hs) (fun n s p hi hs hp => ?_) r
  · intro v hv
    have hnone : (Sys.init rand stale).game.players = [] :=
      (Game.mapInit_started rand stale).players
    rw [hnone] at hv
    cases hv
  · obtain ⟨p₀, hp₀, hcloses⟩ := hs p.shot (List.mem_map_of_mem (List.mem_of_getElem? hp))
    refine fun _ => ⟨⟨p₀, hp₀, hcloses.next hi.wellFormed hp⟩, fun hfocused => ?_, ?_⟩
    · rw [Game.finished_eq]
      exact Player.updateView_centered hfocused
    · rw [Game.finished_eq]
      show (_ ++ (_ ++ [_])).getLast? = _
      rw [← List.append_assoc, List.getLast?_concat]
      rfl

end Agar
