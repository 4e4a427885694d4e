import Agar.Screens
import Agar.Views

/-! What the clients know of the food: exactly what lies in the view, if and only if no food lay in
the view when the player was created. `Init` lists the blocks without sending what is in them, and
`UpdateBlocks` sends the food of new blocks alone. -/

namespace Agar
open Mirror Picture Trace

/-- What the messages say of the static cells. -/
def staticChanges (ms : List (Msg ℝ)) : List (Change (BitVec 32)) :=
  (ms.filterMap Msg.change).filter fun c => c.key.toNat < maxFood

/-- The client that has replayed all messages since the player joined knows the food of the view
and nothing else, and each of them made sense to it. -/
structure UpdateRecord.MirrorsFood (tr : List (Obs ℝ)) (u : UpdateRecord ℝ) : Prop where
  blocks : u.finished.player.blocks =
    Player.viewBlocks u.finished.player.topLeft u.finished.player.bottomRight
  legal : Legal ∅ (staticChanges (u.heardAll tr))
  known : ∀ i : BitVec 32, i ∈ replay ∅ (staticChanges (u.heardAll tr)) ↔
    ∃ b ∈ u.finished.player.blocks, ∃ c ∈ u.after.staticMap b, (u.after.heap c).id = i

def UpdateRecord.Mirrors (tr : List (Obs ℝ)) (u : UpdateRecord ℝ) : Prop :=
  u.after.allocated ≤ 2 ^ 32 → u.MirrorsFood tr

/-- The client knows the food as it should just when there was none in the first view. -/
def UpdateRecord.MirrorsExactly (tr : List (Obs ℝ)) (u : UpdateRecord ℝ) : Prop :=
  u.after.allocated ≤ 2 ^ 32 → (u.MirrorsFood tr ↔ firstFood u.player.wsi tr = ∅)

section Names
variable {g : Game ℝ} {ms : List (Msg ℝ)} {rs : List (Report CellPtr Face)}

theorem foodChanges_key (rs : List (Report CellPtr Face)) : ∀ c ∈ foodChanges rs, c.key < maxFood :=
  fun _ hc => of_decide_eq_true (List.mem_filter.mp hc).2

theorem Scripted.staticChanges (h : Scripted g ms rs) (hfew : g.allocated ≤ 2 ^ 32) :
    staticChanges ms = (foodChanges rs).map (.map CellPtr.name) := by
  unfold Agar.staticChanges foodChanges
  rw [h.changes, List.filter_map]
  refine congrArg _ (List.filter_congr fun c hc => ?_)
  obtain ⟨r, hr, rfl⟩ := List.mem_map.mp hc
  have hlt : r.change.key < 2 ^ 32 := by
    rw [Report.change_key]
    exact (h.keys r hr).trans_le hfew
  rw [Function.comp_apply, Change.map_key, CellPtr.name_toNat hlt]

theorem Told.replayed {first held : Set Vec2i} {start : Set CellPtr} {v : Sight}
    (h : Told False g first held start v ms rs) (hw : g.WellFormed) (i : BitVec 32) :
    i ∈ CellPtr.name '' replay start (foodChanges rs) ↔
      ∃ b ∈ v.blocks, ∃ c ∈ g.staticMap b, (g.heap c).id = i := by
  rw [h.catered.known]
  constructor
  · rintro ⟨c, ⟨-, ⟨b, hc⟩ | ⟨hfalse, -⟩, hin⟩, rfl⟩
    · have hblock : g.block c = b := (hw.static b c hc).2.2
      exact ⟨b, hblock ▸ hin, c, hc, hw.id c (hw.static_lt hc)⟩
    · exact hfalse.elim
  · rintro ⟨b, hin, c, hc, rfl⟩
    have hblock : g.block c = b := (hw.static b c hc).2.2
    exact ⟨c, ⟨(hw.static b c hc).1, Or.inl ⟨b, hc⟩, hblock.symm ▸ hin⟩,
      (hw.id c (hw.static_lt hc)).symm⟩

end Names

theorem Portrayed.mirrors {s : Sys ℝ} {n : ℕ} (h : Portrayed (.updating n) s)
    (hi : Invariant (.updating n) s) {p : Player ℝ} (hp : s.game.players[n]? = some p) :
    (s.game.updatePlayer n p).MirrorsExactly s.trace := by
  intro hfew
  have hfew' : (s.game.commands n p).allocated ≤ 2 ^ 32 := hfew
  obtain ⟨rs, htold⟩ := h.finished hi hp
  obtain ⟨hw, -⟩ := Game.commands_spec hi.wellFormed hp
  have hinj := CellPtr.name_injOn hfew'
  have hfood : ∀ c < maxFood, c ∈ {c : CellPtr | c < (s.game.commands n p).allocated} :=
    fun c hc => lt_of_lt_of_le hc hw.food_le
  have hkeys : ∀ c ∈ foodChanges rs, c.key ∈ {c : CellPtr | c < (s.game.commands n p).allocated} :=
    fun c hc => hfood _ (foodChanges_key rs c hc)
  have hchanges : staticChanges ((s.game.updatePlayer n p).heardAll s.trace) =
      (foodChanges rs).map (.map CellPtr.name) := htold.scripted.staticChanges hfew'
  have hreplay := replay_map hinj (Set.empty_subset _) hkeys
  have hlegal := legal_map hinj (Set.empty_subset _) hkeys
  rw [Set.image_empty, ← hchanges] at hreplay hlegal
  constructor
  · intro hm
    -- the client would have had to know the food of the first view
    have hsame : replay ∅ (foodChanges rs) = replay (firstFood p.wsi s.trace) (foodChanges rs) := by
      refine (hinj.image_eq_image_iff (replay_subset (Set.empty_subset _) hkeys) ?_).mp
        (Set.ext fun i => ?_)
      · rw [htold.catered.known]
        exact fun c hc => hfood c hc.1
      · rw [← hreplay, htold.replayed hw]
        exact hm.known i
    exact legal_unique htold.catered.legal (hlegal.mp hm.legal) hsame.symm
  · intro hnone
    have hnone' : firstFood p.wsi s.trace = ∅ := hnone
    have hview := htold.replayed hw
    have hlegal' := htold.catered.legal
    rw [hnone'] at hview hlegal'
    refine ⟨(Game.finished_charted s.game n p).blocks, hlegal.mpr hlegal', fun i => ?_⟩
    rw [hreplay]
    exact hview i

/-- In every run, after every update, the client that has replayed all messages since the player
joined knows the food of the view and nothing else, and every message about food made sense to it,
just when no food lay in the blocks of the player's first view when `Init` listed them. -/
theorem food_mirrored (r : Run ℝ) :
    Always (AtUpdates UpdateRecord.MirrorsExactly) r.final.trace :=
  Run.induction_updates init_portrayed (fun _ _ _ _ hi hm hs => hm.portrayed hi hs)
    (fun _ _ _ hi hs hp => hs.mirrors hi hp) r

/-- A place that a new player at the origin sees from afar. -/
def platter : Draw := (12000, 0)

theorem spot_platter : spot platter = ⟨12000, 0⟩ := by
  refine Vec2.ext ?_ ?_
  · show ((12000 % mapSize : ℕ) : ℝ) = 12000
    norm_num [mapSize, numBlocks, blockSize]
  · show ((0 % mapSize : ℕ) : ℝ) = 0
    norm_num

theorem platter_block : indexFromCoord (spot platter) = ⟨120, 0⟩ := by
  have hx : trunc (12000 : ℝ) = 12000 := by exact_mod_cast trunc_natCast 12000
  have hy : trunc (0 : ℝ) = 0 := by exact_mod_cast trunc_natCast 0
  rw [spot_platter]
  unfold indexFromCoord
  norm_num [hx, hy, mapSize, numBlocks, blockSize]

/-- A player joins in sight of the food, and one tick passes. -/
def unserved : Run ℝ where
  rand := placing platter corner
  stale := fun _ => 0
  events := [.writeable 0 0 (fun _ => true) 8, .tick 1]

/-- The food in sight of the first player is in its first view. -/
theorem Game.Joined.firstFood {s : Sys ℝ} (h : s.game.Joined platter corner 0) (grown : ℕ) :
    (0 : CellPtr) ∈ firstFood 0 (s.join 0 grown).trace := by
  have htrace : (s.join 0 grown).trace =
    s.trace ++ [.joined (s.game.newPlayer 0).1 s.game (s.join 0 grown).game] := rfl
  have hwsi : (s.game.newPlayer 0).1.wsi = 0 := rfl
  obtain ⟨-, -, -, hfood⟩ := told_joined s.trace (s.game.newPlayer 0).1 s.game
    (s.join 0 grown).game
  rw [hwsi] at hfood
  rw [htrace, hfood]
  refine ⟨indexFromCoord (spot platter), ?_, h.placed.first⟩
  rw [(Game.newPlayer_fresh h.placed.rand 0).2.blocks, platter_block]
  exact Player.mem_viewBlocks.mpr (by decide)

theorem Portrayed.moves {a b : Stage} {s s' : Sys ℝ} (hs : Portrayed a s) (hi : Invariant a s)
    (h : Moves (a, s) (b, s')) : Invariant b s' ∧ Portrayed b s' :=
  Moves.keeps (P := Portrayed) (fun _ _ _ _ hi hm hs => hm.portrayed hi hs) h hi hs

theorem Portrayed.unserved {s : Sys ℝ} (hs : Portrayed .idle s) (hi : Invariant .idle s)
    (h : s.game.Joined platter corner 0) :
    ¬ Always (AtUpdates UpdateRecord.Mirrors) (Agar.unserved.events.foldl Sys.step s).trace := by
  have hjoin : s.step (.writeable 0 0 (fun _ => true) 8) = s.join 0 8 := h.writeable 0 _ 8
  have hfood := h.firstFood 8
  have hjoined := h.join 8
  obtain ⟨hi₁, hs₁⟩ := hs.moves hi (Sys.step_moves hi (.writeable 0 0 (fun _ => true) 8))
  unfold Agar.unserved
  rw [List.foldl_cons, List.foldl_cons, List.foldl_nil, hjoin]
  rw [hjoin] at hi₁ hs₁
  generalize s.join 0 8 = s₁ at *
  have hplatter : 1100 < (spot platter).x := by
    rw [spot_platter]
    norm_num
  obtain ⟨p, hlone, hfresh, hwsi⟩ := (Sys.Reached.mk hi₁ hs₁.watch).lone hjoined hplatter corner_far
  have hconnected : p.wsMessage.connected = true := by
    rw [hfresh.message]
    exact Message.new_connected
  have hplayers := hlone.moved hconnected 1
  have htrace := (Sys.tick_alone hplayers).2
  have hmoved := Sys.tickMoved_trace (hlone.solo hconnected).allConnected 1
  have hp : (s₁.tickMoved 1).game.players[0]? = some p := by
    rw [hplayers]
    rfl
  obtain ⟨hi₂, hs₂⟩ := hs₁.moves hi₁ (Sys.tickMoved_moves s₁ 1)
  intro hall
  have hm : ((s₁.tickMoved 1).game.updatePlayer 0 p).Mirrors (s₁.tickMoved 1).trace := by
    refine hall (s₁.tickMoved 1).trace (.updated _) ?_
    show _ <+: (s₁.tick 1).trace
    rw [htrace]
    exact (List.prefix_append_right_inj _).mpr ⟨_, rfl⟩
  have hfew : ((s₁.tickMoved 1).game.updatePlayer 0 p).after.allocated ≤ 2 ^ 32 := by
    show ((s₁.tickMoved 1).game.updatePlayer 0 p).commanded.allocated ≤ 2 ^ 32
    rw [(hlone.updated hconnected 1).1, (hlone.same hconnected 1).allocated, hjoined.allocated]
    decide
  have hnone : firstFood p.wsi (s₁.tickMoved 1).trace = ∅ :=
    (hs₂.mirrors hi₂ hp hfew).mp (hm hfew)
  have hquiet : firstFood 0 (s₁.trace ++ [.collided (s₁.tickStart 1).game
      (s₁.tickStart 1).game.collisionPhase]) = firstFood 0 s₁.trace :=
    firstFood_append fun o ho => List.mem_singleton.mp ho ▸ rfl
  rw [hwsi, hmoved, hquiet] at hnone
  rw [hnone] at hfood
  exact hfood

/-- The client is never told of the food in its first view. -/
theorem food_unsent : ¬ Always (AtUpdates UpdateRecord.Mirrors) unserved.final.trace := by
  have hjoined : (Sys.init (placing platter corner) fun _ => (0 : ℝ)).game.Joined platter corner 0 :=
    Game.mapInit_joined platter corner _
  exact (init_portrayed _ _).unserved (init_invariant _ _) hjoined

end Agar
