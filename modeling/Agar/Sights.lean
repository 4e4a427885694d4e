import Agar.History
import Agar.Stream

/-! What the players have been told about and what they look at, over whole runs: the cells of a
history exist and lie on the map, and those still in `DynamicMap` are among the moved ones. -/

namespace Agar
open MovedVector Trace

namespace Game
variable {g : Game ℝ}

theorem foldl_fewer {α : Type} {f : Game ℝ → α → Game ℝ} {c : CellPtr}
    (h : ∀ g a, c ∈ (f g a).dynamicMap → c ∈ g.dynamicMap) (g : Game ℝ) (l : List α)
    (hc : c ∈ (l.foldl f g).dynamicMap) : c ∈ g.dynamicMap := by
  induction l generalizing g with
  | nil => exact hc
  | cons a l ih => exact h g a (ih _ hc)

theorem collideBlock_fewer (g : Game ℝ) (cell : CellPtr) (b : Vec2i) (loop : ℕ) {c : CellPtr}
    (hc : c ∈ (g.collideBlock cell b loop).dynamicMap) : c ∈ g.dynamicMap := by
  fun_induction collideBlock g cell b loop with
  | case1 g loop hnone => exact hc
  | case2 g loop s hs hbig ih => exact ih hc
  | case3 g loop s hs hbig ih => exact ih hc

theorem collideDynamicWith_fewer (g : Game ℝ) (i : ℕ) (cell : CellPtr) (myLoop loop : ℕ)
    {c : CellPtr} (hc : c ∈ (g.collideDynamicWith i cell myLoop loop).1.dynamicMap) :
    c ∈ g.dynamicMap := by
  fun_induction collideDynamicWith g i cell myLoop loop with
  | case1 g loop hnone => exact hc
  | case2 g loop d hd flag result hbig g' hpop =>
    rw [popVirus_dynamicMap] at hc
    exact (List.eraseIdx_sublist _ _).subset hc
  | case3 g loop d hd flag result hbig g' hpop ih =>
    exact (List.eraseIdx_sublist _ _).subset (ih hc)
  | case4 g loop d hd flag result hbig hsmall => exact hc
  | case5 g loop d hd flag result hbig hsmall ih => exact ih hc

theorem collideDynamicFrom_fewer (g : Game ℝ) (i myLoop : ℕ) {c : CellPtr}
    (hc : c ∈ (g.collideDynamicFrom i myLoop).dynamicMap) : c ∈ g.dynamicMap := by
  fun_induction collideDynamicFrom g i myLoop with
  | case1 g myLoop hnone => exact hc
  | case2 g myLoop cell hcell hback ih => exact collideDynamicWith_fewer g i cell _ _ (ih hc)
  | case3 g myLoop cell hcell hback ih => exact collideDynamicWith_fewer g i cell _ _ (ih hc)

theorem noteSelf_dynamicMap (g : Game ℝ) (a b : CellPtr) :
    (g.noteSelf a b).dynamicMap = g.dynamicMap := by
  unfold noteSelf noteCombine
  dsimp only
  split_ifs <;> rfl

theorem eraseCellAt_dynamicMap (g : Game ℝ) (i : ℕ) (myLoop : ℤ) :
    (g.eraseCellAt i myLoop).dynamicMap = g.dynamicMap := by
  unfold eraseCellAt
  split_ifs <;> rfl

theorem collideSelfWith_dynamicMap (g : Game ℝ) (i : ℕ) (cell : CellPtr) (myLoop : ℤ) (loop : ℕ)
    {l : List CellPtr} (hl : g.dynamicMap = l) :
    (g.collideSelfWith i cell myLoop loop).1.dynamicMap = l := by
  fun_induction collideSelfWith g i cell myLoop loop with
  | case1 g myLoop loop hnone => exact hl
  | case2 g myLoop loop o ho result g' hready hover hbig ih =>
    exact ih ((noteSelf_dynamicMap g cell o).trans hl)
  | case3 g myLoop loop o ho result g' hready hover hbig ih =>
    exact ih ((eraseCellAt_dynamicMap _ i myLoop).trans ((noteSelf_dynamicMap g cell o).trans hl))
  | case4 g myLoop loop o ho result g' hready hover ih =>
    exact ih ((noteSelf_dynamicMap g cell o).trans hl)
  | case5 g myLoop loop o ho result g' hready htouch ih =>
    exact ih ((noteSelf_dynamicMap g cell o).trans hl)
  | case6 g myLoop loop o ho result g' hready htouch ih =>
    exact ih ((noteSelf_dynamicMap g cell o).trans hl)

theorem collideSelfFrom_dynamicMap (g : Game ℝ) (i myLoop : ℕ) {l : List CellPtr}
    (hl : g.dynamicMap = l) : (g.collideSelfFrom i myLoop).dynamicMap = l := by
  fun_induction collideSelfFrom g i myLoop with
  | case1 g myLoop hnone => exact hl
  | case2 g myLoop cell hcell r ih => exact ih (collideSelfWith_dynamicMap g i cell _ _ hl)

theorem collideOtherWith_dynamicMap (g : Game ℝ) (i x : ℕ) (cell : CellPtr) (myLoop loop : ℕ)
    {l : List CellPtr} (hl : g.dynamicMap = l) :
    (g.collideOtherWith i x cell myLoop loop).1.dynamicMap = l := by
  fun_induction collideOtherWith g i x cell myLoop loop with
  | case1 g loop hnone => exact hl
  | case2 g loop o ho result g' hbig ih => exact ih hl
  | case3 g loop o ho result g' hbig hsmall => exact hl
  | case4 g loop o ho result g' hbig hsmall ih => exact ih hl

theorem collideOtherFrom_dynamicMap (g : Game ℝ) (i x myLoop : ℕ) {l : List CellPtr}
    (hl : g.dynamicMap = l) : (g.collideOtherFrom i x myLoop).dynamicMap = l := by
  fun_induction collideOtherFrom g i x myLoop with
  | case1 g myLoop hnone => exact hl
  | case2 g myLoop cell hcell hback ih => exact ih (collideOtherWith_dynamicMap g i x cell _ _ hl)
  | case3 g myLoop cell hcell hback ih => exact ih (collideOtherWith_dynamicMap g i x cell _ _ hl)

theorem collideBlocks_fewer (bs : List Vec2i) (g : Game ℝ) (cell : CellPtr) {c : CellPtr}
    (hc : c ∈ (bs.foldl (fun g b => g.collideBlock cell b 0) g).dynamicMap) : c ∈ g.dynamicMap :=
  foldl_fewer (fun g b => collideBlock_fewer g cell b 0) g bs hc

theorem collideStatic_fewer (g : Game ℝ) (i : ℕ) {c : CellPtr} :
    c ∈ (g.collideStatic i).dynamicMap → c ∈ g.dynamicMap := by
  unfold collideStatic
  induction g.cellsOf i generalizing g with
  | nil => exact fun hc => hc
  | cons cell cells ih =>
    intro hc
    rw [List.foldl_cons] at hc
    exact collideBlocks_fewer blockGrid g cell (ih _ hc)

theorem collideOwn_fewer (g : Game ℝ) (i : ℕ) {c : CellPtr}
    (hc : c ∈ (g.collideOwn i).dynamicMap) : c ∈ g.dynamicMap := by
  unfold collideOwn collideSelf collideDynamic at hc
  rw [collideSelfFrom_dynamicMap _ i 0 rfl] at hc
  exact collideStatic_fewer g i (collideDynamicFrom_fewer _ i 0 hc)

theorem collisionPhase_fewer (g : Game ℝ) {c : CellPtr} (hc : c ∈ g.collisionPhase.dynamicMap) :
    c ∈ g.dynamicMap := by
  have hother : ∀ (g : Game ℝ) i, c ∈ (g.collideOtherPlayer i (i + 1)).dynamicMap →
      c ∈ g.dynamicMap := by
    intro g i hc
    unfold collideOtherPlayer at hc
    refine foldl_fewer (fun g x hc => ?_) g _ hc
    rwa [collideOtherFrom_dynamicMap g i x 0 rfl] at hc
  unfold collisionPhase at hc
  exact foldl_fewer (fun g i => collideOwn_fewer g i) g _ (foldl_fewer hother _ _ hc)

theorem foldl_updateCell_heap (dt : ℝ) {l : List CellPtr} (hl : l.Nodup) (g : Game ℝ)
    {c : CellPtr} (hc : c ∈ l) : (l.foldl (updateCell dt) g).heap c = (g.heap c).update dt := by
  induction l generalizing g with
  | nil => cases hc
  | cons p l ih =>
    obtain ⟨hp, hl⟩ := List.nodup_cons.mp hl
    rw [List.foldl_cons]
    rcases List.mem_cons.mp hc with rfl | hc
    · have hm : Motion l (updateCell dt g c) (l.foldl (updateCell dt) (updateCell dt g c)) :=
        motion_foldl (fun g _ hq => updateCell_motion dt g hq) _
      rw [hm.others c hp]
      exact setCell_heap_self _ _ _
    · rw [ih hl _ hc]
      have hne : c ≠ p := fun h => hp (h ▸ hc)
      exact congrArg (Cell.update · dt) (setCell_heap_ne _ _ _ hne)

theorem updateDynamic_heap (hw : WellFormed g) (dt : ℝ) {c : CellPtr} (hc : c ∈ g.dynamicMap) :
    (g.updateDynamic dt).heap c = (g.heap c).update dt :=
  foldl_updateCell_heap dt hw.dynamic_nodup g hc

theorem driveCell_onMap (dt : ℝ) (g : Game ℝ) (p : CellPtr) :
    OnMap ((driveCell dt g p).heap p).position := by
  unfold driveCell
  dsimp only
  split_ifs <;> simp [pushMove, updateCell, setCell, noteUpdate, note, Cell.addForce,
    Cell.update_onMap]

theorem drive_onMap (g : Game ℝ) (dt : ℝ) {c : CellPtr} (hc : c ∈ g.players.flatMap Player.cells) :
    OnMap ((g.drive dt).heap c).position := by
  have hloop : ∀ (l : List CellPtr) (g : Game ℝ), c ∈ l →
      OnMap ((l.foldl (driveCell dt) g).heap c).position := by
    intro l
    induction l with
    | nil => exact fun g hc => by cases hc
    | cons p l ih =>
      intro g hc
      rcases List.mem_cons.mp hc with rfl | hc
      · have hm : Motion l (driveCell dt g c) (l.foldl (driveCell dt) (driveCell dt g c)) :=
          motion_foldl (fun g _ hq => driveCell_motion dt g hq) _
        exact hm.onMap c (driveCell_onMap dt g c)
      · exact ih _ hc
  have hpush : ∀ (l : List CellPtr) (g : Game ℝ), (l.foldl pushMove g).heap = g.heap := by
    intro l
    induction l with
    | nil => exact fun g => rfl
    | cons p l ih => exact fun g => ih _
  unfold drive
  dsimp only
  rw [hpush]
  exact hloop _ _ hc

end Game

/-- What a player has been told about and what it looks at. -/
structure Sight where
  wsi : Wsi
  history : List CellPtr
  topLeft : Vec2i
  bottomRight : Vec2i
  blocks : List Vec2i

def Player.sight {K : Type} (p : Player K) : Sight where
  wsi := p.wsi
  history := p.cellHistory
  topLeft := p.topLeft
  bottomRight := p.bottomRight
  blocks := p.blocks

def Sys.sights {K : Type} (s : Sys K) : List Sight := s.game.players.map Player.sight

theorem Sys.sights_getElem? {s : Sys ℝ} {i : ℕ} {p : Player ℝ} (h : s.game.players[i]? = some p) :
    s.sights[i]? = some p.sight := by
  rw [sights, List.getElem?_map, h]
  rfl

theorem Player.sight_received (w : Wsi) (packet : List Byte) (p : Player ℝ) :
    (p.received w packet).sight = p.sight := by
  unfold Player.received
  split_ifs <;> rfl

theorem sight_carried : Carried Player.moves (α := Player ℝ) Player.sight :=
  carried_of_flags _ fun _ _ _ => rfl

/-- The view after an update. -/
def UpdateRecord.view {K : Type} [Field K] [LinearOrder K] [FloorRing K] [Arith K]
    (u : UpdateRecord K) : Player K := u.start.player.updateView u.commanded

theorem Outgoing.finish_said (g : Game ℝ) (o : Outgoing ℝ) (history : List CellPtr)
    (ms : List (Msg ℝ)) : (((o.setHistory history).sayAll ms).finish g).said =
      o.said ++ ms ++ blockSaid g o.player (o.player.updateView g) ++
        [.position (o.player.updateView g).camera.x (o.player.updateView g).camera.y] := by
  rw [finish_eq]
  show (o.said ++ ms) ++ (blockSaid g o.player (o.player.updateView g) ++ [_]) = _
  rw [List.append_assoc (o.said ++ ms)]
  rfl

/-- An update in closed form; `ds` are the dead cells it takes out of the history. -/
structure Digested (u : UpdateRecord ℝ) (ds : List CellPtr) : Prop where
  deleted : Outgoing.Deleted u.commanded (u.player.informed u.commanded)
    u.commanded.cellEvents.removeDynamic ds
  history : u.parsed.player.cellHistory = (u.player.known u.commanded).filter (· ∉ ds)
  said : u.parsed.said = Outgoing.parseSaid u.commanded u.player ds
  finished : u.finished.said = u.parsed.said ++ Outgoing.blockSaid u.commanded u.player u.view ++
    [.position u.view.camera.x u.view.camera.y]
  sight : u.finished.player.sight = { u.player.sight with
    history := u.parsed.player.cellHistory, topLeft := u.view.topLeft,
    bottomRight := u.view.bottomRight, blocks := u.view.blocks }

theorem Outgoing.finish_sight (g : Game ℝ) (o : Outgoing ℝ) (history : List CellPtr)
    (ms : List (Msg ℝ)) : (((o.setHistory history).sayAll ms).finish g).player.sight =
      { wsi := o.player.wsi, history := history, topLeft := (o.player.updateView g).topLeft,
        bottomRight := (o.player.updateView g).bottomRight,
        blocks := (o.player.updateView g).blocks } := by
  rw [finish_eq]
  rfl

theorem Game.digested {a : Stage} {s : Sys ℝ} {n : ℕ} (hi : Invariant a s) (ha : a = .updating n)
    {i : ℕ} {p : Player ℝ} (hp : s.game.players[i]? = some p) (hhistory : p.cellHistory.Nodup) :
    ∃ ds, Digested (s.game.updatePlayer i p) ds := by
  obtain ⟨-, hd, -⟩ := Game.commands_spec hi.wellFormed hp
  obtain ⟨-, hstart⟩ := Game.start_spec hi.wellFormed hp
  have htidy : Tidy (.updating n) s.game := ha ▸ hi.tidy
  have hmove : (s.game.commands i p).cellEvents.move.Nodup := by
    rw [hd.move]
    exact htidy.1
  have hadd : (s.game.commands i p).cellEvents.addStatic = [] := by
    rw [hd.addStatic]
    exact hi.additions.1
  have hnodup : (s.game.updatePlayer i p).start.player.cellHistory.Nodup := by
    rw [hstart]
    exact hhistory
  obtain ⟨ds, hds, hparsed⟩ := Outgoing.parsed_eq hnodup hmove hadd
  have hparsed' : (s.game.updatePlayer i p).parsed = _ := hparsed
  have hfinished := Outgoing.finish_said (s.game.commands i p) (s.game.updatePlayer i p).start
    (((s.game.updatePlayer i p).start.player.known (s.game.commands i p)).filter (· ∉ ds))
    (Outgoing.parseSaid (s.game.commands i p) (s.game.updatePlayer i p).start.player ds)
  have hold : Outgoing.blockSaid (s.game.commands i p) (s.game.updatePlayer i p).start.player
      (s.game.updatePlayer i p).view =
      Outgoing.blockSaid (s.game.commands i p) p (s.game.updatePlayer i p).view := by
    rw [hstart]
    rfl
  refine ⟨ds, ⟨hds.nodup, fun c => ?_⟩, ?_, ?_, ?_, ?_⟩
  · rw [hds.mem c, hstart]
    rfl
  · rw [hparsed', hstart]
    rfl
  · rw [hparsed', hstart]
    rfl
  · show ((s.game.updatePlayer i p).parsed.finish (s.game.commands i p)).said =
      (s.game.updatePlayer i p).parsed.said ++ Outgoing.blockSaid (s.game.commands i p) p _ ++ _
    rw [← hold, hparsed']
    exact hfinished
  · have hwsi : (s.game.updatePlayer i p).start.player.wsi = p.wsi := by rw [hstart]
    have hsight := Outgoing.finish_sight (s.game.commands i p) (s.game.updatePlayer i p).start
      (((s.game.updatePlayer i p).start.player.known (s.game.commands i p)).filter (· ∉ ds))
      (Outgoing.parseSaid (s.game.commands i p) (s.game.updatePlayer i p).start.player ds)
    rw [hwsi] at hsight
    show ((s.game.updatePlayer i p).parsed.finish (s.game.commands i p)).player.sight = _
    rw [hparsed']
    exact hsight

/-- What packets, sends and the coming and going of players leave alone. -/
structure Game.Still (g g' : Game ℝ) : Prop where
  allocated : g.allocated ≤ g'.allocated
  position : ∀ c < g.allocated, (g'.heap c).position = (g.heap c).position
  others : ∀ c < g.allocated, (g.heap c).flag ≠ playerFlag → g'.heap c = g.heap c
  static : g'.staticMap = g.staticMap
  dynamic : g'.dynamicMap = g.dynamicMap
  events : g'.cellEvents = g.cellEvents

namespace Game

theorem Still.of_heap {g g' : Game ℝ} (hallocated : g'.allocated = g.allocated)
    (hheap : g'.heap = g.heap) (hstatic : g'.staticMap = g.staticMap)
    (hdynamic : g'.dynamicMap = g.dynamicMap) (hevents : g'.cellEvents = g.cellEvents) :
    Still g g' :=
  ⟨hallocated.ge, fun c _ => by rw [hheap], fun c _ _ => by rw [hheap], hstatic, hdynamic, hevents⟩

theorem Still.trans {g g' g'' : Game ℝ} (h : Still g g') (h' : Still g' g'') : Still g g'' where
  allocated := h.allocated.trans h'.allocated
  position := fun c hc =>
    (h'.position c (hc.trans_le h.allocated)).trans (h.position c hc)
  others := fun c hc hf => by
    have heq := h.others c hc hf
    rw [h'.others c (hc.trans_le h.allocated) (by rw [heq]; exact hf), heq]
  static := h'.static.trans h.static
  dynamic := h'.dynamic.trans h.dynamic
  events := h'.events.trans h.events

theorem mouse_still {g : Game ℝ} {cells : List CellPtr} (m : Vec2 ℝ)
    (howned : ∀ c ∈ cells, (g.heap c).flag = playerFlag) : Still g (g.mouse cells m) := by
  have hmotion := mouse_motion g cells m
  have hposition : ∀ (l : List CellPtr) (g : Game ℝ) c,
      ((g.mouse l m).heap c).position = (g.heap c).position := by
    intro l
    induction l with
    | nil => exact fun g c => rfl
    | cons q l ih =>
      intro g c
      refine (ih _ c).trans ?_
      rw [setCell_heap]
      split_ifs with h
      · rw [h]
      · rfl
  exact ⟨hmotion.allocated.ge, fun c _ => hposition cells g c,
    fun c _ hf => hmotion.others c fun hc => hf (howned c hc), hmotion.static, hmotion.dynamic,
    mouse_events g cells m⟩

theorem receiveAt_still {g : Game ℝ} (hw : WellFormed g) (w : Wsi) (packet : List Byte)
    (beyond : ℕ → Byte) (i : ℕ) : Still g (receiveAt w packet beyond g i) := by
  have hmodify : ∀ (g : Game ℝ) f, Still g (g.modifyPlayer i f) := fun g f =>
    Still.of_heap rfl rfl rfl rfl rfl
  unfold receiveAt
  rcases g.players[i]? with - | p
  · exact Still.of_heap rfl rfl rfl rfl rfl
  · dsimp only
    split_ifs
    · unfold receivePlayer
      dsimp only
      split_ifs
      · have hcells := cellsOf_modifyPlayer g i
          (fun p => { p with wsMessage := p.wsMessage.acknowledge }) (fun _ => rfl) i
        exact (hmodify g _).trans (mouse_still _ fun c hc => (hw.owned i c (hcells ▸ hc)).2)
      · exact (hmodify g _).trans (hmodify _ _)
      · exact (hmodify g _).trans (hmodify _ _)
      · exact hmodify g _
    · exact Still.of_heap rfl rfl rfl rfl rfl

theorem receiveAll_still {g : Game ℝ} (hw : WellFormed g) (w : Wsi) {packet : List Byte}
    (hpacket : packet ≠ []) (beyond : ℕ → Byte) : Still g (g.receiveAll w packet beyond) := by
  have hloop : ∀ (is : List ℕ) (g : Game ℝ), WellFormed g →
      Still g (is.foldl (receiveAt w packet beyond) g) := by
    intro is
    induction is with
    | nil => exact fun g _ => Still.of_heap rfl rfl rfl rfl rfl
    | cons i is ih =>
      exact fun g hw => (receiveAt_still hw w packet beyond i).trans
        (ih _ (receiveAt_spec w beyond hw hpacket i).1)
  exact hloop _ g hw

end Game

theorem Move.still {a : Stage} {s s' : Sys ℝ} (h : Move (a, s) (a, s')) (hi : Invariant a s) :
    Game.Still s.game s'.game := by
  cases h with
  | kick _ x hx => exact .of_heap rfl rfl rfl rfl rfl
  | send _ clock accepts i =>
    rcases Sys.sendAt_cases s clock accepts i with h | ⟨p, -, -, -, h⟩
    · rw [h]
      exact .of_heap rfl rfl rfl rfl rfl
    · rw [h]
      exact .of_heap rfl rfl rfl rfl rfl
  | join _ w grown hw =>
    obtain ⟨-, hheap, -⟩ := Game.newPlayer_spec s.game w
    have hsame : ∀ c < s.game.allocated, (s.join w grown).game.heap c = s.game.heap c :=
      fun c hc => hheap c hc.ne
    exact ⟨Nat.le_succ _, fun c hc => by rw [hsame c hc], fun c hc _ => hsame c hc, rfl, rfl, rfl⟩
  | receive _ w packet beyond =>
    unfold Sys.receive
    dsimp only
    split_ifs with hlen
    · exact .of_heap rfl rfl rfl rfl rfl
    · exact Game.receiveAll_still hi.wellFormed w (fun h => hlen (by rw [h]; decide)) beyond
  | close _ x hx => exact .of_heap rfl rfl rfl rfl rfl

theorem Sys.erasePlayer_sights (s : Sys ℝ) (x : ℕ) :
    (s.erasePlayer x).sights = s.sights.eraseIdx x := eraseAt_carried sight_carried _ _

theorem Sys.sendAt_sights (s : Sys ℝ) (clock : ℝ) (accepts : ℕ → Bool) (i : ℕ) :
    (s.sendAt clock accepts i).sights = s.sights := by
  rcases sendAt_cases s clock accepts i with h | ⟨p, hp, -, -, h⟩
  · rw [h]
  · rw [h]
    show (s.game.players.set i { p with
      wsMessage := { p.wsMessage with ack := false }.clear, sendTime := clock }).map _ = _
    rw [List.map_set]
    exact map_set_same hp rfl

theorem Sys.receive_sights {s : Sys ℝ} (hw : s.game.WellFormed) (w : Wsi) (packet : List Byte)
    (beyond : ℕ → Byte) : (s.receive w packet beyond).sights = s.sights := by
  unfold receive
  dsimp only
  split_ifs with hlen
  · rfl
  · have hplayers : (s.game.receiveAll w packet beyond).players =
        s.game.players.map (Player.received w packet) :=
      (Game.receiveAll_spec hw fun h => hlen (by rw [h]; decide)).2
    show (s.game.receiveAll w packet beyond).players.map _ = _
    rw [hplayers, List.map_map]
    exact List.map_congr_left fun p _ => p.sight_received w packet

theorem Sys.join_sights (s : Sys ℝ) (w : Wsi) (grown : ℕ) :
    (s.join w grown).sights = s.sights ++ [(s.game.newPlayer w).1.sight] :=
  emplaceBack_carried sight_carried _ _ _

theorem Move.sights_still {a : Stage} {s s' : Sys ℝ} (h : Move (a, s) (a, s'))
    (hi : Invariant a s) : ∀ v ∈ s'.sights, v ∈ s.sights ∨ v.history = [] := by
  intro v hv
  cases h with
  | kick _ x hx =>
    rw [Sys.erasePlayer_sights] at hv
    exact Or.inl ((List.eraseIdx_sublist _ _).subset hv)
  | send _ clock accepts i => exact Or.inl (Sys.sendAt_sights s clock accepts i ▸ hv)
  | join _ w grown hw =>
    rw [Sys.join_sights] at hv
    refine (List.mem_append.mp hv).imp_right fun hv => ?_
    rw [List.mem_singleton.mp hv]
    rfl
  | receive _ w packet beyond =>
    exact Or.inl (Sys.receive_sights hi.wellFormed w packet beyond ▸ hv)
  | close _ x hx =>
    rw [Sys.erasePlayer_sights] at hv
    exact Or.inl ((List.eraseIdx_sublist _ _).subset hv)

/-- The history lists cells that exist and lie on the map, each once. -/
structure Sight.Sound (g : Game ℝ) (v : Sight) : Prop where
  nodup : v.history.Nodup
  cell : ∀ c ∈ v.history, maxFood ≤ c ∧ c < g.allocated ∧ OnMap (g.heap c).position

/-- The cells to be reported as moved are on the map. -/
def Settled : Stage → Game ℝ → Prop
  | .idle, _ => True
  | .started, g => ∀ c ∈ g.dynamicMap, OnMap (g.heap c).position
  | .collided, g => ∀ c ∈ g.dynamicMap, OnMap (g.heap c).position
  | .updating _, g => ∀ c ∈ g.cellEvents.move,
      maxFood ≤ c ∧ c < g.allocated ∧ OnMap (g.heap c).position

/-- While the players are updated, the cells of a history that are in `DynamicMap` are among those
reported as moved. -/
def Reported : Stage → Sys ℝ → Prop
  | .updating _, s => ∀ v ∈ s.sights, ∀ c ∈ v.history,
      c ∈ s.game.dynamicMap → c ∈ s.game.cellEvents.move
  | _, _ => True

structure Watch (a : Stage) (s : Sys ℝ) : Prop where
  sound : ∀ v ∈ s.sights, v.Sound s.game
  settled : Settled a s.game
  reported : Reported a s

theorem Sight.Sound.mono {g g' : Game ℝ} {v : Sight} (h : v.Sound g)
    (hallocated : g.allocated ≤ g'.allocated) (hmap : ∀ c < g.allocated,
      OnMap (g.heap c).position → OnMap (g'.heap c).position) : v.Sound g' :=
  ⟨h.nodup, fun c hc => by
    obtain ⟨h1, h2, h3⟩ := h.cell c hc
    exact ⟨h1, h2.trans_le hallocated, hmap c h2 h3⟩⟩

theorem Watch.still {a : Stage} {s s' : Sys ℝ} (hwatch : Watch a s) (h : Move (a, s) (a, s'))
    (hi : Invariant a s) : Watch a s' := by
  have hstill := h.still hi
  have hmap : ∀ c < s.game.allocated, OnMap (s.game.heap c).position →
      OnMap (s'.game.heap c).position := fun c hc ho => by rwa [hstill.position c hc]
  have hdynamic : ∀ c ∈ s.game.dynamicMap, c < s.game.allocated := fun c hc =>
    (hi.wellFormed.dynamic c hc).2.1
  refine ⟨fun v hv => ?_, ?_, ?_⟩
  · rcases h.sights_still hi v hv with hv | hv
    · exact (hwatch.sound v hv).mono hstill.allocated hmap
    · exact ⟨by rw [hv]; exact List.nodup_nil, fun c hc => by rw [hv] at hc; cases hc⟩
  · have hsettled := hwatch.settled
    cases a with
    | idle => trivial
    | started =>
      intro c hc
      rw [hstill.dynamic] at hc
      exact hmap c (hdynamic c hc) (hsettled c hc)
    | collided =>
      intro c hc
      rw [hstill.dynamic] at hc
      exact hmap c (hdynamic c hc) (hsettled c hc)
    | updating n =>
      intro c hc
      rw [hstill.events] at hc
      obtain ⟨h1, h2, h3⟩ := hsettled c hc
      exact ⟨h1, h2.trans_le hstill.allocated, hmap c h2 h3⟩
  · cases a with
    | updating n =>
      intro v hv c hc hd
      rw [hstill.dynamic] at hd
      rw [hstill.events]
      rcases h.sights_still hi v hv with hv | hv
      · exact hwatch.reported v hv c hc hd
      · rw [hv] at hc
        cases hc
    | _ => trivial

theorem Watch.update {s : Sys ℝ} {n : ℕ} (hwatch : Watch (.updating n) s)
    (hi : Invariant (.updating n) s) {p : Player ℝ} (hp : s.game.players[n]? = some p) :
    Watch (.updating (n + 1)) (s.updateAt n) := by
  have hmem : p.sight ∈ s.sights := List.mem_of_getElem? (Sys.sights_getElem? hp)
  obtain ⟨ds, hdigested⟩ := Game.digested hi rfl hp (hwatch.sound _ hmem).nodup
  obtain ⟨-, hd, -⟩ := Game.commands_spec hi.wellFormed hp
  have hupdate : s.updateAt n = { game := (s.game.updatePlayer n p).after, trace := s.trace ++
      [.updated (s.game.updatePlayer n p), .requested p.wsi] } := by
    unfold Sys.updateAt
    rw [hp]
  have hgame : (s.updateAt n).game.allocated = (s.game.commands n p).allocated ∧
      (s.updateAt n).game.heap = (s.game.commands n p).heap ∧
      (s.updateAt n).game.dynamicMap = (s.game.commands n p).dynamicMap ∧
      (s.updateAt n).game.cellEvents = (s.game.commands n p).cellEvents := by
    rw [hupdate]
    exact ⟨rfl, rfl, rfl, rfl⟩
  have hsights : (s.updateAt n).sights =
      s.sights.set n (s.game.updatePlayer n p).finished.player.sight := by
    rw [hupdate]
    exact map_of_core_set (f := Player.sight) (fun _ => rfl) (Game.after_players hi.wellFormed hp)
  obtain ⟨hallocated, hheap, hdynamic, hevents⟩ := hgame
  have hmap : ∀ c < s.game.allocated, OnMap (s.game.heap c).position →
      OnMap ((s.updateAt n).game.heap c).position := fun c hc ho => by
    rw [hheap]
    exact hd.onMap c hc ho
  -- the cells of the new history were in the old one or have been reported as moved
  have hhistory : ∀ c ∈ (s.game.updatePlayer n p).finished.player.sight.history,
      c ∈ p.sight.history ∨ c ∈ s.game.cellEvents.move := by
    intro c hc
    rw [hdigested.sight] at hc
    have hc' : c ∈ (s.game.updatePlayer n p).parsed.player.cellHistory := hc
    rw [hdigested.history] at hc'
    refine (Player.mem_known.mp (List.mem_of_mem_filter hc')).imp (fun h => h.1) fun h => ?_
    rw [← hd.move]
    exact h.1
  have hle : s.game.allocated ≤ (s.updateAt n).game.allocated := by
    rw [hallocated]
    exact hd.allocated
  refine ⟨fun v hv => ?_, fun c hc => ?_, fun v hv c hc hin => ?_⟩
  · rw [hsights] at hv
    rcases List.mem_or_eq_of_mem_set hv with hv | rfl
    · exact (hwatch.sound v hv).mono hle hmap
    · refine ⟨?_, fun c hc => ?_⟩
      · rw [hdigested.sight]
        show (s.game.updatePlayer n p).parsed.player.cellHistory.Nodup
        rw [hdigested.history]
        refine (Player.known_nodup (hwatch.sound _ hmem).nodup ?_).filter _
        show (s.game.commands n p).cellEvents.move.Nodup
        rw [hd.move]
        exact hi.tidy.1
      · have hcell : maxFood ≤ c ∧ c < s.game.allocated ∧ OnMap (s.game.heap c).position :=
          (hhistory c hc).elim (fun h => (hwatch.sound _ hmem).cell c h)
            fun h => hwatch.settled c h
        exact ⟨hcell.1, hcell.2.1.trans_le hle, hmap c hcell.2.1 hcell.2.2⟩
  · rw [hevents, hd.move] at hc
    obtain ⟨h1, h2, h3⟩ := hwatch.settled c hc
    exact ⟨h1, h2.trans_le hle, hmap c h2 h3⟩
  · rw [hdynamic] at hin
    rw [hevents, hd.move]
    have hold : ∀ w ∈ s.sights, c ∈ w.history → c ∈ s.game.cellEvents.move := fun w hw hcw =>
      hwatch.reported w hw c hcw (hd.dynamic c ((hwatch.sound w hw).cell c hcw).2.1 hin)
    rw [hsights] at hv
    rcases List.mem_or_eq_of_mem_set hv with hv | rfl
    · exact hold v hv hc
    · exact (hhistory c hc).elim (hold _ hmem) id

theorem Move.watch {a b : Stage} {s s' : Sys ℝ} (h : Move (a, s) (b, s')) (hi : Invariant a s)
    (hwatch : Watch a s) : Watch b s' := by
  have hw := hi.wellFormed
  cases h with
  | begin _ clock =>
    have hm := Game.updateDynamic_motion (s.game.beginTick clock) (clock - s.game.currentTime)
    refine ⟨fun v hv => ?_, fun c hc => ?_, trivial⟩
    · have hv' : v ∈ s.sights := by
        have hplayers := hm.players
        have hv' : v ∈ ((s.game.beginTick clock).updateDynamic
          (clock - s.game.currentTime)).players.map Player.sight := hv
        rw [hplayers] at hv'
        exact hv'
      exact (hwatch.sound v hv').mono hm.allocated.ge fun c _ ho => hm.onMap c ho
    · have hbegin : Game.WellFormed (s.game.beginTick clock) :=
        hw.of_cellsOf rfl rfl (List.Subset.refl _) rfl rfl fun _ => rfl
      have hc' : c ∈ ((s.game.beginTick clock).updateDynamic
        (clock - s.game.currentTime)).dynamicMap := hc
      rw [hm.dynamic] at hc'
      show OnMap (((s.game.beginTick clock).updateDynamic _).heap c).position
      rw [Game.updateDynamic_heap hbegin _ hc']
      exact Cell.update_onMap _ _
  | kick _ x hx => exact hwatch.still (.kick s x hx) hi
  | collide _ =>
    have hf := (Game.collisionPhase_leads s.game).frame hw
    refine ⟨fun v hv => ?_, fun c hc => ?_, trivial⟩
    · have hv' : v ∈ s.sights := by
        have hsights : s.collide.sights = s.sights := map_of_core (fun _ => rfl) hf.core
        rwa [hsights] at hv
      exact (hwatch.sound v hv').mono hf.allocated fun c hc ho => hf.onMap c hc ho
    · have hold := Game.collisionPhase_fewer s.game hc
      exact hf.onMap c (hw.dynamic c hold).2.1 (hwatch.settled c hold)
  | drive _ dt =>
    have hm := Game.drive_motion s.game dt
    have hmove : s.game.cellEvents.move = [] := hi.tidy
    have hdriven := Game.drive_move s.game dt
    rw [hmove, List.nil_append] at hdriven
    refine ⟨fun v hv => ?_, fun c hc => ?_, fun v hv c hc hin => ?_⟩
    · have hv' : v ∈ s.sights := by
        have hsights : ({ s with game := s.game.drive dt } : Sys ℝ).sights = s.sights :=
          congrArg (List.map Player.sight) hm.players
        rwa [hsights] at hv
      exact (hwatch.sound v hv').mono hm.allocated.ge fun c _ ho => hm.onMap c ho
    · have hc' : c ∈ (s.game.drive dt).cellEvents.move := hc
      rw [hdriven] at hc'
      show maxFood ≤ c ∧ c < (s.game.drive dt).allocated ∧ _
      rw [hm.allocated]
      rcases List.mem_append.mp hc' with hc' | hc'
      · obtain ⟨i, ho⟩ := Game.mem_playerCells.mp hc'
        have hown := hw.owned i c ho
        exact ⟨hw.owned_food c hown, hown.1, Game.drive_onMap s.game dt hc'⟩
      · obtain ⟨h1, h2, -⟩ := hw.dynamic c hc'
        exact ⟨h1, h2, hm.onMap c (hwatch.settled c hc')⟩
    · have hin' : c ∈ (s.game.drive dt).dynamicMap := hin
      rw [hm.dynamic] at hin'
      show c ∈ (s.game.drive dt).cellEvents.move
      rw [hdriven]
      exact List.mem_append_right _ hin'
  | update _ n p hp => exact hwatch.update hi hp
  | replay _ n hn =>
    have hrest := (Game.parseEvents_prunes hi.additions).rest
    have hplayers : s.game.parseEvents.players = s.game.players := by rw [hrest]
    have hheap : s.game.parseEvents.heap = s.game.heap := by rw [hrest]
    have hallocated : s.game.parseEvents.allocated = s.game.allocated := by rw [hrest]
    refine ⟨fun v hv => ?_, trivial, trivial⟩
    have hv' : v ∈ s.game.parseEvents.players.map Player.sight := hv
    rw [hplayers] at hv'
    exact (hwatch.sound v hv').mono hallocated.ge fun c _ ho => by
      show OnMap (s.game.parseEvents.heap c).position
      rwa [hheap]
  | send _ clock accepts i => exact hwatch.still (.send s clock accepts i) hi
  | join _ w grown hw' => exact hwatch.still (.join s w grown hw') hi
  | receive _ w packet beyond => exact hwatch.still (.receive s w packet beyond) hi
  | close _ x hx => exact hwatch.still (.close s x hx) hi

theorem init_sights (rand : ℕ → Fin (randMax + 1)) (stale : CellPtr → ℝ) :
    (Sys.init rand stale).sights = [] := by
  have hnone : (Sys.init rand stale).game.players = [] := (Game.mapInit_started rand stale).players
  rw [Sys.sights, hnone]
  rfl

theorem init_watch (rand : ℕ → Fin (randMax + 1)) (stale : CellPtr → ℝ) :
    Watch .idle (Sys.init rand stale) := by
  refine ⟨fun v hv => ?_, trivial, trivial⟩
  rw [init_sights] at hv
  cases hv

end Agar
