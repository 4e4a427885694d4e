import Agar.CollisionEffects

/-! What `Player::Update` does: the commands are effects, the rest appends messages to the
buffer of the player and changes its history and its view. -/

namespace Agar

namespace Outgoing
variable {K : Type} [Field K] [LinearOrder K] [FloorRing K]

/-- Messages have been appended and the history has changed, nothing else. -/
structure Extends (o o' : Outgoing K) (ms : List (Msg K)) : Prop where
  player : o'.player = { o.player with
    cellHistory := o'.player.cellHistory, wsMessage := o.player.wsMessage.appendAll ms }
  said : o'.said = o.said ++ ms

theorem Extends.refl (o : Outgoing K) : Extends o o [] := ⟨rfl, (List.append_nil _).symm⟩

theorem Extends.trans {o o' o'' : Outgoing K} {ms ms' : List (Msg K)} (h : Extends o o' ms)
    (h' : Extends o' o'' ms') : Extends o o'' (ms ++ ms') where
  player := by
    have hp := h'.player
    rw [h.player] at hp
    rw [hp, Message.appendAll_append]
  said := by rw [h'.said, h.said, List.append_assoc]

theorem extends_say (o : Outgoing K) (m : Msg K) : Extends o (o.say m) [m] := ⟨rfl, rfl⟩

theorem extends_setHistory (o : Outgoing K) (history : List CellPtr) :
    Extends o (o.setHistory history) [] := ⟨rfl, (List.append_nil _).symm⟩

theorem extends_foldl {α : Type} (f : Outgoing K → α → Outgoing K)
    (h : ∀ o a, ∃ ms, Extends o (f o a) ms) (o : Outgoing K) (l : List α) :
    ∃ ms, Extends o (l.foldl f o) ms := by
  induction l generalizing o with
  | nil => exact ⟨[], Extends.refl o⟩
  | cons a l ih =>
    obtain ⟨ms, hms⟩ := h o a
    obtain ⟨ms', hms'⟩ := ih (f o a)
    exact ⟨ms ++ ms', hms.trans hms'⟩

theorem extends_filterHistoryFrom (g : Game K) (o : Outgoing K) (kept rest : List CellPtr) :
    ∃ ms, Extends o (filterHistoryFrom g o kept rest) ms := by
  induction rest generalizing o kept with
  | nil => exact ⟨[], extends_setHistory o kept⟩
  | cons c rest ih =>
    rw [filterHistoryFrom]
    split_ifs
    · obtain ⟨ms, hms⟩ := ih (o.say (.removeCell (g.heap c).id)) kept
      exact ⟨_, (extends_say o _).trans hms⟩
    · exact ih o (kept ++ [c])

theorem extends_parseMove (g : Game K) (o : Outgoing K) (c : CellPtr) :
    ∃ ms, Extends o (parseMove g o c) ms := by
  unfold parseMove
  split_ifs
  · exact ⟨_, extends_say o _⟩
  · exact ⟨[], Extends.refl o⟩
  · exact ⟨_, (extends_setHistory o _).trans (extends_say _ _)⟩
  · exact ⟨[], Extends.refl o⟩

theorem extends_parseAddStatic (g : Game K) (o : Outgoing K) (c : CellPtr) :
    ∃ ms, Extends o (parseAddStatic g o c) ms := by
  unfold parseAddStatic
  split_ifs
  · exact ⟨_, extends_say o _⟩
  · exact ⟨[], Extends.refl o⟩

theorem extends_parseRemoveStatic (g : Game K) (o : Outgoing K) (c : CellPtr) :
    ∃ ms, Extends o (parseRemoveStatic g o c) ms := by
  unfold parseRemoveStatic
  split_ifs
  · exact ⟨_, extends_say o _⟩
  · exact ⟨[], Extends.refl o⟩

theorem extends_parseRemoveDynamic (g : Game K) (o : Outgoing K) (c : CellPtr) :
    ∃ ms, Extends o (parseRemoveDynamic g o c) ms := by
  unfold parseRemoveDynamic deleteDynamic
  split_ifs
  · exact ⟨_, (extends_setHistory o _).trans (extends_say _ _)⟩
  · exact ⟨[], Extends.refl o⟩
  · exact ⟨[], Extends.refl o⟩

theorem extends_parseEvents (g : Game K) (o : Outgoing K) :
    ∃ ms, Extends o (o.parseEvents g) ms := by
  obtain ⟨ms1, h1⟩ := extends_foldl _ (extends_parseMove g) o g.cellEvents.move
  obtain ⟨ms2, h2⟩ := extends_foldl _ (extends_parseAddStatic g) (g.cellEvents.move.foldl _ o)
    g.cellEvents.addStatic
  obtain ⟨ms3, h3⟩ := extends_foldl _ (extends_parseRemoveStatic g)
    (g.cellEvents.addStatic.foldl _ _) g.cellEvents.removeStatic
  obtain ⟨ms4, h4⟩ := extends_foldl _ (extends_parseRemoveDynamic g)
    (g.cellEvents.removeStatic.foldl _ _) g.cellEvents.removeDynamic
  exact ⟨_, ((h1.trans h2).trans h3).trans h4⟩

theorem extends_parsed (g : Game K) (o : Outgoing K) :
    ∃ ms, Extends o ((o.filterHistory g).parseEvents g) ms := by
  obtain ⟨ms, h⟩ := extends_filterHistoryFrom g o [] o.player.cellHistory
  obtain ⟨ms', h'⟩ := extends_parseEvents g (o.filterHistory g)
  exact ⟨ms ++ ms', h.trans h'⟩

/-- Calls of the appenders, one after the other. -/
def sayAll (o : Outgoing K) (ms : List (Msg K)) : Outgoing K where
  player := { o.player with wsMessage := o.player.wsMessage.appendAll ms }
  said := o.said ++ ms

@[simp] theorem sayAll_nil (o : Outgoing K) : o.sayAll [] = o := by
  simp [sayAll, Message.appendAll]

theorem sayAll_append (o : Outgoing K) (ms ms' : List (Msg K)) :
    o.sayAll (ms ++ ms') = (o.sayAll ms).sayAll ms' := by
  simp [sayAll, Message.appendAll_append]

theorem say_eq (o : Outgoing K) (m : Msg K) : o.say m = o.sayAll [m] := rfl

theorem foldl_sayAll {α : Type} (f : Outgoing K → α → Outgoing K) (said : α → List (Msg K))
    (h : ∀ o a, f o a = o.sayAll (said a)) (o : Outgoing K) (l : List α) :
    l.foldl f o = o.sayAll (l.flatMap said) := by
  induction l generalizing o with
  | nil => simp
  | cons a l ih => rw [List.foldl_cons, ih, h, List.flatMap_cons, sayAll_append]

def removeSaid (g : Game K) (b : Vec2i) : List (Msg K) :=
  (g.staticMap b).map fun c => .removeCell (g.heap c).id

def addSaid (g : Game K) (b : Vec2i) : List (Msg K) :=
  (g.staticMap b).map fun c => (g.heap c).addMsg

theorem removeBlock_eq (g : Game K) (o : Outgoing K) (b : Vec2i) :
    removeBlock g o b = o.sayAll (removeSaid g b) := by
  rw [removeSaid, List.map_eq_flatMap, removeBlock]
  exact foldl_sayAll _ _ (fun o c => say_eq o (.removeCell (g.heap c).id)) o _

theorem addBlock_eq (g : Game K) (o : Outgoing K) (b : Vec2i) :
    addBlock g o b = o.sayAll (addSaid g b) := by
  rw [addSaid, List.map_eq_flatMap, addBlock]
  exact foldl_sayAll _ _ (fun o c => say_eq o (g.heap c).addMsg) o _

/-- The messages of `UpdateBlocks`. -/
def blockSaid (g : Game K) (old new : Player K) : List (Msg K) :=
  if old.topLeft ≠ new.topLeft ∨ old.bottomRight ≠ new.bottomRight then
    (SortedDifference.setDifference blockAddress old.blocks new.blocks).flatMap (removeSaid g) ++
      (SortedDifference.setDifference blockAddress new.blocks old.blocks).flatMap (addSaid g)
  else []

theorem updateBlocks_eq (g : Game K) (o : Outgoing K) :
    o.updateBlocks g = Outgoing.sayAll { o with player := o.player.updateView g }
      (blockSaid g o.player (o.player.updateView g)) := by
  unfold updateBlocks blockSaid
  dsimp only
  split_ifs
  · rw [foldl_sayAll (addBlock g) _ (addBlock_eq g), foldl_sayAll (removeBlock g) _
      (removeBlock_eq g), sayAll_append]
  · rw [sayAll_nil]

/-- The messages after `ParseEvents`. -/
def finishSaid (g : Game K) (old : Player K) : List (Msg K) :=
  blockSaid g old (old.updateView g) ++
    [.position (old.updateView g).camera.x (old.updateView g).camera.y]

theorem finish_eq (g : Game K) (o : Outgoing K) :
    o.finish g = Outgoing.sayAll { o with player := o.player.updateView g }
      (finishSaid g o.player) := by
  rw [finish, finishSaid, sayAll_append, updateBlocks_eq]
  rfl

end Outgoing

namespace Game
variable {g g' : Game ℝ}

def lowerSplit (p : Player ℝ) : Player ℝ := { p with doSplit := false }

def lowerFeed (p : Player ℝ) : Player ℝ := { p with doFeed := false }

/-- A player after its commands. -/
def obeyed (p : Player ℝ) : Player ℝ := lowerFeed (lowerSplit p)

theorem cellsOf_modifyPlayer (g : Game ℝ) (i : ℕ) (f : Player ℝ → Player ℝ)
    (hf : ∀ p, (f p).cells = p.cells) (j : ℕ) : (g.modifyPlayer i f).cellsOf j = g.cellsOf j := by
  simp only [cellsOf, modifyPlayer, List.getElem?_modify]
  by_cases h : i = j
  · rcases g.players[j]? with - | p
    · simp
    · simp [h, hf]
  · rcases g.players[j]? with - | p <;> simp [h]

theorem WellFormed.of_cellsOf (hw : WellFormed g) (hallocated : g'.allocated = g.allocated)
    (hheap : g'.heap = g.heap) (hcalls : g'.calls ⊆ g.calls) (hstatic : g'.staticMap = g.staticMap)
    (hdynamic : g'.dynamicMap = g.dynamicMap) (hcells : ∀ j, g'.cellsOf j = g.cellsOf j) :
    WellFormed g' :=
  hw.of_removal hallocated hheap hcalls (fun b => by rw [hstatic]) (by rw [hdynamic])
    fun j => by rw [hcells]

theorem WellFormed.modifyPlayer (hw : WellFormed g) (i : ℕ) (f : Player ℝ → Player ℝ)
    (hf : ∀ p, (f p).cells = p.cells) : WellFormed (g.modifyPlayer i f) :=
  hw.of_cellsOf rfl rfl (List.Subset.refl _) rfl rfl (cellsOf_modifyPlayer g i f hf)

theorem drift_modifyPlayer (g : Game ℝ) (i : ℕ) (f : Player ℝ → Player ℝ)
    (hf : ∀ p, (f p).cells = p.cells) : Drift g (g.modifyPlayer i f) :=
  { Drift.refl g with cells := fun j p _ h => by rwa [cellsOf_modifyPlayer g i f hf j] at h }

theorem modifyPlayer_core (g : Game ℝ) (i : ℕ) (f : Player ℝ → Player ℝ)
    (hf : ∀ p, (f p).core = f p.core) :
    (g.modifyPlayer i f).players.map Player.core = (g.players.map Player.core).modify i f := by
  apply List.ext_getElem?
  intro n
  simp only [modifyPlayer, List.getElem?_map, List.getElem?_modify]
  rcases g.players[n]? with - | p
  · rfl
  · by_cases h : i = n <;> simp [h, hf]

theorem modify_of_fixed {α : Type} {l : List α} {i : ℕ} {f : α → α}
    (h : ∀ a, l[i]? = some a → f a = a) : l.modify i f = l := by
  apply List.ext_getElem?
  intro n
  rw [List.getElem?_modify]
  by_cases hi : i = n
  · subst hi
    rcases hl : l[i]? with - | a
    · rfl
    · simp [h a hl]
  · simp [hi]

theorem splitCommand_spec (hw : WellFormed g) {i : ℕ} {p : Player ℝ}
    (hp : g.players[i]? = some p) :
    WellFormed (g.splitCommand i p) ∧ Drift g (g.splitCommand i p) ∧
    (g.splitCommand i p).players.map Player.core =
      (g.players.map Player.core).modify i lowerSplit := by
  unfold splitCommand
  split_ifs with hs
  · have hw' := hw.modifyPlayer i lowerSplit fun _ => rfl
    have hf := (splitCells_leads (g.modifyPlayer i lowerSplit) i).frame hw'
    refine ⟨(splitCells_leads _ i).wellFormed hw', ?_, ?_⟩
    · exact (drift_modifyPlayer g i lowerSplit fun _ => rfl).trans hf.toDrift
    · exact hf.core.trans (modifyPlayer_core _ _ _ fun _ => rfl)
  · refine ⟨hw, Drift.refl g, (modify_of_fixed fun a ha => ?_).symm⟩
    rw [List.getElem?_map, hp] at ha
    obtain rfl := Option.some.inj ha
    simp [lowerSplit, Player.core, Bool.eq_false_iff.mpr hs]

theorem feedCommand_spec (hw : WellFormed g) {i : ℕ} {p p' : Player ℝ}
    (hp' : g.players[i]? = some p') (hflag : p'.doFeed = p.doFeed) :
    WellFormed (g.feedCommand i p) ∧ Drift g (g.feedCommand i p) ∧
    (g.feedCommand i p).players.map Player.core =
      (g.players.map Player.core).modify i lowerFeed := by
  unfold feedCommand
  split_ifs with hs
  · have hw' := hw.modifyPlayer i lowerFeed fun _ => rfl
    have hf := (feedCells_leads (g.modifyPlayer i lowerFeed) i).frame hw'
    refine ⟨(feedCells_leads _ i).wellFormed hw', ?_, ?_⟩
    · exact (drift_modifyPlayer g i lowerFeed fun _ => rfl).trans hf.toDrift
    · exact hf.core.trans (modifyPlayer_core _ _ _ fun _ => rfl)
  · refine ⟨hw, Drift.refl g, (modify_of_fixed fun a ha => ?_).symm⟩
    rw [List.getElem?_map, hp'] at ha
    obtain rfl := Option.some.inj ha
    simp [lowerFeed, Player.core, hflag, Bool.eq_false_iff.mpr hs]

theorem commands_spec (hw : WellFormed g) {i : ℕ} {p : Player ℝ} (hp : g.players[i]? = some p) :
    WellFormed (g.commands i p) ∧ Drift g (g.commands i p) ∧
    (g.commands i p).players.map Player.core = (g.players.map Player.core).modify i obeyed := by
  obtain ⟨hw1, hd1, hc1⟩ := splitCommand_spec hw hp
  have hi := congrArg (fun l => l[i]?) hc1
  simp only [List.getElem?_map, List.getElem?_modify, hp] at hi
  rcases hp' : (g.splitCommand i p).players[i]? with - | p'
  · simp [hp'] at hi
  · rw [hp'] at hi
    have hflag : p'.doFeed = p.doFeed := by
      have hcore : p'.core = lowerSplit p.core := by simpa using hi
      exact (congrArg Player.doFeed hcore :)
    obtain ⟨hw2, hd2, hc2⟩ := feedCommand_spec hw1 hp' hflag
    refine ⟨hw2, hd1.trans hd2, ?_⟩
    unfold commands
    rw [hc2, hc1, List.modify_modify_eq]
    rfl

theorem commands_keeps {P : Game ℝ → Prop}
    (hmodify : ∀ g i f, (∀ p, (f p).cells = p.cells) → P g → P (g.modifyPlayer i f))
    (heffect : ∀ g g', WellFormed g → Effect g g' → P g → P g') (hw : WellFormed g) {i : ℕ}
    {p : Player ℝ} (hp : g.players[i]? = some p) (h : P g) : P (g.commands i p) := by
  have hsplit : P (g.splitCommand i p) := by
    unfold splitCommand
    split_ifs
    · have hw' := hw.modifyPlayer i lowerSplit fun _ => rfl
      exact keeps_of_effects heffect (splitCells_leads _ i hw') hw'
        (hmodify g i lowerSplit (fun _ => rfl) h)
    · exact h
  unfold commands feedCommand
  split_ifs
  · have hw' := (splitCommand_spec hw hp).1.modifyPlayer i lowerFeed fun _ => rfl
    exact keeps_of_effects heffect (feedCells_leads _ i hw') hw'
      (hmodify _ i lowerFeed (fun _ => rfl) hsplit)
  · exact hsplit

/-- The commands take no cell away, and they leave the food and the events alone. -/
structure Grows (g g' : Game ℝ) : Prop where
  dynamic : g.dynamicMap ⊆ g'.dynamicMap
  cells : ∀ i, g.cellsOf i ⊆ g'.cellsOf i
  static : g'.staticMap = g.staticMap
  events : g'.cellEvents = g.cellEvents

theorem Grows.refl (g : Game ℝ) : Grows g g :=
  ⟨List.Subset.refl _, fun _ => List.Subset.refl _, rfl, rfl⟩

theorem Grows.trans {g g' g'' : Game ℝ} (h : Grows g g') (h' : Grows g' g'') : Grows g g'' :=
  ⟨List.Subset.trans h.dynamic h'.dynamic, fun i => List.Subset.trans (h.cells i) (h'.cells i),
    h'.static.trans h.static, h'.events.trans h.events⟩

theorem grows_foldl {α : Type} {f : Game ℝ → α → Game ℝ} (h : ∀ g a, Grows g (f g a))
    (g : Game ℝ) (l : List α) : Grows g (l.foldl f g) := by
  induction l generalizing g with
  | nil => exact Grows.refl g
  | cons a l ih => exact (h g a).trans (ih _)

theorem pushCell_subset (g : Game ℝ) (i : ℕ) (p : CellPtr) (j : ℕ) :
    g.cellsOf j ⊆ (g.pushCell i p).cellsOf j := by
  intro q hq
  rw [pushCell, note_cellsOf, cellsOf_setCells]
  split_ifs with h
  · rw [h.1]
    exact List.mem_append_left _ hq
  · exact hq

theorem splitAt_grows (g : Game ℝ) (i x : ℕ) : Grows g (g.splitAt i x) := by
  unfold splitAt
  rcases (g.cellsOf i)[x]? with - | cell
  · exact Grows.refl g
  · dsimp only
    split_ifs
    · unfold splitCell
      exact ⟨List.Subset.refl _, fun j => pushCell_subset _ _ _ _, rfl, rfl⟩
    · exact Grows.refl g

theorem feedCell_grows (g : Game ℝ) (cell : CellPtr) : Grows g (g.feedCell cell) := by
  unfold feedCell
  split_ifs
  · exact ⟨List.subset_append_left _ _, fun j => List.Subset.refl _, rfl, rfl⟩
  · exact Grows.refl g

theorem modifyPlayer_grows (g : Game ℝ) (i : ℕ) (f : Player ℝ → Player ℝ)
    (hf : ∀ p, (f p).cells = p.cells) : Grows g (g.modifyPlayer i f) :=
  ⟨List.Subset.refl _, fun j => by rw [cellsOf_modifyPlayer g i f hf j]; exact List.Subset.refl _,
    rfl, rfl⟩

theorem commands_grows (g : Game ℝ) (i : ℕ) (p : Player ℝ) : Grows g (g.commands i p) := by
  have hsplit : Grows g (g.splitCommand i p) := by
    unfold splitCommand
    split_ifs
    · exact (modifyPlayer_grows g i lowerSplit fun _ => rfl).trans
        (grows_foldl (fun g x => splitAt_grows g i x) _ _)
    · exact Grows.refl g
  refine hsplit.trans ?_
  unfold commands feedCommand
  split_ifs
  · exact (modifyPlayer_grows _ i lowerFeed fun _ => rfl).trans
      (grows_foldl feedCell_grows _ _)
  · exact Grows.refl _

end Game

namespace UpdateRecord

/-- The player after the commands, before any message. -/
def start {K : Type} (u : UpdateRecord K) : Outgoing K where
  player := u.commanded.players.getD u.index u.player
  said := []

end UpdateRecord

namespace Game
variable {g : Game ℝ} {i : ℕ} {p : Player ℝ}

theorem start_spec (hw : WellFormed g) (hp : g.players[i]? = some p) :
    (g.commands i p).players[i]? = some (g.updatePlayer i p).start.player ∧
    (g.updatePlayer i p).start.player =
      { p with doSplit := false, doFeed := false, cells := (g.commands i p).cellsOf i } := by
  obtain ⟨-, -, hc⟩ := commands_spec hw hp
  have hi := congrArg (fun l => l[i]?) hc
  simp only [List.getElem?_map, List.getElem?_modify, hp] at hi
  rcases hp' : (g.commands i p).players[i]? with - | p'
  · simp [hp'] at hi
  · have hstart : (g.updatePlayer i p).start.player = p' := by
      simp [UpdateRecord.start, updatePlayer, List.getD_eq_getElem?_getD, hp']
    rw [hp'] at hi
    have hcore : p'.core = obeyed p.core := by simpa using hi
    refine ⟨by rw [hstart], ?_⟩
    rw [hstart]
    have hcells : (g.commands i p).cellsOf i = p'.cells := by simp [cellsOf, hp']
    rw [hcells]
    cases p'
    simpa [Player.core, obeyed, lowerFeed, lowerSplit] using hcore

theorem parsed_spec (g : Game ℝ) (i : ℕ) (p : Player ℝ) :
    ∃ ms, Outgoing.Extends (g.updatePlayer i p).start (g.updatePlayer i p).parsed ms :=
  Outgoing.extends_parsed (g.commands i p) (g.updatePlayer i p).start

theorem finished_eq (g : Game ℝ) (i : ℕ) (p : Player ℝ) :
    (g.updatePlayer i p).finished = Outgoing.sayAll
      { (g.updatePlayer i p).parsed with
        player := (g.updatePlayer i p).parsed.player.updateView (g.commands i p) }
      (Outgoing.finishSaid (g.commands i p) (g.updatePlayer i p).parsed.player) :=
  Outgoing.finish_eq (g.commands i p) (g.updatePlayer i p).parsed

theorem finished_player (hw : WellFormed g) (hp : g.players[i]? = some p) :
    (g.updatePlayer i p).finished.player.wsi = p.wsi ∧
    (g.updatePlayer i p).finished.player.cells = (g.commands i p).cellsOf i ∧
    (g.updatePlayer i p).finished.player.doSplit = false ∧
    (g.updatePlayer i p).finished.player.doFeed = false ∧
    (g.updatePlayer i p).finished.player.sendTime = p.sendTime ∧
    (g.updatePlayer i p).finished.player.wsMessage =
      p.wsMessage.appendAll (g.updatePlayer i p).finished.said := by
  obtain ⟨-, hstart⟩ := start_spec hw hp
  obtain ⟨ms, hext⟩ := parsed_spec g i p
  have hparsed := hext.player
  have hsaid : (g.updatePlayer i p).parsed.said = ms := by
    rw [hext.said]
    rfl
  rw [hstart] at hparsed
  rw [finished_eq]
  refine ⟨?_, ?_, ?_, ?_, ?_, ?_⟩
  · exact (congrArg Player.wsi hparsed :)
  · exact (congrArg Player.cells hparsed :)
  · exact (congrArg Player.doSplit hparsed :)
  · exact (congrArg Player.doFeed hparsed :)
  · exact (congrArg Player.sendTime hparsed :)
  · have hmessage : (g.updatePlayer i p).parsed.player.wsMessage = p.wsMessage.appendAll ms :=
      congrArg Player.wsMessage hparsed
    show (g.updatePlayer i p).parsed.player.wsMessage.appendAll _ = _
    rw [hmessage, ← Message.appendAll_append]
    show _ = p.wsMessage.appendAll ((g.updatePlayer i p).parsed.said ++ _)
    rw [hsaid]

/-- The players after an update: the one updated, and the others without a change but for their
cells. -/
theorem after_players (hw : WellFormed g) (hp : g.players[i]? = some p) :
    (g.updatePlayer i p).after.players.map Player.core =
      (g.players.map Player.core).set i (g.updatePlayer i p).finished.player.core := by
  obtain ⟨-, -, hc⟩ := commands_spec hw hp
  have hafter : (g.updatePlayer i p).after.players =
      (g.commands i p).players.set i (g.updatePlayer i p).finished.player := rfl
  rw [hafter, List.map_set, hc]
  apply List.ext_getElem?
  intro n
  by_cases h : i = n
  · subst h
    simp [List.getElem?_set]
  · simp [h]

theorem after_cellsOf (hw : WellFormed g) (hp : g.players[i]? = some p) (j : ℕ) :
    (g.updatePlayer i p).after.cellsOf j = (g.commands i p).cellsOf j := by
  obtain ⟨hstart, -⟩ := start_spec hw hp
  have hafter : (g.updatePlayer i p).after.players =
      (g.commands i p).players.set i (g.updatePlayer i p).finished.player := rfl
  have hlt := getElem?_lt hstart
  have hcells := (finished_player hw hp).2.1
  by_cases h : i = j
  · subst h
    simp only [cellsOf, hafter, List.getElem?_set_self hlt] at hcells ⊢
    exact hcells
  · simp only [cellsOf, hafter, List.getElem?_set_ne h]

theorem after_wellFormed (hw : WellFormed g) (hp : g.players[i]? = some p) :
    WellFormed (g.updatePlayer i p).after :=
  (commands_spec hw hp).1.of_cellsOf rfl rfl (List.Subset.refl _) rfl rfl (after_cellsOf hw hp)

end Game

end Agar
