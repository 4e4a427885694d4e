import Agar.Portraits
import Agar.Stream

/-! The clients of all players over whole runs: what the messages said to a player since it joined
make of a client that reads them. -/

namespace Agar
open Mirror Picture Trace

namespace Obs
variable {K : Type}

/-- The player created here for the connection, and the server it came to. -/
def debut (w : Wsi) : Obs K → Option (Player K × Game K)
  | .joined p g _ => if p.wsi = w then some (p, g) else none
  | _ => none

/-- The player created here for the connection. -/
def newcomer (w : Wsi) : Obs K → Option (Player K)
  | .joined p _ _ => if p.wsi = w then some p else none
  | _ => none

/-- The update here of the player of the connection. -/
def updateOf (w : Wsi) : Obs K → List (UpdateRecord K)
  | .updated u => if u.player.wsi = w then [u] else []
  | _ => []

theorem newcomer_of_joins {w : Wsi} {o : Obs K} (h : o.joins w = false) : o.newcomer w = none := by
  cases o with
  | joined p g g' => exact if_neg (by simpa [joins] using h)
  | _ => rfl

theorem debut_of_joins {w : Wsi} {o : Obs K} (h : o.joins w = false) : o.debut w = none := by
  cases o with
  | joined p g g' => exact if_neg (by simpa [joins] using h)
  | _ => rfl

theorem appended_eq (w : Wsi) (o : Obs K) :
    o.appended w = (o.updateOf w).flatMap fun u => u.finished.said := by
  cases o with
  | updated u =>
    show (if u.player.wsi = w then u.finished.said else []) =
      (if u.player.wsi = w then [u] else []).flatMap fun u => u.finished.said
    split_ifs <;> simp
  | _ => rfl

end Obs

section Told
variable {K : Type} (w : Wsi) (tr : List (Obs K))

/-- The updates of the present player of the connection. -/
def updatesOf : List (UpdateRecord K) := (life w tr).flatMap (Obs.updateOf w)

/-- The messages appended for the present player of the connection. -/
def saidTo : List (Msg K) := (life w tr).flatMap (Obs.appended w)

/-- The blocks that the present player of the connection looked at when it was created. -/
def firstView : Set Vec2i := {b | ∃ p ∈ latest (Obs.newcomer w) tr, b ∈ p.blocks}

/-- The blocks that the player has had in view ever since. -/
def heldView : Set Vec2i :=
  firstView w tr ∩ {b | ∀ u ∈ updatesOf w tr, b ∈ u.finished.player.blocks}

/-- The food that lay in the first view when the player was created. -/
def firstFood : Set CellPtr :=
  {c | ∃ q ∈ latest (Obs.debut w) tr, ∃ b ∈ q.1.blocks, c ∈ q.2.staticMap b}

end Told

section Entries
variable {w : Wsi} {tr os : List (Obs ℝ)}

theorem updatesOf_append (h : ∀ o ∈ os, o.joins w = false) :
    updatesOf w (tr ++ os) = updatesOf w tr ++ os.flatMap (Obs.updateOf w) := by
  unfold updatesOf life
  rw [since_append_of_unmarked h, List.flatMap_append]

theorem saidTo_append (h : ∀ o ∈ os, o.joins w = false) :
    saidTo w (tr ++ os) = saidTo w tr ++ os.flatMap (Obs.appended w) := by
  unfold saidTo life
  rw [since_append_of_unmarked h, List.flatMap_append]

theorem firstView_append (h : ∀ o ∈ os, o.joins w = false) :
    firstView w (tr ++ os) = firstView w tr := by
  unfold firstView
  rw [latest_append_of_none fun o ho => Obs.newcomer_of_joins (h o ho)]

theorem firstFood_append (h : ∀ o ∈ os, o.joins w = false) :
    firstFood w (tr ++ os) = firstFood w tr := by
  unfold firstFood
  rw [latest_append_of_none fun o ho => Obs.debut_of_joins (h o ho)]

/-- Entries that do not concern the player of the connection. -/
def Silent (w : Wsi) (os : List (Obs ℝ)) : Prop :=
  ∀ o ∈ os, o.joins w = false ∧ o.updateOf w = []

theorem Silent.nil (w : Wsi) : Silent w [] := fun o ho => by cases ho

theorem Silent.said (h : Silent w os) : saidTo w (tr ++ os) = saidTo w tr := by
  have hnone : os.flatMap (Obs.appended w) = [] := List.flatMap_eq_nil_iff.mpr fun o ho => by
    rw [Obs.appended_eq, (h o ho).2]
    rfl
  rw [saidTo_append fun o ho => (h o ho).1, hnone, List.append_nil]

theorem Silent.firstView (h : Silent w os) : firstView w (tr ++ os) = Agar.firstView w tr :=
  firstView_append fun o ho => (h o ho).1

theorem Silent.firstFood (h : Silent w os) : firstFood w (tr ++ os) = Agar.firstFood w tr :=
  firstFood_append fun o ho => (h o ho).1

theorem Silent.updatesOf (h : Silent w os) : updatesOf w (tr ++ os) = Agar.updatesOf w tr := by
  have hnone : os.flatMap (Obs.updateOf w) = [] :=
    List.flatMap_eq_nil_iff.mpr fun o ho => (h o ho).2
  rw [updatesOf_append fun o ho => (h o ho).1, hnone, List.append_nil]

theorem Silent.heldView (h : Silent w os) : heldView w (tr ++ os) = Agar.heldView w tr := by
  unfold Agar.heldView
  rw [h.firstView, h.updatesOf]

theorem updatesOf_update (tr : List (Obs ℝ)) {u : UpdateRecord ℝ} (hw : u.player.wsi = w) :
    updatesOf w (tr ++ [.updated u, .requested w]) = updatesOf w tr ++ [u] := by
  subst hw
  rw [updatesOf_append fun o ho => by rcases List.mem_pair.mp ho with rfl | rfl <;> rfl]
  simp [Obs.updateOf]

theorem heldView_update (tr : List (Obs ℝ)) {u : UpdateRecord ℝ} (hw : u.player.wsi = w) :
    heldView w (tr ++ [.updated u, .requested w]) =
      heldView w tr ∩ {b | b ∈ u.finished.player.blocks} := by
  have hjoins : ∀ o ∈ [Obs.updated u, .requested w], o.joins w = false :=
    fun o ho => by rcases List.mem_pair.mp ho with rfl | rfl <;> rfl
  unfold heldView
  rw [firstView_append hjoins, updatesOf_update tr hw, Set.inter_assoc]
  congr 1
  refine Set.ext fun b => ?_
  simp only [List.mem_append, List.mem_singleton, Set.mem_ofPred_eq, Set.mem_inter_iff]
  constructor
  · exact fun h => ⟨fun u' hu => h u' (Or.inl hu), h u (Or.inr rfl)⟩
  · rintro ⟨h, hu⟩ u' (hu' | rfl)
    · exact h u' hu'
    · exact hu

theorem saidTo_update (tr : List (Obs ℝ)) {u : UpdateRecord ℝ} (hw : u.player.wsi = w) :
    saidTo w (tr ++ [.updated u, .requested w]) = saidTo w tr ++ u.finished.said := by
  subst hw
  have hjoins : ∀ o ∈ [Obs.updated u, .requested u.player.wsi], o.joins u.player.wsi = false :=
    fun o ho => by rcases List.mem_pair.mp ho with rfl | rfl <;> rfl
  rw [saidTo_append hjoins]
  simp [Obs.appended]

theorem told_joined (tr : List (Obs ℝ)) (p : Player ℝ) (g g' : Game ℝ) :
    saidTo p.wsi (tr ++ [.joined p g g']) = [] ∧
    firstView p.wsi (tr ++ [.joined p g g']) = {b | b ∈ p.blocks} ∧
    heldView p.wsi (tr ++ [.joined p g g']) = {b | b ∈ p.blocks} ∧
    firstFood p.wsi (tr ++ [.joined p g g']) = {c | ∃ b ∈ p.blocks, c ∈ g.staticMap b} := by
  have hlife : life p.wsi (tr ++ [.joined p g g']) = [] := by
    unfold life
    rw [since_snoc, if_pos (by simp [Obs.joins])]
  have hfirst : firstView p.wsi (tr ++ [.joined p g g']) = {b | b ∈ p.blocks} := by
    unfold firstView latest
    simp [Obs.newcomer]
  refine ⟨?_, hfirst, ?_, ?_⟩
  · unfold saidTo
    rw [hlife]
    rfl
  · unfold heldView updatesOf
    rw [hfirst, hlife]
    simp
  · unfold firstFood latest
    simp [Obs.debut]

end Entries

theorem Game.receiveAll_flag (g : Game ℝ) (w : Wsi) (packet : List Byte) (beyond : ℕ → Byte)
    (c : CellPtr) : ((g.receiveAll w packet beyond).heap c).flag = (g.heap c).flag := by
  unfold receiveAll
  induction List.range g.players.length generalizing g with
  | nil => rfl
  | cons i is ih =>
    rw [List.foldl_cons, ih]
    unfold receiveAt
    rcases g.players[i]? with - | p
    · rfl
    · dsimp only
      split_ifs
      · unfold receivePlayer
        dsimp only
        split_ifs
        · exact ((mouse_motion (g.modifyPlayer i _) _ _).identity c).2.2.1
        all_goals rfl
      · rfl

theorem Move.flag {a b : Stage} {s s' : Sys ℝ} (h : Move (a, s) (b, s')) (hi : Invariant a s)
    (hg : s.game.Gone) {c : CellPtr} (hc : c < s.game.allocated) :
    (s'.game.heap c).flag = (s.game.heap c).flag := by
  have hw := hi.wellFormed
  cases h with
  | begin _ clock =>
    have hm := Game.updateDynamic_motion (s.game.beginTick clock) (clock - s.game.currentTime)
    exact (hm.identity c).2.2.1
  | kick _ x hx => rfl
  | collide _ => exact (((Game.collisionPhase_leads s.game).frame hw).identity c hc).2.2
  | drive _ dt => exact ((Game.drive_motion s.game dt).identity c).2.2.1
  | update _ n p hp =>
    obtain ⟨hd, -, -, hheap, -⟩ := Sys.updateAt_frame hw hp
    rw [hheap]
    exact (hd.identity c hc).2.2
  | replay _ n hn =>
    show (s.game.parseEvents.heap c).flag = _
    rw [hg.parseEvents hw hi.additions]
  | send _ clock accepts i =>
    rcases Sys.sendAt_cases s clock accepts i with h | ⟨p, -, -, -, h⟩
    · rw [h]
    · rw [h]
      rfl
  | join _ w grown hnew =>
    show ((s.game.newPlayer w).2.heap c).flag = _
    rw [(Game.newPlayer_spec s.game w).2.1 c hc.ne]
  | receive _ w packet beyond =>
    unfold Sys.receive
    dsimp only
    split_ifs
    · rfl
    · exact Game.receiveAll_flag s.game w packet beyond c
  | close _ x hx => rfl

namespace Game
variable {due due' : Prop} {g g' : Game ℝ}

theorem face_update {c : Cell ℝ} (hmap : OnMap c.position) (dt : ℝ)
    (hrests : (c.update dt).velocity.nonzero = false) : (c.update dt).face = c.face := by
  have hvelocity : (c.update dt).velocity = 0 := by
    obtain ⟨hx, hy⟩ : (c.update dt).velocity.x = 0 ∧ (c.update dt).velocity.y = 0 := by
      simpa [Vec2.nonzero] using hrests
    exact Vec2.ext hx hy
  have hposition : (c.update dt).position = c.position := by
    have hmoved : (c.update dt).position =
        (c.moveAbs (c.position + (c.update dt).velocity * dt)).position := rfl
    rw [hmoved, hvelocity]
    have hstays : c.position + (0 : Vec2 ℝ) * dt = c.position := by
      refine Vec2.ext ?_ ?_ <;> simp
    rw [hstays, moveAbs_of_onMap hmap]
  unfold Cell.face
  rw [hposition]
  rfl

theorem Current.keep {c : CellPtr} (hheap : g'.heap c = g.heap c) (hdue : due → due')
    (hdynamic : c ∈ g.dynamicMap ∨ c ∈ g.cellEvents.removeDynamic →
      c ∈ g'.dynamicMap ∨ c ∈ g'.cellEvents.removeDynamic) {f : Face} (h : g.Current due c f) :
    g'.Current due' c f := by
  unfold Current
  rw [hheap]
  exact h.imp_right fun ⟨hd, hmoves, hroams⟩ => ⟨hdue hd, hmoves, hdynamic hroams⟩

theorem Elapses.keep (hallocated : g.allocated ≤ g'.allocated)
    (hflag : ∀ c < g.allocated, (g'.heap c).flag = (g.heap c).flag)
    (hfood : ∀ c < maxFood, g'.heap c = g.heap c)
    (hothers : ∀ c < g.allocated, (g.heap c).flag ≠ playerFlag → g'.heap c = g.heap c)
    (hstored : ∀ c, g'.Food c ↔ g.Food c) (hstatic : ¬ due → g'.staticMap = g.staticMap)
    (hherd : ∀ c, c ∈ g.dynamicMap ∨ c ∈ g.cellEvents.removeDynamic →
      c ∈ g'.dynamicMap ∨ c ∈ g'.cellEvents.removeDynamic) (hdue : due' ↔ due) :
    Elapses due due' g g' := by
  refine ⟨hallocated, hflag, hfood, fun c _ => ?_, fun c hc hplayer _ f hf => ?_⟩
  · have hiff := hstored c
    unfold Food at hiff
    unfold Stored
    rw [hdue]
    by_cases h : due
    · simp only [h, true_and]
      rwa [or_comm, or_comm (b := c ∈ g.cellEvents.removeStatic)]
    · simp only [h, false_and, or_false, hstatic h]
  · exact hf.keep (hothers c hc hplayer) hdue.mpr (hherd c)

end Game

/-- The player at the index is still to be told what has happened in this tick. -/
def Due : Stage → ℕ → Prop
  | .idle, _ => False
  | .started, _ => True
  | .collided, _ => True
  | .updating n, i => n ≤ i

namespace Game
variable {g : Game ℝ} {due due' : Prop}

/-- Nothing is due before a tick begins. The viruses and the ejected food move. -/
theorem beginTick_elapses (hw : WellFormed g) (clock dt : ℝ) (hflag : ∀ c < g.allocated,
      (((g.beginTick clock).updateDynamic dt).heap c).flag = (g.heap c).flag)
    (hfood : ∀ c < maxFood, ((g.beginTick clock).updateDynamic dt).heap c = g.heap c) :
    Elapses False True g ((g.beginTick clock).updateDynamic dt) := by
  have hm := updateDynamic_motion (g.beginTick clock) dt
  have hwell : WellFormed (g.beginTick clock) :=
    hw.of_cellsOf rfl rfl (List.Subset.refl _) rfl rfl fun _ => rfl
  have heaten : ((g.beginTick clock).updateDynamic dt).cellEvents.removeStatic = [] :=
    hm.removeStatic
  refine ⟨hm.allocated.ge, hflag, hfood, fun c _ => ?_, fun c _ _ hmap f hf => ?_⟩
  · show (∃ b, c ∈ ((g.beginTick clock).updateDynamic dt).staticMap b) ∨ True ∧
      c ∈ ((g.beginTick clock).updateDynamic dt).cellEvents.removeStatic ↔
      (∃ b, c ∈ g.staticMap b) ∨ False ∧ _
    rw [heaten, hm.static]
    simp only [List.not_mem_nil, and_false, false_and, or_false]
    exact Iff.rfl
  · have hf' : f = (g.heap c).face := hf.resolve_right fun hdue => hdue.1
    rw [hf']
    by_cases hd : c ∈ g.dynamicMap
    · have hheap := updateDynamic_heap hwell dt (c := c) hd
      unfold Current
      rw [hheap, hm.dynamic]
      rcases hrests : ((g.heap c).update dt).velocity.nonzero
      · -- a cell without velocity stays where it is
        exact Or.inl (face_update hmap _ hrests).symm
      · exact Or.inr ⟨trivial, hrests, Or.inl hd⟩
    · left
      rw [hm.others c hd]
      rfl

theorem drive_elapses (hw : WellFormed g) (dt : ℝ) (hdue : due) (hdue' : due')
    (hflag : ∀ c < g.allocated, ((g.drive dt).heap c).flag = (g.heap c).flag)
    (hfood : ∀ c < maxFood, (g.drive dt).heap c = g.heap c) : Elapses due due' g (g.drive dt) := by
  have hm := drive_motion g dt
  refine .keep hm.allocated.ge hflag hfood (fun c hc hplayer => hm.others c fun hd => ?_)
    (fun c => ?_) (fun hnot => absurd hdue hnot) ?_ (iff_of_true hdue' hdue)
  · obtain ⟨k, hk⟩ := mem_playerCells.mp hd
    exact hplayer (hw.owned k c hk).2
  · unfold Food
    rw [hm.static, hm.removeStatic]
  · rw [hm.dynamic, hm.removeDynamic]
    exact fun _ => id

end Game

theorem Sys.updateAt_elapses {s : Sys ℝ} (hw : s.game.WellFormed) {n : ℕ} {p : Player ℝ}
    (hp : s.game.players[n]? = some p) {due due' : Prop} (hdue : due' ↔ due)
    (hflag : ∀ c < s.game.allocated, ((s.updateAt n).game.heap c).flag = (s.game.heap c).flag)
    (hfood : ∀ c < maxFood, (s.updateAt n).game.heap c = s.game.heap c) :
    Game.Elapses due due' s.game (s.updateAt n).game := by
  obtain ⟨hd, hgrows, hallocated, hheap, hstatic, hdynamic, hevents⟩ := Sys.updateAt_frame hw hp
  refine .keep ?_ hflag hfood (fun c hc hplayer => ?_) (fun c => ?_)
    (fun _ => hstatic.trans hgrows.static) (fun c => ?_) hdue
  · rw [hallocated]
    exact hd.allocated
  · rw [hheap]
    exact hd.others c hc hplayer
  · unfold Game.Food
    rw [hstatic, hevents, hgrows.static, hgrows.events]
  · rw [hdynamic, hevents, hgrows.events]
    exact Or.imp_left fun h => hgrows.dynamic h

theorem Move.elapses {a b : Stage} {s s' : Sys ℝ} (h : Move (a, s) (b, s')) (hi : Invariant a s)
    (hg : s.game.Gone) {i j : ℕ} (hdue : Due b j ↔ Due a i ∨ a = .idle ∧ b = .started) :
    Game.Elapses (Due a i) (Due b j) s.game s'.game := by
  have hw := hi.wellFormed
  have hflag : ∀ c < s.game.allocated, (s'.game.heap c).flag = (s.game.heap c).flag :=
    fun c hc => h.flag hi hg hc
  have hfood : ∀ c < maxFood, s'.game.heap c = s.game.heap c := fun c hc => h.heap_food hi hg hc
  have hsame : (Due b j ↔ Due a i) → Game.Still s.game s'.game →
      Game.Elapses (Due a i) (Due b j) s.game s'.game := fun hdue hs => by
    refine .keep hs.allocated hflag hfood hs.others (fun c => ?_) (fun _ => hs.static) ?_ hdue
    · unfold Game.Food
      rw [hs.static, hs.events]
    · rw [hs.dynamic, hs.events]
      exact fun _ => id
  cases h with
  | begin _ clock => exact Game.beginTick_elapses hw clock _ hflag hfood
  | kick _ x hx =>
    exact hsame (by simpa using hdue) ((Move.kick s x hx).still hi)
  | collide _ =>
    have hacc := Game.accounts_of_effects (Game.collisionPhase_leads s.game hw) hw hg
    have hf := (Game.collisionPhase_leads s.game).frame hw
    exact .keep hf.allocated hflag hfood hf.others hacc.food (fun hnot => absurd trivial hnot)
      hacc.herd (by simpa using hdue)
  | drive _ dt =>
    exact Game.drive_elapses hw dt trivial (hdue.mpr (Or.inl trivial)) hflag hfood
  | update _ n p hp => exact Sys.updateAt_elapses hw hp (by simpa using hdue) hflag hfood
  | replay _ n hn =>
    have hgame : s.game.parseEvents = s.game := hg.parseEvents hw hi.additions
    show Game.Elapses _ _ s.game s.game.parseEvents
    rw [hgame]
    exact .keep le_rfl (fun _ _ => rfl) (fun _ _ => rfl) (fun _ _ _ => rfl) (fun _ => Iff.rfl)
      (fun _ => rfl) (fun _ => id) (by simpa using hdue)
  | send _ clock accepts i => exact hsame (by simpa using hdue) ((Move.send s clock accepts i).still hi)
  | join _ w grown hnew => exact hsame (by simpa using hdue) ((Move.join s w grown hnew).still hi)
  | receive _ w packet beyond =>
    exact hsame (by simpa using hdue) ((Move.receive s w packet beyond).still hi)
  | close _ x hx => exact hsame (by simpa using hdue) ((Move.close s x hx).still hi)

theorem Told.new {g : Game ℝ} (hw : g.WellFormed) {v : Sight} (hhistory : v.history = []) :
    Told False g {b | b ∈ v.blocks} {b | b ∈ v.blocks} {c | ∃ b ∈ v.blocks, c ∈ g.staticMap b} v
      [] [] := by
  have hnone : ∀ c f, ¬ shown [] c = some f := fun c f hf => by cases hf
  refine ⟨.nil g, trivial, subset_rfl, subset_rfl, fun c _ => ?_, fun c _ => ?_,
    fun c f hf => absurd hf (hnone c f), fun c _ f hf => absurd hf (hnone c f),
    fun c _ f hf => absurd hf (hnone c f), .new hw v.blocks⟩
  · rw [hhistory]
    exact iff_of_false Bool.false_ne_true List.not_mem_nil
  · exact iff_of_false Bool.false_ne_true fun h => h.2.2 h.2.1

/-- The client of the player of the sight has been told. -/
def Sight.Informed (due : Prop) (s : Sys ℝ) (v : Sight) : Prop :=
  ∃ rs, Told due s.game (firstView v.wsi s.trace) (heldView v.wsi s.trace)
    (firstFood v.wsi s.trace) v (saidTo v.wsi s.trace) rs

theorem Sight.Informed.next {due due' : Prop} {s s' : Sys ℝ} {v : Sight} (h : v.Informed due s)
    (hgame : Game.Elapses due due' s.game s'.game) (hsound : v.Sound s.game) {l : List (Obs ℝ)}
    (htrace : s'.trace = s.trace ++ l) (hos : Silent v.wsi l) : v.Informed due' s' := by
  obtain ⟨rs, hrs⟩ := h
  refine ⟨rs, ?_⟩
  rw [htrace, hos.said, hos.firstView, hos.heldView, hos.firstFood]
  exact hrs.next hgame fun c hc => (hsound.cell c hc).2.2

structure Portrayed (a : Stage) (s : Sys ℝ) : Prop where
  watch : Watch a s
  gone : s.game.Gone
  charted : s.Charted
  once : s.game.cellEvents.removeStatic.Nodup
  informed : ∀ i (v : Sight), s.sights[i]? = some v → v.Informed (Due a i) s

theorem Portrayed.commanded {s : Sys ℝ} {n : ℕ} (h : Portrayed (.updating n) s)
    (hi : Invariant (.updating n) s) {p : Player ℝ} (hp : s.game.players[n]? = some p) :
    (∃ ds, Parsing (s.game.commands n p) p ds ∧ Digested (s.game.updatePlayer n p) ds) ∧
    ∃ rs, Told True (s.game.commands n p) (firstView p.wsi s.trace) (heldView p.wsi s.trace)
      (firstFood p.wsi s.trace) p.sight (saidTo p.wsi s.trace) rs := by
  have hw := hi.wellFormed
  have hsight := Sys.sights_getElem? hp
  have hsound := h.watch.sound _ (List.mem_of_getElem? hsight)
  obtain ⟨ds, hds⟩ := Game.digested hi rfl hp hsound.nodup
  obtain ⟨hwc, hd, -⟩ := Game.commands_spec hw hp
  have hgrows := Game.commands_grows s.game n p
  refine ⟨⟨ds, ?_, hds⟩, ?_⟩
  · refine
      { wellFormed := hwc
        gone := h.gone.commands hw hp
        once := by rw [hgrows.events]; exact h.once
        charted := h.charted _ (List.mem_of_getElem? hsight)
        sound := hsound.mono hd.allocated hd.onMap
        move_nodup := by rw [hgrows.events]; exact hi.tidy.1
        move := fun c hc => ?_
        reported := fun c hc hdyn => ?_
        deleted := hds.deleted }
    · rw [hgrows.events] at hc
      obtain ⟨h1, h2, -⟩ := h.watch.settled c hc
      exact ⟨h1, h2.trans_le hd.allocated⟩
    · rw [hgrows.events]
      exact h.watch.reported _ (List.mem_of_getElem? hsight) c hc
        (hd.dynamic c (hsound.cell c hc).2.1 hdyn)
  · obtain ⟨rs, hrs⟩ := h.informed n _ hsight
    refine ⟨rs, hrs.next ?_ fun c hc => (hsound.cell c hc).2.2⟩
    refine .keep hd.allocated (fun c hc => (hd.identity c hc).2.2) (fun c hc => ?_) hd.others
      (fun c => ?_) (fun _ => hgrows.static) (fun c => ?_) (iff_of_true trivial le_rfl)
    · exact hd.others c (hc.trans_le hw.food_le) (hw.food_not_player hc)
    · unfold Game.Food
      rw [hgrows.static, hgrows.events]
    · rw [hgrows.events]
      exact Or.imp_left fun hc => hgrows.dynamic hc

theorem Portrayed.parsed {s : Sys ℝ} {n : ℕ} (h : Portrayed (.updating n) s)
    (hi : Invariant (.updating n) s) {p : Player ℝ} (hp : s.game.players[n]? = some p) :
    ∃ rs, Told False (s.game.commands n p) (firstView p.wsi s.trace) (heldView p.wsi s.trace)
      (firstFood p.wsi s.trace)
      { p.sight with history := (s.game.updatePlayer n p).parsed.player.cellHistory }
      (saidTo p.wsi s.trace ++ (s.game.updatePlayer n p).parsed.said) rs ∧
    ∀ c ∈ (s.game.updatePlayer n p).parsed.player.cellHistory,
      c ∈ (s.game.commands n p).cellEvents.move → shown rs c = some ((s.game.commands n p).heap c).face := by
  obtain ⟨⟨ds, hp', hds⟩, rs, hrs⟩ := h.commanded hi hp
  rw [hds.history, hds.said]
  exact ⟨_, hrs.parsed hp'⟩

theorem Portrayed.finished {s : Sys ℝ} {n : ℕ} (h : Portrayed (.updating n) s)
    (hi : Invariant (.updating n) s) {p : Player ℝ} (hp : s.game.players[n]? = some p) :
    ∃ rs, Told False (s.game.commands n p) (firstView p.wsi s.trace)
      (heldView p.wsi s.trace ∩ {b | b ∈ (s.game.updatePlayer n p).finished.player.blocks})
      (firstFood p.wsi s.trace) (s.game.updatePlayer n p).finished.player.sight
      (saidTo p.wsi s.trace ++ (s.game.updatePlayer n p).finished.said) rs := by
  obtain ⟨⟨ds, hp', hds⟩, rs, hrs⟩ := h.commanded hi hp
  obtain ⟨hparsed, -⟩ := hrs.parsed hp'
  have hblocks : (s.game.updatePlayer n p).finished.player.blocks =
      (s.game.updatePlayer n p).view.blocks := congrArg Sight.blocks hds.sight
  have hscript := (Scripted.blocked hp'.wellFormed (p := p)
    (q := (s.game.updatePlayer n p).view) hp'.charted (Player.updateView_charted _ _)).append
      (Scripted.position _ (s.game.updatePlayer n p).view.camera.x
        (s.game.updatePlayer n p).view.camera.y)
  rw [List.append_nil, ← hblocks] at hscript
  have hhistory : (s.game.updatePlayer n p).finished.player.sight.history =
      p.digest (s.game.commands n p) ds := by
    rw [hds.sight]
    exact hds.history
  have hblocked := hparsed.blocked hp'.wellFormed ⟨hp'.charted.framed, hp'.charted.blocks⟩
    (Game.finished_charted s.game n p) hhistory hscript
  rw [hds.finished, hds.said, List.append_assoc (Outgoing.parseSaid _ _ _), ← List.append_assoc]
  exact ⟨_, hblocked⟩

theorem Portrayed.erase {a : Stage} {s : Sys ℝ} (h : Portrayed a s) (hi : Invariant a s) {x : ℕ}
    (hmove : Move (a, s) (a, s.erasePlayer x)) (ha : ∀ i j, Due a i ↔ Due a j) :
    ∀ i (v : Sight), (s.erasePlayer x).sights[i]? = some v →
      v.Informed (Due a i) (s.erasePlayer x) := by
  intro i v hv
  rw [Sys.erasePlayer_sights] at hv
  have hmem := (List.eraseIdx_sublist _ _).subset (List.mem_of_getElem? hv)
  obtain ⟨j, hj⟩ := List.mem_iff_getElem?.mp hmem
  refine (h.informed j v hj).next (hmove.elapses hi h.gone ?_) (h.watch.sound v hmem)
    (l := [.erased s.game x]) rfl fun o ho => ?_
  · rw [ha i j]
    exact (or_iff_left fun hstage => by rw [hstage.1] at hstage; cases hstage.2).symm
  · rw [List.mem_singleton.mp ho]
    exact ⟨rfl, rfl⟩

theorem Portrayed.update {s : Sys ℝ} {n : ℕ} (h : Portrayed (.updating n) s)
    (hi : Invariant (.updating n) s) {p : Player ℝ} (hp : s.game.players[n]? = some p) :
    ∀ i (v : Sight), (s.updateAt n).sights[i]? = some v →
      v.Informed (Due (.updating (n + 1)) i) (s.updateAt n) := by
  have hw := hi.wellFormed
  have hsight := Sys.sights_getElem? hp
  have htrace : (s.updateAt n).trace =
      s.trace ++ [.updated (s.game.updatePlayer n p), .requested p.wsi] := by
    unfold Sys.updateAt
    rw [hp]
  have hsights : (s.updateAt n).sights =
      s.sights.set n (s.game.updatePlayer n p).finished.player.sight := by
    unfold Sys.updateAt
    rw [hp]
    exact map_of_core_set (f := Player.sight) (fun _ => rfl) (Game.after_players hw hp)
  intro i v hv
  rw [hsights] at hv
  by_cases hin : n = i
  · subst hin
    rw [List.getElem?_set_self (Game.getElem?_lt hsight)] at hv
    obtain rfl := Option.some.inj hv
    have hwsi : (s.game.updatePlayer n p).finished.player.wsi = p.wsi :=
      (Game.finished_player hw hp).1
    obtain ⟨rs, hrs⟩ := h.finished hi hp
    obtain ⟨-, -, hallocated, hheap, hstatic, hdynamic, hevents⟩ := Sys.updateAt_frame hw hp
    have hsilent : ∀ o ∈ [Obs.updated (s.game.updatePlayer n p), .requested p.wsi],
        o.joins p.wsi = false := fun o ho => by
      rcases List.mem_pair.mp ho with rfl | rfl <;> rfl
    have hsound : (s.game.updatePlayer n p).finished.player.sight.Sound (s.updateAt n).game := by
      refine (h.watch.update hi hp).sound _ ?_
      rw [hsights]
      exact List.mem_set (Game.getElem?_lt hsight) _
    refine ⟨rs, ?_⟩
    show Told _ _ (firstView (s.game.updatePlayer n p).finished.player.wsi _)
      (heldView (s.game.updatePlayer n p).finished.player.wsi _)
      (firstFood (s.game.updatePlayer n p).finished.player.wsi _) _
      (saidTo (s.game.updatePlayer n p).finished.player.wsi _) rs
    have hplayer : (s.game.updatePlayer n p).player.wsi = p.wsi := rfl
    rw [hwsi, htrace, firstView_append hsilent, firstFood_append hsilent, heldView_update s.trace hplayer,
      saidTo_update s.trace hplayer]
    refine hrs.next ?_ fun c hc => ?_
    · refine .keep hallocated.ge (fun c _ => by rw [hheap]) (fun c _ => by rw [hheap])
        (fun c _ _ => by rw [hheap]) (fun c => ?_) (fun _ => hstatic) (fun c => ?_) ?_
      · unfold Game.Food
        rw [hstatic, hevents]
      · rw [hdynamic, hevents]
        exact id
      · exact iff_of_false (Nat.not_succ_le_self n) id
    · rw [← hheap]
      exact (hsound.cell c hc).2.2
  · rw [List.getElem?_set_ne hin] at hv
    have hmap : s.sights.map Sight.wsi = s.game.players.map Player.wsi := by
      unfold Sys.sights
      rw [List.map_map]
      rfl
    have hdistinct : (s.sights.map Sight.wsi).Nodup := hmap ▸ hi.distinct
    have hne : p.wsi ≠ v.wsi := key_ne hdistinct hsight hv hin
    refine (h.informed i v hv).next ((Move.update s n p hp).elapses hi h.gone ?_)
      (h.watch.sound v (List.mem_of_getElem? hv)) htrace fun o ho => ?_
    · refine ⟨fun hd => Or.inl (Nat.le_of_succ_le hd), fun hd => ?_⟩
      exact Nat.lt_of_le_of_ne (hd.resolve_right fun hstage => by cases hstage.1) hin
    · rcases List.mem_pair.mp ho with rfl | rfl
      · exact ⟨rfl, if_neg hne⟩
      · exact ⟨rfl, rfl⟩

/-- What the collision phase reports of the food is reported once. -/
theorem Move.once {a b : Stage} {s s' : Sys ℝ} (h : Move (a, s) (b, s')) (hi : Invariant a s)
    (hg : s.game.Gone) (honce : s.game.cellEvents.removeStatic.Nodup) :
    s'.game.cellEvents.removeStatic.Nodup := by
  have hw := hi.wellFormed
  cases h with
  | begin _ clock =>
    have hm := Game.updateDynamic_motion (s.game.beginTick clock) (clock - s.game.currentTime)
    show ((s.game.beginTick clock).updateDynamic _).cellEvents.removeStatic.Nodup
    rw [hm.removeStatic]
    exact List.nodup_nil
  | kick _ x hx => exact honce
  | collide _ =>
    exact (Game.accounts_of_effects (Game.collisionPhase_leads s.game hw) hw hg).once honce
  | drive _ dt =>
    show (s.game.drive dt).cellEvents.removeStatic.Nodup
    rw [(Game.drive_motion s.game dt).removeStatic]
    exact honce
  | update _ n p hp =>
    obtain ⟨-, hgrows, -, -, -, -, hevents⟩ := Sys.updateAt_frame hw hp
    rw [hevents, hgrows.events]
    exact honce
  | replay _ n hn =>
    show s.game.parseEvents.cellEvents.removeStatic.Nodup
    rw [hg.parseEvents hw hi.additions]
    exact honce
  | send _ clock accepts i =>
    rw [((Move.send s clock accepts i).still hi).events]
    exact honce
  | join _ w grown hnew => exact honce
  | receive _ w packet beyond =>
    rw [((Move.receive s w packet beyond).still hi).events]
    exact honce
  | close _ x hx => exact honce

/-- A new player has been told nothing, and nothing but its first view is expected of it. -/
theorem Portrayed.join {s : Sys ℝ} {w : Wsi} (h : Portrayed .idle s) (hi : Invariant .idle s)
    (hnew : ∀ p ∈ s.game.players, w ≠ p.wsi) (grown : ℕ) :
    ∀ (i : ℕ) (v : Sight), (s.join w grown).sights[i]? = some v →
      v.Informed (Due .idle i) (s.join w grown) := by
  intro j v hv
  have hwsi : (s.game.newPlayer w).1.wsi = w := (Game.newPlayer_player s.game w).1
  have htrace : (s.join w grown).trace =
      s.trace ++ [.joined (s.game.newPlayer w).1 s.game (s.join w grown).game] := rfl
  rw [Sys.join_sights] at hv
  rcases Nat.lt_or_ge j s.sights.length with hj | hj
  · rw [List.getElem?_append_left hj] at hv
    obtain ⟨q, hq, rfl⟩ := List.mem_map.mp (List.mem_of_getElem? hv)
    refine (h.informed j q.sight hv).next ((Move.join s w grown hnew).elapses hi h.gone
      (by simp [Due])) (h.watch.sound _ (List.mem_of_getElem? hv)) htrace fun o ho => ?_
    rw [List.mem_singleton.mp ho]
    have hne : w ≠ q.sight.wsi := hnew q hq
    exact ⟨by simpa [Obs.joins, hwsi] using hne, rfl⟩
  · rw [List.getElem?_append_right hj] at hv
    have hv' := List.mem_singleton.mp (List.mem_of_getElem? hv)
    subst hv'
    refine ⟨[], ?_⟩
    show Told False _ (firstView (s.game.newPlayer w).1.wsi (s.join w grown).trace)
      (heldView (s.game.newPlayer w).1.wsi (s.join w grown).trace)
      (firstFood (s.game.newPlayer w).1.wsi (s.join w grown).trace) _
      (saidTo (s.game.newPlayer w).1.wsi (s.join w grown).trace) []
    obtain ⟨hsaid, hfirst, hheld, hfood⟩ := told_joined s.trace (s.game.newPlayer w).1 s.game
      (s.join w grown).game
    rw [htrace, hsaid, hfirst, hheld, hfood]
    exact Told.new (v := (s.game.newPlayer w).1.sight) ((Move.join s w grown hnew).wellFormed hi) rfl

theorem Move.portrayed {a b : Stage} {s s' : Sys ℝ} (h : Move (a, s) (b, s')) (hi : Invariant a s)
    (hs : Portrayed a s) : Portrayed b s' := by
  have hw := hi.wellFormed
  have hold : ∀ {i j : ℕ} {v : Sight} (os : List (Obs ℝ)), s.sights[i]? = some v →
      s'.trace = s.trace ++ os → Silent v.wsi os →
      (Due b j ↔ Due a i ∨ a = .idle ∧ b = .started) → v.Informed (Due b j) s' :=
    fun {i j v} os hv htrace hos hdue => (hs.informed i v hv).next (h.elapses hi hs.gone hdue)
      (hs.watch.sound v (List.mem_of_getElem? hv)) htrace hos
  refine ⟨h.watch hi hs.watch, h.gone hi hs.gone, h.charted hi hs.charted,
    h.once hi hs.gone hs.once, ?_⟩
  cases h with
  | begin _ clock =>
    intro i v hv
    have hm := Game.updateDynamic_motion (s.game.beginTick clock) (clock - s.game.currentTime)
    have hv' : (((s.game.beginTick clock).updateDynamic
      (clock - s.game.currentTime)).players.map Player.sight)[i]? = some v := hv
    rw [hm.players] at hv'
    exact hold (i := i) [] hv' (List.append_nil _).symm (.nil _) (by simp [Due])
  | kick _ x hx => exact hs.erase hi (.kick s x hx) fun _ _ => Iff.rfl
  | collide _ =>
    intro i v hv
    have hsights : s.collide.sights = s.sights :=
      map_of_core (fun _ => rfl) ((Game.collisionPhase_leads s.game).frame hw).core
    rw [hsights] at hv
    exact hold (i := i) [.collided s.game s.game.collisionPhase] hv rfl
      (fun o ho => List.mem_singleton.mp ho ▸ ⟨rfl, rfl⟩) (by simp [Due])
  | drive _ dt =>
    intro i v hv
    have hsights : ({ s with game := s.game.drive dt } : Sys ℝ).sights = s.sights :=
      congrArg (List.map Player.sight) (Game.drive_motion s.game dt).players
    rw [hsights] at hv
    exact hold (i := i) [] hv (List.append_nil _).symm (.nil _) (by simp [Due])
  | update _ n p hp => exact hs.update hi hp
  | replay _ n hn =>
    intro i v hv
    have hsights : (({ s with game := s.game.parseEvents } : Sys ℝ).observe
        (.ticked s.game.parseEvents)).sights = s.sights :=
      congrArg (fun g => g.players.map Player.sight) (hs.gone.parseEvents hw hi.additions)
    rw [hsights] at hv
    have hlt : i < n := by
      rw [hn, ← List.length_map (f := Player.sight)]
      exact Game.getElem?_lt hv
    exact hold (i := i) [.ticked s.game.parseEvents] hv rfl
      (fun o ho => List.mem_singleton.mp ho ▸ ⟨rfl, rfl⟩) (by simpa [Due] using hlt)
  | send _ clock accepts i =>
    intro j v hv
    rw [Sys.sendAt_sights] at hv
    rcases Sys.sendAt_cases s clock accepts i with h | ⟨p, -, -, -, h⟩
    · exact hold (i := j) [] hv (by rw [h, List.append_nil]) (.nil _) (by simp [Due])
    · exact hold (i := j) [.wrote p.wsi clock p.wsMessage.pending] hv (by rw [h])
        (fun o ho => List.mem_singleton.mp ho ▸ ⟨rfl, rfl⟩) (by simp [Due])
  | join _ w grown hnew => exact hs.join hi hnew grown
  | receive _ w packet beyond =>
    intro j v hv
    rw [Sys.receive_sights hw] at hv
    have htrace : ∃ os, (s.receive w packet beyond).trace = s.trace ++ os ∧ Silent v.wsi os := by
      unfold Sys.receive
      dsimp only
      split_ifs
      · exact ⟨[.received w packet], rfl, fun o ho => List.mem_singleton.mp ho ▸ ⟨rfl, rfl⟩⟩
      · refine ⟨[.received w packet, .requested w], by simp [Sys.observe], fun o ho => ?_⟩
        rcases List.mem_pair.mp ho with rfl | rfl <;> exact ⟨rfl, rfl⟩
    obtain ⟨os, htrace, hos⟩ := htrace
    exact hold (i := j) os hv htrace hos (by simp [Due])
  | close _ x hx => exact hs.erase hi (.close s x hx) fun _ _ => Iff.rfl

theorem init_portrayed (rand : ℕ → Fin (randMax + 1)) (stale : CellPtr → ℝ) :
    Portrayed .idle (Sys.init rand stale) := by
  have hevents : (Sys.init rand stale).game.cellEvents = {} :=
    (Game.mapInit_started rand stale).events
  refine ⟨init_watch rand stale, init_gone rand stale, init_charted rand stale, ?_,
    fun i v hv => ?_⟩
  · rw [hevents]
    exact List.nodup_nil
  · rw [init_sights] at hv
    cases hv

end Agar
