import Agar.Clients
import Agar.Larder
import Agar.Borders

/-! The viruses of the map over whole runs: they stand where `Map::Init` put them, and each is in
`DynamicMap` until one collision phase reports it as eaten. -/

namespace Agar
open Trace

/-- The viruses of the start. -/
def herd : List CellPtr := List.range' maxFood maxVirus

theorem mem_herd {c : CellPtr} : c ∈ herd ↔ maxFood ≤ c ∧ c < maxFood + maxVirus :=
  List.mem_range'_1

namespace Game
variable {g g' g'' : Game ℝ}

/-- The viruses that have been added, `n` of them. -/
structure Released (g : Game ℝ) (n : ℕ) (g' : Game ℝ) : Prop where
  allocated : g'.allocated = g.allocated + n
  dynamic : g'.dynamicMap = g.dynamicMap ++ List.range' g.allocated n
  old : ∀ c < g.allocated, g'.heap c = g.heap c
  virus : ∀ c ∈ List.range' g.allocated n, (g'.heap c).radius = virusMinRadius ∧
    (g'.heap c).flag = virusFlag ∧ (g'.heap c).Resting

theorem addVirus_resting (g : Game ℝ) : (g.addVirus.heap g.allocated).Resting := by
  have hposition : (g.addVirus.heap g.allocated).position = g.randomPosition.1 := by
    simp [addVirus, newCell, randomPosition, nextRand, setFlag, setCell, addDynamic]
  refine ⟨?_, ?_, ?_, hposition ▸ onMap_mod _ _⟩
  all_goals simp [addVirus, newCell, randomPosition, nextRand, setFlag, setCell, addDynamic]

theorem iterate_addVirus (g : Game ℝ) (n : ℕ) : Released g n (addVirus^[n] g) := by
  induction n with
  | zero =>
    exact ⟨rfl, (List.append_nil _).symm, fun _ _ => rfl, fun c hc => by cases hc⟩
  | succ n ih =>
    rw [Function.iterate_succ_apply']
    obtain ⟨heq, -, hflag, hradius⟩ := addVirus_eq (addVirus^[n] g)
    have hresting := addVirus_resting (addVirus^[n] g)
    have hold : ∀ c < g.allocated + n, (addVirus^[n] g).addVirus.heap c =
        (addVirus^[n] g).heap c := by
      intro c hc
      have hne : c ≠ (addVirus^[n] g).randomPosition.2.allocated := by
        have hallocated : (addVirus^[n] g).randomPosition.2.allocated = g.allocated + n :=
          ih.allocated
        omega
      rw [heq, eject_heap, if_neg hne]
      rfl
    refine ⟨?_, ?_, fun c hc => ?_, fun c hc => ?_⟩
    · show (addVirus^[n] g).allocated + 1 = _
      rw [ih.allocated, Nat.add_assoc]
    · show (addVirus^[n] g).dynamicMap ++ [(addVirus^[n] g).allocated] = _
      rw [ih.dynamic, ih.allocated, List.range'_1_concat, List.append_assoc]
    · rw [hold c (by omega), ih.old c hc]
    · rw [List.range'_1_concat] at hc
      rcases List.mem_append.mp hc with hc | hc
      · rw [hold c (List.mem_range'_1.mp hc).2]
        exact ih.virus c hc
      · rw [List.mem_singleton.mp hc, ← ih.allocated]
        exact ⟨hradius, hflag, hresting⟩

theorem mapInit_released (rand : ℕ → Fin (randMax + 1)) (stale : CellPtr → ℝ) :
    Released (addFood^[maxFood] (empty rand stale)) maxVirus (empty rand stale).mapInit :=
  iterate_addVirus _ maxVirus

theorem mapInit_herd (rand : ℕ → Fin (randMax + 1)) (stale : CellPtr → ℝ) :
    (empty rand stale).mapInit.allocated = maxFood + maxVirus ∧
    (empty rand stale).mapInit.dynamicMap = herd ∧
    ∀ c ∈ herd, ((empty rand stale).mapInit.heap c).radius = virusMinRadius ∧
      ((empty rand stale).mapInit.heap c).flag = virusFlag ∧
      ((empty rand stale).mapInit.heap c).Resting := by
  have hseeded := iterate_seeded rand stale maxFood
  obtain ⟨hallocated, hdynamic, -, hvirus⟩ := mapInit_released rand stale
  rw [hseeded.allocated] at hallocated hdynamic hvirus
  rw [hseeded.dynamic] at hdynamic
  exact ⟨hallocated, hdynamic, hvirus⟩

/-- The viruses are those of the start. -/
def Herded (g : Game ℝ) : Prop :=
  maxFood + maxVirus ≤ g.allocated ∧ ∀ c < g.allocated, (g.heap c).flag.isVirus = true ↔ c ∈ herd

/-- No virus has come up, and none has gone without a report. -/
structure Tallies (g g' : Game ℝ) : Prop where
  herded : Herded g'
  kept : ∀ c ∈ herd, (c ∈ g'.dynamicMap ∨ c ∈ g'.cellEvents.removeDynamic) ↔
    (c ∈ g.dynamicMap ∨ c ∈ g.cellEvents.removeDynamic)

theorem Tallies.refl (h : Herded g) : Tallies g g := ⟨h, fun _ _ => Iff.rfl⟩

theorem Tallies.trans (h : Tallies g g') (h' : Tallies g' g'') : Tallies g g'' :=
  ⟨h'.herded, fun c hc => (h'.kept c hc).trans (h.kept c hc)⟩

theorem Herded.of_old (h : Herded g) (hallocated : g'.allocated = g.allocated)
    (hflag : ∀ c < g.allocated, (g'.heap c).flag = (g.heap c).flag) : Herded g' := by
  refine ⟨hallocated ▸ h.1, fun c hc => ?_⟩
  rw [hallocated] at hc
  rw [hflag c hc]
  exact h.2 c hc

theorem Herded.of_new (h : Herded g) (hallocated : g'.allocated = g.allocated + 1)
    (hflag : ∀ c < g.allocated, (g'.heap c).flag = (g.heap c).flag)
    (hnew : (g'.heap g.allocated).flag.isVirus = false) : Herded g' := by
  refine ⟨hallocated ▸ h.1.trans (Nat.le_succ _), fun c hc => ?_⟩
  rw [hallocated] at hc
  rcases Nat.lt_succ_iff_lt_or_eq.mp hc with hc | rfl
  · rw [hflag c hc]
    exact h.2 c hc
  · refine iff_of_false (Bool.eq_false_iff.mp hnew) fun hmem => ?_
    exact absurd ((mem_herd.mp hmem).2.trans_le h.1) (lt_irrefl _)

theorem Herded.owned (h : Herded g) {p : CellPtr} (hp : g.Owned p) : p ∉ herd := by
  intro hmem
  have hflag := (h.2 p hp.1).mpr hmem
  rw [hp.2] at hflag
  exact absurd hflag (by decide)

theorem Effect.tallies (he : Effect g g') (hw : WellFormed g) (h : Herded g) : Tallies g g' := by
  have hold : ∀ c < g.allocated, (g'.heap c).flag = (g.heap c).flag := fun c hc =>
    (he.frame.identity c hc).2.2
  cases he with
  | spawn i c hi hcap hid hflag hradius hpositive =>
    refine ⟨h.of_new rfl hold ?_, fun _ _ => Iff.rfl⟩
    rw [spawn_heap, if_pos rfl, hflag]
    rfl
  | eject c hid hflag hradius =>
    refine ⟨h.of_new rfl hold ?_, fun d hd => ?_⟩
    · rw [eject_heap, if_pos rfl, hflag]
      rfl
    · show (d ∈ g.dynamicMap ++ [g.allocated] ∨ _) ↔ _
      have hne : d ≠ g.allocated := ((mem_herd.mp hd).2.trans_le h.1).ne
      rw [List.mem_append, List.mem_singleton, or_iff_left hne]
      exact Iff.rfl
  | killDynamic loop p hp =>
    refine ⟨h, fun c _ => ?_⟩
    have hmem := List.mem_of_getElem? hp
    show (c ∈ g.dynamicMap.eraseIdx loop ∨ c ∈ g.cellEvents.removeDynamic ++ [p]) ↔ _
    rw [mem_eraseIdx_of_nodup hw.dynamic_nodup hp, List.mem_append, List.mem_singleton]
    by_cases hc : c = p
    · subst hc
      tauto
    · tauto
  | kill i loop p hp =>
    refine ⟨h.of_old rfl hold, fun c hc => ?_⟩
    have hne : c ≠ p := fun heq =>
      h.owned (hw.owned i p (List.mem_of_getElem? hp)) (heq ▸ hc)
    show (_ ∨ c ∈ g.cellEvents.removeDynamic ++ [p]) ↔ _
    rw [List.mem_append, List.mem_singleton, or_iff_left hne]
    exact Iff.rfl
  | stray i myLoop p slot hp hslot =>
    obtain ⟨hallocated, -, -, hdynamic, hevents, -, -⟩ :=
      eraseCellAt_frame ((g.note (.absorb p slot)).pushRemoveDynamic p) i myLoop
    refine ⟨h.of_old hallocated hold, fun c _ => ?_⟩
    rw [hdynamic, hevents]
    show (c ∈ g.dynamicMap ∨ c ∈ g.cellEvents.removeDynamic ++ [p]) ↔ _
    rw [List.mem_append, List.mem_singleton]
    -- the cell was reported before
    refine or_congr_right (or_iff_left_of_imp ?_)
    rintro rfl
    exact hp
  | _ => exact ⟨h.of_old rfl hold, fun _ _ => Iff.rfl⟩

theorem tallies_of_effects (h : Relation.ReflTransGen Effect g g') (hw : WellFormed g)
    (hherded : Herded g) : Tallies g g' :=
  keeps_of_effects (fun _ _ hw he ht => ht.trans (he.tallies hw ht.herded)) h hw (.refl hherded)

theorem commands_tallies (hw : WellFormed g) (h : Herded g) {i : ℕ} {p : Player ℝ}
    (hp : g.players[i]? = some p) : Tallies g (g.commands i p) :=
  commands_keeps (P := Tallies g) (fun _ _ _ _ ht => ⟨ht.herded, ht.kept⟩)
    (fun _ _ hw he ht => ht.trans (he.tallies hw ht.herded)) hw hp (.refl h)

theorem updateDynamic_resting {c : CellPtr} (h : (g.heap c).Resting) (dt : ℝ) :
    (g.updateDynamic dt).heap c = g.heap c := by
  unfold updateDynamic
  induction g.dynamicMap generalizing g with
  | nil => rfl
  | cons p l ih =>
    have hstays : (updateCell dt g p).heap c = g.heap c := by
      unfold updateCell
      rw [setCell_heap]
      split_ifs with hc
      · rw [← hc]
        exact h.update dt
      · rfl
    rw [List.foldl_cons, ih (by rwa [hstays]), hstays]

end Game

theorem Move.heap_virus {a b : Stage} {s s' : Sys ℝ} (h : Move (a, s) (b, s')) (hi : Invariant a s)
    (hg : s.game.Gone) (hherded : s.game.Herded) {c : CellPtr} (hc : c ∈ herd)
    (hresting : (s.game.heap c).Resting) : s'.game.heap c = s.game.heap c := by
  have hw := hi.wellFormed
  have hlt : c < s.game.allocated := (mem_herd.mp hc).2.trans_le hherded.1
  have hflag : (s.game.heap c).flag ≠ playerFlag := by
    intro hplayer
    have hvirus := (hherded.2 c hlt).mpr hc
    rw [hplayer] at hvirus
    exact absurd hvirus (by decide)
  have hstill : Game.Still s.game s'.game → s'.game.heap c = s.game.heap c :=
    fun hs => hs.others c hlt hflag
  cases h with
  | begin _ clock => exact Game.updateDynamic_resting (g := s.game.beginTick clock) hresting _
  | kick _ x hx => exact hstill ((Move.kick s x hx).still hi)
  | collide _ => exact ((Game.collisionPhase_leads s.game).frame hw).others c hlt hflag
  | drive _ dt =>
    refine (Game.drive_motion s.game dt).others c fun hd => ?_
    obtain ⟨i, hd⟩ := Game.mem_playerCells.mp hd
    exact hherded.owned (hw.owned i c hd) hc
  | update _ n p hp =>
    obtain ⟨hd, -, -, hheap, -⟩ := Sys.updateAt_frame hw hp
    rw [hheap]
    exact hd.others c hlt hflag
  | replay _ n hn =>
    show s.game.parseEvents.heap c = _
    rw [hg.parseEvents hw hi.additions]
  | send _ clock accepts i => exact hstill ((Move.send s clock accepts i).still hi)
  | join _ w grown hnew => exact hstill ((Move.join s w grown hnew).still hi)
  | receive _ w packet beyond => exact hstill ((Move.receive s w packet beyond).still hi)
  | close _ x hx => exact hstill ((Move.close s x hx).still hi)

/-- The viruses that the collision phase here reports as eaten. -/
def Obs.slain {K : Type} : Obs K → List CellPtr
  | .collided _ after => after.cellEvents.removeDynamic.filter fun c => (after.heap c).flag.isVirus
  | _ => []

/-- The viruses in `DynamicMap`. -/
def Game.viruses {K : Type} (g : Game K) : List CellPtr :=
  g.dynamicMap.filter fun c => (g.heap c).flag.isVirus

/-- Every virus of the start is in `DynamicMap`, or one phase has reported it as eaten. -/
structure Grazing (s : Sys ℝ) : Prop where
  gone : s.game.Gone
  herded : s.game.Herded
  all : ∀ c ∈ herd, c ∈ s.game.dynamicMap ∨ ∃ o ∈ s.trace, c ∈ o.slain
  off : ∀ o ∈ s.trace, ∀ c ∈ o.slain, c ∈ herd ∧ c ∉ s.game.dynamicMap
  apart : (s.trace.map Obs.slain).Pairwise List.Disjoint

theorem Grazing.keep {s s' : Sys ℝ} (h : Grazing s) (hgone : s'.game.Gone)
    (hherded : s'.game.Herded)
    (hdynamic : ∀ c ∈ herd, c ∈ s'.game.dynamicMap ↔ c ∈ s.game.dynamicMap) {l : List (Obs ℝ)}
    (htrace : s'.trace = s.trace ++ l) (hos : ∀ o ∈ l, o.slain = []) : Grazing s' := by
  refine ⟨hgone, hherded, fun c hc => ?_, fun o ho c hc => ?_, ?_⟩
  · rw [hdynamic c hc, htrace]
    exact (h.all c hc).imp_right fun ⟨o, ho, hslain⟩ => ⟨o, List.mem_append_left _ ho, hslain⟩
  · rw [htrace] at ho
    rcases List.mem_append.mp ho with ho | ho
    · obtain ⟨hmem, hout⟩ := h.off o ho c hc
      exact ⟨hmem, fun hd => hout ((hdynamic c hmem).mp hd)⟩
    · rw [hos o ho] at hc
      cases hc
  · rw [htrace, List.map_append]
    have hempty : ∀ cs ∈ l.map Obs.slain, cs = [] := by
      intro cs hcs
      obtain ⟨o, ho, rfl⟩ := List.mem_map.mp hcs
      exact hos o ho
    refine List.pairwise_append.mpr ⟨h.apart, ?_, fun cs _ cs' hcs' => ?_⟩
    · refine List.Pairwise.imp_of_mem (fun {cs cs'} hcs _ _ => ?_)
        (List.pairwise_of_forall fun _ _ => trivial)
      rw [hempty cs hcs]
      exact List.disjoint_nil_left cs'
    · rw [hempty cs' hcs']
      exact List.disjoint_nil_right cs

theorem Grazing.collide {s : Sys ℝ} (h : Grazing s) (hi : Invariant .started s)
    (hgone : s.collide.game.Gone) : Grazing s.collide := by
  have hevents : s.game.cellEvents = {} := hi.tidy
  have htallies := Game.tallies_of_effects (Game.collisionPhase_leads s.game hi.wellFormed)
    hi.wellFormed h.herded
  let phase : Obs ℝ := .collided s.game s.game.collisionPhase
  have htrace : s.collide.trace = s.trace ++ [phase] := rfl
  have hslain : ∀ c, c ∈ phase.slain ↔ c ∈ herd ∧ c ∈ s.collide.game.cellEvents.removeDynamic := by
    intro c
    show c ∈ List.filter _ _ ↔ _
    rw [List.mem_filter, and_comm]
    refine and_congr_left fun hdead => ?_
    exact htallies.herded.2 c (hgone.dynamic c hdead).1
  have hkept : ∀ c ∈ herd, (c ∈ s.collide.game.dynamicMap ∨ c ∈ phase.slain) ↔
      c ∈ s.game.dynamicMap := by
    intro c hc
    rw [hslain c, and_iff_right hc]
    refine (htallies.kept c hc).trans (or_iff_left ?_)
    rw [hevents]
    exact List.not_mem_nil
  refine ⟨hgone, htallies.herded, fun c hc => ?_, fun o ho c hc => ?_, ?_⟩
  · rcases h.all c hc with hd | ⟨o, ho, hold⟩
    · refine ((hkept c hc).mpr hd).imp_right fun hnew => ⟨phase, ?_, hnew⟩
      exact List.mem_append_right _ List.mem_cons_self
    · exact Or.inr ⟨o, List.mem_append_left _ ho, hold⟩
  · rcases List.mem_append.mp (htrace ▸ ho) with ho | ho
    · obtain ⟨hmem, hout⟩ := h.off o ho c hc
      exact ⟨hmem, fun hd => hout ((hkept c hmem).mp (Or.inl hd))⟩
    · rw [List.mem_singleton.mp ho] at hc
      obtain ⟨hmem, hdead⟩ := (hslain c).mp hc
      exact ⟨hmem, (hgone.dynamic c hdead).2⟩
  · rw [htrace, List.map_append]
    refine List.pairwise_append.mpr ⟨h.apart, List.pairwise_singleton _ _, fun l hl l' hl' => ?_⟩
    obtain ⟨o, ho, rfl⟩ := List.mem_map.mp hl
    rw [List.mem_singleton.mp hl']
    intro c hold hnew
    obtain ⟨hmem, hout⟩ := h.off o ho c hold
    exact hout ((hkept c hmem).mp (Or.inr hnew))

theorem Game.receiveAll_allocated (g : Game ℝ) (w : Wsi) (packet : List Byte) (beyond : ℕ → Byte) :
    (g.receiveAll w packet beyond).allocated = g.allocated := by
  have hplayer : ∀ (g : Game ℝ) i, (receivePlayer packet beyond g i).allocated = g.allocated := by
    intro g i
    unfold receivePlayer
    dsimp only
    split_ifs
    · exact (mouse_motion _ _ _).allocated
    all_goals rfl
  unfold receiveAll
  induction List.range g.players.length generalizing g with
  | nil => rfl
  | cons i is ih =>
    rw [List.foldl_cons, ih]
    unfold receiveAt
    split
    · rfl
    · split_ifs
      · exact hplayer g i
      · rfl

theorem Move.grazing {a b : Stage} {s s' : Sys ℝ} (h : Move (a, s) (b, s')) (hi : Invariant a s)
    (hs : Grazing s) : Grazing s' := by
  have hw := hi.wellFormed
  have hgone := h.gone hi hs.gone
  have hquiet : s'.game.allocated = s.game.allocated →
      s'.game.dynamicMap = s.game.dynamicMap → (∃ os, s'.trace = s.trace ++ os ∧
        ∀ o ∈ os, o.slain = []) → Grazing s' := by
    rintro hallocated hdynamic ⟨os, htrace, hos⟩
    exact hs.keep hgone (hs.herded.of_old hallocated fun c hc => h.flag hi hs.gone hc)
      (fun c _ => by rw [hdynamic]) htrace hos
  cases h with
  | begin _ clock =>
    have hm := Game.updateDynamic_motion (s.game.beginTick clock) (clock - s.game.currentTime)
    exact hquiet hm.allocated hm.dynamic ⟨[], (List.append_nil _).symm, fun o ho => by cases ho⟩
  | kick _ x hx => exact hquiet rfl rfl ⟨[.erased s.game x], rfl, by simp [Obs.slain]⟩
  | collide _ => exact hs.collide hi hgone
  | drive _ dt =>
    have hm := Game.drive_motion s.game dt
    exact hquiet hm.allocated hm.dynamic ⟨[], (List.append_nil _).symm, fun o ho => by cases ho⟩
  | update _ n p hp =>
    obtain ⟨hdrift, hgrows, hallocated, hheap, -, hdynamic, -⟩ := Sys.updateAt_frame hw hp
    have htallies := Game.commands_tallies hw hs.herded hp
    refine hs.keep (l := [.updated (s.game.updatePlayer n p), .requested p.wsi]) hgone
      ?_ (fun c hc => ?_) ?_ (by simp [Obs.slain])
    · exact htallies.herded.of_old hallocated fun c _ => by rw [hheap]
    · have hlt : c < s.game.allocated := (mem_herd.mp hc).2.trans_le hs.herded.1
      rw [hdynamic]
      exact ⟨hdrift.dynamic c hlt, fun hd => hgrows.dynamic hd⟩
    · unfold Sys.updateAt
      rw [hp]
  | replay _ n hn =>
    have hgame : s.game.parseEvents = s.game := hs.gone.parseEvents hw hi.additions
    exact hquiet (congrArg Game.allocated hgame) (congrArg Game.dynamicMap hgame)
      ⟨[.ticked s.game.parseEvents], rfl, by simp [Obs.slain]⟩
  | send _ clock accepts i =>
    rcases Sys.sendAt_cases s clock accepts i with h | ⟨p, -, -, -, h⟩
    · exact hquiet (by rw [h]) (by rw [h]) ⟨[], by rw [h, List.append_nil], fun o ho => by cases ho⟩
    · exact hquiet (by rw [h]; rfl) (by rw [h]; rfl)
        ⟨[.wrote p.wsi clock p.wsMessage.pending], by rw [h], by simp [Obs.slain]⟩
  | join _ w grown hnew =>
    obtain ⟨-, -, -, hflag, -⟩ := Game.newPlayer_spec s.game w
    refine hs.keep (l := [_]) hgone (hs.herded.of_new rfl (fun c hc => ?_) ?_)
      (fun _ _ => Iff.rfl) rfl (by simp [Obs.slain])
    · exact (Move.join s w grown hnew).flag hi hs.gone hc
    · exact congrArg CellFlag.isVirus hflag
  | receive _ w packet beyond =>
    have hdynamic := ((Move.receive s w packet beyond).still hi).dynamic
    unfold Sys.receive at hquiet hdynamic ⊢
    dsimp only at hquiet hdynamic ⊢
    split_ifs at hquiet hdynamic ⊢
    · exact hquiet rfl hdynamic ⟨[.received w packet], rfl, by simp [Obs.slain]⟩
    · exact hquiet (Game.receiveAll_allocated s.game w packet beyond) hdynamic
        ⟨[.received w packet, .requested w], by simp [Sys.observe], by simp [Obs.slain]⟩
  | close _ x hx => exact hquiet rfl rfl ⟨[.erased s.game x], rfl, by simp [Obs.slain]⟩

theorem init_grazing (rand : ℕ → Fin (randMax + 1)) (stale : CellPtr → ℝ) :
    Grazing (Sys.init rand stale) := by
  have hseeded := Game.iterate_seeded rand stale maxFood
  have hreleased := Game.mapInit_released rand stale
  obtain ⟨hallocated, hdynamic, hvirus⟩ := Game.mapInit_herd rand stale
  refine ⟨init_gone rand stale, ⟨hallocated.ge, fun c hc => ?_⟩, fun c hc => Or.inl ?_,
    fun o ho => (by cases ho), List.Pairwise.nil⟩
  · have hlt : c < maxFood + maxVirus := hallocated ▸ hc
    by_cases hfood : c < maxFood
    · have hflag : ((Sys.init rand stale).game.heap c).flag = foodFlag := by
        refine (congrArg Cell.flag (hreleased.old c ?_)).trans (hseeded.cell c hfood).2.1
        rwa [hseeded.allocated]
      rw [hflag]
      exact iff_of_false (by decide) fun hmem => absurd (mem_herd.mp hmem).1 (not_le.mpr hfood)
    · have hmem : c ∈ herd := mem_herd.mpr ⟨not_lt.mp hfood, hlt⟩
      exact iff_of_true (congrArg CellFlag.isVirus (hvirus c hmem).2.1) hmem
  · show c ∈ (Game.empty rand stale).mapInit.dynamicMap
    rwa [hdynamic]

/-- The viruses of the start are in `DynamicMap` or one collision phase has reported them as eaten,
and none of them has moved or changed. -/
structure VirusesKept (r : Run ℝ) : Prop where
  standing : r.final.game.viruses.Nodup ∧ r.final.game.viruses ⊆ herd
  shared : ∀ c ∈ herd, c ∈ r.final.game.viruses ∨ ∃ o ∈ r.final.trace, c ∈ o.slain
  slain : ∀ o ∈ r.final.trace, ∀ c ∈ o.slain, c ∈ herd ∧ c ∉ r.final.game.viruses
  apart : (r.final.trace.map Obs.slain).Pairwise List.Disjoint
  unchanged : ∀ c ∈ herd, r.final.game.heap c = (Sys.init r.rand r.stale).game.heap c

/-- In every run the hundred viruses of the start are the only ones, each stands where it stood until
one collision phase reports it, and no other phase reports it. -/
theorem viruses_kept (r : Run ℝ) : VirusesKept r := by
  have hgrazing : Grazing r.final := Run.induction (P := fun _ s => Grazing s) init_grazing
    (fun _ _ _ _ hi hm hs => hm.grazing hi hs) r
  have hw := r.invariant.wellFormed
  have hviruses : ∀ c, c ∈ r.final.game.viruses ↔ c ∈ herd ∧ c ∈ r.final.game.dynamicMap := by
    intro c
    unfold Game.viruses
    rw [List.mem_filter, and_comm]
    exact and_congr_left fun hd => hgrazing.herded.2 c (hw.dynamic c hd).2.1
  refine ⟨⟨hw.dynamic_nodup.filter _, fun c hc => ((hviruses c).mp hc).1⟩, fun c hc => ?_,
    fun o ho c hc => ?_, hgrazing.apart, fun c hc => ?_⟩
  · exact (hgrazing.all c hc).imp_left fun hd => (hviruses c).mpr ⟨hc, hd⟩
  · obtain ⟨hmem, hout⟩ := hgrazing.off o ho c hc
    exact ⟨hmem, fun hv => hout ((hviruses c).mp hv).2⟩
  · have hresting : ((Sys.init r.rand r.stale).game.heap c).Resting :=
      ((Game.mapInit_herd r.rand r.stale).2.2 c hc).2.2
    have hkept := Moves.keeps (P := fun _ s => Grazing s ∧
        s.game.heap c = (Sys.init r.rand r.stale).game.heap c)
      (fun a s b s' hi hm hs => ⟨hm.grazing hi hs.1,
        (hm.heap_virus hi hs.1.gone hs.1.herded hc (hs.2 ▸ hresting)).trans hs.2⟩)
      (Sys.steps_moves (init_invariant r.rand r.stale) r.events)
      (init_invariant r.rand r.stale) ⟨init_grazing r.rand r.stale, rfl⟩
    exact hkept.2.2

end Agar
