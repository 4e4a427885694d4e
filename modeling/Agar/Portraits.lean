import Agar.Scripts
import Agar.Larder

/-! The client of a player over a whole life: what it shows of the cells that roam, of the food in
view, and how far behind the game it can be. -/

namespace Agar
open Mirror Picture Trace

namespace Game

/-- The block of the cell's center. -/
noncomputable def block (g : Game ℝ) (c : CellPtr) : Vec2i := indexFromCoord (g.heap c).position

/-- The food is there, or it has been eaten in this tick and the player is still to be told. -/
def Stored (g : Game ℝ) (due : Prop) (c : CellPtr) : Prop :=
  (∃ b, c ∈ g.staticMap b) ∨ due ∧ c ∈ g.cellEvents.removeStatic

/-- What is shown of the cell is what it is, or it moves and the player is still to be told. -/
def Current (g : Game ℝ) (due : Prop) (c : CellPtr) (face : Face) : Prop :=
  face = (g.heap c).face ∨ due ∧ (g.heap c).velocity.nonzero = true ∧
    (c ∈ g.dynamicMap ∨ c ∈ g.cellEvents.removeDynamic)

/-- What happens to the game while nothing is said to a player. -/
structure Elapses (due due' : Prop) (g g' : Game ℝ) : Prop where
  allocated : g.allocated ≤ g'.allocated
  flag : ∀ c < g.allocated, (g'.heap c).flag = (g.heap c).flag
  food : ∀ c < maxFood, g'.heap c = g.heap c
  stored : ∀ c < maxFood, (g'.Stored due' c ↔ g.Stored due c)
  current : ∀ c < g.allocated, (g.heap c).flag ≠ playerFlag → OnMap (g.heap c).position →
    ∀ f, g.Current due c f → g'.Current due' c f

end Game

/-- What the client shows, by the cells. -/
def shown (rs : List (Report CellPtr Face)) : CellPtr → Option Face := paintAll (blank _ _) rs

/-- What the reports say of the food. -/
def foodChanges (rs : List (Report CellPtr Face)) : List (Change CellPtr) :=
  (rs.map Report.change).filter fun c => c.key < maxFood

theorem foodChanges_append (rs rs' : List (Report CellPtr Face)) :
    foodChanges (rs ++ rs') = foodChanges rs ++ foodChanges rs' := by
  unfold foodChanges
  rw [List.map_append, List.filter_append]

theorem foodChanges_of_roaming {rs : List (Report CellPtr Face)}
    (h : ∀ r ∈ rs, maxFood ≤ r.key) : foodChanges rs = [] := by
  refine List.filter_eq_nil_iff.mpr fun c hc => ?_
  obtain ⟨r, hr, rfl⟩ := List.mem_map.mp hc
  rw [Report.change_key, decide_eq_true_eq]
  exact not_lt.mpr (h r hr)

theorem foodChanges_of_food {rs : List (Report CellPtr Face)} (h : ∀ r ∈ rs, r.key < maxFood) :
    foodChanges rs = rs.map Report.change := by
  refine List.filter_eq_self.mpr fun c hc => ?_
  obtain ⟨r, hr, rfl⟩ := List.mem_map.mp hc
  rw [Report.change_key, decide_eq_true_eq]
  exact h r hr

/-- A client that knew the food in `start` when it was first told of something follows the food of
the blocks. -/
structure Catered (due : Prop) (g : Game ℝ) (start : Set CellPtr) (blocks : List Vec2i)
    (rs : List (Report CellPtr Face)) : Prop where
  legal : Legal start (foodChanges rs)
  known : replay start (foodChanges rs) = {c | c < maxFood ∧ g.Stored due c ∧ g.block c ∈ blocks}

theorem Catered.next {due due' : Prop} {g g' : Game ℝ} {start : Set CellPtr} {blocks : List Vec2i}
    {rs : List (Report CellPtr Face)} (h : Catered due g start blocks rs)
    (hgame : Game.Elapses due due' g g') : Catered due' g' start blocks rs := by
  refine ⟨h.legal, h.known.trans (Set.ext fun c => and_congr_right fun hc => ?_)⟩
  rw [hgame.stored c hc]
  unfold Game.block
  rw [hgame.food c hc]

/-- The client of a player who has been told `ms`. The food of the blocks in `held`, a part of the
`first` view, has never been sent; `start` is what lay in the first view at the beginning. -/
structure Told (due : Prop) (g : Game ℝ) (first held : Set Vec2i) (start : Set CellPtr) (v : Sight)
    (ms : List (Msg ℝ)) (rs : List (Report CellPtr Face)) : Prop where
  scripted : Scripted g ms rs
  legal : LegalIn {c | maxFood ≤ c ∨ g.block c ∉ first} ∅ (rs.map Report.change)
  held_first : held ⊆ first
  held_view : held ⊆ {b | b ∈ v.blocks}
  roaming : ∀ c, maxFood ≤ c → ((shown rs c).isSome ↔ c ∈ v.history)
  food : ∀ c < maxFood, ((shown rs c).isSome ↔
    g.Stored due c ∧ g.block c ∈ v.blocks ∧ g.block c ∉ held)
  flags : ∀ c f, shown rs c = some f → f.flag = (g.heap c).flag.byte
  fixed : ∀ c < maxFood, ∀ f, shown rs c = some f → f = (g.heap c).face
  current : ∀ c, maxFood ≤ c → ∀ f, shown rs c = some f → (g.heap c).flag ≠ playerFlag →
    g.Current due c f
  catered : Catered due g start v.blocks rs

namespace Told
variable {due due' : Prop} {g g' : Game ℝ} {first held : Set Vec2i} {start : Set CellPtr}
  {v : Sight} {ms : List (Msg ℝ)} {rs : List (Report CellPtr Face)}

theorem lt_of_shown (h : Told due g first held start v ms rs) {c : CellPtr} {f : Face}
    (hf : shown rs c = some f) : c < g.allocated := by
  obtain ⟨r, hr, rfl⟩ := reported_of_shown (Option.isSome_iff_exists.mpr ⟨f, hf⟩)
  exact h.scripted.keys r hr

theorem next (h : Told due g first held start v ms rs) (hgame : Game.Elapses due due' g g')
    (hmap : ∀ c ∈ v.history, OnMap (g.heap c).position) :
    Told due' g' first held start v ms rs := by
  have hblock : ∀ c < maxFood, g'.block c = g.block c := fun c hc => by
    unfold Game.block
    rw [hgame.food c hc]
  refine ⟨h.scripted.mono hgame.allocated, ?_, h.held_first, h.held_view, h.roaming,
    fun c hc => ?_, fun c f hf => ?_, fun c hc f hf => ?_, fun c hc f hf hplayer => ?_,
    h.catered.next hgame⟩
  · have hclass : {c | maxFood ≤ c ∨ g'.block c ∉ first} = {c | maxFood ≤ c ∨ g.block c ∉ first} := by
      refine Set.ext fun c => ?_
      rcases le_or_gt maxFood c with hc | hc
      · exact iff_of_true (Or.inl hc) (Or.inl hc)
      · exact or_congr_right (by rw [hblock c hc])
    rw [hclass]
    exact h.legal
  · rw [h.food c hc, hgame.stored c hc, hblock c hc]
  · rw [h.flags c f hf, hgame.flag c (h.lt_of_shown hf)]
  · rw [h.fixed c hc f hf, hgame.food c hc]
  · have hlt := h.lt_of_shown hf
    rw [hgame.flag c hlt] at hplayer
    have hmem := (h.roaming c hc).mp (Option.isSome_iff_exists.mpr ⟨f, hf⟩)
    exact hgame.current c hlt hplayer (hmap c hmem) f (h.current c hc f hf hplayer)

end Told

/-- An update between its commands and `ParseEvents`; `ds` are the dead cells it takes out of the
history. -/
structure Parsing (g : Game ℝ) (p : Player ℝ) (ds : List CellPtr) : Prop where
  wellFormed : g.WellFormed
  gone : g.Gone
  once : g.cellEvents.removeStatic.Nodup
  charted : p.sight.Charted
  sound : p.sight.Sound g
  move_nodup : g.cellEvents.move.Nodup
  move : ∀ c ∈ g.cellEvents.move, maxFood ≤ c ∧ c < g.allocated
  reported : ∀ c ∈ p.cellHistory, c ∈ g.dynamicMap → c ∈ g.cellEvents.move
  deleted : Outgoing.Deleted g (p.informed g) g.cellEvents.removeDynamic ds

theorem reviseAll_removal (s : Option Face) (l : List CellPtr) (c : CellPtr) :
    reviseAll s (mention l removal c) = if c ∈ l then none else s := by
  unfold mention
  split_ifs <;> rfl

theorem reviseAll_arrival (g : Game ℝ) (s : Option Face) (l : List CellPtr) (c : CellPtr) :
    reviseAll s (mention l (fun c => [arrival g c]) c) =
      if c ∈ l then some (g.heap c).face else s := by
  unfold mention
  split_ifs <;> rfl

theorem follows_removal {counts : Prop} {s : Option Face} {l : List CellPtr} {c : CellPtr}
    (h : c ∈ l → counts → s.isSome) : Follows counts s (mention l removal c) := by
  unfold mention
  split_ifs with hc
  · exact ⟨h hc, trivial⟩
  · trivial

namespace Parsing
variable {g : Game ℝ} {p : Player ℝ} {ds : List CellPtr} {c : CellPtr}

theorem mem_deleted (h : Parsing g p ds) : c ∈ ds ↔
    c ∈ g.cellEvents.removeDynamic ∧ p.touches g c = true ∧ c ∈ p.known g := h.deleted.mem c

theorem history_ge (h : Parsing g p ds) (hc : c ∈ p.cellHistory) : maxFood ≤ c :=
  (h.sound.cell c hc).1

theorem known_ge (h : Parsing g p ds) (hc : c ∈ p.known g) : maxFood ≤ c := by
  rcases Player.mem_known.mp hc with ⟨hc, -⟩ | ⟨hc, -⟩
  · exact h.history_ge hc
  · exact (h.move c hc).1

theorem touches_of_kept (h : Parsing g p ds) (hc : c ∈ p.kept g) : p.touches g c = true := by
  obtain ⟨hmem, hsees⟩ := List.mem_filter.mp hc
  obtain ⟨-, hlt, hmap⟩ := h.sound.cell c hmem
  exact Player.touches_of_sees hmap (h.wellFormed.radius c hlt) hsees

theorem scripted (h : Parsing g p ds) :
    Scripted g (Outgoing.parseSaid g p ds) (parseScript g p ds) := by
  refine Scripted.parsed h.wellFormed (fun c hc => (h.sound.cell c hc).2.1)
    (fun c hc => (h.move c hc).2) (fun c hc => ?_) fun c hc => ?_
  · exact (h.gone.static c hc).1.trans_le h.wellFormed.food_le
  · exact (h.gone.dynamic c (h.mem_deleted.mp hc).1).1

theorem about_script (h : Parsing g p ds) (c : CellPtr) : about c (parseScript g p ds) =
    mention (p.cellHistory.filter fun c => !p.sees g c) removal c ++
    mention g.cellEvents.move (moveReports g (p.filtered g)) c ++
    mention (g.cellEvents.removeStatic.filter fun c => p.sees g c) removal c ++ mention ds removal c :=
  about_parseScript h.sound.nodup h.move_nodup h.once h.deleted.nodup c

theorem about_food (h : Parsing g p ds) (hc : c < maxFood) : about c (parseScript g p ds) =
    mention (g.cellEvents.removeStatic.filter fun c => p.sees g c) removal c := by
  have hgone : c ∉ p.cellHistory.filter fun c => !p.sees g c := fun hmem =>
    absurd (h.history_ge (List.mem_of_mem_filter hmem)) (not_le.mpr hc)
  have hmove : c ∉ g.cellEvents.move := fun hmem => absurd (h.move c hmem).1 (not_le.mpr hc)
  have hds : c ∉ ds := fun hmem =>
    absurd (h.known_ge (h.mem_deleted.mp hmem).2.2) (not_le.mpr hc)
  rw [h.about_script]
  simp only [mention, hgone, hmove, hds, if_false, List.nil_append, List.append_nil]

theorem about_roaming (h : Parsing g p ds) (hc : maxFood ≤ c) : about c (parseScript g p ds) =
    mention (p.cellHistory.filter fun c => !p.sees g c) removal c ++
    mention g.cellEvents.move (moveReports g (p.filtered g)) c ++ mention ds removal c := by
  have hfood : c ∉ g.cellEvents.removeStatic.filter fun c => p.sees g c := fun hmem =>
    absurd (h.gone.static c (List.mem_of_mem_filter hmem)).1 (not_lt.mpr hc)
  rw [h.about_script, mention, mention, mention, mention, if_neg hfood, List.append_nil]

theorem foodChanges_script (h : Parsing g p ds) : foodChanges (parseScript g p ds) =
    (g.cellEvents.removeStatic.filter fun c => p.sees g c).map .remove := by
  have hremoves : ∀ l : List CellPtr, (∀ c ∈ l, maxFood ≤ c) →
      foodChanges (l.map .remove) = [] := fun l hl => foodChanges_of_roaming fun r hr => by
    obtain ⟨c, hc, rfl⟩ := List.mem_map.mp hr
    exact hl c hc
  have hmoves : foodChanges (g.cellEvents.move.flatMap (moveReports g (p.filtered g))) = [] :=
    foodChanges_of_roaming fun r hr => by
      obtain ⟨c, hc, hr⟩ := List.mem_flatMap.mp hr
      rw [moveReports_key g _ c r hr]
      exact (h.move c hc).1
  have heaten : ∀ r ∈ (g.cellEvents.removeStatic.filter fun c => p.sees g c).map
      (Report.remove (ν := Face)), r.key < maxFood := fun r hr => by
    obtain ⟨c, hc, rfl⟩ := List.mem_map.mp hr
    exact (h.gone.static c (List.mem_of_mem_filter hc)).1
  unfold parseScript
  rw [foodChanges_append, foodChanges_append, foodChanges_append,
    hremoves _ fun c hc => h.history_ge (List.mem_of_mem_filter hc), hmoves,
    foodChanges_of_food heaten, hremoves _ fun c hc => h.known_ge (h.mem_deleted.mp hc).2.2,
    List.map_map, List.nil_append, List.nil_append, List.append_nil]
  rfl

end Parsing

namespace Catered
variable {g : Game ℝ} {start : Set CellPtr} {blocks : List Vec2i}
  {rs : List (Report CellPtr Face)}

/-- What has been eaten in view is removed. -/
theorem parsed {p : Player ℝ} {ds : List CellPtr} (h : Catered True g start p.blocks rs)
    (hp : Parsing g p ds) : Catered False g start p.blocks (rs ++ parseScript g p ds) := by
  have hlost : ∀ c, c ∈ g.cellEvents.removeStatic.filter (fun c => p.sees g c) ↔
      c ∈ g.cellEvents.removeStatic ∧ g.block c ∈ p.blocks := fun c => by
    rw [List.mem_filter]
    exact and_congr_right' (Player.sees_iff hp.charted c)
  refine ⟨?_, Set.ext fun c => ?_⟩
  · rw [foodChanges_append, hp.foodChanges_script, legal_append]
    refine ⟨h.legal, legal_removes (hp.once.filter _) fun c hc => ?_⟩
    obtain ⟨heaten, hin⟩ := (hlost c).mp hc
    rw [h.known]
    exact ⟨(hp.gone.static c heaten).1, Or.inr ⟨trivial, heaten⟩, hin⟩
  · rw [foodChanges_append, hp.foodChanges_script, replay_append, mem_replay_removes, h.known, hlost]
    constructor
    · rintro ⟨⟨hc, hb | ⟨-, heaten⟩, hin⟩, hkept⟩
      · exact ⟨hc, Or.inl hb, hin⟩
      · exact absurd ⟨heaten, hin⟩ hkept
    · rintro ⟨hc, ⟨b, hb⟩ | ⟨hfalse, -⟩, hin⟩
      · exact ⟨⟨hc, Or.inl ⟨b, hb⟩, hin⟩, fun heaten => (hp.gone.static c heaten.1).2 b hb⟩
      · exact hfalse.elim

theorem foodChanges_blocks (hw : g.WellFormed) {v v' : Sight} (hv : v.Charted) (hv' : v'.Charted) :
    foodChanges (blockScript g v.blocks v'.blocks) =
      (Outgoing.foodOff g v.blocks v'.blocks).map .remove ++
        (Outgoing.foodOff g v'.blocks v.blocks).map .add := by
  have hfood : ∀ {v v' : Sight}, v.Charted → v'.Charted →
      ∀ c ∈ Outgoing.foodOff g v.blocks v'.blocks, c < maxFood := fun hv hv' c hc => by
    obtain ⟨⟨b, hb⟩, -⟩ := (Outgoing.mem_foodOff hw hv hv').mp hc
    exact (hw.static b c hb).1
  unfold blockScript
  rw [foodChanges_of_food fun r hr => ?_, List.map_append, List.map_map, List.map_map]
  · rfl
  · rcases List.mem_append.mp hr with hr | hr
    · obtain ⟨c, hc, rfl⟩ := List.mem_map.mp hr
      exact hfood hv hv' c hc
    · obtain ⟨c, hc, rfl⟩ := List.mem_map.mp hr
      exact hfood hv' hv c hc

/-- What lies in the blocks that leave the view is removed, and what lies in the new ones added. -/
theorem blocked (hw : g.WellFormed) {v v' : Sight} (h : Catered False g start v.blocks rs)
    (hv : v.Charted) (hv' : v'.Charted) :
    Catered False g start v'.blocks (rs ++ blockScript g v.blocks v'.blocks) := by
  have hout : ∀ c, c ∈ Outgoing.foodOff g v.blocks v'.blocks ↔ (∃ b, c ∈ g.staticMap b) ∧
      g.block c ∈ v.blocks ∧ g.block c ∉ v'.blocks := fun c => Outgoing.mem_foodOff hw hv hv'
  have hin : ∀ c, c ∈ Outgoing.foodOff g v'.blocks v.blocks ↔ (∃ b, c ∈ g.staticMap b) ∧
      g.block c ∈ v'.blocks ∧ g.block c ∉ v.blocks := fun c => Outgoing.mem_foodOff hw hv' hv
  have hknown : ∀ c, c ∈ replay start (foodChanges rs) ↔
      (∃ b, c ∈ g.staticMap b) ∧ g.block c ∈ v.blocks := fun c => by
    rw [h.known]
    constructor
    · rintro ⟨-, hb | ⟨hfalse, -⟩, hc⟩
      · exact ⟨hb, hc⟩
      · exact hfalse.elim
    · rintro ⟨⟨b, hb⟩, hc⟩
      exact ⟨(hw.static b c hb).1, Or.inl ⟨b, hb⟩, hc⟩
  refine ⟨?_, Set.ext fun c => ?_⟩
  · rw [foodChanges_append, foodChanges_blocks hw hv hv', legal_append, legal_append]
    refine ⟨h.legal, legal_removes (Outgoing.foodOff_nodup hw hv _) fun c hc => ?_,
      legal_adds (Outgoing.foodOff_nodup hw hv' _) fun c hc hmem => ?_⟩
    · exact (hknown c).mpr ⟨((hout c).mp hc).1, ((hout c).mp hc).2.1⟩
    · exact ((hin c).mp hc).2.2 ((hknown c).mp (mem_replay_removes.mp hmem).1).2
  · rw [foodChanges_append, foodChanges_blocks hw hv hv', replay_append, replay_append,
      mem_replay_adds, mem_replay_removes, hknown, hout, hin]
    constructor
    · rintro (⟨⟨⟨b, hb⟩, hold⟩, hkept⟩ | ⟨⟨b, hb⟩, hnew, -⟩)
      · refine ⟨(hw.static b c hb).1, Or.inl ⟨b, hb⟩, ?_⟩
        exact by_contra fun hnew => hkept ⟨⟨b, hb⟩, hold, hnew⟩
      · exact ⟨(hw.static b c hb).1, Or.inl ⟨b, hb⟩, hnew⟩
    · rintro ⟨-, hb | ⟨hfalse, -⟩, hnew⟩
      · by_cases hold : g.block c ∈ v.blocks
        · exact Or.inl ⟨⟨hb, hold⟩, fun hgone => hgone.2.2 hnew⟩
        · exact Or.inr ⟨hb, hnew, hold⟩
      · exact hfalse.elim

theorem new (hw : g.WellFormed) (blocks : List Vec2i) :
    Catered False g {c | ∃ b ∈ blocks, c ∈ g.staticMap b} blocks [] := by
  refine ⟨trivial, Set.ext fun c => ⟨?_, ?_⟩⟩
  · rintro ⟨b, hb, hc⟩
    have hblock : g.block c = b := (hw.static b c hc).2.2
    exact ⟨(hw.static b c hc).1, Or.inl ⟨b, hc⟩, hblock.symm ▸ hb⟩
  · rintro ⟨-, ⟨b, hc⟩ | ⟨hfalse, -⟩, hin⟩
    · exact ⟨b, (hw.static b c hc).2.2 ▸ hin, hc⟩
    · exact hfalse.elim

end Catered

/-- What is shown of a cell that roams: `s` before the update, `s₁` after the history filter, and
then the reports of the moves. -/
structure Pass (g : Game ℝ) (p : Player ℝ) (c : CellPtr) (s s₁ : Option Face)
    (rs : List (Report CellPtr Face)) : Prop where
  kept : s₁.isSome ↔ c ∈ p.kept g
  keeps : ∀ f, s₁ = some f → s = some f
  known : (reviseAll s₁ rs).isSome ↔ c ∈ p.known g
  follows : Follows True s₁ rs
  /-- A cell that has moved is shown as it is, another one as before. -/
  moved : ∀ f, reviseAll s₁ rs = some f → c ∈ g.cellEvents.move → f = (g.heap c).face
  still : ∀ f, reviseAll s₁ rs = some f → c ∉ g.cellEvents.move → s = some f

theorem Parsing.pass {g : Game ℝ} {p : Player ℝ} {ds : List CellPtr} {c : CellPtr}
    (h : Parsing g p ds) {s : Option Face} (hshown : s.isSome ↔ c ∈ p.cellHistory)
    (hflags : ∀ f, s = some f → f.flag = (g.heap c).flag.byte)
    (hcurrent : ∀ f, s = some f → (g.heap c).flag.isPlayer = false →
      (g.heap c).velocity.nonzero = false → f = (g.heap c).face) :
    Pass g p c s (reviseAll s (mention (p.cellHistory.filter fun c => !p.sees g c) removal c))
      (mention g.cellEvents.move (moveReports g (p.filtered g)) c) := by
  rw [reviseAll_removal]
  generalize hs₁ : (if c ∈ p.cellHistory.filter (fun c => !p.sees g c) then none else s) = s₁
  have hkept : s₁.isSome ↔ c ∈ p.kept g := by
    rw [← hs₁]
    simp only [Player.kept, List.mem_filter, ← hshown]
    cases p.sees g c <;> cases s <;> simp
  have hkeeps : ∀ f, s₁ = some f → s = some f := by
    intro f hf
    rw [← hs₁] at hf
    split_ifs at hf
    exact hf
  have htouches : (p.filtered g).touches g c = p.touches g c := rfl
  have hhistory : (p.filtered g).cellHistory = p.kept g := rfl
  by_cases hmove : c ∈ g.cellEvents.move
  · have hmention : mention g.cellEvents.move (moveReports g (p.filtered g)) c =
        moveReports g (p.filtered g) c := if_pos hmove
    rw [hmention]
    unfold moveReports
    rw [htouches, hhistory]
    by_cases ht : p.touches g c = true
    · rw [if_pos ht]
      by_cases hc : c ∈ p.kept g
      · have hknown : c ∈ p.known g := List.mem_append_left _ hc
        obtain ⟨f₁, hf₁⟩ := Option.isSome_iff_exists.mp (hkept.mpr hc)
        rw [if_pos hc]
        split_ifs with hsay
        · refine ⟨hkept, hkeeps, ?_, ?_, fun f hf _ => ?_, fun f hf hnot => absurd hmove hnot⟩
          · rw [hf₁]
            exact iff_of_true rfl hknown
          · exact ⟨fun _ => hkept.mpr hc, trivial⟩
          · -- the flag that is kept is the one the cell has
            rw [hf₁] at hf
            obtain rfl := Option.some.inj hf
            show ({ (g.heap c).face with flag := f₁.flag } : Face) = _
            rw [hflags f₁ (hkeeps f₁ hf₁)]
            rfl
        · rw [Bool.or_eq_true, not_or, Bool.not_eq_true, Bool.not_eq_true] at hsay
          refine ⟨hkept, hkeeps, ?_, trivial, fun f hf _ => ?_, fun f hf hnot => absurd hmove hnot⟩
          · rw [hf₁]
            exact iff_of_true rfl hknown
          · exact hcurrent f (hkeeps f hf) hsay.1 hsay.2
      · have hnone : s₁ = none := by
          rw [← Option.not_isSome_iff_eq_none]
          exact fun hsome => hc (hkept.mp hsome)
        rw [if_neg hc]
        refine ⟨hkept, hkeeps, iff_of_true rfl ?_, ⟨hnone, trivial⟩, fun f hf _ => ?_,
          fun f hf hnot => absurd hmove hnot⟩
        · exact Player.mem_known.mpr (Or.inr ⟨hmove, ht, hc⟩)
        · exact (Option.some.inj hf).symm
    · -- a cell that stays in the history reaches into the view
      have hc : c ∉ p.kept g := fun hc => ht (h.touches_of_kept hc)
      have hknown : c ∉ p.known g := fun hknown => by
        rcases Player.mem_known.mp hknown with ⟨hmem, hsees⟩ | ⟨-, ht', -⟩
        · exact hc (List.mem_filter.mpr ⟨hmem, hsees⟩)
        · exact ht ht'
      have hnone : s₁ = none := by
        rw [← Option.not_isSome_iff_eq_none]
        exact fun hsome => hc (hkept.mp hsome)
      rw [if_neg ht]
      refine ⟨hkept, hkeeps, ?_, trivial, fun f hf _ => ?_, fun f hf hnot => absurd hmove hnot⟩
      · rw [hnone]
        exact iff_of_false (by decide) hknown
      · rw [hnone] at hf
        cases hf
  · have hmention : mention g.cellEvents.move (moveReports g (p.filtered g)) c = [] :=
      if_neg hmove
    rw [hmention]
    refine ⟨hkept, hkeeps, hkept.trans ?_, trivial, fun f hf hin => absurd hin hmove,
      fun f hf _ => hkeeps f hf⟩
    rw [Player.mem_known]
    unfold Player.kept
    rw [List.mem_filter]
    exact ⟨Or.inl, fun h => h.resolve_right fun hin => hmove hin.1⟩

/-- The history after `ParseEvents`. -/
def Player.digest {K : Type} [Field K] [LinearOrder K] [FloorRing K] [Arith K] (g : Game K)
    (p : Player K) (ds : List CellPtr) : List CellPtr := (p.known g).filter (· ∉ ds)

namespace Told
variable {g : Game ℝ} {first held : Set Vec2i} {start : Set CellPtr} {ms : List (Msg ℝ)}
  {rs : List (Report CellPtr Face)} {p : Player ℝ} {ds : List CellPtr} {c : CellPtr}

theorem shown_append (rs rs' : List (Report CellPtr Face)) (c : CellPtr) :
    shown (rs ++ rs') c = reviseAll (shown rs c) (about c rs') := by
  unfold shown
  rw [paintAll_append, paintAll_about]

theorem pass (h : Told True g first held start p.sight ms rs) (hp : Parsing g p ds) (hc : maxFood ≤ c) :
    Pass g p c (shown rs c) (reviseAll (shown rs c)
      (mention (p.cellHistory.filter fun c => !p.sees g c) removal c))
      (mention g.cellEvents.move (moveReports g (p.filtered g)) c) := by
  refine hp.pass (h.roaming c hc) (h.flags c) fun f hf hplayer hrests => ?_
  have hflag : (g.heap c).flag ≠ playerFlag := fun heq => by
    rw [heq] at hplayer
    cases hplayer
  rcases h.current c hc f hf hflag with hcurrent | ⟨-, hmoves, -⟩
  · exact hcurrent
  · rw [hrests] at hmoves
    cases hmoves

theorem shown_parsed (hp : Parsing g p ds) (hc : maxFood ≤ c) :
    shown (rs ++ parseScript g p ds) c = if c ∈ ds then none else
      reviseAll (reviseAll (shown rs c)
        (mention (p.cellHistory.filter fun c => !p.sees g c) removal c))
        (mention g.cellEvents.move (moveReports g (p.filtered g)) c) := by
  rw [shown_append, hp.about_roaming hc, reviseAll_append, reviseAll_append, reviseAll_removal]

theorem shown_parsed_food (hp : Parsing g p ds) (hc : c < maxFood) :
    shown (rs ++ parseScript g p ds) c =
      if c ∈ g.cellEvents.removeStatic.filter (fun c => p.sees g c) then none else shown rs c := by
  rw [shown_append, hp.about_food hc, reviseAll_removal]

theorem follows_parsed (h : Told True g first held start p.sight ms rs) (hp : Parsing g p ds)
    (c : CellPtr) : Follows (c ∈ {c | maxFood ≤ c ∨ g.block c ∉ first}) (shown rs c)
      (about c (parseScript g p ds)) := by
  rcases le_or_gt maxFood c with hc | hc
  · have hpass := h.pass hp hc
    have hall : ∀ {s : Option Face} {l : List (Report CellPtr Face)}, Follows True s l →
        Follows (c ∈ {c | maxFood ≤ c ∨ g.block c ∉ first}) s l := fun {s l} hl => by
      rwa [eq_true (show c ∈ {c | maxFood ≤ c ∨ g.block c ∉ first} from Or.inl hc)]
    rw [hp.about_roaming hc, follows_append, follows_append]
    refine ⟨⟨follows_removal fun hmem _ => ?_, hall hpass.follows⟩,
      follows_removal fun hmem _ => ?_⟩
    · exact (h.roaming c hc).mpr (List.mem_of_mem_filter hmem)
    · rw [reviseAll_append]
      exact hpass.known.mpr (hp.mem_deleted.mp hmem).2.2
  · rw [hp.about_food hc]
    refine follows_removal fun hmem hclass => ?_
    obtain ⟨heaten, hsees⟩ := List.mem_filter.mp hmem
    refine (h.food c hc).mpr ⟨Or.inr ⟨trivial, heaten⟩, ?_, fun hheld => ?_⟩
    · exact (Player.sees_iff hp.charted c).mp hsees
    · exact hclass.elim (fun hle => absurd hc (not_lt.mpr hle)) fun hout => hout (h.held_first hheld)

/-- After `ParseEvents` the client shows the cells of the history and, of those that have moved,
what they are. -/
theorem parsed (h : Told True g first held start p.sight ms rs) (hp : Parsing g p ds) :
    Told False g first held start { p.sight with history := p.digest g ds }
      (ms ++ Outgoing.parseSaid g p ds) (rs ++ parseScript g p ds) ∧
    ∀ c ∈ p.digest g ds, c ∈ g.cellEvents.move →
      shown (rs ++ parseScript g p ds) c = some (g.heap c).face := by
  have hdigest : ∀ c, c ∈ p.digest g ds ↔ c ∈ p.known g ∧ c ∉ ds := fun c => by
    unfold Player.digest
    rw [List.mem_filter, decide_eq_true_eq]
  have hroaming : ∀ c, maxFood ≤ c → ((shown (rs ++ parseScript g p ds) c).isSome ↔
      c ∈ p.digest g ds) := fun c hc => by
    rw [shown_parsed hp hc, hdigest, ← (h.pass hp hc).known]
    split_ifs with hds
    · exact iff_of_false (by decide) fun hin => hin.2 hds
    · exact ⟨fun hs => ⟨hs, hds⟩, And.left⟩
  have hmoved : ∀ c, maxFood ≤ c → ∀ f, shown (rs ++ parseScript g p ds) c = some f →
      c ∈ g.cellEvents.move → f = (g.heap c).face := fun c hc f hf => by
    rw [shown_parsed hp hc] at hf
    split_ifs at hf
    exact (h.pass hp hc).moved f hf
  have hstill : ∀ c, maxFood ≤ c → ∀ f, shown (rs ++ parseScript g p ds) c = some f →
      c ∉ g.cellEvents.move → shown rs c = some f := fun c hc f hf => by
    rw [shown_parsed hp hc] at hf
    split_ifs at hf
    exact (h.pass hp hc).still f hf
  have hfood : ∀ c < maxFood, ∀ f, shown (rs ++ parseScript g p ds) c = some f →
      shown rs c = some f := fun c hc f hf => by
    rw [shown_parsed_food hp hc] at hf
    split_ifs at hf
    exact hf
  refine ⟨⟨h.scripted.append hp.scripted, ?_, h.held_first, h.held_view, hroaming,
    fun c hc => ?_, fun c f hf => ?_, fun c hc f hf => h.fixed c hc f (hfood c hc f hf),
    fun c hc f hf hplayer => ?_, h.catered.parsed hp⟩, fun c hmem hmove => ?_⟩
  · rw [List.map_append, legalIn_append]
    refine ⟨h.legal, ?_⟩
    rw [← support_blank, ← support_paintAll]
    exact legalIn_of_follows (h.follows_parsed hp)
  · have hstored : ∀ b, c ∈ g.cellEvents.removeStatic → c ∉ g.staticMap b :=
      fun b heaten => (hp.gone.static c heaten).2 b
    have hold := h.food c hc
    have hsees : p.sees g c = true ↔ g.block c ∈ p.sight.blocks := Player.sees_iff hp.charted c
    rw [shown_parsed_food hp hc]
    unfold Game.Stored at hold ⊢
    split_ifs with hlost
    all_goals rw [List.mem_filter, hsees] at hlost
    · refine iff_of_false (by decide) ?_
      rintro ⟨⟨b, hb⟩ | ⟨hfalse, -⟩, -⟩
      · exact hstored b hlost.1 hb
      · exact hfalse
    · rw [hold]
      constructor
      · rintro ⟨hb | ⟨-, heaten⟩, hin, hheld⟩
        · exact ⟨Or.inl hb, hin, hheld⟩
        · exact absurd ⟨heaten, hin⟩ hlost
      · rintro ⟨hb | ⟨hfalse, -⟩, hin, hheld⟩
        · exact ⟨Or.inl hb, hin, hheld⟩
        · exact hfalse.elim
  · rcases le_or_gt maxFood c with hc | hc
    · by_cases hmove : c ∈ g.cellEvents.move
      · rw [hmoved c hc f hf hmove]
        rfl
      · exact h.flags c f (hstill c hc f hf hmove)
    · exact h.flags c f (hfood c hc f hf)
  · left
    by_cases hmove : c ∈ g.cellEvents.move
    · exact hmoved c hc f hf hmove
    · rcases h.current c hc f (hstill c hc f hf hmove) hplayer with hcurrent | ⟨-, -, hroams⟩
      · exact hcurrent
      · -- a cell that has moved in view is told, and a dead one leaves the history
        obtain ⟨hknown, hds⟩ := (hdigest c).mp ((hroaming c hc).mp
          (Option.isSome_iff_exists.mpr ⟨f, hf⟩))
        rcases Player.mem_known.mp hknown with ⟨hhistory, hsees⟩ | ⟨hin, -⟩
        · rcases hroams with hd | hdead
          · exact absurd (hp.reported c hhistory hd) hmove
          · have htouches := hp.touches_of_kept (List.mem_filter.mpr ⟨hhistory, hsees⟩)
            exact absurd (hp.mem_deleted.mpr ⟨hdead, htouches, hknown⟩) hds
        · exact absurd hin hmove
  · have hc := (hp.move c hmove).1
    obtain ⟨f, hf⟩ := Option.isSome_iff_exists.mp ((hroaming c hc).mpr hmem)
    rw [hf, hmoved c hc f hf hmove]

theorem shown_blocked (hw : g.WellFormed) {v v' : Sight} (hv : v.Charted) (hv' : v'.Charted)
    (c : CellPtr) : shown (rs ++ blockScript g v.blocks v'.blocks) c =
      if c ∈ Outgoing.foodOff g v'.blocks v.blocks then some (g.heap c).face else
        if c ∈ Outgoing.foodOff g v.blocks v'.blocks then none else shown rs c := by
  rw [shown_append, about_blockScript hw hv hv', reviseAll_append, reviseAll_removal,
    reviseAll_arrival]

theorem follows_blocked {v v' : Sight} (h : Told False g first held start v ms rs) (hw : g.WellFormed)
    (hv : v.Charted) (hv' : v'.Charted) (c : CellPtr) :
    Follows (c ∈ {c | maxFood ≤ c ∨ g.block c ∉ first}) (shown rs c)
      (about c (blockScript g v.blocks v'.blocks)) := by
  rw [about_blockScript hw hv hv', follows_append]
  constructor
  · refine follows_removal fun hmem hclass => ?_
    obtain ⟨⟨b, hb⟩, hin, -⟩ := (Outgoing.mem_foodOff hw hv hv').mp hmem
    have hc := (hw.static b c hb).1
    refine (h.food c hc).mpr ⟨Or.inl ⟨b, hb⟩, hin, fun hin' => ?_⟩
    exact hclass.elim (fun hle => absurd hc (not_lt.mpr hle)) fun hout => hout (h.held_first hin')
  · rw [reviseAll_removal]
    unfold mention
    by_cases hmem : c ∈ Outgoing.foodOff g v'.blocks v.blocks
    · obtain ⟨⟨b, hb⟩, -, hout⟩ := (Outgoing.mem_foodOff hw hv' hv).mp hmem
      have hnone : shown rs c = none := by
        rw [← Option.not_isSome_iff_eq_none]
        exact fun hs => hout ((h.food c (hw.static b c hb).1).mp hs).2.1
      rw [if_pos hmem, hnone, ite_self]
      exact ⟨rfl, trivial⟩
    · rw [if_neg hmem]
      trivial

/-- After `UpdateBlocks` the client shows the food of the new view, but for what has been in view
since the first moment. -/
theorem blocked {v v' : Sight} {ms' : List (Msg ℝ)} (h : Told False g first held start v ms rs)
    (hw : g.WellFormed) (hv : v.Charted) (hv' : v'.Charted) (hhistory : v'.history = v.history)
    (hms : Scripted g ms' (blockScript g v.blocks v'.blocks)) :
    Told False g first (held ∩ {b | b ∈ v'.blocks}) start v' (ms ++ ms')
      (rs ++ blockScript g v.blocks v'.blocks) := by
  have hroams : ∀ c, maxFood ≤ c → shown (rs ++ blockScript g v.blocks v'.blocks) c =
      shown rs c := fun c hc => by
    have hnone : ¬ ∃ b, c ∈ g.staticMap b := fun ⟨b, hb⟩ =>
      absurd (hw.static b c hb).1 (not_lt.mpr hc)
    rw [shown_blocked hw hv hv',
      if_neg fun hmem => hnone ((Outgoing.mem_foodOff hw hv' hv).mp hmem).1,
      if_neg fun hmem => hnone ((Outgoing.mem_foodOff hw hv hv').mp hmem).1]
  have hfaces : ∀ c f, shown (rs ++ blockScript g v.blocks v'.blocks) c = some f →
      f = (g.heap c).face ∨ shown rs c = some f := fun c f hf => by
    rw [shown_blocked hw hv hv'] at hf
    split_ifs at hf
    · exact Or.inl (Option.some.inj hf).symm
    · exact Or.inr hf
  have hstored : ∀ c, g.Stored False c ↔ ∃ b, c ∈ g.staticMap b := fun c =>
    or_iff_left fun hfalse => hfalse.1
  refine ⟨h.scripted.append hms, ?_, Set.inter_subset_left.trans h.held_first,
    Set.inter_subset_right, fun c hc => ?_, fun c hc => ?_, fun c f hf => ?_, fun c hc f hf => ?_,
    fun c hc f hf hplayer => ?_, h.catered.blocked hw hv hv'⟩
  · rw [List.map_append, legalIn_append]
    refine ⟨h.legal, ?_⟩
    rw [← support_blank, ← support_paintAll]
    exact legalIn_of_follows (h.follows_blocked hw hv hv')
  · rw [hroams c hc, h.roaming c hc, hhistory]
  · have hfood := h.food c hc
    rw [hstored] at hfood
    have hin : c ∈ Outgoing.foodOff g v'.blocks v.blocks ↔ (∃ b, c ∈ g.staticMap b) ∧
      g.block c ∈ v'.blocks ∧ g.block c ∉ v.blocks := Outgoing.mem_foodOff hw hv' hv
    have hout : c ∈ Outgoing.foodOff g v.blocks v'.blocks ↔ (∃ b, c ∈ g.staticMap b) ∧
      g.block c ∈ v.blocks ∧ g.block c ∉ v'.blocks := Outgoing.mem_foodOff hw hv hv'
    have hsub : g.block c ∈ held → g.block c ∈ v.blocks := fun hb => h.held_view hb
    have hinter : g.block c ∈ held ∩ {b | b ∈ v'.blocks} ↔
        g.block c ∈ held ∧ g.block c ∈ v'.blocks := Iff.rfl
    rw [shown_blocked hw hv hv', hstored, hinter]
    split_ifs with h1 h2
    · obtain ⟨hb, hnew, hold⟩ := hin.mp h1
      exact iff_of_true rfl ⟨hb, hnew, fun hh => hold (hsub hh.1)⟩
    · exact iff_of_false (by decide) fun hh => (hout.mp h2).2.2 hh.2.1
    · rw [hfood]
      constructor
      · rintro ⟨hb, hold, hfree⟩
        exact ⟨hb, by_contra fun hnew => h2 (hout.mpr ⟨hb, hold, hnew⟩), fun hh => hfree hh.1⟩
      · rintro ⟨hb, hnew, hfree⟩
        exact ⟨hb, by_contra fun hold => h1 (hin.mpr ⟨hb, hnew, hold⟩), fun hh => hfree ⟨hh, hnew⟩⟩
  · rcases hfaces c f hf with rfl | hf
    · rfl
    · exact h.flags c f hf
  · rcases hfaces c f hf with heq | hf
    · exact heq
    · exact h.fixed c hc f hf
  · rw [hroams c hc] at hf
    exact h.current c hc f hf hplayer

end Told

end Agar
