import Agar.History
import Agar.Merging
import Agar.Lib.Mirror

/-! The food in the view of a player: what `ParseEvents` and `UpdateBlocks` tell the client of it
takes the client from the old blocks to the new ones. -/

namespace Agar
open Mirror

/-- What a message tells a mirror of the cells, by their IDs. -/
def Msg.change {K : Type} : Msg K → Option (Change (BitVec 32))
  | .addCell id _ _ _ _ _ => some (.add id)
  | .removeCell id => some (.remove id)
  | .moveCell id _ _ _ _ => some (.move id)
  | .position _ _ => none

theorem indexFromCoord_bounds (v : Vec2 ℝ) :
    (0 ≤ (indexFromCoord v).x ∧ (indexFromCoord v).x < numBlocks) ∧
    0 ≤ (indexFromCoord v).y ∧ (indexFromCoord v).y < numBlocks := by
  have hline : ∀ x : ℝ, 0 ≤ min (trunc (max x 0)) ((mapSize : ℤ) - 1) / (blockSize : ℤ) ∧
      min (trunc (max x 0)) ((mapSize : ℤ) - 1) / (blockSize : ℤ) < numBlocks := by
    intro x
    have htrunc : 0 ≤ trunc (max x 0) := by
      unfold trunc
      rw [if_pos (le_max_right x 0)]
      exact Int.floor_nonneg.mpr (le_max_right x 0)
    rw [show (mapSize : ℤ) = 16000 from rfl, show (blockSize : ℤ) = 100 from rfl,
      show (numBlocks : ℤ) = 160 from rfl]
    omega
  exact ⟨hline v.x, hline v.y⟩

namespace Player

theorem intRange_eq (a b : ℤ) :
    intRange a b = (List.range (b + 1 - a).toNat).map fun n : ℕ => a + (n : ℤ) := by
  have hcast : ∀ l : List ℕ, (l >>= fun n => pure (n : ℤ)) = l.map fun n : ℕ => (n : ℤ) :=
    fun l => by
      rw [List.map_eq_flatMap]
      rfl
  unfold intRange
  rw [hcast, List.map_map]
  rfl

theorem mem_intRange {a b n : ℤ} : n ∈ intRange a b ↔ a ≤ n ∧ n ≤ b := by
  rw [intRange_eq]
  simp only [List.mem_map, List.mem_range]
  constructor
  · rintro ⟨k, hk, rfl⟩
    omega
  · exact fun h => ⟨(n - a).toNat, by omega, by omega⟩

theorem intRange_sorted (a b : ℤ) : (intRange a b).Pairwise (· < ·) := by
  rw [intRange_eq]
  refine List.pairwise_map.mpr (List.pairwise_lt_range.imp fun {m n} h => ?_)
  omega

theorem mem_viewBlocks {topLeft bottomRight b : Vec2i} : b ∈ viewBlocks topLeft bottomRight ↔
    (topLeft.x ≤ b.x ∧ b.x ≤ bottomRight.x) ∧ topLeft.y ≤ b.y ∧ b.y ≤ bottomRight.y := by
  unfold viewBlocks
  simp only [List.mem_flatMap, List.mem_map, mem_intRange]
  constructor
  · rintro ⟨x, hx, y, hy, rfl⟩
    exact ⟨hx, hy⟩
  · exact fun h => ⟨b.x, h.1, b.y, h.2, rfl⟩

theorem viewBlocks_sorted {topLeft bottomRight : Vec2i} (htop : 0 ≤ topLeft.y)
    (hbottom : bottomRight.y < numBlocks) :
    SortedDifference.Sorted Outgoing.blockAddress (viewBlocks topLeft bottomRight) := by
  have hblocks : (numBlocks : ℤ) = 160 := rfl
  unfold SortedDifference.Sorted viewBlocks
  rw [List.pairwise_flatMap]
  refine ⟨fun x _ => ?_, ?_⟩
  · refine List.pairwise_map.mpr ((intRange_sorted _ _).imp fun {y y'} h => ?_)
    unfold Outgoing.blockAddress
    dsimp only
    omega
  · refine (intRange_sorted _ _).imp fun {x x'} h b hb b' hb' => ?_
    obtain ⟨y, hy, rfl⟩ := List.mem_map.mp hb
    obtain ⟨y', hy', rfl⟩ := List.mem_map.mp hb'
    have hy := mem_intRange.mp hy
    have hy' := mem_intRange.mp hy'
    rw [hblocks] at hbottom
    unfold Outgoing.blockAddress
    dsimp only
    rw [hblocks]
    omega

/-- The corners of a view are blocks. -/
def Framed (topLeft bottomRight : Vec2i) : Prop :=
  (0 ≤ topLeft.x ∧ 0 ≤ topLeft.y) ∧ bottomRight.x < numBlocks ∧ bottomRight.y < numBlocks

theorem framed_of_coords (v w : Vec2 ℝ) : Framed (indexFromCoord v) (indexFromCoord w) :=
  ⟨⟨(indexFromCoord_bounds v).1.1, (indexFromCoord_bounds v).2.1⟩,
    (indexFromCoord_bounds w).1.2, (indexFromCoord_bounds w).2.2⟩

theorem updateView_framed (g : Game ℝ) (p : Player ℝ) :
    Framed (p.updateView g).topLeft (p.updateView g).bottomRight := by
  unfold updateView
  dsimp only
  by_cases hblind : decide ((p.calculateCamera g).totalRadius = 0) = true
  · rw [if_pos hblind, if_pos hblind]
    exact ⟨⟨le_rfl, le_rfl⟩, by decide, by decide⟩
  · rw [if_neg hblind, if_neg hblind]
    exact framed_of_coords _ _

theorem mem_difference {tl br tl' br' b : Vec2i} (h : Framed tl br) (h' : Framed tl' br') :
    b ∈ SortedDifference.setDifference Outgoing.blockAddress (viewBlocks tl br)
      (viewBlocks tl' br') ↔ b ∈ viewBlocks tl br ∧ b ∉ viewBlocks tl' br' := by
  have hblocks : (numBlocks : ℤ) = 160 := rfl
  rw [SortedDifference.mem_setDifference (viewBlocks_sorted h.1.2 h.2.2)
    (viewBlocks_sorted h'.1.2 h'.2.2)]
  refine and_congr_right fun hb => ⟨fun hne hb' => hne b hb' rfl, fun hb' d hd hkey => hb' ?_⟩
  -- two blocks of the map with one address are one block
  have hb1 := mem_viewBlocks.mp hb
  have hd1 := mem_viewBlocks.mp hd
  obtain ⟨⟨htop, htop'⟩, hbottom, hbottom'⟩ := h
  obtain ⟨⟨hup, hup'⟩, hdown, hdown'⟩ := h'
  unfold Outgoing.blockAddress at hkey
  rw [hblocks] at hbottom hbottom' hdown hdown' hkey
  have hx : d.x = b.x := by omega
  have hy : d.y = b.y := by omega
  have hdb : d = b := by
    cases d
    cases b
    exact congrArg₂ Vec2i.mk hx hy
  exact hdb ▸ hd

theorem difference_self {tl br : Vec2i} (h : Framed tl br) :
    SortedDifference.setDifference Outgoing.blockAddress (viewBlocks tl br) (viewBlocks tl br) =
      [] :=
  List.eq_nil_iff_forall_not_mem.mpr fun _ hb =>
    ((mem_difference h h).mp hb).2 ((mem_difference h h).mp hb).1

theorem viewBlocks_nodup {tl br : Vec2i} (h : Framed tl br) : (viewBlocks tl br).Nodup :=
  (viewBlocks_sorted h.1.2 h.2.2).imp fun hlt heq => hlt.ne (congrArg _ heq)

end Player

namespace Outgoing

/-- The messages are about some of the cells. -/
def About (g : Game ℝ) (cs : List CellPtr) (ms : List (Msg ℝ)) : Prop :=
  ∀ ch ∈ ms.filterMap Msg.change, ∃ c ∈ cs, (g.heap c).id = ch.key

theorem about_nil (g : Game ℝ) (cs : List CellPtr) : About g cs [] := fun ch hch => by cases hch

theorem about_one {g : Game ℝ} {c : CellPtr} {m : Msg ℝ} {ch : Change (BitVec 32)}
    (hm : m.change = some ch) (hkey : (g.heap c).id = ch.key) : About g [c] [m] := by
  intro d hd
  rw [List.filterMap_cons_some hm, List.filterMap_nil, List.mem_singleton] at hd
  exact ⟨c, List.mem_singleton_self c, hd ▸ hkey⟩

theorem about_foldl {g : Game ℝ} {f : Outgoing ℝ → CellPtr → Outgoing ℝ}
    (h : ∀ o c, ∃ ms, Extends o (f o c) ms ∧ About g [c] ms) (cs : List CellPtr) (o : Outgoing ℝ) :
    ∃ ms, Extends o (cs.foldl f o) ms ∧ About g cs ms := by
  induction cs generalizing o with
  | nil => exact ⟨[], Extends.refl o, about_nil g []⟩
  | cons c cs ih =>
    obtain ⟨ms, hms, habout⟩ := h o c
    obtain ⟨ms', hms', habout'⟩ := ih (f o c)
    refine ⟨ms ++ ms', hms.trans hms', fun ch hch => ?_⟩
    rw [List.filterMap_append] at hch
    rcases List.mem_append.mp hch with hch | hch
    · obtain ⟨d, hd, hkey⟩ := habout ch hch
      exact ⟨d, List.mem_singleton.mp hd ▸ List.mem_cons_self, hkey⟩
    · obtain ⟨d, hd, hkey⟩ := habout' ch hch
      exact ⟨d, List.mem_cons_of_mem c hd, hkey⟩

theorem parseMove_about (g : Game ℝ) (o : Outgoing ℝ) (c : CellPtr) :
    ∃ ms, Extends o (parseMove g o c) ms ∧ About g [c] ms := by
  unfold parseMove
  split_ifs
  · exact ⟨_, extends_say o _, about_one rfl rfl⟩
  · exact ⟨[], Extends.refl o, about_nil g [c]⟩
  · exact ⟨_, (extends_setHistory o _).trans (extends_say _ _), about_one rfl rfl⟩
  · exact ⟨[], Extends.refl o, about_nil g [c]⟩

theorem parseRemoveDynamic_about (g : Game ℝ) (o : Outgoing ℝ) (c : CellPtr) :
    ∃ ms, Extends o (parseRemoveDynamic g o c) ms ∧ About g [c] ms := by
  unfold parseRemoveDynamic deleteDynamic
  split_ifs
  · exact ⟨_, (extends_setHistory o _).trans (extends_say _ _), about_one rfl rfl⟩
  · exact ⟨[], Extends.refl o, about_nil g [c]⟩
  · exact ⟨[], Extends.refl o, about_nil g [c]⟩

/-- What is said about the foods of some blocks that enter the view. -/
def added {K : Type} (g : Game K) (cs : List CellPtr) : List (Msg K) :=
  cs.map fun c => (g.heap c).addMsg

theorem change_removed (g : Game ℝ) (cs : List CellPtr) :
    (removed g cs).filterMap Msg.change =
      (cs.map Change.remove).map (Change.map fun c => (g.heap c).id) := by
  unfold removed
  rw [List.filterMap_map, List.map_map, ← List.filterMap_eq_map]
  rfl

theorem change_added (g : Game ℝ) (cs : List CellPtr) :
    (added g cs).filterMap Msg.change =
      (cs.map Change.add).map (Change.map fun c => (g.heap c).id) := by
  unfold added
  rw [List.filterMap_map, List.map_map, ← List.filterMap_eq_map]
  rfl

theorem refreshed_eq (g : Game ℝ) (p : Player ℝ) (hadd : g.cellEvents.addStatic = []) :
    ∃ ms ms', About g g.cellEvents.move ms ∧ About g g.cellEvents.removeDynamic ms' ∧
      (((Outgoing.mk p []).parseEvents g).updateBlocks g).said =
        ms ++ removed g (g.cellEvents.removeStatic.filter fun c => p.sees g c) ++ ms' ++
          blockSaid g p (p.updateView g) ∧
      (((Outgoing.mk p []).parseEvents g).updateBlocks g).player.blocks =
        (p.updateView g).blocks := by
  obtain ⟨ms, hmoves, habout⟩ := about_foldl (parseMove_about g) g.cellEvents.move ⟨p, []⟩
  generalize ho : g.cellEvents.move.foldl (parseMove g) ⟨p, []⟩ = o at hmoves
  obtain ⟨ms', hdead, habout'⟩ := about_foldl (parseRemoveDynamic_about g)
    g.cellEvents.removeDynamic
    (o.sayAll (removed g (g.cellEvents.removeStatic.filter fun c => o.player.sees g c)))
  have hparsed : (Outgoing.mk p []).parseEvents g = g.cellEvents.removeDynamic.foldl
      (parseRemoveDynamic g)
      (o.sayAll (removed g (g.cellEvents.removeStatic.filter fun c => o.player.sees g c))) := by
    unfold parseEvents
    dsimp only
    rw [hadd, List.foldl_nil, ho, parseRemoveStatics_eq]
  rw [← hparsed] at hdead
  have hsees : (fun c => o.player.sees g c) = fun c => p.sees g c := by
    funext c
    unfold Player.sees
    rw [hmoves.player]
  rw [hsees] at hdead
  have hsaid : Extends o (o.sayAll (removed g (g.cellEvents.removeStatic.filter fun c =>
      p.sees g c))) (removed g (g.cellEvents.removeStatic.filter fun c => p.sees g c)) := ⟨rfl, rfl⟩
  have hall := (hmoves.trans hsaid).trans hdead
  refine ⟨ms, ms', habout, habout', ?_, ?_⟩
  · rw [updateBlocks_eq]
    show ((Outgoing.mk p []).parseEvents g).said ++ _ = _
    rw [hall.said, hall.player]
    rfl
  · rw [updateBlocks_eq]
    show (((Outgoing.mk p []).parseEvents g).player.updateView g).blocks = _
    rw [hall.player]
    rfl

end Outgoing

/-- The cell is food that is there, or that has been eaten in this tick. -/
def Game.Food (g : Game ℝ) (c : CellPtr) : Prop :=
  c ∈ g.cellEvents.removeStatic ∨ ∃ b, c ∈ g.staticMap b

/-- An update after the commands and the filter of the history, in a tick in which some food has
been eaten. -/
structure Refresh where
  game : Game ℝ
  player : Player ℝ
  cells : player.cells ≠ []
  corners : ∃ v w : Vec2 ℝ,
    player.topLeft = indexFromCoord v ∧ player.bottomRight = indexFromCoord w
  blocks : player.blocks = Player.viewBlocks player.topLeft player.bottomRight
  /-- A food is in the block of its center. -/
  home : ∀ b, ∀ c ∈ game.staticMap b, indexFromCoord (game.heap c).position = b
  stored : ∀ b, (game.staticMap b).Nodup
  eaten : game.cellEvents.removeStatic.Nodup
  erased : ∀ c ∈ game.cellEvents.removeStatic, ∀ b, c ∉ game.staticMap b
  added : game.cellEvents.addStatic = []
  unique : Set.InjOn (fun c => (game.heap c).id) {c | game.Food c}
  apart : ∀ c ∈ game.cellEvents.move ++ game.cellEvents.removeDynamic, ∀ d, game.Food d →
    (game.heap c).id ≠ (game.heap d).id

namespace Refresh
variable (r : Refresh)

/-- After `ParseEvents` and `UpdateBlocks`. -/
noncomputable def refreshed : Outgoing ℝ :=
  ((Outgoing.mk r.player []).parseEvents r.game).updateBlocks r.game

def ids (cs : Set CellPtr) : Set (BitVec 32) := (fun c => (r.game.heap c).id) '' cs

def foods : Set CellPtr := {c | r.game.Food c}

open Classical in
/-- What the two functions tell the client of the food. -/
noncomputable def foodChanges : List (Change (BitVec 32)) :=
  (r.refreshed.said.filterMap Msg.change).filter fun ch => decide (ch.key ∈ r.ids r.foods)

/-- The food that was in the blocks before some of it was eaten. -/
def before : Set CellPtr := {c | (∃ b ∈ r.player.blocks, c ∈ r.game.staticMap b) ∨
  c ∈ r.game.cellEvents.removeStatic ∧ indexFromCoord (r.game.heap c).position ∈ r.player.blocks}

/-- The food that is in the new blocks. -/
def after : Set CellPtr := {c | ∃ b ∈ r.refreshed.player.blocks, c ∈ r.game.staticMap b}

/-- `AddBlock` for all new blocks. -/
noncomputable def resent : List (Change (BitVec 32)) :=
  (r.refreshed.player.blocks.flatMap (Outgoing.addSaid r.game)).filterMap Msg.change

/-- A client that knows the food in the old blocks knows that in the new ones afterwards, as if it
had been told of them anew. -/
structure Refreshes : Prop where
  legal : Legal (r.ids r.before) r.foodChanges
  replayed : replay (r.ids r.before) r.foodChanges = r.ids r.after
  anew : replay ∅ r.resent = r.ids r.after
  /-- Food that stays in view is not mentioned. -/
  untouched : ∀ b ∈ r.player.blocks, b ∈ r.refreshed.player.blocks →
    ∀ c ∈ r.game.staticMap b, ∀ ch ∈ r.foodChanges, ch.key ≠ (r.game.heap c).id

noncomputable def newBlocks : List Vec2i := (r.player.updateView r.game).blocks

/-- The food that was eaten in view. -/
noncomputable def lost : List CellPtr :=
  r.game.cellEvents.removeStatic.filter fun c => r.player.sees r.game c

/-- The food in the blocks that leave the view. -/
noncomputable def left : List CellPtr :=
  (SortedDifference.setDifference Outgoing.blockAddress r.player.blocks r.newBlocks).flatMap
    r.game.staticMap

/-- The food in the blocks that enter the view. -/
noncomputable def entered : List CellPtr :=
  (SortedDifference.setDifference Outgoing.blockAddress r.newBlocks r.player.blocks).flatMap
    r.game.staticMap

/-- What is told of the food, by the cells. -/
noncomputable def cellChanges : List (Change CellPtr) :=
  r.lost.map .remove ++ r.left.map .remove ++ r.entered.map .add

theorem framed : Player.Framed r.player.topLeft r.player.bottomRight := by
  obtain ⟨v, w, htop, hbottom⟩ := r.corners
  rw [htop, hbottom]
  exact Player.framed_of_coords v w

theorem newBlocks_framed : Player.Framed (r.player.updateView r.game).topLeft
    (r.player.updateView r.game).bottomRight := Player.updateView_framed r.game r.player

theorem blockSaid_eq : Outgoing.blockSaid r.game r.player (r.player.updateView r.game) =
    Outgoing.removed r.game r.left ++ Outgoing.added r.game r.entered := by
  have hleft : Outgoing.removed r.game r.left = (SortedDifference.setDifference
      Outgoing.blockAddress r.player.blocks r.newBlocks).flatMap (Outgoing.removeSaid r.game) :=
    List.map_flatMap
  have hentered : Outgoing.added r.game r.entered = (SortedDifference.setDifference
      Outgoing.blockAddress r.newBlocks r.player.blocks).flatMap (Outgoing.addSaid r.game) :=
    List.map_flatMap
  rw [hleft, hentered]
  unfold Outgoing.blockSaid
  split_ifs with hmoved
  · rfl
  · -- the view is the old one, and so are the blocks
    rw [not_or, not_not, not_not] at hmoved
    have hsame : r.newBlocks = r.player.blocks := by
      rw [r.blocks, hmoved.1, hmoved.2]
      rfl
    rw [hsame, r.blocks, Player.difference_self r.framed]
    rfl

theorem foodChanges_eq :
    r.foodChanges = r.cellChanges.map (Change.map fun c => (r.game.heap c).id) := by
  classical
  obtain ⟨ms, ms', hmoves, hdead, hsaid, -⟩ := Outgoing.refreshed_eq r.game r.player r.added
  have hother : ∀ (cs : List CellPtr) ms, Outgoing.About r.game cs ms →
      cs ⊆ r.game.cellEvents.move ++ r.game.cellEvents.removeDynamic →
      (ms.filterMap Msg.change).filter (fun ch => decide (ch.key ∈ r.ids r.foods)) = [] := by
    intro cs ms habout hsub
    refine List.filter_eq_nil_iff.mpr fun ch hch hfood => ?_
    obtain ⟨c, hc, hkey⟩ := habout ch hch
    obtain ⟨d, hd, hid⟩ := of_decide_eq_true hfood
    exact r.apart c (hsub hc) d hd (hkey.trans hid.symm)
  have hfood : ∀ (cs : List CellPtr) (mk : CellPtr → Change CellPtr), (∀ c, (mk c).key = c) →
      (∀ c ∈ cs, c ∈ r.foods) →
      ((cs.map mk).map (Change.map fun c => (r.game.heap c).id)).filter
        (fun ch => decide (ch.key ∈ r.ids r.foods)) =
      (cs.map mk).map (Change.map fun c => (r.game.heap c).id) := by
    intro cs mk hmk hcs
    refine List.filter_eq_self.mpr fun ch hch => ?_
    obtain ⟨ch', hch', rfl⟩ := List.mem_map.mp hch
    obtain ⟨c, hc, rfl⟩ := List.mem_map.mp hch'
    refine decide_eq_true ⟨c, hcs c hc, ?_⟩
    have hkey := hmk c
    rcases hm : mk c with k | k | k <;> rw [hm] at hkey <;> rw [← hkey] <;> rfl
  have hstored : ∀ (bs : List Vec2i), ∀ c ∈ bs.flatMap r.game.staticMap, c ∈ r.foods := by
    intro bs c hc
    obtain ⟨b, -, hb⟩ := List.mem_flatMap.mp hc
    exact Or.inr ⟨b, hb⟩
  have hlost : ∀ c ∈ r.lost, c ∈ r.foods := fun c hc => Or.inl (List.mem_of_mem_filter hc)
  unfold foodChanges refreshed cellChanges
  rw [hsaid, r.blockSaid_eq, show r.game.cellEvents.removeStatic.filter _ = r.lost from rfl]
  simp only [List.filterMap_append, List.filter_append, List.map_append]
  rw [hother _ ms hmoves (List.subset_append_left _ _),
    hother _ ms' hdead (List.subset_append_right _ _), Outgoing.change_removed,
    Outgoing.change_removed, Outgoing.change_added, hfood r.lost _ (fun _ => rfl) hlost,
    hfood r.left _ (fun _ => rfl) (hstored _), hfood r.entered _ (fun _ => rfl) (hstored _),
    List.nil_append, List.append_nil, List.append_assoc]

theorem refreshed_blocks : r.refreshed.player.blocks = r.newBlocks := by
  obtain ⟨ms, ms', -, -, -, hblocks⟩ := Outgoing.refreshed_eq r.game r.player r.added
  exact hblocks

theorem sees_iff (c : CellPtr) : r.player.sees r.game c = true ↔
    indexFromCoord (r.game.heap c).position ∈ r.player.blocks := by
  rw [r.blocks, Player.mem_viewBlocks]
  unfold Player.sees inside
  dsimp only
  split_ifs with h
  · simp only [Option.isSome_some, true_iff]
    omega
  · simp only [Option.isSome_none, Bool.false_eq_true, false_iff]
    omega

theorem mem_lost {c : CellPtr} : c ∈ r.lost ↔ c ∈ r.game.cellEvents.removeStatic ∧
    indexFromCoord (r.game.heap c).position ∈ r.player.blocks := by
  unfold lost
  rw [List.mem_filter, r.sees_iff]

theorem mem_left {c : CellPtr} : c ∈ r.left ↔
    ∃ b, (b ∈ r.player.blocks ∧ b ∉ r.newBlocks) ∧ c ∈ r.game.staticMap b := by
  unfold left
  simp only [List.mem_flatMap, r.blocks, newBlocks]
  exact exists_congr fun b =>
    and_congr_left' (Player.mem_difference r.framed r.newBlocks_framed)

theorem mem_entered {c : CellPtr} : c ∈ r.entered ↔
    ∃ b, (b ∈ r.newBlocks ∧ b ∉ r.player.blocks) ∧ c ∈ r.game.staticMap b := by
  unfold entered
  simp only [List.mem_flatMap, r.blocks, newBlocks]
  exact exists_congr fun b =>
    and_congr_left' (Player.mem_difference r.newBlocks_framed r.framed)

theorem flatMap_nodup {bs : List Vec2i} (h : bs.Nodup) : (bs.flatMap r.game.staticMap).Nodup := by
  refine List.nodup_flatMap.mpr ⟨fun b _ => r.stored b, h.imp fun {b b'} hne c hc hc' => ?_⟩
  exact hne ((r.home b c hc).symm.trans (r.home b' c hc'))

theorem mem_after {c : CellPtr} : c ∈ r.after ↔ ∃ b ∈ r.newBlocks, c ∈ r.game.staticMap b := by
  unfold after
  rw [r.refreshed_blocks]
  exact Iff.rfl

theorem replay_cellChanges : replay r.before r.cellChanges = r.after := by
  refine Set.ext fun c => ?_
  rw [mem_after, cellChanges, replay_append, replay_append, mem_replay_adds, mem_replay_removes,
    mem_replay_removes, mem_lost, mem_left, mem_entered]
  constructor
  · rintro (⟨⟨hold | ⟨heaten, hblock⟩, hlost⟩, hleft⟩ | ⟨b, ⟨hb, -⟩, hc⟩)
    · obtain ⟨b, hb, hc⟩ := hold
      refine ⟨b, ?_, hc⟩
      by_contra hnew
      exact hleft ⟨b, ⟨hb, hnew⟩, hc⟩
    · exact absurd ⟨heaten, hblock⟩ hlost
    · exact ⟨b, hb, hc⟩
  · rintro ⟨b, hb, hc⟩
    by_cases hold : b ∈ r.player.blocks
    · refine Or.inl ⟨⟨Or.inl ⟨b, hold, hc⟩, fun h => r.erased c h.1 b hc⟩, ?_⟩
      rintro ⟨b', ⟨-, hnew⟩, hc'⟩
      rw [← r.home b' c hc', r.home b c hc] at hnew
      exact hnew hb
    · exact Or.inr ⟨b, ⟨hb, hold⟩, hc⟩

theorem legal_cellChanges : Legal r.before r.cellChanges := by
  unfold cellChanges
  rw [legal_append, legal_append]
  refine ⟨⟨legal_removes (r.eaten.filter _) fun c hc => Or.inr (r.mem_lost.mp hc), ?_⟩, ?_⟩
  · refine legal_removes (r.flatMap_nodup ?_) fun c hc => ?_
    · rw [r.blocks]
      exact SortedDifference.setDifference_nodup (Player.viewBlocks_nodup r.framed)
    · obtain ⟨b, ⟨hb, -⟩, hcb⟩ := r.mem_left.mp hc
      exact mem_replay_removes.mpr ⟨Or.inl ⟨b, hb, hcb⟩, fun h =>
        r.erased c (r.mem_lost.mp h).1 b hcb⟩
  · refine legal_adds (r.flatMap_nodup ?_) fun c hc hknown => ?_
    · exact SortedDifference.setDifference_nodup (Player.viewBlocks_nodup r.newBlocks_framed)
    · obtain ⟨b, ⟨-, hb⟩, hcb⟩ := r.mem_entered.mp hc
      rw [replay_append, mem_replay_removes, mem_replay_removes] at hknown
      rcases hknown.1.1 with ⟨b', hb', hcb'⟩ | ⟨heaten, -⟩
      · rw [← r.home b' c hcb', r.home b c hcb] at hb'
        exact hb hb'
      · exact r.erased c heaten b hcb

theorem before_foods : r.before ⊆ r.foods := by
  rintro c (⟨b, -, hc⟩ | ⟨hc, -⟩)
  · exact Or.inr ⟨b, hc⟩
  · exact Or.inl hc

theorem cellChanges_foods : ∀ ch ∈ r.cellChanges, ch.key ∈ r.foods := by
  intro ch hch
  unfold cellChanges at hch
  rcases List.mem_append.mp hch with hch | hch
  · rcases List.mem_append.mp hch with hch | hch
    · obtain ⟨c, hc, rfl⟩ := List.mem_map.mp hch
      exact Or.inl (r.mem_lost.mp hc).1
    · obtain ⟨c, hc, rfl⟩ := List.mem_map.mp hch
      obtain ⟨b, -, hb⟩ := r.mem_left.mp hc
      exact Or.inr ⟨b, hb⟩
  · obtain ⟨c, hc, rfl⟩ := List.mem_map.mp hch
    obtain ⟨b, -, hb⟩ := r.mem_entered.mp hc
    exact Or.inr ⟨b, hb⟩

theorem replay_resent : replay ∅ r.resent = r.ids r.after := by
  have hresent : r.resent = ((r.newBlocks.flatMap r.game.staticMap).map Change.add).map
      (Change.map fun c => (r.game.heap c).id) := by
    rw [← Outgoing.change_added, resent, r.refreshed_blocks]
    exact congrArg (List.filterMap Msg.change) List.map_flatMap.symm
  have hempty : (∅ : Set (BitVec 32)) = (fun c => (r.game.heap c).id) '' ∅ :=
    (Set.image_empty _).symm
  rw [hresent, hempty, replay_map r.unique (Set.empty_subset _) fun ch hch => ?_]
  · refine congrArg r.ids (Set.ext fun c => ?_)
    rw [mem_replay_adds, mem_after, List.mem_flatMap]
    exact or_iff_right (Set.notMem_empty c)
  · obtain ⟨c, hc, rfl⟩ := List.mem_map.mp hch
    obtain ⟨b, -, hb⟩ := List.mem_flatMap.mp hc
    exact Or.inr ⟨b, hb⟩

/-- The incremental update of the blocks does what sending all new blocks would do. -/
theorem refreshes : r.Refreshes where
  legal := by
    rw [r.foodChanges_eq]
    exact (legal_map r.unique r.before_foods r.cellChanges_foods).mpr r.legal_cellChanges
  replayed := by
    rw [r.foodChanges_eq]
    exact (replay_map r.unique r.before_foods r.cellChanges_foods).trans
      (congrArg r.ids r.replay_cellChanges)
  anew := r.replay_resent
  untouched := by
    intro b hb hb' c hc ch hch hkey
    rw [r.refreshed_blocks] at hb'
    rw [r.foodChanges_eq] at hch
    obtain ⟨ch', hch', rfl⟩ := List.mem_map.mp hch
    have hcell : ch'.key = c := by
      refine r.unique (r.cellChanges_foods ch' hch') (Or.inr ⟨b, hc⟩) (Eq.trans ?_ hkey)
      cases ch' <;> rfl
    -- a food that is there was not eaten, and its block neither leaves nor enters
    unfold cellChanges at hch'
    rcases List.mem_append.mp hch' with hch' | hch'
    · rcases List.mem_append.mp hch' with hch' | hch'
      · obtain ⟨d, hd, rfl⟩ := List.mem_map.mp hch'
        obtain rfl : d = c := hcell
        exact r.erased d (r.mem_lost.mp hd).1 b hc
      · obtain ⟨d, hd, rfl⟩ := List.mem_map.mp hch'
        obtain rfl : d = c := hcell
        obtain ⟨b', ⟨-, hnew⟩, hd'⟩ := r.mem_left.mp hd
        rw [← r.home b' d hd', r.home b d hc] at hnew
        exact hnew hb'
    · obtain ⟨d, hd, rfl⟩ := List.mem_map.mp hch'
      obtain rfl : d = c := hcell
      obtain ⟨b', ⟨-, hold⟩, hd'⟩ := r.mem_entered.mp hd
      rw [← r.home b' d hd', r.home b d hc] at hold
      exact hold hb

end Refresh

/-- Of two pieces of food in one block one has been eaten. -/
def halfEaten (K : Type) [Field K] [LinearOrder K] [FloorRing K] : Game K :=
  { Game.empty (fun _ => 0) fun _ => 0 with
    allocated := 3
    heap := fun p => { readyCell K p with flag := if p = 0 then playerFlag else foodFlag }
    staticMap := fun b => if b = indexFromCoord (0 : Vec2 K) then [1] else []
    cellEvents := { move := [0], removeStatic := [2] }
    players := [{ fourfold K with cells := [0] }] }

theorem halfEaten_static {b : Vec2i} {c : CellPtr} (h : c ∈ (halfEaten ℝ).staticMap b) :
    c = 1 ∧ indexFromCoord (0 : Vec2 ℝ) = b := by
  have hc : c ∈ (if b = indexFromCoord (0 : Vec2 ℝ) then [1] else []) := h
  split_ifs at hc with hb
  · exact ⟨List.mem_singleton.mp hc, hb.symm⟩
  · cases hc

theorem halfEaten_food {c : CellPtr} (h : (halfEaten ℝ).Food c) : c = 1 ∨ c = 2 := by
  rcases h with h | ⟨b, h⟩
  · exact Or.inr (List.mem_singleton.mp h)
  · exact Or.inl (halfEaten_static h).1

/-- The block is all that the player has in view. -/
noncomputable def nearSighted : Refresh where
  game := halfEaten ℝ
  player := { fourfold ℝ with
    cells := [0]
    topLeft := indexFromCoord (0 : Vec2 ℝ)
    bottomRight := indexFromCoord (0 : Vec2 ℝ)
    blocks := Player.viewBlocks (indexFromCoord (0 : Vec2 ℝ)) (indexFromCoord (0 : Vec2 ℝ)) }
  cells := List.cons_ne_nil _ _
  corners := ⟨0, 0, rfl, rfl⟩
  blocks := rfl
  home := fun _ _ hc => (halfEaten_static hc).2
  stored := fun b => by
    show (if b = indexFromCoord (0 : Vec2 ℝ) then [1] else []).Nodup
    split_ifs
    · exact List.nodup_singleton 1
    · exact List.nodup_nil
  eaten := List.nodup_singleton 2
  erased := fun c hc b hmem => by
    rw [List.mem_singleton.mp hc] at hmem
    exact absurd (halfEaten_static hmem).1 (by decide)
  added := rfl
  unique := by
    intro c hc d hd hid
    have hid' : BitVec.ofNat 32 c = BitVec.ofNat 32 d := hid
    rcases halfEaten_food hc with rfl | rfl <;> rcases halfEaten_food hd with rfl | rfl <;>
      first | rfl | exact absurd hid' (by decide)
  apart := by
    intro c hc d hd hid
    obtain rfl := List.mem_singleton.mp hc
    have hid' : BitVec.ofNat 32 0 = BitVec.ofNat 32 d := hid
    rcases halfEaten_food hd with rfl | rfl <;> exact absurd hid' (by decide)

theorem near_sighted_refreshed : nearSighted.Refreshes := nearSighted.refreshes

end Agar
