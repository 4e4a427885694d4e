import Agar.Reach

/-! The history of a player: what one update makes of it and the messages it says on the way. -/

namespace Agar

section Views
variable {K : Type} [Field K] [LinearOrder K] [FloorRing K]

/-- The center of the cell is in the view: `Map::Inside`. -/
def Player.sees (g : Game K) (p : Player K) (c : CellPtr) : Bool :=
  (inside (g.heap c).position p.topLeft p.bottomRight).isSome

/-- The cell reaches into the view: `Map::EdgeInside`. -/
def Player.touches (g : Game K) (p : Player K) (c : CellPtr) : Bool :=
  (edgeInside (g.heap c) p.topLeft p.bottomRight).isSome

end Views

theorem index_bounds {x : ℝ} (h0 : 0 ≤ x) (h1 : x < (mapSize : ℝ)) :
    ((min (trunc (max x 0)) ((mapSize : ℤ) - 1) / (blockSize : ℤ) : ℤ) : ℝ) ≤ x / (blockSize : ℝ) ∧
    x / (blockSize : ℝ) <
      ((min (trunc (max x 0)) ((mapSize : ℤ) - 1) / (blockSize : ℤ) : ℤ) : ℝ) + 1 := by
  have htrunc : trunc (max x 0) = ⌊x⌋ := by
    rw [max_eq_left h0]
    exact if_pos h0
  have hfloor : ⌊x⌋ < (mapSize : ℤ) := by
    rw [Int.floor_lt]
    exact_mod_cast h1
  rw [htrunc, min_eq_left (by omega)]
  have hle := Int.floor_le x
  have hlt := Int.lt_floor_add_one x
  have hdiv := Int.mul_ediv_add_emod ⌊x⌋ (blockSize : ℤ)
  have hmod := Int.emod_nonneg ⌊x⌋ (b := (blockSize : ℤ)) (by decide)
  have hmod' := Int.emod_lt_of_pos ⌊x⌋ (b := (blockSize : ℤ)) (by decide)
  have hsize : (0 : ℝ) < (blockSize : ℝ) := by norm_num [blockSize]
  constructor
  · rw [le_div_iff₀ hsize]
    have hcast : ((⌊x⌋ / (blockSize : ℤ) * (blockSize : ℤ) : ℤ) : ℝ) ≤ (⌊x⌋ : ℝ) := by
      exact_mod_cast (by linarith : ⌊x⌋ / (blockSize : ℤ) * (blockSize : ℤ) ≤ ⌊x⌋)
    push_cast at hcast
    linarith
  · rw [div_lt_iff₀ hsize]
    have hcast : ((⌊x⌋ + 1 : ℤ) : ℝ) ≤
        (((⌊x⌋ / (blockSize : ℤ) + 1) * (blockSize : ℤ) : ℤ) : ℝ) := by
      exact_mod_cast (by linarith : ⌊x⌋ + 1 ≤ (⌊x⌋ / (blockSize : ℤ) + 1) * (blockSize : ℤ))
    push_cast at hcast
    linarith

theorem edgeInside_of_inside {c : Cell ℝ} (hx : 0 ≤ c.position.x ∧ c.position.x < (mapSize : ℝ))
    (hy : 0 ≤ c.position.y ∧ c.position.y < (mapSize : ℝ)) (hradius : 0 ≤ c.radius)
    {start stop b : Vec2i} (h : inside c.position start stop = some b) :
    edgeInside c start stop = some b := by
  obtain ⟨hlx, hux⟩ := index_bounds hx.1 hx.2
  obtain ⟨hly, huy⟩ := index_bounds hy.1 hy.2
  have hr : 0 ≤ c.radius / (blockSize : ℝ) := div_nonneg hradius (Nat.cast_nonneg _)
  unfold inside at h
  dsimp only [indexFromCoord] at h
  split_ifs at h with hin
  obtain ⟨h1, h2, h3, h4⟩ := hin
  have h1' := Int.cast_le (R := ℝ).mpr h1
  have h2' := Int.cast_le (R := ℝ).mpr h2
  have h3' := Int.cast_le (R := ℝ).mpr h3
  have h4' := Int.cast_le (R := ℝ).mpr h4
  unfold edgeInside
  dsimp only [Vec2.div_x, Vec2.div_y]
  rw [if_pos]
  · exact h
  · push_cast
    exact ⟨by linarith, by linarith, by linarith, by linarith⟩

theorem Player.touches_of_sees {g : Game ℝ} {p : Player ℝ} {c : CellPtr}
    (hmap : OnMap (g.heap c).position) (hradius : 0 ≤ (g.heap c).radius) (h : p.sees g c = true) :
    p.touches g c = true := by
  obtain ⟨hx, hx', hy, hy'⟩ := hmap
  obtain ⟨b, hb⟩ := Option.isSome_iff_exists.mp h
  have hedge := edgeInside_of_inside ⟨hx, by linarith⟩ ⟨hy, by linarith⟩ hradius hb
  unfold touches
  rw [hedge]
  rfl

namespace Outgoing
variable {K : Type}

@[simp] theorem setHistory_setHistory (o : Outgoing K) (history history' : List CellPtr) :
    (o.setHistory history).setHistory history' = o.setHistory history' := rfl

@[simp] theorem setHistory_self (o : Outgoing K) : o.setHistory o.player.cellHistory = o := rfl

variable [Field K] [LinearOrder K] [FloorRing K]

theorem setHistory_sayAll (o : Outgoing K) (history : List CellPtr) (ms : List (Msg K)) :
    (o.sayAll ms).setHistory history = (o.setHistory history).sayAll ms := rfl

def removed (g : Game K) (cs : List CellPtr) : List (Msg K) :=
  cs.map fun c => .removeCell (g.heap c).id

theorem filterHistoryFrom_eq (g : Game K) (o : Outgoing K) (kept rest : List CellPtr) :
    o.filterHistoryFrom g kept rest =
      (o.setHistory (kept ++ rest.filter fun c => o.player.sees g c)).sayAll
        (removed g (rest.filter fun c => !o.player.sees g c)) := by
  induction rest generalizing o kept with
  | nil => simp [filterHistoryFrom, removed]
  | cons c rest ih =>
    rw [filterHistoryFrom]
    by_cases h : o.player.sees g c = true
    · have hin : ¬ (inside (g.heap c).position o.player.topLeft o.player.bottomRight).isNone := by
        simpa [Player.sees, Option.isSome_iff_ne_none] using h
      rw [if_neg hin, ih, List.filter_cons_of_pos h, List.filter_cons_of_neg (by simpa using h),
        List.append_assoc]
      rfl
    · have hout : (inside (g.heap c).position o.player.topLeft o.player.bottomRight).isNone := by
        simpa [Player.sees] using h
      rw [if_pos hout, ih, List.filter_cons_of_neg h, List.filter_cons_of_pos (by simpa using h),
        say_eq]
      show ((o.sayAll [_]).setHistory _).sayAll _ = _
      rw [setHistory_sayAll, ← sayAll_append]
      rfl

theorem filterHistory_eq (g : Game K) (o : Outgoing K) :
    o.filterHistory g =
      (o.setHistory (o.player.cellHistory.filter fun c => o.player.sees g c)).sayAll
        (removed g (o.player.cellHistory.filter fun c => !o.player.sees g c)) :=
  filterHistoryFrom_eq g o [] o.player.cellHistory

/-- What is said about a cell that has moved. -/
def moveSaid (g : Game K) (p : Player K) (c : CellPtr) : List (Msg K) :=
  if p.touches g c then
    if c ∈ p.cellHistory then
      if (g.heap c).flag.isPlayer || (g.heap c).velocity.nonzero then [(g.heap c).moveMsg] else []
    else [(g.heap c).addMsg]
  else []

/-- The cells that have moved and are new to the player. -/
def enters (g : Game K) (p : Player K) (c : CellPtr) : Bool :=
  p.touches g c && decide (c ∉ p.cellHistory)

theorem said_congr {g : Game K} {p p' : Player K} {c : CellPtr}
    (hview : p'.topLeft = p.topLeft ∧ p'.bottomRight = p.bottomRight)
    (hmem : c ∈ p'.cellHistory ↔ c ∈ p.cellHistory) :
    enters g p' c = enters g p c ∧ moveSaid g p' c = moveSaid g p c := by
  have htouches : p'.touches g c = p.touches g c := by
    simp only [Player.touches, hview.1, hview.2]
  simp only [enters, moveSaid, htouches, hmem, and_self]

theorem parseMove_eq (g : Game K) (o : Outgoing K) (c : CellPtr) :
    o.parseMove g c = (o.setHistory (o.player.cellHistory ++
      [c].filter fun c => enters g o.player c)).sayAll (moveSaid g o.player c) := by
  unfold parseMove moveSaid enters
  rw [show (edgeInside (g.heap c) o.player.topLeft o.player.bottomRight).isSome =
    o.player.touches g c from rfl]
  by_cases ht : o.player.touches g c = true
  · by_cases hc : c ∈ o.player.cellHistory
    · simp only [ht, hc, if_true, not_true_eq_false, decide_false, Bool.and_false,
        List.filter_cons_of_neg, Bool.false_eq_true, not_false_eq_true, List.filter_nil,
        List.append_nil, setHistory_self]
      split_ifs
      · rfl
      · exact (sayAll_nil o).symm
    · simp only [ht, hc, if_true, if_false, not_false_eq_true, decide_true, Bool.and_true,
        List.filter_cons_of_pos, List.filter_nil]
      rfl
  · simp [ht]

theorem parseMoves_eq (g : Game K) (o : Outgoing K) {moves : List CellPtr} (h : moves.Nodup) :
    moves.foldl (parseMove g) o =
      (o.setHistory (o.player.cellHistory ++ moves.filter fun c => enters g o.player c)).sayAll
        (moves.flatMap (moveSaid g o.player)) := by
  induction moves generalizing o with
  | nil => simp
  | cons c moves ih =>
    obtain ⟨hc, hmoves⟩ := List.nodup_cons.mp h
    rw [List.foldl_cons, ih _ hmoves]
    have hmem : ∀ d ∈ moves, (d ∈ o.player.cellHistory ++ [c].filter (fun c => enters g o.player c)
        ↔ d ∈ o.player.cellHistory) := by
      intro d hd
      rw [List.mem_append]
      refine or_iff_left fun hdc => hc ?_
      have heq := List.mem_singleton.mp (List.mem_of_mem_filter hdc)
      exact heq ▸ hd
    have hcongr : ∀ d ∈ moves, enters g (o.parseMove g c).player d = enters g o.player d ∧
        moveSaid g (o.parseMove g c).player d = moveSaid g o.player d := fun d hd =>
      said_congr (by rw [parseMove_eq]; exact ⟨rfl, rfl⟩) (by rw [parseMove_eq]; exact hmem d hd)
    rw [List.filter_congr fun d hd => (hcongr d hd).1,
      List.flatMap_congr fun d hd => (hcongr d hd).2, parseMove_eq]
    rw [setHistory_sayAll, ← sayAll_append, setHistory_setHistory]
    congr 2
    show (o.player.cellHistory ++ _) ++ _ = _
    rw [List.append_assoc, ← List.filter_append]
    rfl

theorem parseRemoveStatics_eq (g : Game K) (o : Outgoing K) (cs : List CellPtr) :
    cs.foldl (parseRemoveStatic g) o =
      o.sayAll (removed g (cs.filter fun c => o.player.sees g c)) := by
  induction cs generalizing o with
  | nil => simp [removed]
  | cons c cs ih =>
    rw [List.foldl_cons, ih]
    unfold parseRemoveStatic
    by_cases h : o.player.sees g c = true
    · have hin : (inside (g.heap c).position o.player.topLeft o.player.bottomRight).isSome := h
      rw [if_pos hin, List.filter_cons_of_pos h, say_eq, ← sayAll_append]
      rfl
    · have hout : ¬ (inside (g.heap c).position o.player.topLeft o.player.bottomRight).isSome := h
      rw [if_neg hout, List.filter_cons_of_neg h]

/-- The cells that leave a history because they died. -/
structure Deleted (g : Game K) (p : Player K) (cs ds : List CellPtr) : Prop where
  nodup : ds.Nodup
  mem : ∀ c, c ∈ ds ↔ c ∈ cs ∧ p.touches g c = true ∧ c ∈ p.cellHistory

theorem parseRemoveDynamics_eq (g : Game K) (o : Outgoing K) (cs : List CellPtr)
    (h : o.player.cellHistory.Nodup) : ∃ ds, Deleted g o.player cs ds ∧
      cs.foldl (parseRemoveDynamic g) o =
        (o.setHistory (o.player.cellHistory.filter (· ∉ ds))).sayAll (removed g ds) := by
  induction cs generalizing o with
  | nil => exact ⟨[], ⟨List.nodup_nil, by simp⟩, by simp [removed]⟩
  | cons c cs ih =>
    rw [List.foldl_cons]
    by_cases hdrop : o.player.touches g c = true ∧ c ∈ o.player.cellHistory
    · have hstep : o.parseRemoveDynamic g c =
          (o.setHistory (o.player.cellHistory.erase c)).sayAll (removed g [c]) := by
        unfold parseRemoveDynamic deleteDynamic
        rw [if_pos (by exact hdrop.1), if_pos hdrop.2]
        rfl
      obtain ⟨ds, hds, heq⟩ := ih ((o.setHistory (o.player.cellHistory.erase c)).sayAll
        (removed g [c])) (h.erase c)
      have hmem : ∀ d, d ∈ ds ↔ d ∈ cs ∧ o.player.touches g d = true ∧
          (d ≠ c ∧ d ∈ o.player.cellHistory) := fun d => by
        rw [hds.mem d, ← h.mem_erase_iff]
        rfl
      refine ⟨c :: ds, ⟨List.nodup_cons.mpr ⟨fun hc => ?_, hds.nodup⟩, fun d => ?_⟩, ?_⟩
      · exact ((hmem c).mp hc).2.2.1 rfl
      · rw [List.mem_cons, List.mem_cons, hmem d]
        constructor
        · rintro (rfl | ⟨h1, h2, -, h3⟩)
          · exact ⟨Or.inl rfl, hdrop⟩
          · exact ⟨Or.inr h1, h2, h3⟩
        · rintro ⟨h1, h2, h3⟩
          by_cases hdc : d = c
          · exact Or.inl hdc
          · exact Or.inr ⟨h1.resolve_left hdc, h2, hdc, h3⟩
      · rw [hstep, heq, setHistory_sayAll, ← sayAll_append, setHistory_setHistory]
        congr 2
        show (o.player.cellHistory.erase c).filter _ = _
        rw [h.erase_eq_filter, List.filter_filter]
        refine List.filter_congr fun d _ => ?_
        by_cases hdc : d = c <;> simp [hdc]
    · have hstep : o.parseRemoveDynamic g c = o := by
        unfold parseRemoveDynamic deleteDynamic
        split_ifs with h1 h2
        · exact absurd ⟨h1, h2⟩ hdrop
        · rfl
        · rfl
      obtain ⟨ds, hds, heq⟩ := ih o h
      refine ⟨ds, ⟨hds.nodup, fun d => ?_⟩, by rw [hstep, heq]⟩
      rw [hds.mem d, List.mem_cons]
      constructor
      · exact fun ⟨h1, h2⟩ => ⟨Or.inr h1, h2⟩
      · rintro ⟨rfl | h1, h2⟩
        · exact absurd h2 hdrop
        · exact ⟨h1, h2⟩

end Outgoing

section Parsed
variable {K : Type} [Field K] [LinearOrder K] [FloorRing K]

namespace Player

/-- The history after the filter at the start of an update. -/
def kept (g : Game K) (p : Player K) : List CellPtr := p.cellHistory.filter fun c => p.sees g c

def filtered (g : Game K) (p : Player K) : Player K := { p with cellHistory := p.kept g }

/-- The history after the `CELL_MOVE` events. -/
def known (g : Game K) (p : Player K) : List CellPtr :=
  p.kept g ++ g.cellEvents.move.filter fun c => Outgoing.enters g (p.filtered g) c

def informed (g : Game K) (p : Player K) : Player K := { p with cellHistory := p.known g }

theorem known_nodup {g : Game K} {p : Player K} (hhistory : p.cellHistory.Nodup)
    (hmove : g.cellEvents.move.Nodup) : (p.known g).Nodup := by
  refine List.nodup_append.mpr ⟨hhistory.filter _, hmove.filter _, ?_⟩
  rintro c hc d hd rfl
  have henters := (List.mem_filter.mp hd).2
  simp only [Outgoing.enters, Bool.and_eq_true, decide_eq_true_eq] at henters
  exact henters.2 hc

theorem mem_known {g : Game K} {p : Player K} {c : CellPtr} :
    c ∈ p.known g ↔ (c ∈ p.cellHistory ∧ p.sees g c = true) ∨
      (c ∈ g.cellEvents.move ∧ p.touches g c = true ∧ c ∉ p.kept g) := by
  have htouches : (p.filtered g).touches g c = p.touches g c := rfl
  simp only [known, Outgoing.enters, List.mem_append, List.mem_filter, Bool.and_eq_true,
    decide_eq_true_eq, htouches]
  exact or_congr List.mem_filter Iff.rfl

end Player

namespace Outgoing

/-- The messages of the history filter and of `ParseEvents`, where `ds` are the dead cells. -/
def parseSaid (g : Game K) (p : Player K) (ds : List CellPtr) : List (Msg K) :=
  removed g (p.cellHistory.filter fun c => !p.sees g c) ++
    g.cellEvents.move.flatMap (moveSaid g (p.filtered g)) ++
    removed g (g.cellEvents.removeStatic.filter fun c => p.sees g c) ++ removed g ds

theorem parsed_eq {g : Game K} {o : Outgoing K} (hhistory : o.player.cellHistory.Nodup)
    (hmove : g.cellEvents.move.Nodup) (hadd : g.cellEvents.addStatic = []) :
    ∃ ds, Deleted g (o.player.informed g) g.cellEvents.removeDynamic ds ∧
      (o.filterHistory g).parseEvents g =
        (o.setHistory ((o.player.known g).filter (· ∉ ds))).sayAll (parseSaid g o.player ds) := by
  have hnodup := Player.known_nodup hhistory hmove
  let moved : Outgoing K := ((o.setHistory (o.player.known g)).sayAll
    (removed g (o.player.cellHistory.filter fun c => !o.player.sees g c) ++
      g.cellEvents.move.flatMap (moveSaid g (o.player.filtered g)) ++
      removed g (g.cellEvents.removeStatic.filter fun c => o.player.sees g c)))
  obtain ⟨ds, hds, heq⟩ := parseRemoveDynamics_eq g moved g.cellEvents.removeDynamic hnodup
  refine ⟨ds, ⟨hds.nodup, hds.mem⟩, ?_⟩
  have hmoved : (g.cellEvents.addStatic.foldl (parseAddStatic g)
      (g.cellEvents.move.foldl (parseMove g) (o.filterHistory g))) =
      (o.setHistory (o.player.known g)).sayAll
        (removed g (o.player.cellHistory.filter fun c => !o.player.sees g c) ++
          g.cellEvents.move.flatMap (moveSaid g (o.player.filtered g))) := by
    rw [hadd, List.foldl_nil, parseMoves_eq g _ hmove, filterHistory_eq, setHistory_sayAll,
      ← sayAll_append]
    rfl
  unfold parseEvents
  dsimp only
  rw [hmoved, parseRemoveStatics_eq, ← sayAll_append]
  refine heq.trans ?_
  rw [setHistory_sayAll, ← sayAll_append]
  rfl

end Outgoing

end Parsed

end Agar
