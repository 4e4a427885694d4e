import Agar.Charts
import Agar.WireFormat
import Agar.Lib.Picture

/-! The client of a player as a picture of the cells, and what the messages of one update report:
the script of the update, cell by cell. -/

namespace Agar
open Mirror Picture

/-- What a client shows of a cell, as bit patterns. -/
structure Face where
  x : BitVec 32
  y : BitVec 32
  radius : BitVec 32
  color : BitVec 32
  flag : Byte
  deriving DecidableEq

/-- What a client that reads the messages makes of one. The flag comes with `AddCell` alone. -/
def Wire.report : Wire → Option (Report (BitVec 32) Face)
  | .addCell id x y radius color flag => some (.add id ⟨x, y, radius, color, flag⟩)
  | .removeCell id => some (.remove id)
  | .moveCell id x y radius color => some (.move id fun face => ⟨x, y, radius, color, face.flag⟩)
  | .position _ _ => none

section Floats
variable {K : Type} [Field K] [LinearOrder K] [FloorRing K]

def Msg.report (m : Msg K) : Option (Report (BitVec 32) Face) := m.wire.report

/-- What a client that has just been told of the cell shows of it. -/
def Cell.face (c : Cell K) : Face :=
  ⟨floatBits c.position.x, floatBits c.position.y, floatBits c.radius, c.color, c.flag.byte⟩

theorem Msg.report_change (ms : List (Msg K)) :
    (ms.filterMap Msg.report).map Report.change = ms.filterMap Msg.change := by
  rw [List.map_filterMap]
  refine List.filterMap_congr fun m _ => ?_
  cases m <;> rfl

end Floats

/-- What the client shows after the messages. -/
def client {K : Type} [Field K] [LinearOrder K] [FloorRing K] (ms : List (Msg K)) :
    BitVec 32 → Option Face := paintAll (blank _ _) (ms.filterMap Msg.report)

def CellPtr.name (c : CellPtr) : BitVec 32 := BitVec.ofNat 32 c

section Script
variable {K : Type} [Field K] [LinearOrder K] [FloorRing K]

/-- `AddCell`. -/
def arrival (g : Game K) (c : CellPtr) : Report CellPtr Face := .add c (g.heap c).face

/-- `MoveCell`. -/
def motion (g : Game K) (c : CellPtr) : Report CellPtr Face :=
  .move c fun face => { (g.heap c).face with flag := face.flag }

/-- What is reported of a cell that has moved. -/
def moveReports (g : Game K) (p : Player K) (c : CellPtr) : List (Report CellPtr Face) :=
  if p.touches g c then
    if c ∈ p.cellHistory then
      if (g.heap c).flag.isPlayer || (g.heap c).velocity.nonzero then [motion g c] else []
    else [arrival g c]
  else []

/-- The reports of the history filter and of `ParseEvents`, where `ds` are the dead cells. -/
def parseScript (g : Game K) (p : Player K) (ds : List CellPtr) : List (Report CellPtr Face) :=
  (p.cellHistory.filter fun c => !p.sees g c).map .remove ++
    g.cellEvents.move.flatMap (moveReports g (p.filtered g)) ++
    (g.cellEvents.removeStatic.filter fun c => p.sees g c).map .remove ++ ds.map .remove

/-- The reports of `UpdateBlocks`, between two lists of blocks. -/
noncomputable def blockScript (g : Game ℝ) (blocks blocks' : List Vec2i) :
    List (Report CellPtr Face) :=
  (Outgoing.foodOff g blocks blocks').map .remove ++
    (Outgoing.foodOff g blocks' blocks).map (arrival g)

end Script

/-- The messages report the script, under the IDs of the cells. -/
structure Scripted (g : Game ℝ) (ms : List (Msg ℝ)) (rs : List (Report CellPtr Face)) : Prop where
  reports : ms.filterMap Msg.report = rs.map (.rename CellPtr.name)
  keys : ∀ r ∈ rs, r.key < g.allocated

namespace Scripted
variable {g g' : Game ℝ} {ms ms' : List (Msg ℝ)} {rs rs' : List (Report CellPtr Face)}

theorem nil (g : Game ℝ) : Scripted g [] [] := ⟨rfl, fun _ hr => by cases hr⟩

theorem append (h : Scripted g ms rs) (h' : Scripted g ms' rs') :
    Scripted g (ms ++ ms') (rs ++ rs') := by
  refine ⟨?_, fun r hr => ?_⟩
  · rw [List.filterMap_append, h.reports, h'.reports, List.map_append]
  · exact (List.mem_append.mp hr).elim (h.keys r) (h'.keys r)

theorem mono (h : Scripted g ms rs) (hle : g.allocated ≤ g'.allocated) : Scripted g' ms rs :=
  ⟨h.reports, fun r hr => (h.keys r hr).trans_le hle⟩

theorem removed (hw : g.WellFormed) {cs : List CellPtr} (hcs : ∀ c ∈ cs, c < g.allocated) :
    Scripted g (Outgoing.removed g cs) (cs.map .remove) := by
  refine ⟨?_, fun r hr => ?_⟩
  · unfold Outgoing.removed
    rw [List.filterMap_map, List.map_map, ← List.filterMap_eq_map]
    refine List.filterMap_congr fun c hc => ?_
    show some (Report.remove (g.heap c).id) = some (Report.remove c.name)
    rw [hw.id c (hcs c hc)]
    rfl
  · obtain ⟨c, hc, rfl⟩ := List.mem_map.mp hr
    exact hcs c hc

theorem added (hw : g.WellFormed) {cs : List CellPtr} (hcs : ∀ c ∈ cs, c < g.allocated) :
    Scripted g (Outgoing.added g cs) (cs.map (arrival g)) := by
  refine ⟨?_, fun r hr => ?_⟩
  · unfold Outgoing.added
    rw [List.filterMap_map, List.map_map, ← List.filterMap_eq_map]
    refine List.filterMap_congr fun c hc => ?_
    show some (Report.add (g.heap c).id _) = some (Report.add c.name _)
    rw [hw.id c (hcs c hc)]
    rfl
  · obtain ⟨c, hc, rfl⟩ := List.mem_map.mp hr
    exact hcs c hc

theorem moved (hw : g.WellFormed) (p : Player ℝ) {cs : List CellPtr}
    (hcs : ∀ c ∈ cs, c < g.allocated) :
    Scripted g (cs.flatMap (Outgoing.moveSaid g p)) (cs.flatMap (moveReports g p)) := by
  induction cs with
  | nil => exact nil g
  | cons c cs ih =>
    rw [List.flatMap_cons, List.flatMap_cons]
    refine append ?_ (ih fun d hd => hcs d (List.mem_cons_of_mem c hd))
    have hlt := hcs c List.mem_cons_self
    have hid : (g.heap c).id = c.name := hw.id c hlt
    unfold Outgoing.moveSaid moveReports
    split_ifs
    · refine ⟨?_, fun r hr => List.mem_singleton.mp hr ▸ hlt⟩
      show [Report.move (g.heap c).id _] = [Report.move c.name _]
      rw [hid]
      rfl
    · exact nil g
    · refine ⟨?_, fun r hr => List.mem_singleton.mp hr ▸ hlt⟩
      show [Report.add (g.heap c).id _] = [Report.add c.name _]
      rw [hid]
      rfl
    · exact nil g

theorem parsed (hw : g.WellFormed) {p : Player ℝ} {ds : List CellPtr}
    (hhistory : ∀ c ∈ p.cellHistory, c < g.allocated)
    (hmove : ∀ c ∈ g.cellEvents.move, c < g.allocated)
    (hstatic : ∀ c ∈ g.cellEvents.removeStatic, c < g.allocated)
    (hds : ∀ c ∈ ds, c < g.allocated) :
    Scripted g (Outgoing.parseSaid g p ds) (parseScript g p ds) :=
  (((removed hw fun c hc => hhistory c (List.mem_of_mem_filter hc)).append
    (moved hw _ hmove)).append
    (removed hw fun c hc => hstatic c (List.mem_of_mem_filter hc))).append (removed hw hds)

theorem blocked (hw : g.WellFormed) {p q : Player ℝ} (hp : p.sight.Charted)
    (hq : q.sight.Charted) :
    Scripted g (Outgoing.blockSaid g p q) (blockScript g p.blocks q.blocks) := by
  have hfood : ∀ {v v' : Sight}, v.Charted → v'.Charted →
      ∀ c ∈ Outgoing.foodOff g v.blocks v'.blocks, c < g.allocated := fun hv hv' c hc => by
    obtain ⟨⟨b, hb⟩, -⟩ := (Outgoing.mem_foodOff hw hv hv').mp hc
    exact hw.static_lt hb
  rw [Outgoing.blockSaid_foods g hp hq]
  exact (removed hw (hfood hp hq)).append (added hw (hfood hq hp))

theorem position (g : Game ℝ) (x y : ℝ) : Scripted g [.position x y] [] :=
  ⟨rfl, fun _ hr => by cases hr⟩

end Scripted

section About
variable {K : Type} [Field K] [LinearOrder K] [FloorRing K]

theorem moveReports_key (g : Game K) (p : Player K) (c : CellPtr) :
    ∀ r ∈ moveReports g p c, r.key = c := by
  intro r hr
  unfold moveReports at hr
  split_ifs at hr
  · exact List.mem_singleton.mp hr ▸ rfl
  · cases hr
  · exact List.mem_singleton.mp hr ▸ rfl
  · cases hr

/-- A report of one kind on every cell of a list, as the cell sees it. -/
def mention (l : List CellPtr) (f : CellPtr → List (Report CellPtr Face)) (c : CellPtr) :
    List (Report CellPtr Face) := if c ∈ l then f c else []

def removal (c : CellPtr) : List (Report CellPtr Face) := [.remove c]

theorem about_removes {l : List CellPtr} (hl : l.Nodup) (c : CellPtr) :
    about c (l.map (Report.remove (ν := Face))) = mention l removal c := about_map (fun _ => rfl) hl c

theorem about_parseScript {g : Game K} {p : Player K} {ds : List CellPtr}
    (hhistory : p.cellHistory.Nodup) (hmove : g.cellEvents.move.Nodup)
    (hstatic : g.cellEvents.removeStatic.Nodup) (hds : ds.Nodup) (c : CellPtr) :
    about c (parseScript g p ds) =
      mention (p.cellHistory.filter fun c => !p.sees g c) removal c ++
      mention g.cellEvents.move (moveReports g (p.filtered g)) c ++
      mention (g.cellEvents.removeStatic.filter fun c => p.sees g c) removal c ++
      mention ds removal c := by
  unfold parseScript
  rw [about_append, about_append, about_append, about_removes (hhistory.filter _),
    about_flatMap (moveReports_key g _) hmove, about_removes (hstatic.filter _), about_removes hds]
  rfl

theorem about_blockScript {g : Game ℝ} (hw : g.WellFormed) {v v' : Sight} (hv : v.Charted)
    (hv' : v'.Charted) (c : CellPtr) : about c (blockScript g v.blocks v'.blocks) =
      mention (Outgoing.foodOff g v.blocks v'.blocks) removal c ++
      mention (Outgoing.foodOff g v'.blocks v.blocks) (fun c => [arrival g c]) c := by
  unfold blockScript
  rw [about_append, about_removes (Outgoing.foodOff_nodup hw hv _),
    about_map (f := arrival g) (fun _ => rfl) (Outgoing.foodOff_nodup hw hv' _)]
  rfl

end About

end Agar
