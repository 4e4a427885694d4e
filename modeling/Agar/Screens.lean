import Agar.Clients
import Agar.Divisions

/-! What the clients show under the IDs that go over the wire: the history of the player after
`ParseEvents`, the food after an update, and all of it from the bytes of the connection. -/

namespace Agar
open Mirror Picture Trace

theorem CellPtr.name_toNat {c : CellPtr} (hc : c < 2 ^ 32) : c.name.toNat = c :=
  Nat.mod_eq_of_lt hc

theorem CellPtr.name_injOn {n : ℕ} (hn : n ≤ 2 ^ 32) : Set.InjOn CellPtr.name {c | c < n} := by
  intro c hc d hd heq
  have hnat := congrArg BitVec.toNat heq
  rwa [CellPtr.name_toNat (lt_of_lt_of_le hc hn), CellPtr.name_toNat (lt_of_lt_of_le hd hn)] at hnat

theorem Scripted.changes {g : Game ℝ} {ms : List (Msg ℝ)} {rs : List (Report CellPtr Face)}
    (h : Scripted g ms rs) :
    ms.filterMap Msg.change = (rs.map Report.change).map (.map CellPtr.name) := by
  rw [← Msg.report_change, h.reports, List.map_map, List.map_map]
  exact List.map_congr_left fun r _ => r.rename_change CellPtr.name

namespace Told
variable {due : Prop} {g : Game ℝ} {first held : Set Vec2i} {start : Set CellPtr} {v : Sight}
  {ms : List (Msg ℝ)} {rs : List (Report CellPtr Face)}

theorem named (h : Told due g first held start v ms rs) (hfew : g.allocated ≤ 2 ^ 32) :
    Named CellPtr.name {c | c < g.allocated} (shown rs) (client ms) := by
  unfold client
  rw [h.scripted.reports]
  exact (named_blank CellPtr.name _).paintAll (CellPtr.name_injOn hfew) h.scripted.keys

theorem legalIn_ids (h : Told due g first held start v ms rs) (hfew : g.allocated ≤ 2 ^ 32)
    {T : Set (BitVec 32)} (hT : ∀ c : CellPtr, c < g.allocated → c.name ∈ T →
      maxFood ≤ c ∨ g.block c ∉ first) : LegalIn T ∅ (ms.filterMap Msg.change) := by
  rw [h.scripted.changes, ← Set.image_empty CellPtr.name]
  refine legalIn_map (CellPtr.name_injOn hfew) (Set.empty_subset _) (fun c hc => ?_) hT h.legal
  obtain ⟨r, hr, rfl⟩ := List.mem_map.mp hc
  rw [Report.change_key]
  exact h.scripted.keys r hr

theorem roaming_ids (h : Told due g first held start v ms rs) (hw : g.WellFormed)
    (hfew : g.allocated ≤ 2 ^ 32) (hsound : ∀ c ∈ v.history, maxFood ≤ c ∧ c < g.allocated)
    {i : BitVec 32} (hi : maxFood ≤ i.toNat) :
    (client ms i).isSome ↔ ∃ c ∈ v.history, (g.heap c).id = i := by
  have hnamed := h.named hfew
  constructor
  · intro hs
    obtain ⟨c, hc, rfl⟩ := hnamed.only i hs
    rw [hnamed.same c hc] at hs
    rw [CellPtr.name_toNat (lt_of_lt_of_le hc hfew)] at hi
    exact ⟨c, (h.roaming c hi).mp hs, hw.id c hc⟩
  · rintro ⟨c, hc, rfl⟩
    obtain ⟨hle, hlt⟩ := hsound c hc
    rw [hw.id c hlt]
    show (client ms c.name).isSome
    rw [hnamed.same c hlt]
    exact (h.roaming c hle).mpr hc

/-- The IDs shown of the food are those of the food of the view, without the blocks that have been
in view since the first moment. -/
theorem food_ids (h : Told False g first held start v ms rs) (hw : g.WellFormed)
    (hfew : g.allocated ≤ 2 ^ 32) {i : BitVec 32} (hi : i.toNat < maxFood) :
    (client ms i).isSome ↔
      ∃ b ∈ v.blocks, b ∉ held ∧ ∃ c ∈ g.staticMap b, (g.heap c).id = i := by
  have hnamed := h.named hfew
  have hblock : ∀ b, ∀ c ∈ g.staticMap b, g.block c = b := fun b c hc => (hw.static b c hc).2.2
  constructor
  · intro hs
    obtain ⟨c, hc, rfl⟩ := hnamed.only i hs
    rw [hnamed.same c hc] at hs
    rw [CellPtr.name_toNat (lt_of_lt_of_le hc hfew)] at hi
    obtain ⟨⟨b, hb⟩ | ⟨hfalse, -⟩, hin, hfree⟩ := (h.food c hi).mp hs
    · rw [hblock b c hb] at hin hfree
      exact ⟨b, hin, hfree, c, hb, hw.id c hc⟩
    · exact hfalse.elim
  · rintro ⟨b, hin, hfree, c, hc, rfl⟩
    have hlt := hw.static_lt hc
    rw [hw.id c hlt]
    show (client ms c.name).isSome
    rw [hnamed.same c hlt]
    rw [← hblock b c hc] at hin hfree
    exact (h.food c (hw.static b c hc).1).mpr ⟨Or.inl ⟨b, hc⟩, hin, hfree⟩

end Told

/-- The messages said to the player since it joined, up to the end of `ParseEvents` here. -/
def UpdateRecord.heard (tr : List (Obs ℝ)) (u : UpdateRecord ℝ) : List (Msg ℝ) :=
  saidTo u.player.wsi tr ++ u.parsed.said

/-- The client shows the cells of the history, and of those that have moved what they are now. -/
structure UpdateRecord.ShowsHistory (tr : List (Obs ℝ)) (u : UpdateRecord ℝ) : Prop where
  nodup : u.parsed.player.cellHistory.Nodup
  legal : LegalIn {i | maxFood ≤ i.toNat} ∅ ((u.heard tr).filterMap Msg.change)
  shown : ∀ i : BitVec 32, maxFood ≤ i.toNat → ((client (u.heard tr) i).isSome ↔
    ∃ c ∈ u.parsed.player.cellHistory, (u.commanded.heap c).id = i)
  moved : ∀ c ∈ u.parsed.player.cellHistory, c ∈ u.commanded.cellEvents.move →
    client (u.heard tr) (u.commanded.heap c).id = some (u.commanded.heap c).face

/-- The same, while all IDs are different and no cell has been updated without a radius. -/
def UpdateRecord.KeepsUp (tr : List (Obs ℝ)) (u : UpdateRecord ℝ) : Prop :=
  u.commanded.allocated ≤ 2 ^ 32 → (∀ o ∈ tr, o.Solid) → u.ShowsHistory tr

theorem Portrayed.showsHistory {s : Sys ℝ} {n : ℕ} (h : Portrayed (.updating n) s)
    (hi : Invariant (.updating n) s) {p : Player ℝ} (hp : s.game.players[n]? = some p) :
    (s.game.updatePlayer n p).KeepsUp s.trace := by
  intro hfew _
  have hfew' : (s.game.commands n p).allocated ≤ 2 ^ 32 := hfew
  obtain ⟨rs, htold, hmoved⟩ := h.parsed hi hp
  obtain ⟨⟨ds, hparsing, hds⟩, -⟩ := h.commanded hi hp
  have hhistory : ∀ c ∈ (s.game.updatePlayer n p).parsed.player.cellHistory,
      maxFood ≤ c ∧ c < (s.game.commands n p).allocated := fun c hc => by
    rw [hds.history] at hc
    rcases Player.mem_known.mp (List.mem_of_mem_filter hc) with ⟨hold, -⟩ | ⟨hmove, -⟩
    · obtain ⟨h1, h2, -⟩ := hparsing.sound.cell c hold
      exact ⟨h1, h2⟩
    · exact hparsing.move c hmove
  refine ⟨?_, htold.legalIn_ids hfew' fun c hc hT => Or.inl ?_, fun i hstatic => ?_,
    fun c hc hmove => ?_⟩
  · rw [hds.history]
    exact (Player.known_nodup hparsing.sound.nodup hparsing.move_nodup).filter _
  · rwa [Set.mem_ofPred_eq, CellPtr.name_toNat (hc.trans_le hfew')] at hT
  · exact htold.roaming_ids hparsing.wellFormed hfew' hhistory hstatic
  · have hlt := (hhistory c hc).2
    have hid : ((s.game.commands n p).heap c).id = c.name := hparsing.wellFormed.id c hlt
    show client _ ((s.game.commands n p).heap c).id = _
    rw [hid]
    exact ((htold.named hfew').same c hlt).trans (hmoved c hc hmove)

/-- In every run, immediately after `ParseEvents` of every update, the client that has read all
messages since the player joined shows the cells of `CellHistory` and no others that roam, the
messages about them made sense, and every cell of the history that has moved in the tick is shown
where it is, although `MoveCell` was not sent for those at rest. -/
theorem history_shown (r : Run ℝ) : Always (AtUpdates UpdateRecord.KeepsUp) r.final.trace :=
  Run.induction_updates init_portrayed (fun _ _ _ _ hi hm hs => hm.portrayed hi hs)
    (fun _ _ _ hi hs hp => hs.showsHistory hi hp) r

/-- The messages said to the player since it joined, up to the end of the update. -/
def UpdateRecord.heardAll (tr : List (Obs ℝ)) (u : UpdateRecord ℝ) : List (Msg ℝ) :=
  saidTo u.player.wsi tr ++ u.finished.said

/-- The client shows the food of the view but for the blocks that have been in view since the
player joined, and only messages about food of its first view may not make sense. -/
structure UpdateRecord.ShowsFood (tr : List (Obs ℝ)) (u : UpdateRecord ℝ) : Prop where
  legal : LegalIn
    {i | maxFood ≤ i.toNat ∨ u.after.block i.toNat ∉ firstView u.player.wsi tr} ∅
    ((u.heardAll tr).filterMap Msg.change)
  shown : ∀ i : BitVec 32, i.toNat < maxFood → ((client (u.heardAll tr) i).isSome ↔
    ∃ b ∈ u.finished.player.blocks, b ∉ heldView u.player.wsi tr ∧
      ∃ c ∈ u.after.staticMap b, (u.after.heap c).id = i)
  value : ∀ b, ∀ c ∈ u.after.staticMap b, ∀ f,
    client (u.heardAll tr) (u.after.heap c).id = some f → f = (u.after.heap c).face

def UpdateRecord.Serves (tr : List (Obs ℝ)) (u : UpdateRecord ℝ) : Prop :=
  u.after.allocated ≤ 2 ^ 32 → u.ShowsFood tr

theorem Portrayed.showsFood {s : Sys ℝ} {n : ℕ} (h : Portrayed (.updating n) s)
    (hi : Invariant (.updating n) s) {p : Player ℝ} (hp : s.game.players[n]? = some p) :
    (s.game.updatePlayer n p).Serves s.trace := by
  intro hfew
  have hfew' : (s.game.commands n p).allocated ≤ 2 ^ 32 := hfew
  obtain ⟨rs, htold⟩ := h.finished hi hp
  obtain ⟨hw, -⟩ := Game.commands_spec hi.wellFormed hp
  refine ⟨htold.legalIn_ids hfew' fun c hc hT => ?_, fun i hfood => ?_, fun b c hc f hf => ?_⟩
  · rwa [Set.mem_ofPred_eq, CellPtr.name_toNat (hc.trans_le hfew')] at hT
  · refine (htold.food_ids hw hfew' hfood).trans (exists_congr fun b => and_congr_right fun hb => ?_)
    exact and_congr_left' (not_congr (and_iff_left hb))
  · have hlt := hw.static_lt hc
    have hid : ((s.game.commands n p).heap c).id = c.name := hw.id c hlt
    have hf' : client (saidTo p.wsi s.trace ++ (s.game.updatePlayer n p).finished.said)
      ((s.game.commands n p).heap c).id = some f := hf
    rw [hid, (htold.named hfew').same c hlt] at hf'
    exact htold.fixed c (hw.static b c hc).1 f hf'

/-- In every run, after every update, the client shows of the food exactly what lies in the blocks
of the view, except for the blocks in view since the player joined: what `Init` finds in view is
never sent. -/
theorem food_shown (r : Run ℝ) : Always (AtUpdates UpdateRecord.Serves) r.final.trace :=
  Run.induction_updates init_portrayed (fun _ _ _ _ hi hm hs => hm.portrayed hi hs)
    (fun _ _ _ hi hs hp => hs.showsFood hi hp) r

/-- What a client shows that has read the messages off the wire. -/
def screen (ws : List Wire) : BitVec 32 → Option Face :=
  paintAll (blank _ _) (ws.filterMap Wire.report)

theorem client_eq_screen (ms : List (Msg ℝ)) : client ms = screen (ms.map Msg.wire) := by
  unfold client screen
  rw [List.filterMap_map]
  rfl

/-- What has gone out to the player since it joined, and what still waits in the buffer. -/
def Sys.bytesTo (s : Sys ℝ) (p : Player ℝ) : List Byte :=
  (life p.wsi s.trace).flatMap (Obs.accepted p.wsi) ++ p.wsMessage.pending

/-- The screen shows the history of the player and the food of its view, and whatever is no
player's cell is shown as it is. -/
structure Sys.Renders (s : Sys ℝ) (p : Player ℝ) (q : BitVec 32 → Option Face) : Prop where
  roaming : ∀ i : BitVec 32, maxFood ≤ i.toNat →
    ((q i).isSome ↔ ∃ c ∈ p.cellHistory, (s.game.heap c).id = i)
  food : ∀ i : BitVec 32, i.toNat < maxFood → ((q i).isSome ↔
    ∃ b ∈ p.blocks, b ∉ heldView p.wsi s.trace ∧ ∃ c ∈ s.game.staticMap b, (s.game.heap c).id = i)
  flag : ∀ c < s.game.allocated, ∀ f, q (s.game.heap c).id = some f →
    f.flag = (s.game.heap c).flag.byte
  current : ∀ c < s.game.allocated, ∀ f, q (s.game.heap c).id = some f →
    (s.game.heap c).flag.isPlayer = false → f = (s.game.heap c).face

/-- Whoever decodes the bytes of a connection sees the game as its player should. -/
def Sys.Rendered (s : Sys ℝ) : Prop := s.game.allocated ≤ 2 ^ 32 → ∀ p ∈ s.game.players,
  ∃ ws, Wire.format.decode (s.bytesTo p) = some ws ∧ s.Renders p (screen ws)

theorem Msg.encode_wire (m : Msg ℝ) : m.encode = m.wire.encode := by
  cases m <;> rfl

theorem Portrayed.rendered {s : Sys ℝ} (h : Portrayed .idle s) (hi : Invariant .idle s)
    (hstreams : Streaming s) : s.Rendered := by
  intro hfew p hp
  obtain ⟨n, hn⟩ := List.mem_iff_getElem?.mp hp
  have hsight := Sys.sights_getElem? hn
  have hsound := h.watch.sound _ (List.mem_of_getElem? hsight)
  obtain ⟨rs, htold⟩ := h.informed n _ hsight
  have hw := hi.wellFormed
  have hnamed := htold.named hfew
  have hbytes : s.bytesTo p = ((saidTo p.wsi s.trace).map Msg.wire).flatMap Wire.encode := by
    have hwhole := (hstreams p.channel (List.mem_map_of_mem hp)).whole
    rw [List.flatMap_map]
    exact hwhole.trans (List.flatMap_congr fun m _ => m.encode_wire)
  refine ⟨(saidTo p.wsi s.trace).map Msg.wire, ?_, ?_⟩
  · rw [hbytes]
    exact Wire.format.decode_encode _
  · rw [← client_eq_screen]
    have hshown : ∀ c < s.game.allocated, ∀ f,
        client (saidTo p.wsi s.trace) (s.game.heap c).id = some f → shown rs c = some f :=
      fun c hc f hf => by
        rw [hw.id c hc] at hf
        exact (hnamed.same c hc).symm.trans hf
    refine ⟨fun i hroams => ?_, fun i hfood => htold.food_ids hw hfew hfood,
      fun c hc f hf => htold.flags c f (hshown c hc f hf), fun c hc f hf hplayer => ?_⟩
    · exact htold.roaming_ids hw hfew (fun c hc => ⟨(hsound.cell c hc).1, (hsound.cell c hc).2.1⟩) hroams
    · have hflag : (s.game.heap c).flag ≠ playerFlag := fun heq => by
        rw [heq] at hplayer
        cases hplayer
      rcases le_or_gt maxFood c with hle | hlt
      · exact (htold.current c hle f (hshown c hc f hf) hflag).resolve_right fun hdue => hdue.1
      · exact htold.fixed c hlt f (hshown c hc f hf)

theorem Run.portrayed (r : Run ℝ) : Portrayed .idle r.final :=
  Run.induction (P := Portrayed) init_portrayed (fun _ _ _ _ hi hm hs => hm.portrayed hi hs) r

theorem Run.streaming (r : Run ℝ) : Streaming r.final := by
  refine Run.induction_shift (P := Streaming) (fun rand stale c hc => ?_)
    (fun _ _ _ hi h hs => h.streaming hi hs) r
  have hnone : (Sys.init rand stale).game.players = [] := (Game.mapInit_started rand stale).players
  rw [hnone] at hc
  cases hc

/-- In every run and for every player, the packets that `lws_write` has accepted since the player
joined, followed by the bytes in its buffer, decode to messages from which a client builds the
history of the player and the food of its view, with the current values of all food and all cells of
`DynamicMap` in it. -/
theorem bytes_rendered (r : Run ℝ) : r.final.Rendered :=
  r.portrayed.rendered r.invariant r.streaming

end Agar
