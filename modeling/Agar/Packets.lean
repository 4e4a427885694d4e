import Agar.Rounds

/-! The packets of the clients: which bytes the `RECEIVE` handler reads, and what it does to the
players and their cells. -/

namespace Agar

/-- The two coordinates of a `MSG_MOUSE` packet, with what lies in memory after the packet. -/
def mouseAt (packet : List Byte) (beyond : ℕ → Byte) : Vec2i :=
  ⟨int16At packet beyond 1, int16At packet beyond 3⟩

/-- A `MSG_MOUSE` packet that ends before its coordinates do. -/
def ShortMouse (packet : List Byte) : Prop :=
  packet.head? = some msgMouse ∧ packet.length < 5

namespace Game

/-- The offsets at which the handler reads the packet: `DataPtr[0]` for every player of the
connection, and what the constructor of `Message::Mouse` takes, one byte at 0 and two each at 1
and 3. -/
def readOffsets {K : Type} (g : Game K) (w : Wsi) (packet : List Byte) : List ℕ :=
  if packet.length < 1 then [] else g.players.flatMap fun p =>
    if w = p.wsi then 0 :: (if packet.head? = some msgMouse then [0, 1, 2, 3, 4] else []) else []

/-- `cell->MouseVector = Mouse - cell->Center()`. -/
def look {K : Type} [Field K] (c : Cell K) (m : Vec2i) : Cell K :=
  { c with mouseVector := ⟨m.x, m.y⟩ - c.position }

/-- The cells of the players of the connection look at the point. -/
def turned {K : Type} [Field K] (g : Game K) (w : Wsi) (ps : List (Player K)) (m : Vec2i)
    (c : CellPtr) : Cell K :=
  if ps.any fun p => w = p.wsi ∧ c ∈ p.cells then look (g.heap c) m else g.heap c

/-- What a packet is meant to do: it acknowledges, raises a flag of the player of its connection,
or turns the cells of that player; nothing else changes. -/
noncomputable def handled (g : Game ℝ) (w : Wsi) (packet : List Byte) : Game ℝ :=
  { g with
    players := g.players.map (Player.received w packet)
    heap := if packet.head? = some msgMouse ∧ 5 ≤ packet.length then
      g.turned w g.players (mouseAt packet fun _ => 0) else g.heap }

theorem mouse_eq (g : Game ℝ) (cells : List CellPtr) (m : Vec2 ℝ) :
    g.mouse cells m = { g with heap := fun c =>
      if c ∈ cells then { g.heap c with mouseVector := m - (g.heap c).position } else g.heap c } := by
  induction cells generalizing g with
  | nil => rfl
  | cons q cells ih =>
    show (g.setCell q { g.heap q with mouseVector := m - (g.heap q).position }).mouse cells m = _
    rw [ih]
    unfold setCell
    congr 1
    funext c
    by_cases hq : c = q
    · subst hq
      by_cases hc : c ∈ cells <;> simp [hc]
    · by_cases hc : c ∈ cells <;> simp [hc, hq]

theorem receivePlayer_eq (g : Game ℝ) {packet : List Byte} (hpacket : packet ≠ [])
    (beyond : ℕ → Byte) {i : ℕ} {p : Player ℝ} (hp : g.players[i]? = some p) :
    g.receivePlayer packet beyond i = { g with
      players := g.players.modify i (Player.received p.wsi packet)
      heap := if packet.head? = some msgMouse then g.turned p.wsi [p] (mouseAt packet beyond)
        else g.heap } := by
  obtain ⟨b, rest, rfl⟩ := List.exists_cons_of_ne_nil hpacket
  have hmodify : ∀ f : Player ℝ → Player ℝ, f p = p.received p.wsi (b :: rest) →
      g.players.modify i f = g.players.modify i (Player.received p.wsi (b :: rest)) := by
    intro f hf
    apply List.ext_getElem?
    intro n
    rw [List.getElem?_modify, List.getElem?_modify]
    by_cases hn : i = n
    · subst hn
      simp [hp, hf]
    · simp [hn]
  have htype : byteAt (b :: rest) beyond 0 = b := rfl
  have hcells := cellsOf_modifyPlayer g i
    (fun p => { p with wsMessage := p.wsMessage.acknowledge }) (fun _ => rfl) i
  have hown : g.cellsOf i = p.cells := by simp [cellsOf, hp]
  unfold receivePlayer
  dsimp only
  rw [htype, hcells, hown, mouse_eq]
  simp only [List.head?_cons, Option.some.injEq]
  by_cases hmouse : b = msgMouse
  · rw [if_pos hmouse, if_pos hmouse]
    unfold modifyPlayer
    congr 1
    · funext c
      simp [turned, mouseAt, look]
    · refine hmodify _ ?_
      subst hmouse
      simp [Player.received, msgMouse, msgSplit, msgFeed]
  · rw [if_neg hmouse, if_neg hmouse]
    by_cases hsplit : b = msgSplit
    · rw [if_pos hsplit]
      unfold modifyPlayer
      congr 1
      rw [List.modify_modify_eq]
      refine hmodify _ ?_
      subst hsplit
      simp [Player.received, msgSplit, msgFeed]
    · rw [if_neg hsplit]
      by_cases hfeed : b = msgFeed
      · rw [if_pos hfeed]
        unfold modifyPlayer
        congr 1
        rw [List.modify_modify_eq]
        refine hmodify _ ?_
        subst hfeed
        simp [Player.received, msgSplit, msgFeed]
      · rw [if_neg hfeed]
        unfold modifyPlayer
        congr 1
        refine hmodify _ ?_
        simp [Player.received, hsplit, hfeed]

theorem modify_append_cons {α : Type} (l r : List α) (a : α) (f : α → α) :
    (l ++ a :: r).modify l.length f = l ++ f a :: r := by
  induction l with
  | nil => rfl
  | cons b l ih =>
    rw [List.cons_append, List.length_cons, List.modify_succ_cons, ih]
    rfl

theorem turned_append (g : Game ℝ) (w : Wsi) (ps qs : List (Player ℝ)) (m : Vec2i) :
    ({ g with heap := g.turned w ps m } : Game ℝ).turned w qs m = g.turned w (ps ++ qs) m := by
  have htwice : ∀ (a b : Bool) (c : Cell ℝ),
      (if b then look (if a then look c m else c) m else if a then look c m else c) =
        if a || b then look c m else c := by
    intro a b c
    cases a <;> cases b <;> rfl
  funext c
  show (if qs.any _ then _ else _) = if (ps ++ qs).any _ then _ else _
  rw [List.any_append]
  exact htwice _ _ _

theorem turned_other (g : Game ℝ) {w : Wsi} {p : Player ℝ} (h : w ≠ p.wsi)
    (ps : List (Player ℝ)) (m : Vec2i) : g.turned w (ps ++ [p]) m = g.turned w ps m := by
  funext c
  unfold turned
  rw [List.any_append]
  simp [h]

/-- The state after the first `n` rounds of the loop over the players. -/
noncomputable def handledFirst (g : Game ℝ) (w : Wsi) (packet : List Byte) (beyond : ℕ → Byte)
    (n : ℕ) : Game ℝ :=
  { g with
    players := (g.players.take n).map (Player.received w packet) ++ g.players.drop n
    heap := if packet.head? = some msgMouse then
      g.turned w (g.players.take n) (mouseAt packet beyond) else g.heap }

theorem receiveAt_handledFirst (g : Game ℝ) (w : Wsi) {packet : List Byte} (hpacket : packet ≠ [])
    (beyond : ℕ → Byte) {n : ℕ} {p : Player ℝ} (hp : g.players[n]? = some p) :
    receiveAt w packet beyond (g.handledFirst w packet beyond n) n =
      g.handledFirst w packet beyond (n + 1) := by
  have hlt := getElem?_lt hp
  have hget : (g.handledFirst w packet beyond n).players[n]? = some p := by
    show ((g.players.take n).map _ ++ g.players.drop n)[n]? = some p
    rw [List.getElem?_append_right (by simp)]
    simp [hlt.le, hp]
  have htake : g.players.take (n + 1) = g.players.take n ++ [p] := by
    rw [List.take_add_one, hp]
    rfl
  have hdrop : g.players.drop n = p :: g.players.drop (n + 1) := by
    rw [List.drop_eq_getElem_cons hlt]
    rw [List.getElem?_eq_getElem hlt] at hp
    rw [Option.some.inj hp]
  unfold receiveAt
  rw [hget]
  dsimp only
  by_cases hw : w = p.wsi
  · subst hw
    rw [if_pos rfl, receivePlayer_eq _ hpacket beyond hget]
    unfold handledFirst
    congr 1
    · by_cases hmouse : packet.head? = some msgMouse
      · simp only [if_pos hmouse]
        rw [htake, ← turned_append]
        rfl
      · simp only [if_neg hmouse]
    · show ((g.players.take n).map _ ++ g.players.drop n).modify n _ = _
      have hlen : n = ((g.players.take n).map (Player.received p.wsi packet)).length := by
        simp [hlt.le]
      have hone := modify_append_cons ((g.players.take n).map (Player.received p.wsi packet))
        (g.players.drop (n + 1)) p (Player.received p.wsi packet)
      rw [← hlen] at hone
      rw [htake, hdrop, hone, List.map_append, List.append_assoc]
      rfl
  · rw [if_neg hw]
    have hsame : p.received w packet = p := if_neg fun h => hw h.1
    unfold handledFirst
    congr 1
    · by_cases hmouse : packet.head? = some msgMouse
      · simp only [if_pos hmouse]
        rw [htake, turned_other g hw]
      · simp only [if_neg hmouse]
    · rw [htake, hdrop, List.map_append, List.append_assoc]
      simp [hsame]

theorem receiveAll_eq (g : Game ℝ) (w : Wsi) {packet : List Byte} (hpacket : packet ≠ [])
    (beyond : ℕ → Byte) :
    g.receiveAll w packet beyond = g.handledFirst w packet beyond g.players.length := by
  have hloop : ∀ n ≤ g.players.length, (List.range n).foldl (receiveAt w packet beyond) g =
      g.handledFirst w packet beyond n := by
    intro n hn
    induction n with
    | zero =>
      unfold handledFirst turned
      simp
    | succ n ih =>
      obtain ⟨p, hp⟩ : ∃ p, g.players[n]? = some p := ⟨_, List.getElem?_eq_getElem (by omega)⟩
      rw [List.range_succ, List.foldl_append, ih (by omega)]
      exact receiveAt_handledFirst g w hpacket beyond hp
  exact hloop _ le_rfl

theorem mouseAt_of_long {packet : List Byte} (h : 5 ≤ packet.length) (beyond beyond' : ℕ → Byte) :
    mouseAt packet beyond = mouseAt packet beyond' := by
  have hbyte : ∀ n < 5, byteAt packet beyond n = byteAt packet beyond' n := by
    intro n hn
    unfold byteAt
    rw [List.getD_eq_getElem _ _ (by omega), List.getD_eq_getElem _ _ (by omega)]
  unfold mouseAt int16At
  rw [hbyte 1 (by decide), hbyte 2 (by decide), hbyte 3 (by decide), hbyte 4 (by decide)]

theorem turned_absent (g : Game ℝ) {w : Wsi} (h : ∀ p ∈ g.players, w ≠ p.wsi) (m : Vec2i) :
    g.turned w g.players m = g.heap := by
  funext c
  unfold turned
  rw [if_neg]
  intro hany
  obtain ⟨p, hp, hw⟩ := List.any_eq_true.mp hany
  exact h p hp (of_decide_eq_true hw).1

end Game

/-- The handler stays within the packet, and does to the players and their cells what the packet
is meant to do. -/
structure HandledSoundly (s : Sys ℝ) (w : Wsi) (packet : List Byte) (beyond : ℕ → Byte) :
    Prop where
  bounded : ∀ n ∈ s.game.readOffsets w packet, n < packet.length
  effect : (s.receive w packet beyond).game = s.game.handled w packet

/-- A mouse packet that ends before its coordinates do, for a connection with a player. -/
def ReadsPast (g : Game ℝ) (w : Wsi) (packet : List Byte) : Prop :=
  ShortMouse packet ∧ ∃ p ∈ g.players, w = p.wsi

theorem bounded_iff (g : Game ℝ) (w : Wsi) (packet : List Byte) :
    (∀ n ∈ g.readOffsets w packet, n < packet.length) ↔ ¬ ReadsPast g w packet := by
  unfold Game.readOffsets
  constructor
  · rintro h ⟨⟨hmouse, hshort⟩, p, hp, hw⟩
    have hlen : ¬ packet.length < 1 := by
      intro hlt
      rw [List.eq_nil_of_length_eq_zero (Nat.lt_one_iff.mp hlt)] at hmouse
      cases hmouse
    rw [if_neg hlen] at h
    have hfour := h 4 (List.mem_flatMap.mpr ⟨p, hp, by simp [hw, hmouse]⟩)
    omega
  · intro h n hn
    by_cases hlen : packet.length < 1
    · rw [if_pos hlen] at hn
      cases hn
    · rw [if_neg hlen] at hn
      obtain ⟨p, hp, hn⟩ := List.mem_flatMap.mp hn
      by_cases hw : w = p.wsi
      · rw [if_pos hw] at hn
        by_cases hmouse : packet.head? = some msgMouse
        · have hlong : 5 ≤ packet.length := by
            by_contra hshort
            exact h ⟨⟨hmouse, not_le.mp hshort⟩, p, hp, hw⟩
          rw [if_pos hmouse] at hn
          simp only [List.mem_cons, List.not_mem_nil, or_false] at hn
          omega
        · rw [if_neg hmouse] at hn
          rw [List.mem_singleton.mp hn]
          omega
      · rw [if_neg hw] at hn
        cases hn

theorem receive_handled (s : Sys ℝ) (w : Wsi) (packet : List Byte) (beyond : ℕ → Byte)
    (h : ¬ ReadsPast s.game w packet) :
    (s.receive w packet beyond).game = s.game.handled w packet := by
  unfold Sys.receive
  dsimp only
  split_ifs with hlen
  · have hnil := List.eq_nil_of_length_eq_zero (Nat.lt_one_iff.mp hlen)
    subst hnil
    have hsame : Player.received w ([] : List Byte) = id := funext fun p => if_neg fun hp => hp.2 rfl
    unfold Game.handled
    rw [hsame, List.map_id]
    rfl
  · have hpacket : packet ≠ [] := fun hnil => hlen (by rw [hnil]; decide)
    show s.game.receiveAll w packet beyond = _
    rw [Game.receiveAll_eq _ _ hpacket]
    unfold Game.handledFirst Game.handled
    congr 1
    · by_cases hmouse : packet.head? = some msgMouse
      · rw [if_pos hmouse, List.take_length]
        by_cases hlong : 5 ≤ packet.length
        · rw [if_pos ⟨hmouse, hlong⟩, Game.mouseAt_of_long hlong]
        · rw [if_neg fun hc => hlong hc.2]
          refine Game.turned_absent _ (fun p hp hw => h ?_) _
          exact ⟨⟨hmouse, not_le.mp hlong⟩, p, hp, hw⟩
      · rw [if_neg hmouse, if_neg fun hc => hmouse hc.1]
    · rw [List.take_length, List.drop_length, List.append_nil]

/-- A packet is handled as it should be unless it is a mouse packet without its coordinates. -/
theorem packets (s : Sys ℝ) (w : Wsi) (packet : List Byte) (beyond : ℕ → Byte) :
    HandledSoundly s w packet beyond ↔ ¬ ReadsPast s.game w packet :=
  ⟨fun h => (bounded_iff s.game w packet).mp h.bounded,
    fun h => ⟨(bounded_iff s.game w packet).mpr h, receive_handled s w packet beyond h⟩⟩

/-- A server with one player. -/
def oneJoined (K : Type) [Field K] : Run K where
  rand := fun _ => 0
  stale := fun _ => 0
  events := [.writeable 0 0 (fun _ => true) 8]

theorem oneJoined_players : ∃ p ∈ (oneJoined ℝ).final.game.players, p.wsi = 0 := by
  have hwsi := Sys.first_writeable (s := Sys.init (fun _ => 0) fun _ => 0)
    (Game.mapInit_started _ _).players
  have hmem : 0 ∈ (oneJoined ℝ).final.game.players.map Player.wsi := by
    unfold Run.final oneJoined
    rw [List.foldl_cons, List.foldl_nil, hwsi]
    exact List.mem_singleton_self 0
  exact List.mem_map.mp hmem

/-- The one byte of a mouse packet without coordinates is there, the next four are not. -/
theorem mouse_read_past : ¬ HandledSoundly (oneJoined ℝ).final 0 [msgMouse] fun _ => 0 := by
  intro h
  obtain ⟨p, hp, hwsi⟩ := oneJoined_players
  refine (bounded_iff _ _ _).mp h.bounded ⟨⟨rfl, by decide⟩, p, hp, hwsi.symm⟩

end Agar
