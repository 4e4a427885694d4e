import Mathlib.Data.Set.Function

/-! A mirror of a set, kept by messages that add an element, tell that it has moved, or remove it:
what the mirror shows after a list of messages, and when every message of the list makes sense. -/

namespace Mirror
variable {κ ι : Type}

/-- What a message says of an element of the set. -/
inductive Change (κ : Type)
  | add (k : κ)
  | move (k : κ)
  | remove (k : κ)

namespace Change

def key : Change κ → κ
  | add k => k
  | move k => k
  | remove k => k

/-- What the mirror shows after the message. -/
def apply (known : Set κ) : Change κ → Set κ
  | add k => insert k known
  | move _ => known
  | remove k => known \ {k}

/-- The message makes sense to the mirror. -/
def Fits (known : Set κ) : Change κ → Prop
  | add k => k ∉ known
  | move k => k ∈ known
  | remove k => k ∈ known

def map (f : κ → ι) : Change κ → Change ι
  | add k => add (f k)
  | move k => move (f k)
  | remove k => remove (f k)

end Change

/-- What the mirror shows after the messages. -/
def replay (known : Set κ) (cs : List (Change κ)) : Set κ := cs.foldl Change.apply known

/-- Every message makes sense when its turn comes. -/
def Legal : Set κ → List (Change κ) → Prop
  | _, [] => True
  | known, c :: cs => c.Fits known ∧ Legal (c.apply known) cs

@[simp] theorem replay_nil (known : Set κ) : replay known [] = known := rfl

@[simp] theorem replay_cons (known : Set κ) (c : Change κ) (cs : List (Change κ)) :
    replay known (c :: cs) = replay (c.apply known) cs := rfl

theorem replay_append (known : Set κ) (cs ds : List (Change κ)) :
    replay known (cs ++ ds) = replay (replay known cs) ds := List.foldl_append

theorem legal_append {known : Set κ} {cs ds : List (Change κ)} :
    Legal known (cs ++ ds) ↔ Legal known cs ∧ Legal (replay known cs) ds := by
  induction cs generalizing known with
  | nil => simp [Legal]
  | cons c cs ih => rw [List.cons_append, Legal, Legal, ih, replay_cons, and_assoc]

theorem Change.apply_inj {known known' : Set κ} {c : Change κ} (h : c.Fits known)
    (h' : c.Fits known') (happly : c.apply known = c.apply known') : known = known' := by
  cases c with
  | add k =>
    have hdrop : ∀ {S : Set κ}, k ∉ S → insert k S \ {k} = S := fun hk => by
      rw [Set.insert_sdiff_of_mem _ (Set.mem_singleton k), Set.sdiff_singleton_eq_self hk]
    rw [← hdrop h, ← hdrop h']
    exact congrArg (· \ {k}) happly
  | move k => exact happly
  | remove k =>
    rw [← Set.insert_sdiff_self_of_mem h, ← Set.insert_sdiff_self_of_mem h']
    exact congrArg (insert k) happly

/-- Two mirrors to which the same messages make sense and that end up alike were alike. -/
theorem legal_unique {known known' : Set κ} {cs : List (Change κ)} (h : Legal known cs)
    (h' : Legal known' cs) (hreplay : replay known cs = replay known' cs) : known = known' := by
  induction cs generalizing known known' with
  | nil => exact hreplay
  | cons c cs ih => exact Change.apply_inj h.1 h'.1 (ih h.2 h'.2 hreplay)

theorem mem_replay_removes {known : Set κ} {ks : List κ} {k : κ} :
    k ∈ replay known (ks.map .remove) ↔ k ∈ known ∧ k ∉ ks := by
  induction ks generalizing known with
  | nil => simp
  | cons l ks ih =>
    rw [List.map_cons, replay_cons, ih, Change.apply, List.mem_cons, not_or, ← and_assoc]
    rfl

theorem mem_replay_adds {known : Set κ} {ks : List κ} {k : κ} :
    k ∈ replay known (ks.map .add) ↔ k ∈ known ∨ k ∈ ks := by
  induction ks generalizing known with
  | nil => simp
  | cons l ks ih =>
    rw [List.map_cons, replay_cons, ih, Change.apply, List.mem_cons, Set.mem_insert_iff,
      or_comm (a := k = l), or_assoc]

theorem legal_removes {known : Set κ} {ks : List κ} (hnodup : ks.Nodup)
    (hknown : ∀ k ∈ ks, k ∈ known) : Legal known (ks.map .remove) := by
  induction ks generalizing known with
  | nil => trivial
  | cons l ks ih =>
    obtain ⟨hl, hnodup⟩ := List.nodup_cons.mp hnodup
    refine ⟨hknown l List.mem_cons_self, ih hnodup fun k hk => ⟨?_, ?_⟩⟩
    · exact hknown k (List.mem_cons_of_mem l hk)
    · rintro rfl
      exact hl hk

theorem legal_adds {known : Set κ} {ks : List κ} (hnodup : ks.Nodup)
    (hknown : ∀ k ∈ ks, k ∉ known) : Legal known (ks.map .add) := by
  induction ks generalizing known with
  | nil => trivial
  | cons l ks ih =>
    obtain ⟨hl, hnodup⟩ := List.nodup_cons.mp hnodup
    refine ⟨hknown l List.mem_cons_self, ih hnodup fun k hk hmem => ?_⟩
    rcases Set.mem_insert_iff.mp hmem with rfl | hmem
    · exact hl hk
    · exact hknown k (List.mem_cons_of_mem l hk) hmem

section Names
variable {f : κ → ι} {S known : Set κ}

theorem Change.apply_map (hf : Set.InjOn f S) (hknown : known ⊆ S) {c : Change κ} (hc : c.key ∈ S) :
    (c.map f).apply (f '' known) = f '' c.apply known := by
  cases c with
  | add k => exact (Set.image_insert_eq).symm
  | move k => rfl
  | remove k =>
    refine Set.ext fun i => ⟨?_, ?_⟩
    · rintro ⟨⟨l, hl, rfl⟩, hne⟩
      exact ⟨l, ⟨hl, fun h => hne (congrArg f h)⟩, rfl⟩
    · rintro ⟨l, ⟨hl, hne⟩, rfl⟩
      exact ⟨⟨l, hl, rfl⟩, fun h => hne (hf (hknown hl) hc h)⟩

theorem Change.fits_map (hf : Set.InjOn f S) (hknown : known ⊆ S) {c : Change κ} (hc : c.key ∈ S) :
    (c.map f).Fits (f '' known) ↔ c.Fits known := by
  cases c with
  | add k => exact not_congr (hf.mem_image_iff hknown hc)
  | move k => exact hf.mem_image_iff hknown hc
  | remove k => exact hf.mem_image_iff hknown hc

theorem Change.apply_subset (hknown : known ⊆ S) {c : Change κ} (hc : c.key ∈ S) :
    c.apply known ⊆ S := by
  cases c with
  | add k => exact Set.insert_subset hc hknown
  | move k => exact hknown
  | remove k => exact Set.sdiff_subset.trans hknown

@[simp] theorem Change.map_key (f : κ → ι) (c : Change κ) : (c.map f).key = f c.key := by
  cases c <;> rfl

theorem replay_subset (hknown : known ⊆ S) {cs : List (Change κ)} (hcs : ∀ c ∈ cs, c.key ∈ S) :
    replay known cs ⊆ S := by
  induction cs generalizing known with
  | nil => exact hknown
  | cons c cs ih =>
    exact ih (Change.apply_subset hknown (hcs c List.mem_cons_self)) fun d hd =>
      hcs d (List.mem_cons_of_mem c hd)

theorem replay_map (hf : Set.InjOn f S) (hknown : known ⊆ S) {cs : List (Change κ)}
    (hcs : ∀ c ∈ cs, c.key ∈ S) :
    replay (f '' known) (cs.map (.map f)) = f '' replay known cs := by
  induction cs generalizing known with
  | nil => rfl
  | cons c cs ih =>
    have hc := hcs c List.mem_cons_self
    rw [List.map_cons, replay_cons, replay_cons, Change.apply_map hf hknown hc]
    exact ih (Change.apply_subset hknown hc) fun d hd => hcs d (List.mem_cons_of_mem c hd)

theorem legal_map (hf : Set.InjOn f S) (hknown : known ⊆ S) {cs : List (Change κ)}
    (hcs : ∀ c ∈ cs, c.key ∈ S) : Legal (f '' known) (cs.map (.map f)) ↔ Legal known cs := by
  induction cs generalizing known with
  | nil => exact Iff.rfl
  | cons c cs ih =>
    have hc := hcs c List.mem_cons_self
    rw [List.map_cons, Legal, Legal, Change.apply_map hf hknown hc, Change.fits_map hf hknown hc]
    exact and_congr_right' (ih (Change.apply_subset hknown hc) fun d hd =>
      hcs d (List.mem_cons_of_mem c hd))

end Names

section Classes
variable {S : Set κ} {known known' : Set κ}

namespace Change

/-- The message makes sense to the mirror, or it moves or removes an element outside the class. -/
def FitsIn (S known : Set κ) : Change κ → Prop
  | add k => k ∉ known
  | move k => k ∈ S → k ∈ known
  | remove k => k ∈ S → k ∈ known

theorem fitsIn_congr {c : Change κ} (h : c.key ∈ known' ↔ c.key ∈ known) :
    c.FitsIn S known' ↔ c.FitsIn S known := by
  cases c with
  | add k => exact not_congr h
  | move k => exact imp_congr_right fun _ => h
  | remove k => exact imp_congr_right fun _ => h

theorem mem_apply_congr {c : Change κ} {k : κ} (h : k ∈ known' ↔ k ∈ known) :
    k ∈ c.apply known' ↔ k ∈ c.apply known := by
  cases c with
  | add l => exact or_congr_right h
  | move l => exact h
  | remove l => exact and_congr_left' h

theorem mem_apply_of_ne {c : Change κ} {k : κ} (h : c.key ≠ k) :
    k ∈ c.apply known ↔ k ∈ known := by
  cases c with
  | add l => exact or_iff_right h.symm
  | move l => exact Iff.rfl
  | remove l => exact and_iff_left h.symm

end Change

/-- Every element that is added is new, and those of the class are moved and removed only while
the mirror shows them. -/
def LegalIn (S : Set κ) : Set κ → List (Change κ) → Prop
  | _, [] => True
  | known, c :: cs => c.FitsIn S known ∧ LegalIn S (c.apply known) cs

theorem legalIn_append {cs ds : List (Change κ)} :
    LegalIn S known (cs ++ ds) ↔ LegalIn S known cs ∧ LegalIn S (replay known cs) ds := by
  induction cs generalizing known with
  | nil => simp [LegalIn]
  | cons c cs ih => rw [List.cons_append, LegalIn, LegalIn, ih, replay_cons, and_assoc]

theorem legalIn_congr {cs : List (Change κ)} {k : κ} (hcs : ∀ c ∈ cs, c.key = k)
    (h : k ∈ known' ↔ k ∈ known) : LegalIn S known' cs ↔ LegalIn S known cs := by
  induction cs generalizing known known' with
  | nil => exact Iff.rfl
  | cons c cs ih =>
    have hc := hcs c List.mem_cons_self
    refine and_congr (Change.fitsIn_congr (hc ▸ h)) (ih (fun d hd => ?_) ?_)
    · exact hcs d (List.mem_cons_of_mem c hd)
    · exact Change.mem_apply_congr h

theorem legalIn_of_about [DecidableEq κ] {cs : List (Change κ)}
    (h : ∀ k, LegalIn S known (cs.filter fun c => c.key = k)) : LegalIn S known cs := by
  induction cs generalizing known with
  | nil => trivial
  | cons c cs ih =>
    have hself := h c.key
    rw [List.filter_cons, if_pos (decide_eq_true rfl)] at hself
    refine ⟨hself.1, ih fun k => ?_⟩
    by_cases hk : c.key = k
    · rw [← hk]
      exact hself.2
    · have hother := h k
      rw [List.filter_cons, if_neg (by simpa using hk)] at hother
      refine (legalIn_congr (fun d hd => ?_) (Change.mem_apply_of_ne hk)).mpr hother
      exact of_decide_eq_true (List.mem_filter.mp hd).2

theorem legalIn_map {f : κ → ι} {U : Set κ} {T : Set ι} (hf : Set.InjOn f U) (hknown : known ⊆ U)
    {cs : List (Change κ)} (hcs : ∀ c ∈ cs, c.key ∈ U) (hT : ∀ k ∈ U, f k ∈ T → k ∈ S)
    (h : LegalIn S known cs) : LegalIn T (f '' known) (cs.map (.map f)) := by
  induction cs generalizing known with
  | nil => trivial
  | cons c cs ih =>
    have hc := hcs c List.mem_cons_self
    rw [List.map_cons, LegalIn, Change.apply_map hf hknown hc]
    refine ⟨?_, ih (Change.apply_subset hknown hc) (fun d hd => ?_) h.2⟩
    · cases c with
      | add k => exact fun hk => h.1 ((hf.mem_image_iff hknown hc).mp hk)
      | move k => exact fun hk => ⟨k, h.1 (hT k hc hk), rfl⟩
      | remove k => exact fun hk => ⟨k, h.1 (hT k hc hk), rfl⟩
    · exact hcs d (List.mem_cons_of_mem c hd)

end Classes

end Mirror
