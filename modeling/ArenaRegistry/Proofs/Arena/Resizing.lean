import ArenaRegistry.Proofs.Arena.Growth

/-! Giving the last allocation another size. It has that size then, except that a big block never
gets smaller, and keeps as many of its bytes as there is room for. In place the size that was given
last is all that counts, and what was cut off can be had back, unless it is more than may be requested
at once: an allocation of the largest size is a byte more than that, when it is rounded up. -/

namespace ArenaRegistry.Arena

namespace World

variable {σ : Type} {src : BlockSource σ} {w w' : World (Traced σ)} {p q n : Nat} {inPlace : Bool}

/-- A big block that is large enough stays as it is. -/
theorem resizeLast_of_isBig (hLast : w.arena.top.last = some p) (hBig : w.arena.isBig p = true)
    (inPlace : Bool) (hValid : n ≤ Size.largest) (hLe : Size.roundUp n ≤ w.arena.sizeOfLast p) :
    w.resizeLast n inPlace = (.ok p, w) := by
  simp only [resizeLast, shrinkLast, hLast, if_neg (Nat.not_lt.mpr hValid), hBig, hLe,
    Bool.not_true, Bool.false_eq_true, false_and, true_or, if_true, if_false]

/-- A last allocation that was given another size. -/
structure GivenSize (w : World (Traced σ)) (p n q : Nat) (w' : World (Traced σ)) : Prop where
  size : w'.arena.lastSize? =
    some (if w.arena.isBig p then max (w.arena.sizeOfLast p) (Size.roundUp n) else Size.roundUp n)
  stays : Size.roundUp n ≤ w.arena.sizeOfLast p → q = p
  kept : ∀ i < min (w.arena.sizeOfLast p) (Size.roundUp n), w'.memory (q + i) = w.memory (p + i)

theorem resizeLast_givenSize (hw : w.Orderly src) (hLast : w.arena.top.last = some p)
    (hValid : Size.roundUp n ≤ Size.largest) (hResize : w.resizeLast n inPlace = (.ok q, w'))
    (hSound : Traffic.Sound w'.traffic) : w.GivenSize p n q w' := by
  have hLargest : n ≤ Size.largest := Nat.le_trans (Size.le_roundUp n) hValid
  rcases Nat.lt_or_ge (w.arena.sizeOfLast p) (Size.roundUp n) with hMore | hLe
  · -- It grows by the difference, which is in whole grains already.
    have hUsed := hw.wellFormed.sizeOfLast_whole hLast
    have hUp := Size.isWhole_roundUp n
    have hGrown : Size.roundUp (Size.roundUp n - w.arena.sizeOfLast p) =
        Size.roundUp n - w.arena.sizeOfLast p := by
      refine Size.roundUp_of_isWhole ?_
      unfold Size.IsWhole at *
      omega
    have hIncrement : Size.roundUp n - w.arena.sizeOfLast p ≤ Size.largest := by omega
    rw [resizeLast_of_lt hLast inPlace hLargest hMore] at hResize
    have hSize := lastSize?_expandLast hw hIncrement hResize hSound
    rw [lastSize?_of_last hLast, Option.getD_some, hGrown,
      Nat.add_sub_cancel' (Nat.le_of_lt hMore)] at hSize
    refine ⟨?_, fun hLe => absurd hMore (Nat.not_lt.mpr hLe), fun i hi => ?_⟩
    · rw [hSize, Nat.max_eq_right (Nat.le_of_lt hMore), ite_self]
    · rcases expandLast_cases hw hLast hIncrement hResize hSound with ⟨offset, rfl, -, rfl⟩ |
        ⟨block, rfl, hMoved⟩
      · rfl
      · exact hMoved.carried i (Nat.lt_of_lt_of_le hi (Nat.min_le_left _ _))
  · cases hBig : w.arena.isBig p with
    | true =>
      rw [resizeLast_of_isBig hLast hBig inPlace hLargest hLe] at hResize
      cases hResize
      refine ⟨?_, fun _ => rfl, fun _ _ => rfl⟩
      rw [if_pos hBig, Nat.max_eq_left hLe, lastSize?_of_last hLast]
    | false =>
      obtain ⟨offset, hAt⟩ := hw.wellFormed.exists_lastAt hLast hBig
      rw [resizeLast_of_le hAt inPlace hLargest hLe] at hResize
      cases hResize
      refine ⟨?_, fun _ => rfl, fun _ _ => rfl⟩
      rw [hBig]
      exact hAt.lastSize?_withFree _

/-! ### In place -/

section InPlace

variable {σ : Type} {w : World σ} {p offset : Nat}

/-- A resize in place that follows another one succeeds just where it would have without, and leads
to the same world. -/
theorem resizeLast_forgets {q first second : Nat} {w₁ : World σ} (h : w.arena.LastAt p offset)
    (hFirst : Size.roundUp first ≤ Size.largest) (hSecond : Size.roundUp second ≤ Size.largest)
    (hResize : w.resizeLast first true = (.ok q, w₁)) :
    q = p ∧ ∀ r w₂,
      (w₁.resizeLast second true = (.ok r, w₂) ↔ w.resizeLast second true = (.ok r, w₂)) ∧
        (w.resizeLast second true = (.ok r, w₂) → r = p) := by
  have hStart := h.whole
  have hUp := Size.isWhole_roundUp first
  rw [resizeLast_inPlace h hFirst] at hResize
  split at hResize
  next hRoom =>
    cases hResize
    have hAt : (w.withFree (offset + Size.roundUp first)).arena.LastAt p offset :=
      h.withFree (Nat.le_add_right _ _) hRoom (by unfold Size.IsWhole at *; omega)
    refine ⟨rfl, fun r w₂ => ?_⟩
    rw [resizeLast_inPlace hAt hSecond, resizeLast_inPlace h hSecond, withFree_withFree,
      withFree_arena, chunk_withFree h.nonempty]
    split
    · refine ⟨Iff.rfl, ?_⟩
      rintro ⟨⟩
      rfl
    · exact ⟨⟨nofun, nofun⟩, nofun⟩
  next => cases hResize

/-- What was cut off the last allocation can be had back, and then nothing has changed, if it is not
more than may be requested. -/
theorem shrinkLast_expandLast {k : Nat} (h : w.arena.LastAt p offset)
    (hCut : Size.roundDown k ≤ w.arena.sizeOfLast p) :
    ∃ w₁, w.shrinkLast k = (.ok p, w₁) ∧ w₁.expandLast (Size.roundDown k) true =
      if Size.roundDown k ≤ Size.largest then (.ok p, w)
      else (.error (.invalidSize (Size.roundDown k)), w₁) := by
  have hSize := h.size
  have hStays := h.le
  have hEnd := h.free_le
  have hStart := h.whole
  have hFree := h.free_whole
  have hDown := Size.isWhole_roundDown k
  refine ⟨_, shrinkLast_of_le h hCut, ?_⟩
  have hAt : (w.withFree (w.arena.top.free - Size.roundDown k)).arena.LastAt p offset :=
    h.withFree (by omega) (by omega) (by unfold Size.IsWhole at *; omega)
  have hTop : (w.withFree (w.arena.top.free - Size.roundDown k)).arena.top.free =
      w.arena.top.free - Size.roundDown k := by
    rw [withFree_arena, top_withFree h.nonempty]
  have hRoom : Size.roundUp (Size.roundDown k) ≤
      (w.withFree (w.arena.top.free - Size.roundDown k)).arena.remaining := by
    rw [Size.roundUp_of_isWhole hDown, remaining, hTop, withFree_arena, chunk_withFree h.nonempty]
    omega
  split
  next hValid =>
    rw [expandLast_of_room hAt true hValid hRoom, withFree_withFree, hTop,
      Size.roundUp_of_isWhole hDown, Nat.sub_add_cancel (by omega), withFree_top_free h.nonempty]
  next hLarge =>
    simp only [expandLast, hAt.last, if_pos (Nat.not_le.mp hLarge)]

end InPlace

end World

/-! ### Laws -/

/-- What holds of resizing the last allocation, which is at `p`. -/
structure World.ResizesLawfully {σ : Type} (w : World (Traced σ)) (p : Nat) : Prop where
  sized : ∀ n inPlace q w', Size.roundUp n ≤ Size.largest →
    w.resizeLast n inPlace = (.ok q, w') → Traffic.Sound w'.traffic → w.GivenSize p n q w'
  /-- In place, the size that was given last is all that counts. -/
  forgets : w.arena.isBig p = false → ∀ first second q w₁, Size.roundUp first ≤ Size.largest →
    Size.roundUp second ≤ Size.largest → w.resizeLast first true = (.ok q, w₁) →
      q = p ∧ ∀ r w₂,
        (w₁.resizeLast second true = (.ok r, w₂) ↔ w.resizeLast second true = (.ok r, w₂)) ∧
          (w.resizeLast second true = (.ok r, w₂) → r = p)
  /-- What was cut off can be had back, as far as so much may be requested at once. -/
  returns : w.arena.isBig p = false → ∀ k, Size.roundDown k ≤ w.arena.sizeOfLast p →
    ∃ w₁, w.shrinkLast k = (.ok p, w₁) ∧ w₁.expandLast (Size.roundDown k) true =
      if Size.roundDown k ≤ Size.largest then (.ok p, w)
      else (.error (.invalidSize (Size.roundDown k)), w₁)

theorem World.Orderly.resizesLawfully {σ : Type} {src : BlockSource σ} {w : World (Traced σ)}
    {p : Nat} (hw : w.Orderly src) (hLast : w.arena.top.last = some p) : w.ResizesLawfully p where
  sized n inPlace q w' hValid hResize hSound :=
    World.resizeLast_givenSize hw hLast hValid hResize hSound
  forgets hNotBig first second q w₁ hFirst hSecond hResize := by
    obtain ⟨offset, hAt⟩ := hw.wellFormed.exists_lastAt hLast hNotBig
    exact World.resizeLast_forgets hAt hFirst hSecond hResize
  returns hNotBig k hCut := by
    obtain ⟨offset, hAt⟩ := hw.wellFormed.exists_lastAt hLast hNotBig
    exact World.shrinkLast_expandLast hAt hCut

/-- However a source grants and refuses and whatever was called and written before: the last
allocation has the size it was given, and its bytes; in place, resizes compose to the last one; and
shrinking is undone by growing, as long as no more was cut off than may be requested at once. -/
theorem run_resizes {σ : Type} (src : BlockSource σ) (settings : Settings) (id : Nat)
    (host : Host (Traced σ)) (w : World (Traced σ)) (actions : List Action) (p : Nat)
    (hStart : (start src.traced settings id host).1 = .ok w) (hFresh : host.store.traffic = [])
    (hSound : Traffic.Sound ((Session.begin w).run actions).world.traffic)
    (hLast : ((Session.begin w).run actions).world.arena.top.last = some p) :
    ((Session.begin w).run actions).world.ResizesLawfully p :=
  (Session.begin_run_booked hStart hFresh hSound).orderly.resizesLawfully hLast

theorem run_resizes_limited :
    let actions : List Action :=
      [.call (.alloc 100), .call .pushMark, .call (.alloc 200), .write 0 0 0 [1, 2, 3]]
    ∃ w : World (Traced Heap),
      (start Heap.limited.traced ⟨0, false⟩ 1 Host.blank).1 = .ok w ∧
        ((Session.begin w).run actions).world.ResizesLawfully 0x100000000d8 ∧
        ∃ w₁, ((Session.begin w).run actions).world.shrinkLast 15 = (.ok 0x100000000d8, w₁) ∧
          w₁.expandLast 8 true =
            (.ok 0x100000000d8, ((Session.begin w).run actions).world) := by
  intro actions
  have hLawful := run_resizes Heap.limited ⟨0, false⟩ 1 Host.blank _ actions 0x100000000d8 rfl rfl
    (by decide +kernel) (by decide +kernel)
  obtain ⟨w₁, hShrink, hExpand⟩ := hLawful.returns (by decide +kernel) 15 (by decide +kernel)
  exact ⟨_, rfl, hLawful, w₁, hShrink, hExpand⟩

/-- A source that refuses nothing. -/
def Heap.endless : BlockSource Heap where
  request := Heap.grant
  release _ h := h

/-- The largest request, rounded up to whole grains, fills a chunk of its own. Shrunk to nothing it
cannot grow back, since its size is more than may be requested. -/
theorem shrunk_largest_not_returned :
    let actions : List Action := [.call (.alloc 7900), .call (.alloc Size.largest)]
    let p := 0x10000001f50
    let size := 2 ^ 63 - 16
    ∃ w : World (Traced Heap),
      (start Heap.endless.traced ⟨0, false⟩ 1 Host.blank).1 = .ok w ∧
        let now := ((Session.begin w).run actions).world
        Traffic.Lawful now.traffic ∧ now.arena.top.last = some p ∧ now.arena.isBig p = false ∧
          now.arena.sizeOfLast p = size ∧ Size.roundDown size = size ∧
          (∃ w₁, now.shrinkLast size = (.ok p, w₁) ∧
            w₁.expandLast size true = (.error (.invalidSize size), w₁)) ∧
          ¬∃ w₁, now.shrinkLast size = (.ok p, w₁) ∧ w₁.expandLast size true = (.ok p, now) := by
  refine ⟨_, rfl, by decide +kernel, by decide +kernel, by decide +kernel, by decide +kernel,
    by decide +kernel, ⟨_, rfl, rfl⟩, ?_⟩
  rintro ⟨w₁, hShrink, hExpand⟩
  obtain rfl := (Prod.ext_iff.mp hShrink).2
  cases congrArg Prod.fst hExpand

end ArenaRegistry.Arena
