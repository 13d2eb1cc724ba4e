import ArenaRegistry.Proofs.Arena.Preservation

/-! The last allocation in its chunk. It reaches from a fixed place to the first free byte, so all
that resizing it in place does is to say where the free bytes begin, and what is said last counts. -/

namespace ArenaRegistry.Arena

/-- The arena in which so much of the current chunk is used. -/
def withFree (a : Arena) (free : Nat) : Arena := a.mapTop fun m => { m with free }

/-- The last allocation, at `address`, lies in the current chunk, `offset` bytes from its start. -/
structure LastAt (a : Arena) (address offset : Nat) : Prop where
  last : a.top.last = some address
  notBig : a.isBig address = false
  eq : address = a.chunk.start + offset
  lt : offset < a.chunk.size
  le : offset ≤ a.top.free
  free_le : a.top.free ≤ a.chunk.size
  whole : Size.IsWhole offset
  free_whole : Size.IsWhole a.top.free

/-- The last allocation cannot grow by `n` bytes where it is. -/
def Cramped (a : Arena) (last n : Nat) : Prop := a.isBig last = true ∨ a.remaining < n

section WithFree

variable {a : Arena} {address offset free : Nat}

theorem cramped_iff {n : Nat} :
    a.Cramped address n ↔ ¬((!a.isBig address) = true ∧ n ≤ a.remaining) := by
  unfold Cramped
  cases a.isBig address <;> simp

theorem marks_ne_nil_of_last (h : a.top.last = some address) : a.marks ≠ [] := by
  intro hNil
  rw [top, hNil] at h
  cases h

theorem withFree_withFree (a : Arena) (first second : Nat) :
    (a.withFree first).withFree second = a.withFree second := by
  simp only [withFree, mapTop, List.length_modify, List.modify_modify_eq]
  rfl

theorem withFree_top_free (h : a.marks ≠ []) : a.withFree a.top.free = a := by
  rw [withFree, mapTop_congr (g := fun m => m) h rfl, mapTop]
  exact congrArg (fun marks => { a with marks }) (List.modify_id _ _)

theorem extend_eq_withFree (h : a.marks ≠ []) (n : Nat) :
    a.extend n = a.withFree (a.top.free + n) := mapTop_congr h rfl

theorem retract_eq_withFree (h : a.marks ≠ []) (n : Nat) :
    a.retract n = a.withFree (a.top.free - n) := mapTop_congr h rfl

theorem top_withFree (h : a.marks ≠ []) (free : Nat) :
    (a.withFree free).top = { a.top with free } := by
  obtain ⟨below, hMarks⟩ := exists_marks_eq h
  exact top_of_marks (marks_mapTop hMarks _)

theorem chunk_withFree (h : a.marks ≠ []) (free : Nat) : (a.withFree free).chunk = a.chunk := by
  rw [chunk, top_withFree h]
  rfl

theorem isBig_withFree (h : a.marks ≠ []) (free address : Nat) :
    (a.withFree free).isBig address = a.isBig address := by
  rw [isBig, topBig?, top_withFree h]
  rfl

theorem Shaped.exists_lastAt (h : a.Shaped) (hLast : a.top.last = some address)
    (hNotBig : a.isBig address = false) : ∃ offset, a.LastAt address offset := by
  obtain ⟨below, -, hSits, -⟩ := h.exists_below
  obtain ⟨offset, hEq, hWhole, hLe, hLt, -⟩ := hSits.offset_of_not_isBig hLast hNotBig
  exact ⟨offset, hLast, hNotBig, hEq, hLt, hLe, h.free_le, hWhole, h.free_whole⟩

namespace LastAt

theorem nonempty (h : a.LastAt address offset) : a.marks ≠ [] := marks_ne_nil_of_last h.last

theorem size (h : a.LastAt address offset) : a.sizeOfLast address = a.top.free - offset := by
  rw [sizeOfLast_of_not_isBig h.notBig, h.eq, Nat.add_sub_cancel_left]

/-- It stays the last allocation, whatever it is made to use behind its start. -/
theorem withFree (h : a.LastAt address offset) (hLe : offset ≤ free) (hRoom : free ≤ a.chunk.size)
    (hWhole : Size.IsWhole free) : (a.withFree free).LastAt address offset where
  last := by rw [top_withFree h.nonempty]; exact h.last
  notBig := by rw [isBig_withFree h.nonempty]; exact h.notBig
  eq := by rw [chunk_withFree h.nonempty]; exact h.eq
  lt := by rw [chunk_withFree h.nonempty]; exact h.lt
  le := by rw [top_withFree h.nonempty]; exact hLe
  free_le := by rw [top_withFree h.nonempty, chunk_withFree h.nonempty]; exact hRoom
  whole := h.whole
  free_whole := by rw [top_withFree h.nonempty]; exact hWhole

/-- What is used behind its start is its size. -/
theorem lastSize?_withFree (h : a.LastAt address offset) (n : Nat) :
    (a.withFree (offset + n)).lastSize? = some n := by
  have hLast : (a.withFree (offset + n)).top.last = some address := by
    rw [top_withFree h.nonempty]
    exact h.last
  have hNotBig : (a.withFree (offset + n)).isBig address = false := by
    rw [isBig_withFree h.nonempty, h.notBig]
  rw [lastSize?_of_last hLast, sizeOfLast_of_not_isBig hNotBig, chunk_withFree h.nonempty,
    top_withFree h.nonempty, h.eq]
  simp

end LastAt

end WithFree

/-! ### Resizing in place -/

namespace World

variable {σ : Type} {w : World σ} {p last offset n increment : Nat}

/-- The world in whose arena so much of the current chunk is used. -/
def withFree (w : World σ) (free : Nat) : World σ := w.withArena (w.arena.withFree free)

@[simp] theorem withFree_arena (w : World σ) (free : Nat) :
    (w.withFree free).arena = w.arena.withFree free := rfl

theorem withFree_withFree (w : World σ) (first second : Nat) :
    (w.withFree first).withFree second = w.withFree second :=
  congrArg w.withArena (w.arena.withFree_withFree first second)

theorem withFree_top_free (h : w.arena.marks ≠ []) : w.withFree w.arena.top.free = w :=
  congrArg w.withArena (Arena.withFree_top_free h)

/-- Growing by what there is room for. -/
theorem expandLast_of_room (h : w.arena.LastAt p offset) (inPlace : Bool)
    (hValid : increment ≤ Size.largest) (hRoom : Size.roundUp increment ≤ w.arena.remaining) :
    w.expandLast increment inPlace =
      (.ok p, w.withFree (w.arena.top.free + Size.roundUp increment)) := by
  simp only [expandLast, h.last, if_neg (Nat.not_lt.mpr hValid), h.notBig, hRoom, Bool.not_false,
    and_self, if_true, extend_eq_withFree h.nonempty, withFree]

theorem expandLast_of_cramped (hLast : w.arena.top.last = some last)
    (hValid : increment ≤ Size.largest)
    (hCramped : w.arena.Cramped last (Size.roundUp increment)) (inPlace : Bool) :
    w.expandLast increment inPlace =
      if inPlace then (.error (.cannotExpandInPlace increment), w)
      else w.moveLast last increment (Size.roundUp increment) := by
  simp only [expandLast, hLast, if_neg (Nat.not_lt.mpr hValid), if_neg (cramped_iff.mp hCramped)]

theorem shrinkLast_of_le (h : w.arena.LastAt p offset) {decrement : Nat}
    (hLe : Size.roundDown decrement ≤ w.arena.sizeOfLast p) :
    w.shrinkLast decrement =
      (.ok p, w.withFree (w.arena.top.free - Size.roundDown decrement)) := by
  simp only [shrinkLast, h.last, h.notBig, Bool.false_eq_true, false_or,
    if_neg (Nat.not_lt.mpr hLe), retract_eq_withFree h.nonempty, withFree]

theorem resizeLast_of_le (h : w.arena.LastAt p offset) (inPlace : Bool) (hValid : n ≤ Size.largest)
    (hLe : Size.roundUp n ≤ w.arena.sizeOfLast p) :
    w.resizeLast n inPlace =
      (.ok p, w.withFree (offset + Size.roundUp n)) := by
  have hSize := h.size
  have hStart := h.le
  have hFree : w.arena.top.free - (w.arena.sizeOfLast p - Size.roundUp n) =
      offset + Size.roundUp n := by omega
  simp only [resizeLast, h.last, if_neg (Nat.not_lt.mpr hValid), h.notBig, hLe, Bool.not_false,
    and_self, if_true, retract_eq_withFree h.nonempty, hFree, withFree]

theorem resizeLast_of_lt (hLast : w.arena.top.last = some last) (inPlace : Bool)
    (hValid : n ≤ Size.largest) (hMore : w.arena.sizeOfLast last < Size.roundUp n) :
    w.resizeLast n inPlace =
      w.expandLast (Size.roundUp n - w.arena.sizeOfLast last) inPlace := by
  simp only [resizeLast, hLast, if_neg (Nat.not_lt.mpr hValid), Nat.not_le.mpr hMore, and_false,
    if_false]

/-- In place the last allocation gets every size for which its chunk has room behind its start,
whatever size it had. -/
theorem resizeLast_inPlace (h : w.arena.LastAt p offset) (hValid : Size.roundUp n ≤ Size.largest) :
    w.resizeLast n true =
      if offset + Size.roundUp n ≤ w.arena.chunk.size then
        (.ok p, w.withFree (offset + Size.roundUp n))
      else (.error (.cannotExpandInPlace (Size.roundUp n - w.arena.sizeOfLast p)), w) := by
  have hSize := h.size
  have hStart := h.le
  have hEnd := h.free_le
  have hLargest : n ≤ Size.largest := Nat.le_trans (Size.le_roundUp n) hValid
  by_cases hLe : Size.roundUp n ≤ w.arena.sizeOfLast p
  · rw [resizeLast_of_le h true hLargest hLe, if_pos (by omega)]
  have hGrown : Size.roundUp (Size.roundUp n - w.arena.sizeOfLast p) =
      Size.roundUp n - w.arena.sizeOfLast p := by
    have := Size.isWhole_roundUp n
    have := h.whole
    have := h.free_whole
    refine Size.roundUp_of_isWhole ?_
    unfold Size.IsWhole at *
    omega
  rw [resizeLast_of_lt h.last true hLargest (Nat.lt_of_not_le hLe)]
  by_cases hRoom : offset + Size.roundUp n ≤ w.arena.chunk.size
  · have hFits : Size.roundUp n - w.arena.sizeOfLast p ≤ w.arena.remaining := by
      unfold remaining
      omega
    have hFree : w.arena.top.free + (Size.roundUp n - w.arena.sizeOfLast p) =
        offset + Size.roundUp n := by omega
    rw [if_pos hRoom, expandLast_of_room h true (by omega) (hGrown.symm ▸ hFits), hGrown, hFree]
  · have hFull : w.arena.remaining < Size.roundUp n - w.arena.sizeOfLast p := by
      unfold remaining
      omega
    rw [if_neg hRoom, expandLast_of_cramped h.last (by omega) (.inr (hGrown.symm ▸ hFull)) true,
      if_pos rfl]

end World

end ArenaRegistry.Arena
