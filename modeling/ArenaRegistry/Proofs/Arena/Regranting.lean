import ArenaRegistry.Proofs.Arena.Resizing

/-! What a call gives the last allocation: how many bytes it has then, and where. In its chunk it may
have any size that there is room for; elsewhere it gets a block of the size asked for, which takes the
place of a big block or is carved anew. Where blocks start makes no difference to that. -/

namespace ArenaRegistry.Arena.World

variable {σ : Type} {src : BlockSource σ} {w w' : World (Traced σ)} {last n : Nat}

/-- How the last allocation, at `last`, gets `n` bytes and where it is then. -/
inductive Regrants (w : World (Traced σ)) (last n : Nat) : Nat → World (Traced σ) → Prop
  | same (size : w.arena.sizeOfLast last = n) : Regrants w last n last w
  | refill {w' : World (Traced σ)} {e : Edit} {offset : Nat} (edit : w.Edits e w')
      (stays : e.Stays) (place : w.arena.LastAt last offset)
      (arena : w'.arena = w.arena.withFree (offset + n)) : Regrants w last n last w'
  | replace {w' : World (Traced σ)} {block : Span} (edit : w.Edits (.replaceBig block) w')
      (isBig : w.arena.isBig last = true) (size : block.size = n) : Regrants w last n block.start w'
  | move {w' : World (Traced σ)} {e : Edit} {span : Span} (edit : w.Edits e w')
      (carves : e.Carves w.arena span) (notBig : w.arena.isBig last = false)
      (size : span.size = n) : Regrants w last n span.start w'

/-- In its chunk the last allocation may have any size in whole grains that there is room for. -/
theorem regrants_withFree {offset : Nat} (hAt : w.arena.LastAt last offset)
    (hWhole : Size.IsWhole n) (hRoom : offset + n ≤ w.arena.chunk.size) :
    w.Regrants last n last (w.withFree (offset + n)) := by
  have hSize := hAt.size
  have hStart := hAt.le
  rcases Nat.le_total n (w.arena.sizeOfLast last) with hLess | hMore
  · have hFits : (Edit.retract (w.arena.sizeOfLast last - n)).Fits w.arena :=
      ⟨last, hAt.last, hAt.notBig, Nat.sub_le _ _, .inr (by rwa [Nat.sub_sub_self hLess])⟩
    have hFree : offset + n = w.arena.top.free - (w.arena.sizeOfLast last - n) := by omega
    refine .refill ⟨hFits, rfl, ?_, (List.append_nil _).symm, fun _ _ => rfl⟩ trivial hAt rfl
    rw [edit, retract_eq_withFree hAt.nonempty, ← hFree, withFree_arena]
  · have hFits : (Edit.extend (n - w.arena.sizeOfLast last)).Fits w.arena := by
      have hFirst := hAt.whole
      have hEnd := hAt.free_whole
      refine ⟨?_, ?_, last, hAt.last, hAt.notBig⟩
      · unfold Size.IsWhole at *
        omega
      · unfold remaining
        omega
    have hFree : offset + n = w.arena.top.free + (n - w.arena.sizeOfLast last) := by omega
    refine .refill ⟨hFits, rfl, ?_, (List.append_nil _).symm, fun _ _ => rfl⟩ trivial hAt rfl
    rw [edit, extend_eq_withFree hAt.nonempty, ← hFree, withFree_arena]

theorem moveLast_regrants (hw : w.InShape src) (hLast : w.arena.top.last = some last)
    {increment grown : Nat} (hWhole : Size.IsWhole grown) (hCramped : w.arena.Cramped last grown) :
    Outcome (w.Regrants last (w.arena.sizeOfLast last + grown)) w.Fails
      (w.moveLast last increment grown) := by
  unfold moveLast
  simp only
  split
  · exact .inl rfl
  split
  next hBig =>
    refine (moveBig_replaces hw.source hLast hBig hWhole).mono ?_ fun _ h => h
    rintro p w' ⟨block, rfl, hSize, hEdits, -⟩
    exact .replace hEdits hBig hSize
  next hNotBig =>
    have hFull := hCramped.resolve_left hNotBig
    refine (moveFromChunk_serves hw.source last hFull).mono ?_ fun _ h => h
    rintro p w' ⟨e, block, span, rfl, -, hSize, hEdits, hCarves, -⟩
    have hUsed := hw.shaped.sizeOfLast_whole hLast
    refine .move hEdits hCarves (Bool.eq_false_iff.mpr hNotBig) (hSize.trans ?_)
    refine Size.roundUp_of_isWhole ?_
    unfold Size.IsWhole at *
    omega

theorem expandLast_regrants (hw : w.InShape src) (hLast : w.arena.top.last = some last)
    (increment : Nat) (inPlace : Bool) :
    Outcome (w.Regrants last (w.arena.sizeOfLast last + Size.roundUp increment)) w.Fails
      (w.expandLast increment inPlace) := by
  have hWhole := Size.isWhole_roundUp increment
  by_cases hLarge : Size.largest < increment
  · simp only [expandLast, hLast, if_pos hLarge]
    exact .inl rfl
  by_cases hCramped : w.arena.Cramped last (Size.roundUp increment)
  · rw [expandLast_of_cramped hLast (Nat.not_lt.mp hLarge) hCramped]
    split
    · exact .inl rfl
    · exact moveLast_regrants hw hLast hWhole hCramped
  · rw [cramped_iff, not_not, Bool.not_eq_true'] at hCramped
    obtain ⟨offset, hAt⟩ := hw.shaped.exists_lastAt hLast hCramped.1
    have hUsed := hw.shaped.sizeOfLast_whole hLast
    have hSize := hAt.size
    have hStart := hAt.le
    have hRoom := hCramped.2
    have hFree : w.arena.top.free + Size.roundUp increment =
        offset + (w.arena.sizeOfLast last + Size.roundUp increment) := by omega
    rw [expandLast_of_room hAt inPlace (Nat.not_lt.mp hLarge) hRoom, hFree]
    refine regrants_withFree hAt ?_ ?_
    · unfold Size.IsWhole at *
      omega
    · unfold remaining at hRoom
      have := hAt.free_le
      omega

theorem shrinkLast_regrants (hw : w.InShape src) (hLast : w.arena.top.last = some last)
    (decrement : Nat) :
    Outcome
      (w.Regrants last
        (if w.arena.isBig last = true ∨ w.arena.sizeOfLast last < Size.roundDown decrement then
          w.arena.sizeOfLast last
        else w.arena.sizeOfLast last - Size.roundDown decrement))
      w.Fails (w.shrinkLast decrement) := by
  by_cases hStays : w.arena.isBig last = true ∨
      w.arena.sizeOfLast last < Size.roundDown decrement
  · simp only [shrinkLast, hLast, if_pos hStays]
    exact .same rfl
  · have hUsed := hw.shaped.sizeOfLast_whole hLast
    have hDown := Size.isWhole_roundDown decrement
    rw [not_or, Bool.not_eq_true, Nat.not_lt] at hStays
    obtain ⟨offset, hAt⟩ := hw.shaped.exists_lastAt hLast hStays.1
    have hSize := hAt.size
    have hStart := hAt.le
    have hEnd := hAt.free_le
    have hLe := hStays.2
    have hFree : w.arena.top.free - Size.roundDown decrement =
        offset + (w.arena.sizeOfLast last - Size.roundDown decrement) := by omega
    rw [shrinkLast_of_le hAt hLe, hFree, if_neg (by simp [hStays])]
    refine regrants_withFree hAt ?_ (by omega)
    unfold Size.IsWhole at *
    omega

theorem resizeLast_regrants (hw : w.InShape src) (hLast : w.arena.top.last = some last)
    (size : Nat) (inPlace : Bool) :
    Outcome
      (w.Regrants last
        (if w.arena.isBig last then max (w.arena.sizeOfLast last) (Size.roundUp size)
        else Size.roundUp size))
      w.Fails (w.resizeLast size inPlace) := by
  have hUp := Size.isWhole_roundUp size
  by_cases hLarge : Size.largest < size
  · simp only [resizeLast, hLast, if_pos hLarge]
    exact .inl rfl
  rcases Nat.lt_or_ge (w.arena.sizeOfLast last) (Size.roundUp size) with hMore | hLe
  · -- It grows by the difference, which is in whole grains already.
    have hUsed := hw.shaped.sizeOfLast_whole hLast
    have hGrown : w.arena.sizeOfLast last +
        Size.roundUp (Size.roundUp size - w.arena.sizeOfLast last) = Size.roundUp size := by
      rw [Size.roundUp_of_isWhole (by unfold Size.IsWhole at *; omega)]
      omega
    have hExpand := expandLast_regrants hw hLast
      (Size.roundUp size - w.arena.sizeOfLast last) inPlace
    rw [hGrown] at hExpand
    rw [resizeLast_of_lt hLast inPlace (Nat.not_lt.mp hLarge) hMore,
      Nat.max_eq_right (Nat.le_of_lt hMore), ite_self]
    exact hExpand
  · cases hBig : w.arena.isBig last with
    | true =>
      rw [resizeLast_of_isBig hLast hBig inPlace (Nat.not_lt.mp hLarge) hLe, if_pos rfl,
        Nat.max_eq_left hLe]
      exact .same rfl
    | false =>
      obtain ⟨offset, hAt⟩ := hw.shaped.exists_lastAt hLast hBig
      have hSize := hAt.size
      have hStart := hAt.le
      have hEnd := hAt.free_le
      rw [resizeLast_of_le hAt inPlace (Nat.not_lt.mp hLarge) hLe, if_neg Bool.false_ne_true]
      exact regrants_withFree hAt hUp (by omega)

end ArenaRegistry.Arena.World
