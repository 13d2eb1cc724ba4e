import ArenaRegistry.Proofs.Arena.LastInChunk
import ArenaRegistry.Proofs.Arena.Retired

/-! Growing the last allocation. While its chunk has room only the first free byte moves; otherwise it
moves to a new block with all of its bytes. A big block hands its slot over and goes back to the
source; the old place in a chunk is left as it is. -/

namespace ArenaRegistry.Arena

/-- The size of the block that is asked for when the last allocation, at `last`, moves to `n`
bytes. -/
def blockFor (a : Arena) (last n : Nat) : Nat :=
  if a.isBig last then n
  else match a.route n with
    | .chunk bytes => bytes
    | .bump | .big => n

section Last

variable {a : Arena} {last : Nat}

/-- The last allocation takes whole grains. -/
theorem Shaped.sizeOfLast_whole (h : a.Shaped) (hLast : a.top.last = some last) :
    Size.IsWhole (a.sizeOfLast last) := by
  obtain ⟨below, -, hSits, -⟩ := h.exists_below
  exact hSits.last_size_whole h (a.lastSpan?_top hLast)

theorem Shaped.topBig?_of_isBig (h : a.Shaped) (hLast : a.top.last = some last)
    (hBig : a.isBig last = true) : a.topBig? = some ⟨last, a.sizeOfLast last⟩ := by
  obtain ⟨below, -, hSits, -⟩ := h.exists_below
  obtain ⟨-, old, hOld, rfl⟩ := hSits.own_of_isBig hLast hBig
  rw [hOld, sizeOfLast_of_topBig hOld]

/-- The last allocation starts inside a block of the arena, even where it has no bytes. -/
theorem Shaped.exists_held (h : a.Shaped) (hLast : a.top.last = some last) :
    ∃ block ∈ a.held, block.Contains last := by
  cases hBig : a.isBig last with
  | true =>
    have hFound := h.topBig?_of_isBig hLast hBig
    have hMem : (⟨last, a.sizeOfLast last⟩ : Span) ∈ a.held :=
      List.mem_append_right _ (bigAt?_mem hFound)
    exact ⟨_, hMem, Nat.le_refl _, Nat.lt_add_of_pos_right (h.sizes _ hMem).2⟩
  | false =>
    obtain ⟨offset, hAt⟩ := h.exists_lastAt hLast hBig
    refine ⟨a.chunk, List.mem_append_left _ h.chunk_mem, ?_⟩
    have := hAt.lt
    rw [hAt.eq]
    unfold Span.Contains Span.stop
    omega

theorem Shaped.lastSize?_replaceBig (h : a.Shaped) (block : Span)
    (hLast : a.top.last = some last) (hBig : a.isBig last = true) :
    (a.replaceBig block).lastSize? = some block.size := by
  obtain ⟨hTop, hFound⟩ := h.top_replaceBig block hLast hBig
  exact lastSize?_of_lastSpan? (lastSpan?_of_big (by rw [hTop]) hFound)

end Last

namespace World

variable {σ : Type} {src : BlockSource σ} {w w' : World (Traced σ)} {last grown p increment : Nat}
  {inPlace : Bool}

/-! ### What is asked for -/

/-- A move is answered as the request for its block is: with the start of the block, or with the
refusal. -/
theorem moveLast_answer (increment : Nat) (hCramped : w.arena.Cramped last grown)
    (hWhole : Size.IsWhole (w.arena.sizeOfLast last + grown))
    (hFits : w.arena.sizeOfLast last + grown ≤ Size.largest) :
    (w.moveLast last increment grown).1 =
      (w.acquire (w.arena.blockFor last (w.arena.sizeOfLast last + grown))).1.map Span.start := by
  simp only [moveLast, if_neg (Nat.not_lt.mpr hFits)]
  generalize w.arena.sizeOfLast last = used at *
  cases hBig : w.arena.isBig last with
  | true =>
    simp only [if_true, blockFor, hBig, moveBig]
    rcases w.acquire (used + grown) with ⟨_ | block, w₁⟩ <;> rfl
  | false =>
    have hFull : w.arena.remaining < used + grown := by
      rcases hCramped with hIsBig | hFull
      · rw [hBig] at hIsBig
        cases hIsBig
      · omega
    have hValid : ¬InvalidRequest (used + grown) := by
      unfold InvalidRequest
      omega
    simp only [Bool.false_eq_true, if_false, blockFor, hBig, moveFromChunk, carve, if_neg hValid,
      Size.roundUp_of_isWhole hWhole]
    cases hRoute : w.arena.route (used + grown) with
    | bump => exact absurd (route_bump.mp hRoute) (Nat.not_le.mpr hFull)
    | chunk bytes =>
      simp only [allocInChunk]
      rcases w.acquire bytes with ⟨_ | block, w₁⟩ <;> rfl
    | big =>
      simp only [allocBig]
      rcases w.acquire (used + grown) with ⟨_ | block, w₁⟩ <;> rfl

/-! ### Moving -/

/-- The last allocation, at `last`, has moved to the start of a new block and has `grown` bytes
more. -/
structure Moved (w : World (Traced σ)) (last grown : Nat) (block : Span) (w' : World (Traced σ)) :
    Prop where
  asked : block.size = w.arena.blockFor last (w.arena.sizeOfLast last + grown)
  elsewhere : block.start ≠ last
  carried : ∀ i < w.arena.sizeOfLast last, w'.memory (block.start + i) = w.memory (last + i)
  size : w'.arena.lastSize? = some (w.arena.sizeOfLast last + grown)
  /-- A big block hands its slot over and goes back to the source. -/
  big : w.arena.isBig last = true →
    w.arena.topBig? = some ⟨last, w.arena.sizeOfLast last⟩ ∧
      w'.arena = w.arena.replaceBig block ∧
      w'.traffic = w.traffic ++ [.granted block, .released ⟨last, w.arena.sizeOfLast last⟩]
  /-- From a chunk it goes to the start of a new chunk, or becomes a big block. -/
  chunk : w.arena.isBig last = false →
    (w'.arena = w.arena.openChunk block (w.arena.sizeOfLast last + grown) ∨
      w'.arena = w.arena.addBig block) ∧
    w'.traffic = w.traffic ++ [.granted block]

theorem Edits.start_ne {e : Edit} {block : Span} (h : w.Edits e w') (hw : w.Orderly src)
    (hSound : Traffic.Sound w'.traffic) (hBlock : e.block? = some block) (hPos : 0 < block.size)
    (hLast : w.arena.top.last = some last) : block.start ≠ last := by
  rintro rfl
  obtain ⟨b, hHeld, hInside⟩ := hw.wellFormed.exists_held hLast
  have hApart := h.granted_apart hw hSound hBlock b hHeld
  exact hApart.not_contains hInside ⟨Nat.le_refl _, Nat.lt_add_of_pos_right hPos⟩

/-- When the last allocation gets no smaller, it keeps all of its bytes. -/
theorem Relocates.carried_all (h : w.Relocates last p w')
    (hSize : w'.arena.lastSize? = some (w.arena.sizeOfLast last + grown)) :
    ∀ i < w.arena.sizeOfLast last, w'.memory (p + i) = w.memory (last + i) := by
  rw [lastSize?_of_last h.moves.last, Option.some.injEq] at hSize
  intro i hi
  refine h.carried i ?_
  omega

theorem moveBig_moved (hw : w.Orderly src) (hLast : w.arena.top.last = some last)
    (hBig : w.arena.isBig last = true) (hWhole : Size.IsWhole grown)
    (hMove : w.moveBig last (w.arena.sizeOfLast last) (w.arena.sizeOfLast last + grown) =
      (.ok p, w'))
    (hSound : Traffic.Sound w'.traffic) : ∃ block, p = block.start ∧ w.Moved last grown block w' := by
  have h := moveBig_replaces hw.source hLast hBig hWhole
  rw [hMove] at h
  obtain ⟨block, rfl, hSize, hEdits, hCarries⟩ := h
  have hRelocates := (Resized.replace block hEdits hCarries).relocates hw hLast hSound
  have hOld := hw.wellFormed.topBig?_of_isBig hLast hBig
  have hOldPos := (hw.wellFormed.sizes _ (List.mem_append_right _ (bigAt?_mem hOld))).2
  have hNewSize : w'.arena.lastSize? = some (w.arena.sizeOfLast last + grown) := by
    rw [hEdits.arena, ← hSize]
    exact hw.wellFormed.lastSize?_replaceBig block hLast hBig
  refine ⟨block, rfl, ?_, hEdits.start_ne hw hSound rfl ?_ hLast, hRelocates.carried_all hNewSize,
    hNewSize, fun _ => ⟨hOld, hEdits.arena, ?_⟩,
    fun hNotBig => absurd hBig (Bool.eq_false_iff.mp hNotBig)⟩
  · rw [hSize, blockFor, if_pos hBig]
  · rw [hSize]
    exact Nat.lt_of_lt_of_le hOldPos (Nat.le_add_right _ _)
  · rw [hEdits.traffic, Edit.traffic, hOld]
    rfl

/-- What is carved from a new block lies at its start, and the block is a new chunk or a big
block. -/
theorem Edits.place_of_carves {e : Edit} {block span : Span} (h : w.Edits e w')
    (hBlock : e.block? = some block) (hCarves : e.Carves w.arena span) :
    span.start = block.start ∧ w'.traffic = w.traffic ++ [.granted block] ∧
      (w'.arena = w.arena.openChunk block span.size ∧
          w.arena.route span.size = .chunk block.size ∨
        w'.arena = w.arena.addBig block ∧ w.arena.route span.size = .big ∧
          block.size = span.size) := by
  rw [h.arena, h.traffic]
  cases e with
  | bump n => cases hBlock
  | openChunk opened n =>
    obtain rfl : opened = block := Option.some.inj hBlock
    obtain rfl : span = ⟨opened.start, n⟩ := hCarves
    exact ⟨rfl, rfl, .inl ⟨rfl, h.fits.2.2⟩⟩
  | addBig added =>
    obtain rfl : added = block := Option.some.inj hBlock
    obtain rfl : span = added := hCarves
    exact ⟨rfl, rfl, .inr ⟨rfl, h.fits.2.2, rfl⟩⟩
  | _ => exact hCarves.elim

theorem moveFromChunk_moved (hw : w.Orderly src) (hLast : w.arena.top.last = some last)
    (hNotBig : w.arena.isBig last = false) (hWhole : Size.IsWhole grown)
    (hRoom : w.arena.remaining < grown)
    (hMove : w.moveFromChunk last (w.arena.sizeOfLast last) (w.arena.sizeOfLast last + grown) =
      (.ok p, w'))
    (hSound : Traffic.Sound w'.traffic) : ∃ block, p = block.start ∧ w.Moved last grown block w' := by
  have h := moveFromChunk_serves hw.source last hRoom
  rw [hMove] at h
  obtain ⟨e, block, span, rfl, hBlock, hSize, hEdits, hCarves, hCarries⟩ := h
  have hUsed := hw.wellFormed.sizeOfLast_whole hLast
  rw [Size.roundUp_of_isWhole (by unfold Size.IsWhole at *; omega)] at hSize
  have hNewSize : w'.arena.lastSize? = some (w.arena.sizeOfLast last + grown) := by
    rw [lastSize?_of_lastSpan? (hEdits.adds hw hSound hCarves).last, hSize]
  have hPos : 0 < block.size := by
    have hWithin := hEdits.within hBlock hCarves
    unfold Span.Within Span.stop at hWithin
    omega
  have hRelocates := (Resized.move e span hEdits hCarves hCarries).relocates hw hLast hSound
  obtain ⟨hStart, hTraffic, hPlace⟩ := hEdits.place_of_carves hBlock hCarves
  rw [hStart] at hRelocates ⊢
  rw [hSize] at hPlace
  refine ⟨block, rfl, ?_, hEdits.start_ne hw hSound hBlock hPos hLast,
    hRelocates.carried_all hNewSize, hNewSize,
    fun hBig => absurd hBig (Bool.eq_false_iff.mp hNotBig),
    fun _ => ⟨hPlace.imp And.left And.left, hTraffic⟩⟩
  rw [blockFor, if_neg (Bool.eq_false_iff.mp hNotBig)]
  rcases hPlace with ⟨-, hRoute⟩ | ⟨-, hRoute, hBlockSize⟩
  · rw [hRoute]
  · rw [hRoute, hBlockSize]

theorem moveLast_cases (h : w.moveLast last increment grown = (.ok p, w')) :
    (w.arena.isBig last = true ∧
        w.moveBig last (w.arena.sizeOfLast last) (w.arena.sizeOfLast last + grown) = (.ok p, w')) ∨
      (w.arena.isBig last = false ∧
        w.moveFromChunk last (w.arena.sizeOfLast last) (w.arena.sizeOfLast last + grown) =
          (.ok p, w')) := by
  simp only [moveLast] at h
  split at h
  · cases h
  split at h
  next hBig => exact .inl ⟨hBig, h⟩
  next hBig => exact .inr ⟨Bool.eq_false_iff.mpr hBig, h⟩

theorem moveLast_moved (hw : w.Orderly src) (hLast : w.arena.top.last = some last)
    (hWhole : Size.IsWhole grown) (hCramped : w.arena.Cramped last grown)
    (hMove : w.moveLast last increment grown = (.ok p, w'))
    (hSound : Traffic.Sound w'.traffic) : ∃ block, p = block.start ∧ w.Moved last grown block w' := by
  rcases moveLast_cases hMove with ⟨hBig, hMove⟩ | ⟨hNotBig, hMove⟩
  · exact moveBig_moved hw hLast hBig hWhole hMove hSound
  · have hRoom := hCramped.resolve_left (Bool.eq_false_iff.mp hNotBig)
    exact moveFromChunk_moved hw hLast hNotBig hWhole hRoom hMove hSound

/-! ### Growing -/

/-- Where the last allocation grows, it does so in place or moves. -/
theorem expandLast_cases (hw : w.Orderly src) (hLast : w.arena.top.last = some last)
    (hValid : increment ≤ Size.largest) (hExpand : w.expandLast increment inPlace = (.ok p, w'))
    (hSound : Traffic.Sound w'.traffic) :
    (∃ offset, p = last ∧ w.arena.LastAt last offset ∧
        w' = w.withFree (w.arena.top.free + Size.roundUp increment)) ∨
      ∃ block, p = block.start ∧ w.Moved last (Size.roundUp increment) block w' := by
  by_cases hCramped : w.arena.Cramped last (Size.roundUp increment)
  · rw [expandLast_of_cramped hLast hValid hCramped] at hExpand
    split at hExpand
    · cases hExpand
    · exact .inr (moveLast_moved hw hLast (Size.isWhole_roundUp _) hCramped hExpand hSound)
  · rw [cramped_iff, not_not, Bool.not_eq_true'] at hCramped
    obtain ⟨offset, hAt⟩ := hw.wellFormed.exists_lastAt hLast hCramped.1
    rw [expandLast_of_room hAt inPlace hValid hCramped.2] at hExpand
    cases hExpand
    exact .inl ⟨offset, rfl, hAt, rfl⟩

/-- Growing adds the increment, in whole grains, to the size of the last allocation. -/
theorem lastSize?_expandLast (hw : w.Orderly src) (hValid : increment ≤ Size.largest)
    (hExpand : w.expandLast increment inPlace = (.ok p, w')) (hSound : Traffic.Sound w'.traffic) :
    w'.arena.lastSize? = some (w.arena.lastSize?.getD 0 + Size.roundUp increment) := by
  cases hLast : w.arena.top.last with
  | none =>
    rw [expandLast_of_none hLast] at hExpand
    rcases hCarve : w.carve increment .exact with ⟨_ | span, w₁⟩ <;> rw [hCarve] at hExpand
    · cases hExpand
    · cases hExpand
      obtain ⟨hSize, hExact⟩ := lastSize?_carve hw hCarve hSound
      rw [hSize, hExact rfl, lastSize?, hLast, Option.map_none, Option.getD_none, Nat.zero_add]
  | some last =>
    rw [lastSize?_of_last hLast, Option.getD_some]
    rcases expandLast_cases hw hLast hValid hExpand hSound with ⟨offset, -, hAt, rfl⟩ |
      ⟨block, -, hMoved⟩
    · have hFree : w.arena.top.free + Size.roundUp increment =
          offset + (w.arena.sizeOfLast last + Size.roundUp increment) := by
        have := hAt.size
        have := hAt.le
        omega
      rw [hFree]
      exact hAt.lastSize?_withFree _
    · exact hMoved.size

/-- An allocation that moves out of its chunk is carved anew. -/
theorem expandLast_carves (hs : w.source = src.traced) (hLast : w.arena.top.last = some last)
    (hNotBig : w.arena.isBig last = false) (hValid : increment ≤ Size.largest)
    (hRoom : w.arena.remaining < Size.roundUp increment)
    (hExpand : w.expandLast increment inPlace = (.ok p, w')) :
    ∃ e span, p = span.start ∧ w.Edits e w' ∧ e.Carves w.arena span := by
  rw [expandLast_of_cramped hLast hValid (.inr hRoom)] at hExpand
  split at hExpand
  · cases hExpand
  · have hMove := (moveLast_cases hExpand).resolve_left fun h => Bool.eq_false_iff.mp hNotBig h.1
    have h := moveFromChunk_serves hs last hRoom
    rw [hMove.2] at h
    obtain ⟨e, block, span, hStart, -, -, hEdits, hCarves, -⟩ := h
    exact ⟨e, span, hStart, hEdits, hCarves⟩

end World

/-! ### Sessions -/

/-- What comes of growing the last allocation of a session. -/
structure Session.Grows {σ : Type} (s : Session (Traced σ)) (increment : Nat) (inPlace : Bool) :
    Prop where
  /-- Without a last allocation it is an allocation that does not heed the wish to panic. -/
  absent : s.world.arena.top.last = none →
    s.world.alloc increment = World.policed (s.world.expandLast increment inPlace)
  /-- While its chunk has room, only the first free byte moves. -/
  room : ∀ p, s.world.arena.top.last = some p →
    ¬s.world.arena.Cramped p (Size.roundUp increment) →
      s.world.expandLast increment inPlace =
        (.ok p, s.world.withArena (s.world.arena.extend (Size.roundUp increment)))
  pinned : ∀ p, s.world.arena.top.last = some p →
    s.world.arena.Cramped p (Size.roundUp increment) → inPlace = true →
      s.world.expandLast increment inPlace = (.error (.cannotExpandInPlace increment), s.world)
  tooLarge : ∀ p, s.world.arena.top.last = some p →
    s.world.arena.Cramped p (Size.roundUp increment) → inPlace = false →
    Size.largest < s.world.arena.sizeOfLast p + Size.roundUp increment →
      s.world.expandLast increment inPlace = (.error (.invalidSize increment), s.world)
  /-- It is granted just where the block is that it asks for. -/
  answer : ∀ p, s.world.arena.top.last = some p →
    s.world.arena.Cramped p (Size.roundUp increment) → inPlace = false →
    s.world.arena.sizeOfLast p + Size.roundUp increment ≤ Size.largest →
      (s.world.expandLast increment inPlace).1 =
        (s.world.acquire (s.world.arena.blockFor p
          (s.world.arena.sizeOfLast p + Size.roundUp increment))).1.map Span.start
  moved : ∀ p q w', s.world.arena.top.last = some p →
    s.world.arena.Cramped p (Size.roundUp increment) →
    s.world.expandLast increment inPlace = (.ok q, w') →
      ∃ block, q = block.start ∧ s.world.Moved p (Size.roundUp increment) block w'
  /-- Until the mark is popped, the place in a chunk that was left is not handed out again. -/
  left : ∀ p q later, s.world.arena.top.last = some p → s.world.arena.isBig p = false →
    s.world.arena.remaining < Size.roundUp increment →
    (s.world.expandLast increment inPlace).1 = .ok q →
    (s.call (.expandLast increment inPlace)).Spares s.world.arena.depth later →
    Traffic.Sound ((s.call (.expandLast increment inPlace)).run later).world.traffic →
      (∀ span ∈ ((s.call (.expandLast increment inPlace)).run later).ledger.flatMap Level.spans,
        span.Disjoint ⟨p, s.world.arena.sizeOfLast p⟩) ∧
      ∀ i < s.world.arena.sizeOfLast p,
        ((s.call (.expandLast increment inPlace)).run later).world.memory (p + i) =
          s.world.memory (p + i)
  size : ∀ q w', s.world.expandLast increment inPlace = (.ok q, w') →
    w'.arena.lastSize? = some (s.world.arena.lastSize?.getD 0 + Size.roundUp increment)

namespace Session

variable {σ : Type} {src : BlockSource σ} {s : Session (Traced σ)} {increment p q : Nat}
  {inPlace : Bool} {w' : World (Traced σ)}

theorem call_expandLast (h : s.world.expandLast increment inPlace = (.ok q, w')) :
    s.call (.expandLast increment inPlace) =
      ⟨w', s.ledger.resize w'.memory ⟨q, w'.arena.lastSize?.getD 0⟩⟩ := by
  simp only [call, World.step, h, World.reported, replied, World.book]
  rfl

theorem left_of_moved (h : s.world.Booked src s.ledger)
    (hLast : s.world.arena.top.last = some p) (hNotBig : s.world.arena.isBig p = false)
    (hValid : increment ≤ Size.largest)
    (hRoom : s.world.arena.remaining < Size.roundUp increment)
    (hExpand : s.world.expandLast increment inPlace = (.ok q, w')) {later : List Action}
    (hSpares : (s.call (.expandLast increment inPlace)).Spares s.world.arena.depth later)
    (hSound : Traffic.Sound ((s.call (.expandLast increment inPlace)).run later).world.traffic) :
    (∀ span ∈ ((s.call (.expandLast increment inPlace)).run later).ledger.flatMap Level.spans,
        span.Disjoint ⟨p, s.world.arena.sizeOfLast p⟩) ∧
      ∀ i < s.world.arena.sizeOfLast p,
        ((s.call (.expandLast increment inPlace)).run later).world.memory (p + i) =
          s.world.memory (p + i) := by
  have hSource := step_source h.orderly.source (.call (.expandLast increment inPlace))
  have hSoundNow := hSound.before (run_traffic_grows hSource later)
  have hBooked := step_booked h (.call (.expandLast increment inPlace)) hSoundNow
  obtain ⟨e, span, rfl, hEdits, hCarves⟩ :=
    World.expandLast_carves h.orderly.source hLast hNotBig hValid hRoom hExpand
  have hCall := call_expandLast hExpand
  rw [step, hCall] at hSoundNow hBooked
  have hAdds := hEdits.adds h.orderly hSoundNow hCarves
  rw [lastSize?_of_lastSpan? hAdds.last, Option.getD_some] at hCall hBooked
  obtain ⟨old, full, hOld, hLive, hOmits, hFull⟩ :=
    h.retire hLast hEdits hCarves hSoundNow hBooked
  rw [hCall] at hSpares hSound ⊢
  obtain ⟨hApart, hKept⟩ := Ledger.Omits.retired hOmits hFull hSpares hSound
  have hContents := h.contents old hLive
  rw [hOld] at hApart hKept hContents
  exact ⟨hApart, fun i hi => (hKept i hi).trans (hContents i hi).symm⟩

theorem grows (h : s.world.Booked src s.ledger) (hValid : increment ≤ Size.largest)
    (hSound : Traffic.Sound (s.call (.expandLast increment inPlace)).world.traffic) :
    s.Grows increment inPlace := by
  have hSoundOf {q : Nat} {w' : World (Traced σ)}
      (hExpand : s.world.expandLast increment inPlace = (.ok q, w')) : Traffic.Sound w'.traffic := by
    rwa [call_expandLast hExpand] at hSound
  exact {
    absent := fun hLast => by rw [World.alloc, World.expandLast_of_none hLast]
    room := fun p hLast hRoom => by
      rw [cramped_iff, not_not, Bool.not_eq_true'] at hRoom
      obtain ⟨offset, hAt⟩ := h.orderly.wellFormed.exists_lastAt hLast hRoom.1
      rw [World.expandLast_of_room hAt inPlace hValid hRoom.2, extend_eq_withFree hAt.nonempty,
        World.withFree]
    pinned := fun p hLast hCramped hInPlace => by
      rw [World.expandLast_of_cramped hLast hValid hCramped, if_pos hInPlace]
    tooLarge := fun p hLast hCramped hInPlace hLarge => by
      rw [World.expandLast_of_cramped hLast hValid hCramped, hInPlace]
      simp only [Bool.false_eq_true, if_false, World.moveLast, if_pos hLarge]
    answer := fun p hLast hCramped hInPlace hFits => by
      have hUsed := h.orderly.wellFormed.sizeOfLast_whole hLast
      have hUp := Size.isWhole_roundUp increment
      rw [World.expandLast_of_cramped hLast hValid hCramped, hInPlace]
      refine World.moveLast_answer increment hCramped ?_ hFits
      unfold Size.IsWhole at *
      omega
    moved := fun p q w' hLast hCramped hExpand => by
      have hSound' := hSoundOf hExpand
      rw [World.expandLast_of_cramped hLast hValid hCramped] at hExpand
      split at hExpand
      · cases hExpand
      · exact World.moveLast_moved h.orderly hLast (Size.isWhole_roundUp _) hCramped hExpand hSound'
    left := fun p q later hLast hNotBig hRoom hExpand hSpares hLater =>
      left_of_moved h hLast hNotBig hValid hRoom (Prod.ext hExpand rfl) hSpares hLater
    size := fun q w' hExpand =>
      World.lastSize?_expandLast h.orderly hValid hExpand (hSoundOf hExpand) }

end Session

/-- However a source grants and refuses and whatever was called and written before: the last
allocation grows in place while its chunk has room, and otherwise moves if it may and if the block
that it needs is granted. It keeps its bytes and has the increment more of them, in whole grains;
what a big block leaves goes back, and what is left in a chunk lies idle until the mark is
popped. -/
theorem run_grows {σ : Type} (src : BlockSource σ) (settings : Settings) (id : Nat)
    (host : Host (Traced σ)) (w : World (Traced σ)) (actions : List Action) (increment : Nat)
    (inPlace : Bool) (hStart : (start src.traced settings id host).1 = .ok w)
    (hFresh : host.store.traffic = []) (hValid : increment ≤ Size.largest)
    (hSound : Traffic.Sound
      (((Session.begin w).run actions).call (.expandLast increment inPlace)).world.traffic) :
    ((Session.begin w).run actions).Grows increment inPlace := by
  have hSource : ((Session.begin w).run actions).world.source = src.traced :=
    Session.run_source (World.exists_start hStart).1 actions
  have hGrows := Session.step_traffic_grows hSource (.call (.expandLast increment inPlace))
  exact Session.grows (Session.begin_run_booked hStart hFresh (hSound.before hGrows)) hValid hSound

/-- What moves out of its chunk leaves bytes there that the next calls do not get. -/
theorem run_grows_limited :
    let actions : List Action :=
      [.call (.alloc 100), .call .pushMark, .call (.alloc 7600), .write 0 0 0 [1, 2, 3]]
    let later : List Action := [.call (.alloc 200), .call (.pushFrame 100), .call .popFrame]
    ∃ w : World (Traced Heap),
      (start Heap.limited.traced ⟨0, false⟩ 1 Host.blank).1 = .ok w ∧
        ((Session.begin w).run actions).Grows 2000 false ∧
        ∀ span ∈ ((((Session.begin w).run actions).call (.expandLast 2000 false)).run
          later).ledger.flatMap Level.spans, span.Disjoint ⟨0x100000000d8, 7600⟩ := by
  intro actions later
  have hGrows := run_grows Heap.limited ⟨0, false⟩ 1 Host.blank _ actions 2000 false rfl rfl
    (by decide) (by decide +kernel)
  obtain ⟨hApart, -⟩ := hGrows.left 0x100000000d8 0x10000001f50 later (by decide +kernel)
    (by decide +kernel) (by decide +kernel) (by decide +kernel) (by decide +kernel)
    (by decide +kernel)
  refine ⟨_, rfl, hGrows, fun span hSpan => ?_⟩
  have hSize : ∀ n, n = 7600 → span.Disjoint ⟨0x100000000d8, n⟩ →
      span.Disjoint ⟨0x100000000d8, 7600⟩ := by
    rintro n rfl h
    exact h
  exact hSize _ (by decide +kernel) (hApart span hSpan)

end ArenaRegistry.Arena
