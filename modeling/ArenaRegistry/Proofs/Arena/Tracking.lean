import ArenaRegistry.Proofs.Arena.Carving
import Mathlib.Data.List.Forall2

/-! The books of a caller agree with the arena. Level by level, the newest allocation is the last
one of the mark, and all that is older, the bytes of the mark itself included, is covered without
it. Hence nothing in the ledger overlaps, and no call changes a byte that a caller keeps. -/

namespace ArenaRegistry.Arena

/-- The bytes of a level's allocations, the newest first. -/
def Level.ranges (level : Level) : List Span := level.live.map Allocation.span

/-- All bytes of a level. -/
def Level.spans (level : Level) : List Span := level.ranges ++ [level.footprint]

/-- A level as an arena has it under a mark. -/
structure Tracks (a : Arena) (m : Mark) (level : Level) : Prop where
  last : level.ranges.head? = a.lastSpan? m
  covers : ∀ s ∈ level.ranges.tail ++ [level.footprint], a.Covers (a.shed m) s

section Tracks

variable {a a' : Arena} {m : Mark} {below : List Mark} {level : Level} {ledger : Ledger}

theorem Agrees.lastSpan? (h : a.Agrees a' m.chunkCount m.bigCount) (hPos : 0 < m.chunkCount) :
    a'.lastSpan? m = a.lastSpan? m := by
  rw [Arena.lastSpan?, Arena.lastSpan?, h.bigAt? (Nat.le_refl _), h.chunkAt hPos (Nat.le_refl _)]

theorem Agrees.shed (h : a.Agrees a' m.chunkCount m.bigCount) (hPos : 0 < m.chunkCount) :
    a'.shed m = a.shed m := by
  rw [Arena.shed, Arena.shed, h.bigAt? (Nat.le_refl _), h.chunkAt hPos (Nat.le_refl _)]

theorem shed_counts_le (a : Arena) (m : Mark) :
    (a.shed m).chunkCount ≤ m.chunkCount ∧ (a.shed m).bigCount ≤ m.bigCount := by
  unfold shed
  split
  · exact ⟨Nat.le_refl _, Nat.le_refl _⟩
  · split
    · exact ⟨Nat.le_refl _, Nat.sub_le _ _⟩
    · exact ⟨Nat.le_refl _, Nat.le_refl _⟩

theorem Tracks.agrees (h : a.Tracks m level) (hPos : 0 < m.chunkCount)
    (hAgrees : a.Agrees a' m.chunkCount m.bigCount) : a'.Tracks m level := by
  refine ⟨by rw [h.last, hAgrees.lastSpan? hPos], fun s hs => ?_⟩
  rw [hAgrees.shed hPos]
  obtain ⟨hChunks, hBigs⟩ := a.shed_counts_le m
  exact (h.covers s hs).agrees (hAgrees.mono hChunks hBigs)

/-- What is kept beside each mark remains right as long as the blocks that the marks count remain, if
that is so mark by mark. -/
theorem forall₂_agrees {β : Type} {R R' : Mark → β → Prop} {ms : List Mark} {xs : List β}
    (hEach : ∀ m x, 0 < m.chunkCount → a.Agrees a' m.chunkCount m.bigCount → R m x → R' m x)
    (h : List.Forall₂ R ms xs) (hStacked : a.Stacked ms)
    (hAgrees : a.Agrees a' (under ms).chunkCount (under ms).bigCount) :
    List.Forall₂ R' ms xs := by
  induction h with
  | nil => exact .nil
  | cons hFirst _ ih =>
    obtain ⟨hSits, hBelow⟩ := hStacked
    exact .cons (hEach _ _ hSits.chunks_pos hAgrees hFirst)
      (ih hBelow (hAgrees.mono hSits.chunks_le hSits.bigs_le))

theorem tracks_agrees {ms : List Mark} (h : List.Forall₂ a.Tracks ms ledger)
    (hStacked : a.Stacked ms)
    (hAgrees : a.Agrees a' (under ms).chunkCount (under ms).bigCount) :
    List.Forall₂ a'.Tracks ms ledger :=
  forall₂_agrees (fun _ _ hPos hSame hLevel => hLevel.agrees hPos hSame) h hStacked hAgrees

theorem Tracks.covers_span (h : a.Tracks m level) (hSits : a.Sits below m)
    (hCount : m.chunkCount ≤ a.chunks.length) {s : Span} (hs : s ∈ level.spans) : a.Covers m s := by
  cases hRanges : level.ranges with
  | nil =>
    refine hSits.covers_of_shed (h.covers s ?_)
    rw [Level.spans, hRanges] at hs
    rwa [hRanges]
  | cons newest older =>
    rw [Level.spans, hRanges, List.cons_append] at hs
    rcases List.mem_cons.mp hs with rfl | hs
    · refine hSits.covers_last hCount ?_
      rw [← h.last, hRanges]
      rfl
    · refine hSits.covers_of_shed (h.covers s ?_)
      rwa [hRanges]

/-- The uppermost mark covers the bytes of all levels. -/
theorem covers_spans {ms : List Mark} (h : List.Forall₂ a.Tracks ms ledger)
    (hStacked : a.Stacked ms) (hCount : (under ms).chunkCount ≤ a.chunks.length) {s : Span}
    (hs : s ∈ ledger.flatMap Level.spans) : a.Covers (under ms) s := by
  induction h with
  | nil => cases hs
  | @cons m level below rest hLevel _ ih =>
    obtain ⟨hSits, hBelow⟩ := hStacked
    rw [List.flatMap_cons] at hs
    rcases List.mem_append.mp hs with hs | hs
    · exact hLevel.covers_span hSits hCount hs
    · have hLower := ih hBelow (Nat.le_trans hSits.chunks_le hCount) hs
      exact hSits.covers_of_shed (hSits.covers_shed hLower)

theorem covers_others {ms : List Mark} (hLevel : a.Tracks m level)
    (h : List.Forall₂ a.Tracks ms ledger) (hSits : a.Sits ms m) (hStacked : a.Stacked ms)
    (hCount : m.chunkCount ≤ a.chunks.length) {s : Span}
    (hs : s ∈ (level.ranges.tail ++ [level.footprint]) ++ ledger.flatMap Level.spans) :
    a.Covers (a.shed m) s := by
  rcases List.mem_append.mp hs with hs | hs
  · exact hLevel.covers s hs
  · exact hSits.covers_shed (covers_spans h hStacked (Nat.le_trans hSits.chunks_le hCount) hs)

end Tracks

/-! ### Memory that edits leave alone -/

namespace World

variable {σ : Type} {src : BlockSource σ} {w w' : World (Traced σ)}

/-- A block that is granted shares no byte with those held. -/
theorem Edits.granted_apart {e : Edit} {block : Span} (h : w.Edits e w') (hw : w.Orderly src)
    (hSound : Traffic.Sound w'.traffic) (hBlock : e.block? = some block) :
    ∀ b ∈ w.arena.held, b.Disjoint block := by
  have hTraffic : ∃ more, e.traffic w.arena = .granted block :: more := by
    cases e with
    | openChunk _ _ | addBig _ | enterOwn _ | replaceBig _ => cases hBlock; exact ⟨_, rfl⟩
    | _ => cases hBlock
  obtain ⟨more, hMore⟩ := hTraffic
  have hPast : w.traffic ++ [.granted block] <+: w'.traffic := by
    rw [h.traffic, hMore]
    exact ⟨more, List.append_assoc _ _ _⟩
  have hApart := (hSound.before hPast).apart.disjoint
  rw [Traffic.outstanding_append] at hApart
  intro b hb
  exact ((List.pairwise_cons.mp hApart).1 b (hw.balance.mem_iff.mpr hb)).symm

theorem Edits.not_granted {e : Edit} {block s : Span} {m : Mark} (h : w.Edits e w')
    (hw : w.Orderly src) (hSound : Traffic.Sound w'.traffic) (hBlock : e.block? = some block)
    (hs : w.arena.Covers m s) {i : Nat} (hi : i < s.size) : ¬block.Contains (s.start + i) := by
  obtain ⟨b, hb, hWithin⟩ := hs.within
  have hIn : s.Contains (s.start + i) := by
    unfold Span.Contains Span.stop
    omega
  exact (h.granted_apart hw hSound hBlock b hb).not_contains (hWithin.contains hIn)

theorem Edits.memory_of_covers {e : Edit} {m : Mark} {s : Span} (h : w.Edits e w')
    (hw : w.Orderly src) (hSound : Traffic.Sound w'.traffic) (hs : w.arena.Covers m s) {i : Nat}
    (hi : i < s.size) : w'.memory (s.start + i) = w.memory (s.start + i) :=
  h.memory _ fun _ hBlock => h.not_granted hw hSound hBlock hs hi

/-- Only the current mark changes, and no byte that a mark covers does. -/
structure Alters (w w' : World (Traced σ)) : Prop where
  marks : ∀ below, w.arena.marks = below ++ [w.arena.top] →
    w'.arena.marks = below ++ [w'.arena.top]
  agrees : ∀ below : List Mark, w.arena.Sits below.reverse w.arena.top →
    w.arena.Agrees w'.arena (under below.reverse).chunkCount (under below.reverse).bigCount
  memory : ∀ m s i, w.arena.Covers m s → i < s.size →
    w'.memory (s.start + i) = w.memory (s.start + i)

theorem Alters.refl (w : World (Traced σ)) : w.Alters w :=
  ⟨fun _ h => h, fun _ _ => ⟨rfl, rfl, rfl⟩, fun _ _ _ _ _ => rfl⟩

theorem Edits.alters {e : Edit} (h : w.Edits e w') (hw : w.Orderly src)
    (hSound : Traffic.Sound w'.traffic) (hStays : e.Stays) : w.Alters w' := by
  refine ⟨fun below hMarks => ?_, fun below hSits => ?_, fun m s i hs hi => ?_⟩
  · rw [h.arena]
    exact marks_edit_of_stays hMarks hStays
  · rw [h.arena]
    exact hw.wellFormed.agrees_edit hSits h.fits (by rintro depth rfl; exact hStays.elim)
  · exact h.memory_of_covers hw hSound hs hi

/-- What an edit carves is the last allocation then. -/
theorem Edits.adds {e : Edit} {span : Span} (h : w.Edits e w') (hw : w.Orderly src)
    (hSound : Traffic.Sound w'.traffic) (hCarves : e.Carves w.arena span) :
    w.arena.Adds w'.arena span := by
  have hAfter := (h.orderly hw hSound).wellFormed
  rw [h.arena] at hAfter ⊢
  exact hw.wellFormed.adds h.fits hCarves hAfter.toShaped

/-- What a request has got is the last allocation, and of whole grains if it was exact. -/
theorem lastSize?_carve {size : Nat} {claim : Claim} {span : Span} (hw : w.Orderly src)
    (hCarve : w.carve size claim = (.ok span, w')) (hSound : Traffic.Sound w'.traffic) :
    w'.arena.lastSize? = some span.size ∧ (claim = .exact → span.size = Size.roundUp size) := by
  have h := carve_outcome hw.source size claim
  rw [hCarve] at h
  obtain ⟨e, hServes⟩ := h
  exact ⟨lastSize?_of_lastSpan? (hServes.edits.adds hw hSound hServes.carves).last, hServes.exact⟩

/-- How a last allocation gets another size: it is at another place then, all else remains covered,
and as many of its bytes as there is room for are where they should be. -/
structure Relocates (w : World (Traced σ)) (last p : Nat) (w' : World (Traced σ)) : Prop where
  alters : w.Alters w'
  moves : w.arena.Moves w'.arena p
  carried : ∀ i < min (w.arena.sizeOfLast last) (w'.arena.sizeOfLast p),
    w'.memory (p + i) = w.memory (last + i)

theorem Resized.relocates {last p : Nat} (h : w.Resized last p w') (hw : w.Orderly src)
    (hLast : w.arena.top.last = some last) (hSound : Traffic.Sound w'.traffic) :
    w.Relocates last p w' := by
  obtain ⟨below, -, hSits, -⟩ := hw.wellFormed.exists_below
  have hCount := Nat.le_of_eq hw.wellFormed.chunks
  have hCovered := hSits.covers_last hCount (w.arena.lastSpan?_top hLast)
  have hOutside {e : Edit} (hEdit : w.Edits e w') {i : Nat} (hi : i < w.arena.sizeOfLast last) :
      ∀ block ∈ e.block?, ¬block.Contains (last + i) :=
    fun block hBlock => hEdit.not_granted hw hSound hBlock hCovered hi
  cases h with
  | same => exact ⟨.refl w, ⟨hLast, fun _ hs => hs⟩, fun _ _ => rfl⟩
  | extend n edit | retract n edit =>
    refine ⟨edit.alters hw hSound trivial, ?_, fun i _ => edit.memory _ nofun⟩
    rw [edit.arena]
    exact hw.wellFormed.moves edit.fits hLast
  | replace block edit carries =>
    refine ⟨edit.alters hw hSound trivial, ?_, fun i hi => ?_⟩
    · rw [edit.arena]
      exact hw.wellFormed.moves edit.fits rfl
    · have hUsed : i < w.arena.sizeOfLast last := Nat.lt_of_lt_of_le hi (Nat.min_le_left _ _)
      exact carries i hUsed (hOutside edit hUsed)
  | move e span edit carves carries =>
    have hAdds := edit.adds hw hSound carves
    refine ⟨edit.alters hw hSound (Edit.stays_of_carves carves), ⟨?_, fun s hs => ?_⟩,
      fun i hi => ?_⟩
    · exact last_of_lastSpan? hAdds.last
    · exact hAdds.covers s (hSits.covers_of_shed hs)
    · have hUsed : i < w.arena.sizeOfLast last := Nat.lt_of_lt_of_le hi (Nat.min_le_left _ _)
      exact carries i hUsed (hOutside edit hUsed)

/-! ### The invariant -/

/-- What holds of a world and the books on it between actions. -/
structure Booked (src : BlockSource σ) (w : World (Traced σ)) (ledger : Ledger) : Prop where
  orderly : w.Orderly src
  tracked : List.Forall₂ w.arena.Tracks w.arena.marks.reverse ledger
  disjoint : (ledger.flatMap Level.spans).Pairwise Span.Disjoint
  whole : ∀ r ∈ ledger.live, Size.IsWhole r.span.start ∧ Size.IsWhole r.span.size
  contents : ∀ r ∈ ledger.live, ∀ i < r.span.size, w.memory (r.span.start + i) = r.contents i

variable {ledger : Ledger}

theorem Booked.length_eq (h : w.Booked src ledger) : ledger.length = w.arena.depth + 1 := by
  rw [← h.tracked.length_eq, List.length_reverse, h.orderly.wellFormed.length_marks]

/-- The books, taken apart at the current mark. -/
theorem Booked.exists_level (h : w.Booked src ledger) :
    ∃ below level rest, w.arena.marks = below ++ [w.arena.top] ∧ ledger = level :: rest ∧
      w.arena.Sits below.reverse w.arena.top ∧ w.arena.Stacked below.reverse ∧
      w.arena.Tracks w.arena.top level ∧ List.Forall₂ w.arena.Tracks below.reverse rest := by
  obtain ⟨below, hMarks, hSits, hStacked⟩ := h.orderly.wellFormed.exists_below
  have hTracked := h.tracked
  rw [hMarks, List.reverse_append] at hTracked
  obtain ⟨level, rest, hLevel, hRest, hLedger⟩ := List.forall₂_cons_left_iff.mp hTracked
  exact ⟨below, level, rest, hMarks, hLedger, hSits, hStacked, hLevel, hRest⟩

theorem Booked.covers (h : w.Booked src ledger) {s : Span} (hs : s ∈ ledger.flatMap Level.spans) :
    w.arena.Covers w.arena.top s := by
  have hWell := h.orderly.wellFormed
  rw [← hWell.under_marks]
  refine covers_spans h.tracked hWell.stacked ?_ hs
  rw [hWell.under_marks]
  exact Nat.le_of_eq hWell.chunks

theorem span_mem_spans {r : Allocation} (h : r ∈ ledger.live) :
    r.span ∈ ledger.flatMap Level.spans := by
  obtain ⟨level, hLevel, hr⟩ := List.mem_flatMap.mp h
  exact List.mem_flatMap.mpr ⟨level, hLevel, List.mem_append_left _ (List.mem_map_of_mem hr)⟩

/-- What a caller finds in its allocations is left alone along with what is covered. -/
theorem Booked.contents_of_memory (h : w.Booked src ledger)
    (hMemory : ∀ m s i, w.arena.Covers m s → i < s.size →
      w'.memory (s.start + i) = w.memory (s.start + i)) {r : Allocation} (hr : r ∈ ledger.live)
    {i : Nat} (hi : i < r.span.size) : w'.memory (r.span.start + i) = r.contents i := by
  rw [hMemory _ _ _ (h.covers (span_mem_spans hr)) hi]
  exact h.contents r hr i hi

/-! ### Edits of the current mark -/

/-- What is carved becomes one more allocation under the current mark. -/
theorem Booked.add {e : Edit} {span : Span} (h : w.Booked src ledger) (hEdit : w.Edits e w')
    (hCarves : e.Carves w.arena span) (hSound : Traffic.Sound w'.traffic) :
    w'.Booked src (ledger.add (.found w'.memory span)) := by
  have hOrderly := hEdit.orderly h.orderly hSound
  have hAlters := hEdit.alters h.orderly hSound (Edit.stays_of_carves hCarves)
  have hAdds := hEdit.adds h.orderly hSound hCarves
  have hCovered {s : Span} (hs : s ∈ ledger.flatMap Level.spans) :
      w'.arena.Covers (w'.arena.shed w'.arena.top) s := hAdds.covers s (h.covers hs)
  have hContents {r : Allocation} (hr : r ∈ ledger.live) {i : Nat} (hi : i < r.span.size) :=
    h.contents_of_memory hAlters.memory hr hi
  obtain ⟨below, level, rest, hMarks, rfl, hSits, hStacked, hLevel, hRest⟩ := h.exists_level
  obtain ⟨below', -, hSits', -⟩ := hOrderly.wellFormed.exists_below
  have hCount := Nat.le_of_eq hOrderly.wellFormed.chunks
  have hLevel' : w'.arena.Tracks w'.arena.top
      { level with live := .found w'.memory span :: level.live } := by
    refine ⟨hAdds.last.symm, fun s hs => hCovered ?_⟩
    rw [List.flatMap_cons]
    exact List.mem_append_left _ hs
  refine ⟨hOrderly, ?_, ?_, ?_, ?_⟩
  · rw [hAlters.marks below hMarks, List.reverse_append]
    exact .cons hLevel' (tracks_agrees hRest hStacked (hAlters.agrees below hSits))
  · refine List.pairwise_cons.mpr ⟨fun s hs => ?_, h.disjoint⟩
    exact (hSits'.disjoint_last hCount hOrderly.wellFormed.apart hAdds.last (hCovered hs)).symm
  · intro r hr
    rcases List.mem_cons.mp hr with rfl | hr
    · exact hSits'.last_whole hOrderly.wellFormed hCount hAdds.last
    · exact h.whole r hr
  · intro r hr i hi
    rcases List.mem_cons.mp hr with rfl | hr
    · rfl
    · exact hContents hr hi

theorem contents_resized {r : Allocation} {span : Span} {i : Nat}
    (hHeld : ∀ i < r.span.size, w.memory (r.span.start + i) = r.contents i)
    (hCarried : ∀ i < min r.span.size span.size,
      w'.memory (span.start + i) = w.memory (r.span.start + i)) :
    w'.memory (span.start + i) = (r.resized w'.memory span).contents i := by
  by_cases hBoth : i < min r.span.size span.size
  · have hUsed : i < r.span.size := Nat.lt_of_lt_of_le hBoth (Nat.min_le_left _ _)
    rw [hCarried i hBoth, hHeld i hUsed]
    exact (if_pos hBoth).symm
  · exact (if_neg hBoth).symm

/-- A last allocation of another size takes the place of the newest one in the books. -/
theorem Booked.resize {last p : Nat} (h : w.Booked src ledger)
    (hLast : w.arena.top.last = some last) (hResized : w.Resized last p w')
    (hSound : Traffic.Sound w'.traffic) :
    w'.Booked src (ledger.resize w'.memory ⟨p, w'.arena.lastSize?.getD 0⟩) := by
  have hOrderly := (hResized.advances 0).orderly h.orderly hSound
  have hRelocates := hResized.relocates h.orderly hLast hSound
  have hSpan' := w'.arena.lastSpan?_top hRelocates.moves.last
  rw [lastSize?_of_last hRelocates.moves.last, Option.getD_some]
  have hContents {r : Allocation} (hr : r ∈ ledger.live) {i : Nat} (hi : i < r.span.size) :=
    h.contents_of_memory hRelocates.alters.memory hr hi
  obtain ⟨below, ⟨mark, live⟩, rest, hMarks, rfl, hSits, hStacked, hLevel, hRest⟩ := h.exists_level
  have hCountBefore := Nat.le_of_eq h.orderly.wellFormed.chunks
  have hNewest := hLevel.last
  rw [w.arena.lastSpan?_top hLast] at hNewest
  cases live with
  | nil => cases hNewest
  | cons r older =>
    have hOld : r.span = ⟨last, w.arena.sizeOfLast last⟩ := Option.some.inj hNewest
    have hCovered {s : Span} (hs : s ∈ (Level.ranges ⟨mark, older⟩ ++ [mark]) ++
        rest.flatMap Level.spans) : w'.arena.Covers (w'.arena.shed w'.arena.top) s :=
      hRelocates.moves.covers s (covers_others hLevel hRest hSits hStacked hCountBefore hs)
    obtain ⟨below', -, hSits', -⟩ := hOrderly.wellFormed.exists_below
    have hCount := Nat.le_of_eq hOrderly.wellFormed.chunks
    have hLevel' : w'.arena.Tracks w'.arena.top
        ⟨mark, r.resized w'.memory ⟨p, w'.arena.sizeOfLast p⟩ :: older⟩ :=
      ⟨hSpan'.symm, fun s hs => hCovered (List.mem_append_left _ hs)⟩
    refine ⟨hOrderly, ?_, ?_, ?_, ?_⟩
    · rw [hRelocates.alters.marks below hMarks, List.reverse_append]
      exact .cons hLevel' (tracks_agrees hRest hStacked (hRelocates.alters.agrees below hSits))
    · refine List.pairwise_cons.mpr ⟨fun s hs => ?_, (List.pairwise_cons.mp h.disjoint).2⟩
      exact (hSits'.disjoint_last hCount hOrderly.wellFormed.apart hSpan' (hCovered hs)).symm
    · intro x hx
      rcases List.mem_cons.mp hx with rfl | hx
      · exact hSits'.last_whole hOrderly.wellFormed hCount hSpan'
      · exact h.whole x (List.mem_cons_of_mem _ hx)
    · intro x hx i hi
      rcases List.mem_cons.mp hx with rfl | hx
      · refine contents_resized (h.contents r (List.mem_cons_self ..)) ?_
        rw [hOld]
        exact hRelocates.carried
      · exact hContents (List.mem_cons_of_mem _ hx) hi

/-! ### Pushing and popping -/

/-- A new mark gets a level of its own, with the allocation that comes with it, if there is one. -/
theorem Booked.push {e : Edit} (h : w.Booked src ledger) (hEdit : w.Edits e w')
    (hPushes : e.Pushes) (hSound : Traffic.Sound w'.traffic) :
    w'.Booked src (⟨reserved w.arena w'.arena,
      ((w'.arena.lastSpan? w'.arena.top).map (.found w'.memory)).toList⟩ :: ledger) := by
  have hOrderly := hEdit.orderly h.orderly hSound
  have hOpens := h.orderly.wellFormed.opens hEdit.fits hPushes (hEdit.arena ▸ hOrderly.wellFormed)
  have hMarks : w'.arena.marks = w.arena.marks ++ [w'.arena.top] := by
    rw [hEdit.arena]
    exact marks_edit_of_pushes hPushes
  have hAgrees : w.arena.Agrees w'.arena w.arena.chunks.length w.arena.bigBlocks.length := by
    rw [hEdit.arena]
    exact agrees_of_pushes hPushes
  rw [← hEdit.arena] at hOpens
  have hCovered {s : Span} (hs : s ∈ ledger.flatMap Level.spans) :
      w'.arena.Covers (w'.arena.shed w'.arena.top) s := hOpens.covers s (h.covers hs)
  have hContents {r : Allocation} (hr : r ∈ ledger.live) {i : Nat} (hi : i < r.span.size) :=
    h.contents_of_memory (fun _ _ _ hs hi => hEdit.memory_of_covers h.orderly hSound hs hi) hr hi
  have hBelow : List.Forall₂ w'.arena.Tracks w.arena.marks.reverse ledger := by
    refine tracks_agrees h.tracked h.orderly.wellFormed.stacked ?_
    rw [h.orderly.wellFormed.under_marks, h.orderly.wellFormed.chunks, h.orderly.wellFormed.bigs]
    exact hAgrees
  obtain ⟨below', -, hSits', -⟩ := hOrderly.wellFormed.exists_below
  have hCount := Nat.le_of_eq hOrderly.wellFormed.chunks
  have hMark : ∀ s ∈ ledger.flatMap Level.spans, (reserved w.arena w'.arena).Disjoint s :=
    fun s hs => (hOpens.apart s (h.covers hs)).symm
  -- The bytes of the mark itself are the oldest of its level, with or without an allocation on them.
  cases hLast : w'.arena.lastSpan? w'.arena.top with
  | none =>
    refine ⟨hOrderly, ?_, List.pairwise_cons.mpr ⟨hMark, h.disjoint⟩, h.whole, ?_⟩
    · rw [hMarks, List.reverse_append]
      refine .cons ⟨hLast.symm, fun s hs => ?_⟩ hBelow
      obtain rfl := List.mem_singleton.mp hs
      exact hOpens.mark
    · intro r hr i hi
      exact hContents hr hi
  | some span =>
    refine ⟨hOrderly, ?_, ?_, ?_, ?_⟩
    · rw [hMarks, List.reverse_append]
      refine .cons ⟨hLast.symm, fun s hs => ?_⟩ hBelow
      obtain rfl := List.mem_singleton.mp hs
      exact hOpens.mark
    · refine List.pairwise_cons.mpr ⟨fun s hs => ?_, List.pairwise_cons.mpr ⟨hMark, h.disjoint⟩⟩
      have hApart := hOrderly.wellFormed.apart
      rcases List.mem_cons.mp hs with rfl | hs
      · exact (hSits'.disjoint_last hCount hApart hLast hOpens.mark).symm
      · exact (hSits'.disjoint_last hCount hApart hLast (hCovered hs)).symm
    · intro r hr
      rcases List.mem_cons.mp hr with rfl | hr
      · exact hSits'.last_whole hOrderly.wellFormed hCount hLast
      · exact h.whole r hr
    · intro r hr i hi
      rcases List.mem_cons.mp hr with rfl | hr
      · rfl
      · exact hContents hr hi

theorem flatMap_keep {α : Type} (f : Level → List α) (ledger : Ledger) (count : Nat) :
    ∃ above, ledger.flatMap f = above ++ (ledger.keep count).flatMap f := by
  refine ⟨(ledger.take (ledger.length - count)).flatMap f, ?_⟩
  rw [Ledger.keep, ← List.flatMap_append, List.take_append_drop]

/-- A cut forgets the levels of the marks that are popped. -/
theorem Booked.cut {depth : Nat} (h : w.Booked src ledger) (hEdit : w.Edits (.cutTo depth) w')
    (hSound : Traffic.Sound w'.traffic) : w'.Booked src (ledger.keep (depth + 1)) := by
  have hOrderly := hEdit.orderly h.orderly hSound
  have hMemory (address : Nat) : w'.memory address = w.memory address := hEdit.memory _ nofun
  have hLive {r : Allocation} (hr : r ∈ (ledger.keep (depth + 1)).live) : r ∈ ledger.live := by
    obtain ⟨above, hSplit⟩ := flatMap_keep Level.live ledger (depth + 1)
    rw [Ledger.live, hSplit]
    exact List.mem_append_right _ hr
  have hDepth : depth < w.arena.marks.length := by
    have hFits : depth ≤ w.arena.depth := hEdit.fits
    rw [h.orderly.wellFormed.length_marks]
    omega
  have hLength : ledger.length = w.arena.marks.length := by
    rw [← h.tracked.length_eq, List.length_reverse]
  have hUnder : under (w.arena.cutTo depth).marks.reverse = w.arena.markAt depth := by
    rw [marks_cutTo_concat hDepth, under_reverse_concat]
  refine ⟨hOrderly, ?_, ?_, fun r hr => h.whole r (hLive hr), fun r hr i hi => ?_⟩
  · have hTracked := List.forall₂_drop (w.arena.marks.length - (depth + 1)) h.tracked
    have hStacked := h.orderly.wellFormed.stacked.drop (w.arena.marks.length - (depth + 1))
    rw [← reverse_marks_cutTo] at hTracked hStacked
    rw [Ledger.keep, hLength, hEdit.arena]
    exact tracks_agrees hTracked hStacked (hUnder ▸ agrees_cutTo w.arena depth)
  · obtain ⟨above, hSplit⟩ := flatMap_keep Level.spans ledger (depth + 1)
    have := h.disjoint
    rw [hSplit] at this
    exact (List.pairwise_append.mp this).2.1
  · rw [hMemory]
    exact h.contents r (hLive hr) i hi

theorem Booked.fails (h : w.Booked src ledger) (hFails : w.Fails w')
    (hSound : Traffic.Sound w'.traffic) : w'.Booked src ledger := by
  rcases hFails with rfl | ⟨n, hEdit⟩
  · exact h
  have hArena : w'.arena = w.arena := hEdit.arena
  refine ⟨hEdit.orderly h.orderly hSound, hArena ▸ h.tracked, h.disjoint, h.whole, ?_⟩
  intro r hr i hi
  rw [hEdit.memory _ nofun]
  exact h.contents r hr i hi

/-- The chunk of a new mark is the same when more has been carved. -/
theorem reserved_of_carves {e e' : Edit} {w₁ : World (Traced σ)} {span : Span}
    (hEnter : w.Edits e w₁) (hEnters : e.Enters) (hCarve : w₁.Edits e' w')
    (hCarves : e'.Carves w₁.arena span) :
    reserved w.arena w'.arena = reserved w.arena w₁.arena := by
  unfold reserved
  split
  · rfl
  next hRoom =>
    have hLength : w₁.arena.chunks.length = w.arena.chunks.length + 1 := by
      rw [hEnter.arena]
      cases e with
      | enter => exact absurd hEnter.fits hRoom
      | enterOwn block => exact List.length_append
      | _ => exact hEnters.elim
    have hTake : w'.arena.chunks.take w₁.arena.chunks.length =
        w₁.arena.chunks.take w₁.arena.chunks.length := by
      rw [hCarve.arena]
      cases e' with
      | bump _ | addBig _ => rfl
      | openChunk block n => exact List.take_append_of_le_length (Nat.le_refl _)
      | _ => exact hCarves.elim
    rw [chunkAt, chunkAt, getElem?_of_take_eq hTake (by omega)]

/-- A frame is a level with one allocation, however it is made. -/
theorem Booked.framed {span : Span} (h : w.Booked src ledger) (hFramed : w.Framed span w')
    (hSound : Traffic.Sound w'.traffic) :
    w'.Booked src (⟨reserved w.arena w'.arena, [.found w'.memory span]⟩ :: ledger) := by
  cases hFramed with
  | fused n fuse eq =>
    have hLast : w'.arena.lastSpan? w'.arena.top = some span := by
      rw [fuse.arena, eq]
      exact (h.orderly.wellFormed.shed_fuse fuse.fits).1
    have := h.push fuse trivial hSound
    rwa [hLast] at this
  | @split w₁ _ e e' enter enters carve carves =>
    have hLast : w₁.arena.lastSpan? w₁.arena.top = none := by
      rw [enter.arena]
      exact lastSpan?_of_enters enters
    have hPushed := h.push enter (Edit.pushes_of_enters enters) (hSound.before carve.traffic_grows)
    rw [hLast, ← reserved_of_carves enter enters carve carves] at hPushed
    exact hPushed.add carve carves hSound

/-- A frame that fails half way leaves no level. -/
theorem Booked.frameFails (h : w.Booked src ledger) (hFails : w.FrameFails w')
    (hSound : Traffic.Sound w'.traffic) : w'.Booked src ledger := by
  cases hFails with
  | early fails => exact h.fails fails hSound
  | @late w₁ w₂ _ e enter enters fails cut =>
    have hSound₂ := hSound.before cut.traffic_grows
    have hSound₁ := hSound₂.before (fails.advances 0).traffic_grows
    have hPushed := h.push enter (Edit.pushes_of_enters enters) hSound₁
    have hCut := (hPushed.fails fails hSound₂).cut cut hSound
    rw [Ledger.keep, List.length_cons, h.length_eq, Nat.add_sub_cancel_left] at hCut
    exact hCut

end World

end ArenaRegistry.Arena
