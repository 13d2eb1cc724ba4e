import ArenaRegistry.Proofs.Arena.Traffic

/-! Which bytes lie under a mark. A mark covers the blocks it counts, those of its current chunk up
to what is used. Shedding its last allocation leaves a mark that covers all but that allocation, so
whatever is carved, grown or moved next shares no byte with what was covered. -/

namespace ArenaRegistry.Arena

/-- Bytes under a mark: some of a chunk it counts, but no free ones, or a big block it counts. -/
inductive Covers (a : Arena) (m : Mark) (s : Span) : Prop
  | chunk (i : Nat) (block : Span) (counted : i < m.chunkCount) (found : a.chunks[i]? = some block)
      (within : s.Within block) (used : i + 1 = m.chunkCount → s.stop ≤ block.start + m.free)
  | big (i : Nat) (counted : i < m.bigCount) (found : a.bigBlocks[i]? = some s)

/-- The bytes of a mark's last allocation. -/
def lastSpan? (a : Arena) (m : Mark) : Option Span :=
  m.last.map fun address =>
    ((a.bigAt? m.bigCount).filter (·.start == address)).getD
      ⟨address, m.free - (address - (a.chunkAt m.chunkCount).start)⟩

/-- The mark without its last allocation. -/
def shed (a : Arena) (m : Mark) : Mark :=
  match m.last with
  | none => m
  | some address =>
    if (a.bigAt? m.bigCount).any (·.start == address) then { m with bigCount := m.bigCount - 1 }
    else { m with free := address - (a.chunkAt m.chunkCount).start }

variable {a a' : Arena} {m m' : Mark} {s t : Span} {below : List Mark}

/-! ### The last allocation -/

theorem shed_of_none (h : m.last = none) : a.shed m = m := by
  rw [shed, h]

theorem lastSpan?_of_big (h : m.last = some s.start) (hBig : a.bigAt? m.bigCount = some s) :
    a.lastSpan? m = some s := by
  simp [lastSpan?, h, hBig, Option.filter]

theorem shed_of_big (h : m.last = some s.start) (hBig : a.bigAt? m.bigCount = some s) :
    a.shed m = { m with bigCount := m.bigCount - 1 } := by
  simp [shed, h, hBig]

theorem lastSpan?_of_chunk {offset : Nat}
    (h : m.last = some ((a.chunkAt m.chunkCount).start + offset))
    (hNotBig : (a.bigAt? m.bigCount).any
      (·.start == (a.chunkAt m.chunkCount).start + offset) = false) :
    a.lastSpan? m = some ⟨(a.chunkAt m.chunkCount).start + offset, m.free - offset⟩ := by
  have hNone : (a.bigAt? m.bigCount).filter
      (·.start == (a.chunkAt m.chunkCount).start + offset) = none := by
    cases hBig : a.bigAt? m.bigCount with
    | none => rfl
    | some block =>
      rw [hBig] at hNotBig
      simpa using hNotBig
  rw [lastSpan?, h, Option.map_some, hNone, Option.getD_none, Nat.add_sub_cancel_left]

theorem shed_of_chunk {offset : Nat} (h : m.last = some ((a.chunkAt m.chunkCount).start + offset))
    (hNotBig : (a.bigAt? m.bigCount).any
      (·.start == (a.chunkAt m.chunkCount).start + offset) = false) :
    a.shed m = { m with free := offset } := by
  rw [shed, h]
  simp only [hNotBig, Bool.false_eq_true, if_false, Nat.add_sub_cancel_left]

/-- A mark in two parts, its last allocation and the rest, given the mark below. -/
inductive Splits (a : Arena) (lower m : Mark) : Prop
  | none (last : a.lastSpan? m = none) (rest : a.shed m = m)
  | big (block : Span) (own : lower.bigCount < m.bigCount)
      (found : a.bigAt? m.bigCount = some block) (last : a.lastSpan? m = some block)
      (rest : a.shed m = { m with bigCount := m.bigCount - 1 })
  | chunk (offset : Nat) (whole : Size.IsWhole offset) (le : offset ≤ m.free)
      (above : m.chunkCount = lower.chunkCount → lower.free + footprint ≤ offset)
      (last : a.lastSpan? m = some ⟨(a.chunkAt m.chunkCount).start + offset, m.free - offset⟩)
      (rest : a.shed m = { m with free := offset })

theorem Sits.splits (h : a.Sits below m) : a.Splits (under below) m := by
  cases hLast : m.last with
  | none => exact .none (by rw [lastSpan?, hLast, Option.map_none]) (shed_of_none hLast)
  | some address =>
    cases h.last address hLast with
    | big block own found start =>
      subst start
      exact .big block own found (lastSpan?_of_big hLast found) (shed_of_big hLast found)
    | chunk offset eq notBig whole le lt above =>
      subst eq
      exact .chunk offset whole le above (lastSpan?_of_chunk hLast notBig)
        (shed_of_chunk hLast notBig)

theorem start_of_filter {o : Option Span} {address : Nat} {block : Span}
    (h : o.filter (·.start == address) = some block) : block.start = address :=
  beq_iff_eq.mp (Option.filter_eq_some_iff.mp h).2

/-- The size that an arena gives for its last allocation is that of the bytes. -/
theorem lastSpan?_top (a : Arena) {address : Nat} (h : a.top.last = some address) :
    a.lastSpan? a.top = some ⟨address, a.sizeOfLast address⟩ := by
  have hTop : a.topBig? = a.bigAt? a.top.bigCount := rfl
  rw [lastSpan?, h, Option.map_some, sizeOfLast, hTop]
  cases hFound : (a.bigAt? a.top.bigCount).filter (·.start == address) with
  | none => rfl
  | some block => rw [Option.getD_some, ← start_of_filter hFound]

theorem last_of_lastSpan? (h : a.lastSpan? m = some s) : m.last = some s.start := by
  obtain ⟨address, hLast, hSpan⟩ := Option.map_eq_some_iff.mp h
  rw [hLast, ← hSpan]
  cases hFound : (a.bigAt? m.bigCount).filter (·.start == address) with
  | none => rfl
  | some block => rw [Option.getD_some, start_of_filter hFound]

theorem lastSize?_of_lastSpan? (h : a.lastSpan? a.top = some s) : a.lastSize? = some s.size := by
  have hLast := last_of_lastSpan? h
  have hSpan : s = ⟨s.start, a.sizeOfLast s.start⟩ :=
    Option.some.inj (h.symm.trans (a.lastSpan?_top hLast))
  rw [lastSize?_of_last hLast, hSpan]

/-! ### What is covered -/

/-- A mark covers what another one does, if it counts as much and uses as much of a chunk that is
current under both. -/
theorem Covers.transfer (h : a.Covers m s)
    (hChunks : a'.chunks.take m.chunkCount = a.chunks.take m.chunkCount)
    (hBigs : a'.bigBlocks.take m.bigCount = a.bigBlocks.take m.bigCount)
    (hChunkCount : m.chunkCount ≤ m'.chunkCount) (hBigCount : m.bigCount ≤ m'.bigCount)
    (hFree : m.chunkCount = m'.chunkCount → m.free ≤ m'.free) : a'.Covers m' s := by
  cases h with
  | chunk i block counted found within used =>
    refine .chunk i block (by omega) ?_ within ?_
    · rw [getElem?_of_take_eq hChunks counted]
      exact found
    · intro hCurrent
      have hSame : m.chunkCount = m'.chunkCount := by omega
      have := used (by omega)
      have := hFree hSame
      omega
  | big i counted found =>
    refine .big i (by omega) ?_
    rw [getElem?_of_take_eq hBigs counted]
    exact found

theorem Covers.agrees (h : a.Covers m s) (hAgrees : a.Agrees a' m.chunkCount m.bigCount) :
    a'.Covers m s :=
  h.transfer hAgrees.chunks hAgrees.bigs (Nat.le_refl _) (Nat.le_refl _) fun _ => Nat.le_refl _

theorem Covers.within (h : a.Covers m s) : ∃ block ∈ a.held, s.Within block := by
  cases h with
  | chunk i block counted found within used =>
    exact ⟨block, List.mem_append_left _ (List.mem_of_getElem? found), within⟩
  | big i counted found =>
    exact ⟨s, List.mem_append_right _ (List.mem_of_getElem? found), Nat.le_refl _, Nat.le_refl _⟩

/-- Spans in blocks that share no byte share none. -/
theorem disjoint_of_within {b c : Span} (h : b.Disjoint c) (hs : s.Within b) (ht : t.Within c) :
    s.Disjoint t := by
  unfold Span.Disjoint Span.Within Span.stop at *
  omega

theorem disjoint_of_getElem? {blocks : List Span} {i j : Nat} {b c : Span}
    (h : blocks.Pairwise Span.Disjoint) (hi : blocks[i]? = some b) (hj : blocks[j]? = some c)
    (hij : i ≠ j) : b.Disjoint c := by
  obtain ⟨hLeft, rfl⟩ := List.getElem?_eq_some_iff.mp hi
  obtain ⟨hRight, rfl⟩ := List.getElem?_eq_some_iff.mp hj
  have hOrdered := List.pairwise_iff_getElem.mp h
  rcases Nat.lt_or_gt_of_ne hij with hLess | hLess
  · exact hOrdered i j hLeft hRight hLess
  · exact (hOrdered j i hRight hLeft hLess).symm

/-- Bytes of a chunk that a mark does not count, or behind what it uses of its current one, are not
covered. -/
theorem Covers.disjoint_chunk (h : a.Covers m s) (hApart : Apart a.held) {i : Nat} {block : Span}
    (hFound : a.chunks[i]? = some block) (hWithin : t.Within block)
    (hBeyond : m.chunkCount ≤ i ∨ i + 1 = m.chunkCount ∧ block.start + m.free ≤ t.start) :
    s.Disjoint t := by
  obtain ⟨hChunks, -, hMixed⟩ := List.pairwise_append.mp hApart.disjoint
  cases h with
  | chunk j other counted found within used =>
    by_cases hSame : j = i
    · subst hSame
      obtain rfl : other = block := Option.some.inj (found.symm.trans hFound)
      have := used (by omega)
      unfold Span.Disjoint
      omega
    · exact disjoint_of_within (disjoint_of_getElem? hChunks found hFound hSame) within hWithin
  | big j counted found =>
    have hDisjoint := hMixed _ (List.mem_of_getElem? hFound) _ (List.mem_of_getElem? found)
    exact (disjoint_of_within hDisjoint hWithin ⟨Nat.le_refl _, Nat.le_refl _⟩).symm

/-- A big block that a mark does not count is not covered. -/
theorem Covers.disjoint_big (h : a.Covers m s) (hApart : Apart a.held) {i : Nat}
    (hFound : a.bigBlocks[i]? = some t) (hBeyond : m.bigCount ≤ i) : s.Disjoint t := by
  obtain ⟨-, hBigs, hMixed⟩ := List.pairwise_append.mp hApart.disjoint
  cases h with
  | chunk j other counted found within used =>
    have hDisjoint := hMixed _ (List.mem_of_getElem? found) _ (List.mem_of_getElem? hFound)
    exact disjoint_of_within hDisjoint within ⟨Nat.le_refl _, Nat.le_refl _⟩
  | big j counted found => exact disjoint_of_getElem? hBigs found hFound (by omega)

/-! ### Marks that sit on others -/

/-- What the marks below cover is covered by a mark without its last allocation. -/
theorem Sits.covers_shed (h : a.Sits below m) (hs : a.Covers (under below) s) :
    a.Covers (a.shed m) s := by
  have hChunks := h.chunks_le
  have hAbove := h.above
  cases h.splits with
  | none last rest =>
    rw [rest]
    refine hs.transfer rfl rfl hChunks h.bigs_le fun hSame => ?_
    have := hAbove hSame.symm
    omega
  | big block own found last rest =>
    rw [rest]
    refine hs.transfer rfl rfl hChunks (Nat.le_sub_one_of_lt own) fun hSame => ?_
    have := hAbove hSame.symm
    show (under below).free ≤ m.free
    omega
  | chunk offset whole le above last rest =>
    rw [rest]
    refine hs.transfer rfl rfl hChunks h.bigs_le fun hSame => ?_
    have := above hSame.symm
    show (under below).free ≤ offset
    omega

theorem Sits.covers_of_shed (h : a.Sits below m) (hs : a.Covers (a.shed m) s) : a.Covers m s := by
  cases h.splits with
  | none last rest => rwa [rest] at hs
  | big block own found last rest =>
    rw [rest] at hs
    exact hs.transfer rfl rfl (Nat.le_refl _) (Nat.sub_le _ _) fun _ => Nat.le_refl _
  | chunk offset whole le above last rest =>
    rw [rest] at hs
    exact hs.transfer rfl rfl (Nat.le_refl _) (Nat.le_refl _) fun _ => le

theorem getElem?_chunkAt {count : Nat} (hPos : 0 < count) (hCount : count ≤ a.chunks.length) :
    a.chunks[count - 1]? = some (a.chunkAt count) := by
  rw [chunkAt, List.getElem?_eq_getElem (by omega)]
  rfl

theorem Sits.covers_last (h : a.Sits below m) (hCount : m.chunkCount ≤ a.chunks.length)
    (hs : a.lastSpan? m = some s) : a.Covers m s := by
  have hFree := h.free_le
  have hPos := h.chunks_pos
  cases h.splits with
  | none last rest =>
    rw [last] at hs
    cases hs
  | big block own found last rest =>
    obtain rfl : block = s := Option.some.inj (last.symm.trans hs)
    obtain ⟨hCounted, hFound⟩ := bigAt?_eq_some found
    exact .big _ (Nat.sub_lt hCounted Nat.one_pos) hFound
  | chunk offset whole le above last rest =>
    obtain rfl := Option.some.inj (last.symm.trans hs)
    refine .chunk _ _ (Nat.sub_lt hPos Nat.one_pos) (getElem?_chunkAt hPos hCount) ?_ ?_
    · unfold Span.Within Span.stop
      simp only
      omega
    · intro _
      unfold Span.stop
      simp only
      omega

/-- A mark's last allocation shares no byte with what the mark covers without it. -/
theorem Sits.disjoint_last (h : a.Sits below m) (hCount : m.chunkCount ≤ a.chunks.length)
    (hApart : Apart a.held) (ht : a.lastSpan? m = some t) (hs : a.Covers (a.shed m) s) :
    s.Disjoint t := by
  have hFree := h.free_le
  have hPos := h.chunks_pos
  cases h.splits with
  | none last rest =>
    rw [last] at ht
    cases ht
  | big block own found last rest =>
    obtain rfl : block = t := Option.some.inj (last.symm.trans ht)
    rw [rest] at hs
    exact hs.disjoint_big hApart (bigAt?_eq_some found).2 (Nat.le_refl _)
  | chunk offset whole le above last rest =>
    obtain rfl := Option.some.inj (last.symm.trans ht)
    rw [rest] at hs
    -- All else in the chunk ends where the last allocation starts.
    refine hs.disjoint_chunk hApart (getElem?_chunkAt hPos hCount) ?_
      (.inr ⟨Nat.sub_add_cancel hPos, Nat.le_refl _⟩)
    unfold Span.Within Span.stop
    simp only
    omega

/-- A last allocation takes whole grains. -/
theorem Sits.last_size_whole (h : a.Sits below m) (ha : a.Shaped) (hs : a.lastSpan? m = some s) :
    Size.IsWhole s.size := by
  have hFree := h.free_whole
  cases h.splits with
  | none last rest =>
    rw [last] at hs
    cases hs
  | big block own found last rest =>
    obtain rfl : block = s := Option.some.inj (last.symm.trans hs)
    exact (ha.sizes _ (List.mem_append_right _ (bigAt?_mem found))).1
  | chunk offset whole le above last rest =>
    obtain rfl := Option.some.inj (last.symm.trans hs)
    unfold Size.IsWhole at *
    simp only
    omega

/-- A last allocation starts on a grain and takes whole grains. -/
theorem Sits.last_whole (h : a.Sits below m) (ha : a.WellFormed)
    (hCount : m.chunkCount ≤ a.chunks.length) (hs : a.lastSpan? m = some s) :
    Size.IsWhole s.start ∧ Size.IsWhole s.size := by
  refine ⟨?_, h.last_size_whole ha.toShaped hs⟩
  cases h.splits with
  | none last rest =>
    rw [last] at hs
    cases hs
  | big block own found last rest =>
    obtain rfl : block = s := Option.some.inj (last.symm.trans hs)
    exact ha.apart.aligned _ (List.mem_append_right _ (bigAt?_mem found))
  | chunk offset whole le above last rest =>
    obtain rfl := Option.some.inj (last.symm.trans hs)
    have hMem : a.chunkAt m.chunkCount ∈ a.held :=
      List.mem_append_left _ (List.mem_of_getElem? (getElem?_chunkAt h.chunks_pos hCount))
    have hStart := ha.apart.aligned _ hMem
    unfold Size.IsWhole at *
    simp only
    omega

end ArenaRegistry.Arena
