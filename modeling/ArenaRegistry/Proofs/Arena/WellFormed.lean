import ArenaRegistry.Proofs.Arena.Edit

/-! Well-formed arenas. Each mark sits on those below it: it counts at least their blocks, it has
used at least their part of a shared chunk, and its last allocation is a big block of its own or
lies in its own part of its chunk. The blocks of an arena share no byte and start on a grain, which
is up to the source. Most of the theory needs only that they share no byte, wherever they start. -/

namespace ArenaRegistry.Arena

/-- Blocks that start on a grain and share no byte. -/
structure Apart (blocks : List Span) : Prop where
  aligned : ∀ b ∈ blocks, Size.IsWhole b.start
  disjoint : blocks.Pairwise Span.Disjoint

/-- The blocks that an arena holds. -/
def held (a : Arena) : List Span := a.chunks ++ a.bigBlocks

/-- What lies below the bottom mark: a mark of no blocks. -/
def ground : Mark := ⟨markMagic, 0, 0, 0, 0, 0, 0, none⟩

/-- The uppermost mark of a list that starts with it. -/
def under (below : List Mark) : Mark := below.headD ground

/-- Where the last allocation of a mark may lie, given the mark below. -/
inductive LastOf (a : Arena) (lower m : Mark) (address : Nat) : Prop
  | big (block : Span) (own : lower.bigCount < m.bigCount)
      (found : a.bigAt? m.bigCount = some block) (start : block.start = address)
  | chunk (offset : Nat) (eq : address = (a.chunkAt m.chunkCount).start + offset)
      (notBig : (a.bigAt? m.bigCount).any (·.start == address) = false)
      (whole : Size.IsWhole offset) (le : offset ≤ m.free)
      (lt : offset < (a.chunkAt m.chunkCount).size)
      (above : m.chunkCount = lower.chunkCount → lower.free + footprint ≤ offset)

/-- A mark sits on the marks below it, the uppermost of which comes first. -/
structure Sits (a : Arena) (below : List Mark) (m : Mark) : Prop where
  magic : m.magic = markMagic
  seq : m.seq = below.length + 1
  owner : m.owner = a.id
  id_lt : ∀ lower ∈ below.head?, lower.id < m.id
  chunks_pos : 0 < m.chunkCount
  chunks_le : (under below).chunkCount ≤ m.chunkCount
  bigs_le : (under below).bigCount ≤ m.bigCount
  free_whole : Size.IsWhole m.free
  free_le : m.free ≤ (a.chunkAt m.chunkCount).size
  above : m.chunkCount = (under below).chunkCount → (under below).free + footprint ≤ m.free
  last : ∀ address, m.last = some address → a.LastOf (under below) m address

/-- Every mark of a list, the uppermost of which comes first, sits on those behind it. -/
def Stacked (a : Arena) : List Mark → Prop
  | [] => True
  | m :: below => a.Sits below m ∧ Stacked a below

/-- What holds of an arena between calls wherever its blocks start, as long as they share no byte. -/
structure Shaped (a : Arena) : Prop where
  magic : a.magic = arenaMagic
  nonempty : a.marks ≠ []
  stacked : a.Stacked a.marks.reverse
  chunks : a.top.chunkCount = a.chunks.length
  bigs : a.top.bigCount = a.bigBlocks.length
  next : a.top.id < a.nextMarkId
  bottom : ∀ m ∈ a.marks.head?, m.id = a.bottomId
  chunkSize_whole : Size.IsWhole a.chunkSize
  chunkSize_le : footprint ≤ a.chunkSize
  sizes : ∀ b ∈ a.held, Size.IsWhole b.size ∧ 0 < b.size
  disjoint : a.held.Pairwise Span.Disjoint

/-- What holds of an arena between calls if its blocks start on a grain, too. -/
structure WellFormed (a : Arena) : Prop extends Shaped a where
  aligned : ∀ b ∈ a.held, Size.IsWhole b.start

theorem WellFormed.apart {a : Arena} (h : a.WellFormed) : Apart a.held :=
  ⟨h.aligned, h.disjoint⟩

/-! ### Arenas with the same blocks at the bottom -/

/-- Two arenas have their lower blocks in common: so many chunks and so many big blocks. -/
structure Agrees (a a' : Arena) (chunks bigs : Nat) : Prop where
  id : a'.id = a.id
  chunks : a'.chunks.take chunks = a.chunks.take chunks
  bigs : a'.bigBlocks.take bigs = a.bigBlocks.take bigs

section Agrees

variable {a a' : Arena} {c g : Nat}

theorem getElem?_of_take_eq {α : Type} {xs ys : List α} {n i : Nat} (h : xs.take n = ys.take n)
    (hi : i < n) : xs[i]? = ys[i]? := by
  rw [← List.getElem?_take_of_lt hi, h, List.getElem?_take_of_lt hi]

theorem take_of_take_eq {α : Type} {xs ys : List α} {n k : Nat} (h : xs.take n = ys.take n)
    (hk : k ≤ n) : xs.take k = ys.take k := by
  have := congrArg (List.take k) h
  rwa [List.take_take, List.take_take, Nat.min_eq_left hk] at this

theorem Agrees.mono {c' g' : Nat} (h : a.Agrees a' c g) (hc : c' ≤ c) (hg : g' ≤ g) :
    a.Agrees a' c' g' :=
  ⟨h.id, take_of_take_eq h.chunks hc, take_of_take_eq h.bigs hg⟩

theorem Agrees.chunkAt (h : a.Agrees a' c g) {n : Nat} (hPos : 0 < n) (hn : n ≤ c) :
    a'.chunkAt n = a.chunkAt n := by
  rw [Arena.chunkAt, Arena.chunkAt, getElem?_of_take_eq h.chunks (by omega)]

theorem Agrees.bigAt? (h : a.Agrees a' c g) {n : Nat} (hn : n ≤ g) : a'.bigAt? n = a.bigAt? n := by
  unfold Arena.bigAt?
  split
  · rfl
  · rw [getElem?_of_take_eq h.bigs (by omega)]

theorem LastOf.agrees {lower m : Mark} {address : Nat} (h : a.LastOf lower m address)
    (hPos : 0 < m.chunkCount) (hAgrees : a.Agrees a' m.chunkCount m.bigCount) :
    a'.LastOf lower m address := by
  have hChunk := hAgrees.chunkAt hPos (Nat.le_refl _)
  cases h with
  | big block own found start =>
    exact .big block own (by rw [hAgrees.bigAt? (Nat.le_refl _), found]) start
  | chunk offset eq notBig whole le lt above =>
    refine .chunk offset (by rw [hChunk, eq]) ?_ whole le (by rw [hChunk]; exact lt) above
    rw [hAgrees.bigAt? (Nat.le_refl _)]
    exact notBig

theorem Sits.agrees {below : List Mark} {m : Mark} (h : a.Sits below m)
    (hAgrees : a.Agrees a' m.chunkCount m.bigCount) : a'.Sits below m where
  magic := h.magic
  seq := h.seq
  owner := h.owner.trans hAgrees.id.symm
  id_lt := h.id_lt
  chunks_pos := h.chunks_pos
  chunks_le := h.chunks_le
  bigs_le := h.bigs_le
  free_whole := h.free_whole
  free_le := by rw [hAgrees.chunkAt h.chunks_pos (Nat.le_refl _)]; exact h.free_le
  above := h.above
  last address hLast := (h.last address hLast).agrees h.chunks_pos hAgrees

/-- A stack of marks stands on the blocks that its uppermost mark counts. -/
theorem Stacked.agrees {ms : List Mark} (h : a.Stacked ms)
    (hAgrees : a.Agrees a' (under ms).chunkCount (under ms).bigCount) : a'.Stacked ms := by
  induction ms with
  | nil => trivial
  | cons m below ih =>
    exact ⟨h.1.agrees hAgrees, ih h.2 (hAgrees.mono h.1.chunks_le h.1.bigs_le)⟩

theorem Stacked.drop {ms : List Mark} (h : a.Stacked ms) (n : Nat) : a.Stacked (ms.drop n) := by
  induction n generalizing ms with
  | zero => exact h
  | succ n ih =>
    cases ms with
    | nil => exact h
    | cons m below => exact ih h.2

/-- Going down the stack, marks count fewer blocks and are older. -/
theorem Stacked.drop_le {ms : List Mark} (h : a.Stacked ms) (n : Nat) :
    (under (ms.drop n)).chunkCount ≤ (under ms).chunkCount ∧
      (under (ms.drop n)).bigCount ≤ (under ms).bigCount ∧
      (under (ms.drop n)).id ≤ (under ms).id := by
  induction n generalizing ms with
  | zero => exact ⟨Nat.le_refl _, Nat.le_refl _, Nat.le_refl _⟩
  | succ n ih =>
    cases ms with
    | nil => exact ⟨Nat.le_refl _, Nat.le_refl _, Nat.le_refl _⟩
    | cons m below =>
      obtain ⟨hChunks, hBigs, hId⟩ := ih h.2
      have hOlder : (under below).id ≤ m.id := by
        cases below with
        | nil => exact Nat.zero_le _
        | cons lower rest => exact Nat.le_of_lt (h.1.id_lt lower rfl)
      exact ⟨Nat.le_trans hChunks h.1.chunks_le, Nat.le_trans hBigs h.1.bigs_le,
        Nat.le_trans hId hOlder⟩

end Agrees

/-! ### The top of the stack -/

theorem under_reverse_concat (below : List Mark) (m : Mark) : under (below ++ [m]).reverse = m := by
  simp [under]

theorem isBig_iff {a : Arena} {address : Nat} :
    a.isBig address = true ↔ ∃ block, a.topBig? = some block ∧ block.start = address := by
  simp [isBig, Option.any_eq_true]

/-- An allocation in the current chunk takes what lies between it and the first free byte. -/
theorem sizeOfLast_of_not_isBig {a : Arena} {address : Nat} (h : a.isBig address = false) :
    a.sizeOfLast address = a.top.free - (address - a.chunk.start) := by
  have hNone : a.topBig?.filter (·.start == address) = none := by
    unfold isBig at h
    cases hBig : a.topBig? with
    | none => rfl
    | some block => simpa [hBig] using h
  simp [sizeOfLast, hNone]

theorem lastSize?_of_last {a : Arena} {address : Nat} (h : a.top.last = some address) :
    a.lastSize? = some (a.sizeOfLast address) := by
  rw [lastSize?, h, Option.map_some]

theorem sizeOfLast_of_topBig {a : Arena} {block : Span} (h : a.topBig? = some block) :
    a.sizeOfLast block.start = block.size := by
  simp [sizeOfLast, h, Option.filter]

/-- The last allocation of the current mark, where it is a big block, is one of its own. -/
theorem Sits.own_of_isBig {a : Arena} {below : List Mark} (h : a.Sits below a.top) {last : Nat}
    (hLast : a.top.last = some last) (hBig : a.isBig last = true) :
    (under below).bigCount < a.top.bigCount ∧
      ∃ block, a.topBig? = some block ∧ block.start = last := by
  cases h.last last hLast with
  | big block own found start => exact ⟨own, block, found, start⟩
  | chunk offset eq notBig whole le lt above =>
    rw [isBig, topBig?, notBig] at hBig
    cases hBig

/-- The last allocation of the current mark, where it is no big block, lies in the mark's own part
of the current chunk, and it takes what is used behind its start. -/
theorem Sits.offset_of_not_isBig {a : Arena} {below : List Mark} (h : a.Sits below a.top)
    {last : Nat} (hLast : a.top.last = some last) (hNotBig : a.isBig last = false) :
    ∃ offset, last = a.chunk.start + offset ∧ Size.IsWhole offset ∧ offset ≤ a.top.free ∧
      offset < a.chunk.size ∧ a.sizeOfLast last = a.top.free - offset ∧
      (a.top.chunkCount = (under below).chunkCount → (under below).free + footprint ≤ offset) := by
  cases h.last last hLast with
  | big block own found start =>
    rw [isBig_iff.mpr ⟨block, found, start⟩] at hNotBig
    cases hNotBig
  | chunk offset eq _ whole le lt above =>
    have hTaken := sizeOfLast_of_not_isBig hNotBig
    rw [show last = a.chunk.start + offset from eq, Nat.add_sub_cancel_left] at hTaken
    exact ⟨offset, eq, whole, le, lt, by rw [eq]; exact hTaken, above⟩

theorem bigAt?_eq_some {a : Arena} {count : Nat} {block : Span}
    (h : a.bigAt? count = some block) :
    0 < count ∧ a.bigBlocks[count - 1]? = some block := by
  unfold bigAt? at h
  split at h
  · cases h
  · exact ⟨by omega, h⟩

theorem bigAt?_mem {a : Arena} {count : Nat} {block : Span} (h : a.bigAt? count = some block) :
    block ∈ a.bigBlocks :=
  List.mem_of_getElem? (bigAt?_eq_some h).2

/-- No big block starts inside a chunk. -/
theorem start_ne_of_disjoint {a : Arena} (h : a.held.Pairwise Span.Disjoint)
    (hSizes : ∀ b ∈ a.held, 0 < b.size) {chunk block : Span} (hChunk : chunk ∈ a.chunks)
    (hBlock : block ∈ a.bigBlocks) {offset : Nat} (hOffset : offset < chunk.size) :
    block.start ≠ chunk.start + offset := by
  have hDisjoint := (List.pairwise_append.mp h).2.2 _ hChunk _ hBlock
  have hSize := hSizes block (List.mem_append_right _ hBlock)
  unfold Span.Disjoint Span.stop at hDisjoint
  omega

/-- No address in a chunk is the start of a big block. -/
theorem not_big_of_disjoint {a : Arena} (h : a.held.Pairwise Span.Disjoint)
    (hSizes : ∀ b ∈ a.held, 0 < b.size) {chunk : Span} (hChunk : chunk ∈ a.chunks) {offset : Nat}
    (hOffset : offset < chunk.size) (count : Nat) :
    (a.bigAt? count).any (·.start == chunk.start + offset) = false := by
  rw [Bool.eq_false_iff]
  intro hBig
  obtain ⟨block, hBlock, hStart⟩ := (Option.any_eq_true _ _).mp hBig
  exact start_ne_of_disjoint h hSizes hChunk (bigAt?_mem hBlock) hOffset (beq_iff_eq.mp hStart)

namespace Shaped

variable {a : Arena}

theorem exists_below (h : a.Shaped) :
    ∃ below, a.marks = below ++ [a.top] ∧ a.Sits below.reverse a.top ∧ a.Stacked below.reverse := by
  obtain ⟨below, hMarks⟩ := exists_marks_eq h.nonempty
  have hStacked := h.stacked
  rw [hMarks, List.reverse_append] at hStacked
  exact ⟨below, hMarks, hStacked.1, hStacked.2⟩

theorem under_marks (h : a.Shaped) : under a.marks.reverse = a.top := by
  obtain ⟨below, hMarks, -, -⟩ := h.exists_below
  rw [hMarks, under_reverse_concat]

theorem length_marks (h : a.Shaped) : a.marks.length = a.depth + 1 := by
  have := List.length_pos_iff.mpr h.nonempty
  unfold depth
  omega

theorem free_le (h : a.Shaped) : a.top.free ≤ a.chunk.size := by
  obtain ⟨below, -, hTop, -⟩ := h.exists_below
  exact hTop.free_le

theorem free_whole (h : a.Shaped) : Size.IsWhole a.top.free := by
  obtain ⟨below, -, hTop, -⟩ := h.exists_below
  exact hTop.free_whole

theorem chunks_pos (h : a.Shaped) : 0 < a.chunks.length := by
  obtain ⟨below, -, hTop, -⟩ := h.exists_below
  rw [← h.chunks]
  exact hTop.chunks_pos

theorem chunk_eq (h : a.Shaped) : a.chunks[a.chunks.length - 1]? = some a.chunk := by
  have hPos := h.chunks_pos
  rw [Arena.chunk, Arena.chunkAt, h.chunks]
  rw [List.getElem?_eq_getElem (by omega)]
  rfl

theorem chunk_mem (h : a.Shaped) : a.chunk ∈ a.chunks :=
  List.mem_of_getElem? h.chunk_eq

theorem chunk_size_whole (h : a.Shaped) : Size.IsWhole a.chunk.size :=
  (h.sizes _ (List.mem_append_left _ h.chunk_mem)).1

theorem remaining_whole (h : a.Shaped) : Size.IsWhole a.remaining := by
  have hFree := h.free_whole
  have hChunk := h.chunk_size_whole
  have hLe := h.free_le
  unfold Size.IsWhole remaining at *
  omega

theorem not_isBig_of_chunk (h : a.Shaped) {offset : Nat} (hOffset : offset < a.chunk.size) :
    a.isBig (a.chunk.start + offset) = false :=
  not_big_of_disjoint h.disjoint (fun b hb => (h.sizes b hb).2) h.chunk_mem hOffset _

end Shaped

end ArenaRegistry.Arena
