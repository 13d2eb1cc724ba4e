import ArenaRegistry.Arena.Corruption
import ArenaRegistry.Proofs.Arena.Traffic

/-! What holds of an arena after any run of calls, clause by clause, and that its own checks find
nothing wrong with it. -/

namespace ArenaRegistry.Arena

/-- The mark below the one at a depth; below the bottom mark there is one of no blocks. -/
def markBelow (a : Arena) : Nat → Mark
  | 0 => ground
  | depth + 1 => a.markAt depth

/-- What may be relied on between calls. -/
structure Consistent (a : Arena) : Prop where
  nonempty : a.marks ≠ []
  seq : ∀ i m, a.marks[i]? = some m → m.seq = i + 1
  owner : ∀ m ∈ a.marks, m.owner = a.id
  /-- Counts never go down from a mark to one above it. -/
  counts : a.marks.Pairwise fun lower upper =>
    lower.chunkCount ≤ upper.chunkCount ∧ lower.bigCount ≤ upper.bigCount
  chunks_pos : ∀ m ∈ a.marks, 1 ≤ m.chunkCount
  chunks : a.top.chunkCount = a.chunks.length
  bigs : a.top.bigCount = a.bigBlocks.length
  free_whole : ∀ m ∈ a.marks, Size.IsWhole m.free
  free_le : ∀ m ∈ a.marks, m.free ≤ (a.chunkAt m.chunkCount).size
  /-- Two neighbours that share a chunk leave room for the footprint of the upper one. -/
  shared : ∀ i lower upper, a.marks[i]? = some lower → a.marks[i + 1]? = some upper →
    lower.chunkCount = upper.chunkCount → lower.free + footprint ≤ upper.free
  /-- A last allocation is a big block that its mark owns, or it lies in the mark's part of its
  chunk. -/
  last : ∀ i m address, a.marks[i]? = some m → m.last = some address →
    a.LastOf (a.markBelow i) m address
  valid : a.Valid

variable {a : Arena}

/-! ### Marks by their depth -/

theorem Stacked.sits {above below : List Mark} {m : Mark} (h : a.Stacked (above ++ m :: below)) :
    a.Sits below m := by
  induction above with
  | nil => exact h.1
  | cons _ above ih => exact ih h.2

theorem Stacked.counts {ms : List Mark} (h : a.Stacked ms) :
    ms.Pairwise fun upper lower =>
      lower.chunkCount ≤ upper.chunkCount ∧ lower.bigCount ≤ upper.bigCount := by
  induction ms with
  | nil => exact List.Pairwise.nil
  | cons m below ih =>
    have hBelow := ih h.2
    refine List.pairwise_cons.mpr ⟨?_, hBelow⟩
    intro lower hLower
    have hNext : lower.chunkCount ≤ (under below).chunkCount ∧
        lower.bigCount ≤ (under below).bigCount := by
      cases below with
      | nil => cases hLower
      | cons next rest =>
        rcases List.mem_cons.mp hLower with rfl | hLower
        · exact ⟨Nat.le_refl _, Nat.le_refl _⟩
        · exact (List.pairwise_cons.mp hBelow).1 lower hLower
    exact ⟨Nat.le_trans hNext.1 h.1.chunks_le, Nat.le_trans hNext.2 h.1.bigs_le⟩

theorem under_take (a : Arena) {i : Nat} (hi : i ≤ a.marks.length) :
    under (a.marks.take i).reverse = a.markBelow i := by
  cases i with
  | zero => rfl
  | succ i =>
    have hLess : i < a.marks.length := hi
    rw [← List.take_append_getElem hLess, under_reverse_concat, markBelow, markAt,
      List.getElem?_eq_getElem hLess, Option.getD_some]

namespace WellFormed

theorem sits_at (h : a.WellFormed) {i : Nat} {m : Mark} (hm : a.marks[i]? = some m) :
    a.Sits (a.marks.take i).reverse m := by
  obtain ⟨hi, rfl⟩ := List.getElem?_eq_some_iff.mp hm
  have hStacked := h.stacked
  have hSplit : a.marks.reverse =
      (a.marks.drop (i + 1)).reverse ++ a.marks[i] :: (a.marks.take i).reverse := by
    rw [← List.reverse_concat, List.take_append_getElem hi, ← List.reverse_append,
      List.take_append_drop]
  rw [hSplit] at hStacked
  exact hStacked.sits

theorem sits_of_mem (h : a.WellFormed) {m : Mark} (hm : m ∈ a.marks) :
    ∃ i, a.Sits (a.marks.take i).reverse m := by
  obtain ⟨i, hi⟩ := List.getElem?_of_mem hm
  exact ⟨i, h.sits_at hi⟩

end WellFormed

/-! ### The checks -/

theorem LastOf.lastFault?_eq_none {lower m : Mark} {address depth : Nat}
    (h : a.LastOf lower m address) (hLast : m.last = some address) :
    a.lastFault? m depth (a.chunkAt m.chunkCount) = none := by
  unfold lastFault?
  simp only [hLast]
  cases h with
  | big block own found start => simp [found, start]
  | chunk offset eq notBig whole le lt above =>
    have hIn : (a.chunkAt m.chunkCount).Contains address := by
      unfold Span.Contains Span.stop
      omega
    have hNotBelow : ¬address < (a.chunkAt m.chunkCount).start := by omega
    rw [if_neg hNotBelow, if_pos hIn, ite_self]

theorem Sits.markFault?_eq_none {below : List Mark} {m : Mark} {chunkLimit bigLimit : Nat}
    (h : a.Sits below m) (hChunks : m.chunkCount ≤ chunkLimit) (hBigs : m.bigCount ≤ bigLimit) :
    a.markFault? m below.length chunkLimit bigLimit = none := by
  have hCounts : ¬(m.chunkCount = 0 ∨ chunkLimit < m.chunkCount ∨ bigLimit < m.bigCount) := by
    have := h.chunks_pos
    omega
  have hLast : a.lastFault? m below.length (a.chunkAt m.chunkCount) = none := by
    cases hAddress : m.last with
    | none => simp [lastFault?, hAddress]
    | some address => exact (h.last address hAddress).lastFault?_eq_none hAddress
  have hFree : ¬(a.chunkAt m.chunkCount).size < m.free := Nat.not_lt.mpr h.free_le
  unfold markFault?
  simp only [h.magic, h.seq, h.owner, hLast, if_neg hCounts, if_neg hFree, ne_eq, not_true_eq_false,
    if_false]

theorem Stacked.marksFault?_eq_none {ms : List Mark} {chunkLimit bigLimit : Nat}
    (h : a.Stacked ms) (hChunks : (under ms).chunkCount ≤ chunkLimit)
    (hBigs : (under ms).bigCount ≤ bigLimit) : a.marksFault? ms chunkLimit bigLimit = none := by
  induction ms generalizing chunkLimit bigLimit with
  | nil => rfl
  | cons m below ih =>
    rw [marksFault?, h.1.markFault?_eq_none hChunks hBigs]
    exact ih h.2 h.1.chunks_le h.1.bigs_le

theorem WellFormed.valid (h : a.WellFormed) : a.Valid := by
  have hFault : a.marksFault? a.marks.reverse a.chunks.length a.bigBlocks.length = none := by
    apply h.stacked.marksFault?_eq_none
    · rw [h.under_marks]
      exact Nat.le_of_eq h.chunks
    · rw [h.under_marks]
      exact Nat.le_of_eq h.bigs
  have hBottom : (a.markAt 0).id = a.bottomId := by
    obtain ⟨m, rest, hFirst⟩ := List.exists_cons_of_ne_nil h.nonempty
    have := h.bottom m (by rw [hFirst]; rfl)
    rwa [markAt, hFirst]
  unfold Valid corruption?
  rw [if_neg (not_not_intro h.magic), if_neg h.nonempty, hFault]
  exact if_neg (not_not_intro hBottom)

theorem WellFormed.consistent (h : a.WellFormed) : a.Consistent where
  nonempty := h.nonempty
  seq := by
    intro i m hm
    have hi := (List.getElem?_eq_some_iff.mp hm).1
    rw [(h.sits_at hm).seq, List.length_reverse, List.length_take,
      Nat.min_eq_left (Nat.le_of_lt hi)]
  owner := by
    intro m hm
    obtain ⟨i, hSits⟩ := h.sits_of_mem hm
    exact hSits.owner
  counts := by
    have := h.stacked.counts
    rwa [List.pairwise_reverse] at this
  chunks_pos := by
    intro m hm
    obtain ⟨i, hSits⟩ := h.sits_of_mem hm
    exact hSits.chunks_pos
  chunks := h.chunks
  bigs := h.bigs
  free_whole := by
    intro m hm
    obtain ⟨i, hSits⟩ := h.sits_of_mem hm
    exact hSits.free_whole
  free_le := by
    intro m hm
    obtain ⟨i, hSits⟩ := h.sits_of_mem hm
    exact hSits.free_le
  shared := by
    intro i lower upper hLower hUpper hShared
    have hLess := (List.getElem?_eq_some_iff.mp hUpper).1
    have hAbove := (h.sits_at hUpper).above
    rw [a.under_take (Nat.le_of_lt hLess), markBelow, markAt, hLower] at hAbove
    exact hAbove hShared.symm
  last := by
    intro i m address hm hLast
    have hLess := (List.getElem?_eq_some_iff.mp hm).1
    have := (h.sits_at hm).last address hLast
    rwa [a.under_take (Nat.le_of_lt hLess)] at this
  valid := h.valid

/-- However a source grants and refuses, and whatever is called, an arena stays consistent as long
as the blocks that are out start on a grain and share no byte. -/
theorem run_consistent {σ : Type} (src : BlockSource σ) (settings : Settings) (id : Nat)
    (host : Host (Traced σ)) (w : World (Traced σ)) (ops : List Op)
    (hStart : (start src.traced settings id host).1 = .ok w) (hFresh : host.store.traffic = [])
    (hSound : Traffic.Sound (w.run ops).traffic) : (w.run ops).arena.Consistent :=
  (World.orderly_run hStart hFresh hSound).wellFormed.consistent

theorem run_consistent_limited :
    ∃ w : World (Traced Heap),
      (start Heap.limited.traced ⟨0, false⟩ 1 Host.blank).1 = .ok w ∧
        (w.run [.alloc 100, .pushFrame 50, .alloc 9000, .expandLast 2000 false, .pushMark,
          .popFrame, .resizeLast 8 true]).arena.Consistent :=
  ⟨_, rfl, run_consistent Heap.limited ⟨0, false⟩ 1 Host.blank _ _ rfl rfl (by decide +kernel)⟩

end ArenaRegistry.Arena
