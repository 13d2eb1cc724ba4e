import ArenaRegistry.Proofs.Arena.Roster
import ArenaRegistry.Proofs.Arena.Session

/-! Unwinding at once and step by step. Popping a mark looks at its own counts only and passes over
the marks above it. As counts never go down from a mark to the one above, a cut that comes after a
higher one leaves what it would have left alone, and the two together give back the same blocks. All
this holds of every arena that calls can lead to, whatever its source has granted. -/

namespace ArenaRegistry.Arena

/-- One mark counts no more blocks of either kind than another. -/
structure Mark.CountsLe (lower upper : Mark) : Prop where
  chunks : lower.chunkCount ≤ upper.chunkCount
  bigs : lower.bigCount ≤ upper.bigCount

theorem Mark.CountsLe.refl (m : Mark) : m.CountsLe m := ⟨Nat.le_refl _, Nat.le_refl _⟩

theorem Mark.CountsLe.trans {m₁ m₂ m₃ : Mark} (h : m₁.CountsLe m₂) (h' : m₂.CountsLe m₃) :
    m₁.CountsLe m₃ :=
  ⟨Nat.le_trans h.chunks h'.chunks, Nat.le_trans h.bigs h'.bigs⟩

/-- Marks count their blocks in order, and the current one counts them all. -/
structure Graded (a : Arena) : Prop where
  nonempty : a.marks ≠ []
  counts : a.marks.Pairwise Mark.CountsLe
  chunks : a.top.chunkCount = a.chunks.length
  bigs : a.top.bigCount = a.bigBlocks.length

variable {a : Arena} {i j : Nat}

theorem graded_of_marks {below : List Mark} {m : Mark} (h : a.marks = below ++ [m])
    (hBelow : below.Pairwise Mark.CountsLe) (hLower : ∀ lower ∈ below, lower.CountsLe m)
    (hChunks : m.chunkCount = a.chunks.length) (hBigs : m.bigCount = a.bigBlocks.length) :
    a.Graded where
  nonempty := by simp [h]
  counts := by
    rw [h]
    refine List.pairwise_append.mpr ⟨hBelow, List.pairwise_singleton _ _, ?_⟩
    intro lower hMem upper hUpper
    obtain rfl := List.mem_singleton.mp hUpper
    exact hLower lower hMem
  chunks := by rw [top_of_marks h, hChunks]
  bigs := by rw [top_of_marks h, hBigs]

theorem graded_fresh (id chunkSize : Nat) (flags : Flags) (start : Nat) :
    (fresh id chunkSize flags start).Graded where
  nonempty := List.cons_ne_nil _ _
  counts := List.pairwise_singleton _ _
  chunks := rfl
  bigs := rfl

theorem markAt_depth (a : Arena) : a.markAt a.depth = a.top := by
  rw [markAt, depth, top, List.getLast?_eq_getElem?]

theorem markAt_cutTo (a : Arena) (h : i ≤ j) : (a.cutTo j).markAt i = a.markAt i := by
  rw [markAt, cutTo, List.getElem?_take_of_lt (Nat.lt_succ_of_le h), markAt]

theorem depth_cutTo (h : j ≤ a.depth) : (a.cutTo j).depth = j := by
  unfold depth at *
  rw [cutTo, List.length_take]
  omega

namespace Graded

theorem length_marks (h : a.Graded) : a.marks.length = a.depth + 1 := by
  have := List.length_pos_iff.mpr h.nonempty
  unfold depth
  omega

theorem counts_le (h : a.Graded) (hij : i ≤ j) (hj : j ≤ a.depth) :
    (a.markAt i).CountsLe (a.markAt j) := by
  have hLess : j < a.marks.length := by
    rw [h.length_marks]
    exact Nat.lt_succ_of_le hj
  rcases Nat.eq_or_lt_of_le hij with rfl | hBelow
  · exact .refl _
  · have := List.pairwise_iff_getElem.mp h.counts i j (Nat.lt_trans hBelow hLess) hLess hBelow
    rwa [markAt, markAt, List.getElem?_eq_getElem (Nat.lt_trans hBelow hLess),
      List.getElem?_eq_getElem hLess]

/-! ### Every edit keeps the order -/

theorem retop {below : List Mark} {m : Mark} {chunks bigs : List Span} (h : a.Graded)
    (hMarks : a.marks = below ++ [a.top]) (hMore : a.top.CountsLe m)
    (hChunks : m.chunkCount = chunks.length) (hBigs : m.bigCount = bigs.length) :
    (a.retop chunks bigs below m).Graded := by
  obtain ⟨hBelow, -, hLast⟩ := List.pairwise_append.mp (hMarks ▸ h.counts)
  refine graded_of_marks rfl hBelow (fun lower hLower => ?_) hChunks hBigs
  exact (hLast lower hLower a.top (List.mem_singleton_self _)).trans hMore

theorem le_top (h : a.Graded) {m : Mark} (hm : m ∈ a.marks) : m.CountsLe a.top := by
  obtain ⟨below, hMarks⟩ := exists_marks_eq h.nonempty
  obtain ⟨-, -, hLast⟩ := List.pairwise_append.mp (hMarks ▸ h.counts)
  rw [hMarks] at hm
  rcases List.mem_append.mp hm with hLower | hTop
  · exact hLast m hLower a.top (List.mem_singleton_self _)
  · rw [List.mem_singleton.mp hTop]
    exact .refl _

theorem pushed (h : a.Graded) (chunks : List Span) (m : Mark) (hMore : a.top.CountsLe m)
    (hChunks : m.chunkCount = chunks.length) (hBigs : m.bigCount = a.bigBlocks.length) :
    (a.pushed chunks m).Graded :=
  graded_of_marks rfl h.counts (fun _ hLower => (h.le_top hLower).trans hMore) hChunks hBigs

theorem cutTo (h : a.Graded) (hj : j ≤ a.depth) : (a.cutTo j).Graded := by
  have hTop : (a.cutTo j).top = a.markAt j := by
    rw [← markAt_depth, depth_cutTo hj, markAt_cutTo a (Nat.le_refl j)]
  have hFewer := h.counts_le hj (Nat.le_refl _)
  rw [markAt_depth] at hFewer
  exact {
    nonempty := by simp [Arena.cutTo, h.nonempty]
    counts := h.counts.sublist (List.take_sublist _ _)
    chunks := by
      rw [hTop, Arena.cutTo, List.length_take, ← h.chunks]
      exact (Nat.min_eq_left hFewer.chunks).symm
    bigs := by
      rw [hTop, Arena.cutTo, List.length_take, ← h.bigs]
      exact (Nat.min_eq_left hFewer.bigs).symm }

theorem edit {e : Edit} (h : a.Graded) (hFits : e.Fits a) : (a.edit e).Graded := by
  obtain ⟨below, hMarks⟩ := exists_marks_eq h.nonempty
  have hChunks := Nat.le_refl a.top.chunkCount
  have hBigs := Nat.le_refl a.top.bigCount
  have hNextChunk : a.top.chunkCount ≤ a.chunks.length + 1 := Nat.le_succ_of_le (h.chunks ▸ hChunks)
  have hNextBig : a.top.bigCount ≤ a.bigBlocks.length + 1 := Nat.le_succ_of_le (h.bigs ▸ hBigs)
  cases e with
  | refuse size => exact h
  | bump n =>
    rw [Arena.edit, Arena.bump, mapTop_eq a.chunks a.bigBlocks hMarks]
    exact h.retop hMarks ⟨hChunks, hBigs⟩ h.chunks h.bigs
  | extend n =>
    rw [Arena.edit, Arena.extend, mapTop_eq a.chunks a.bigBlocks hMarks]
    exact h.retop hMarks ⟨hChunks, hBigs⟩ h.chunks h.bigs
  | retract n =>
    rw [Arena.edit, Arena.retract, mapTop_eq a.chunks a.bigBlocks hMarks]
    exact h.retop hMarks ⟨hChunks, hBigs⟩ h.chunks h.bigs
  | openChunk block n =>
    rw [Arena.edit, Arena.openChunk, mapTop_eq (a.chunks ++ [block]) a.bigBlocks hMarks]
    exact h.retop hMarks ⟨hNextChunk, hBigs⟩ (by simp) h.bigs
  | addBig block =>
    rw [Arena.edit, Arena.addBig, mapTop_eq a.chunks (a.bigBlocks ++ [block]) hMarks]
    exact h.retop hMarks ⟨hChunks, hNextBig⟩ h.chunks (by simp)
  | replaceBig block =>
    rw [Arena.edit, Arena.replaceBig,
      mapTop_eq a.chunks (a.bigBlocks.set (a.top.bigCount - 1) block) hMarks]
    exact h.retop hMarks ⟨hChunks, hBigs⟩ h.chunks (by rw [List.length_set, ← h.bigs])
  | enter => exact h.pushed a.chunks (a.newMark _ _ _) ⟨hChunks, hBigs⟩ h.chunks h.bigs
  | enterOwn block =>
    exact h.pushed (a.chunks ++ [block]) (a.newMark _ _ _) ⟨hNextChunk, hBigs⟩ (by simp [newMark])
      h.bigs
  | fuse n => exact h.pushed a.chunks (a.newMark _ _ _) ⟨hChunks, hBigs⟩ h.chunks h.bigs
  | cutTo depth => exact h.cutTo hFits

/-! ### Cutting twice -/

/-- To cut at the current mark cuts nothing off. -/
theorem cutTo_depth (h : a.Graded) : a.cutTo a.depth = a := by
  rw [Arena.cutTo, markAt_depth, h.chunks, h.bigs, ← h.length_marks, List.take_length,
    List.take_length, List.take_length]

/-- A lower cut after a higher one is the lower one. -/
theorem cutTo_cutTo (h : a.Graded) (hij : i ≤ j) (hj : j ≤ a.depth) :
    (a.cutTo j).cutTo i = a.cutTo i := by
  have hFewer := h.counts_le hij hj
  rw [Arena.cutTo, markAt_cutTo a hij]
  simp only [Arena.cutTo, List.take_take, Nat.min_eq_left hFewer.chunks,
    Nat.min_eq_left hFewer.bigs, Nat.min_eq_left (Nat.succ_le_succ hij)]

/-- The blocks above a mark are those above a higher one and those between the two. -/
theorem blocksAbove_perm (h : a.Graded) (hij : i ≤ j) (hj : j ≤ a.depth) :
    (a.blocksAbove i).Perm (a.blocksAbove j ++ (a.cutTo j).blocksAbove i) := by
  have hHeld (b : Arena) : (b.blocksAbove i).Perm
      (b.heldAbove (b.markAt i).chunkCount (b.markAt i).bigCount) :=
    ((List.reverse_perm _).append (List.reverse_perm _)).trans List.perm_append_comm
  have hFewer := h.counts_le hij hj
  have hSplit := a.heldAbove_perm_cutTo ⟨hFewer.chunks, hFewer.bigs⟩
  have hBetween := hHeld (a.cutTo j)
  rw [markAt_cutTo a hij] at hBetween
  exact (hHeld a).trans (hSplit.trans (hBetween.symm.append_left _))

end Graded

namespace World

variable {σ : Type} {src : BlockSource σ} {w w₁ w₂ : World (Traced σ)}

theorem Advances.graded {low : Nat} (h : Advances low w w₁) (hw : w.arena.Graded) :
    w₁.arena.Graded := by
  induction h with
  | done => exact hw
  | step first _ _ ih =>
    apply ih
    rw [first.arena]
    exact hw.edit first.fits

/-- What lies above the mark at a depth is gone, and its blocks have gone back in some order. -/
structure CutsBack (depth : Nat) (w w' : World (Traced σ)) : Prop where
  source : w'.source = w.source
  arena : w'.arena = w.arena.cutTo depth
  memory : w'.memory = w.memory
  traffic : ∃ blocks : List Span, blocks.Perm (w.arena.blocksAbove depth) ∧
    w'.traffic = w.traffic ++ blocks.map .released

theorem cutTo_cutsBack (hs : w.source = src.traced) (depth : Nat) :
    CutsBack depth w (w.cutTo depth) :=
  ⟨rfl, rfl, rfl, _, List.Perm.refl _, release_traffic hs _⟩

theorem CutsBack.trans (h : CutsBack j w w₁) (h' : CutsBack i w₁ w₂) (hw : w.arena.Graded)
    (hij : i ≤ j) (hj : j ≤ w.arena.depth) : CutsBack i w w₂ := by
  obtain ⟨bs, hBs, hTraffic⟩ := h.traffic
  obtain ⟨cs, hCs, hTraffic'⟩ := h'.traffic
  rw [h.arena] at hCs
  exact {
    source := h'.source.trans h.source
    arena := by rw [h'.arena, h.arena, hw.cutTo_cutTo hij hj]
    memory := h'.memory.trans h.memory
    traffic := by
      refine ⟨bs ++ cs, (hBs.append hCs).trans (hw.blocksAbove_perm hij hj).symm, ?_⟩
      rw [hTraffic', hTraffic, List.map_append, List.append_assoc] }

theorem popFrame_of_pos (h : 0 < w.arena.depth) : w.popFrame = w.cutTo (w.arena.depth - 1) :=
  if_neg (Nat.ne_of_gt h)

theorem run_popFrames (hs : w.source = src.traced) (hw : w.arena.Graded) {n : Nat}
    (hn : n ≤ w.arena.depth) :
    CutsBack (w.arena.depth - n) w (w.run (List.replicate n .popFrame)) := by
  induction n generalizing w with
  | zero =>
    have hNone : w.arena.blocksAbove w.arena.depth = [] := by
      rw [blocksAbove, markAt_depth, hw.chunks, hw.bigs, List.drop_length, List.drop_length]
      rfl
    exact ⟨rfl, hw.cutTo_depth.symm, rfl, [], hNone ▸ .refl _, (List.append_nil _).symm⟩
  | succ n ih =>
    have hBelow : w.arena.depth - 1 ≤ w.arena.depth := Nat.sub_le _ _
    have hFirst := cutTo_cutsBack hs (w.arena.depth - 1)
    have hDepth : (w.cutTo (w.arena.depth - 1)).arena.depth = w.arena.depth - 1 :=
      depth_cutTo hBelow
    have hRest := ih (w := w.cutTo (w.arena.depth - 1)) hs (hw.cutTo hBelow) (by omega)
    rw [hDepth, Nat.sub_sub, Nat.add_comm 1 n] at hRest
    rw [List.replicate_succ, run_cons]
    show CutsBack _ w (w.popFrame.run _)
    rw [popFrame_of_pos (by omega)]
    exact hFirst.trans hRest hw (by omega) hBelow

/-! ### The handle of the current mark -/

theorem popMark_topHandle (h : w.arena.marks ≠ []) :
    w.popMark w.arena.topHandle = (.ok (), w.popFrame) := by
  rw [popMark_of_mem (List.mem_of_getElem? (handles_topHandle h)), popFrame]
  by_cases hBottom : w.arena.depth = 0 <;> simp [hBottom, Handle.isBottom, topHandle, handleAt]

theorem popMark_bottomHandle (h : w.arena.marks ≠ []) :
    w.popMark w.arena.bottomHandle = (.ok (), w) := by
  have hMem := List.mem_of_getElem? (handles_handleAt (List.length_pos_iff.mpr h))
  rw [bottomHandle, popMark_of_mem hMem]
  rfl

end World

theorem Session.run_graded {σ : Type} {src : BlockSource σ} {s : Session (Traced σ)}
    (hs : s.world.source = src.traced) (h : s.world.arena.Graded) (actions : List Action) :
    (s.run actions).world.arena.Graded := by
  induction actions generalizing s with
  | nil => exact h
  | cons action actions ih =>
    refine ih (step_source hs action) ?_
    cases action with
    | call op =>
      rw [step, call_world]
      exact (World.step_advances hs op).graded h
    | write level index place bytes =>
      rcases s.write_cases level index place bytes with hWrite | ⟨r, -, -, hWrite⟩
      · rw [step, hWrite]
        exact h
      · rw [step, hWrite]
        exact h

/-- Two worlds that followed on an earlier one. The arena is the same and so is every byte of
memory, and just the same blocks went back since, in some order. -/
structure World.EndsAlike {σ : Type} (before w w' : World (Traced σ)) : Prop where
  arena : w'.arena = w.arena
  memory : w'.memory = w.memory
  traffic : ∃ bs cs : List Span, bs.Perm cs ∧ w.traffic = before.traffic ++ bs.map .released ∧
    w'.traffic = before.traffic ++ cs.map .released

theorem World.CutsBack.endsAlike {σ : Type} {before w w' : World (Traced σ)} {depth : Nat}
    (h : CutsBack depth before w) (h' : CutsBack depth before w') : before.EndsAlike w w' := by
  obtain ⟨bs, hBs, hTraffic⟩ := h.traffic
  obtain ⟨cs, hCs, hTraffic'⟩ := h'.traffic
  exact ⟨h'.arena.trans h.arena.symm, h'.memory.trans h.memory.symm, bs, cs, hBs.trans hCs.symm,
    hTraffic, hTraffic'⟩

/-- Whatever was called and written before and whatever the source has granted: to pop a mark by its
handle is to pop frame after frame down to it, as many as the marks from it up. Both leave the same
arena and the same memory, and the same blocks go back. To pop the current mark by its handle and to
pop a frame is the same to the last, and neither does anything at the bottom mark. -/
theorem popMark_is_popFrames {σ : Type} (src : BlockSource σ) (settings : Settings) (id : Nat)
    (host : Host (Traced σ)) (w : World (Traced σ)) (actions : List Action)
    (hStart : (start src.traced settings id host).1 = .ok w) :
    let now := ((Session.begin w).run actions).world
    (∀ h, now.arena.isLive h = true → 1 ≤ h.depth →
      h.depth ≤ now.arena.depth ∧ ∃ popped, now.popMark h = (.ok (), popped) ∧
        now.EndsAlike popped (now.run (List.replicate (now.arena.depth - h.depth + 1) .popFrame))) ∧
      now.popMark now.arena.topHandle = (.ok (), now.popFrame) ∧
      (now.arena.depth = 0 → now.popFrame = now) ∧
      now.popMark now.arena.bottomHandle = (.ok (), now) := by
  intro now
  obtain ⟨hSource, b, hArena, -⟩ := World.exists_start hStart
  have hs : now.source = src.traced := Session.run_source hSource actions
  have hGraded : now.arena.Graded := by
    refine Session.run_graded hSource ?_ actions
    rw [Session.begin, hArena]
    exact graded_fresh _ _ _ _
  refine ⟨?_, World.popMark_topHandle hGraded.nonempty, fun hBottom => if_pos hBottom,
    World.popMark_bottomHandle hGraded.nonempty⟩
  intro h hLive hAbove
  have hDepth := World.depth_of_isLive hLive
  have hNotBottom : h.isBottom = false := beq_eq_false_iff_ne.mpr (by omega)
  have hPop : now.popMark h = (.ok (), now.cutTo (h.depth - 1)) := by
    rw [World.popMark, if_pos hLive, hNotBottom]
    rfl
  have hFrames := World.run_popFrames hs hGraded
    (n := now.arena.depth - h.depth + 1) (by omega)
  rw [show now.arena.depth - (now.arena.depth - h.depth + 1) = h.depth - 1 by omega] at hFrames
  exact ⟨hDepth, _, hPop, (World.cutTo_cutsBack hs _).endsAlike hFrames⟩

/-- Three marks over a chunk and big blocks of their own, popped by the handle of the lowest. -/
theorem popMark_is_popFrames_limited :
    ∃ w : World (Traced Heap),
      (start Heap.limited.traced ⟨0, false⟩ 1 Host.blank).1 = .ok w ∧
        let now := ((Session.begin w).run [.call .pushMark, .call (.alloc 3000), .call .pushMark,
          .call (.alloc 6000), .call (.alloc 9000), .call (.pushFrame 6000)]).world
        now.arena.isLive ⟨1, 1, 1⟩ = true ∧ now.arena.depth = 3 ∧
          ∃ popped, now.popMark ⟨1, 1, 1⟩ = (.ok (), popped) ∧
            now.EndsAlike popped (now.run (List.replicate 3 .popFrame)) := by
  refine ⟨_, rfl, ?_⟩
  intro now
  have hLive : now.arena.isLive ⟨1, 1, 1⟩ = true := by decide +kernel
  have hDepth : now.arena.depth = 3 := by decide +kernel
  obtain ⟨hPops, -⟩ := popMark_is_popFrames Heap.limited ⟨0, false⟩ 1 Host.blank _ _ rfl
  obtain ⟨-, hSame⟩ := hPops ⟨1, 1, 1⟩ hLive (by decide)
  rw [hDepth] at hSame
  exact ⟨hLive, hDepth, hSame⟩

end ArenaRegistry.Arena
