import ArenaRegistry.Proofs.Arena.Discipline
import ArenaRegistry.Proofs.Arena.Session

/-! A call that fails changes nothing. It has made no edit, it was refused a block, or it has pushed a
mark for a frame whose memory was refused, and has popped that mark again. -/

namespace ArenaRegistry.Arena

open Traffic (outstanding outstanding_append)

section Enters

variable {a : Arena} {e : Edit}

/-- Pushing a mark and popping it again uses up the name of the mark. -/
theorem cutTo_edit_of_enters (ha : a.WellFormed) (h : e.Enters) :
    (a.edit e).cutTo a.depth = { a with nextMarkId := a.nextMarkId + 1 } := by
  have hRestores := (standsOn_of_enters (a := a) h).restores ha
  have hFields : (a.edit e).cutTo a.depth =
      { a with
        chunks := ((a.edit e).cutTo a.depth).chunks
        bigBlocks := ((a.edit e).cutTo a.depth).bigBlocks
        marks := ((a.edit e).cutTo a.depth).marks
        nextMarkId := a.nextMarkId + 1 } := by
    cases e with
    | enter | enterOwn _ => rfl
    | _ => exact h.elim
  rw [hFields, hRestores.chunks, hRestores.bigs, hRestores.marks]

/-- A block that was granted for a mark goes back when the mark is popped. -/
theorem outstanding_of_enters (ha : a.WellFormed) (h : e.Enters) (traffic : List Traffic) :
    outstanding (traffic ++ e.traffic a ++ (Edit.cutTo a.depth).traffic (a.edit e)) =
      outstanding traffic := by
  have hAbove := (standsOn_of_enters (a := a) h).blocksAbove_depth ha
  cases e with
  | enter =>
    have hNone : (a.edit .enter).blocksAbove a.depth = [] := by
      rw [hAbove]
      simp [edit, Arena.pushMark]
    simp [Edit.traffic, hNone]
  | enterOwn block =>
    have hBlock : (a.edit (.enterOwn block)).blocksAbove a.depth = [block] := by
      rw [hAbove]
      simp [edit, Arena.pushMark, addChunk]
    rw [Edit.traffic, Edit.traffic, hBlock, outstanding_append, outstanding_append]
    exact List.erase_cons_head ..
  | _ => exact h.elim

end Enters

namespace World

variable {σ : Type} {src : BlockSource σ} {w w' : World (Traced σ)}

/-- Between two worlds nothing has happened to the arena, to the bytes of its blocks, or to the
blocks that are out; at most the name of a mark was used up. -/
structure Unchanged (w w' : World (Traced σ)) : Prop where
  arena : ∃ pushes ≤ 1, w'.arena = { w.arena with nextMarkId := w.arena.nextMarkId + pushes }
  memory : ∀ block ∈ w.arena.held, ∀ address, block.Contains address →
    w'.memory address = w.memory address
  out : outstanding w'.traffic = outstanding w.traffic

theorem Fails.memory (h : w.Fails w') (address : Nat) : w'.memory address = w.memory address := by
  rcases h with rfl | ⟨n, h⟩
  · rfl
  · exact h.memory address nofun

theorem Fails.outstanding_eq (h : w.Fails w') : outstanding w'.traffic = outstanding w.traffic := by
  rcases h with rfl | ⟨n, h⟩
  · rfl
  · rw [h.traffic, outstanding_append]
    rfl

theorem Fails.unchanged (h : w.Fails w') : w.Unchanged w' where
  arena := ⟨0, Nat.zero_le _, h.arena⟩
  memory _ _ address _ := h.memory address
  out := h.outstanding_eq

theorem FrameFails.unchanged (h : w.FrameFails w') (hw : w.Orderly src)
    (hSound : Traffic.Sound w'.traffic) : w.Unchanged w' := by
  cases h with
  | early fails => exact fails.unchanged
  | @late w₁ w₂ _ e enter enters fails cut =>
    have hArena : w₂.arena = w.arena.edit e := fails.arena.trans enter.arena
    refine ⟨⟨1, Nat.le_refl _, ?_⟩, ?_, ?_⟩
    · rw [cut.arena, hArena]
      exact cutTo_edit_of_enters hw.wellFormed enters
    · intro block hBlock address hIn
      have hSoundEntered : Traffic.Sound w₁.traffic :=
        hSound.before ((fails.advances 0).traffic_grows.trans cut.traffic_grows)
      -- A block that was granted for the mark shares no byte with those that were held.
      have hOut : ∀ granted ∈ e.block?, ¬granted.Contains address := fun granted hGranted =>
        (enter.granted_apart hw hSoundEntered hGranted block hBlock).not_contains hIn
      rw [cut.memory address nofun, fails.memory, enter.memory address hOut]
    · have hTraffic : outstanding w'.traffic =
          outstanding (w₁.traffic ++ (Edit.cutTo w.arena.depth).traffic (w.arena.edit e)) := by
        rw [cut.traffic, hArena, outstanding_append, outstanding_append, fails.outstanding_eq]
      rw [hTraffic, enter.traffic]
      exact outstanding_of_enters hw.wellFormed enters _

/-- A call that fails does so in one of the ways in which a frame can fail. -/
theorem step_fails (hs : w.source = src.traced) (op : Op) :
    Outcome (fun _ _ => True) w.FrameFails (w.step op) := by
  have hEarly {α β : Type} {ok : α → World (Traced σ) → Prop} {r : Except β α × World (Traced σ)}
      (h : Outcome ok w.Fails r) : Outcome (fun _ _ => True) w.FrameFails r :=
    h.mono (fun _ _ _ => trivial) fun _ hFails => .early hFails
  have hFrame (size : Nat) (claim : Claim) :
      Outcome (fun _ _ => True) w.FrameFails (w.enterFrame size claim) :=
    (enterFrame_outcome hs size claim).mono (fun _ _ _ => trivial) fun _ hFails => hFails
  have hNothing {α : Type} (e : Error) :
      Outcome (fun (_ : α) _ => True) w.FrameFails (.error e, w) := .early (.inl rfl)
  cases op with
  | alloc size => exact (hEarly (carve_outcome hs size .exact)).addressOf.policed.replied
  | allocMin size => exact (hEarly (carve_outcome hs size .rest)).policed.replied
  | pushMark => exact (hEarly (enterMark_outcome hs)).policed.replied
  | pushFrame size => exact (hFrame size .exact).addressOf.policed.replied
  | pushFrameMin size => exact (hFrame size .rest).policed.replied
  | popMark h =>
    refine Outcome.replied (Outcome.reported ?_)
    unfold popMark
    split
    · split <;> trivial
    · exact hNothing _
  | popFrame => trivial
  | expandLast increment inPlace =>
    refine Outcome.replied (Outcome.reported ?_)
    rcases hLast : w.arena.top.last with _ | last
    · rw [expandLast_of_none hLast]
      exact (hEarly (carve_outcome hs increment .exact)).addressOf
    · exact hEarly (expandLast_outcome hs hLast increment inPlace)
  | shrinkLast decrement =>
    refine Outcome.replied (Outcome.reported ?_)
    rcases hLast : w.arena.top.last with _ | last
    · simp only [shrinkLast, hLast]
      exact hNothing _
    · exact hEarly (shrinkLast_outcome hLast decrement)
  | resizeLast size inPlace =>
    refine Outcome.replied (Outcome.reported ?_)
    rcases hLast : w.arena.top.last with _ | last
    · simp only [resizeLast, hLast]
      exact hNothing _
    · exact hEarly (resizeLast_outcome hs hLast size inPlace)

end World

/-- However a source grants and refuses, whatever was called and written before, a call that fails, by
an error or by a panic, leaves all as it was. The blocks that are out start on a grain and share no
byte. -/
theorem failed_call_unchanged {σ : Type} (src : BlockSource σ) (settings : Settings) (id : Nat)
    (host : Host (Traced σ)) (w w' : World (Traced σ)) (actions : List Action) (op : Op)
    (failure : Failure) (hStart : (start src.traced settings id host).1 = .ok w)
    (hFresh : host.store.traffic = [])
    (hFails : ((Session.begin w).run actions).world.step op = (.error failure, w'))
    (hSound : Traffic.Sound w'.traffic) : ((Session.begin w).run actions).world.Unchanged w' := by
  have hSource : ((Session.begin w).run actions).world.source = src.traced :=
    Session.run_source (World.exists_start hStart).1 actions
  have hStep := World.step_fails hSource op
  have hGrows := (World.step_advances hSource op).traffic_grows
  rw [hFails] at hStep hGrows
  have hOrderly := (Session.begin_run_booked hStart hFresh (hSound.before hGrows)).orderly
  exact hStep.unchanged hOrderly hSound

theorem failed_call_unchanged_limited :
    ∃ w w' : World (Traced Heap),
      (start Heap.limited.traced ⟨0, true⟩ 1 Host.blank).1 = .ok w ∧
        ((Session.begin w).run [.call (.alloc 7900), .write 0 0 8 [1, 2, 3]]).world.step
            (.pushFrame 5000000) = (.error (.panic (.request 1 (.outOfMemory 5000000))), w') ∧
        ((Session.begin w).run [.call (.alloc 7900), .write 0 0 8 [1, 2, 3]]).world.Unchanged w' :=
  ⟨_, _, rfl, rfl, failed_call_unchanged Heap.limited ⟨0, true⟩ 1 Host.blank _ _
    [.call (.alloc 7900), .write 0 0 8 [1, 2, 3]] (.pushFrame 5000000) _ rfl rfl rfl
    (by decide +kernel)⟩

end ArenaRegistry.Arena
