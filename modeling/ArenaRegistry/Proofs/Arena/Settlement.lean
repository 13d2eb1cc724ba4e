import ArenaRegistry.Proofs.Arena.Discipline

/-! An arena settles with its source. What it holds is what was granted and has not gone back, nothing
goes back that is not out, a pop gives back what came since its push, and closing the arena gives back
the rest. None of this but the part on pops asks anything of the source. -/

namespace ArenaRegistry.Arena

/-! ### Bytes -/

namespace Span

theorem totalSize_append (bs cs : List Span) :
    totalSize (bs ++ cs) = totalSize bs + totalSize cs := by
  induction bs with
  | nil => simp [totalSize]
  | cons b bs ih =>
    simp only [List.cons_append, totalSize, ih]
    omega

theorem totalSize_perm {bs cs : List Span} (h : bs.Perm cs) : totalSize bs = totalSize cs := by
  induction h with
  | nil => rfl
  | cons b _ ih => simp only [totalSize, ih]
  | swap b c bs =>
    simp only [totalSize]
    omega
  | trans _ _ ih ih' => exact ih.trans ih'

end Span

/-! ### Giving back what is out -/

namespace Traffic

/-- A block that goes back is out at that moment. -/
def Proper (traffic : List Traffic) : Prop :=
  ∀ n block, traffic[n]? = some (released block) → block ∈ outstanding (traffic.take n)

theorem proper_nil : Proper [] := by
  intro n block h
  cases h

theorem Proper.append {past more : List Traffic} (h : Proper past)
    (hMore : ∀ n block, more[n]? = some (released block) →
      block ∈ outstanding (past ++ more.take n)) : Proper (past ++ more) := by
  intro n block hBlock
  rw [List.take_append]
  rcases Nat.lt_or_ge n past.length with hLess | hGe
  · rw [List.getElem?_append_left hLess] at hBlock
    rw [Nat.sub_eq_zero_of_le (Nat.le_of_lt hLess), List.take_zero, List.append_nil]
    exact h n block hBlock
  · rw [List.getElem?_append_right hGe] at hBlock
    rw [List.take_of_length_le hGe]
    exact hMore _ block hBlock

theorem Proper.concat {past : List Traffic} {event : Traffic} (h : Proper past)
    (hEvent : ∀ block, event ≠ released block) : Proper (past ++ [event]) := by
  apply h.append
  intro n block hBlock
  have hSame : released block = event := List.mem_singleton.mp (List.mem_of_getElem? hBlock)
  exact absurd hSame.symm (hEvent block)

/-- Blocks that are out may go back, one after the other. -/
theorem Proper.giveBack {past : List Traffic} {blocks rest : List Span} (h : Proper past)
    (hOut : (outstanding past).Perm (blocks ++ rest)) :
    Proper (past ++ blocks.map released) := by
  apply h.append
  intro n block hBlock
  rw [List.getElem?_map] at hBlock
  obtain ⟨b, hFound, hSame⟩ := Option.map_eq_some_iff.mp hBlock
  obtain rfl : b = block := by simpa using hSame
  -- When its turn comes, the blocks before it have gone back, and it has not.
  have hLeft : (outstanding (past ++ (blocks.take n).map released)).Perm
      (blocks.drop n ++ rest) := by
    rw [outstanding_append]
    apply foldl_after_released
    rwa [← List.append_assoc, List.take_append_drop]
  rw [← List.map_take, hLeft.mem_iff]
  apply List.mem_append_left
  have hNext : (blocks.drop n)[0]? = some b := by
    rw [List.getElem?_drop]
    exact hFound
  exact List.mem_of_getElem? hNext

end Traffic

open Traffic (outstanding outstanding_append)

theorem proper_edit {a : Arena} {e : Edit} {traffic : List Traffic} (h : Traffic.Proper traffic)
    (hFits : e.Fits a) (hBalance : (outstanding traffic).Perm a.held) :
    Traffic.Proper (traffic ++ e.traffic a) := by
  cases e with
  | bump _ | extend _ | retract _ | enter | fuse _ =>
    show Traffic.Proper (traffic ++ [])
    rwa [List.append_nil]
  | refuse size => exact h.concat nofun
  | openChunk block _ | addBig block | enterOwn block => exact h.concat nofun
  | replaceBig block =>
    obtain ⟨last, grown, hLast, hBig, -⟩ := hFits
    obtain ⟨old, hOld, -⟩ := isBig_iff.mp hBig
    have hMem : old ∈ block :: outstanding traffic := by
      apply List.mem_cons_of_mem
      rw [hBalance.mem_iff]
      exact List.mem_append_right _ (bigAt?_mem hOld)
    have hOut : (outstanding (traffic ++ [.granted block])).Perm
        ([old] ++ (block :: outstanding traffic).erase old) := by
      rw [outstanding_append]
      exact List.perm_cons_erase hMem
    have hGranted : Traffic.Proper (traffic ++ [.granted block]) := h.concat nofun
    rw [Edit.traffic, hOld, List.append_cons]
    exact hGranted.giveBack hOut
  | cutTo depth =>
    exact h.giveBack (hBalance.trans (a.heldAbove_perm_cutTo (Edit.clears_zero a (.cutTo depth))))

namespace World

variable {σ : Type} {src : BlockSource σ} {w w' : World (Traced σ)}

/-- The blocks held are those that are out, and none went back that was not. -/
structure Squares (w : World (Traced σ)) : Prop where
  out : (outstanding w.traffic).Perm w.arena.held
  proper : Traffic.Proper w.traffic

theorem Edits.squares {e : Edit} (h : w.Edits e w') (hw : w.Squares) : w'.Squares := by
  constructor
  · rw [h.traffic, h.arena]
    exact balance_edit h.fits (Edit.clears_zero _ _) (Nat.zero_le _) (Nat.zero_le _) hw.out
  · rw [h.traffic]
    exact proper_edit hw.proper h.fits hw.out

theorem Advances.squares {low : Nat} (h : Advances low w w') (hw : w.Squares) : w'.Squares := by
  induction h with
  | done => exact hw
  | step first _ _ ih => exact ih (first.squares hw)

theorem run_squares (hs : w.source = src.traced) (hw : w.Squares) (ops : List Op) :
    (w.run ops).Squares := by
  induction ops generalizing w with
  | nil => exact hw
  | cons op ops ih =>
    rw [run_cons]
    exact ih (step_source hs op) ((step_advances hs op).squares hw)

theorem start_squares {settings : Settings} {id : Nat} {host : Host (Traced σ)}
    (hStart : (start src.traced settings id host).1 = .ok w) (hFresh : host.store.traffic = []) :
    w.Squares := by
  obtain ⟨-, b, hArena, hTraffic⟩ := exists_start hStart
  rw [hFresh] at hTraffic
  constructor
  · rw [hArena, hTraffic]
    exact List.Perm.refl _
  · rw [hTraffic]
    exact Traffic.proper_nil.concat nofun

/-- A start that fails has asked for nothing, or was refused its first chunk. -/
theorem start_failed {settings : Settings} {id : Nat} {host : Host (Traced σ)} {failure : Failure}
    (hStart : (start src.traced settings id host).1 = .error failure) :
    (start src.traced settings id host).2.store.traffic = host.store.traffic ∨
      (start src.traced settings id host).2.store.traffic =
        host.store.traffic ++ [.refused settings.effectiveChunkSize] := by
  unfold start at hStart ⊢
  cases hValid : settings.validate with
  | error e =>
    left
    rfl
  | ok _ =>
    right
    rcases hRequest : src.request settings.effectiveChunkSize host.store.inner with
      ⟨_ | grant, inner⟩
    · simp only [Host.acquire, BlockSource.traced, hRequest, Host.afterRefusedStart]
      split <;> rfl
    · simp [hValid, Host.acquire, BlockSource.traced, hRequest] at hStart

theorem close_traffic (hs : w.source = src.traced) :
    w.close.store.traffic = w.traffic ++ w.arena.blocks.map .released := by
  have h := release_traffic (w := w.note (.closing w.arena.id w.arena.chunks.length
    w.arena.bigBlocks.length)) hs w.arena.blocks
  exact h

/-! ### What came since a push -/

/-- Since some earlier traffic, a world has got its blocks above the lowest ones, so many of each
kind, and no others that it still has. -/
def Gained (past : List Traffic) (chunks bigs : Nat) (w : World (Traced σ)) : Prop :=
  ∃ since, w.traffic = past ++ since ∧ (outstanding since).Perm (w.arena.heldAbove chunks bigs)

theorem gained_nothing (w : World (Traced σ)) :
    Gained w.traffic w.arena.chunks.length w.arena.bigBlocks.length w := by
  refine ⟨[], (List.append_nil _).symm, ?_⟩
  simp [heldAbove, outstanding]

theorem Edits.gained {e : Edit} {past : List Traffic} {chunks bigs : Nat} (h : w.Edits e w')
    (hClears : e.Clears w.arena chunks bigs) (hChunks : chunks ≤ w.arena.chunks.length)
    (hBigs : bigs ≤ w.arena.bigBlocks.length) (hw : Gained past chunks bigs w) :
    Gained past chunks bigs w' := by
  obtain ⟨since, hTraffic, hOut⟩ := hw
  refine ⟨since ++ e.traffic w.arena, ?_, ?_⟩
  · rw [h.traffic, hTraffic, List.append_assoc]
  · rw [h.arena]
    exact balance_edit h.fits hClears hChunks hBigs hOut

end World

section Clears

variable {base a : Arena} {e : Edit} {name : Nat}

theorem Edit.clears_of_enters (h : e.Enters) (chunks bigs : Nat) : e.Clears a chunks bigs := by
  cases e with
  | enter | enterOwn _ => trivial
  | _ => exact h.elim

theorem Edit.clears_of_carves {span : Span} (h : e.Carves a span) (chunks bigs : Nat) :
    e.Clears a chunks bigs := by
  cases e with
  | bump _ | openChunk _ _ | addBig _ => trivial
  | _ => exact h.elim

/-- An edit that does not cut below a mark leaves the blocks below the mark alone. -/
theorem StandsOn.clears (h : base.StandsOn name a) (hBase : base.WellFormed) (ha : a.WellFormed)
    (hFits : e.Fits a) (hLow : ∀ depth, e = .cutTo depth → base.marks.length ≤ depth) :
    e.Clears a base.chunks.length base.bigBlocks.length := by
  cases e with
  | replaceBig block =>
    obtain ⟨last, grown, hLast, hBig, -⟩ := hFits
    exact h.le_own_big hBase ha hLast hBig
  | cutTo depth =>
    have hMark : a.marks[depth]? = some (a.markAt depth) := by
      have hDepth : depth ≤ a.depth := hFits
      rw [markAt, List.getElem?_eq_getElem (by have := ha.length_marks; omega)]
      rfl
    exact h.counts_le hBase ha hMark (Nat.le_succ_of_le (hLow depth rfl))
  | _ => trivial

end Clears

namespace World

variable {σ : Type} {src : BlockSource σ} {w w' : World (Traced σ)}

theorem Framed.gained {span : Span} (h : w.Framed span w') :
    Gained w.traffic w.arena.chunks.length w.arena.bigBlocks.length w' := by
  cases h with
  | fused n fuse _ =>
    exact fuse.gained trivial (Nat.le_refl _) (Nat.le_refl _) (gained_nothing w)
  | @split w₁ _ e e' enter enters carve carves =>
    have hKeeps : w.arena.Keeps w₁.arena := by
      rw [enter.arena]
      exact (standsOn_of_enters enters).toKeeps
    have hEntered := enter.gained (Edit.clears_of_enters enters _ _) (Nat.le_refl _)
      (Nat.le_refl _) (gained_nothing w)
    exact carve.gained (Edit.clears_of_carves carves _ _) hKeeps.chunks_prefix.length_le
      hKeeps.bigs_prefix.length_le hEntered

theorem push_gained {push : Op} {reply : Reply} (hs : w.source = src.traced) (hPush : push.Pushes)
    (hStep : w.step push = (.ok reply, w')) :
    Gained w.traffic w.arena.chunks.length w.arena.bigBlocks.length w' := by
  have hOutcome := push_outcome hs hPush
  rw [hStep] at hOutcome
  rcases hOutcome with ⟨-, e, hEdit, hEnters⟩ | ⟨-, span, hFramed⟩
  · exact hEdit.gained (Edit.clears_of_enters hEnters _ _) (Nat.le_refl _) (Nat.le_refl _)
      (gained_nothing w)
  · exact hFramed.gained

theorem Advances.gained {base : Arena} {name low : Nat} {past : List Traffic}
    (h : Advances low w w') (hBase : base.WellFormed) (hLow : base.marks.length ≤ low)
    (hw : w.Orderly src) (hSound : Traffic.Sound w'.traffic) (hStands : base.StandsOn name w.arena)
    (hGained : Gained past base.chunks.length base.bigBlocks.length w) :
    Gained past base.chunks.length base.bigBlocks.length w' := by
  induction h with
  | done => exact hGained
  | @step w w₁ _ e first above rest ih =>
    have hAbove : ∀ depth, e = .cutTo depth → base.marks.length ≤ depth :=
      fun depth hCut => Nat.le_trans hLow (above depth hCut)
    have hClears := hStands.clears hBase hw.wellFormed first.fits hAbove
    have hStands' : base.StandsOn name w₁.arena := by
      rw [first.arena]
      exact hStands.edit hBase hw.wellFormed first.fits hAbove
    exact ih (first.orderly hw (hSound.before rest.traffic_grows)) hSound hStands'
      (first.gained hClears hStands.chunks_prefix.length_le hStands.bigs_prefix.length_le hGained)

theorem run_gained {base : Arena} {name : Nat} {past : List Traffic} (ops : List Op)
    (hBase : base.WellFormed) (hw : w.Orderly src) (hSound : Traffic.Sound (w.run ops).traffic)
    (hSpares : w.Spares base.marks.length ops) (hStands : base.StandsOn name w.arena)
    (hGained : Gained past base.chunks.length base.bigBlocks.length w) :
    Gained past base.chunks.length base.bigBlocks.length (w.run ops) := by
  induction ops generalizing w with
  | nil => exact hGained
  | cons op ops ih =>
    rw [run_cons] at hSound ⊢
    have hAdvances := step_advances hw.source op
    have hBefore := hSound.before (run_traffic_grows (step_source hw.source op) ops)
    have hLow := le_lowest hStands.le_depth hSpares.1
    exact ih (hAdvances.orderly hw hBefore) hSound hSpares.2
      (hAdvances.standsOn hBase hLow hw hBefore hStands)
      (hAdvances.gained hBase hLow hw hBefore hStands hGained)

/-- From one world to the next, just the blocks go back that came since an earlier one and are still
held: big blocks first, and the newest of either kind first. -/
def GivesBack (before w w' : World (Traced σ)) : Prop :=
  ∃ since chunks bigs, w.traffic = before.traffic ++ since ∧
    (outstanding since).Perm (chunks ++ bigs) ∧
    w.arena.chunks = before.arena.chunks ++ chunks ∧
    w.arena.bigBlocks = before.arena.bigBlocks ++ bigs ∧
    w'.traffic = w.traffic ++ (bigs.reverse ++ chunks.reverse).map .released

theorem cutTo_givesBack {before : World (Traced σ)} {name : Nat} (hs : w.source = src.traced)
    (hBase : before.arena.WellFormed) (hStands : before.arena.StandsOn name w.arena)
    (hGained : Gained before.traffic before.arena.chunks.length before.arena.bigBlocks.length w) :
    GivesBack before w (w.cutTo before.arena.depth) := by
  obtain ⟨since, hTraffic, hOut⟩ := hGained
  refine ⟨since, _, _, hTraffic, hOut, (List.prefix_iff_eq_append.mp hStands.chunks_prefix).symm,
    (List.prefix_iff_eq_append.mp hStands.bigs_prefix).symm, ?_⟩
  rw [← hStands.blocksAbove_depth hBase]
  exact release_traffic hs _

/-- All accounts of an arena are settled: the blocks held are those that are out, with as many bytes
as it says, none went back that was not out, and none is out any more once the arena is closed. -/
structure Settled (w : World (Traced σ)) : Prop extends w.Squares where
  bytes : w.arena.stats.totalBytes = Span.totalSize (outstanding w.traffic)
  closed : outstanding w.close.store.traffic = []
  closedProper : Traffic.Proper w.close.store.traffic

theorem Squares.settled (hs : w.source = src.traced) (h : w.Squares) : w.Settled := by
  have hBlocks : (outstanding w.traffic).Perm (w.arena.blocks ++ []) := by
    rw [List.append_nil]
    refine h.out.trans (List.perm_append_comm.trans ?_)
    exact (List.reverse_perm _).symm.append (List.reverse_perm _).symm
  exact {
    toSquares := h
    bytes := by
      rw [Span.totalSize_perm h.out, held, Span.totalSize_append]
      rfl
    closed := by
      rw [close_traffic hs, outstanding_append]
      exact List.perm_nil.mp (Traffic.foldl_after_released _ hBlocks)
    closedProper := by
      rw [close_traffic hs]
      exact h.proper.giveBack hBlocks }

end World

/-- A host whose source grants nothing. -/
def Host.drained : Host (Traced Heap) := ⟨⟨Heap.empty.failAfter 0, []⟩, fun _ => 0, []⟩

/-- However a source grants and refuses, and whatever is called, an arena settles with it. A start that
fails leaves nothing out, every run leaves all accounts settled, and a pop gives back just what came
since its push; for the last it takes a source that keeps the blocks that are out apart. -/
theorem run_settles {σ : Type} (src : BlockSource σ) (settings : Settings) (id : Nat)
    (host : Host (Traced σ)) (hFresh : host.store.traffic = []) :
    (∀ failure, (start src.traced settings id host).1 = .error failure →
      outstanding (start src.traced settings id host).2.store.traffic = [] ∧
        Traffic.Proper (start src.traced settings id host).2.store.traffic) ∧
    ∀ w, (start src.traced settings id host).1 = .ok w →
      (∀ ops, (w.run ops).Settled) ∧
      ∀ past push reply pushed ops, push.Pushes →
        (w.run past).step push = (.ok reply, pushed) → pushed.Spares pushed.arena.depth ops →
        Traffic.Sound (pushed.run ops).traffic →
        (w.run past).GivesBack (pushed.run ops)
            ((pushed.run ops).step (.popMark pushed.arena.topHandle)).2 ∧
          ((pushed.run ops).arena.topHandle = pushed.arena.topHandle →
            (w.run past).GivesBack (pushed.run ops) ((pushed.run ops).step .popFrame).2) := by
  constructor
  · intro failure hStart
    rcases World.start_failed hStart with hTraffic | hTraffic
    · rw [hTraffic, hFresh]
      exact ⟨rfl, Traffic.proper_nil⟩
    · rw [hTraffic, hFresh]
      exact ⟨rfl, Traffic.proper_nil.concat nofun⟩
  intro w hStart
  have hSource := (World.exists_start hStart).1
  constructor
  · intro ops
    exact (World.run_squares hSource (World.start_squares hStart hFresh) ops).settled
      (World.run_source hSource ops)
  intro past push reply pushed ops hPush hPushed hSpares hSound
  obtain ⟨hOrderly, hOrderlyPushed⟩ := World.orderly_push hStart hFresh rfl hPushed hSound
  have hSoundPushed : Traffic.Sound pushed.traffic :=
    hSound.before (World.run_traffic_grows hOrderlyPushed.source ops)
  obtain ⟨⟨hStands, hDepth⟩, -⟩ := hOrderly.standsOn_push hPush hPushed hSoundPushed
  rw [hDepth] at hSpares
  have hTop := hStands.topHandle_eq hDepth
  have hBase := hOrderly.wellFormed
  have hEnd := World.run_standsOn ops hBase hOrderlyPushed hSound hSpares hStands
  have hGained := World.run_gained ops hBase hOrderlyPushed hSound hSpares hStands
    (World.push_gained hOrderly.source hPush hPushed)
  have hBack := World.cutTo_givesBack (World.run_source hOrderlyPushed.source ops) hBase hEnd hGained
  constructor
  · rw [hTop, World.step_popMark_eq_cutTo hBase hEnd]
    exact hBack
  · intro hCurrent
    have hCurrentDepth : (pushed.run ops).arena.depth = (w.run past).arena.marks.length := by
      rw [← hDepth]
      exact congrArg Handle.depth hCurrent
    rw [World.step_popFrame_eq_cutTo hBase hCurrentDepth]
    exact hBack

theorem run_settles_limited :
    (outstanding (start Heap.limited.traced ⟨0, true⟩ 1 Host.drained).2.store.traffic = [] ∧
      Traffic.Proper (start Heap.limited.traced ⟨0, true⟩ 1 Host.drained).2.store.traffic) ∧
    ∃ w pushed : World (Traced Heap),
      (start Heap.limited.traced ⟨0, false⟩ 1 Host.blank).1 = .ok w ∧
        ((w.run [.alloc 100]).step (.pushFrame 50)).2 = pushed ∧
        (w.run [.alloc 9000, .pushMark, .expandLast 10 false, .alloc 5000000, .popFrame]).Settled ∧
        (w.run [.alloc 100]).GivesBack (pushed.run [.alloc 9000, .alloc 7000, .pushMark, .alloc 4000])
          ((pushed.run [.alloc 9000, .alloc 7000, .pushMark, .alloc 4000]).step
            (.popMark pushed.arena.topHandle)).2 := by
  have hRuns := (run_settles Heap.limited ⟨0, false⟩ 1 Host.blank rfl).2 _ rfl
  refine ⟨(run_settles Heap.limited ⟨0, true⟩ 1 Host.drained rfl).1 _ rfl, _, _, rfl, rfl,
    hRuns.1 _, (hRuns.2 [.alloc 100] (.pushFrame 50) _ _ _ trivial rfl ?_ ?_).1⟩
  · decide +kernel
  · decide +kernel

end ArenaRegistry.Arena
