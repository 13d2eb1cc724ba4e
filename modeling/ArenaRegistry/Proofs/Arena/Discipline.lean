import ArenaRegistry.Arena.Listing
import ArenaRegistry.Proofs.Arena.Consistency

/-! What lies below a mark is out of reach of every call that does not pop the mark, so popping it
leads back to the arena in which it was pushed. -/

namespace ArenaRegistry.Arena

/-- The marks and blocks of one arena are the lowest ones of another. -/
structure Keeps (base a : Arena) : Prop where
  marks : a.marks.take base.marks.length = base.marks
  chunks : a.chunks.take base.chunks.length = base.chunks
  bigs : a.bigBlocks.take base.bigBlocks.length = base.bigBlocks

/-- On top of what another arena has, an arena has a mark of a given name, and what is above it. -/
structure StandsOn (base : Arena) (name : Nat) (a : Arena) : Prop extends base.Keeps a where
  id : a.id = base.id
  named : (a.marks[base.marks.length]?).map Mark.id = some name

/-- Two arenas hold the same, and what is read off them is the same. -/
structure Restores (base a : Arena) : Prop where
  chunks : a.chunks = base.chunks
  bigs : a.bigBlocks = base.bigBlocks
  marks : a.marks = base.marks
  remaining : a.remaining = base.remaining
  stats : a.stats = base.stats
  lastSize : a.lastSize? = base.lastSize?
  depth : a.depth = base.depth

/-- The calls that push a mark. -/
def Op.Pushes : Op → Prop
  | pushMark | pushFrame _ | pushFrameMin _ => True
  | _ => False

namespace World

variable {σ : Type}

/-- A call pops the mark at a depth. -/
def Pops (w : World σ) (depth : Nat) : Op → Prop
  | .popMark h => w.arena.isLive h ∧ h.isBottom = false ∧ h.depth ≤ depth
  | .popFrame => 0 < w.arena.depth ∧ w.arena.depth ≤ depth
  | _ => False

instance (w : World σ) (depth : Nat) : (op : Op) → Decidable (w.Pops depth op)
  | .popMark _ => inferInstanceAs (Decidable (_ ∧ _ ∧ _))
  | .popFrame => inferInstanceAs (Decidable (_ ∧ _))
  | .alloc _ | .allocMin _ | .pushMark | .pushFrame _ | .pushFrameMin _ | .expandLast _ _
  | .shrinkLast _ | .resizeLast _ _ => inferInstanceAs (Decidable False)

/-- No call of a run pops the mark at a depth. With a mark go those above it, so none below is
popped either. -/
def Spares (depth : Nat) : World σ → List Op → Prop
  | _, [] => True
  | w, op :: ops => ¬w.Pops depth op ∧ Spares depth (w.step op).2 ops

instance decidableSpares (depth : Nat) : (w : World σ) → (ops : List Op) →
    Decidable (w.Spares depth ops)
  | _, [] => inferInstanceAs (Decidable True)
  | w, op :: ops =>
    have := decidableSpares depth (w.step op).2 ops
    inferInstanceAs (Decidable (_ ∧ _))

end World

section StandsOn

variable {base a : Arena} {name : Nat}

theorem StandsOn.higher (h : base.StandsOn name a) : base.marks.length < a.marks.length := by
  obtain ⟨m, hMark, -⟩ := Option.map_eq_some_iff.mp h.named
  exact (List.getElem?_eq_some_iff.mp hMark).1

theorem StandsOn.le_depth (h : base.StandsOn name a) : base.marks.length ≤ a.depth := by
  have := h.higher
  unfold depth
  omega

/-- The uppermost mark of the lower arena is where it was. -/
theorem StandsOn.getElem?_depth (h : base.StandsOn name a) (hBase : base.WellFormed) :
    a.marks[base.marks.length - 1]? = some base.top := by
  have hPos := List.length_pos_iff.mpr hBase.nonempty
  obtain ⟨below, hMarks, -, -⟩ := hBase.exists_below
  rw [← List.getElem?_take_of_lt (Nat.sub_lt hPos Nat.one_pos), h.marks]
  rw [hMarks]
  simp

theorem StandsOn.markAt_depth (h : base.StandsOn name a) (hBase : base.WellFormed) :
    a.markAt base.depth = base.top := by
  rw [markAt, depth, h.getElem?_depth hBase]
  rfl

theorem StandsOn.blocksAbove_depth (h : base.StandsOn name a) (hBase : base.WellFormed) :
    a.blocksAbove base.depth = (a.bigBlocks.drop base.bigBlocks.length).reverse ++
      (a.chunks.drop base.chunks.length).reverse := by
  rw [blocksAbove, h.markAt_depth hBase, hBase.bigs, hBase.chunks]

/-- From its uppermost mark on, marks count all blocks of the lower arena. -/
theorem StandsOn.counts_le (h : base.StandsOn name a) (hBase : base.WellFormed) (ha : a.WellFormed)
    {i : Nat} {m : Mark} (hm : a.marks[i]? = some m) (hi : base.marks.length ≤ i + 1) :
    base.chunks.length ≤ m.chunkCount ∧ base.bigBlocks.length ≤ m.bigCount := by
  have hTop := h.getElem?_depth hBase
  rw [← hBase.chunks, ← hBase.bigs]
  rcases Nat.lt_or_ge (base.marks.length - 1) i with hLess | hGe
  · obtain ⟨hLower, hLowerEq⟩ := List.getElem?_eq_some_iff.mp hTop
    obtain ⟨hUpper, hUpperEq⟩ := List.getElem?_eq_some_iff.mp hm
    have := List.pairwise_iff_getElem.mp ha.consistent.counts _ _ hLower hUpper hLess
    rwa [hLowerEq, hUpperEq] at this
  · have hPos := List.length_pos_iff.mpr hBase.nonempty
    have hEq : i = base.marks.length - 1 := by omega
    rw [hEq, hTop] at hm
    cases hm
    exact ⟨Nat.le_refl _, Nat.le_refl _⟩

theorem StandsOn.retop {below : List Mark} {m : Mark} {chunks bigs : List Span}
    (h : base.StandsOn name a) (hMarks : a.marks = below ++ [a.top]) (hId : m.id = a.top.id)
    (hChunks : chunks.take base.chunks.length = base.chunks)
    (hBigs : bigs.take base.bigBlocks.length = base.bigBlocks) :
    base.StandsOn name (a.retop chunks bigs below m) := by
  have hLength : base.marks.length ≤ below.length := by
    have := h.higher
    rw [hMarks, List.length_append, List.length_singleton] at this
    omega
  have hTake : (below ++ [m]).take base.marks.length = base.marks := by
    have := h.marks
    rw [hMarks, List.take_append_of_le_length hLength] at this
    rw [List.take_append_of_le_length hLength, this]
  have hNamed : ((below ++ [m])[base.marks.length]?).map Mark.id = some name := by
    have := h.named
    rw [hMarks] at this
    rcases Nat.lt_or_eq_of_le hLength with hLess | hEq
    · rw [List.getElem?_append_left hLess] at this ⊢
      exact this
    · rw [hEq] at this ⊢
      rw [List.getElem?_concat_length, Option.map_some] at this ⊢
      rw [hId]
      exact this
  exact ⟨⟨hTake, hChunks, hBigs⟩, h.id, hNamed⟩

theorem StandsOn.pushed {chunks : List Span} {m : Mark} (h : base.StandsOn name a)
    (hChunks : chunks.take base.chunks.length = base.chunks) :
    base.StandsOn name (a.pushed chunks m) := by
  refine ⟨⟨?_, hChunks, h.bigs⟩, h.id, ?_⟩
  · show (a.marks ++ [m]).take base.marks.length = base.marks
    rw [List.take_append_of_le_length (Nat.le_of_lt h.higher)]
    exact h.marks
  · show ((a.marks ++ [m])[base.marks.length]?).map Mark.id = some name
    rw [List.getElem?_append_left h.higher]
    exact h.named

theorem StandsOn.cutTo {depth : Nat} (h : base.StandsOn name a) (hBase : base.WellFormed)
    (ha : a.WellFormed) (hDepth : depth ≤ a.depth) (hLow : base.marks.length ≤ depth) :
    base.StandsOn name (a.cutTo depth) := by
  have hHigher := h.higher
  have hLess : depth < a.marks.length := by
    unfold Arena.depth at hDepth
    omega
  have hMark : a.marks[depth]? = some (a.markAt depth) := by
    rw [markAt, List.getElem?_eq_getElem hLess]
    rfl
  obtain ⟨hChunks, hBigs⟩ := h.counts_le hBase ha hMark (Nat.le_succ_of_le hLow)
  refine ⟨⟨?_, ?_, ?_⟩, h.id, ?_⟩
  · rw [Arena.cutTo, List.take_take, Nat.min_eq_left (Nat.le_succ_of_le hLow)]
    exact h.marks
  · rw [Arena.cutTo, List.take_take, Nat.min_eq_left hChunks]
    exact h.chunks
  · rw [Arena.cutTo, List.take_take, Nat.min_eq_left hBigs]
    exact h.bigs
  · rw [Arena.cutTo, List.getElem?_take_of_lt (Nat.lt_succ_of_le hLow)]
    exact h.named

theorem Keeps.chunks_prefix (h : base.Keeps a) : base.chunks <+: a.chunks :=
  List.prefix_iff_eq_take.mpr h.chunks.symm

theorem Keeps.bigs_prefix (h : base.Keeps a) : base.bigBlocks <+: a.bigBlocks :=
  List.prefix_iff_eq_take.mpr h.bigs.symm

theorem StandsOn.take_concat_chunk {block : Span} (h : base.StandsOn name a) :
    (a.chunks ++ [block]).take base.chunks.length = base.chunks := by
  rw [List.take_append_of_le_length h.chunks_prefix.length_le]
  exact h.chunks

/-- A big block that the current mark owns is none of those of the lower arena. -/
theorem StandsOn.le_own_big {last : Nat} (h : base.StandsOn name a) (hBase : base.WellFormed)
    (ha : a.WellFormed) (hLast : a.top.last = some last) (hBig : a.isBig last = true) :
    base.bigBlocks.length ≤ a.top.bigCount - 1 := by
  obtain ⟨below, hMarks, hSits, -⟩ := ha.exists_below
  have hOwn := (hSits.own_of_isBig hLast hBig).1
  have hHigher := h.higher
  rw [hMarks, List.length_append, List.length_singleton] at hHigher
  have hPos := List.length_pos_iff.mpr hBase.nonempty
  -- The next mark down counts all blocks of the lower arena, and the current one counts more.
  have hNext : a.marks[below.length - 1]? = some (under below.reverse) := by
    have hNonempty : below ≠ [] := List.ne_nil_of_length_pos (by omega)
    rw [hMarks, List.getElem?_append_left (by omega), under,
      ← List.dropLast_concat_getLast hNonempty]
    simp
  have hCounts := h.counts_le hBase ha hNext (by omega)
  omega

/-- An edit that does not cut below the mark leaves what lies below it alone. -/
theorem StandsOn.edit {e : Edit} (h : base.StandsOn name a) (hBase : base.WellFormed)
    (ha : a.WellFormed) (hFits : e.Fits a)
    (hLow : ∀ depth, e = .cutTo depth → base.marks.length ≤ depth) :
    base.StandsOn name (a.edit e) := by
  obtain ⟨below, hMarks, -, -⟩ := ha.exists_below
  cases e with
  | refuse size => exact h
  | bump n =>
    rw [Arena.edit, Arena.bump, mapTop_eq a.chunks a.bigBlocks hMarks]
    exact h.retop hMarks rfl h.chunks h.bigs
  | extend n =>
    rw [Arena.edit, Arena.extend, mapTop_eq a.chunks a.bigBlocks hMarks]
    exact h.retop hMarks rfl h.chunks h.bigs
  | retract n =>
    rw [Arena.edit, Arena.retract, mapTop_eq a.chunks a.bigBlocks hMarks]
    exact h.retop hMarks rfl h.chunks h.bigs
  | openChunk block n =>
    rw [Arena.edit, Arena.openChunk, mapTop_eq (a.chunks ++ [block]) a.bigBlocks hMarks]
    exact h.retop hMarks rfl h.take_concat_chunk h.bigs
  | addBig block =>
    rw [Arena.edit, Arena.addBig, mapTop_eq a.chunks (a.bigBlocks ++ [block]) hMarks]
    refine h.retop hMarks rfl h.chunks ?_
    rw [List.take_append_of_le_length h.bigs_prefix.length_le]
    exact h.bigs
  | replaceBig block =>
    obtain ⟨last, grown, hLast, hBig, -⟩ := hFits
    have hAbove := h.le_own_big hBase ha hLast hBig
    rw [Arena.edit, Arena.replaceBig,
      mapTop_eq a.chunks (a.bigBlocks.set (a.top.bigCount - 1) block) hMarks]
    refine h.retop hMarks rfl h.chunks ?_
    rw [List.take_set_of_le hAbove]
    exact h.bigs
  | enter => exact h.pushed h.chunks
  | enterOwn block => exact h.pushed h.take_concat_chunk
  | fuse n => exact h.pushed h.chunks
  | cutTo depth => exact h.cutTo hBase ha hFits (hLow depth rfl)

/-- Cutting an arena back to where the lower one ends gives the lower one. -/
theorem StandsOn.restores (h : base.StandsOn name a) (hBase : base.WellFormed) :
    base.Restores (a.cutTo base.depth) := by
  have hPos := List.length_pos_iff.mpr hBase.nonempty
  have hMark := h.markAt_depth hBase
  have hMarks : (a.cutTo base.depth).marks = base.marks := by
    rw [Arena.cutTo, depth, Nat.sub_add_cancel hPos]
    exact h.marks
  have hChunks : (a.cutTo base.depth).chunks = base.chunks := by
    rw [Arena.cutTo, hMark, hBase.chunks]
    exact h.chunks
  have hBigs : (a.cutTo base.depth).bigBlocks = base.bigBlocks := by
    rw [Arena.cutTo, hMark, hBase.bigs]
    exact h.bigs
  have hTop : (a.cutTo base.depth).top = base.top := by rw [top, hMarks, top]
  have hRemaining : (a.cutTo base.depth).remaining = base.remaining := by
    simp only [remaining, chunk, chunkAt, hTop, hChunks]
  exact {
    chunks := hChunks
    bigs := hBigs
    marks := hMarks
    remaining := hRemaining
    stats := by simp only [stats, hChunks, hBigs, hMarks, hRemaining]
    lastSize := by
      unfold lastSize? sizeOfLast topBig? bigAt? chunk chunkAt
      simp only [hTop, hBigs, hChunks]
    depth := by rw [Arena.depth, hMarks, Arena.depth] }

end StandsOn

/-! ### Pushing -/

/-- A push puts a new mark on what there is. -/
theorem standsOn_pushed {a : Arena} {chunks : List Span} {m : Mark}
    (hChunks : chunks.take a.chunks.length = a.chunks) : a.StandsOn m.id (a.pushed chunks m) := by
  refine ⟨⟨?_, hChunks, List.take_length⟩, rfl, ?_⟩
  · exact List.take_left
  · show ((a.marks ++ [m])[a.marks.length]?).map Mark.id = some m.id
    rw [List.getElem?_concat_length, Option.map_some]

theorem standsOn_of_enters {a : Arena} {e : Edit} (h : e.Enters) :
    a.StandsOn a.nextMarkId (a.edit e) := by
  cases e with
  | enter => exact standsOn_pushed (m := a.newMark _ _ none) List.take_length
  | enterOwn block => exact standsOn_pushed (m := a.newMark _ _ none) List.take_left
  | _ => exact h.elim

theorem depth_of_carves {a : Arena} {e : Edit} {span : Span} (h : e.Carves a span) :
    (a.edit e).depth = a.depth := by
  cases e with
  | bump n => simp [edit, Arena.bump, mapTop, depth]
  | openChunk block n => simp [edit, Arena.openChunk, mapTop, depth]
  | addBig block => simp [edit, Arena.addBig, mapTop, depth]
  | _ => exact h.elim

theorem StandsOn.topHandle_eq {base a : Arena} {name : Nat} (h : base.StandsOn name a)
    (hDepth : a.depth = base.marks.length) : a.topHandle = ⟨base.id, base.marks.length, name⟩ := by
  obtain ⟨m, hMark, hId⟩ := Option.map_eq_some_iff.mp h.named
  rw [topHandle, handleAt, hDepth, markAt, hMark, Option.getD_some, hId, h.id]

theorem StandsOn.isLive {base a : Arena} {name : Nat} (h : base.StandsOn name a) :
    a.isLive ⟨base.id, base.marks.length, name⟩ = true := by
  obtain ⟨m, hMark, hId⟩ := Option.map_eq_some_iff.mp h.named
  simp [Arena.isLive, h.id, hMark, hId]

namespace World

variable {σ : Type} {src : BlockSource σ} {w w' : World (Traced σ)}

/-- A call that pushes a mark enters it alone or makes a frame. -/
theorem push_outcome (hs : w.source = src.traced) {push : Op} (hPush : push.Pushes) :
    Outcome (fun reply w' => (reply = .handle w'.arena.topHandle ∧ ∃ e, w.Edits e w' ∧ e.Enters) ∨
      ((∀ handle, reply ≠ .handle handle) ∧ ∃ span, w.Framed span w')) (fun _ => True)
      (w.step push) := by
  cases push with
  | pushMark =>
    refine ((enterMark_outcome hs).policed.mono ?_ fun _ _ => trivial).replied
    rintro handle w' ⟨rfl, h⟩
    exact .inl ⟨rfl, h⟩
  | pushFrame size =>
    have hOutcome := enterFrame_outcome hs size .exact
    refine (hOutcome.mono ?_ fun _ _ => trivial).addressOf.policed.replied
    intro span w' h
    exact .inr ⟨nofun, span, h.1⟩
  | pushFrameMin size =>
    refine ((enterFrame_outcome hs size .rest).policed.mono ?_ fun _ _ => trivial).replied
    intro span w' h
    exact .inr ⟨nofun, span, h.1⟩
  | _ => exact hPush.elim

theorem Framed.standsOn {span : Span} (h : w.Framed span w') (hw : w.Orderly src)
    (hSound : Traffic.Sound w'.traffic) :
    w.arena.StandsOn w.arena.nextMarkId w'.arena ∧ w'.arena.depth = w.arena.marks.length := by
  cases h with
  | fused n fuse eq =>
    rw [fuse.arena]
    refine ⟨standsOn_pushed (m := w.arena.newMark _ _ _) List.take_length, ?_⟩
    simp [edit, Arena.pushMark, depth]
  | @split w₁ _ e e' enter enters carve carves =>
    have hMiddle := enter.orderly hw (hSound.before carve.traffic_grows)
    have hStands : w.arena.StandsOn w.arena.nextMarkId w₁.arena := by
      rw [enter.arena]
      exact standsOn_of_enters enters
    have hDepth : w₁.arena.depth = w.arena.marks.length := by
      rw [enter.arena]
      exact depth_of_enters enters
    rw [carve.arena]
    refine ⟨?_, (depth_of_carves carves).trans hDepth⟩
    refine hStands.edit hw.wellFormed hMiddle.wellFormed carve.fits ?_
    rintro depth rfl
    exact carves.elim

/-- After a push that succeeds, the new mark is current and stands on what was there. -/
theorem Orderly.standsOn_push {push : Op} {reply : Reply} (hw : w.Orderly src)
    (hPush : push.Pushes) (hStep : w.step push = (.ok reply, w'))
    (hSound : Traffic.Sound w'.traffic) :
    (w.arena.StandsOn w.arena.nextMarkId w'.arena ∧ w'.arena.depth = w.arena.marks.length) ∧
      ∀ handle, reply = .handle handle → handle = w'.arena.topHandle := by
  have hOutcome := push_outcome hw.source hPush
  rw [hStep] at hOutcome
  rcases hOutcome with ⟨rfl, e, hEdit, hEnters⟩ | ⟨hReply, span, hFramed⟩
  · rw [hEdit.arena]
    refine ⟨⟨standsOn_of_enters hEnters, depth_of_enters hEnters⟩, ?_⟩
    rintro _ ⟨⟩
    rfl
  · exact ⟨hFramed.standsOn hw hSound, fun handle h => absurd h (hReply handle)⟩

/-! ### Calls above a mark -/

/-- A call that does not pop the mark at a depth cuts no lower than that. -/
theorem le_lowest {depth : Nat} {op : Op} (hDepth : depth ≤ w.arena.depth)
    (hPops : ¬w.Pops depth op) : depth ≤ w.lowest op := by
  cases op with
  | popMark h =>
    simp only [lowest]
    split
    next hLive =>
      have hAbove : ¬h.depth ≤ depth := fun hLe => hPops ⟨hLive.1, hLive.2, hLe⟩
      omega
    next => exact hDepth
  | popFrame =>
    have hAbove : ¬(0 < w.arena.depth ∧ w.arena.depth ≤ depth) := hPops
    simp only [lowest]
    omega
  | _ => exact hDepth

theorem Advances.standsOn {base : Arena} {name low : Nat} (h : Advances low w w')
    (hBase : base.WellFormed) (hLow : base.marks.length ≤ low) (hw : w.Orderly src)
    (hSound : Traffic.Sound w'.traffic) (hStands : base.StandsOn name w.arena) :
    base.StandsOn name w'.arena := by
  induction h with
  | done => exact hStands
  | step first above rest ih =>
    refine ih (first.orderly hw (hSound.before rest.traffic_grows)) hSound ?_
    rw [first.arena]
    exact hStands.edit hBase hw.wellFormed first.fits fun depth hCut =>
      Nat.le_trans hLow (above depth hCut)

theorem run_standsOn {base : Arena} {name : Nat} (ops : List Op) (hBase : base.WellFormed)
    (hw : w.Orderly src) (hSound : Traffic.Sound (w.run ops).traffic)
    (hSpares : w.Spares base.marks.length ops) (hStands : base.StandsOn name w.arena) :
    base.StandsOn name (w.run ops).arena := by
  induction ops generalizing w with
  | nil => exact hStands
  | cons op ops ih =>
    rw [run_cons] at hSound ⊢
    have hAdvances := step_advances hw.source op
    have hBefore := hSound.before (run_traffic_grows (step_source hw.source op) ops)
    exact ih (hAdvances.orderly hw hBefore) hSound hSpares.2
      (hAdvances.standsOn hBase (le_lowest hStands.le_depth hSpares.1) hw hBefore hStands)

theorem Spares.take {depth : Nat} {ops : List Op} (h : w.Spares depth ops) (n : Nat) :
    w.Spares depth (ops.take n) := by
  induction ops generalizing w n with
  | nil => rw [List.take_nil]; exact h
  | cons op ops ih =>
    cases n with
    | zero => trivial
    | succ n => exact ⟨h.1, ih h.2 n⟩

theorem run_take_traffic_grows (hs : w.source = src.traced) (ops : List Op) (n : Nat) :
    (w.run (ops.take n)).traffic <+: (w.run ops).traffic := by
  have := run_traffic_grows (run_source hs (ops.take n)) (ops.drop n)
  rwa [← run_append, List.take_append_drop] at this

/-- Popping the mark that stands on an arena cuts back to that arena. -/
theorem step_popMark_eq_cutTo {base : Arena} {name : Nat} (hBase : base.WellFormed)
    (hStands : base.StandsOn name w.arena) :
    w.step (.popMark ⟨base.id, base.marks.length, name⟩) = (.ok .done, w.cutTo base.depth) := by
  have hNotBottom : Handle.isBottom ⟨base.id, base.marks.length, name⟩ = false := by
    have := List.length_pos_iff.mpr hBase.nonempty
    simp only [Handle.isBottom, beq_eq_false_iff_ne]
    omega
  have hPop : w.popMark ⟨base.id, base.marks.length, name⟩ = (.ok (), w.cutTo base.depth) := by
    simp only [popMark, hStands.isLive, hNotBottom, if_true, Bool.false_eq_true, if_false]
    rfl
  simp only [step, hPop, reported, replied]

theorem step_popFrame_eq_cutTo {base : Arena} (hBase : base.WellFormed)
    (hDepth : w.arena.depth = base.marks.length) :
    w.step .popFrame = (.ok .done, w.cutTo base.depth) := by
  have hPos := List.length_pos_iff.mpr hBase.nonempty
  have hPop : w.popFrame = w.cutTo base.depth := by
    unfold popFrame
    rw [if_neg (by omega), hDepth]
    rfl
  simp only [step, hPop]

/-- Where a run pushes a mark, the worlds before and after the push are in order. -/
theorem orderly_push {settings : Settings} {id : Nat} {host : Host (Traced σ)}
    {before pushed : World (Traced σ)} {past ops : List Op} {push : Op} {reply : Reply}
    (hStart : (start src.traced settings id host).1 = .ok w) (hFresh : host.store.traffic = [])
    (hBefore : w.run past = before) (hPushed : before.step push = (.ok reply, pushed))
    (hSound : Traffic.Sound (pushed.run ops).traffic) :
    before.Orderly src ∧ pushed.Orderly src := by
  have hSource : before.source = src.traced := by
    rw [← hBefore]
    exact run_source (exists_start hStart).1 past
  have hAdvances := step_advances hSource push
  rw [hPushed] at hAdvances
  -- The traffic is sound at every moment on the way, so each world on it is in order.
  have hSoundPushed : Traffic.Sound pushed.traffic :=
    hSound.before (run_traffic_grows (hAdvances.source.trans hSource) ops)
  have hOrderly : before.Orderly src := by
    have hSoundBefore := hSoundPushed.before hAdvances.traffic_grows
    rw [← hBefore] at hSoundBefore ⊢
    exact orderly_run hStart hFresh hSoundBefore
  exact ⟨hOrderly, hAdvances.orderly hOrderly hSoundPushed⟩

end World

/-- After a push, as long as no call pops its mark, all that lies below stays as it was; and popping
the mark, by its handle or as the current one, leads back to where it was pushed. -/
theorem pop_restores {σ : Type} (src : BlockSource σ) (settings : Settings) (id : Nat)
    (host : Host (Traced σ)) (w before pushed : World (Traced σ)) (past ops : List Op) (push : Op)
    (reply : Reply) (hStart : (start src.traced settings id host).1 = .ok w)
    (hFresh : host.store.traffic = []) (hBefore : w.run past = before) (hPush : push.Pushes)
    (hPushed : before.step push = (.ok reply, pushed))
    (hSpares : pushed.Spares pushed.arena.depth ops)
    (hSound : Traffic.Sound (pushed.run ops).traffic) :
    (∀ handle, reply = .handle handle → handle = pushed.arena.topHandle) ∧
      (∀ n, before.arena.Keeps (pushed.run (ops.take n)).arena) ∧
      ((pushed.run ops).step (.popMark pushed.arena.topHandle)).1 = .ok .done ∧
      before.arena.Restores ((pushed.run ops).step (.popMark pushed.arena.topHandle)).2.arena ∧
      ((pushed.run ops).arena.topHandle = pushed.arena.topHandle →
        before.arena.Restores ((pushed.run ops).step .popFrame).2.arena) := by
  obtain ⟨hOrderly, hOrderlyPushed⟩ := World.orderly_push hStart hFresh hBefore hPushed hSound
  have hSoundPushed : Traffic.Sound pushed.traffic :=
    hSound.before (World.run_traffic_grows hOrderlyPushed.source ops)
  obtain ⟨⟨hStands, hDepth⟩, hHandle⟩ := hOrderly.standsOn_push hPush hPushed hSoundPushed
  rw [hDepth] at hSpares
  have hTop := hStands.topHandle_eq hDepth
  have hAlong (n : Nat) : before.arena.StandsOn before.arena.nextMarkId
      (pushed.run (ops.take n)).arena :=
    World.run_standsOn (ops.take n) hOrderly.wellFormed hOrderlyPushed
      (hSound.before (World.run_take_traffic_grows hOrderlyPushed.source ops n)) (hSpares.take n)
      hStands
  have hEnd := World.run_standsOn ops hOrderly.wellFormed hOrderlyPushed hSound hSpares hStands
  have hPop := World.step_popMark_eq_cutTo hOrderly.wellFormed hEnd
  have hRestores := hEnd.restores hOrderly.wellFormed
  rw [hTop, hPop]
  refine ⟨hTop ▸ hHandle, fun n => (hAlong n).toKeeps, rfl, hRestores, ?_⟩
  intro hCurrent
  have hCurrentDepth : (pushed.run ops).arena.depth = before.arena.marks.length := by
    rw [← hDepth]
    exact congrArg Handle.depth (hCurrent.trans hTop.symm)
  rw [World.step_popFrame_eq_cutTo hOrderly.wellFormed hCurrentDepth]
  exact hRestores

theorem pop_restores_limited :
    ∃ w before pushed : World (Traced Heap),
      (start Heap.limited.traced ⟨0, false⟩ 1 Host.blank).1 = .ok w ∧ w.run [.alloc 100] = before ∧
        (before.step (.pushFrame 50)).2 = pushed ∧
        before.arena.Restores ((pushed.run [.alloc 9000, .pushMark, .popFrame,
          .expandLast 2000 false]).step (.popMark pushed.arena.topHandle)).2.arena :=
  ⟨_, _, _, rfl, rfl, rfl, (pop_restores Heap.limited ⟨0, false⟩ 1 Host.blank _ _ _ [.alloc 100]
    [.alloc 9000, .pushMark, .popFrame, .expandLast 2000 false] (.pushFrame 50) _ rfl rfl rfl
    trivial rfl (by decide +kernel) (by decide +kernel)).2.2.2.1⟩

end ArenaRegistry.Arena
