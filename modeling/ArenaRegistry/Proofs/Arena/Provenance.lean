import ArenaRegistry.Proofs.Arena.Consistency
import ArenaRegistry.Proofs.Arena.Regranting

/-! Where the last allocation comes from. The calls tell, mark by mark, which bytes were granted last
and whether they got a big block of their own. The arena keeps no such note: it takes its last
allocation for a big block where it starts at the same address as the big block that the current mark
counts last. As long as no two blocks that are out share a byte, it is never wrong about that, and
neither about the size. -/

namespace ArenaRegistry.Arena

/-- An allocation as the calls tell of it. -/
structure Piece where
  span : Span
  /-- It got a big block of its own, at once or when it moved. -/
  big : Bool
deriving DecidableEq, Repr

/-- The last allocation under each mark, the current mark's first. -/
abbrev Pieces := List (Option Piece)

/-- A big block has been put on top of those there were. -/
def gains (before after : Arena) : Bool := decide (before.bigBlocks.length < after.bigBlocks.length)

namespace Pieces

/-- The size of the last allocation after it has grown; without one it is an allocation itself. -/
def grown (increment : Nat) (old? : Option Piece) : Nat :=
  old?.elim 0 (·.span.size) + Size.roundUp increment

/-- The size of the last allocation after it has shrunk, which a big block never does. -/
def shrunk (decrement : Nat) (old? : Option Piece) : Nat :=
  old?.elim 0 fun old =>
    if old.big ∨ old.span.size < Size.roundDown decrement then old.span.size
    else old.span.size - Size.roundDown decrement

def resized (size : Nat) (old? : Option Piece) : Nat :=
  old?.elim 0 fun old =>
    if old.big then max old.span.size (Size.roundUp size) else Size.roundUp size

/-- The current mark has another last allocation. -/
def put (piece : Piece) : Pieces → Pieces
  | [] => []
  | _ :: below => some piece :: below

/-- The last allocation is at `address` and has another size. What has a big block once keeps one. -/
def resize (size : Option Piece → Nat) (address : Nat) (gained : Bool) : Pieces → Pieces
  | [] => []
  | old? :: below => some ⟨⟨address, size old?⟩, old?.any Piece.big || gained⟩ :: below

/-- What a call that succeeds between two arenas makes of the last allocations. -/
def record (before after : Arena) (pieces : Pieces) : Op → Reply → Pieces
  | .alloc size, .address p => pieces.put ⟨⟨p, Size.roundUp size⟩, before.gains after⟩
  | .allocMin _, .span s => pieces.put ⟨s, before.gains after⟩
  | .pushMark, _ => none :: pieces
  | .pushFrame size, .address p => some ⟨⟨p, Size.roundUp size⟩, before.gains after⟩ :: pieces
  | .pushFrameMin _, .span s => some ⟨s, before.gains after⟩ :: pieces
  | .popMark h, _ => if h.isBottom then pieces else pieces.drop (pieces.length - h.depth)
  | .popFrame, _ => if pieces.length ≤ 1 then pieces else pieces.tail
  | .expandLast increment _, .address p => pieces.resize (grown increment) p (before.gains after)
  | .shrinkLast decrement, .address p => pieces.resize (shrunk decrement) p (before.gains after)
  | .resizeLast size _, .address p => pieces.resize (resized size) p (before.gains after)
  | _, _ => pieces

end Pieces

/-- The last allocations after a call; one that fails tells nothing. -/
def World.recorded {σ : Type} (w : World σ) (pieces : Pieces) (op : Op) : Pieces :=
  match w.step op with
  | (.ok reply, w') => pieces.record w.arena w'.arena op reply
  | (.error _, _) => pieces

/-- The last allocations after a run, as its calls tell of them. -/
def World.recount {σ : Type} (w : World σ) (pieces : Pieces) : List Op → Pieces
  | [] => pieces
  | op :: ops => (w.step op).2.recount (w.recorded pieces op) ops

/-! ### Last allocations of an arena -/

/-- The last allocation under a mark is the one that the calls tell of. -/
structure Recalls (a : Arena) (m : Mark) (piece? : Option Piece) : Prop where
  span : piece?.map Piece.span = a.lastSpan? m
  big : ∀ piece ∈ piece?, piece.big = (a.bigAt? m.bigCount).any (·.start == piece.span.start)

variable {a a' : Arena} {m : Mark} {piece? : Option Piece} {e : Edit} {span : Span}
  {last p n : Nat} {big : Bool}

theorem gains_eq_false (h : a'.bigBlocks = a.bigBlocks) : a.gains a' = false := by
  rw [gains, h]
  exact decide_eq_false (Nat.lt_irrefl _)

theorem Recalls.agrees (h : a.Recalls m piece?) (hPos : 0 < m.chunkCount)
    (hAgrees : a.Agrees a' m.chunkCount m.bigCount) : a'.Recalls m piece? := by
  refine ⟨by rw [h.span, hAgrees.lastSpan? hPos], ?_⟩
  rw [hAgrees.bigAt? (Nat.le_refl _)]
  exact h.big

theorem recalls_agrees {ms : List Mark} {pieces : Pieces}
    (h : List.Forall₂ a.Recalls ms pieces) (hStacked : a.Stacked ms)
    (hAgrees : a.Agrees a' (under ms).chunkCount (under ms).bigCount) :
    List.Forall₂ a'.Recalls ms pieces :=
  forall₂_agrees (fun _ _ hPos hSame hPiece => hPiece.agrees hPos hSame) h hStacked hAgrees

/-- At the current mark, the block that decides is the one that the arena looks at. -/
theorem recalls_top (hSpan : a.lastSpan? a.top = some span) (hBig : a.isBig span.start = big) :
    a.Recalls a.top (some ⟨span, big⟩) := by
  refine ⟨hSpan.symm, ?_⟩
  rintro _ ⟨⟩
  exact hBig.symm

theorem recalls_of_none (h : a.lastSpan? m = none) : a.Recalls m none := ⟨h.symm, nofun⟩

/-- What is told of the last allocation of the current mark is its place, its size and its kind. -/
theorem Recalls.of_last (h : a.Recalls a.top piece?) (hLast : a.top.last = some last) :
    piece? = some ⟨⟨last, a.sizeOfLast last⟩, a.isBig last⟩ := by
  have hSpan := h.span
  rw [a.lastSpan?_top hLast] at hSpan
  obtain ⟨⟨span, big⟩, rfl, rfl⟩ := Option.map_eq_some_iff.mp hSpan
  obtain rfl : big = a.isBig last := h.big _ rfl
  rfl

theorem Recalls.none_of_last (h : a.Recalls a.top piece?) (hLast : a.top.last = none) :
    piece? = none := by
  have hSpan := h.span
  rw [lastSpan?, hLast, Option.map_none] at hSpan
  exact Option.map_eq_none_iff.mp hSpan

/-- What has just been carved is a big block just where one has been put on top. -/
theorem Shaped.isBig_of_carves (h : a.Shaped) (hFits : e.Fits a) (hCarves : e.Carves a span)
    (h' : (a.edit e).Shaped) : (a.edit e).isBig span.start = a.gains (a.edit e) := by
  obtain ⟨below, hMarks, -, -⟩ := h.exists_below
  cases e with
  | bump n =>
    obtain rfl : span = ⟨a.nextFree, n⟩ := hCarves
    have hInside : a.top.free < a.chunk.size := by
      have hPos := hFits.1
      have hRoom := hFits.2.1
      unfold remaining at hRoom
      omega
    have hTop : (a.bump n).top = { a.top with free := a.top.free + n, last := some a.nextFree } :=
      top_mapTop hMarks _
    have hSame : (a.bump n).isBig a.nextFree = a.isBig a.nextFree := by
      rw [isBig, topBig?, hTop]
      rfl
    have hGains : a.gains (a.bump n) = false := gains_eq_false rfl
    rw [Arena.edit, hSame, hGains]
    exact h.not_isBig_of_chunk hInside
  | openChunk block n =>
    obtain rfl : span = ⟨block.start, n⟩ := hCarves
    have hMem : block ∈ (a.openChunk block n).chunks := List.mem_concat_self
    have hSizes := fun b hb => (h'.sizes b hb).2
    have hPos := hSizes block (List.mem_append_left _ hMem)
    have hGains : a.gains (a.openChunk block n) = false := gains_eq_false rfl
    rw [Arena.edit, hGains]
    exact not_big_of_disjoint h'.disjoint hSizes hMem hPos _
  | addBig block =>
    obtain rfl : span = block := hCarves
    have hTop : (a.addBig span).top =
        { a.top with bigCount := a.bigBlocks.length + 1, last := some span.start } :=
      top_mapTop (a := { a with bigBlocks := a.bigBlocks ++ [span] }) hMarks _
    have hBig : (a.addBig span).topBig? = some span := by
      rw [topBig?, hTop]
      show (if a.bigBlocks.length + 1 = 0 then none
        else (a.bigBlocks ++ [span])[a.bigBlocks.length + 1 - 1]?) = some span
      simp
    have hMore : a.bigBlocks.length < (a.bigBlocks ++ [span]).length := by simp
    rw [Arena.edit, isBig_iff.mpr ⟨span, hBig, rfl⟩]
    exact (decide_eq_true hMore).symm
  | _ => exact hCarves.elim

theorem Shaped.recalls_of_carves (h : a.Shaped) (hFits : e.Fits a) (hCarves : e.Carves a span)
    (h' : (a.edit e).Shaped) :
    (a.edit e).Recalls (a.edit e).top (some ⟨span, a.gains (a.edit e)⟩) :=
  recalls_top (h.adds hFits hCarves h').last (h.isBig_of_carves hFits hCarves h')

/-- In its chunk the last allocation gets another size and stays where it is. -/
theorem LastAt.recalls {offset : Nat} (h : a.LastAt last offset) (n : Nat) :
    (a.withFree (offset + n)).Recalls (a.withFree (offset + n)).top
      (some ⟨⟨last, n⟩, a.isBig last || a.gains (a.withFree (offset + n))⟩) := by
  have hLast : (a.withFree (offset + n)).top.last = some last := by
    rw [top_withFree h.nonempty]
    exact h.last
  have hSize : (a.withFree (offset + n)).sizeOfLast last = n := by
    have := h.lastSize?_withFree n
    rw [lastSize?_of_last hLast] at this
    exact Option.some.inj this
  refine recalls_top ?_ ?_
  · rw [lastSpan?_top _ hLast, hSize]
  · have hGains : a.gains (a.withFree (offset + n)) = false := gains_eq_false rfl
    rw [isBig_withFree h.nonempty, hGains, Bool.or_false]

theorem Shaped.recalls_replaceBig (h : a.Shaped) (block : Span) (hLast : a.top.last = some last)
    (hBig : a.isBig last = true) :
    (a.replaceBig block).Recalls (a.replaceBig block).top
      (some ⟨block, a.isBig last || a.gains (a.replaceBig block)⟩) := by
  obtain ⟨hTop, hFound⟩ := h.top_replaceBig block hLast hBig
  refine recalls_top (lastSpan?_of_big (by rw [hTop]) hFound) ?_
  rw [hBig, Bool.true_or]
  exact isBig_iff.mpr ⟨block, hFound, rfl⟩

theorem Shaped.recalls_fuse {n : Nat} (h : a.Shaped) (hFits : (Edit.fuse n).Fits a) :
    (a.edit (.fuse n)).Recalls (a.edit (.fuse n)).top
      (some ⟨⟨a.chunk.start + (a.top.free + footprint), n⟩, a.gains (a.edit (.fuse n))⟩) := by
  have hTop : (a.edit (.fuse n)).top = a.newMark a.top.chunkCount (a.top.free + footprint + n)
      (some (a.chunk.start + (a.top.free + footprint))) := top_of_marks (marks_pushMark _ _ _)
  have hInside : a.top.free + footprint < a.chunk.size := by
    have hPos := hFits.1
    have hRoom := hFits.2.1
    unfold remaining at hRoom
    omega
  refine recalls_top (h.shed_fuse hFits).1 ?_
  have hGains : a.gains (a.edit (.fuse n)) = false := gains_eq_false rfl
  rw [isBig, topBig?, hTop, hGains]
  exact h.not_isBig_of_chunk hInside

namespace World

variable {σ : Type} {src : BlockSource σ} {w w' : World (Traced σ)} {pieces : Pieces}

/-! ### The invariant -/

/-- A world in shape whose last allocations are those that the calls tell of. -/
structure Remembers (src : BlockSource σ) (w : World (Traced σ)) (pieces : Pieces) : Prop where
  inShape : w.InShape src
  recalled : List.Forall₂ w.arena.Recalls w.arena.marks.reverse pieces

theorem Remembers.length_eq (h : w.Remembers src pieces) : pieces.length = w.arena.depth + 1 := by
  rw [← h.recalled.length_eq, List.length_reverse, h.inShape.shaped.length_marks]

/-- What is remembered, taken apart at the current mark. -/
theorem Remembers.exists_piece (h : w.Remembers src pieces) :
    ∃ below piece? rest, w.arena.marks = below ++ [w.arena.top] ∧ pieces = piece? :: rest ∧
      w.arena.Sits below.reverse w.arena.top ∧ w.arena.Stacked below.reverse ∧
      w.arena.Recalls w.arena.top piece? ∧ List.Forall₂ w.arena.Recalls below.reverse rest := by
  obtain ⟨below, hMarks, hSits, hStacked⟩ := h.inShape.shaped.exists_below
  have hRecalled := h.recalled
  rw [hMarks, List.reverse_append] at hRecalled
  obtain ⟨piece?, rest, hPiece, hRest, rfl⟩ := List.forall₂_cons_left_iff.mp hRecalled
  exact ⟨below, piece?, rest, hMarks, rfl, hSits, hStacked, hPiece, hRest⟩

/-- Where the last allocation is, its piece comes first. -/
theorem Remembers.exists_rest (h : w.Remembers src pieces) (hLast : w.arena.top.last = some last) :
    ∃ rest, pieces =
      some ⟨⟨last, w.arena.sizeOfLast last⟩, w.arena.isBig last⟩ :: rest := by
  obtain ⟨-, piece?, rest, -, rfl, -, -, hPiece, -⟩ := h.exists_piece
  exact ⟨rest, by rw [hPiece.of_last hLast]⟩

/-- An edit of the current mark leaves what is told of the marks below. -/
theorem Remembers.put {e : Edit} {piece : Piece} (h : w.Remembers src pieces)
    (hEdit : w.Edits e w') (hStays : e.Stays) (hDisjoint : Traffic.Disjoint w'.traffic)
    (hPiece : w'.arena.Recalls w'.arena.top (some piece)) :
    w'.Remembers src (pieces.put piece) := by
  obtain ⟨below, piece?, rest, hMarks, rfl, hSits, hStacked, -, hRest⟩ := h.exists_piece
  have hAgrees := h.inShape.shaped.agrees_edit hSits hEdit.fits
    (by rintro depth rfl; exact hStays.elim)
  have hMarks' := marks_edit_of_stays hMarks hStays
  rw [← hEdit.arena] at hAgrees hMarks'
  refine ⟨hEdit.inShape h.inShape hDisjoint, ?_⟩
  rw [hMarks', List.reverse_append]
  exact .cons hPiece (recalls_agrees hRest hStacked hAgrees)

theorem Remembers.carve {e : Edit} {span : Span} (h : w.Remembers src pieces)
    (hEdit : w.Edits e w') (hCarves : e.Carves w.arena span)
    (hDisjoint : Traffic.Disjoint w'.traffic) :
    w'.Remembers src (pieces.put ⟨span, w.arena.gains w'.arena⟩) := by
  have hAfter := (hEdit.inShape h.inShape hDisjoint).shaped
  refine h.put hEdit (Edit.stays_of_carves hCarves) hDisjoint ?_
  rw [hEdit.arena] at hAfter ⊢
  exact h.inShape.shaped.recalls_of_carves hEdit.fits hCarves hAfter

/-- The last allocation with another size takes the place of the one before. -/
theorem Remembers.regrant (h : w.Remembers src pieces) (hLast : w.arena.top.last = some last)
    (hRegrants : w.Regrants last n p w') (hDisjoint : Traffic.Disjoint w'.traffic) :
    w'.Remembers src
      (pieces.put ⟨⟨p, n⟩, w.arena.isBig last || w.arena.gains w'.arena⟩) := by
  cases hRegrants with
  | same size =>
    obtain ⟨rest, rfl⟩ := h.exists_rest hLast
    rw [gains_eq_false rfl, Bool.or_false, ← size]
    exact h
  | refill edit stays place arena =>
    refine h.put edit stays hDisjoint ?_
    rw [arena]
    exact place.recalls n
  | replace edit isBig size =>
    refine h.put edit trivial hDisjoint ?_
    rw [← size, edit.arena]
    exact h.inShape.shaped.recalls_replaceBig _ hLast isBig
  | move edit carves notBig size =>
    have hPut := h.carve edit carves hDisjoint
    rwa [notBig, Bool.false_or, ← size]

/-- Where there is a last allocation, what a call that resizes it tells is its new size. -/
theorem Remembers.resize (h : w.Remembers src pieces) (hLast : w.arena.top.last = some last)
    (size : Option Piece → Nat)
    (hRegrants : w.Regrants last
      (size (some ⟨⟨last, w.arena.sizeOfLast last⟩, w.arena.isBig last⟩)) p w')
    (hDisjoint : Traffic.Disjoint w'.traffic) :
    w'.Remembers src (pieces.resize size p (w.arena.gains w'.arena)) := by
  have hRegranted := h.regrant hLast hRegrants hDisjoint
  obtain ⟨rest, rfl⟩ := h.exists_rest hLast
  exact hRegranted

theorem Remembers.push {e : Edit} {piece? : Option Piece} (h : w.Remembers src pieces)
    (hEdit : w.Edits e w') (hPushes : e.Pushes) (hDisjoint : Traffic.Disjoint w'.traffic)
    (hPiece : w'.arena.Recalls w'.arena.top piece?) : w'.Remembers src (piece? :: pieces) := by
  have hShaped := h.inShape.shaped
  have hAgrees : w.arena.Agrees w'.arena w.arena.chunks.length w.arena.bigBlocks.length := by
    rw [hEdit.arena]
    exact agrees_of_pushes hPushes
  have hMarks : w'.arena.marks = w.arena.marks ++ [w'.arena.top] := by
    rw [hEdit.arena]
    exact marks_edit_of_pushes hPushes
  have hBelow : List.Forall₂ w'.arena.Recalls w.arena.marks.reverse pieces := by
    refine recalls_agrees h.recalled hShaped.stacked ?_
    rwa [hShaped.under_marks, hShaped.chunks, hShaped.bigs]
  refine ⟨hEdit.inShape h.inShape hDisjoint, ?_⟩
  rw [hMarks, List.reverse_append]
  exact .cons hPiece hBelow

theorem Remembers.enter {e : Edit} (h : w.Remembers src pieces) (hEdit : w.Edits e w')
    (hEnters : e.Enters) (hDisjoint : Traffic.Disjoint w'.traffic) :
    w'.Remembers src (none :: pieces) := by
  refine h.push hEdit (Edit.pushes_of_enters hEnters) hDisjoint (recalls_of_none ?_)
  rw [hEdit.arena]
  exact lastSpan?_of_enters hEnters

/-- A cut leaves what is told of the lowest marks. -/
theorem Remembers.cut {depth : Nat} (h : w.Remembers src pieces)
    (hEdit : w.Edits (.cutTo depth) w') (hDisjoint : Traffic.Disjoint w'.traffic) :
    w'.Remembers src (pieces.drop (pieces.length - (depth + 1))) := by
  have hShaped := h.inShape.shaped
  have hDepth : depth < w.arena.marks.length := by
    have hFits : depth ≤ w.arena.depth := hEdit.fits
    rw [hShaped.length_marks]
    omega
  have hLength : pieces.length = w.arena.marks.length := by
    rw [← h.recalled.length_eq, List.length_reverse]
  have hUnder : under (w.arena.cutTo depth).marks.reverse = w.arena.markAt depth := by
    rw [marks_cutTo_concat hDepth, under_reverse_concat]
  have hRecalled := List.forall₂_drop (w.arena.marks.length - (depth + 1)) h.recalled
  have hStacked := hShaped.stacked.drop (w.arena.marks.length - (depth + 1))
  rw [← reverse_marks_cutTo] at hRecalled hStacked
  refine ⟨hEdit.inShape h.inShape hDisjoint, ?_⟩
  rw [hLength, hEdit.arena]
  exact recalls_agrees hRecalled hStacked (hUnder ▸ agrees_cutTo w.arena depth)

theorem Remembers.fails (h : w.Remembers src pieces) (hFails : w.Fails w')
    (hDisjoint : Traffic.Disjoint w'.traffic) : w'.Remembers src pieces := by
  rcases hFails with rfl | ⟨n, hEdit⟩
  · exact h
  · have hArena : w'.arena = w.arena := hEdit.arena
    exact ⟨hEdit.inShape h.inShape hDisjoint, hArena ▸ h.recalled⟩

/-! ### Calls -/

/-- A call leaves a world whose last allocations are those it tells of; one that fails tells
nothing. -/
def Tells (src : BlockSource σ) (w : World (Traced σ)) (pieces : Pieces) (op : Op) : Prop :=
  Outcome
    (fun reply w' => Traffic.Disjoint w'.traffic →
      w'.Remembers src (pieces.record w.arena w'.arena op reply))
    (fun w' => Traffic.Disjoint w'.traffic → w'.Remembers src pieces) (w.step op)

theorem tells_alloc (h : w.Remembers src pieces) (size : Nat) : w.Tells src pieces (.alloc size) := by
  refine ((carve_outcome h.inShape.source size .exact).mono ?_ ?_).addressOf.policed.replied
  · rintro span w' ⟨e, hServes⟩ hDisjoint
    have hSpan : span = ⟨span.start, Size.roundUp size⟩ := by rw [← hServes.exact rfl]
    rw [Pieces.record, ← hSpan]
    exact h.carve hServes.edits hServes.carves hDisjoint
  · exact fun w' hFails => h.fails hFails

theorem tells_allocMin (h : w.Remembers src pieces) (size : Nat) :
    w.Tells src pieces (.allocMin size) := by
  refine ((carve_outcome h.inShape.source size .rest).mono ?_ ?_).policed.replied
  · rintro span w' ⟨e, hServes⟩ hDisjoint
    exact h.carve hServes.edits hServes.carves hDisjoint
  · exact fun w' hFails => h.fails hFails

theorem tells_pushMark (h : w.Remembers src pieces) : w.Tells src pieces .pushMark := by
  refine ((enterMark_outcome h.inShape.source).mono ?_ ?_).policed.replied
  · rintro handle w' ⟨-, e, hEdit, hEnters⟩ hDisjoint
    exact h.enter hEdit hEnters hDisjoint
  · exact fun w' hFails => h.fails hFails

/-- The big blocks are those from before when only a mark has been pushed. -/
theorem gains_of_enters {e : Edit} (h : e.Enters) (a a' : Arena) :
    (a.edit e).gains a' = a.gains a' := by
  cases e with
  | enter | enterOwn _ => rfl
  | _ => exact h.elim

/-- A frame is told of as its one allocation, however it is made. -/
theorem Remembers.framed {span : Span} (h : w.Remembers src pieces) (hFramed : w.Framed span w')
    (hDisjoint : Traffic.Disjoint w'.traffic) :
    w'.Remembers src (some ⟨span, w.arena.gains w'.arena⟩ :: pieces) := by
  cases hFramed with
  | fused n fuse eq =>
    refine h.push fuse trivial hDisjoint ?_
    rw [eq, fuse.arena]
    exact h.inShape.shaped.recalls_fuse fuse.fits
  | split enter enters carve carves =>
    have hEntered := h.enter enter enters (hDisjoint.before carve.traffic_grows)
    have hCarved := hEntered.carve carve carves hDisjoint
    rwa [enter.arena, gains_of_enters enters] at hCarved

/-- A frame that fails half way tells nothing. -/
theorem Remembers.frameFails (h : w.Remembers src pieces) (hFails : w.FrameFails w')
    (hDisjoint : Traffic.Disjoint w'.traffic) : w'.Remembers src pieces := by
  cases hFails with
  | early fails => exact h.fails fails hDisjoint
  | @late w₁ w₂ _ e enter enters fails cut =>
    have hDisjoint₂ := hDisjoint.before cut.traffic_grows
    have hDisjoint₁ := hDisjoint₂.before (fails.advances 0).traffic_grows
    have hEntered := h.enter enter enters hDisjoint₁
    have hCut := (hEntered.fails fails hDisjoint₂).cut cut hDisjoint
    rw [List.length_cons, h.length_eq, Nat.add_sub_cancel_left] at hCut
    exact hCut

theorem tells_pushFrame (h : w.Remembers src pieces) (size : Nat) :
    w.Tells src pieces (.pushFrame size) := by
  refine ((enterFrame_outcome h.inShape.source size .exact).mono ?_ ?_).addressOf.policed.replied
  · rintro span w' ⟨hFramed, hExact⟩ hDisjoint
    have hSpan : span = ⟨span.start, Size.roundUp size⟩ := by rw [← hExact rfl]
    rw [Pieces.record, ← hSpan]
    exact h.framed hFramed hDisjoint
  · exact fun w' hFails => h.frameFails hFails

theorem tells_pushFrameMin (h : w.Remembers src pieces) (size : Nat) :
    w.Tells src pieces (.pushFrameMin size) := by
  refine ((enterFrame_outcome h.inShape.source size .rest).mono ?_ ?_).policed.replied
  · rintro span w' ⟨hFramed, -⟩ hDisjoint
    exact h.framed hFramed hDisjoint
  · exact fun w' hFails => h.frameFails hFails

theorem tells_popMark (h : w.Remembers src pieces) (handle : Handle) :
    w.Tells src pieces (.popMark handle) := by
  refine Outcome.replied (Outcome.reported ?_)
  unfold popMark
  split
  next hLive =>
    have hDepth := depth_of_isLive hLive
    cases hBottom : handle.isBottom with
    | true =>
      intro _
      simpa [Pieces.record, hBottom] using h
    | false =>
      intro hDisjoint
      have hPos : handle.depth ≠ 0 := by
        simpa [Handle.isBottom] using hBottom
      have hLess : handle.depth - 1 ≤ w.arena.depth := by omega
      have hCut := h.cut (edits_cutTo h.inShape.source hLess) hDisjoint
      rw [Nat.sub_add_cancel (Nat.pos_of_ne_zero hPos)] at hCut
      simpa [Pieces.record, hBottom] using hCut
  next => exact fun _ => h

theorem tells_popFrame (h : w.Remembers src pieces) : w.Tells src pieces .popFrame := by
  intro hDisjoint
  have hLength := h.length_eq
  by_cases hBottom : w.arena.depth = 0
  · rw [popFrame, if_pos hBottom, Pieces.record, if_pos (by omega)]
    exact h
  · rw [popFrame, if_neg hBottom] at hDisjoint ⊢
    have hCut := h.cut (edits_cutTo h.inShape.source (Nat.sub_le _ _)) hDisjoint
    rw [hLength, show w.arena.depth + 1 - (w.arena.depth - 1 + 1) = 1 by omega,
      List.drop_one] at hCut
    rw [Pieces.record, if_neg (by omega)]
    exact hCut

theorem tells_expandLast (h : w.Remembers src pieces) (increment : Nat) (inPlace : Bool) :
    w.Tells src pieces (.expandLast increment inPlace) := by
  refine Outcome.replied (Outcome.reported ?_)
  cases hLast : w.arena.top.last with
  | none =>
    rw [expandLast_of_none hLast]
    refine ((carve_outcome h.inShape.source increment .exact).mono ?_ ?_).addressOf
    · rintro span w' ⟨e, hServes⟩ hDisjoint
      have hCarved := h.carve hServes.edits hServes.carves hDisjoint
      obtain ⟨-, piece?, rest, -, rfl, -, -, hPiece, -⟩ := h.exists_piece
      obtain rfl := hPiece.none_of_last hLast
      have hSpan : span = ⟨span.start, 0 + Size.roundUp increment⟩ := by
        rw [Nat.zero_add, ← hServes.exact rfl]
      rw [hSpan] at hCarved
      exact hCarved
    · exact fun w' hFails => h.fails hFails
  | some last =>
    refine (expandLast_regrants h.inShape hLast increment inPlace).mono ?_ ?_
    · exact fun p w' hRegrants => h.resize hLast (Pieces.grown increment) hRegrants
    · exact fun w' hFails => h.fails hFails

theorem tells_shrinkLast (h : w.Remembers src pieces) (decrement : Nat) :
    w.Tells src pieces (.shrinkLast decrement) := by
  refine Outcome.replied (Outcome.reported ?_)
  cases hLast : w.arena.top.last with
  | none =>
    simp only [shrinkLast, hLast]
    exact fun _ => h
  | some last =>
    refine (shrinkLast_regrants h.inShape hLast decrement).mono ?_ ?_
    · exact fun p w' hRegrants => h.resize hLast (Pieces.shrunk decrement) hRegrants
    · exact fun w' hFails => h.fails hFails

theorem tells_resizeLast (h : w.Remembers src pieces) (size : Nat) (inPlace : Bool) :
    w.Tells src pieces (.resizeLast size inPlace) := by
  refine Outcome.replied (Outcome.reported ?_)
  cases hLast : w.arena.top.last with
  | none =>
    simp only [resizeLast, hLast]
    exact fun _ => h
  | some last =>
    refine (resizeLast_regrants h.inShape hLast size inPlace).mono ?_ ?_
    · exact fun p w' hRegrants => h.resize hLast (Pieces.resized size) hRegrants
    · exact fun w' hFails => h.fails hFails

theorem tells_call (h : w.Remembers src pieces) (op : Op) : w.Tells src pieces op := by
  cases op with
  | alloc size => exact tells_alloc h size
  | allocMin size => exact tells_allocMin h size
  | pushMark => exact tells_pushMark h
  | pushFrame size => exact tells_pushFrame h size
  | pushFrameMin size => exact tells_pushFrameMin h size
  | popMark handle => exact tells_popMark h handle
  | popFrame => exact tells_popFrame h
  | expandLast increment inPlace => exact tells_expandLast h increment inPlace
  | shrinkLast decrement => exact tells_shrinkLast h decrement
  | resizeLast size inPlace => exact tells_resizeLast h size inPlace

/-! ### Runs -/

theorem Remembers.step (h : w.Remembers src pieces) (op : Op)
    (hDisjoint : Traffic.Disjoint (w.step op).2.traffic) :
    (w.step op).2.Remembers src (w.recorded pieces op) := by
  have hTells := tells_call h op
  unfold Tells at hTells
  unfold recorded
  rcases hStep : w.step op with ⟨_ | reply, w'⟩ <;> simp only [hStep] at hTells hDisjoint ⊢ <;>
    exact hTells hDisjoint

theorem Remembers.run {ops : List Op} (h : w.Remembers src pieces)
    (hDisjoint : Traffic.Disjoint (w.run ops).traffic) :
    (w.run ops).Remembers src (w.recount pieces ops) := by
  induction ops generalizing w pieces with
  | nil => exact h
  | cons op ops ih =>
    -- What the source has done by now is the start of what it does in all.
    have hGrows := run_traffic_grows (step_source h.inShape.source op) ops
    exact ih (h.step op (hDisjoint.before hGrows)) hDisjoint

/-- A fresh arena has one mark, and nothing has been allocated under it. -/
theorem remembers_start {settings : Settings} {id : Nat} {host : Host (Traced σ)}
    (hStart : (start src.traced settings id host).1 = .ok w) (hFresh : host.store.traffic = []) :
    w.Remembers src [none] := by
  obtain ⟨-, b, hArena, -⟩ := exists_start hStart
  refine ⟨inShape_start hStart hFresh, ?_⟩
  rw [hArena]
  exact .cons ⟨rfl, nofun⟩ .nil

end World

/-! ### Classification -/

/-- How an arena classifies and measures its last allocation, which is at `last` and of which the
calls tell a piece. -/
structure Classifies (a : Arena) (last : Nat) (piece : Piece) : Prop where
  place : piece.span.start = last
  kind : a.isBig last = true ↔ piece.big = true
  size : a.lastSize? = some piece.span.size
  /-- A big block is on top of the others, and not one of those that the mark below counts. -/
  big : piece.big = true → a.bigBlocks.getLast? = some piece.span ∧
    (a.markBelow a.depth).bigCount < a.bigBlocks.length
  /-- Any other starts inside the current chunk and ends where the free bytes begin. -/
  chunk : piece.big = false → a.chunk.Contains last ∧ piece.span.stop = a.nextFree
  /-- One without bytes is never a big block, wherever big blocks start. -/
  empty : piece.span.size = 0 → piece.big = false ∧ ∀ block ∈ a.bigBlocks, block.start ≠ last

/-- The mark below the current one is the one it sits on. -/
theorem under_below {below : List Mark} (h : a.marks = below ++ [a.top]) :
    under below.reverse = a.markBelow a.depth := by
  have hDepth : a.depth = below.length := by
    unfold depth
    rw [h, List.length_append]
    exact Nat.add_sub_cancel _ _
  have hBelow : a.marks.take a.depth = below := by
    rw [hDepth]
    conv => lhs; rw [h]
    exact List.take_left
  rw [← hBelow]
  exact a.under_take (Nat.sub_le _ _)

theorem Shaped.classifies (h : a.Shaped) (hLast : a.top.last = some last) :
    a.Classifies last ⟨⟨last, a.sizeOfLast last⟩, a.isBig last⟩ where
  place := rfl
  kind := Iff.rfl
  size := lastSize?_of_last hLast
  big hBig := by
    obtain ⟨below, hMarks, hSits, -⟩ := h.exists_below
    have hOwn := (hSits.own_of_isBig hLast hBig).1
    rw [under_below hMarks, h.bigs] at hOwn
    refine ⟨?_, hOwn⟩
    rw [List.getLast?_eq_getElem?, ← h.bigs]
    exact (bigAt?_eq_some (h.topBig?_of_isBig hLast hBig)).2
  chunk hNotBig := by
    obtain ⟨offset, hAt⟩ := h.exists_lastAt hLast hNotBig
    have hSize := hAt.size
    have hStart := hAt.eq
    have hInside := hAt.lt
    have hEnd := hAt.le
    refine ⟨?_, ?_⟩
    · unfold Span.Contains Span.stop
      omega
    · show last + a.sizeOfLast last = a.chunk.start + a.top.free
      omega
  empty hNone := by
    have hNone : a.sizeOfLast last = 0 := hNone
    have hNotBig : a.isBig last = false := by
      rw [Bool.eq_false_iff]
      intro hBig
      have hMem := bigAt?_mem (h.topBig?_of_isBig hLast hBig)
      have hPos := (h.sizes _ (List.mem_append_right _ hMem)).2
      rw [hNone] at hPos
      exact Nat.lt_irrefl _ hPos
    refine ⟨hNotBig, fun block hBlock => ?_⟩
    obtain ⟨offset, hAt⟩ := h.exists_lastAt hLast hNotBig
    rw [hAt.eq]
    exact start_ne_of_disjoint h.disjoint (fun b hb => (h.sizes b hb).2) h.chunk_mem hBlock hAt.lt

/-- However a source grants and refuses, and wherever its blocks start as long as those that are out
share no byte: after any run of calls, an arena takes the last allocation of its current mark for a
big block just where the calls gave it one, and has it at the place and of the size that they gave it
last. As a big block it is on top of the stack and above what the mark below counts; otherwise it
starts inside the current chunk, ends at the first free byte, and is no big block even where it has no
bytes left. -/
theorem run_classifies {σ : Type} (src : BlockSource σ) (settings : Settings) (id : Nat)
    (host : Host (Traced σ)) (w : World (Traced σ)) (ops : List Op) (last : Nat)
    (hStart : (start src.traced settings id host).1 = .ok w) (hFresh : host.store.traffic = [])
    (hDisjoint : Traffic.Disjoint (w.run ops).traffic)
    (hLast : (w.run ops).arena.top.last = some last) :
    ∃ piece, (w.recount [none] ops).head? = some (some piece) ∧
      (w.run ops).arena.Classifies last piece := by
  have hRemembers := (World.remembers_start hStart hFresh).run hDisjoint
  obtain ⟨rest, hPieces⟩ := hRemembers.exists_rest hLast
  refine ⟨_, by rw [hPieces]; rfl, hRemembers.inShape.shaped.classifies hLast⟩

/-- A source that grants block behind block from some address on, with no gap between them. -/
def seamless : BlockSource Nat where
  request size next := (some ⟨next, fun _ => 0⟩, next + size)
  release _ next := next

/-- A big block starts where the chunk ends that the last allocation has shrunk to nothing in. -/
theorem run_classifies_seamless :
    let host : Host (Traced Nat) := ⟨⟨0x10001, []⟩, fun _ => 0, []⟩
    let ops : List Op := [.alloc 9000, .pushMark, .alloc 7880, .alloc 8, .shrinkLast 8]
    ∃ w : World (Traced Nat), (start seamless.traced ⟨0, false⟩ 1 host).1 = .ok w ∧
      (w.run ops).arena.bigBlocks = [⟨0x11f41, 9000⟩] ∧
      (w.run ops).arena.chunk.stop = 0x11f41 ∧
      (w.recount [none] ops).head? = some (some ⟨⟨0x11f39, 0⟩, false⟩) ∧
      (w.run ops).arena.Classifies 0x11f39 ⟨⟨0x11f39, 0⟩, false⟩ := by
  intro host ops
  obtain ⟨piece, hPiece, hClassifies⟩ := run_classifies seamless ⟨0, false⟩ 1 host _ ops 0x11f39
    rfl rfl (by decide +kernel) (by decide +kernel)
  obtain rfl : piece = ⟨⟨0x11f39, 0⟩, false⟩ :=
    Option.some.inj (Option.some.inj (hPiece.symm.trans (by decide +kernel)))
  exact ⟨_, rfl, by decide +kernel, by decide +kernel, hPiece, hClassifies⟩

end ArenaRegistry.Arena
