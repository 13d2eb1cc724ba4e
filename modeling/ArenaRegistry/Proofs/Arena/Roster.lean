import ArenaRegistry.Proofs.Arena.Calls

/-! The marks of an arena as its handles name them. A handle says which arena its mark belongs to, at
what depth it stands and what its number is. Of all calls, only those on the mark stack change what
is named so; a frame that fails leaves the names alone, though it may use up a number. -/

namespace ArenaRegistry.Arena

/-- What handles tell of an arena: its number, the numbers of its marks, bottom first, and the number
that the next mark gets. -/
structure Roster where
  owner : Nat
  ids : List Nat
  next : Nat
deriving DecidableEq

namespace Roster

variable (r : Roster)

/-- The handles of the marks, bottom first. -/
def handles : List Handle := r.ids.zipIdx.map fun (id, depth) => ⟨r.owner, depth, id⟩

/-- The handle that the next mark gets. -/
def newest : Handle := ⟨r.owner, r.ids.length, r.next⟩

def push : Roster := { r with ids := r.ids ++ [r.next], next := r.next + 1 }

/-- The marks above a depth are gone. -/
def cut (depth : Nat) : Roster := { r with ids := r.ids.take (depth + 1) }

/-- A number is used up. -/
def skip : Roster := { r with next := r.next + 1 }

variable {r} {h h' : Handle} {depth : Nat}

theorem getElem?_handles (r : Roster) (depth : Nat) :
    r.handles[depth]? = r.ids[depth]?.map fun id => ⟨r.owner, depth, id⟩ := by
  simp [handles, List.getElem?_zipIdx, Function.comp_def]

theorem length_handles (r : Roster) : r.handles.length = r.ids.length := by simp [handles]

theorem handles_push (r : Roster) :
    r.push.handles = r.handles ++ [r.newest] := by
  simp [handles, push, newest, List.zipIdx_append]

theorem handles_cut (r : Roster) (depth : Nat) :
    (r.cut depth).handles = r.handles.take (depth + 1) := by
  apply List.ext_getElem?
  intro i
  simp only [getElem?_handles, cut, List.getElem?_take]
  split <;> rfl

theorem push_cut (h : r.ids ≠ []) : r.push.cut (r.ids.length - 1) = r.skip := by
  have hPos : 0 < r.ids.length := List.length_pos_iff.mpr h
  simp only [push, cut, skip, Nat.sub_add_cancel hPos, List.take_left]

/-- A handle stands at the depth that it names. -/
theorem depth_of_getElem? (h : r.handles[depth]? = some h') : h'.depth = depth := by
  rw [getElem?_handles, Option.map_eq_some_iff] at h
  obtain ⟨id, -, rfl⟩ := h
  rfl

theorem owner_of_mem (hMem : h ∈ r.handles) : h.owner = r.owner := by
  obtain ⟨⟨id, depth⟩, -, rfl⟩ := List.mem_map.mp hMem
  rfl

theorem getElem?_of_mem (hMem : h ∈ r.handles) : r.handles[h.depth]? = some h := by
  obtain ⟨depth, hAt⟩ := List.mem_iff_getElem?.mp hMem
  rw [depth_of_getElem? hAt]
  exact hAt

end Roster

def roster (a : Arena) : Roster := ⟨a.id, a.marks.map Mark.id, a.nextMarkId⟩

variable {a : Arena} {h : Handle} {depth : Nat}

/-! ### Handles -/

theorem length_roster_ids (a : Arena) : a.roster.ids.length = a.marks.length := by simp [roster]

theorem roster_ids_ne_nil : a.roster.ids ≠ [] ↔ a.marks ≠ [] := by simp [roster]

theorem handles_handleAt (h : depth < a.marks.length) :
    a.roster.handles[depth]? = some (a.handleAt depth) := by
  simp [Roster.getElem?_handles, roster, handleAt, markAt, h]

theorem handles_topHandle (h : a.marks ≠ []) :
    a.roster.handles[a.roster.ids.length - 1]? = some a.topHandle := by
  have hPos := List.length_pos_iff.mpr h
  rw [length_roster_ids]
  exact handles_handleAt (by omega)

/-- The handle of a mark that was just pushed. -/
theorem topHandle_of_push {r : Roster} (h : a.roster = r.push) : a.topHandle = r.newest := by
  have hMarks : a.marks ≠ [] := by
    rw [← roster_ids_ne_nil, h]
    simp [Roster.push]
  have hTop := handles_topHandle hMarks
  rw [h, Roster.handles_push, ← Roster.length_handles, Roster.handles_push, List.length_append,
    List.length_singleton, Nat.add_sub_cancel, List.getElem?_concat_length] at hTop
  exact (Option.some.inj hTop).symm

theorem isLive_iff_mem_handles (a : Arena) (h : Handle) :
    a.isLive h = true ↔ h ∈ a.roster.handles := by
  constructor
  · intro hLive
    simp only [isLive, Bool.and_eq_true, beq_iff_eq, Option.any_eq_true] at hLive
    obtain ⟨hOwner, m, hMark, hId⟩ := hLive
    obtain ⟨owner, depth, id⟩ := h
    simp only at hOwner hMark hId
    apply List.mem_of_getElem? (i := depth)
    simp [Roster.getElem?_handles, roster, hMark, hOwner, hId]
  · intro hMem
    have hAt := Roster.getElem?_of_mem hMem
    rw [Roster.getElem?_handles, Option.map_eq_some_iff] at hAt
    obtain ⟨id, hId, hEq⟩ := hAt
    obtain ⟨owner, depth, id'⟩ := h
    cases hEq
    simp only [roster, List.getElem?_map, Option.map_eq_some_iff] at hId
    obtain ⟨m, hMark, rfl⟩ := hId
    simp [isLive, roster, hMark]

/-! ### Changes of an arena -/

theorem roster_mapTop {f : Mark → Mark} (hf : ∀ m, (f m).id = m.id) (a : Arena) :
    (a.mapTop f).roster = a.roster := by
  simp only [roster, a.map_marks_mapTop hf]
  rfl

@[simp] theorem roster_bump (a : Arena) (n : Nat) : (a.bump n).roster = a.roster := by
  unfold bump
  apply roster_mapTop
  exact fun _ => rfl

@[simp] theorem roster_extend (a : Arena) (n : Nat) : (a.extend n).roster = a.roster := by
  unfold extend
  apply roster_mapTop
  exact fun _ => rfl

@[simp] theorem roster_retract (a : Arena) (n : Nat) : (a.retract n).roster = a.roster := by
  unfold retract
  apply roster_mapTop
  exact fun _ => rfl

@[simp] theorem roster_openChunk (a : Arena) (block : Span) (n : Nat) :
    (a.openChunk block n).roster = a.roster := by
  unfold openChunk
  apply roster_mapTop
  exact fun _ => rfl

@[simp] theorem roster_addBig (a : Arena) (block : Span) : (a.addBig block).roster = a.roster := by
  unfold addBig
  apply roster_mapTop
  exact fun _ => rfl

@[simp] theorem roster_replaceBig (a : Arena) (block : Span) :
    (a.replaceBig block).roster = a.roster := by
  unfold replaceBig
  apply roster_mapTop
  exact fun _ => rfl

@[simp] theorem roster_addChunk (a : Arena) (block : Span) :
    (a.addChunk block).roster = a.roster := rfl

@[simp] theorem roster_pushMark (a : Arena) (chunkCount free : Nat) (last : Option Nat) :
    (a.pushMark chunkCount free last).roster = a.roster.push := by
  simp [roster, pushMark, Roster.push]

@[simp] theorem roster_cutTo (a : Arena) (depth : Nat) :
    (a.cutTo depth).roster = a.roster.cut depth := by
  simp [roster, cutTo, Roster.cut, List.map_take]

/-! ### Calls that do not touch the mark stack -/

namespace World

variable {σ : Type} (w : World σ)

theorem acquire_arena (n : Nat) : (w.acquire n).2.arena = w.arena := by
  unfold World.acquire
  split <;> rfl

theorem allocInChunk_roster (bytes n : Nat) :
    (w.allocInChunk bytes n).2.arena.roster = w.arena.roster := by
  have hArena := w.acquire_arena bytes
  unfold allocInChunk
  rcases hr : w.acquire bytes with ⟨_ | block, w'⟩ <;> rw [hr] at hArena
  · exact congrArg roster hArena
  · exact (roster_openChunk _ _ _).trans (congrArg roster hArena)

theorem allocBig_roster (n : Nat) : (w.allocBig n).2.arena.roster = w.arena.roster := by
  have hArena := w.acquire_arena n
  unfold allocBig
  rcases hr : w.acquire n with ⟨_ | block, w'⟩ <;> rw [hr] at hArena
  · exact congrArg roster hArena
  · exact (roster_addBig _ _).trans (congrArg roster hArena)

theorem carve_roster (size : Nat) (claim : Claim) :
    (w.carve size claim).2.arena.roster = w.arena.roster := by
  unfold carve
  split
  · rfl
  · simp only
    cases w.arena.route (Size.roundUp size) with
    | bump => exact roster_bump w.arena _
    | chunk bytes => exact w.allocInChunk_roster bytes _
    | big => exact w.allocBig_roster _

theorem moveBig_roster (last used n : Nat) :
    (w.moveBig last used n).2.arena.roster = w.arena.roster := by
  have hArena := w.acquire_arena n
  unfold moveBig
  rcases hr : w.acquire n with ⟨_ | block, w'⟩ <;> rw [hr] at hArena
  · exact congrArg roster hArena
  · exact (roster_replaceBig _ _).trans (congrArg roster hArena)

theorem moveFromChunk_roster (last used n : Nat) :
    (w.moveFromChunk last used n).2.arena.roster = w.arena.roster := by
  have hCarve := w.carve_roster n .exact
  unfold moveFromChunk
  rcases hr : w.carve n .exact with ⟨_ | span, w'⟩ <;> rw [hr] at hCarve
  · exact hCarve
  · exact hCarve

theorem moveLast_roster (last increment grown : Nat) :
    (w.moveLast last increment grown).2.arena.roster = w.arena.roster := by
  unfold moveLast
  simp only
  split
  · rfl
  · split
    · exact w.moveBig_roster _ _ _
    · exact w.moveFromChunk_roster _ _ _

theorem expandLast_roster (increment : Nat) (inPlace : Bool) :
    (w.expandLast increment inPlace).2.arena.roster = w.arena.roster := by
  unfold expandLast
  split
  · rw [addressOf_snd]
    exact w.carve_roster increment .exact
  · split
    · rfl
    · simp only
      split
      · exact roster_extend w.arena _
      · split
        · rfl
        · exact w.moveLast_roster _ _ _

theorem shrinkLast_roster (decrement : Nat) :
    (w.shrinkLast decrement).2.arena.roster = w.arena.roster := by
  unfold shrinkLast
  split
  · rfl
  · simp only
    split
    · rfl
    · exact roster_retract w.arena _

theorem resizeLast_roster (size : Nat) (inPlace : Bool) :
    (w.resizeLast size inPlace).2.arena.roster = w.arena.roster := by
  unfold resizeLast
  split
  · rfl
  · split
    · rfl
    · simp only
      split
      · exact roster_retract w.arena _
      · split
        · exact w.shrinkLast_roster _
        · exact w.expandLast_roster _ _

/-! ### Marks and frames -/

variable {w}

theorem enterMark_roster (w : World σ) :
    Outcome (fun handle w' => w'.arena.roster = w.arena.roster.push ∧ handle = w'.arena.topHandle)
      (fun w' => w'.arena.roster = w.arena.roster) w.enterMark := by
  unfold enterMark
  split
  · exact ⟨roster_pushMark _ _ _ _, rfl⟩
  · have hArena := w.acquire_arena w.arena.chunkSize
    rcases hr : w.acquire w.arena.chunkSize with ⟨_ | block, w'⟩ <;> rw [hr] at hArena
    · exact congrArg roster hArena
    · have hChunk : (w'.arena.addChunk block).roster = w.arena.roster :=
        (roster_addChunk _ _).trans (congrArg roster hArena)
      exact ⟨(roster_pushMark _ _ _ _).trans (congrArg Roster.push hChunk), rfl⟩

/-- A frame that fails after its mark was pushed uses up the number of the mark. -/
theorem enterFrame_roster (hMarks : w.arena.marks ≠ []) (size : Nat) (claim : Claim) :
    Outcome (fun _ w' => w'.arena.roster = w.arena.roster.push)
      (fun w' => w'.arena.roster = w.arena.roster ∨ w'.arena.roster = w.arena.roster.skip)
      (w.enterFrame size claim) := by
  unfold enterFrame
  split
  · exact .inl rfl
  split
  · exact roster_pushMark _ _ _ _
  have hEnter := w.enterMark_roster
  rcases hr : w.enterMark with ⟨_ | handle, w₁⟩ <;> rw [hr] at hEnter
  · exact .inl hEnter
  obtain ⟨hPush, hHandle⟩ := hEnter
  have hCarve := w₁.carve_roster size claim
  rcases hr' : w₁.carve size claim with ⟨_ | span, w₂⟩ <;> simp only [hr'] at hCarve ⊢
  · -- The new mark is cut away again, so that its number alone is gone.
    have hLength : w₁.arena.marks.length = w.arena.marks.length + 1 := by
      rw [← length_roster_ids, hPush, ← length_roster_ids]
      simp [Roster.push]
    have hDepth : handle.depth - 1 = w.arena.roster.ids.length - 1 := by
      rw [hHandle, length_roster_ids]
      show w₁.arena.marks.length - 1 - 1 = _
      omega
    refine .inr ((roster_cutTo _ _).trans ?_)
    rw [hCarve, hPush, hDepth, Roster.push_cut (roster_ids_ne_nil.mpr hMarks)]
  · exact hCarve.trans hPush

theorem popMark_of_mem {h : Handle} (hMem : h ∈ w.arena.roster.handles) :
    w.popMark h = (.ok (), if h.isBottom then w else w.cutTo (h.depth - 1)) := by
  rw [popMark, if_pos ((isLive_iff_mem_handles _ _).mpr hMem)]
  split <;> rfl

theorem popMark_of_not_mem {h : Handle} (hMem : h ∉ w.arena.roster.handles) :
    w.popMark h = (.error (.invalidMark h.id), w) := by
  rw [popMark, if_neg (mt (isLive_iff_mem_handles _ _).mp hMem)]

end World

/-! ### Any call -/

/-- What handles tell after a call that succeeds and does not pop a mark by its handle. -/
def Roster.after (r : Roster) : Op → Roster
  | .pushMark | .pushFrame _ | .pushFrameMin _ => r.push
  | .popFrame => r.cut (r.ids.length - 2)
  | _ => r

namespace World

variable {σ : Type} {w : World σ}

theorem popFrame_roster (hMarks : w.arena.marks ≠ []) :
    w.popFrame.arena.roster = w.arena.roster.cut (w.arena.roster.ids.length - 2) := by
  have hPos : 0 < w.arena.roster.ids.length :=
    List.length_pos_iff.mpr (roster_ids_ne_nil.mpr hMarks)
  have hDepth : w.arena.depth = w.arena.roster.ids.length - 1 := by
    rw [length_roster_ids]
    rfl
  unfold popFrame
  split
  next hBottom =>
    have hOne : w.arena.roster.ids.length = 1 := by omega
    simp [Roster.cut, hOne, List.take_of_length_le]
  next =>
    rw [hDepth, Nat.sub_sub]
    exact roster_cutTo w.arena _

/-- A call pushes a mark, pops one, or leaves the marks as they are; a failure may use up a number. -/
theorem step_roster (hMarks : w.arena.marks ≠ []) {op : Op} (hOp : ∀ h, op ≠ .popMark h) :
    Outcome (fun _ w' => w'.arena.roster = w.arena.roster.after op)
      (fun w' => w'.arena.roster = w.arena.roster ∨ w'.arena.roster = w.arena.roster.skip)
      (w.step op) := by
  have hSame {α ε : Type} {r : Except ε α × World σ}
      (h : r.2.arena.roster = w.arena.roster) :
      Outcome (fun _ w' => w'.arena.roster = w.arena.roster)
        (fun w' => w'.arena.roster = w.arena.roster ∨ w'.arena.roster = w.arena.roster.skip) r := by
    rcases r with ⟨_ | answer, w'⟩
    · exact .inl h
    · exact h
  cases op with
  | alloc size => exact (hSame (w.carve_roster size .exact)).addressOf.policed.replied
  | allocMin size => exact (hSame (w.carve_roster size .rest)).policed.replied
  | pushMark =>
    exact (w.enterMark_roster.mono (fun _ _ h => h.1) fun _ h => .inl h).policed.replied
  | pushFrame size => exact (enterFrame_roster hMarks size .exact).addressOf.policed.replied
  | pushFrameMin size => exact (enterFrame_roster hMarks size .rest).policed.replied
  | popMark h => exact absurd rfl (hOp h)
  | popFrame => exact popFrame_roster hMarks
  | expandLast increment inPlace =>
    exact (hSame (w.expandLast_roster increment inPlace)).reported.replied
  | shrinkLast decrement => exact (hSame (w.shrinkLast_roster decrement)).reported.replied
  | resizeLast size inPlace => exact (hSame (w.resizeLast_roster size inPlace)).reported.replied

/-- The handle that a pushed mark is answered with is the newest. -/
theorem step_pushMark_handle (w : World σ) :
    Outcome (fun reply w' => reply = .handle w'.arena.topHandle) (fun _ => True)
      (w.step .pushMark) := by
  have hHandle := w.enterMark_roster.mono (fun _ _ h => h.2) fun _ _ => trivial
  exact (hHandle.mono (fun _ _ h => congrArg Reply.handle h) fun _ h => h).policed.replied

end World

end ArenaRegistry.Arena
