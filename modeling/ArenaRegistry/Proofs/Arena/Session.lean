import ArenaRegistry.Proofs.Arena.Tracking

/-! Sessions keep the books right. Each call is booked as what it did, and a write reaches only the
allocation that it goes to. So the live allocations of every session are apart, and each holds what
was last written there. -/

namespace ArenaRegistry.Arena

/-! ### Calls -/

namespace World

variable {σ : Type} {src : BlockSource σ} {w w' : World (Traced σ)} {ledger : Ledger}

/-- A call leaves a world whose books are right again: it is booked if it succeeds, and the books
are as they were if it fails. -/
def Books (src : BlockSource σ) (w : World (Traced σ)) (ledger : Ledger) (op : Op) : Prop :=
  Outcome (fun reply w' => Traffic.Sound w'.traffic → w'.Booked src (w.book w' ledger op reply))
    (fun w' => Traffic.Sound w'.traffic → w'.Booked src ledger) (w.step op)

theorem booked_alloc (h : w.Booked src ledger) (size : Nat) :
    w.Books src ledger (.alloc size) := by
  refine ((carve_outcome h.orderly.source size .exact).mono ?_ ?_).addressOf.policed.replied
  · rintro span w' ⟨e, hServes⟩ hSound
    have hSpan : span = ⟨span.start, Size.roundUp size⟩ := by rw [← hServes.exact rfl]
    rw [book, ← hSpan]
    exact h.add hServes.edits hServes.carves hSound
  · exact fun w' hFails => h.fails hFails

theorem booked_allocMin (h : w.Booked src ledger) (size : Nat) :
    w.Books src ledger (.allocMin size) := by
  refine ((carve_outcome h.orderly.source size .rest).mono ?_ ?_).policed.replied
  · rintro span w' ⟨e, hServes⟩ hSound
    exact h.add hServes.edits hServes.carves hSound
  · exact fun w' hFails => h.fails hFails

theorem booked_pushMark (h : w.Booked src ledger) :
    w.Books src ledger .pushMark := by
  refine ((enterMark_outcome h.orderly.source).mono ?_ ?_).policed.replied
  · rintro handle w' ⟨-, e, hEdit, hEnters⟩ hSound
    have hPushed := h.push hEdit (Edit.pushes_of_enters hEnters) hSound
    have hLast : w'.arena.lastSpan? w'.arena.top = none := by
      rw [hEdit.arena]
      exact lastSpan?_of_enters hEnters
    rwa [hLast] at hPushed
  · exact fun w' hFails => h.fails hFails

theorem booked_pushFrame (h : w.Booked src ledger) (size : Nat) :
    w.Books src ledger (.pushFrame size) := by
  refine ((enterFrame_outcome h.orderly.source size .exact).mono ?_ ?_).addressOf.policed.replied
  · rintro span w' ⟨hFramed, hExact⟩ hSound
    have hSpan : span = ⟨span.start, Size.roundUp size⟩ := by rw [← hExact rfl]
    rw [book, ← hSpan]
    exact h.framed hFramed hSound
  · exact fun w' hFails => h.frameFails hFails

theorem booked_pushFrameMin (h : w.Booked src ledger) (size : Nat) :
    w.Books src ledger (.pushFrameMin size) := by
  refine ((enterFrame_outcome h.orderly.source size .rest).mono ?_ ?_).policed.replied
  · rintro span w' ⟨hFramed, -⟩ hSound
    exact h.framed hFramed hSound
  · exact fun w' hFails => h.frameFails hFails

theorem booked_popMark (h : w.Booked src ledger) (handle : Handle) :
    w.Books src ledger (.popMark handle) := by
  refine Outcome.replied (Outcome.reported ?_)
  unfold popMark
  split
  next hLive =>
    have hDepth := depth_of_isLive hLive
    cases hBottom : handle.isBottom with
    | true =>
      intro _
      simpa [book, hBottom] using h
    | false =>
      intro hSound
      have hPos : handle.depth ≠ 0 := by
        simpa [Handle.isBottom] using hBottom
      have hLess : handle.depth - 1 ≤ w.arena.depth := by omega
      have hCut := h.cut (edits_cutTo h.orderly.source hLess) hSound
      rw [Nat.sub_add_cancel (Nat.pos_of_ne_zero hPos)] at hCut
      simpa [book, hBottom] using hCut
  next => exact fun _ => h

theorem booked_popFrame (h : w.Booked src ledger) : w.Books src ledger .popFrame := by
  intro hSound
  have hLength := h.length_eq
  by_cases hBottom : w.arena.depth = 0
  · rw [popFrame, if_pos hBottom, book, if_pos (by omega)]
    exact h
  · rw [popFrame, if_neg hBottom] at hSound ⊢
    have hCut := h.cut (edits_cutTo h.orderly.source (Nat.sub_le _ _)) hSound
    rw [Ledger.keep, hLength, show w.arena.depth + 1 - (w.arena.depth - 1 + 1) = 1 by omega,
      List.drop_one] at hCut
    rw [book, if_neg (by omega)]
    exact hCut

/-- Where there is no last allocation, what is carved is booked as the resized one. -/
theorem Booked.resize_none {e : Edit} {span : Span} (h : w.Booked src ledger)
    (hLast : w.arena.top.last = none) (hEdit : w.Edits e w') (hCarves : e.Carves w.arena span)
    (hSound : Traffic.Sound w'.traffic) :
    w'.Booked src (ledger.resize w'.memory ⟨span.start, w'.arena.lastSize?.getD 0⟩) := by
  have hAdded := h.add hEdit hCarves hSound
  have hAdds := hEdit.adds h.orderly hSound hCarves
  rw [lastSize?_of_lastSpan? hAdds.last, Option.getD_some]
  obtain ⟨below, ⟨mark, live⟩, rest, -, rfl, -, -, hLevel, -⟩ := h.exists_level
  have hNewest := hLevel.last
  rw [lastSpan?, hLast, Option.map_none] at hNewest
  cases live with
  | nil => exact hAdded
  | cons r older => cases hNewest

theorem booked_expandLast (h : w.Booked src ledger) (increment : Nat) (inPlace : Bool) :
    w.Books src ledger (.expandLast increment inPlace) := by
  cases hLast : w.arena.top.last with
  | none =>
    have hCarve := carve_outcome h.orderly.source increment .exact
    refine Outcome.replied (Outcome.reported ?_)
    rw [expandLast_of_none hLast]
    refine (hCarve.mono ?_ ?_).addressOf
    · rintro span w' ⟨e, hServes⟩ hSound
      exact h.resize_none hLast hServes.edits hServes.carves hSound
    · exact fun w' hFails => h.fails hFails
  | some last =>
    have hOutcome := expandLast_outcome h.orderly.source hLast increment inPlace
    refine (hOutcome.mono ?_ ?_).reported.replied
    · exact fun p w' hResized hSound => h.resize hLast hResized hSound
    · exact fun w' hFails => h.fails hFails

theorem booked_shrinkLast (h : w.Booked src ledger) (decrement : Nat) :
    w.Books src ledger (.shrinkLast decrement) := by
  cases hLast : w.arena.top.last with
  | none =>
    refine Outcome.replied (Outcome.reported ?_)
    simp only [shrinkLast, hLast]
    exact fun _ => h
  | some last =>
    refine ((shrinkLast_outcome hLast decrement).mono ?_ ?_).reported.replied
    · exact fun p w' hResized hSound => h.resize hLast hResized hSound
    · exact fun w' hFails => h.fails hFails

theorem booked_resizeLast (h : w.Booked src ledger) (size : Nat) (inPlace : Bool) :
    w.Books src ledger (.resizeLast size inPlace) := by
  cases hLast : w.arena.top.last with
  | none =>
    refine Outcome.replied (Outcome.reported ?_)
    simp only [resizeLast, hLast]
    exact fun _ => h
  | some last =>
    refine ((resizeLast_outcome h.orderly.source hLast size inPlace).mono ?_ ?_).reported.replied
    · exact fun p w' hResized hSound => h.resize hLast hResized hSound
    · exact fun w' hFails => h.fails hFails

theorem booked_call (h : w.Booked src ledger) (op : Op) : w.Books src ledger op := by
  cases op with
  | alloc size => exact booked_alloc h size
  | allocMin size => exact booked_allocMin h size
  | pushMark => exact booked_pushMark h
  | pushFrame size => exact booked_pushFrame h size
  | pushFrameMin size => exact booked_pushFrameMin h size
  | popMark handle => exact booked_popMark h handle
  | popFrame => exact booked_popFrame h
  | expandLast increment inPlace => exact booked_expandLast h increment inPlace
  | shrinkLast decrement => exact booked_shrinkLast h decrement
  | resizeLast size inPlace => exact booked_resizeLast h size inPlace

end World

/-! ### Writes -/

section Change

variable {ledger : Ledger} {level index : Nat} {f : Allocation → Allocation}

theorem forall₂_modify {α β : Type} {R : α → β → Prop} {f : β → β} (h : ∀ x y, R x y → R x (f y))
    {xs : List α} {ys : List β} (hAll : List.Forall₂ R xs ys) (i : Nat) :
    List.Forall₂ R xs (ys.modify i f) := by
  induction hAll generalizing i with
  | nil => cases i <;> exact .nil
  | cons hHead hTail ih =>
    cases i with
    | zero => exact .cons (h _ _ hHead) hTail
    | succ i => exact .cons hHead (ih i)

theorem ranges_change (hf : ∀ r, (f r).span = r.span) (l : Level) (index : Nat) :
    Level.ranges { l with live := l.live.modify index f } = l.ranges :=
  map_modify_of_eq hf l.live index

theorem spans_change (hf : ∀ r, (f r).span = r.span) :
    (ledger.change level index f).flatMap Level.spans = ledger.flatMap Level.spans := by
  rw [List.flatMap_def, List.flatMap_def, Ledger.change, map_modify_of_eq]
  intro l
  rw [Level.spans, Level.spans, ranges_change hf]

theorem tracks_change {a : Arena} {ms : List Mark} (hf : ∀ r, (f r).span = r.span)
    (h : List.Forall₂ a.Tracks ms ledger) :
    List.Forall₂ a.Tracks ms (ledger.change level index f) := by
  refine forall₂_modify (fun m l hTracks => ?_) h level
  have hRanges := ranges_change hf l index
  exact ⟨by rw [hRanges]; exact hTracks.last, by rw [hRanges]; exact hTracks.covers⟩

/-- The live allocations around the one that is changed. -/
theorem exists_live_change {r : Allocation} (h : ledger.find? level index = some r) :
    ∃ newer older, ledger.live = newer ++ r :: older ∧
      ∀ f, (ledger.change level index f).live = newer ++ f r :: older := by
  obtain ⟨l, hLevel, hFound⟩ := Option.bind_eq_some_iff.mp h
  obtain ⟨hLess, rfl⟩ := List.getElem?_eq_some_iff.mp hLevel
  obtain ⟨hIndex, rfl⟩ := List.getElem?_eq_some_iff.mp hFound
  refine ⟨(ledger.take level).flatMap Level.live ++ ledger[level].live.take index,
    ledger[level].live.drop (index + 1) ++ (ledger.drop (level + 1)).flatMap Level.live, ?_, ?_⟩
  · have hSplit : ledger = ledger.take level ++ ledger[level] :: ledger.drop (level + 1) := by
      rw [List.getElem_cons_drop, List.take_append_drop]
    have hSplitLive : ledger[level].live = ledger[level].live.take index ++
        ledger[level].live[index] :: ledger[level].live.drop (index + 1) := by
      rw [List.getElem_cons_drop, List.take_append_drop]
    calc ledger.live
        = (ledger.take level).flatMap Level.live ++ (ledger[level].live ++
            (ledger.drop (level + 1)).flatMap Level.live) := by
          conv => lhs; rw [hSplit]
          rw [Ledger.live, List.flatMap_append, List.flatMap_cons]
      _ = _ := by
          conv => lhs; rw [hSplitLive]
          simp only [List.append_assoc, List.cons_append]
  · intro f
    rw [Ledger.live, Ledger.change, List.modify_eq_take_cons_drop hLess, List.flatMap_append,
      List.flatMap_cons, List.modify_eq_take_cons_drop hIndex]
    simp only [List.append_assoc, List.cons_append]

theorem ranges_sublist_spans (ledger : Ledger) :
    (ledger.live.map Allocation.span).Sublist (ledger.flatMap Level.spans) := by
  induction ledger with
  | nil => exact .slnil
  | cons l rest ih =>
    rw [Ledger.live, List.flatMap_cons, List.map_append, List.flatMap_cons]
    exact (List.sublist_append_left _ _).append ih

end Change

namespace World

variable {σ : Type} {src : BlockSource σ} {w : World (Traced σ)} {ledger : Ledger}

theorem memory_write (w : World (Traced σ)) (r : Allocation) (place : Nat) (bytes : List UInt8) :
    (w.write r place bytes).memory =
      w.memory.paint ⟨r.span.start + place, bytes.length⟩ fun i => bytes.getD i 0 := rfl

/-- A write to an allocation changes no byte of what is apart from it. -/
theorem memory_write_of_disjoint {r : Allocation} {place : Nat} {bytes : List UInt8} {s : Span}
    (hInside : place + bytes.length ≤ r.span.size) (hApart : s.Disjoint r.span) {i : Nat}
    (hi : i < s.size) :
    (w.write r place bytes).memory (s.start + i) = w.memory (s.start + i) := by
  have hIn : s.Contains (s.start + i) := by
    unfold Span.Contains Span.stop
    omega
  have hOut := hApart.not_contains hIn
  rw [memory_write]
  refine Memory.paint_of_not_contains ?_
  unfold Span.Contains Span.stop at *
  simp only
  omega

theorem memory_write_self {r : Allocation} {place i : Nat} {bytes : List UInt8}
    (h : w.memory (r.span.start + i) = r.contents i) :
    (w.write r place bytes).memory (r.span.start + i) = (r.write place bytes).contents i := by
  have hWrites : (⟨r.span.start + place, bytes.length⟩ : Span).Contains (r.span.start + i) ↔
      place ≤ i ∧ i < place + bytes.length := by
    unfold Span.Contains Span.stop
    simp only
    omega
  rw [memory_write]
  by_cases hWritten : place ≤ i ∧ i < place + bytes.length
  · rw [Memory.paint_of_contains (hWrites.mpr hWritten), Nat.add_sub_add_left]
    exact (if_pos hWritten).symm
  · rw [Memory.paint_of_not_contains (mt hWrites.mp hWritten), h]
    exact (if_neg hWritten).symm

/-- What is live after a change is the allocation changed, or another one, which is apart. -/
theorem Booked.live_change {level index : Nat} {r x : Allocation} {f : Allocation → Allocation}
    (h : w.Booked src ledger) (hFound : ledger.find? level index = some r)
    (hx : x ∈ (ledger.change level index f).live) :
    x = f r ∨ x ∈ ledger.live ∧ x.span.Disjoint r.span := by
  obtain ⟨newer, older, hLive, hChanged⟩ := exists_live_change hFound
  have hApart := h.disjoint.sublist (ranges_sublist_spans ledger)
  rw [hLive, List.map_append, List.map_cons, List.pairwise_append] at hApart
  obtain ⟨-, hOlder, hNewer⟩ := hApart
  rw [hChanged] at hx
  rw [hLive]
  rcases List.mem_append.mp hx with hx | hx
  · exact .inr ⟨List.mem_append_left _ hx,
      hNewer _ (List.mem_map_of_mem hx) _ (List.mem_cons_self ..)⟩
  rcases List.mem_cons.mp hx with hx | hx
  · exact .inl hx
  · exact .inr ⟨List.mem_append_right _ (List.mem_cons_of_mem _ hx),
      ((List.pairwise_cons.mp hOlder).1 _ (List.mem_map_of_mem hx)).symm⟩

/-- A write that stays inside a live allocation is booked right. -/
theorem Booked.write {level index place : Nat} {bytes : List UInt8} {r : Allocation}
    (h : w.Booked src ledger) (hFound : ledger.find? level index = some r)
    (hInside : place + bytes.length ≤ r.span.size) :
    (w.write r place bytes).Booked src (ledger.change level index (·.write place bytes)) := by
  have hSpan : ∀ x : Allocation, (x.write place bytes).span = x.span := fun _ => rfl
  have hMem : r ∈ ledger.live := by
    obtain ⟨newer, older, hLive, -⟩ := exists_live_change hFound
    rw [hLive]
    exact List.mem_append_right _ (List.mem_cons_self ..)
  have hOrderly : (w.write r place bytes).Orderly src := { h.orderly with }
  refine ⟨hOrderly, tracks_change hSpan h.tracked, ?_, ?_, ?_⟩
  · rw [spans_change hSpan]
    exact h.disjoint
  · intro x hx
    rcases h.live_change hFound hx with rfl | ⟨hLive, -⟩
    · exact h.whole r hMem
    · exact h.whole x hLive
  · intro x hx i hi
    rcases h.live_change hFound hx with rfl | ⟨hLive, hApart⟩
    · exact memory_write_self (h.contents r hMem i hi)
    · rw [memory_write_of_disjoint hInside hApart hi]
      exact h.contents x hLive i hi

end World

/-! ### Runs -/

namespace Session

variable {σ : Type} {src : BlockSource σ} {s : Session (Traced σ)} {w : World (Traced σ)}

theorem call_world (s : Session (Traced σ)) (op : Op) :
    (s.call op).world = (s.world.step op).2 := by
  rcases hStep : s.world.step op with ⟨_ | reply, w'⟩ <;> simp only [call, hStep]

/-- A write does nothing, or it reaches the allocation it goes to. -/
theorem write_cases (s : Session σ) (level index place : Nat) (bytes : List UInt8) :
    s.write level index place bytes = s ∨
      ∃ r, s.ledger.find? level index = some r ∧ place + bytes.length ≤ r.span.size ∧
        s.write level index place bytes =
          ⟨s.world.write r place bytes, s.ledger.change level index (·.write place bytes)⟩ := by
  cases hFound : s.ledger.find? level index with
  | none => exact .inl (by simp only [write, hFound])
  | some r =>
    by_cases hInside : place + bytes.length ≤ r.span.size
    · exact .inr ⟨r, rfl, hInside, by simp only [write, hFound, if_pos hInside]⟩
    · exact .inl (by simp only [write, hFound, if_neg hInside])

theorem write_source (s : Session σ) (level index place : Nat) (bytes : List UInt8) :
    (s.write level index place bytes).world.source = s.world.source := by
  rcases s.write_cases level index place bytes with h | ⟨r, -, -, h⟩
  · exact congrArg (·.world.source) h
  · exact congrArg (·.world.source) h

theorem write_traffic (s : Session (Traced σ)) (level index place : Nat) (bytes : List UInt8) :
    (s.write level index place bytes).world.traffic = s.world.traffic := by
  rcases s.write_cases level index place bytes with h | ⟨r, -, -, h⟩
  · exact congrArg (·.world.traffic) h
  · exact congrArg (·.world.traffic) h

theorem step_source (hs : s.world.source = src.traced) (action : Action) :
    (s.step action).world.source = src.traced := by
  cases action with
  | call op =>
    rw [step, call_world]
    exact World.step_source hs op
  | write level index place bytes => rw [step, write_source, hs]

theorem run_source (hs : s.world.source = src.traced) (actions : List Action) :
    (s.run actions).world.source = src.traced := by
  induction actions generalizing s with
  | nil => exact hs
  | cons action actions ih => exact ih (step_source hs action)

theorem step_traffic_grows (hs : s.world.source = src.traced) (action : Action) :
    s.world.traffic <+: (s.step action).world.traffic := by
  cases action with
  | call op =>
    rw [step, call_world]
    exact (World.step_advances hs op).traffic_grows
  | write level index place bytes =>
    exact ⟨[], (List.append_nil _).trans (s.write_traffic level index place bytes).symm⟩

theorem run_traffic_grows (hs : s.world.source = src.traced) (actions : List Action) :
    s.world.traffic <+: (s.run actions).world.traffic := by
  induction actions generalizing s with
  | nil => exact List.prefix_refl _
  | cons action actions ih =>
    exact (step_traffic_grows hs action).trans (ih (step_source hs action))

/-- Every action leaves the books right. -/
theorem step_booked (h : s.world.Booked src s.ledger) (action : Action)
    (hSound : Traffic.Sound (s.step action).world.traffic) :
    (s.step action).world.Booked src (s.step action).ledger := by
  cases action with
  | call op =>
    have hCall := World.booked_call h op
    rw [step] at hSound ⊢
    unfold World.Books at hCall
    rcases hStep : s.world.step op with ⟨_ | reply, w'⟩ <;>
      simp only [call, hStep] at hCall hSound ⊢ <;> exact hCall hSound
  | write level index place bytes =>
    rw [step]
    rcases s.write_cases level index place bytes with hWrite | ⟨r, hFound, hInside, hWrite⟩
    · rw [hWrite]
      exact h
    · rw [hWrite]
      exact h.write hFound hInside

theorem run_booked (h : s.world.Booked src s.ledger) (actions : List Action)
    (hSound : Traffic.Sound (s.run actions).world.traffic) :
    (s.run actions).world.Booked src (s.run actions).ledger := by
  induction actions generalizing s with
  | nil => exact h
  | cons action actions ih =>
    -- What the source has done by now is the start of what it does in all.
    have hGrows := run_traffic_grows (step_source h.orderly.source action) actions
    exact ih (step_booked h action (hSound.before hGrows)) hSound

theorem begin_booked {settings : Settings} {id : Nat} {host : Host (Traced σ)}
    (hStart : (start src.traced settings id host).1 = .ok w) (hFresh : host.store.traffic = [])
    (hSound : Traffic.Sound w.traffic) : (begin w).world.Booked src (begin w).ledger := by
  obtain ⟨-, b, hArena, -⟩ := World.exists_start hStart
  have hSize := World.effectiveChunkSize_le settings
  refine ⟨World.orderly_start hStart hFresh hSound, ?_, List.pairwise_singleton _ _, nofun, nofun⟩
  simp only [begin, hArena]
  refine .cons ⟨rfl, fun t ht => ?_⟩ .nil
  obtain rfl := List.mem_singleton.mp ht
  refine .chunk 0 ⟨b, settings.effectiveChunkSize⟩ Nat.one_pos rfl ⟨Nat.le_refl _, ?_⟩
    fun _ => Nat.le_refl _
  show b + footprint ≤ b + settings.effectiveChunkSize
  omega

/-- A session that starts with a fresh arena has its books right after any run. -/
theorem begin_run_booked {settings : Settings} {id : Nat} {host : Host (Traced σ)}
    {actions : List Action} (hStart : (start src.traced settings id host).1 = .ok w)
    (hFresh : host.store.traffic = [])
    (hSound : Traffic.Sound ((begin w).run actions).world.traffic) :
    ((begin w).run actions).world.Booked src ((begin w).run actions).ledger := by
  have hSource : (begin w).world.source = src.traced := (World.exists_start hStart).1
  have hBefore : Traffic.Sound w.traffic := hSound.before (run_traffic_grows hSource actions)
  exact run_booked (begin_booked hStart hFresh hBefore) actions hSound

end Session

end ArenaRegistry.Arena
