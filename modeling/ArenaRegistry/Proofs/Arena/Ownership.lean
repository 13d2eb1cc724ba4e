import ArenaRegistry.Proofs.Arena.Session

/-! What a caller may rely on. Its live allocations overlap neither each other nor the marks, and
they lie in blocks that the arena holds; and what the caller left in them is still there, whatever
it calls. -/

namespace ArenaRegistry.Arena

/-! ### Separation -/

/-- The books of a caller describe bytes that are apart. -/
structure Ledger.Separate (ledger : Ledger) (a : Arena) : Prop where
  levels : ledger.length = a.marks.length
  footprints : ∀ level ∈ ledger, level.footprint.size = footprint
  disjoint : (ledger.live.map Allocation.span).Pairwise Span.Disjoint
  whole : ∀ r ∈ ledger.live, Size.IsWhole r.span.start ∧ Size.IsWhole r.span.size
  held : ∀ r ∈ ledger.live, ∃ block ∈ a.held, r.span.Within block
  /-- No allocation overlaps the bytes of a mark. -/
  marks : ∀ r ∈ ledger.live, ∀ level ∈ ledger, r.span.Disjoint level.footprint

theorem disjoint_footprints {ledger : Ledger}
    (h : (ledger.flatMap Level.spans).Pairwise Span.Disjoint) :
    ∀ r ∈ ledger.live, ∀ level ∈ ledger, r.span.Disjoint level.footprint := by
  induction ledger with
  | nil => exact nofun
  | cons top rest ih =>
    rw [List.flatMap_cons, List.pairwise_append] at h
    obtain ⟨hTop, hRest, hMixed⟩ := h
    have hFootprint : ∀ level ∈ rest, level.footprint ∈ rest.flatMap Level.spans :=
      fun level hLevel => List.mem_flatMap.mpr
        ⟨level, hLevel, List.mem_append_right _ (List.mem_singleton_self _)⟩
    intro r hr level hLevel
    rw [Ledger.live, List.flatMap_cons] at hr
    rcases List.mem_append.mp hr with hHere | hBelow
    · have hSpan : r.span ∈ top.ranges := List.mem_map_of_mem hHere
      rcases List.mem_cons.mp hLevel with rfl | hLevel
      · exact (List.pairwise_append.mp hTop).2.2 _ hSpan _ (List.mem_singleton_self _)
      · exact hMixed _ (List.mem_append_left _ hSpan) _ (hFootprint level hLevel)
    · rcases List.mem_cons.mp hLevel with rfl | hLevel
      · have hOwn : level.footprint ∈ level.spans :=
          List.mem_append_right _ (List.mem_singleton_self _)
        exact (hMixed _ hOwn _ (World.span_mem_spans hBelow)).symm
      · exact ih hRest r hBelow level hLevel

/-! ### The bytes of marks -/

/-- The spans of the marks, the current one first. -/
def Ledger.footprints (ledger : Ledger) : List Span := ledger.map Level.footprint

section Footprints

variable {σ : Type} {ledger : Ledger}

theorem footprints_add (r : Allocation) : (ledger.add r).footprints = ledger.footprints := by
  cases ledger <;> rfl

theorem footprints_resize (m : Memory) (span : Span) :
    (ledger.resize m span).footprints = ledger.footprints := by
  rcases ledger with _ | ⟨⟨mark, _ | ⟨r, older⟩⟩, rest⟩ <;> rfl

theorem footprints_change (level index : Nat) (f : Allocation → Allocation) :
    (ledger.change level index f).footprints = ledger.footprints := by
  rw [Ledger.footprints, Ledger.change, map_modify_of_eq]
  · rfl
  · exact fun _ => rfl

theorem footprints_keep_subset (count : Nat) : (ledger.keep count).footprints ⊆ ledger.footprints :=
  List.map_subset _ (List.drop_subset _ _)

theorem reserved_size (before after : Arena) : (reserved before after).size = footprint := by
  unfold reserved
  split <;> rfl

/-- The spans of the marks after a call are those from before, and that of a new mark. -/
theorem footprints_book_subset (before after : World σ) (op : Op) (reply : Reply) :
    (before.book after ledger op reply).footprints ⊆
      reserved before.arena after.arena :: ledger.footprints := by
  have hSame {other : Ledger} (h : other.footprints = ledger.footprints) :
      other.footprints ⊆ reserved before.arena after.arena :: ledger.footprints :=
    h ▸ List.subset_cons_self _ _
  unfold World.book
  split
  · exact hSame (footprints_add _)
  · exact hSame (footprints_add _)
  · exact List.Subset.refl _
  · exact List.Subset.refl _
  · exact List.Subset.refl _
  · split
    · exact hSame rfl
    · exact List.subset_cons_of_subset _ (footprints_keep_subset _)
  · split
    · exact hSame rfl
    · exact List.subset_cons_of_subset _ (List.map_subset _ fun _ => List.mem_of_mem_tail)
  · exact hSame (footprints_resize _ _)
  · exact hSame (footprints_resize _ _)
  · exact hSame (footprints_resize _ _)
  · exact hSame rfl

end Footprints

namespace Session

variable {σ : Type} {src : BlockSource σ} {s : Session (Traced σ)} {w : World (Traced σ)}

theorem step_footprints {s : Session σ} (h : ∀ span ∈ s.ledger.footprints, span.size = footprint)
    (action : Action) : ∀ span ∈ (s.step action).ledger.footprints, span.size = footprint := by
  cases action with
  | call op =>
    rw [step]
    rcases hStep : s.world.step op with ⟨_ | reply, w'⟩ <;> simp only [call, hStep]
    · exact h
    · intro span hSpan
      rcases List.mem_cons.mp (footprints_book_subset _ _ _ _ hSpan) with rfl | hOld
      · exact reserved_size _ _
      · exact h span hOld
  | write level index place bytes =>
    rw [step]
    rcases s.write_cases level index place bytes with hWrite | ⟨r, -, -, hWrite⟩
    · rwa [hWrite]
    · rw [hWrite]
      simpa only [footprints_change] using h

theorem run_footprints {s : Session σ} (h : ∀ span ∈ s.ledger.footprints, span.size = footprint)
    (actions : List Action) :
    ∀ span ∈ (s.run actions).ledger.footprints, span.size = footprint := by
  induction actions generalizing s with
  | nil => exact h
  | cons action actions ih => exact ih (step_footprints h action)

end Session

/-- However a source grants and refuses, whatever is called and whatever is written, the live
allocations are apart from each other and from the marks as long as the blocks that are out start on
a grain and share no byte. -/
theorem run_separate {σ : Type} (src : BlockSource σ) (settings : Settings) (id : Nat)
    (host : Host (Traced σ)) (w : World (Traced σ)) (actions : List Action)
    (hStart : (start src.traced settings id host).1 = .ok w) (hFresh : host.store.traffic = [])
    (hSound : Traffic.Sound ((Session.begin w).run actions).world.traffic) :
    ((Session.begin w).run actions).ledger.Separate
      ((Session.begin w).run actions).world.arena := by
  have hBooked := Session.begin_run_booked hStart hFresh hSound
  have hSizes : ∀ span ∈ (Session.begin w).ledger.footprints, span.size = footprint := by
    intro span hSpan
    obtain rfl := List.mem_singleton.mp hSpan
    rfl
  exact {
    levels := by rw [← hBooked.tracked.length_eq, List.length_reverse]
    footprints := fun level hLevel =>
      Session.run_footprints hSizes actions _ (List.mem_map_of_mem hLevel)
    disjoint := hBooked.disjoint.sublist (ranges_sublist_spans _)
    whole := hBooked.whole
    held := fun r hr => (hBooked.covers (World.span_mem_spans hr)).within
    marks := disjoint_footprints hBooked.disjoint }

theorem run_separate_limited :
    ∃ w : World (Traced Heap),
      (start Heap.limited.traced ⟨0, false⟩ 1 Host.blank).1 = .ok w ∧
        ((Session.begin w).run [.call (.alloc 100), .call (.pushFrame 50), .call (.alloc 9000),
          .call (.expandLast 2000 false), .call .pushMark, .call (.allocMin 5),
          .call (.shrinkLast 40)]).ledger.Separate
        ((Session.begin w).run [.call (.alloc 100), .call (.pushFrame 50), .call (.alloc 9000),
          .call (.expandLast 2000 false), .call .pushMark, .call (.allocMin 5),
          .call (.shrinkLast 40)]).world.arena :=
  ⟨_, rfl, run_separate Heap.limited ⟨0, false⟩ 1 Host.blank _ _ rfl rfl (by decide +kernel)⟩

/-! ### What is left in memory -/

/-- The calls that give the last allocation another size. -/
def Op.Resizes : Op → Prop
  | .expandLast _ _ | .shrinkLast _ | .resizeLast _ _ => True
  | _ => False

/-- What a caller left in its allocations is there, and it is still there after one more call. -/
structure Session.Retains {σ : Type} (s : Session (Traced σ)) : Prop where
  reads : ∀ r ∈ s.ledger.live, ∀ i < r.span.size,
    s.world.memory (r.span.start + i) = r.contents i
  /-- No byte of an allocation that stays live changes, whether the call succeeds or fails. -/
  kept : ∀ op, Traffic.Sound (s.call op).world.traffic → ∀ r ∈ s.ledger.live,
    r ∈ (s.call op).ledger.live → ∀ i < r.span.size,
      (s.call op).world.memory (r.span.start + i) = s.world.memory (r.span.start + i)
  /-- An allocation that gets another size has its bytes at its new place, as many as there is room
  for. -/
  carried : ∀ (op : Op) (p : Nat) (w : World (Traced σ)), op.Resizes →
    s.world.step op = (.ok (.address p), w) → Traffic.Sound w.traffic →
      ∀ mark r older below, s.ledger = ⟨mark, r :: older⟩ :: below →
        ∀ i < min r.span.size (w.arena.lastSize?.getD 0),
          w.memory (p + i) = s.world.memory (r.span.start + i)

namespace World

variable {σ : Type} {src : BlockSource σ} {w w' : World (Traced σ)} {ledger : Ledger}

theorem book_of_resizes (w w' : World σ) (ledger : Ledger) {op : Op} (h : op.Resizes) (p : Nat) :
    w.book w' ledger op (.address p) =
      ledger.resize w'.memory ⟨p, w'.arena.lastSize?.getD 0⟩ := by
  cases op with
  | expandLast _ _ | shrinkLast _ | resizeLast _ _ => rfl
  | _ => exact h.elim

/-- A last allocation of another size holds what it held before, as far as there is room. -/
theorem Booked.carried {mark span : Span} {r : Allocation} {older : List Allocation}
    {below : List Level} (h : w.Booked src (⟨mark, r :: older⟩ :: below))
    (h' : w'.Booked src (Ledger.resize w'.memory span (⟨mark, r :: older⟩ :: below)))
    {i : Nat} (hi : i < min r.span.size span.size) :
    w'.memory (span.start + i) = w.memory (r.span.start + i) := by
  have hOld : r ∈ Ledger.live (⟨mark, r :: older⟩ :: below) := List.mem_cons_self ..
  have hNew : r.resized w'.memory span ∈
      Ledger.live (Ledger.resize w'.memory span (⟨mark, r :: older⟩ :: below)) :=
    List.mem_cons_self ..
  have hBefore := h.contents r hOld i (Nat.lt_of_lt_of_le hi (Nat.min_le_left _ _))
  have hAfter := h'.contents _ hNew i (Nat.lt_of_lt_of_le hi (Nat.min_le_right _ _))
  calc w'.memory (span.start + i)
      = (r.resized w'.memory span).contents i := hAfter
    _ = r.contents i := if_pos hi
    _ = w.memory (r.span.start + i) := hBefore.symm

end World

theorem Session.retains {σ : Type} {src : BlockSource σ} {s : Session (Traced σ)}
    (h : s.world.Booked src s.ledger) : s.Retains where
  reads := h.contents
  kept := by
    intro op hSound r hr hStays i hi
    have hAfter := (step_booked h (.call op) hSound).contents r hStays i hi
    rw [h.contents r hr i hi]
    exact hAfter
  carried := by
    intro op p w hResizes hStep hSound mark r older below hLedger i hi
    have hCall := World.booked_call h op
    rw [World.Books, hStep] at hCall
    have hAfter : w.Booked src (s.world.book w s.ledger op (.address p)) := hCall hSound
    rw [World.book_of_resizes _ _ _ hResizes, hLedger] at hAfter
    rw [hLedger] at h
    exact h.carried hAfter hi

/-- However a source grants and refuses, whatever is called and whatever is written, a caller reads
in its live allocations what it last wrote there, and a call changes none of it. The blocks that are
out start on a grain and share no byte. -/
theorem run_retains {σ : Type} (src : BlockSource σ) (settings : Settings) (id : Nat)
    (host : Host (Traced σ)) (w : World (Traced σ)) (actions : List Action)
    (hStart : (start src.traced settings id host).1 = .ok w) (hFresh : host.store.traffic = [])
    (hSound : Traffic.Sound ((Session.begin w).run actions).world.traffic) :
    ((Session.begin w).run actions).Retains :=
  Session.retains (Session.begin_run_booked hStart hFresh hSound)

theorem run_retains_limited :
    ∃ w : World (Traced Heap),
      (start Heap.limited.traced ⟨0, false⟩ 1 Host.blank).1 = .ok w ∧
        ((Session.begin w).run [.call (.alloc 100), .write 0 0 8 [1, 2, 3], .call (.pushFrame 50),
          .write 0 0 0 [4, 5], .call (.expandLast 9000 false), .write 1 0 9 [6], .call .popFrame,
          .call (.resizeLast 12 true)]).Retains :=
  ⟨_, rfl, run_retains Heap.limited ⟨0, false⟩ 1 Host.blank _ _ rfl rfl (by decide +kernel)⟩

end ArenaRegistry.Arena
