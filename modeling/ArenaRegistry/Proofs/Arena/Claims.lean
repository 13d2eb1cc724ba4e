import ArenaRegistry.Proofs.Arena.Frames
import ArenaRegistry.Proofs.Arena.LastInChunk

/-! Claiming the rest of a chunk. A request that may take all that is left of its chunk is served
from where it would be served if it took only what it needs, and fails where that one fails. All
that the claim decides is where the free bytes of the chunk begin afterwards. -/

namespace ArenaRegistry.Arena

/-- What was carved from one arena to make another came from the chunk at hand. -/
structure Carved (a a' : Arena) : Prop where
  chunks : a'.chunks = a.chunks
  bigBlocks : a'.bigBlocks = a.bigBlocks

/-- A request for `size` bytes that may claim the rest of its chunk, against one that takes only
what it needs. Both are carved from the arena `place`. -/
structure ClaimsRest {σ : Type} (size : Nat) (place : Arena)
    (exact : Except Failure Nat × World (Traced σ))
    (rest : Except Failure Span × World (Traced σ)) : Prop where
  answer : exact.1 = rest.1.map Span.start
  host : rest.2.host = exact.2.host
  chunks : rest.2.arena.chunks = exact.2.arena.chunks
  bigBlocks : rest.2.arena.bigBlocks = exact.2.arena.bigBlocks
  fails : ∀ failure, rest.1 = .error failure → rest.2 = exact.2
  room : ∀ span, rest.1 = .ok span →
    (place.Carved rest.2.arena ↔ Size.roundUp size ≤ place.remaining)
  carved : ∀ span, rest.1 = .ok span → place.Carved rest.2.arena →
    span = ⟨place.nextFree, place.remaining⟩ ∧ rest.2.arena.remaining = 0 ∧
      rest.2 = exact.2.withFree place.chunk.size
  apart : ∀ span, rest.1 = .ok span → ¬place.Carved rest.2.arena →
    span.size = Size.roundUp size ∧ rest.2 = exact.2
  enough : ∀ span, rest.1 = .ok span → Size.roundUp size ≤ span.size
  last : ∀ span, rest.1 = .ok span → Traffic.Sound rest.2.traffic →
    rest.2.arena.lastSize? = some span.size

/-- How the two requests come out. -/
inductive Claimed {σ : Type} (size : Nat) (place : Arena) :
    Except Error Span × World σ → Except Error Span × World σ → Prop
  | carved {w : World σ} (room : Size.roundUp size ≤ place.remaining)
      (eq : w.arena = place.bump (Size.roundUp size)) :
      Claimed size place (.ok ⟨place.nextFree, Size.roundUp size⟩, w)
        (.ok ⟨place.nextFree, place.remaining⟩, w.withFree place.chunk.size)
  | apart {span : Span} {w : World σ} (room : place.remaining < Size.roundUp size)
      (exact : span.size = Size.roundUp size) (fresh : ¬place.Carved w.arena) :
      Claimed size place (.ok span, w) (.ok span, w)
  | fails (e : Error) (w : World σ) : Claimed size place (.error e, w) (.error e, w)

section Arenas

variable {a : Arena} {n : Nat}

theorem top_mapTop_of_ne_nil (h : a.marks ≠ []) (f : Mark → Mark) : (a.mapTop f).top = f a.top := by
  obtain ⟨below, hMarks⟩ := exists_marks_eq h
  exact top_mapTop hMarks f

theorem marks_bump_ne_nil (h : a.marks ≠ []) (n : Nat) : (a.bump n).marks ≠ [] := by
  obtain ⟨below, hMarks⟩ := exists_marks_eq h
  rw [bump, marks_mapTop hMarks]
  simp

theorem chunk_bump (h : a.marks ≠ []) (n : Nat) : (a.bump n).chunk = a.chunk := by
  rw [chunk, bump, top_mapTop_of_ne_nil h]
  rfl

/-- Carving all that is left of a chunk is carving a part of it and then moving the first free byte to
the end of the chunk. -/
theorem bump_remaining (h : a.marks ≠ []) (hPos : 0 < n) (hRoom : n ≤ a.remaining) :
    a.bump a.remaining = (a.bump n).withFree a.chunk.size := by
  have hFull : a.top.free + a.remaining = a.chunk.size := by
    unfold remaining at *
    omega
  have hFinal : a.bump a.remaining =
      a.mapTop fun m => { m with free := a.chunk.size, last := some a.nextFree } :=
    mapTop_congr h (by rw [hFull])
  rw [hFinal]
  simp only [bump, withFree, mapTop, List.length_modify, List.modify_modify_eq]
  rfl

theorem remaining_withFree_chunk (h : a.marks ≠ []) :
    (a.withFree a.chunk.size).remaining = 0 := by
  rw [remaining, chunk_withFree h, top_withFree h]
  exact Nat.sub_self _

end Arenas

/-! ### What comes of the two -/

section Results

open World

variable {σ : Type} {size : Nat} {place : Arena} {exact rest : Except Error Span × World (Traced σ)}

theorem Claimed.claimsRest (h : Claimed size place exact rest) (hMarks : place.marks ≠ [])
    (hLast : ∀ span, rest.1 = .ok span → Traffic.Sound rest.2.traffic →
      rest.2.arena.lastSize? = some span.size) :
    ClaimsRest size place (policed (addressOf exact)) (policed rest) := by
  cases h with
  | @carved w hRoom hArena =>
    have hChunk : place.chunk = w.arena.chunk := (hArena ▸ chunk_bump hMarks _).symm
    have hNonempty : w.arena.marks ≠ [] := hArena ▸ marks_bump_ne_nil hMarks _
    have hCarved : place.Carved (w.withFree place.chunk.size).arena := by
      rw [withFree_arena, hArena]
      exact ⟨rfl, rfl⟩
    have hNoneLeft : (w.withFree place.chunk.size).arena.remaining = 0 := by
      rw [withFree_arena, hChunk]
      exact remaining_withFree_chunk hNonempty
    exact {
      answer := rfl
      host := rfl
      chunks := rfl
      bigBlocks := rfl
      fails := nofun
      room := fun _ _ => iff_of_true hCarved hRoom
      carved := by
        rintro span ⟨⟩ -
        exact ⟨rfl, hNoneLeft, rfl⟩
      apart := fun _ _ hApart => absurd hCarved hApart
      enough := by
        rintro span ⟨⟩
        exact hRoom
      last := by
        rintro span ⟨⟩
        exact hLast _ rfl }
  | apart hRoom hSize hFresh =>
    exact {
      answer := rfl
      host := rfl
      chunks := rfl
      bigBlocks := rfl
      fails := fun _ _ => rfl
      room := fun _ _ => iff_of_false hFresh (Nat.not_le.mpr hRoom)
      carved := fun _ _ hCarved => absurd hCarved hFresh
      apart := by
        rintro span ⟨⟩ -
        exact ⟨hSize, rfl⟩
      enough := by
        rintro span ⟨⟩
        exact Nat.le_of_eq hSize.symm
      last := by
        rintro span ⟨⟩
        exact hLast _ rfl }
  | fails e w => exact ⟨rfl, rfl, rfl, rfl, fun _ _ => rfl, nofun, nofun, nofun, nofun, nofun⟩

end Results

namespace World

variable {σ : Type} {w : World σ} {place : Arena} {size : Nat}

/-! ### How the two come out -/

/-- Carving from the chunk at hand. -/
theorem claimed_bump (w : World σ) (hMarks : place.marks ≠ []) (hValid : ¬InvalidRequest size)
    (hRoom : Size.roundUp size ≤ place.remaining) :
    Claimed size place (.ok ⟨place.nextFree, Size.roundUp size⟩,
        w.withArena (place.bump (Size.roundUp size)))
      (.ok ⟨place.nextFree, place.remaining⟩, w.withArena (place.bump place.remaining)) := by
  rw [bump_remaining hMarks (roundUp_pos hValid) hRoom]
  exact .carved hRoom rfl

theorem claimed_of_fresh {r : Except Error Span × World σ}
    (hRoom : place.remaining < Size.roundUp size)
    (h : Outcome (fun span w' => span.size = Size.roundUp size ∧ ¬place.Carved w'.arena)
      (fun _ => True) r) : Claimed size place r r := by
  rcases r with ⟨e | span, w'⟩
  · exact .fails e w'
  · exact .apart hRoom h.1 h.2

theorem allocInChunk_fresh (w : World σ) (bytes n : Nat) :
    Outcome (fun span w' => span.size = n ∧ ¬w.arena.Carved w'.arena) (fun _ => True)
      (w.allocInChunk bytes n) := by
  have hArena := w.acquire_arena bytes
  unfold allocInChunk
  rcases hr : w.acquire bytes with ⟨_ | block, w'⟩ <;> rw [hr] at hArena
  · trivial
  · refine ⟨rfl, fun hCarved => ?_⟩
    have hChunks : w'.arena.chunks ++ [block] = w.arena.chunks := hCarved.chunks
    rw [show w'.arena = w.arena from hArena] at hChunks
    simp at hChunks

theorem allocBig_fresh (w : World σ) (n : Nat) :
    Outcome (fun span w' => span.size = n ∧ ¬w.arena.Carved w'.arena) (fun _ => True)
      (w.allocBig n) := by
  have hArena := w.acquire_arena n
  unfold allocBig
  rcases hr : w.acquire n with ⟨_ | block, w'⟩ <;> rw [hr] at hArena
  · trivial
  · refine ⟨rfl, fun hCarved => ?_⟩
    have hBigs : w'.arena.bigBlocks ++ [block] = w.arena.bigBlocks := hCarved.bigBlocks
    rw [show w'.arena = w.arena from hArena] at hBigs
    simp at hBigs

theorem carve_claimed (hMarks : w.arena.marks ≠ []) (size : Nat) :
    Claimed size w.arena (w.carve size .exact) (w.carve size .rest) := by
  by_cases hBad : InvalidRequest size
  · simp only [carve, if_pos hBad]
    exact .fails _ w
  have hLess (hRoute : w.arena.route (Size.roundUp size) ≠ .bump) :
      w.arena.remaining < Size.roundUp size := Nat.lt_of_not_le fun h => hRoute (route_bump.mpr h)
  rcases hRoute : w.arena.route (Size.roundUp size) with _ | bytes | _ <;>
    simp only [carve, if_neg hBad, hRoute]
  · exact claimed_bump w hMarks hBad (route_bump.mp hRoute)
  · exact claimed_of_fresh (hLess (by simp [hRoute])) (w.allocInChunk_fresh bytes _)
  · exact claimed_of_fresh (hLess (by simp [hRoute])) (w.allocBig_fresh _)

theorem enterMark_marks_ne_nil (h : w.arena.marks ≠ []) : w.enterMark.2.arena.marks ≠ [] := by
  have hStep := step_marks_ne_nil h .pushMark
  simpa only [step, pushMark, replied_snd, policed_snd] using hStep

/-- A mark and an allocation that are carved at once are carved from the arena with the mark on. -/
theorem fuseFrame_claimed (hValid : ¬InvalidRequest size)
    (hFits : w.arena.fitsFrame (Size.roundUp size) = true) :
    let fused := w.fuseFrame (Size.roundUp size)
    Claimed size w.enterMark.2.arena (.ok (fused .exact).1, (fused .exact).2)
      (.ok (fused .rest).1, (fused .rest).2) := by
  intro fused
  have hBoth : Size.roundUp size + footprint ≤ w.arena.chunk.size - w.arena.top.free :=
    of_decide_eq_true hFits
  have hRoom : footprint ≤ w.arena.remaining := Nat.le_trans (Nat.le_add_left _ _) hBoth
  have hPlace : w.enterMark.2.arena =
      w.arena.pushMark w.arena.top.chunkCount (w.arena.top.free + footprint) none := by
    rw [enterMark, if_pos hRoom]
    rfl
  generalize w.enterMark.2.arena = place at hPlace
  have hLeft : place.remaining = w.arena.chunk.size - (w.arena.top.free + footprint) := by
    rw [hPlace, remaining_pushMark]
  have hNext : place.nextFree = w.arena.chunk.start + (w.arena.top.free + footprint) := by
    rw [hPlace, nextFree_pushMark]
  have hMarks : place.marks ≠ [] := by
    rw [hPlace]
    simp [Arena.pushMark]
  have hBump (n : Nat) : w.arena.pushMark w.arena.top.chunkCount (w.arena.top.free + footprint + n)
      (some place.nextFree) = place.bump n := by
    rw [hNext, hPlace, bump_pushMark]
    rfl
  have hClaimed := claimed_bump w hMarks hValid (by omega)
  simp only [fused, fuseFrame, Claim.taken, ← hNext, ← hLeft, hBump]
  exact hClaimed

theorem enterFrame_claimed (hMarks : w.arena.marks ≠ []) (size : Nat) :
    Claimed size w.enterMark.2.arena (w.enterFrame size .exact) (w.enterFrame size .rest) := by
  by_cases hBad : InvalidRequest size
  · simp only [enterFrame, if_pos hBad]
    exact .fails _ w
  by_cases hFits : w.arena.fitsFrame (Size.roundUp size) = true
  · simp only [enterFrame, if_neg hBad, if_pos hFits]
    exact fuseFrame_claimed hBad hFits
  have hEntered := enterMark_marks_ne_nil hMarks
  -- The mark is pushed before the claim matters, so both requests are carved from one arena.
  simp only [enterFrame, if_neg hBad, if_neg hFits]
  generalize w.enterMark = entered at hEntered ⊢
  rcases entered with ⟨e | handle, w₁⟩
  · exact .fails e w₁
  have hCarve : Claimed size w₁.arena _ _ := carve_claimed hEntered size
  simp only
  generalize w₁.carve size .exact = exact at hCarve ⊢
  generalize w₁.carve size .rest = rest at hCarve ⊢
  cases hCarve with
  | carved hRoom hArena => exact .carved hRoom hArena
  | apart hRoom hSize hFresh => exact .apart hRoom hSize hFresh
  | fails e w₂ => exact .fails e _

/-! ### The two calls -/

section Calls

variable {src : BlockSource σ} {w w' : World (Traced σ)} {ledger : Ledger}

/-- What a frame has got is the newest entry of its level, which is the last allocation. -/
theorem Framed.lastSize? {span : Span} (hFramed : w.Framed span w') (h : w.Booked src ledger)
    (hSound : Traffic.Sound w'.traffic) : w'.arena.lastSize? = some span.size := by
  obtain ⟨-, level, rest, -, hLedger, -, -, hLevel, -⟩ := (h.framed hFramed hSound).exists_level
  obtain ⟨rfl, -⟩ := List.cons.inj hLedger
  exact lastSize?_of_lastSpan? hLevel.last.symm

end Calls

end World

/-- However a source grants and refuses and whatever was called and written before: an allocation
that may claim the rest of its chunk succeeds just where one of the same size does that takes only
what it needs, with the same address, the same requests to the source and the same blocks, and fails
alike. Carved from the chunk at hand, it gets all that is left there, and the free bytes of the
chunk are all by which the two arenas differ; served by a new block, it gets its size in whole grains
and nothing differs. What it gets is the last allocation, as long as the blocks that were granted are
apart. The same holds of a frame, with the chunk that holds its mark as the chunk at hand. -/
theorem claim_changes_extent_only {σ : Type} (src : BlockSource σ) (settings : Settings) (id : Nat)
    (host : Host (Traced σ)) (w : World (Traced σ)) (actions : List Action) (size : Nat)
    (hStart : (start src.traced settings id host).1 = .ok w) (hFresh : host.store.traffic = []) :
    let now := ((Session.begin w).run actions).world
    ClaimsRest size now.arena (now.alloc size) (now.allocMin size) ∧
      ClaimsRest size now.pushMark.2.arena (now.pushFrame size) (now.pushFrameMin size) := by
  intro now
  have hSource : now.source = src.traced := Session.run_source (World.exists_start hStart).1 actions
  have hMarks : now.arena.marks ≠ [] := Session.begin_run_marks_ne_nil hStart actions
  -- What the source has done before a call is the start of what it has done after it.
  have hBooked (op : Op) (hSound : Traffic.Sound (now.step op).2.traffic) :
      now.Booked src ((Session.begin w).run actions).ledger :=
    Session.begin_run_booked hStart hFresh
      (hSound.before (World.step_advances hSource op).traffic_grows)
  constructor
  · refine (World.carve_claimed hMarks size).claimsRest hMarks fun span hOk hSound => ?_
    rcases hCarve : now.carve size .rest with ⟨_ | found, w'⟩ <;> rw [hCarve] at hOk hSound
    · cases hOk
    cases hOk
    have hStep : (now.step (.allocMin size)).2 = w' := by
      simp only [World.step, World.allocMin, World.replied_snd, World.policed_snd, hCarve]
    have hOrderly := (hBooked (.allocMin size) (hStep ▸ hSound)).orderly
    exact (World.lastSize?_carve hOrderly hCarve hSound).1
  · have hPlace : now.pushMark.2.arena = now.enterMark.2.arena := by
      rw [World.pushMark, World.policed_snd]
    have hEntered := World.enterMark_marks_ne_nil hMarks
    rw [hPlace]
    refine (World.enterFrame_claimed hMarks size).claimsRest hEntered fun span hOk hSound => ?_
    have hFrame := World.enterFrame_outcome hSource size .rest
    rcases hEnter : now.enterFrame size .rest with ⟨_ | found, w'⟩ <;>
      rw [hEnter] at hOk hSound hFrame
    · cases hOk
    cases hOk
    have hStep : (now.step (.pushFrameMin size)).2 = w' := by
      simp only [World.step, World.pushFrameMin, World.replied_snd, World.policed_snd, hEnter]
    exact hFrame.1.lastSize? (hBooked (.pushFrameMin size) (hStep ▸ hSound)) hSound

/-- The current chunk has no room for a mark: the allocation opens a chunk for itself and gets what
it needs, and the frame gets all of the chunk that is opened for its mark. Each is the last
allocation then. -/
theorem claim_changes_extent_only_limited :
    ∃ w : World (Traced Heap), (start Heap.limited.traced ⟨0, false⟩ 1 Host.blank).1 = .ok w ∧
      let now := ((Session.begin w).run [.call (.alloc 7920)]).world
      (now.allocMin 200).1 = .ok ⟨0x10000001f50, 200⟩ ∧
        (now.pushFrameMin 200).1 = .ok ⟨0x10000001f88, 7944⟩ ∧
        ClaimsRest 200 now.arena (now.alloc 200) (now.allocMin 200) ∧
        ClaimsRest 200 now.pushMark.2.arena (now.pushFrame 200) (now.pushFrameMin 200) ∧
        (now.allocMin 200).2.arena.lastSize? = some 200 ∧
        (now.pushFrameMin 200).2.arena.lastSize? = some 7944 := by
  obtain ⟨hAlloc, hFrame⟩ := claim_changes_extent_only Heap.limited ⟨0, false⟩ 1 Host.blank _
    [.call (.alloc 7920)] 200 rfl rfl
  have hAllocLast := hAlloc.last ⟨0x10000001f50, 200⟩ rfl (by decide +kernel)
  have hFrameLast := hFrame.last ⟨0x10000001f88, 7944⟩ rfl (by decide +kernel)
  exact ⟨_, rfl, rfl, rfl, hAlloc, hFrame, hAllocLast, hFrameLast⟩

end ArenaRegistry.Arena
