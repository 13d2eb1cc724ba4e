import ArenaRegistry.Arena.Heap
import ArenaRegistry.Proofs.Arena.Preservation
import Mathlib.Algebra.Group.Nat.Defs

/-! An arena holds just the blocks that it was granted and has not given back. As long as the source
keeps those apart, every call therefore leaves a well-formed arena. -/

namespace ArenaRegistry.Arena

/-- The span lies in an address space of so many bytes and does not wrap it. -/
def Span.InSpace (bytes : Nat) (s : Span) : Prop := s.stop ≤ bytes

instance (bytes : Nat) (s : Span) : Decidable (s.InSpace bytes) :=
  inferInstanceAs (Decidable (s.stop ≤ bytes))

instance (blocks : List Span) : Decidable (Apart blocks) :=
  decidable_of_iff ((∀ b ∈ blocks, Size.IsWhole b.start) ∧ blocks.Pairwise Span.Disjoint)
    ⟨fun h => ⟨h.1, h.2⟩, fun h => ⟨h.1, h.2⟩⟩

namespace Traffic

/-- The blocks that are out after one event more. -/
def after (out : List Span) : Traffic → List Span
  | granted block => block :: out
  | refused _ => out
  | released block => out.erase block

/-- The blocks that were granted and not given back. -/
def outstanding (traffic : List Traffic) : List Span := traffic.foldl after []

/-- What is asked of a source: at every moment the blocks that are out start on a grain and share no
byte. -/
def Sound (traffic : List Traffic) : Prop := ∀ n, Apart (outstanding (traffic.take n))

/-- The least that is asked of a source: at every moment the blocks that are out share no byte. -/
def Disjoint (traffic : List Traffic) : Prop :=
  ∀ n, (outstanding (traffic.take n)).Pairwise Span.Disjoint

/-- What holds of the start of a traffic at every moment holds after as many events as there are. -/
theorem forall_take_iff {traffic : List Traffic} {P : List Traffic → Prop} :
    (∀ n ≤ traffic.length, P (traffic.take n)) ↔ ∀ n, P (traffic.take n) := by
  constructor
  · intro h n
    rcases Nat.le_total n traffic.length with hn | hn
    · exact h n hn
    · have := h traffic.length (Nat.le_refl _)
      rwa [List.take_of_length_le (Nat.le_refl _), ← List.take_of_length_le hn] at this
  · intro h n _
    exact h n

instance (traffic : List Traffic) : Decidable (Sound traffic) :=
  decidable_of_iff (∀ n ≤ traffic.length, Apart (outstanding (traffic.take n)))
    (forall_take_iff (P := fun past => Apart (outstanding past)))

instance (traffic : List Traffic) : Decidable (Disjoint traffic) :=
  decidable_of_iff
    (∀ n ≤ traffic.length, (outstanding (traffic.take n)).Pairwise Span.Disjoint)
    (forall_take_iff (P := fun past => (outstanding past).Pairwise Span.Disjoint))

/-- A block that is granted does not wrap the address space. -/
def InSpace : Traffic → Prop
  | granted block => block.InSpace (2 ^ 64)
  | _ => True

instance : DecidablePred InSpace
  | granted block => inferInstanceAs (Decidable (block.InSpace (2 ^ 64)))
  | refused _ | released _ => inferInstanceAs (Decidable True)

/-- What is asked of a source in an address space of 64 bits. -/
structure Lawful (traffic : List Traffic) : Prop where
  sound : Sound traffic
  space : ∀ event ∈ traffic, event.InSpace

instance (traffic : List Traffic) : Decidable (Lawful traffic) :=
  decidable_of_iff (Sound traffic ∧ ∀ event ∈ traffic, event.InSpace)
    ⟨fun h => ⟨h.1, h.2⟩, fun h => ⟨h.1, h.2⟩⟩

theorem Sound.apart {traffic : List Traffic} (h : Sound traffic) : Apart (outstanding traffic) := by
  have := h traffic.length
  rwa [List.take_length] at this

theorem Sound.disjoint {traffic : List Traffic} (h : Sound traffic) : Disjoint traffic :=
  fun n => (h n).disjoint

theorem Disjoint.pairwise {traffic : List Traffic} (h : Disjoint traffic) :
    (outstanding traffic).Pairwise Span.Disjoint := by
  have := h traffic.length
  rwa [List.take_length] at this

theorem take_of_isPrefix {past traffic : List Traffic} (h : past <+: traffic) (n : Nat) :
    ∃ k, past.take n = traffic.take k :=
  ⟨_, List.prefix_iff_eq_take.mp ((List.take_prefix n past).trans h)⟩

/-- A source that has kept its word so far did so before. -/
theorem Sound.before {past traffic : List Traffic} (h : Sound traffic) (hPast : past <+: traffic) :
    Sound past := by
  intro n
  obtain ⟨k, hTake⟩ := take_of_isPrefix hPast n
  rw [hTake]
  exact h k

theorem Disjoint.before {past traffic : List Traffic} (h : Disjoint traffic)
    (hPast : past <+: traffic) : Disjoint past := by
  intro n
  obtain ⟨k, hTake⟩ := take_of_isPrefix hPast n
  rw [hTake]
  exact h k

theorem Lawful.before {past traffic : List Traffic} (h : Lawful traffic) (hPast : past <+: traffic) :
    Lawful past :=
  ⟨h.sound.before hPast, fun event hEvent => h.space event (hPast.subset hEvent)⟩

theorem outstanding_append (past more : List Traffic) :
    outstanding (past ++ more) = more.foldl after (outstanding past) := by
  rw [outstanding, outstanding, List.foldl_append]

theorem foldl_after_released {out rest : List Span} (blocks : List Span)
    (h : out.Perm (blocks ++ rest)) : ((blocks.map released).foldl after out).Perm rest := by
  induction blocks generalizing out with
  | nil => exact h
  | cons b blocks ih =>
    apply ih
    have hErased := h.erase b
    rwa [List.cons_append, List.erase_cons_head] at hErased

end Traffic

open Traffic (outstanding outstanding_append)

/-- The blocks above the lowest ones, so many chunks and so many big blocks. -/
def heldAbove (a : Arena) (chunks bigs : Nat) : List Span :=
  a.chunks.drop chunks ++ a.bigBlocks.drop bigs

/-- The edit leaves the lowest blocks alone, so many of each kind. -/
def Edit.Clears (a : Arena) (chunks bigs : Nat) : Edit → Prop
  | replaceBig _ => bigs ≤ a.top.bigCount - 1
  | cutTo depth => chunks ≤ (a.markAt depth).chunkCount ∧ bigs ≤ (a.markAt depth).bigCount
  | _ => True

theorem Edit.clears_zero (a : Arena) (e : Edit) : e.Clears a 0 0 := by
  cases e with
  | replaceBig block => exact Nat.zero_le _
  | cutTo depth => exact ⟨Nat.zero_le _, Nat.zero_le _⟩
  | _ => trivial

theorem drop_take_append_drop {α : Type} (xs : List α) {n k : Nat} (h : n ≤ k) :
    (xs.take k).drop n ++ xs.drop k = xs.drop n := by
  have hRest : xs.drop k = (xs.drop n).drop (k - n) := by
    rw [List.drop_drop, Nat.add_sub_cancel' h]
  rw [List.drop_take, hRest, List.take_append_drop]

/-- Putting one element in the place of another exchanges the two. -/
theorem perm_cons_set {α : Type} {xs : List α} {i : Nat} {old : α} (new : α)
    (h : xs[i]? = some old) : (new :: xs).Perm (old :: xs.set i new) := by
  induction xs generalizing i with
  | nil => cases h
  | cons x xs ih =>
    cases i with
    | zero =>
      obtain rfl : x = old := Option.some.inj h
      exact List.Perm.swap _ _ _
    | succ i =>
      have hRest : (new :: xs).Perm (old :: xs.set i new) := ih h
      calc (new :: x :: xs).Perm (x :: new :: xs) := List.Perm.swap _ _ _
        _ |>.Perm (x :: old :: xs.set i new) := hRest.cons x
        _ |>.Perm (old :: x :: xs.set i new) := List.Perm.swap _ _ _

/-- The blocks above a depth and those left by a cut are the ones that were held. -/
theorem heldAbove_perm_cutTo (a : Arena) {depth chunks bigs : Nat}
    (h : (Edit.cutTo depth).Clears a chunks bigs) :
    (a.heldAbove chunks bigs).Perm (a.blocksAbove depth ++ (a.cutTo depth).heldAbove chunks bigs) := by
  have hReversed {xs : List Span} (b : Span) : xs.reverse.count b = xs.count b := List.count_reverse
  -- Blocks go back from the top of each stack, so only the order differs.
  rw [heldAbove, ← drop_take_append_drop a.chunks h.1, ← drop_take_append_drop a.bigBlocks h.2,
    List.perm_iff_count]
  intro b
  simp only [blocksAbove, heldAbove, Arena.cutTo, List.count_append, hReversed]
  omega

/-- The blocks that are out remain the blocks held, whatever the edit; and the same goes for those
that came on top of some that the edit leaves alone. -/
theorem balance_edit {a : Arena} {e : Edit} {traffic : List Traffic} {chunks bigs : Nat}
    (hFits : e.Fits a) (hClears : e.Clears a chunks bigs) (hChunks : chunks ≤ a.chunks.length)
    (hBigs : bigs ≤ a.bigBlocks.length)
    (hBalance : (outstanding traffic).Perm (a.heldAbove chunks bigs)) :
    (outstanding (traffic ++ e.traffic a)).Perm ((a.edit e).heldAbove chunks bigs) := by
  have hChunk (block : Span) : (block :: a.heldAbove chunks bigs).Perm
      ((a.chunks ++ [block]).drop chunks ++ a.bigBlocks.drop bigs) := by
    rw [List.drop_append_of_le_length hChunks, List.append_assoc]
    exact List.perm_middle.symm
  rw [outstanding_append]
  cases e with
  | refuse _ | bump _ | extend _ | retract _ | enter | fuse _ => exact hBalance
  | openChunk block n => exact (hBalance.cons block).trans (hChunk block)
  | enterOwn block => exact (hBalance.cons block).trans (hChunk block)
  | addBig block =>
    have hBig : (a.heldAbove chunks bigs ++ [block]).Perm
        (a.chunks.drop chunks ++ (a.bigBlocks ++ [block]).drop bigs) := by
      rw [List.drop_append_of_le_length hBigs, heldAbove, List.append_assoc]
    exact (hBalance.cons block).trans ((List.perm_append_singleton block _).symm.trans hBig)
  | replaceBig block =>
    obtain ⟨last, grown, hLast, hBig, -⟩ := hFits
    obtain ⟨old, hOld, -⟩ := isBig_iff.mp hBig
    have hSlot := (bigAt?_eq_some hOld).2
    -- The block that was in the slot goes back, and the new one takes its place.
    have hAbove : (a.bigBlocks.drop bigs)[a.top.bigCount - 1 - bigs]? = some old := by
      rw [List.getElem?_drop, Nat.add_sub_cancel' hClears, hSlot]
    have hSet : (a.bigBlocks.set (a.top.bigCount - 1) block).drop bigs =
        (a.bigBlocks.drop bigs).set (a.top.bigCount - 1 - bigs) block := by
      rw [List.drop_set, if_neg (Nat.not_lt.mpr hClears)]
    have hOut : (block :: outstanding traffic).Perm
        ([old] ++ (a.edit (.replaceBig block)).heldAbove chunks bigs) := by
      calc (block :: outstanding traffic).Perm (block :: a.heldAbove chunks bigs) := hBalance.cons _
        _ |>.Perm (a.chunks.drop chunks ++ block :: a.bigBlocks.drop bigs) := List.perm_middle.symm
        _ |>.Perm (a.chunks.drop chunks ++
              old :: (a.bigBlocks.drop bigs).set (a.top.bigCount - 1 - bigs) block) :=
            (perm_cons_set block hAbove).append_left _
        _ |>.Perm (old :: (a.chunks.drop chunks ++
              (a.bigBlocks.drop bigs).set (a.top.bigCount - 1 - bigs) block)) := List.perm_middle
        _ = [old] ++ (a.edit (.replaceBig block)).heldAbove chunks bigs := by rw [← hSet]; rfl
    rw [Edit.traffic, hOld]
    exact Traffic.foldl_after_released [old] hOut
  | cutTo depth =>
    exact Traffic.foldl_after_released _ (hBalance.trans (a.heldAbove_perm_cutTo hClears))

/-- A host on which nothing has happened yet. -/
def Host.blank : Host (Traced Heap) := ⟨⟨Heap.empty, []⟩, fun _ => 0, []⟩

namespace World

variable {σ : Type} {src : BlockSource σ} {w w' : World (Traced σ)}

/-- A world in shape: its source writes the traffic down, its arena has its shape, and the blocks held
are those that are out. -/
structure InShape (src : BlockSource σ) (w : World (Traced σ)) : Prop where
  source : w.source = src.traced
  shaped : w.arena.Shaped
  balance : (outstanding w.traffic).Perm w.arena.held

/-- A world in order: it is in shape, and its blocks start on a grain. -/
structure Orderly (src : BlockSource σ) (w : World (Traced σ)) : Prop extends InShape src w where
  aligned : ∀ b ∈ w.arena.held, Size.IsWhole b.start

theorem Orderly.wellFormed (h : w.Orderly src) : w.arena.WellFormed := ⟨h.shaped, h.aligned⟩

/-- A world in shape is in order as far as its source aligns what it grants. -/
theorem InShape.orderly (h : w.InShape src) (hSound : Traffic.Sound w.traffic) : w.Orderly src :=
  ⟨h, fun b hb => hSound.apart.aligned b (h.balance.mem_iff.mpr hb)⟩

theorem Edits.inShape {e : Edit} (h : w.Edits e w') (hw : w.InShape src)
    (hDisjoint : Traffic.Disjoint w'.traffic) : w'.InShape src := by
  have hBalance : (outstanding w'.traffic).Perm w'.arena.held := by
    rw [h.traffic, h.arena]
    exact balance_edit h.fits (Edit.clears_zero _ _) (Nat.zero_le _) (Nat.zero_le _) hw.balance
  have hHeld : w'.arena.held.Pairwise Span.Disjoint :=
    hDisjoint.pairwise.perm hBalance fun hSym => hSym.symm
  refine ⟨h.source.trans hw.source, ?_, hBalance⟩
  rw [h.arena] at hHeld ⊢
  exact hw.shaped.edit h.fits hHeld

theorem Edits.orderly {e : Edit} (h : w.Edits e w') (hw : w.Orderly src)
    (hSound : Traffic.Sound w'.traffic) : w'.Orderly src :=
  (h.inShape hw.toInShape hSound.disjoint).orderly hSound

theorem Edits.traffic_grows {e : Edit} (h : w.Edits e w') : w.traffic <+: w'.traffic := by
  rw [h.traffic]
  exact List.prefix_append _ _

theorem Advances.traffic_grows {low : Nat} (h : Advances low w w') : w.traffic <+: w'.traffic := by
  induction h with
  | done => exact List.prefix_refl _
  | step first _ _ ih =>
    exact first.traffic_grows.trans ih

theorem Advances.orderly {low : Nat} (h : Advances low w w') (hw : w.Orderly src)
    (hSound : Traffic.Sound w'.traffic) : w'.Orderly src := by
  induction h with
  | done => exact hw
  | step first _ rest ih => exact ih (first.orderly hw (hSound.before rest.traffic_grows)) hSound

theorem run_cons (w : World (Traced σ)) (op : Op) (ops : List Op) :
    w.run (op :: ops) = (w.step op).2.run ops :=
  rfl

theorem run_append (w : World (Traced σ)) (ops ops' : List Op) :
    w.run (ops ++ ops') = (w.run ops).run ops' := by
  rw [run, run, run, List.foldl_append]

theorem step_source (hs : w.source = src.traced) (op : Op) : (w.step op).2.source = src.traced :=
  (step_advances hs op).source.trans hs

theorem run_source (hs : w.source = src.traced) (ops : List Op) :
    (w.run ops).source = src.traced := by
  induction ops generalizing w with
  | nil => exact hs
  | cons op ops ih =>
    rw [run_cons]
    exact ih (step_source hs op)

theorem run_traffic_grows (hs : w.source = src.traced) (ops : List Op) :
    w.traffic <+: (w.run ops).traffic := by
  induction ops generalizing w with
  | nil => exact List.prefix_refl _
  | cons op ops ih =>
    rw [run_cons]
    exact (step_advances hs op).traffic_grows.trans (ih (step_source hs op))

/-- Calls keep a world in order as long as its source does not grant what it must not. -/
theorem Orderly.run {ops : List Op} (hw : w.Orderly src)
    (hSound : Traffic.Sound (w.run ops).traffic) : (w.run ops).Orderly src := by
  induction ops generalizing w with
  | nil => exact hw
  | cons op ops ih =>
    rw [run_cons] at hSound ⊢
    have hBefore := hSound.before (run_traffic_grows (step_source hw.source op) ops)
    exact ih ((step_advances hw.source op).orderly hw hBefore) hSound

/-- What a start leaves: a fresh arena, and its first chunk in the traffic. -/
theorem exists_start {settings : Settings} {id : Nat} {host : Host (Traced σ)}
    (hStart : (start src.traced settings id host).1 = .ok w) :
    w.source = src.traced ∧ ∃ b, w.arena = fresh id settings.effectiveChunkSize settings.flags b ∧
      w.traffic = host.store.traffic ++ [.granted ⟨b, settings.effectiveChunkSize⟩] := by
  unfold start at hStart
  split at hStart
  · cases hStart
  rcases hRequest : src.request settings.effectiveChunkSize host.store.inner with ⟨_ | grant, inner⟩
  · simp [Host.acquire, BlockSource.traced, hRequest] at hStart
  · simp [Host.acquire, BlockSource.traced, hRequest] at hStart
    subst hStart
    exact ⟨rfl, grant.start, rfl, rfl⟩

theorem effectiveChunkSize_le (settings : Settings) : footprint ≤ settings.effectiveChunkSize := by
  have := Size.le_roundUp (max settings.chunkSize Settings.minChunk)
  unfold Settings.effectiveChunkSize footprint Settings.minChunk at *
  omega

theorem inShape_start {settings : Settings} {id : Nat} {host : Host (Traced σ)}
    (hStart : (start src.traced settings id host).1 = .ok w)
    (hFresh : host.store.traffic = []) : w.InShape src := by
  obtain ⟨hSource, b, hArena, hTraffic⟩ := exists_start hStart
  rw [hFresh, List.nil_append] at hTraffic
  refine ⟨hSource, ?_, ?_⟩
  · rw [hArena]
    exact shaped_fresh (Size.isWhole_roundUp _) (effectiveChunkSize_le settings)
  · rw [hArena, hTraffic]
    exact List.Perm.refl _

/-- An arena starts in order, if its first chunk starts on a grain. -/
theorem orderly_start {settings : Settings} {id : Nat} {host : Host (Traced σ)}
    (hStart : (start src.traced settings id host).1 = .ok w)
    (hFresh : host.store.traffic = []) (hSound : Traffic.Sound w.traffic) : w.Orderly src :=
  (inShape_start hStart hFresh).orderly hSound

/-- A world is in order after any run of calls on an arena that was started. -/
theorem orderly_run {settings : Settings} {id : Nat} {host : Host (Traced σ)} {ops : List Op}
    (hStart : (start src.traced settings id host).1 = .ok w) (hFresh : host.store.traffic = [])
    (hSound : Traffic.Sound (w.run ops).traffic) : (w.run ops).Orderly src := by
  have hSource : w.source = src.traced := (exists_start hStart).1
  have hBefore := hSound.before (run_traffic_grows hSource ops)
  exact (orderly_start hStart hFresh hBefore).run hSound

end World

end ArenaRegistry.Arena
