import ArenaRegistry.Arena.Op
import ArenaRegistry.Arena.Lifetime

/-! What a call can do to an arena, said once. An edit is one change of an arena, together with the
block that was granted for it; `Edit.Fits` says when the calls make it. On a source whose traffic is
written down, each function on worlds leads from one world to the next by a few edits, and every
invariant of arenas is proved for edits alone. -/

namespace ArenaRegistry.Arena

/-- One change of an arena. -/
inductive Edit
  /-- A request for so many bytes was refused. -/
  | refuse (size : Nat)
  | bump (n : Nat)
  | extend (n : Nat)
  | retract (n : Nat)
  | openChunk (block : Span) (n : Nat)
  | addBig (block : Span)
  | replaceBig (block : Span)
  /-- A mark is pushed in the current chunk. -/
  | enter
  /-- A mark is pushed at the start of a chunk of its own. -/
  | enterOwn (block : Span)
  /-- A mark and an allocation of `n` bytes are carved from the current chunk at once. -/
  | fuse (n : Nat)
  | cutTo (depth : Nat)
deriving DecidableEq, Repr

/-- The arena after an edit. -/
def edit (a : Arena) : Edit → Arena
  | .refuse _ => a
  | .bump n => a.bump n
  | .extend n => a.extend n
  | .retract n => a.retract n
  | .openChunk block n => a.openChunk block n
  | .addBig block => a.addBig block
  | .replaceBig block => a.replaceBig block
  | .enter => a.pushMark a.top.chunkCount (a.top.free + footprint) none
  | .enterOwn block => (a.addChunk block).pushMark (a.chunks.length + 1) footprint none
  | .fuse n =>
    a.pushMark a.top.chunkCount (a.top.free + footprint + n)
      (some (a.chunk.start + (a.top.free + footprint)))
  | .cutTo depth => a.cutTo depth

namespace Edit

/-- The block that was granted for an edit. -/
def block? : Edit → Option Span
  | openChunk block _ | addBig block | replaceBig block | enterOwn block => some block
  | _ => none

/-- What goes between the arena and its source in an edit. -/
def traffic (a : Arena) : Edit → List Traffic
  | refuse size => [.refused size]
  | openChunk block _ | addBig block | enterOwn block => [.granted block]
  | replaceBig block => .granted block :: a.topBig?.toList.map .released
  | cutTo depth => (a.blocksAbove depth).map .released
  | _ => []

/-- When an edit is made. Sizes are whole, or they are the rest of something: `alloc_min` takes what
is left of a chunk, and a resize gives back what is left over. -/
def Fits (a : Arena) : Edit → Prop
  | refuse _ => True
  | bump n => 0 < n ∧ n ≤ a.remaining ∧ (Size.IsWhole n ∨ n = a.remaining)
  | extend n =>
    Size.IsWhole n ∧ n ≤ a.remaining ∧ ∃ last, a.top.last = some last ∧ a.isBig last = false
  | retract n => ∃ last, a.top.last = some last ∧ a.isBig last = false ∧ n ≤ a.sizeOfLast last ∧
      (Size.IsWhole n ∨ Size.IsWhole (a.sizeOfLast last - n))
  | openChunk block n => Size.IsWhole n ∧ 0 < n ∧ a.route n = .chunk block.size
  | addBig block => Size.IsWhole block.size ∧ 0 < block.size ∧ a.route block.size = .big
  | replaceBig block => ∃ last grown, a.top.last = some last ∧ a.isBig last = true ∧
      Size.IsWhole grown ∧ block.size = a.sizeOfLast last + grown
  | enter => footprint ≤ a.remaining
  | enterOwn block => a.remaining < footprint ∧ block.size = a.chunkSize
  | fuse n => 0 < n ∧ n + footprint ≤ a.remaining ∧ (Size.IsWhole n ∨ n + footprint = a.remaining)
  | cutTo depth => depth ≤ a.depth

/-- The edit serves a request with the bytes of a span. -/
def Carves (a : Arena) (span : Span) : Edit → Prop
  | bump n => span = ⟨a.nextFree, n⟩
  | openChunk block n => span = ⟨block.start, n⟩
  | addBig block => span = block
  | _ => False

/-- The edit pushes a mark and nothing else. -/
def Enters : Edit → Prop
  | enter | enterOwn _ => True
  | _ => False

end Edit

namespace World

variable {σ : Type}

/-- What went between the arena and its source so far. -/
def traffic (w : World (Traced σ)) : List Traffic := w.host.store.traffic

/-- Memory as the world has it. -/
def memory (w : World σ) : Memory := w.host.memory

/-- An edit that fits leads from one world to another: what changes besides the arena is the
traffic, and memory inside the block that was granted. -/
structure Edits (w : World (Traced σ)) (e : Edit) (w' : World (Traced σ)) : Prop where
  fits : e.Fits w.arena
  source : w'.source = w.source
  arena : w'.arena = w.arena.edit e
  traffic : w'.traffic = w.traffic ++ e.traffic w.arena
  memory : ∀ address, (∀ block ∈ e.block?, ¬block.Contains address) →
    w'.memory address = w.memory address

/-- Edits lead from one world to another, none of which cuts the mark stack below the mark at depth
`low`. -/
inductive Advances (low : Nat) : World (Traced σ) → World (Traced σ) → Prop
  | done (w : World (Traced σ)) : Advances low w w
  | step {w w₁ w' : World (Traced σ)} {e : Edit} (first : w.Edits e w₁)
      (above : ∀ depth, e = .cutTo depth → low ≤ depth) (rest : Advances low w₁ w') :
      Advances low w w'

theorem Edits.advances {w w' : World (Traced σ)} {e : Edit} {low : Nat} (h : w.Edits e w')
    (above : ∀ depth, e = .cutTo depth → low ≤ depth) : Advances low w w' :=
  .step h above (.done w')

theorem Advances.trans {w w₁ w' : World (Traced σ)} {low : Nat} (h : Advances low w w₁)
    (h' : Advances low w₁ w') : Advances low w w' := by
  induction h with
  | done => exact h'
  | step first above _ ih => exact .step first above (ih h')

theorem Advances.source {w w' : World (Traced σ)} {low : Nat} (h : Advances low w w') :
    w'.source = w.source := by
  induction h with
  | done => rfl
  | step first _ _ ih => rw [ih, first.source]

/-! ### The parts of a world -/

section Parts

variable (w : World (Traced σ)) (a : Arena) (e : Event) (source target size : Nat)

@[simp] theorem withArena_arena : (w.withArena a).arena = a := rfl
@[simp] theorem withArena_source : (w.withArena a).source = w.source := rfl
@[simp] theorem withArena_traffic : (w.withArena a).traffic = w.traffic := rfl
@[simp] theorem withArena_memory : (w.withArena a).memory = w.memory := rfl
@[simp] theorem note_arena : (w.note e).arena = w.arena := rfl
@[simp] theorem note_source : (w.note e).source = w.source := rfl
@[simp] theorem note_traffic : (w.note e).traffic = w.traffic := rfl
@[simp] theorem note_memory : (w.note e).memory = w.memory := rfl
@[simp] theorem copy_arena : (w.copy source target size).arena = w.arena := rfl
@[simp] theorem copy_source : (w.copy source target size).source = w.source := rfl
@[simp] theorem copy_traffic : (w.copy source target size).traffic = w.traffic := rfl

@[simp] theorem copy_memory :
    (w.copy source target size).memory = w.memory.copy source target size := rfl

@[simp] theorem release_arena (blocks : List Span) : (w.release blocks).arena = w.arena := rfl
@[simp] theorem release_source (blocks : List Span) : (w.release blocks).source = w.source := rfl
@[simp] theorem release_memory (blocks : List Span) : (w.release blocks).memory = w.memory := rfl

end Parts

variable {src : BlockSource σ} {w : World (Traced σ)}

theorem release_traffic (hs : w.source = src.traced) (blocks : List Span) :
    (w.release blocks).traffic = w.traffic ++ blocks.map .released := by
  have hFold : ∀ (blocks : List Span) (s : Traced σ),
      (blocks.foldl (fun store block => src.traced.release block store) s).traffic =
        s.traffic ++ blocks.map .released := by
    intro blocks
    induction blocks with
    | nil => intro s; simp
    | cons b blocks ih =>
      intro s
      rw [List.foldl_cons, ih]
      simp [BlockSource.traced]
  simpa [traffic, World.release, Host.release, hs] using hFold blocks w.host.store

end World

end ArenaRegistry.Arena
