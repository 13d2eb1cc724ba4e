import ArenaRegistry.Proofs.Arena.Twins
import ArenaRegistry.Arena.Heap
import Mathlib.Data.List.Forall2

/-! The wish to panic changes reports and nothing else. An arena that panics and one that does not
stay twins through the same calls and the same writes. What succeeds on one succeeds on the other;
where a request fails on the one, the other panics with the text of the error, and the calls that pop
marks or resize the last allocation fail with the same error on both. -/

namespace ArenaRegistry.Arena

/-- The same call on two arenas. -/
inductive Op.Alike (id id' : Nat) : Op → Op → Prop
  | popMark {h h' : Handle} (same : h.Alike id id' h') : Op.Alike id id' (.popMark h) (.popMark h')
  | other {op : Op} (plain : ∀ h, op ≠ .popMark h) : Op.Alike id id' op op

/-- The same reply of two arenas, each of which names itself in its handles. -/
inductive Reply.Alike (id id' : Nat) : Reply → Reply → Prop
  | handle (depth mark : Nat) : Reply.Alike id id' (.handle ⟨id, depth, mark⟩)
      (.handle ⟨id', depth, mark⟩)
  | other {reply : Reply} (plain : ∀ h, reply ≠ .handle h) : Reply.Alike id id' reply reply

/-- The calls that heed the wish to panic. -/
def Op.heeds : Op → Bool
  | .alloc _ | .allocMin _ | .pushMark | .pushFrame _ | .pushFrameMin _ => true
  | _ => false

/-- The answers of the same call on an arena that does not panic and on one that does. -/
inductive Answers (id id' : Nat) (op : Op) : Except Failure Reply → Except Failure Reply → Prop
  | ok {reply reply' : Reply} (same : reply.Alike id id' reply') :
      Answers id id' op (.ok reply) (.ok reply')
  | panic {e : Error} {p : Panic} (heeds : op.heeds = true)
      (message : p.message = "memlifo " ++ toString id' ++ ": " ++ Reportable.message e) :
      Answers id id' op (.error (.error e)) (.error (.panic p))
  | error {e : Error} (deaf : op.heeds = false) :
      Answers id id' op (.error (.error e)) (.error (.error e))

/-- What is done to an arena: a call, or bytes that are written to memory from an address on. -/
inductive Deed
  | call (op : Op)
  | write (address : Nat) (bytes : List UInt8)

/-- The same deed done to two arenas. -/
inductive Deed.Alike (id id' : Nat) : Deed → Deed → Prop
  | call {op op' : Op} (same : op.Alike id id' op') : Deed.Alike id id' (.call op) (.call op')
  | write (address : Nat) (bytes : List UInt8) :
      Deed.Alike id id' (.write address bytes) (.write address bytes)

variable {id id' : Nat} {op op' : Op} {answer answer' : Except Failure Reply}

theorem Answers.not_error (h : Answers id id' op answer answer') (hHeeds : op.heeds = true)
    (e : Error) : answer' ≠ .error (.error e) := by
  cases h with
  | ok => nofun
  | panic => nofun
  | error deaf =>
    rw [hHeeds] at deaf
    cases deaf

theorem Answers.not_panic (h : Answers id id' op answer answer') (hDeaf : op.heeds = false)
    (p : Panic) : answer ≠ .error (.panic p) ∧ answer' ≠ .error (.panic p) := by
  cases h with
  | ok => exact ⟨nofun, nofun⟩
  | error => exact ⟨nofun, nofun⟩
  | panic heeds =>
    rw [hDeaf] at heeds
    cases heeds

namespace World

variable {σ τ : Type} {R : σ → τ → Prop} {w : World σ} {w' : World τ} {α : Type} {S : α → α → Prop}
  {f : α → Reply}

def deed (w : World σ) : Deed → World σ
  | .call op => (w.step op).2
  | .write address bytes =>
    { w with host := { w.host with
      memory := w.host.memory.paint ⟨address, bytes.length⟩ fun i => bytes.getD i 0 } }

/-- The world after some deeds. -/
def after (w : World σ) (deeds : List Deed) : World σ := deeds.foldl deed w

/-! ### Reports -/

/-- Twins answer alike and are twins afterwards. -/
def Agree (R : σ → τ → Prop) (id id' : Nat) (op : Op) (r : Except Failure Reply × World σ)
    (r' : Except Failure Reply × World τ) : Prop :=
  Answers id id' op r.1 r'.1 ∧ Twins R id id' r.2 r'.2

theorem Twins.failure (h : Twins R id id' w w') (e : Error) :
    w.failure e = .error e ∧ w'.failure e = .panic (.request id' e) := by
  have hCalm : w.arena.flags.panics = false := by rw [h.calm, Flags.panics_ofPanics]
  have hArmed : w'.arena.flags.panics = true := by
    rw [h.arena]
    exact Flags.panics_ofPanics true
  refine ⟨by simp [World.failure, hCalm], ?_⟩
  simp only [World.failure, hArmed, if_true]
  rw [h.arena]
  rfl

theorem Parallel.policed {r : Except Error α × World σ} {r' : Except Error α × World τ}
    (h : Parallel R id id' S r r') (hReply : ∀ a a', S a a' → (f a).Alike id id' (f a'))
    (hHeeds : op.heeds = true) :
    Agree R id id' op (replied f (policed r)) (replied f (policed r')) := by
  cases h with
  | ok same twins => exact ⟨.ok (hReply _ _ same), twins⟩
  | @error e w w' twins =>
    obtain ⟨hPlain, hArmed⟩ := twins.failure e
    simp only [World.policed, replied, hPlain, hArmed]
    exact ⟨.panic hHeeds rfl, twins⟩

theorem Parallel.reported {r : Except Error α × World σ} {r' : Except Error α × World τ}
    (h : Parallel R id id' S r r') (hReply : ∀ a a', S a a' → (f a).Alike id id' (f a'))
    (hDeaf : op.heeds = false) :
    Agree R id id' op (replied f (reported r)) (replied f (reported r')) := by
  cases h with
  | ok same twins => exact ⟨.ok (hReply _ _ same), twins⟩
  | error twins => exact ⟨.error hDeaf, twins⟩

theorem address_alike (a a' : Nat) (h : a = a') :
    (Reply.address a).Alike id id' (.address a') := by
  subst h
  exact .other nofun

theorem span_alike (s s' : Span) (h : s = s') : (Reply.span s).Alike id id' (.span s') := by
  subst h
  exact .other nofun

theorem handle_alike (h h' : Handle) (hOwn : OwnHandles id id' h h') :
    (Reply.handle h).Alike id id' (.handle h') := by
  obtain ⟨owner, depth, mark⟩ := h
  obtain ⟨rfl, rfl⟩ := hOwn
  exact .handle depth mark

/-! ### Calls and runs -/

theorem Twins.step (h : Twins R id id' w w') (hOp : op.Alike id id' op') :
    Agree R id id' op (w.step op) (w'.step op') := by
  cases hOp with
  | popMark same => exact (h.popMark same).reported (fun _ _ _ => .other nofun) rfl
  | other plain =>
    cases op with
    | popMark handle => exact absurd rfl (plain handle)
    | alloc size => exact (h.carve size .exact).addressOf.policed address_alike rfl
    | allocMin size => exact (h.carve size .rest).policed span_alike rfl
    | pushMark => exact h.enterMark.policed handle_alike rfl
    | pushFrame size => exact (h.enterFrame size .exact).addressOf.policed address_alike rfl
    | pushFrameMin size => exact (h.enterFrame size .rest).policed span_alike rfl
    | popFrame => exact ⟨.ok (.other nofun), h.popFrame⟩
    | expandLast increment inPlace =>
      exact (h.expandLast increment inPlace).reported address_alike rfl
    | shrinkLast decrement => exact (h.shrinkLast decrement).reported address_alike rfl
    | resizeLast size inPlace => exact (h.resizeLast size inPlace).reported address_alike rfl

theorem Twins.deed (h : Twins R id id' w w') {deed deed' : Deed} (hDeed : deed.Alike id id' deed') :
    Twins R id id' (w.deed deed) (w'.deed deed') := by
  cases hDeed with
  | call same => exact (h.step same).2
  | write address bytes =>
    refine ⟨h.number, h.calm, h.arena, h.sources, h.stores, ?_⟩
    exact congrArg (fun m : Memory => m.paint ⟨address, bytes.length⟩ fun i => bytes.getD i 0)
      h.memory

theorem Twins.after (h : Twins R id id' w w') {deeds deeds' : List Deed}
    (hDeeds : List.Forall₂ (Deed.Alike id id') deeds deeds') :
    Twins R id id' (w.after deeds) (w'.after deeds') := by
  induction hDeeds generalizing w w' with
  | nil => exact h
  | cons hFirst _ ih => exact ih (h.deed hFirst)

end World

variable {σ τ : Type} {R : σ → τ → Prop} {src : BlockSource σ} {src' : BlockSource τ} {host : Host σ}
  {host' : Host τ} {w : World σ}

theorem start_twins (id' : Nat) {chunkSize : Nat} (hAlike : BlockSource.Alike R src src')
    (hStores : R host.store host'.store) (hMemory : host'.memory = host.memory)
    (hStart : (start src ⟨chunkSize, false⟩ id host).1 = .ok w) :
    ∃ w', (start src' ⟨chunkSize, true⟩ id' host').1 = .ok w' ∧ World.Twins R id id' w w' := by
  have hValidate : Settings.validate ⟨chunkSize, true⟩ = Settings.validate ⟨chunkSize, false⟩ := rfl
  have hChunk : Settings.effectiveChunkSize ⟨chunkSize, true⟩ =
      Settings.effectiveChunkSize ⟨chunkSize, false⟩ := rfl
  unfold start at hStart ⊢
  rw [hValidate]
  cases hValid : Settings.validate ⟨chunkSize, false⟩ with
  | error e => rw [hValid] at hStart; cases hStart
  | ok =>
    simp only [hValid, hChunk] at hStart ⊢
    generalize Settings.effectiveChunkSize ⟨chunkSize, false⟩ = bytes at hStart ⊢
    obtain ⟨hGrant, hAfter⟩ := hAlike.request hStores bytes
    unfold Host.acquire at hStart ⊢
    rcases hAnswer : src.request bytes host.store with ⟨_ | grant, store⟩ <;>
      rcases hAnswer' : src'.request bytes host'.store with ⟨_ | grant', store'⟩ <;>
      rw [hAnswer, hAnswer'] at hGrant hAfter <;> rw [hAnswer] at hStart <;> cases hGrant
    · cases hStart
    · cases hStart
      refine ⟨_, rfl, rfl, rfl, rfl, hAlike, hAfter, ?_⟩
      exact congrArg (fun m => Memory.paint m _ _) hMemory

/-- An arena is started without the wish to panic and another one with it, on sources that answer
alike. After the same deeds the two are in the same state, and the same call gets the same answer
from both, except that requests which fail on the first panic on the second. -/
theorem panics_change_reports_only {chunkSize : Nat} (hAlike : BlockSource.Alike R src src')
    (hStores : R host.store host'.store) (hMemory : host'.memory = host.memory)
    (hStart : (start src ⟨chunkSize, false⟩ id host).1 = .ok w) :
    ∃ w', (start src' ⟨chunkSize, true⟩ id' host').1 = .ok w' ∧
      ∀ deeds deeds', List.Forall₂ (Deed.Alike id id') deeds deeds' →
        World.Twins R id id' (w.after deeds) (w'.after deeds') ∧
        ∀ op op', op.Alike id id' op' →
          Answers id id' op ((w.after deeds).step op).1 ((w'.after deeds').step op').1 ∧
          (op.heeds = true → ∀ e, ((w'.after deeds').step op').1 ≠ .error (.error e)) ∧
          (op.heeds = false → ∀ p, ((w.after deeds).step op).1 ≠ .error (.panic p) ∧
            ((w'.after deeds').step op').1 ≠ .error (.panic p)) := by
  obtain ⟨w', hStart', hTwins⟩ := start_twins id' hAlike hStores hMemory hStart
  refine ⟨w', hStart', fun deeds deeds' hDeeds => ?_⟩
  have hAfter := hTwins.after hDeeds
  refine ⟨hAfter, fun op op' hOp => ?_⟩
  obtain ⟨hAnswers, -⟩ := hAfter.step hOp
  exact ⟨hAnswers, hAnswers.not_error, hAnswers.not_panic⟩

theorem alike_self (src : BlockSource σ) : BlockSource.Alike Eq src src :=
  ⟨by rintro s _ rfl n; exact ⟨rfl, rfl⟩, by rintro s _ rfl block; rfl⟩

/-- A frame that is written to, a mark that is popped by the handle of each arena, and a big block;
then a request for nothing, and one to grow the big block where it is. -/
theorem panics_change_reports_only_limited :
    let host : Host Heap := ⟨Heap.empty, fun _ => 0, []⟩
    let deeds (id : Nat) : List Deed := [.call (.pushFrame 16), .write 0x10000000070 [1, 2, 3],
      .call .pushMark, .call (.popMark ⟨id, 2, 2⟩), .call (.alloc 9000)]
    ∃ w w', (start Heap.limited ⟨0, false⟩ 1 host).1 = .ok w ∧
      (start Heap.limited ⟨0, true⟩ 2 host).1 = .ok w' ∧
      World.Twins Eq 1 2 (w.after (deeds 1)) (w'.after (deeds 2)) ∧
      ((w.after (deeds 1)).step (.alloc 0)).1 = .error (.error (.invalidSize 0)) ∧
      (∃ p, ((w'.after (deeds 2)).step (.alloc 0)).1 = .error (.panic p) ∧
        p.message = "memlifo 2: Invalid allocation size: 0 bytes") ∧
      ((w.after (deeds 1)).step (.expandLast 8 true)).1 =
        .error (.error (.cannotExpandInPlace 8)) ∧
      ((w'.after (deeds 2)).step (.expandLast 8 true)).1 =
        .error (.error (.cannotExpandInPlace 8)) := by
  intro host deeds
  obtain ⟨w', hStart', hAll⟩ := panics_change_reports_only (alike_self Heap.limited)
    (rfl : host.store = host.store) rfl (rfl : (start Heap.limited ⟨0, false⟩ 1 host).1 = .ok _)
  have hHandle : Handle.Alike 1 2 ⟨1, 2, 2⟩ ⟨2, 2, 2⟩ := ⟨rfl, rfl, by decide⟩
  have hDeeds : List.Forall₂ (Deed.Alike 1 2) (deeds 1) (deeds 2) :=
    .cons (.call (.other nofun)) (.cons (.write _ _) (.cons (.call (.other nofun))
      (.cons (.call (.popMark hHandle)) (.cons (.call (.other nofun)) .nil))))
  obtain ⟨hTwins, -⟩ := hAll _ _ hDeeds
  cases hStart'
  exact ⟨_, _, rfl, rfl, hTwins, by decide +kernel,
    ⟨.request 2 (.invalidSize 0), by decide +kernel, by decide +kernel⟩, by decide +kernel,
    by decide +kernel⟩

end ArenaRegistry.Arena
