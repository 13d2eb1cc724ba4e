import ArenaRegistry.Proofs.Registry.Turn

/-! What holds of the records of a registry, whatever calls have been made on it. Addresses are
distinct and none is null, pinned records carry no tag, counted ones count at least one reference,
and the numbers that a registry reports of itself agree. -/

namespace ArenaRegistry.Registry

/-- A record in agreement with its mode. -/
structure Record.Sound (record : Record) : Prop where
  untagged : record.mode = .pinned → record.tag = none
  referenced : ∀ n, record.mode = .counted n → 1 ≤ n ∧ n ≤ Mode.maxReferences

/-- A registry with at most one record of each address, none of null, and all of them sound. -/
structure WellFormed (r : Registry) : Prop where
  distinct : (r.records.map Prod.fst).Nodup
  nonnull : ∀ entry ∈ r.records, entry.1 ≠ 0
  sound : ∀ entry ∈ r.records, entry.2.Sound

/-- The numbers of pointers that a registry reports agree. -/
structure Tallied (r : Registry) : Prop where
  modes : r.stats.pointers = r.stats.uncounted + r.stats.counted + r.stats.pinned
  size : r.stats.pointers = r.size
  listed : r.stats.pointers = (r.enumerate none).length

/-! ### Records -/

theorem Record.enter_sound (tag : Option Tag) {mode : Mode} (h : mode.IsFirst) :
    (Record.enter tag mode).Sound := by
  rcases h with rfl | rfl | rfl
  · exact ⟨by simp [enter], by simp [enter]⟩
  · constructor
    · simp [enter]
    · intro n hMode
      cases hMode
      decide
  · exact ⟨fun _ => rfl, by simp [enter]⟩

theorem Mode.oneMore_bounds (n : Nat) : 1 ≤ oneMore n ∧ oneMore n ≤ maxReferences := by
  simp only [oneMore, maxReferences]
  omega

theorem Record.afterRelease_sound {record left : Record} (h : record.Sound)
    (hLeft : record.afterRelease = some left) : left.Sound := by
  obtain ⟨tag, mode⟩ := record
  cases mode with
  | uncounted => cases hLeft
  | pinned => cases hLeft; exact h
  | counted n =>
    simp only [afterRelease] at hLeft
    split at hLeft
    next hMany =>
      cases hLeft
      constructor
      · simp
      · intro m hMode
        have hBound := h.referenced n rfl
        cases hMode
        omega
    next => cases hLeft

/-- A call that turns a sound record leaves a sound one, and never one of null. -/
theorem Turns.sound {address : UInt64} {before after : Option Record}
    (h : Turns address before after) (hBefore : ∀ record ∈ before, address ≠ 0 ∧ record.Sound) :
    ∀ record ∈ after, address ≠ 0 ∧ record.Sound := by
  intro record hAfter
  cases h with
  | enter tag nonnull first free =>
    cases hAfter
    exact ⟨nonnull, Record.enter_sound tag first⟩
  | share tag n =>
    obtain ⟨hNonnull, hSound⟩ := hBefore _ rfl
    cases hAfter
    refine ⟨hNonnull, by simp, ?_⟩
    intro m hMode
    cases hMode
    exact Mode.oneMore_bounds n
  | release existing =>
    obtain ⟨hNonnull, hSound⟩ := hBefore _ rfl
    exact ⟨hNonnull, existing.afterRelease_sound hSound hAfter⟩
  | retag existing tag free =>
    obtain ⟨hNonnull, hSound⟩ := hBefore _ rfl
    cases hAfter
    exact ⟨hNonnull, fun hMode => absurd hMode free, hSound.referenced⟩
  | forget => cases hAfter

/-! ### Registries -/

variable {r r' : Registry} {op : Op}

theorem empty_wellFormed (settings : Settings) : (empty settings).WellFormed :=
  ⟨.nil, by simp [empty], by simp [empty]⟩

theorem WellFormed.record? {address : UInt64} {record : Record} (h : r.WellFormed)
    (hRecord : r.record? address = some record) : address ≠ 0 ∧ record.Sound :=
  have hMem := Records.mem_of_find? hRecord
  ⟨h.nonnull _ hMem, h.sound _ hMem⟩

theorem WellFormed.record?_null (h : r.WellFormed) : r.record? 0 = none := by
  cases hRecord : r.record? 0 with
  | none => rfl
  | some record => exact absurd rfl (h.record? hRecord).1

theorem WellFormed.leave {address : UInt64} {after : Option Record} (h : r.WellFormed)
    (hAfter : ∀ record ∈ after, address ≠ 0 ∧ record.Sound) :
    (r.leave address after).WellFormed := by
  cases after with
  | none =>
    have hSub : (r.records.remove address).Sublist r.records := List.filter_sublist
    exact ⟨Records.nodup_remove address h.distinct, fun entry hMem => h.nonnull entry (hSub.mem hMem),
      fun entry hMem => h.sound entry (hSub.mem hMem)⟩
  | some record =>
    obtain ⟨hNonnull, hSound⟩ := hAfter record rfl
    refine ⟨Records.nodup_put address record h.distinct, ?_, ?_⟩
    · intro entry hMem
      rcases Records.mem_put hMem with rfl | hOld
      · exact hNonnull
      · exact h.nonnull entry hOld
    · intro entry hMem
      rcases Records.mem_put hMem with rfl | hOld
      · exact hSound
      · exact h.sound entry hOld

theorem Leads.wellFormed (hLeads : r.Leads op r') (h : r.WellFormed) : r'.WellFormed := by
  cases hLeads with
  | same => exact h
  | turn address target turns => exact h.leave (turns.sound fun _ hRecord => h.record? hRecord)
  | define => exact ⟨h.distinct, h.nonnull, h.sound⟩
  | undefine => exact ⟨h.distinct, h.nonnull, h.sound⟩
  | intern => exact ⟨h.distinct, h.nonnull, h.sound⟩
  | clear => exact ⟨.nil, by simp [Registry.clear], by simp [Registry.clear]⟩

theorem WellFormed.step (h : r.WellFormed) (op : Op) : (r.step op).2.WellFormed :=
  (r.step_leads op).wellFormed h

theorem WellFormed.run (h : r.WellFormed) (ops : List Op) : (r.run ops).WellFormed := by
  induction ops generalizing r with
  | nil => exact h
  | cons op ops ih => exact ih (h.step op)

/-! ### Numbers -/

theorem countMode_cons (r : Registry) (entry : UInt64 × Record) (mode : Mode) :
    countMode { r with records := entry :: r.records } mode =
      r.countMode mode + if entry.2.mode.same mode then 1 else 0 :=
  List.countP_cons

/-- Every record is in one of the three modes. -/
theorem countMode_total (r : Registry) :
    r.countMode .uncounted + r.countMode (.counted 0) + r.countMode .pinned = r.size := by
  obtain ⟨records, subtags, atoms, settings⟩ := r
  induction records with
  | nil => rfl
  | cons entry records ih =>
    have hKind (mode : Mode) := countMode_cons ⟨records, subtags, atoms, settings⟩ entry mode
    simp only [hKind, size, List.length_cons] at ih ⊢
    cases entry.2.mode <;> simp only [Mode.same] <;> simp <;> omega

theorem enumerate_none (r : Registry) :
    r.enumerate none = r.records.map fun entry => entry.2.pointer entry.1 := by
  have hAll : r.records.filter (fun entry => listedUnder none entry.2) = r.records :=
    List.filter_eq_self.mpr fun _ _ => rfl
  rw [enumerate, hAll]

theorem tallied (r : Registry) : r.Tallied where
  modes := r.countMode_total.symm
  size := rfl
  listed := by rw [enumerate_none, List.length_map]; rfl

/-! ### Runs -/

theorem create_eq_ok {settings : Settings} (h : create settings = .ok r) : r = empty settings := by
  unfold create at h
  split at h
  · cases h; rfl
  · cases h

theorem run_wellFormed_of_create {settings : Settings} (hCreate : create settings = .ok r)
    (ops : List Op) : (r.run ops).WellFormed := by
  rw [create_eq_ok hCreate]
  exact (empty_wellFormed settings).run ops

/-- Whatever calls are made on a registry, its records stay well formed and its numbers agree. -/
theorem run_wellFormed {settings : Settings} (hCreate : create settings = .ok r) (ops : List Op) :
    (r.run ops).WellFormed ∧ (r.run ops).Tallied := by
  have hEmpty : r.WellFormed := create_eq_ok hCreate ▸ empty_wellFormed settings
  exact ⟨hEmpty.run ops, (r.run ops).tallied⟩

/-- Calls that count, release, pin, cast and overwrite, and two that fail. -/
def mixedCalls : List Op :=
  [.registerCounted 16 (some ⟨"node"⟩), .registerCounted 16 (some ⟨"node"⟩), .pin 32,
    .unregister 16, .register 0 (some ⟨"node"⟩), .cast (.built (.wrap 32 none)) (some ⟨"leaf"⟩),
    .unregisterTagged 16 (some ⟨"leaf"⟩), .register 48 none, .register 16 (some ⟨"leaf"⟩),
    .unregister 48]

theorem run_wellFormed_mixed :
    create .standard = .ok (empty .standard) ∧
      ((empty .standard).run mixedCalls).records =
        [(16, ⟨some ⟨"leaf"⟩, .uncounted⟩), (32, ⟨none, .pinned⟩)] ∧
      ((empty .standard).run mixedCalls).WellFormed ∧ ((empty .standard).run mixedCalls).Tallied :=
  have hCreate : create .standard = .ok (empty .standard) := rfl
  ⟨hCreate, by decide +kernel, run_wellFormed hCreate mixedCalls⟩

end ArenaRegistry.Registry
