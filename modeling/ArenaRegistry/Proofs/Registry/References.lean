import ArenaRegistry.Proofs.Registry.WellFormed

/-! Counts of references are exact. While an address is registered with counted references, each
registration under a fitting tag adds one and each release drops one, however these are mixed with
calls on other addresses and with definitions that change which tags fit. -/

namespace ArenaRegistry.Registry

/-- A registration with counted references of an address. -/
def Op.shares (address : UInt64) : Op → Bool
  | .registerCounted other _ => other == address
  | _ => false

/-- A call that drops a reference, whichever way it names the address. -/
def Op.isRelease : Op → Bool
  | .unregister _ | .unregisterTagged _ _ | .unregisterValue _ _ | .unregisterAnyOf _ _ => true
  | _ => false

/-- A call that drops a reference to an address. -/
def Op.releases (address : UInt64) (op : Op) : Bool :=
  op.isRelease && op.target? == some address

/-- The count of references after some calls, from `n` before them. -/
def running (n : Nat) (address : UInt64) (ops : List Op) : Nat :=
  n + ops.countP (·.shares address) - ops.countP (·.releases address)

/-- The running count stays between one and the largest count, after each of the calls. -/
def InRange (n : Nat) (address : UInt64) (ops : List Op) : Prop :=
  ∀ k ≤ ops.length, 1 ≤ running n address (ops.take k) ∧
    running n address (ops.take k) ≤ Mode.maxReferences

variable {r : Registry} {address : UInt64} {tag : Option Tag} {n : Nat} {op : Op} {ops : List Op}

/-- A call that takes part in the counting of an address registered under a tag, or leaves the
address alone. -/
inductive Partakes (r : Registry) (address : UInt64) (tag : Option Tag) : Op → Prop
  | share (given : Option Tag)
      (fits : r.subtags.compatible (Pointer.properTag given) tag = true) :
      Partakes r address tag (.registerCounted address given)
  | release {op : Op} (releases : op.releases address = true)
      (succeeds : (r.step op).1.isOk = true) : Partakes r address tag op
  | aside {op : Op} (apart : ¬op.Touches address) : Partakes r address tag op

/-- Calls each of which partakes at the time when it is made. -/
def Mixes (address : UInt64) (tag : Option Tag) : Registry → List Op → Prop
  | _, [] => True
  | r, op :: ops => r.Partakes address tag op ∧ Mixes address tag (r.step op).2 ops

/-! ### The running count -/

theorem Op.touches_of_shares (h : op.shares address = true) : op.Touches address := by
  cases op with
  | registerCounted other given =>
    have hOther : other = address := by simpa [shares] using h
    exact .inr (congrArg some hOther)
  | _ => cases h

theorem Op.touches_of_releases (h : op.releases address = true) : op.Touches address := by
  simp only [releases, Bool.and_eq_true, beq_iff_eq] at h
  exact .inr h.2

theorem Op.shares_of_releases (h : op.releases address = true) : op.shares address = false := by
  cases op with
  | registerCounted => cases h
  | _ => rfl

theorem running_cons (h : 1 ≤ running n address [op]) (ops : List Op) :
    running n address (op :: ops) = running (running n address [op]) address ops := by
  simp only [running, List.countP_cons, List.countP_nil] at h ⊢
  omega

theorem running_append (h : 1 ≤ running n address ops) (op : Op) :
    running n address (ops ++ [op]) = running (running n address ops) address [op] := by
  simp only [running, List.countP_append, List.countP_cons, List.countP_nil] at h ⊢
  omega

theorem running_share (n : Nat) (address : UInt64) (given : Option Tag) :
    running n address [.registerCounted address given] = n + 1 := by
  simp [running, Op.shares, Op.releases, Op.isRelease]

theorem running_release (n : Nat) (h : op.releases address = true) :
    running n address [op] = n - 1 := by
  simp [running, Op.shares_of_releases h, h]

theorem running_aside (n : Nat) (h : ¬op.Touches address) : running n address [op] = n := by
  have hShares : op.shares address = false := by
    simpa using fun hShares => h (Op.touches_of_shares hShares)
  have hReleases : op.releases address = false := by
    simpa using fun hReleases => h (Op.touches_of_releases hReleases)
  simp [running, hShares, hReleases]

/-! ### One call -/

/-- The record of an address with so many references; without any it has none. -/
def Record.counting (tag : Option Tag) (n : Nat) : Option Record :=
  if n = 0 then none else some ⟨tag, .counted n⟩

theorem registerCounted_of_counted {given : Option Tag} (hNonnull : address ≠ 0)
    (hRecord : r.record? address = some ⟨tag, .counted n⟩)
    (hFits : r.subtags.compatible (Pointer.properTag given) tag = true) :
    (r.registerCounted address given).2 =
      r.leave address (some ⟨tag, .counted (Mode.oneMore n)⟩) := by
  have hVerdict : r.verdict address (Pointer.wrap address given).tag (.counted 1) =
      .addReference ⟨tag, .counted n⟩ n := by
    simp [verdict, hRecord, Pointer.wrap, hFits]
  simp only [registerCounted, registerAs, if_neg hNonnull, hVerdict]
  rfl

theorem unregisterTagged_of_isOk {expected : Option Tag}
    (hOk : (r.unregisterTagged address expected).1.isOk = true) :
    ∃ record, r.record? address = some record ∧
      (r.unregisterTagged address expected).2 = r.leave address record.afterRelease := by
  rcases r.unregisterTagged_cases address expected with ⟨e, hFails⟩ | ⟨record, hRecord, -, hStep⟩
  · rw [hFails] at hOk
    cases hOk
  · exact ⟨record, hRecord, congrArg Prod.snd hStep⟩

theorem releasePointer_of_isOk {p : Pointer} (hOk : (r.releasePointer p).1.isOk = true) :
    ∃ record, r.record? p.address = some record ∧
      (r.releasePointer p).2 = r.leave p.address record.afterRelease := by
  rcases r.releasePointer_cases p with ⟨e, hFails⟩ | ⟨record, hRecord, -, hStep⟩
  · rw [hFails] at hOk
    cases hOk
  · exact ⟨record, hRecord, congrArg Prod.snd hStep⟩

theorem unregisterValue_of_isOk {v : Pointer.Value} {expected : Option Tag}
    (hNonnull : address ≠ 0) (hAddress : v.address.toOption = some address)
    (hOk : (r.unregisterValue v expected).1.isOk = true) :
    ∃ record, r.record? address = some record ∧
      (r.unregisterValue v expected).2 = r.leave address record.afterRelease := by
  rcases r.unregisterValue_cases v expected with ⟨e, hFails⟩ | ⟨p, hUnwrap, hRest⟩
  · rw [hFails] at hOk
    cases hOk
  · obtain rfl := address_eq_of_pointer (unwrapTagged_eq_ok hUnwrap) hAddress
    rcases hRest with ⟨hNull, -⟩ | ⟨-, hStep⟩
    · exact absurd hNull hNonnull
    · rw [hStep] at hOk ⊢
      exact releasePointer_of_isOk hOk

theorem unregisterAnyOf_of_isOk {v : Pointer.Value} {tags : List Tag}
    (hAddress : v.address.toOption = some address)
    (hOk : (r.unregisterAnyOf v tags).1.isOk = true) :
    ∃ record, r.record? address = some record ∧
      (r.unregisterAnyOf v tags).2 = r.leave address record.afterRelease := by
  rcases r.unregisterAnyOf_cases v tags with ⟨e, hFails⟩ | ⟨p, hUnwrap, hStep⟩
  · rw [hFails] at hOk
    cases hOk
  · obtain rfl := address_eq_of_pointer (unwrapAnyOf_eq_ok hUnwrap) hAddress
    rw [hStep] at hOk ⊢
    exact releasePointer_of_isOk hOk

theorem isOk_map {α β : Type} (f : α → β) (x : Except PointerError α) :
    (x.map f).isOk = x.isOk := by
  cases x <;> rfl

/-- A release that succeeds leaves of the record what one release leaves of it. -/
theorem step_of_releases (hNonnull : address ≠ 0) (hReleases : op.releases address = true)
    (hOk : (r.step op).1.isOk = true) :
    ∃ record, r.record? address = some record ∧
      (r.step op).2 = r.leave address record.afterRelease := by
  simp only [Op.releases, Bool.and_eq_true, beq_iff_eq] at hReleases
  obtain ⟨hRelease, hTarget⟩ := hReleases
  cases op with
  | unregister other =>
    cases hTarget
    exact unregisterTagged_of_isOk ((isOk_map _ _).symm.trans hOk)
  | unregisterTagged other expected =>
    cases hTarget
    exact unregisterTagged_of_isOk ((isOk_map _ _).symm.trans hOk)
  | unregisterValue value expected =>
    exact unregisterValue_of_isOk hNonnull hTarget ((isOk_map _ _).symm.trans hOk)
  | unregisterAnyOf value tags =>
    exact unregisterAnyOf_of_isOk hTarget ((isOk_map _ _).symm.trans hOk)
  | _ => cases hRelease

theorem Record.afterRelease_counted (tag : Option Tag) (h : 1 ≤ n) :
    Record.afterRelease ⟨tag, .counted n⟩ = Record.counting tag (n - 1) := by
  unfold afterRelease counting
  by_cases hMany : 1 < n
  · have hRest : n - 1 ≠ 0 := by omega
    simp [hMany, hRest]
  · have hRest : n - 1 = 0 := by omega
    simp [hMany, hRest]

/-- A call that partakes leaves the address with the running count of references. -/
theorem Partakes.step_record? (h : r.WellFormed)
    (hRecord : r.record? address = some ⟨tag, .counted n⟩) (hPartakes : r.Partakes address tag op)
    (hMax : running n address [op] ≤ Mode.maxReferences) :
    (r.step op).2.record? address = Record.counting tag (running n address [op]) := by
  obtain ⟨hNonnull, hSound⟩ := h.record? hRecord
  have hOne : 1 ≤ n := (hSound.referenced n rfl).1
  cases hPartakes with
  | share given fits =>
    rw [running_share] at hMax ⊢
    have hStep : (r.step (.registerCounted address given)).2 =
        r.leave address (some ⟨tag, .counted (Mode.oneMore n)⟩) :=
      registerCounted_of_counted hNonnull hRecord fits
    rw [hStep, record?_leave, if_pos rfl, Mode.oneMore, Nat.min_eq_left hMax]
    rfl
  | release releases succeeds =>
    obtain ⟨record, hExisting, hStep⟩ := step_of_releases hNonnull releases succeeds
    rw [hRecord] at hExisting
    cases hExisting
    rw [running_release n releases, hStep, record?_leave, if_pos rfl,
      Record.afterRelease_counted tag hOne]
  | aside apart =>
    have hMany : n ≠ 0 := by omega
    rw [running_aside n apart, step_record?_of_not_touches apart, hRecord, Record.counting,
      if_neg hMany]

/-! ### Runs -/

theorem Mixes.take (h : Mixes address tag r ops) (k : Nat) :
    Mixes address tag r (ops.take k) := by
  induction ops generalizing r k with
  | nil => simpa using h
  | cons op ops ih =>
    cases k with
    | zero => trivial
    | succ k => exact ⟨h.1, ih h.2 k⟩

theorem InRange.tail (h : InRange n address (op :: ops)) (hOne : 1 ≤ running n address [op]) :
    InRange (running n address [op]) address ops := by
  intro k hk
  have hLater := h (k + 1) (by simpa using hk)
  rwa [List.take_succ_cons, running_cons hOne] at hLater

/-- While the running count is in range, it is the count of the record. -/
theorem Mixes.run_record? (h : r.WellFormed)
    (hRecord : r.record? address = some ⟨tag, .counted n⟩) (hMixes : Mixes address tag r ops)
    (hRange : InRange n address ops) :
    (r.run ops).record? address = some ⟨tag, .counted (running n address ops)⟩ := by
  induction ops generalizing r n with
  | nil => exact hRecord
  | cons op ops ih =>
    obtain ⟨hPartakes, hRest⟩ := hMixes
    obtain ⟨hOne, hMax⟩ := hRange 1 (by simp)
    rw [List.take_succ_cons, List.take_zero] at hOne hMax
    have hMany : running n address [op] ≠ 0 := by omega
    have hStep := hPartakes.step_record? h hRecord hMax
    rw [Record.counting, if_neg hMany] at hStep
    rw [running_cons hOne]
    exact ih (h.step op) hStep hRest (hRange.tail hOne)

theorem InRange.take (h : InRange n address ops) {k : Nat} (hk : k ≤ ops.length) :
    InRange n address (ops.take k) := by
  intro j hj
  have hLe : j ≤ k := by simpa [hk] using hj
  rw [List.take_take, Nat.min_eq_left hLe]
  exact h j (Nat.le_trans hLe hk)

/-- From any registry that calls have led to, the record of a counted address shows the running
count after each of the calls that follow, and the release that takes the last reference away takes
the record away. -/
theorem run_references {settings : Settings} {past : List Op} (hCreate : create settings = .ok r)
    (hRecord : (r.run past).record? address = some ⟨tag, .counted n⟩)
    (hMixes : Mixes address tag (r.run past) ops)
    (hRange : InRange n address ops) :
    (∀ k ≤ ops.length,
      ((r.run past).run (ops.take k)).record? address =
          some ⟨tag, .counted (running n address (ops.take k))⟩ ∧
        ((r.run past).run (ops.take k)).registered address = true) ∧
      ∀ last : Op, last.releases address = true →
        (((r.run past).run ops).step last).1.isOk = true →
        running n address (ops ++ [last]) = 0 →
        ((r.run past).run (ops ++ [last])).record? address = none ∧
          ((r.run past).run (ops ++ [last])).registered address = false := by
  have hPast : (r.run past).WellFormed := (create_eq_ok hCreate ▸ empty_wellFormed settings).run past
  have hNonnull : address ≠ 0 := (hPast.record? hRecord).1
  constructor
  · intro k hk
    have hCount := (hMixes.take k).run_record? hPast hRecord (hRange.take hk)
    exact ⟨hCount, by simp [registered, hNonnull, hCount]⟩
  · intro last hReleases hOk hZero
    obtain ⟨hOne, hMax⟩ := hRange ops.length (Nat.le_refl _)
    rw [List.take_length] at hOne hMax
    have hCount := hMixes.run_record? hPast hRecord hRange
    rw [running_append hOne] at hZero
    have hLast := (Partakes.release hReleases hOk).step_record? (hPast.run ops) hCount (by omega)
    have hNone : ((r.run past).run (ops ++ [last])).record? address = none := by
      rw [run, List.foldl_append]
      rw [hZero] at hLast
      exact hLast
    exact ⟨hNone, by simp [registered, hNone]⟩

/-- Calls that share an address under its own tag and under a derived one, and give it back in
several ways, among calls on another address and a change of the definitions. -/
def sharingCalls : List Op :=
  [.registerCounted 16 (some ⟨"leaf"⟩), .registerCounted 32 (some ⟨"leaf"⟩), .pin 32,
    .unregisterValue (.built (.wrap 16 (some ⟨"node"⟩))) none, .removeSubtag ⟨"leaf"⟩,
    .registerCounted 16 (some ⟨"node"⟩), .intern "leaf", .unregisterTagged 16 (some ⟨"node"⟩)]

theorem run_references_shared :
    let r := empty ⟨10, .reject, true⟩
    let past : List Op := [.defineSubtag ⟨"leaf"⟩ (some ⟨"node"⟩), .registerCounted 16 (some ⟨"node"⟩)]
    create ⟨10, .reject, true⟩ = .ok r ∧
      (r.run past).record? 16 = some ⟨some ⟨"node"⟩, .counted 1⟩ ∧
      Mixes 16 (some ⟨"node"⟩) (r.run past) sharingCalls ∧ InRange 1 16 sharingCalls ∧
      (∀ k ≤ sharingCalls.length,
        ((r.run past).run (sharingCalls.take k)).record? 16 =
          some ⟨some ⟨"node"⟩, .counted (running 1 16 (sharingCalls.take k))⟩) ∧
      ((r.run past).run (sharingCalls ++ [.unregister 16])).record? 16 = none := by
  intro r past
  have hCreate : create ⟨10, .reject, true⟩ = .ok r := rfl
  have hRecord : (r.run past).record? 16 = some ⟨some ⟨"node"⟩, .counted 1⟩ := by decide +kernel
  have hMixes : Mixes 16 (some ⟨"node"⟩) (r.run past) sharingCalls :=
    ⟨.share _ (by decide +kernel), .aside (by decide +kernel), .aside (by decide +kernel),
      .release (by decide +kernel) (by decide +kernel), .aside (by decide +kernel),
      .share _ (by decide +kernel), .aside (by decide +kernel),
      .release (by decide +kernel) (by decide +kernel), trivial⟩
  have hRange : InRange 1 16 sharingCalls := by
    unfold InRange
    decide +kernel
  obtain ⟨hCounts, hLast⟩ := run_references hCreate hRecord hMixes hRange
  exact ⟨hCreate, hRecord, hMixes, hRange, fun k hk => (hCounts k hk).1,
    (hLast (.unregister 16) (by decide +kernel) (by decide +kernel) (by decide +kernel)).1⟩

end ArenaRegistry.Registry
