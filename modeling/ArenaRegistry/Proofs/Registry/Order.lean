import ArenaRegistry.Proofs.Registry.WellFormed

/-! The order of registration. A call takes some addresses away, leaves the others in their order and
puts at most one new one behind them. The addresses before one that stays registered are therefore
those that were before it and have stayed registered too. -/

namespace ArenaRegistry.Registry

/-- The registered addresses in the order of registration. -/
def addresses (r : Registry) : List UInt64 := r.records.map Prod.fst

/-- The addresses before a registered one. -/
def earlier (r : Registry) (address : UInt64) : List UInt64 := r.addresses.takeWhile (· ≠ address)

variable {r r' : Registry} {address : UInt64} {op : Op} {ops : List Op}

/-! ### Addresses and records -/

theorem Records.find?_isSome (address : UInt64) (records : Records) :
    (find? address records).isSome = true ↔ address ∈ records.map Prod.fst := by
  induction records with
  | nil => simp
  | cons entry records ih =>
    rw [find?_cons, List.map_cons, List.mem_cons, ← ih]
    by_cases hKey : entry.1 = address
    · simp [hKey]
    · simp [hKey, Ne.symm hKey]

theorem record?_isSome (r : Registry) (address : UInt64) :
    (r.record? address).isSome = true ↔ address ∈ r.addresses :=
  Records.find?_isSome address r.records

theorem record?_isSome_of_earlier {other : UInt64} (h : other ∈ r.earlier address) :
    (r.record? other).isSome = true := by
  rw [record?_isSome]
  exact (List.takeWhile_sublist _).mem h

/-- Null has no record, so asking whether an address is registered is asking for its record. -/
theorem WellFormed.registered_eq (h : r.WellFormed) (address : UInt64) :
    r.registered address = (r.record? address).isSome := by
  have hNull : (r.record? 0).isSome = false := by rw [h.record?_null]; rfl
  unfold registered
  by_cases hAddress : address = 0
  · rw [hAddress, hNull]; rfl
  · simp [hAddress]

theorem enumerate_addresses (r : Registry) :
    (r.enumerate none).map Pointer.address = r.addresses := by
  rw [enumerate_none, List.map_map]
  rfl

theorem filter_addresses (h : ∀ other ∈ r.addresses, (r'.record? other).isSome = true) :
    (r.addresses.filter fun other => (r'.record? other).isSome) = r.addresses :=
  List.filter_eq_self.mpr h

/-! ### One call -/

theorem addresses_put (r : Registry) (address : UInt64) (record : Record) :
    (r.put address record).addresses =
      if address ∈ r.addresses then r.addresses else r.addresses ++ [address] :=
  Records.map_fst_put address record r.records

theorem addresses_remove (r : Registry) (address : UInt64) :
    (r.remove address).addresses = r.addresses.filter (· ≠ address) := by
  simp only [addresses, remove, Records.remove, List.filter_map]
  rfl

/-- `r'` has the addresses of `r` that are still registered in their order, and at most one new one
behind them. -/
def Continues (r r' : Registry) : Prop :=
  ∃ new : Option UInt64, (∀ other ∈ new, r.record? other = none) ∧
    r'.addresses = (r.addresses.filter fun other => (r'.record? other).isSome) ++ new.toList

theorem record?_isSome_of_mem {other : UInt64} (h : other ∈ r.addresses) :
    (r.record? other).isSome = true :=
  (r.record?_isSome other).mpr h

theorem continues_of_kept (hSame : r'.addresses = r.addresses)
    (hKept : ∀ other ∈ r.addresses, (r'.record? other).isSome = true) : r.Continues r' := by
  refine ⟨none, by simp, ?_⟩
  rw [filter_addresses hKept, hSame]
  exact (List.append_nil _).symm

theorem continues_put (r : Registry) (address : UInt64) (record : Record) :
    r.Continues (r.put address record) := by
  have hKept (other : UInt64) (hMem : other ∈ r.addresses) :
      ((r.put address record).record? other).isSome = true := by
    rw [record?_isSome, addresses_put]
    split
    · exact hMem
    · exact List.mem_append_left _ hMem
  by_cases hMem : address ∈ r.addresses
  · exact continues_of_kept (by rw [addresses_put, if_pos hMem]) hKept
  · refine ⟨some address, ?_, ?_⟩
    · rintro other ⟨⟩
      rw [← Option.not_isSome_iff_eq_none, record?_isSome]
      exact hMem
    · rw [filter_addresses hKept, addresses_put, if_neg hMem]
      rfl

theorem continues_remove (r : Registry) (address : UInt64) : r.Continues (r.remove address) := by
  refine ⟨none, by simp, ?_⟩
  rw [Option.toList_none, List.append_nil, addresses_remove]
  apply List.filter_congr
  intro other hMem
  have hLook : (r.remove address).record? other =
      if other = address then none else r.record? other := record?_leave r address other none
  rw [hLook]
  by_cases hEq : other = address
  · simp [hEq]
  · simp [hEq, record?_isSome_of_mem hMem]

theorem Leads.continues (h : r.Leads op r') : r.Continues r' := by
  cases h with
  | same => exact continues_of_kept rfl fun _ => record?_isSome_of_mem
  | @turn address after target turns =>
    cases after with
    | none => exact r.continues_remove address
    | some record => exact r.continues_put address record
  | define => exact continues_of_kept rfl fun _ => record?_isSome_of_mem
  | undefine => exact continues_of_kept rfl fun _ => record?_isSome_of_mem
  | intern => exact continues_of_kept rfl fun _ => record?_isSome_of_mem
  | clear =>
    refine ⟨none, by simp, ?_⟩
    have hNone (other : UInt64) : (r.clear.record? other).isSome = false := rfl
    rw [List.filter_eq_nil_iff.mpr fun other _ => by simp [hNone]]
    rfl

theorem takeWhile_ne_append {xs : List UInt64} (h : address ∈ xs) (ys : List UInt64) :
    (xs ++ ys).takeWhile (· ≠ address) = xs.takeWhile (· ≠ address) := by
  induction xs with
  | nil => cases h
  | cons x xs ih =>
    by_cases hEq : x = address
    · simp [hEq]
    · have hRest : address ∈ xs := (List.mem_cons.mp h).resolve_left (Ne.symm hEq)
      simpa [hEq] using ih hRest

theorem takeWhile_ne_filter {p : UInt64 → Bool} (h : p address = true) (xs : List UInt64) :
    (xs.filter p).takeWhile (· ≠ address) = (xs.takeWhile (· ≠ address)).filter p := by
  induction xs with
  | nil => rfl
  | cons x xs ih =>
    by_cases hEq : x = address
    · subst hEq
      simp [h]
    · by_cases hKeep : p x = true
      · simpa [hEq, hKeep] using ih
      · simpa [hEq, hKeep] using ih

/-- The addresses before one that stays registered through a call are those of them that are still
registered after it. -/
theorem Leads.earlier (h : r.Leads op r') (hBefore : (r.record? address).isSome = true)
    (hAfter : (r'.record? address).isSome = true) :
    r'.earlier address = (r.earlier address).filter fun other => (r'.record? other).isSome := by
  obtain ⟨new, -, hAddresses⟩ := h.continues
  have hMem : address ∈ r.addresses.filter fun other => (r'.record? other).isSome :=
    List.mem_filter.mpr ⟨(r.record?_isSome address).mp hBefore, hAfter⟩
  rw [Registry.earlier, hAddresses, takeWhile_ne_append hMem, takeWhile_ne_filter hAfter]
  rfl

/-! ### Runs -/

theorem run_take_succ (r : Registry) {k : Nat} (hk : k < ops.length) :
    r.run (ops.take (k + 1)) = ((r.run (ops.take k)).step ops[k]).2 := by
  rw [List.take_succ_eq_append_getElem hk, run, List.foldl_append]
  rfl

/-- Through a run, the addresses before one that stays registered are those that have stayed
registered with it. -/
theorem run_earlier {k : Nat} (hk : k ≤ ops.length)
    (hStays : ∀ j ≤ k, ((r.run (ops.take j)).record? address).isSome = true) :
    (r.run (ops.take k)).earlier address =
      (r.earlier address).filter fun other =>
        decide (∀ j ≤ k, ((r.run (ops.take j)).record? other).isSome = true) := by
  induction k with
  | zero =>
    symm
    apply List.filter_eq_self.mpr
    intro other hMem
    simpa [run] using record?_isSome_of_earlier hMem
  | succ k ih =>
    have hBefore := hStays k (by omega)
    have hAfter := hStays (k + 1) (Nat.le_refl _)
    rw [run_take_succ r hk] at hAfter
    rw [run_take_succ r hk, (step_leads _ ops[k]).earlier hBefore hAfter,
      ih (by omega) fun j hj => hStays j (by omega), List.filter_filter, ← run_take_succ r hk]
    apply List.filter_congr
    intro other _
    rw [Bool.eq_iff_iff]
    simp only [Bool.and_eq_true, decide_eq_true_eq]
    constructor
    · rintro ⟨hLast, hFirst⟩ j hj
      rcases Nat.le_succ_iff.mp hj with hOld | rfl
      · exact hFirst j hOld
      · exact hLast
    · intro hAll
      exact ⟨hAll (k + 1) (Nat.le_refl _), fun j hj => hAll j (by omega)⟩

end ArenaRegistry.Registry
