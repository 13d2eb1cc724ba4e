import ArenaRegistry.Proofs.Registry.Order
import Mathlib.Data.List.Induction

/-! A listing is in the order of arrival. A call puts the one address that it can register behind all
others, so that the steps at which the listed addresses have last become registered ascend down the
listing. What a call overwrites stays in its place, and what it removes leaves the others in their
order. -/

namespace ArenaRegistry.Registry

variable {r r' : Registry} {address : UInt64} {op : Op} {ops : List Op}

/-- The registered addresses as a listing without a filter shows them. -/
def listing (r : Registry) : List UInt64 := (r.enumerate none).map Pointer.address

/-- Whether the call after the first `k` of a run finds an address unregistered and registers it. -/
def arrives (r : Registry) (ops : List Op) (address : UInt64) (k : Nat) : Bool :=
  !(r.run (ops.take k)).registered address && (r.run (ops.take (k + 1))).registered address

/-- The last step of a run at which an address has become registered. -/
def lastArrival? (r : Registry) (ops : List Op) (address : UInt64) : Option Nat :=
  ((List.range ops.length).filter (r.arrives ops address)).getLast?

/-- The calls that register, pin or cast. -/
def Op.Retains : Op → Prop
  | .register .. | .registerCounted .. | .pin _ | .cast .. => True
  | _ => False

/-- The listing after a run shows the registered addresses, in the order of their last arrivals. -/
structure InOrder (r : Registry) (ops : List Op) : Prop where
  once : (r.run ops).listing.Nodup
  registered : ∀ address, address ∈ (r.run ops).listing ↔ (r.run ops).registered address = true
  ascending : ∃ steps : List Nat, steps.Pairwise (· < ·) ∧
    (r.run ops).listing.map (r.lastArrival? ops) = steps.map some

/-- What a call does to the order of a listing: it keeps that of the addresses that stay, and the
calls that register, pin or cast, or that only change counts, move none of them. -/
structure KeepsOrder (r : Registry) (op : Op) (r' : Registry) : Prop where
  behind : ∃ new : Option UInt64, (∀ address ∈ new, r.registered address = false) ∧
    r'.listing = r.listing.filter r'.registered ++ new.toList
  retained : op.Retains → r.listing <+: r'.listing
  recast : ∀ value tag, op = .cast value tag → r'.listing = r.listing
  still : (∀ address, r'.registered address = r.registered address) → r'.listing = r.listing
  removal : op ≠ .clear → ∀ address, r.registered address = true → r'.registered address = false →
    r'.records = r.records.filter (·.1 ≠ address)

/-! ### Listed addresses -/

theorem listing_eq (r : Registry) : r.listing = r.addresses := r.enumerate_addresses

theorem WellFormed.mem_listing (h : r.WellFormed) (address : UInt64) :
    address ∈ r.listing ↔ r.registered address = true := by
  rw [listing_eq, ← record?_isSome, h.registered_eq]

theorem WellFormed.listing_nodup (h : r.WellFormed) : r.listing.Nodup := by
  rw [listing_eq]
  exact h.distinct

/-! ### One call -/

theorem Leads.listing (hLeads : r.Leads op r') (h : r.WellFormed) :
    ∃ new : Option UInt64, (∀ address ∈ new, r.registered address = false) ∧
      r'.listing = r.listing.filter r'.registered ++ new.toList := by
  obtain ⟨new, hNew, hAddresses⟩ := hLeads.continues
  refine ⟨new, fun address hMem => ?_, ?_⟩
  · rw [h.registered_eq, hNew address hMem]
    rfl
  · rw [listing_eq, listing_eq, hAddresses]
    congr 1
    exact List.filter_congr fun address _ => ((hLeads.wellFormed h).registered_eq address).symm

/-- A call after which the same addresses are registered leaves the listing as it is. -/
theorem Leads.listing_of_same (hLeads : r.Leads op r') (h : r.WellFormed)
    (hSame : ∀ address, r'.registered address = r.registered address) :
    r'.listing = r.listing := by
  obtain ⟨new, hNew, hListing⟩ := hLeads.listing h
  have hNone : new = none := by
    rw [Option.eq_none_iff_forall_not_mem]
    intro address hMem
    have hListed : address ∈ r'.listing := by
      rw [hListing]
      exact List.mem_append_right _ (Option.mem_toList.mpr hMem)
    have hRegistered := ((hLeads.wellFormed h).mem_listing address).mp hListed
    rw [hSame address, hNew address hMem] at hRegistered
    cases hRegistered
  have hAll : r.listing.filter r'.registered = r.listing := by
    apply List.filter_eq_self.mpr
    intro address hMem
    rw [hSame address]
    exact (h.mem_listing address).mp hMem
  rw [hListing, hNone, hAll, Option.toList_none, List.append_nil]

/-- A call that takes one address away takes nothing else. -/
theorem Leads.removal (hLeads : r.Leads op r') (h : r.WellFormed) (hClear : op ≠ .clear)
    (hBefore : r.registered address = true) (hAfter : r'.registered address = false) :
    r'.records = r.records.filter (·.1 ≠ address) := by
  have hGone : r'.record? address = none := by
    rw [(hLeads.wellFormed h).registered_eq] at hAfter
    exact Option.isSome_eq_false_iff.mp hAfter |> Option.isNone_iff_eq_none.mp
  have hRecord : (r.record? address).isSome = true := by rwa [← h.registered_eq]
  have hDiffers : r'.record? address ≠ r.record? address := by
    intro hEq
    rw [← hEq, hGone] at hRecord
    cases hRecord
  cases hLeads with
  | turn target hTarget turns =>
    rw [record?_leave] at hGone hDiffers
    by_cases hEq : address = target
    · rw [if_pos hEq] at hGone
      subst hEq hGone
      rfl
    · exact absurd (if_neg hEq) hDiffers
  | clear hOp => exact absurd hOp hClear
  | _ => exact absurd rfl hDiffers

/-! ### Calls that register, pin or cast -/

theorem registerAs_cases (r : Registry) (address : UInt64) (tag : Option Tag) (mode : Mode) :
    (r.registerAs address tag mode).2 = r ∨
      ∃ record, (r.registerAs address tag mode).2 = r.put address record := by
  by_cases hNull : address = 0
  · exact .inl (by simp only [registerAs, if_pos hNull])
  · simp only [registerAs, if_neg hNull]
    cases r.verdict address (Pointer.wrap address tag).tag mode with
    | enter => exact .inr ⟨_, rfl⟩
    | keep => exact .inl rfl
    | addReference => exact .inr ⟨_, rfl⟩
    | pin => exact .inr ⟨_, rfl⟩
    | overwrite => exact .inr ⟨_, rfl⟩
    | conflict => exact .inl rfl

theorem registerAs_prefix (r : Registry) (address : UInt64) (tag : Option Tag) (mode : Mode) :
    r.listing <+: (r.registerAs address tag mode).2.listing := by
  rcases r.registerAs_cases address tag mode with hSame | ⟨record, hPut⟩
  · exact hSame.symm ▸ List.prefix_refl _
  · rw [hPut, listing_eq, listing_eq, addresses_put]
    split
    · exact List.prefix_refl _
    · exact List.prefix_append _ _

theorem cast_listing (r : Registry) (v : Pointer.Value) (tag : Option Tag) :
    (r.cast v tag).2.listing = r.listing := by
  rcases r.cast_cases v tag with ⟨e, hFails⟩ | ⟨p, -, -, hCast⟩
  · rw [hFails]
  · rw [hCast]
    rcases r.retag_cases p.address tag with hSame | ⟨record, hRecord, -, hRetag⟩
    · rw [hSame]
    · have hMem : p.address ∈ r.addresses := by
        rw [← record?_isSome, hRecord]
        rfl
      have hPut : (r.put p.address { record with tag }).addresses = r.addresses := by
        rw [addresses_put, if_pos hMem]
      rw [hRetag, listing_eq, listing_eq]
      exact hPut

theorem step_prefix (hRetains : op.Retains) : r.listing <+: (r.step op).2.listing := by
  cases op with
  | register address tag => exact r.registerAs_prefix address tag .uncounted
  | registerCounted address tag => exact r.registerAs_prefix address tag (.counted 1)
  | pin address => exact r.registerAs_prefix address none .pinned
  | cast value tag => exact (r.cast_listing value tag).symm ▸ List.prefix_refl _
  | _ => exact hRetains.elim

theorem WellFormed.keepsOrder (h : r.WellFormed) (op : Op) : r.KeepsOrder op (r.step op).2 where
  behind := (r.step_leads op).listing h
  retained := step_prefix
  recast value tag hCast := hCast ▸ r.cast_listing value tag
  still := (r.step_leads op).listing_of_same h
  removal hClear _ := (r.step_leads op).removal h hClear

/-! ### Arrivals -/

theorem run_append_singleton (r : Registry) (ops : List Op) (op : Op) :
    r.run (ops ++ [op]) = ((r.run ops).step op).2 :=
  List.foldl_append

/-- One more call is the last arrival of an address that it registers, and changes no other. -/
theorem lastArrival?_append_singleton (r : Registry) (ops : List Op) (op : Op) (address : UInt64) :
    r.lastArrival? (ops ++ [op]) address =
      if (r.run ops).registered address = false ∧
          ((r.run ops).step op).2.registered address = true then some ops.length
      else r.lastArrival? ops address := by
  have hEarlier : (List.range ops.length).filter (r.arrives (ops ++ [op]) address) =
      (List.range ops.length).filter (r.arrives ops address) := by
    apply List.filter_congr
    intro k hk
    have hLt := List.mem_range.mp hk
    rw [arrives, arrives, List.take_append_of_le_length (by omega),
      List.take_append_of_le_length (by omega)]
  have hLast : r.arrives (ops ++ [op]) address ops.length =
      (!(r.run ops).registered address && ((r.run ops).step op).2.registered address) := by
    rw [arrives, List.take_left', List.take_of_length_le (by simp), run_append_singleton]
    rfl
  rw [lastArrival?, List.length_append, List.length_singleton, List.range_succ, List.filter_append,
    hEarlier, List.filter_cons, List.filter_nil, hLast, lastArrival?]
  by_cases hArrives : (r.run ops).registered address = false ∧
      ((r.run ops).step op).2.registered address = true
  · rw [if_pos hArrives, hArrives.1, hArrives.2]
    exact List.getLast?_concat
  · rw [if_neg hArrives, if_neg (by simpa using hArrives), List.append_nil]

/-- The steps of the last arrivals ascend down the listing. The induction is on the run from its end:
of what is listed the last call leaves a part, which keeps its steps, and what it registers has the
largest step of all. -/
theorem WellFormed.ascending (h : r.WellFormed) (hEmpty : r.listing = []) (ops : List Op) :
    ∃ steps : List Nat, steps.Pairwise (· < ·) ∧ (∀ step ∈ steps, step < ops.length) ∧
      (r.run ops).listing.map (r.lastArrival? ops) = steps.map some := by
  induction ops using List.reverseRecOn with
  | nil => exact ⟨[], .nil, by simp, by rw [show r.run [] = r from rfl, hEmpty]; rfl⟩
  | append_singleton ops op ih =>
    obtain ⟨steps, hAscend, hBound, hSteps⟩ := ih
    have hPast : (r.run ops).WellFormed := h.run ops
    have hLater : ((r.run ops).step op).2.WellFormed := hPast.step op
    obtain ⟨new, hNew, hListing⟩ := ((r.run ops).step_leads op).listing hPast
    let kept := (r.run ops).listing.filter ((r.run ops).step op).2.registered
    have hKept : kept.map (r.lastArrival? (ops ++ [op])) = kept.map (r.lastArrival? ops) := by
      apply List.map_congr_left
      intro address hMem
      have hListed := (hPast.mem_listing address).mp (List.mem_filter.mp hMem).1
      rw [lastArrival?_append_singleton, hListed]
      rfl
    have hArrived : new.toList.map (r.lastArrival? (ops ++ [op])) =
        new.toList.map fun _ => some ops.length := by
      apply List.map_congr_left
      intro address hMem
      have hBefore := hNew address (Option.mem_toList.mp hMem)
      have hAfter : ((r.run ops).step op).2.registered address = true := by
        rw [← hLater.mem_listing, hListing]
        exact List.mem_append_right _ hMem
      rw [lastArrival?_append_singleton, if_pos ⟨hBefore, hAfter⟩]
    obtain ⟨left, hSub, hLeft⟩ : ∃ left : List Nat, left.Sublist steps ∧
        kept.map (r.lastArrival? ops) = left.map some := by
      rw [← List.sublist_map_iff, ← hSteps]
      exact List.filter_sublist.map _
    refine ⟨left ++ new.toList.map fun _ => ops.length, ?_, ?_, ?_⟩
    · refine List.pairwise_append.mpr ⟨hAscend.sublist hSub, ?_, ?_⟩
      · cases new <;> simp
      · intro step hMem last hLast
        obtain ⟨-, -, rfl⟩ := List.mem_map.mp hLast
        exact hBound step (hSub.mem hMem)
    · intro step hMem
      rw [List.length_append, List.length_singleton]
      rcases List.mem_append.mp hMem with hOld | hLast
      · have := hBound step (hSub.mem hOld)
        omega
      · obtain ⟨-, -, rfl⟩ := List.mem_map.mp hLast
        omega
    · rw [run_append_singleton, hListing, List.map_append, hKept, hArrived, hLeft, List.map_append,
        List.map_map]
      rfl

/-! ### Runs -/

/-- Whatever calls are made on a registry, a listing without a filter shows just the registered
addresses, each once, in the order of the steps at which they have last become registered. Of a
further call, registering an address again, overwriting, pinning, casting and counting leave every
address at its place, and what a call takes away leaves the records of all others, in their order. -/
theorem listing_by_arrival {settings : Settings} (hCreate : create settings = .ok r)
    (ops : List Op) :
    r.InOrder ops ∧ ∀ op, (r.run ops).KeepsOrder op ((r.run ops).step op).2 := by
  have hRun := run_wellFormed_of_create hCreate ops
  have hEmpty : r.listing = [] := by
    rw [create_eq_ok hCreate]
    rfl
  have hStart : r.WellFormed := create_eq_ok hCreate ▸ empty_wellFormed settings
  obtain ⟨steps, hAscend, -, hSteps⟩ := hStart.ascending hEmpty ops
  exact ⟨⟨hRun.listing_nodup, hRun.mem_listing, steps, hAscend, hSteps⟩, hRun.keepsOrder⟩

/-- Calls that take addresses from the middle, register one of them again, and overwrite, pin, cast
and count others. -/
def shuffledCalls : List Op :=
  [.register 16 none, .pin 32, .registerCounted 48 (some ⟨"node"⟩), .register 64 none,
    .unregister 16, .registerCounted 48 (some ⟨"node"⟩), .invalidate 32, .register 16 (some ⟨"leaf"⟩),
    .pin 64, .cast (.built (.wrap 48 (some ⟨"node"⟩))) none, .unregister 48]

theorem listing_by_arrival_shuffled :
    create .standard = .ok (empty .standard) ∧
      ((empty .standard).run shuffledCalls).listing = [48, 64, 16] ∧
      [48, 64, 16].map ((empty .standard).lastArrival? shuffledCalls) = [some 2, some 3, some 7] ∧
      (empty .standard).InOrder shuffledCalls ∧
      ∀ op, ((empty .standard).run shuffledCalls).KeepsOrder op
        (((empty .standard).run shuffledCalls).step op).2 :=
  have hCreate : create .standard = .ok (empty .standard) := rfl
  have hHolds := listing_by_arrival hCreate shuffledCalls
  ⟨hCreate, by decide +kernel, by decide +kernel, hHolds.1, hHolds.2⟩

end ArenaRegistry.Registry
