import ArenaRegistry.Pointer.Basic

/-! What a registry holds about an address: the tag it is registered under and the mode of the
registration. -/

namespace ArenaRegistry.Registry

/-- How a registered address is released. -/
inductive Mode
  /-- One owner: the first release removes the record. -/
  | uncounted
  /-- Each registration adds a reference and each release drops one. -/
  | counted (references : Nat)
  /-- No release removes the record. -/
  | pinned
deriving DecidableEq, Repr

namespace Mode

/-- The largest count of references, at which counting stops. -/
def maxReferences : Nat := 0xffffffff

/-- One reference more, up to the largest count. -/
def oneMore (references : Nat) : Nat := min (references + 1) maxReferences

def label : Mode → String
  | uncounted => "safe"
  | counted _ => "counted"
  | pinned => "pinned"

/-- Whether two modes are the same, whatever their counts. -/
def same : Mode → Mode → Bool
  | uncounted, uncounted | counted _, counted _ | pinned, pinned => true
  | _, _ => false

def isPinned : Mode → Bool
  | pinned => true
  | _ => false

def references? : Mode → Option Nat
  | counted n => some n
  | _ => none

end Mode

/-- What is known about a registered address. -/
structure Record where
  tag : Option Tag
  mode : Mode
deriving DecidableEq, Repr

namespace Record

/-- A record for a new registration: a pinned one carries no tag. -/
def enter (tag : Option Tag) (mode : Mode) : Record :=
  ⟨if mode.isPinned then none else tag, mode⟩

/-- The record of a pinned address. -/
def pinned : Record := ⟨none, .pinned⟩

def pointer (r : Record) (address : UInt64) : Pointer := Pointer.wrap address r.tag

/-- One line about a registered address: its pointer, its mode and its count. -/
def line (r : Record) (address : UInt64) : String :=
  (r.pointer address).text ++ " " ++ r.mode.label ++
    match r.mode with
    | .counted n => " " ++ toString n
    | _ => ""

end Record

/-- The records of a registry in the order of registration. -/
abbrev Records := List (UInt64 × Record)

namespace Records

def find? (address : UInt64) (records : Records) : Option Record := records.lookup address

/-- Gives an address a record: in place if it has one, and at the end if it has none. -/
def put (address : UInt64) (record : Record) : Records → Records
  | [] => [(address, record)]
  | entry :: rest =>
    if entry.1 = address then (address, record) :: rest else entry :: put address record rest

/-- Takes the record of an address away; the others keep their order. -/
def remove (address : UInt64) (records : Records) : Records := records.filter (·.1 ≠ address)

@[simp] theorem find?_nil (address : UInt64) : find? address [] = none := rfl

theorem find?_cons (address : UInt64) (entry : UInt64 × Record) (records : Records) :
    find? address (entry :: records) =
      if entry.1 = address then some entry.2 else find? address records := by
  obtain ⟨key, record⟩ := entry
  simp only [find?, List.lookup_cons]
  by_cases h : key = address
  · simp [h]
  · have : (address == key) = false := by simpa using fun e => h e.symm
    simp [h, this]

theorem find?_put (address other : UInt64) (record : Record) (records : Records) :
    find? other (put address record records) =
      if other = address then some record else find? other records := by
  induction records with
  | nil =>
    simp only [put, find?_cons, find?_nil]
    by_cases h : other = address
    · simp [h]
    · simp [h, Ne.symm h]
  | cons entry records ih =>
    simp only [put]
    split
    · next h =>
      simp only [find?_cons, h]
      by_cases ho : other = address
      · simp [ho]
      · simp [ho, Ne.symm ho]
    · next h =>
      simp only [find?_cons, ih]
      by_cases ho : other = address
      · subst ho; simp [h]
      · simp [ho]

theorem find?_remove (address other : UInt64) (records : Records) :
    find? other (remove address records) =
      if other = address then none else find? other records := by
  induction records with
  | nil => simp [remove]
  | cons entry records ih =>
    simp only [remove, List.filter_cons, decide_eq_true_eq, ne_eq] at ih ⊢
    by_cases h : entry.1 = address
    · simp only [h, not_true_eq_false, ite_false, ih, find?_cons]
      by_cases ho : other = address
      · simp [ho]
      · simp [ho, Ne.symm ho]
    · simp only [h, not_false_eq_true, ite_true, find?_cons, ih]
      by_cases ho : other = address
      · subst ho; simp [h]
      · simp [ho]

theorem mem_of_find? {address : UInt64} {record : Record} {records : Records}
    (h : find? address records = some record) : (address, record) ∈ records := by
  induction records with
  | nil => cases h
  | cons entry records ih =>
    rw [find?_cons] at h
    split at h
    next hKey =>
      cases h
      exact List.mem_cons.mpr (.inl (by rw [← hKey]))
    next => exact List.mem_cons_of_mem entry (ih h)

theorem mem_put {address : UInt64} {record : Record} {entry : UInt64 × Record} {records : Records}
    (h : entry ∈ put address record records) : entry = (address, record) ∨ entry ∈ records := by
  induction records with
  | nil => exact .inl (List.mem_singleton.mp h)
  | cons first records ih =>
    unfold put at h
    split at h
    next =>
      rcases List.mem_cons.mp h with hEntry | hRest
      · exact .inl hEntry
      · exact .inr (List.mem_cons_of_mem first hRest)
    next =>
      rcases List.mem_cons.mp h with hEntry | hRest
      · exact .inr (List.mem_cons.mpr (.inl hEntry))
      · exact (ih hRest).imp_right (List.mem_cons_of_mem first)

/-- The addresses with a record stay where they are, and a new one stands at the end. -/
theorem map_fst_put (address : UInt64) (record : Record) (records : Records) :
    (put address record records).map Prod.fst =
      if address ∈ records.map Prod.fst then records.map Prod.fst
      else records.map Prod.fst ++ [address] := by
  induction records with
  | nil => rfl
  | cons entry records ih =>
    unfold put
    split
    next hKey => simp [hKey]
    next hKey =>
      rw [List.map_cons, ih]
      by_cases hMem : address ∈ records.map Prod.fst
      · simp [hMem]
      · simp [hMem, Ne.symm hKey]

/-- A record that takes the place of another shows only where it differs. -/
theorem map_put {β : Type} {f : UInt64 × Record → β} {address : UInt64} {before after : Record}
    {records : Records} (h : find? address records = some before)
    (hSame : f (address, after) = f (address, before)) :
    (put address after records).map f = records.map f := by
  induction records with
  | nil => cases h
  | cons entry records ih =>
    rw [find?_cons] at h
    unfold put
    by_cases hKey : entry.1 = address
    · rw [if_pos hKey] at h ⊢
      rw [List.map_cons, List.map_cons, hSame, ← Option.some.inj h, ← hKey]
    · rw [if_neg hKey] at h ⊢
      rw [List.map_cons, List.map_cons, ih h]

@[simp] theorem put_put (address : UInt64) (first second : Record) (records : Records) :
    put address second (put address first records) = put address second records := by
  induction records with
  | nil => simp [put]
  | cons entry records ih =>
    by_cases hKey : entry.1 = address
    · simp [put, hKey]
    · simp [put, hKey, ih]

theorem nodup_put (address : UInt64) (record : Record) {records : Records}
    (h : (records.map Prod.fst).Nodup) : ((put address record records).map Prod.fst).Nodup := by
  rw [map_fst_put]
  split
  next => exact h
  next hNew =>
    refine List.nodup_append.mpr ⟨h, by simp, ?_⟩
    intro a hMem b hLast hEq
    exact hNew (List.mem_singleton.mp hLast ▸ hEq ▸ hMem)

theorem nodup_remove (address : UInt64) {records : Records} (h : (records.map Prod.fst).Nodup) :
    ((remove address records).map Prod.fst).Nodup :=
  h.sublist (List.filter_sublist.map Prod.fst)

end Records

end ArenaRegistry.Registry
