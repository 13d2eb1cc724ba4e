import ArenaRegistry.Registry.Basic

/-! Registering an address. What becomes of a request is decided first, from the record that the
address has; the effect and the notices follow from the decision. A pin always wins: a pinned
address stays as it is, and pinning takes the place of any other registration. -/

namespace ArenaRegistry.Registry

/-- What becomes of a request to register an address. -/
inductive Verdict
  /-- The address has no record and gets one at the end. -/
  | enter
  /-- The record stays as it is. -/
  | keep
  /-- The record counts one reference more. -/
  | addReference (existing : Record) (references : Nat)
  /-- The record becomes a pinned one. -/
  | pin
  /-- The record is replaced, though the request does not agree with it. -/
  | overwrite (existing : Record)
  /-- The request fails, because it does not agree with the record. -/
  | conflict (existing : Record)
deriving DecidableEq, Repr

/-- Decides on a request that does not agree with the record. -/
def Policy.verdict (existing : Record) : Policy → Verdict
  | .overwrite => .overwrite existing
  | .reject => .conflict existing

/-- Decides on a request to register an address under a tag in a mode. -/
def verdict (r : Registry) (address : UInt64) (tag : Option Tag) (mode : Mode) : Verdict :=
  match r.record? address with
  | none => .enter
  | some existing =>
    match existing.mode, mode with
    | .pinned, _ => .keep
    | _, .pinned => .pin
    | .uncounted, .uncounted =>
      if r.subtags.compatible tag existing.tag then .keep else r.settings.policy.verdict existing
    | .counted n, .counted _ =>
      if r.subtags.compatible tag existing.tag then .addReference existing n
      else r.settings.policy.verdict existing
    | _, _ => r.settings.policy.verdict existing

/-- Registers an address under a tag in a mode and returns the pointer to it. -/
def registerAs (r : Registry) (address : UInt64) (tag : Option Tag) (mode : Mode) :
    Except PointerError Pointer × Registry :=
  if address = 0 then (.error .nullPointer, r)
  else
    let value := Pointer.wrap address tag
    match r.verdict address value.tag mode with
    | .enter | .overwrite _ => (.ok value, r.put address (.enter value.tag mode))
    | .keep => (.ok value, r)
    | .addReference existing n =>
      (.ok value, r.put address { existing with mode := .counted (Mode.oneMore n) })
    | .pin => (.ok value, r.put address .pinned)
    | .conflict existing =>
      (.error (.registrationConflict value.text (existing.pointer address).text), r)

/-- The notices of a request to register an address. -/
def registerNotices (r : Registry) (address : UInt64) (tag : Option Tag) (mode : Mode) :
    List Notice :=
  if address = 0 then []
  else
    let value := Pointer.wrap address tag
    match r.verdict address value.tag mode with
    | .overwrite existing =>
      [⟨.debug, "pointer " ++ value.text ++ ": overwriting " ++ existing.mode.label ++
        " registration " ++ Tag.diagnostic? existing.tag⟩]
    | .conflict existing =>
      [⟨.warn, "pointer " ++ value.text ++ ": conflicts with registration " ++
        (existing.pointer address).text⟩]
    | _ => []

/-- Registers an address with one owner. -/
def register (r : Registry) (address : UInt64) (tag : Option Tag) :
    Except PointerError Pointer × Registry :=
  r.registerAs address tag .uncounted

/-- Registers an address with counted references, the first or one more. -/
def registerCounted (r : Registry) (address : UInt64) (tag : Option Tag) :
    Except PointerError Pointer × Registry :=
  r.registerAs address tag (.counted 1)

def pin (r : Registry) (address : UInt64) : Except PointerError Pointer × Registry :=
  r.registerAs address none .pinned

end ArenaRegistry.Registry
