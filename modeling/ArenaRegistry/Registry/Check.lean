import ArenaRegistry.Registry.Release

/-! Checking addresses and pointer values. Unwrapping a value checks its own tag; verifying looks the
address up and checks the registered tag. A null pointer without a tag passes any check of its
tag. -/

namespace ArenaRegistry.Registry

/-- Whether an address is registered; null never is. -/
def registered (r : Registry) (address : UInt64) : Bool :=
  address != 0 && (r.record? address).isSome

/-- Fails unless the address is registered. -/
def verify (r : Registry) (address : UInt64) : Except PointerError Unit :=
  if address = 0 then .error .nullPointer
  else if (r.record? address).isSome then .ok ()
  else .error (.unregistered address none)

/-- The status of an address against an expected tag. -/
def status (r : Registry) (address : UInt64) (expected : Option Tag) : Status :=
  match r.record? address with
  | none => .missing
  | some record =>
    match r.subtags.relation record.tag expected with
    | .equal => .ok
    | .implicitlyCastable => .derived
    | _ => .wrongTag

/-- Fails unless the address is registered under a tag compatible with the expected one. -/
def verifyTagged (r : Registry) (address : UInt64) (expected : Option Tag) :
    Except PointerError Status :=
  match r.record? address with
  | none => .error (.unregistered address expected)
  | some record =>
    if r.subtags.compatible record.tag expected then .ok (r.status address expected)
    else .error (.mismatch expected record.tag)

/-- Checks the tag of a pointer against the expected one. -/
def checkTag (r : Registry) (p : Pointer) (expected : Option Tag) : Except PointerError Pointer :=
  let checked := expected.isSome && (!p.isNull || p.tag.isSome)
  if checked && !r.subtags.compatible p.tag expected then .error (.mismatch expected p.tag)
  else .ok p

/-- Reads a value and checks its tag against the expected one. -/
def unwrapTagged (r : Registry) (v : Pointer.Value) (expected : Option Tag) :
    Except PointerError Pointer := do
  r.checkTag (← v.pointer) expected

/-- Whether the tag of a pointer passes the check against one of the tags. -/
def passesAny (r : Registry) (p : Pointer) (tags : List Tag) : Bool :=
  tags.any fun tag => (r.checkTag p (some tag)).isOk

/-- Reads a value and checks its tag against each of the tags; a failure names the last one. -/
def unwrapAnyOf (r : Registry) (v : Pointer.Value) (tags : List Tag) :
    Except PointerError Pointer := do
  let p ← v.pointer
  if r.passesAny p tags then .ok p else .error (.mismatch tags.getLast? p.tag)

/-- Unwraps a value and verifies its address under its own tag. -/
def verifyValue (r : Registry) (v : Pointer.Value) (expected : Option Tag) :
    Except PointerError Pointer := do
  let p ← r.unwrapTagged v expected
  if p.isNull then .error .nullPointer
  else
    let _ ← r.verifyTagged p.address p.tag
    return p

/-- Unwraps a value under one of the tags and verifies its address under its own tag. -/
def verifyAnyOf (r : Registry) (v : Pointer.Value) (tags : List Tag) :
    Except PointerError Pointer := do
  let p ← r.unwrapAnyOf v tags
  let _ ← r.verifyTagged p.address p.tag
  return p

/-- Drops one reference to the address of a pointer under its own tag. -/
def releasePointer (r : Registry) (p : Pointer) : Except PointerError UInt64 × Registry :=
  match r.unregisterTagged p.address p.tag with
  | (.ok (), r') => (.ok p.address, r')
  | (.error e, r') => (.error e, r')

/-- Unwraps a value and drops one reference to its address; null is left alone. -/
def unregisterValue (r : Registry) (v : Pointer.Value) (expected : Option Tag) :
    Except PointerError UInt64 × Registry :=
  match r.unwrapTagged v expected with
  | .error e => (.error e, r)
  | .ok p => if p.isNull then (.ok p.address, r) else r.releasePointer p

/-- Unwraps a value under one of the tags and drops one reference to its address. -/
def unregisterAnyOf (r : Registry) (v : Pointer.Value) (tags : List Tag) :
    Except PointerError UInt64 × Registry :=
  match r.unwrapAnyOf v tags with
  | .error e => (.error e, r)
  | .ok p => r.releasePointer p

end ArenaRegistry.Registry
