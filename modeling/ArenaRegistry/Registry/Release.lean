import ArenaRegistry.Registry.Basic

/-! Giving a registration back. A release drops one reference, and with the last one the record; an
invalidation removes the record whatever its count or pin. Both may ask for a tag that the
registered one is compatible with. -/

namespace ArenaRegistry.Registry

/-- What is left of a record after one release. -/
def Record.afterRelease (record : Record) : Option Record :=
  match record.mode with
  | .pinned => some record
  | .counted n => if 1 < n then some { record with mode := .counted (n - 1) } else none
  | .uncounted => none

/-- The registry with the record of an address replaced by what is left of it. -/
def leave (r : Registry) (address : UInt64) : Option Record → Registry
  | some record => r.put address record
  | none => r.remove address

/-- Drops one reference to an address whose registered tag is compatible with the expected one. -/
def unregisterTagged (r : Registry) (address : UInt64) (expected : Option Tag) :
    Except PointerError Unit × Registry :=
  match r.record? address with
  | none => (.error (.unregistered address expected), r)
  | some record =>
    if r.subtags.compatible record.tag expected then
      (.ok (), r.leave address record.afterRelease)
    else (.error (.mismatch expected record.tag), r)

def unregister (r : Registry) (address : UInt64) : Except PointerError Unit × Registry :=
  r.unregisterTagged address none

/-- Removes the record of an address and tells whether there was one. -/
def invalidate (r : Registry) (address : UInt64) : Bool × Registry :=
  ((r.record? address).isSome, r.remove address)

/-- Removes the record of an address whose registered tag is compatible with the expected one, and
tells whether there was one. -/
def invalidateTagged (r : Registry) (address : UInt64) (expected : Option Tag) :
    Except PointerError Bool × Registry :=
  match r.record? address with
  | none => (.ok false, r)
  | some record =>
    if r.subtags.compatible record.tag expected then (.ok true, r.remove address)
    else (.error (.mismatch expected record.tag), r)

end ArenaRegistry.Registry
