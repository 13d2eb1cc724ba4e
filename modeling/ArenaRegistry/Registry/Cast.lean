import ArenaRegistry.Registry.Basic

/-! Casting a pointer to another tag. The old tag must be related to the registered one and to the
new one; a record that is not pinned takes the new tag over. -/

namespace ArenaRegistry.Registry

/-- Why a pointer may not be cast, if it may not. -/
def castError? (r : Registry) (p : Pointer) (tag : Option Tag) : Option PointerError :=
  let unrelated (expected : Option Tag) : Option PointerError :=
    if r.subtags.related p.tag expected then none else some (.mismatch expected p.tag)
  let unfit : Option PointerError :=
    match r.record? p.address with
    | some record => unrelated record.tag
    | none =>
      if r.settings.castRequiresRegistration && !p.isNull then
        some (.unregistered p.address p.tag)
      else none
  unfit <|> unrelated tag

/-- The registry with the record of an address under another tag, unless it is pinned. -/
def retag (r : Registry) (address : UInt64) (tag : Option Tag) : Registry :=
  match r.record? address with
  | none => r
  | some record => if record.mode.isPinned then r else r.put address { record with tag }

/-- Casts a value to a tag and returns the pointer under it. -/
def cast (r : Registry) (v : Pointer.Value) (tag : Option Tag) :
    Except PointerError Pointer × Registry :=
  match v.pointer with
  | .error e => (.error e, r)
  | .ok p =>
    match r.castError? p tag with
    | some e => (.error e, r)
    | none => (.ok (Pointer.wrap p.address tag), r.retag p.address tag)

end ArenaRegistry.Registry
