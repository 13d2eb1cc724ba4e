import ArenaRegistry.Registry.Cast
import ArenaRegistry.Registry.Query
import ArenaRegistry.Registry.Register

/-! Calls on a registry as values: what can be called, what each call answers and which notices it
leaves. A run is a list of calls, each on the registry that the one before has left. -/

namespace ArenaRegistry.Registry

/-- A call on a registry. -/
inductive Op
  | register (address : UInt64) (tag : Option Tag)
  | registerCounted (address : UInt64) (tag : Option Tag)
  | pin (address : UInt64)
  | unregister (address : UInt64)
  | unregisterTagged (address : UInt64) (expected : Option Tag)
  | unregisterValue (value : Pointer.Value) (expected : Option Tag)
  | unregisterAnyOf (value : Pointer.Value) (tags : List Tag)
  | invalidate (address : UInt64)
  | invalidateTagged (address : UInt64) (expected : Option Tag)
  | cast (value : Pointer.Value) (tag : Option Tag)
  | defineSubtag (sub : Tag) (sup : Option Tag)
  | removeSubtag (tag : Tag)
  | intern (text : String)
  | clear
  | registered (address : UInt64)
  | verify (address : UInt64)
  | verifyTagged (address : UInt64) (expected : Option Tag)
  | status (address : UInt64) (expected : Option Tag)
  | record (address : UInt64)
  | size
  | enumerate (filter : Option Tag)
  | unwrapTagged (value : Pointer.Value) (expected : Option Tag)
  | unwrapAnyOf (value : Pointer.Value) (tags : List Tag)
  | verifyValue (value : Pointer.Value) (expected : Option Tag)
  | verifyAnyOf (value : Pointer.Value) (tags : List Tag)
  | dissect (value : Pointer.Value) (expected : Option Tag)
  | info (value : Pointer.Value)
  | subtags
  | tagRelation (tag expected : Option Tag)
  | stats
  | atomStats
  | settings
deriving DecidableEq

/-- The answer of a call that succeeds. -/
inductive Reply
  | done
  | flag (b : Bool)
  | address (a : UInt64)
  | pointer (p : Pointer)
  | unwrapped (p : Pointer)
  | pointers (ps : List Pointer)
  | status (s : Status)
  | record (r : Option Record)
  | size (n : Nat)
  | tag (t : Tag)
  | dissection (d : Dissection)
  | info (i : Info)
  | subtags (edges : List (Tag × Tag))
  | relation (r : TagRelation)
  | stats (s : Stats)
  | atomStats (s : AtomStats)
  | settings (s : Settings)
deriving DecidableEq

def step (r : Registry) : Op → Except PointerError Reply × Registry
  | .register address tag => (r.register address tag).map (·.map .pointer) id
  | .registerCounted address tag => (r.registerCounted address tag).map (·.map .pointer) id
  | .pin address => (r.pin address).map (·.map .pointer) id
  | .unregister address => (r.unregister address).map (·.map fun _ => .done) id
  | .unregisterTagged address expected =>
    (r.unregisterTagged address expected).map (·.map fun _ => .done) id
  | .unregisterValue value expected => (r.unregisterValue value expected).map (·.map .address) id
  | .unregisterAnyOf value tags => (r.unregisterAnyOf value tags).map (·.map .address) id
  | .invalidate address => (r.invalidate address).map (.ok ∘ .flag) id
  | .invalidateTagged address expected =>
    (r.invalidateTagged address expected).map (·.map .flag) id
  | .cast value tag => (r.cast value tag).map (·.map .pointer) id
  | .defineSubtag sub sup => (.ok .done, r.defineSubtag sub sup)
  | .removeSubtag tag => (.ok .done, r.removeSubtag tag)
  | .intern text => (r.intern text).map (.ok ∘ .tag) id
  | .clear => (.ok .done, r.clear)
  | .registered address => (.ok (.flag (r.registered address)), r)
  | .verify address => ((r.verify address).map fun _ => .done, r)
  | .verifyTagged address expected => ((r.verifyTagged address expected).map .status, r)
  | .status address expected => (.ok (.status (r.status address expected)), r)
  | .record address => (.ok (.record (r.record? address)), r)
  | .size => (.ok (.size r.size), r)
  | .enumerate filter => (.ok (.pointers (r.enumerate filter)), r)
  | .unwrapTagged value expected => ((r.unwrapTagged value expected).map .unwrapped, r)
  | .unwrapAnyOf value tags => ((r.unwrapAnyOf value tags).map .unwrapped, r)
  | .verifyValue value expected => ((r.verifyValue value expected).map .unwrapped, r)
  | .verifyAnyOf value tags => ((r.verifyAnyOf value tags).map .unwrapped, r)
  | .dissect value expected => ((r.dissect value expected).map .dissection, r)
  | .info value => ((r.info value).map .info, r)
  | .subtags => (.ok (.subtags r.subtags.edges), r)
  | .tagRelation tag expected => (.ok (.relation (r.subtags.relation tag expected)), r)
  | .stats => (.ok (.stats r.stats), r)
  | .atomStats => (.ok (.atomStats r.atoms.stats), r)
  | .settings => (.ok (.settings r.settings), r)

/-- The notices that a call leaves. -/
def notices (r : Registry) : Op → List Notice
  | .register address tag => r.registerNotices address tag .uncounted
  | .registerCounted address tag => r.registerNotices address tag (.counted 1)
  | .pin address => r.registerNotices address none .pinned
  | .defineSubtag sub sup => r.subtags.defineNotices sub sup
  | .clear => r.clearNotices
  | _ => []

/-- The registry that a run leaves. -/
def run (r : Registry) (ops : List Op) : Registry := ops.foldl (fun r op => (r.step op).2) r

/-- Sets the count of references of an address that has one, and tells whether it has. -/
def setReferences (r : Registry) (address : UInt64) (n : Nat) : Bool × Registry :=
  match r.record? address with
  | some record =>
    if record.mode.references?.isSome then (true, r.put address { record with mode := .counted n })
    else (false, r)
  | none => (false, r)

end ArenaRegistry.Registry
