import ArenaRegistry.Proofs.Registry.Honour
import ArenaRegistry.Proofs.Registry.Locality
import ArenaRegistry.Proofs.Registry.Order
import ArenaRegistry.Proofs.Registry.Pinned

/-! The two policies side by side. They part where a request to register an address does not agree
with a record that is there, and there alone: one policy refuses the request and the other one
replaces the record where it stands. All other calls do not look at the policy, so a run without a
refusal is the same run under both. -/

namespace ArenaRegistry.Registry

/-- The same registry under a policy. -/
def under (r : Registry) (policy : Policy) : Registry :=
  { r with settings := { r.settings with policy } }

/-- The same reply where it names the policy. -/
def Reply.under (policy : Policy) : Reply → Reply
  | .settings s => .settings { s with policy }
  | reply => reply

/-- What a call asks to be registered. -/
structure Request where
  address : UInt64
  tag : Option Tag
  mode : Mode

def Op.request? : Op → Option Request
  | .register address tag => some ⟨address, tag, .uncounted⟩
  | .registerCounted address tag => some ⟨address, tag, .counted 1⟩
  | .pin address => some ⟨address, none, .pinned⟩
  | _ => none

/-- The pointer that a request asks for. -/
def Request.value (q : Request) : Pointer := .wrap q.address q.tag

/-- A request that does not agree with the record of its address, neither of which is a pin. -/
structure Clashes (r : Registry) (q : Request) (existing : Record) : Prop where
  found : r.record? q.address = some existing
  unpinned : existing.mode ≠ .pinned
  counts : q.mode ≠ .pinned
  disagrees : existing.mode.same q.mode = false ∨
    r.subtags.compatible q.value.tag existing.tag = false

/-- Whether an answer reports a conflict of two registrations. -/
def isConflict {α : Type} : Except PointerError α → Bool
  | .error (.registrationConflict _ _) => true
  | _ => false

/-- No call of a run reports a conflict. -/
def Unopposed (r : Registry) (ops : List Op) : Prop :=
  ∀ k (h : k < ops.length), isConflict ((r.run (ops.take k)).step ops[k]).1 = false

instance (r : Registry) (ops : List Op) : Decidable (r.Unopposed ops) :=
  inferInstanceAs (Decidable (∀ k (_ : k < ops.length), _))

/-- What a request does under the two policies. -/
structure Compared (r : Registry) (op : Op) (q : Request) : Prop where
  accepted : ∀ reply, ((r.under .reject).step op).1 = .ok reply →
    (r.under .overwrite).step op = (.ok reply, ((r.under .reject).step op).2.under .overwrite)
  null : ((r.under .reject).step op).1 = .error .nullPointer →
    ((r.under .overwrite).step op).1 = .error .nullPointer
  conflict : isConflict ((r.under .reject).step op).1 = true ↔ ∃ existing, r.Clashes q existing
  rejected : isConflict ((r.under .reject).step op).1 = true →
    ((r.under .reject).step op).2 = r.under .reject
  overwritten : isConflict ((r.under .reject).step op).1 = true →
    (q.mode = .uncounted ∨ q.mode = .counted 1) ∧
      (r.under .overwrite).step op = (.ok (.pointer q.value), { r.under .overwrite with
        records := r.records.map fun entry =>
          if entry.1 = q.address then (entry.1, ⟨q.value.tag, q.mode⟩) else entry })

variable {r : Registry} {op : Op} {ops : List Op} {q : Request} {policy : Policy}
  {existing : Record} {α β : Type}

/-! ### Verdicts -/

theorem Clashes.verdict (h : r.Clashes q existing) (policy : Policy) :
    (r.under policy).verdict q.address q.value.tag q.mode = policy.verdict existing := by
  obtain ⟨hFound, hUnpinned, hCounts, hDisagrees⟩ := h
  have hRecord : (r.under policy).record? q.address = some existing := hFound
  obtain ⟨address, tag, mode⟩ := q
  obtain ⟨existingTag, existingMode⟩ := existing
  have hSubtags : (r.under policy).subtags = r.subtags := rfl
  have hPolicy : (r.under policy).settings.policy = policy := rfl
  have hUnfit (hSame : existingMode.same mode = true) :
      r.subtags.compatible (Request.value ⟨address, tag, mode⟩).tag existingTag = false := by
    refine hDisagrees.resolve_left fun hOther => ?_
    rw [hSame] at hOther
    cases hOther
  cases existingMode with
  | pinned => exact absurd rfl hUnpinned
  | uncounted =>
    cases mode with
    | pinned => exact absurd rfl hCounts
    | uncounted => simp [Registry.verdict, hRecord, hSubtags, hPolicy, hUnfit rfl]
    | counted => simp [Registry.verdict, hRecord, hPolicy]
  | counted n =>
    cases mode with
    | pinned => exact absurd rfl hCounts
    | uncounted => simp [Registry.verdict, hRecord, hPolicy]
    | counted => simp [Registry.verdict, hRecord, hSubtags, hPolicy, hUnfit rfl]

/-- Without a clash the policy is not asked. -/
theorem verdict_of_not_clashes (h : ∀ existing, ¬r.Clashes q existing) :
    ∃ verdict : Verdict, (∀ existing, verdict ≠ .conflict existing) ∧
      (∀ existing, verdict ≠ .overwrite existing) ∧
      ∀ policy, (r.under policy).verdict q.address q.value.tag q.mode = verdict := by
  have hRecord (policy : Policy) : (r.under policy).record? q.address = r.record? q.address := rfl
  have hSubtags (policy : Policy) : (r.under policy).subtags = r.subtags := rfl
  cases hFound : r.record? q.address with
  | none => exact ⟨.enter, by simp, by simp, fun policy => by simp [verdict, hRecord, hFound]⟩
  | some existing =>
    by_cases hPinned : existing.mode = .pinned
    · exact ⟨.keep, by simp, by simp, fun policy => by simp [verdict, hRecord, hFound, hPinned]⟩
    by_cases hPin : q.mode = .pinned
    · refine ⟨.pin, by simp, by simp, fun policy => ?_⟩
      obtain ⟨tag, mode⟩ := existing
      cases mode with
      | pinned => exact absurd rfl hPinned
      | _ => simp [verdict, hRecord, hFound, hPin]
    have hAgrees : existing.mode.same q.mode = true ∧
        r.subtags.compatible q.value.tag existing.tag = true := by
      rw [← Bool.not_eq_false, ← Bool.not_eq_false, ← not_or]
      exact fun hDisagrees => h existing ⟨hFound, hPinned, hPin, hDisagrees⟩
    obtain ⟨hSame, hFits⟩ := hAgrees
    obtain ⟨address, tag, mode⟩ := q
    obtain ⟨existingTag, existingMode⟩ := existing
    cases existingMode with
    | pinned => exact absurd rfl hPinned
    | uncounted =>
      cases mode with
      | uncounted =>
        exact ⟨.keep, by simp, by simp, fun policy => by
          simp [verdict, hRecord, hSubtags, hFound, hFits]⟩
      | _ => cases hSame
    | counted n =>
      cases mode with
      | counted =>
        exact ⟨.addReference ⟨existingTag, .counted n⟩ n, by simp, by simp, fun policy => by
          simp [verdict, hRecord, hSubtags, hFound, hFits]⟩
      | _ => cases hSame

/-! ### Requests -/

theorem step_of_request (h : op.request? = some q) (r : Registry) :
    r.step op = (r.registerAs q.address q.tag q.mode).map (·.map .pointer) id := by
  cases op <;> cases h <;> rfl

theorem Request.isFirst (h : op.request? = some q) : q.mode.IsFirst := by
  cases op <;> cases h
  · exact .inl rfl
  · exact .inr (.inl rfl)
  · exact .inr (.inr rfl)

theorem Clashes.step (h : r.Clashes q existing) (hOp : op.request? = some q)
    (hNonnull : q.address ≠ 0) (policy : Policy) :
    (r.under policy).step op =
      (((policy.verdict existing).answer q.value).map .pointer,
        ((policy.verdict existing).change q.value.tag q.mode).apply q.address (r.under policy)) := by
  rw [step_of_request hOp, registerAs_eq hNonnull]
  show Prod.map _ id (Verdict.answer _ ((r.under policy).verdict q.address q.value.tag q.mode), _) = _
  rw [show Pointer.wrap q.address q.tag = q.value from rfl, h.verdict policy]
  rfl

theorem Clashes.rejected (h : r.Clashes q existing) (hOp : op.request? = some q)
    (hNonnull : q.address ≠ 0) :
    (r.under .reject).step op =
      (.error (.registrationConflict q.value.text (existing.pointer q.address).text),
        r.under .reject) :=
  h.step hOp hNonnull .reject

theorem Clashes.overwritten (h : r.Clashes q existing) (hOp : op.request? = some q)
    (hNonnull : q.address ≠ 0) :
    (r.under .overwrite).step op =
      (.ok (.pointer q.value), (r.under .overwrite).put q.address (.enter q.value.tag q.mode)) :=
  h.step hOp hNonnull .overwrite

theorem Change.apply_under (change : Change) (address : UInt64) (r : Registry) (policy : Policy) :
    change.apply address (r.under policy) = (change.apply address r).under policy := by
  cases change with
  | keep => rfl
  | leave after => cases after <;> rfl

/-- A request without a clash gets the same answer and leaves the same records under both policies,
and it reports no conflict. -/
theorem step_of_not_clashes (h : ∀ existing, ¬r.Clashes q existing) (hOp : op.request? = some q) :
    isConflict ((r.under .reject).step op).1 = false ∧
      (r.under .overwrite).step op =
        (((r.under .reject).step op).1, ((r.under .reject).step op).2.under .overwrite) := by
  rw [step_of_request hOp, step_of_request hOp]
  by_cases hNull : q.address = 0
  · simp only [registerAs, hNull, if_true]
    exact ⟨rfl, rfl⟩
  · obtain ⟨verdict, hConflict, -, hVerdict⟩ := verdict_of_not_clashes h
    have hEq (policy : Policy) : (r.under policy).registerAs q.address q.tag q.mode =
        (verdict.answer q.value,
          ((verdict.change q.value.tag q.mode).apply q.address r).under policy) := by
      rw [← Change.apply_under, ← hVerdict policy]
      exact registerAs_eq hNull _ _ _
    rw [hEq, hEq]
    refine ⟨?_, rfl⟩
    cases verdict with
    | conflict existing => exact absurd rfl (hConflict existing)
    | _ => rfl

/-- A record that is replaced keeps its place. -/
theorem Records.put_eq_map {address : UInt64} {record : Record} {records : Records}
    (h : (records.map Prod.fst).Nodup) (hMem : address ∈ records.map Prod.fst) :
    put address record records =
      records.map fun entry => if entry.1 = address then (entry.1, record) else entry := by
  induction records with
  | nil => cases hMem
  | cons entry records ih =>
    obtain ⟨hFirst, hRest⟩ := List.nodup_cons.mp h
    unfold put
    rw [List.map_cons]
    by_cases hKey : entry.1 = address
    · subst hKey
      rw [if_pos rfl, if_pos rfl]
      have hOthers : records.map (fun other => if other.1 = entry.1 then (other.1, record) else other) =
          records := by
        refine (List.map_congr_left fun other hOther => if_neg ?_).trans (List.map_id records)
        intro hEq
        exact hFirst (hEq ▸ List.mem_map_of_mem hOther)
      rw [hOthers]
    · have hLater : address ∈ records.map Prod.fst :=
        (List.mem_cons.mp hMem).resolve_left (Ne.symm hKey)
      rw [if_neg hKey, if_neg hKey, ih hRest hLater]

theorem Clashes.nonnull (h : r.Clashes q existing) (hFormed : r.WellFormed) : q.address ≠ 0 :=
  (hFormed.record? h.found).1

theorem compared (h : r.WellFormed) (hOp : op.request? = some q) : r.Compared op q := by
  by_cases hClash : ∃ existing, r.Clashes q existing
  · obtain ⟨existing, hClashes⟩ := hClash
    have hRejected := hClashes.rejected hOp (hClashes.nonnull h)
    have hOverwritten := hClashes.overwritten hOp (hClashes.nonnull h)
    have hFirst : q.mode = .uncounted ∨ q.mode = .counted 1 := by
      rcases Request.isFirst hOp with hMode | hMode | hMode
      · exact .inl hMode
      · exact .inr hMode
      · exact absurd hMode hClashes.counts
    have hEntered : Record.enter q.value.tag q.mode = ⟨q.value.tag, q.mode⟩ := by
      rcases hFirst with hMode | hMode <;> rw [hMode] <;> rfl
    have hMem : q.address ∈ r.records.map Prod.fst := by
      rw [← Records.find?_isSome, show r.records.find? q.address = some existing from hClashes.found]
      rfl
    rw [hEntered] at hOverwritten
    constructor
    case accepted => rw [hRejected]; rintro reply ⟨⟩
    case null => rw [hRejected]; rintro ⟨⟩
    case conflict => rw [hRejected]; exact ⟨fun _ => ⟨existing, hClashes⟩, fun _ => rfl⟩
    case rejected => rw [hRejected]; exact fun _ => rfl
    case overwritten =>
      refine fun _ => ⟨hFirst, hOverwritten.trans ?_⟩
      rw [← Records.put_eq_map h.distinct hMem]
      rfl
  · have hNever : ∀ existing, ¬r.Clashes q existing := not_exists.mp hClash
    obtain ⟨hQuiet, hSame⟩ := step_of_not_clashes hNever hOp
    have hAbsurd {p : Prop} (hConflict : isConflict ((r.under .reject).step op).1 = true) : p := by
      rw [hQuiet] at hConflict
      cases hConflict
    constructor
    case accepted => intro reply hReply; rw [hSame, hReply]
    case null => intro hNull; rw [hSame, hNull]
    case conflict => exact ⟨hAbsurd, fun h => absurd h hClash⟩
    case rejected => exact hAbsurd
    case overwritten => exact hAbsurd

/-! ### Records that stand -/

/-- A registration that finds a record and neither pins nor replaces it leaves it its tag and its
kind of mode. -/
theorem Verdict.Fits.keeps {verdict : Verdict} (h : verdict.Fits (r.record? q.address) q.mode)
    (hOverwrite : ∀ existing, verdict ≠ .overwrite existing) (hCounts : q.mode ≠ .pinned)
    (hFound : r.record? q.address = some existing) :
    ∃ after, ((verdict.change q.value.tag q.mode).apply q.address r).record? q.address = some after ∧
      after.tag = existing.tag ∧ after.mode.same existing.mode = true := by
  have hSelf (mode : Mode) : mode.same mode = true := by cases mode <;> rfl
  cases verdict with
  | enter => cases hFound.symm.trans h
  | overwrite other => exact absurd rfl (hOverwrite other)
  | pin => exact absurd h.1 hCounts
  | keep => exact ⟨existing, hFound, rfl, hSelf _⟩
  | conflict => exact ⟨existing, hFound, rfl, hSelf _⟩
  | addReference other n =>
    obtain ⟨hOther, hMode⟩ := h
    obtain rfl : existing = other := Option.some.inj (hFound.symm.trans hOther)
    exact ⟨_, record?_leave_self r q.address _, rfl, by rw [hMode]; rfl⟩

/-- Where requests are refused, a registration that succeeds and is not a pin leaves all records that
were there their tags and their kinds of mode. -/
theorem step_keeps (hOp : op.request? = some q) (hCounts : q.mode ≠ .pinned)
    (hOk : ((r.under .reject).step op).1.isOk = true) {address : UInt64}
    (hFound : r.record? address = some existing) :
    ∃ after, ((r.under .reject).step op).2.record? address = some after ∧
      after.tag = existing.tag ∧ after.mode.same existing.mode = true := by
  have hNonnull : q.address ≠ 0 := by
    intro hNull
    rw [step_of_request hOp, registerAs, if_pos hNull] at hOk
    cases hOk
  have hNever (other : Record) : ¬r.Clashes q other := by
    intro hClash
    rw [hClash.rejected hOp hNonnull] at hOk
    cases hOk
  obtain ⟨verdict, -, hOverwrite, hVerdict⟩ := verdict_of_not_clashes hNever
  have hFits := (r.under .reject).verdict_fits q.address q.value.tag q.mode
  have hAfter : ((r.under .reject).step op).2 =
      (verdict.change q.value.tag q.mode).apply q.address (r.under .reject) := by
    rw [step_of_request hOp, registerAs_eq hNonnull, ← hVerdict .reject]
    rfl
  rw [hVerdict .reject] at hFits
  rw [hAfter]
  by_cases hAddress : address = q.address
  · subst hAddress
    exact hFits.keeps hOverwrite hCounts hFound
  · refine ⟨existing, ?_, rfl, by cases existing.mode <;> rfl⟩
    rw [(Change.spares _ q.address _).record address hAddress]
    exact hFound

/-! ### Calls that are no requests -/

/-- A call that does not look at the policy. -/
def Blind (f : Registry → Except PointerError α × Registry) : Prop :=
  ∀ r policy, f (r.under policy) = ((f r).1, (f r).2.under policy)

theorem leave_under (r : Registry) (policy : Policy) (address : UInt64) (after : Option Record) :
    (r.under policy).leave address after = (r.leave address after).under policy := by
  cases after <;> rfl

theorem unregisterTagged_blind (address : UInt64) (expected : Option Tag) :
    Blind fun r => r.unregisterTagged address expected := by
  intro r policy
  have hRecord : (r.under policy).record? address = r.record? address := rfl
  have hSubtags : (r.under policy).subtags = r.subtags := rfl
  simp only [unregisterTagged, hRecord, hSubtags, leave_under]
  cases r.record? address with
  | none => rfl
  | some record => simp only; split <;> rfl

theorem invalidateTagged_blind (address : UInt64) (expected : Option Tag) :
    Blind fun r => r.invalidateTagged address expected := by
  intro r policy
  have hRecord : (r.under policy).record? address = r.record? address := rfl
  have hSubtags : (r.under policy).subtags = r.subtags := rfl
  simp only [invalidateTagged, hRecord, hSubtags]
  cases r.record? address with
  | none => rfl
  | some record => simp only; split <;> rfl

theorem releasePointer_blind (p : Pointer) : Blind fun r => r.releasePointer p := by
  intro r policy
  simp only [releasePointer, unregisterTagged_blind p.address p.tag r policy]
  rcases r.unregisterTagged p.address p.tag with ⟨_ | _, _⟩ <;> rfl

theorem unregisterValue_blind (v : Pointer.Value) (expected : Option Tag) :
    Blind fun r => r.unregisterValue v expected := by
  intro r policy
  have hUnwrap : (r.under policy).unwrapTagged v expected = r.unwrapTagged v expected := rfl
  simp only [unregisterValue, hUnwrap]
  cases r.unwrapTagged v expected with
  | error => rfl
  | ok p =>
    simp only
    split
    · rfl
    · exact releasePointer_blind p r policy

theorem unregisterAnyOf_blind (v : Pointer.Value) (tags : List Tag) :
    Blind fun r => r.unregisterAnyOf v tags := by
  intro r policy
  have hUnwrap : (r.under policy).unwrapAnyOf v tags = r.unwrapAnyOf v tags := rfl
  simp only [unregisterAnyOf, hUnwrap]
  cases r.unwrapAnyOf v tags with
  | error => rfl
  | ok p => exact releasePointer_blind p r policy

theorem retag_under (r : Registry) (policy : Policy) (address : UInt64) (tag : Option Tag) :
    (r.under policy).retag address tag = (r.retag address tag).under policy := by
  have hRecord : (r.under policy).record? address = r.record? address := rfl
  simp only [retag, hRecord]
  cases r.record? address with
  | none => rfl
  | some record => simp only; split <;> rfl

theorem cast_blind (v : Pointer.Value) (tag : Option Tag) : Blind fun r => r.cast v tag := by
  intro r policy
  simp only [cast, retag_under]
  cases v.pointer with
  | error => rfl
  | ok p =>
    have hError : (r.under policy).castError? p tag = r.castError? p tag := rfl
    simp only [hError]
    cases r.castError? p tag <;> rfl

theorem answer_under (policy : Policy) (g : α → Reply) (hReply : ∀ a, (g a).under policy = g a)
    (answer : Except PointerError α) : answer.map g = (answer.map g).map (Reply.under policy) := by
  cases answer with
  | error => rfl
  | ok a => exact congrArg Except.ok (hReply a).symm

theorem Blind.step_under {f : Registry → Except PointerError α × Registry} (h : Blind f)
    (g : α → Reply) (policy : Policy) (hReply : ∀ a, (g a).under policy = g a) (r : Registry) :
    Prod.map (Except.map g) id (f (r.under policy)) =
      (((f r).1.map g).map (Reply.under policy), (f r).2.under policy) := by
  rw [h r policy]
  exact Prod.ext (answer_under policy g hReply (f r).1) rfl

theorem step_under (h : op.request? = none) (r : Registry) (policy : Policy) :
    (r.under policy).step op =
      ((r.step op).1.map (Reply.under policy), (r.step op).2.under policy) := by
  have hQuery {β : Type} (g : β → Reply) (hReply : ∀ a, (g a).under policy = g a)
      (answer : Except PointerError β) :
      (answer.map g, r.under policy) = ((answer.map g).map (Reply.under policy), r.under policy) :=
    Prod.ext (answer_under policy g hReply answer) rfl
  cases op with
  | register => cases h
  | registerCounted => cases h
  | pin => cases h
  | unregister address =>
    exact (unregisterTagged_blind address none).step_under (fun _ => .done) policy (fun _ => rfl) r
  | unregisterTagged address expected =>
    exact (unregisterTagged_blind address expected).step_under (fun _ => .done) policy
      (fun _ => rfl) r
  | unregisterValue value expected =>
    exact (unregisterValue_blind value expected).step_under .address policy (fun _ => rfl) r
  | unregisterAnyOf value tags =>
    exact (unregisterAnyOf_blind value tags).step_under .address policy (fun _ => rfl) r
  | invalidateTagged address expected =>
    exact (invalidateTagged_blind address expected).step_under .flag policy (fun _ => rfl) r
  | cast value tag => exact (cast_blind value tag).step_under .pointer policy (fun _ => rfl) r
  | verify => exact hQuery (fun _ => .done) (fun _ => rfl) _
  | verifyTagged => exact hQuery .status (fun _ => rfl) _
  | unwrapTagged => exact hQuery .unwrapped (fun _ => rfl) _
  | unwrapAnyOf => exact hQuery .unwrapped (fun _ => rfl) _
  | verifyValue => exact hQuery .unwrapped (fun _ => rfl) _
  | verifyAnyOf => exact hQuery .unwrapped (fun _ => rfl) _
  | dissect => exact hQuery .dissection (fun _ => rfl) _
  | info => exact hQuery .info (fun _ => rfl) _
  | _ => rfl

/-! ### Runs -/

theorem under_self (h : r.settings.policy = policy) : r.under policy = r := by
  obtain ⟨records, subtags, atoms, depthLimit, _, castRequires⟩ := r
  cases h
  rfl

theorem step_settings (r : Registry) (op : Op) : (r.step op).2.settings = r.settings := by
  have hLeads := r.step_leads op
  generalize (r.step op).2 = after at hLeads
  cases hLeads with
  | turn address target turns => exact (spares_leave address _ r).settings
  | _ => rfl

theorem run_settings (r : Registry) (ops : List Op) : (r.run ops).settings = r.settings := by
  induction ops generalizing r with
  | nil => rfl
  | cons op ops ih => exact (ih (r.step op).2).trans (r.step_settings op)

/-- A call that reports no conflict where requests are refused does the same where records are
overwritten. -/
theorem step_overwrite (h : r.WellFormed) (hPolicy : r.settings.policy = .reject)
    (hQuiet : isConflict (r.step op).1 = false) :
    (r.under .overwrite).step op =
      ((r.step op).1.map (Reply.under .overwrite), (r.step op).2.under .overwrite) := by
  cases hRequest : op.request? with
  | none => exact step_under hRequest r .overwrite
  | some q =>
    have hNever (existing : Record) : ¬r.Clashes q existing := by
      intro hClash
      have hConflict := (compared h hRequest).conflict.mpr ⟨existing, hClash⟩
      rw [under_self hPolicy, hQuiet] at hConflict
      cases hConflict
    obtain ⟨-, hSame⟩ := step_of_not_clashes hNever hRequest
    rw [under_self hPolicy] at hSame
    rw [hSame, step_of_request hRequest]
    exact Prod.ext (answer_under .overwrite .pointer (fun _ => rfl) _) rfl

theorem run_overwrite (h : r.WellFormed) (hPolicy : r.settings.policy = .reject)
    (hQuiet : r.Unopposed ops) {k : Nat} (hk : k ≤ ops.length) :
    (r.under .overwrite).run (ops.take k) = (r.run (ops.take k)).under .overwrite := by
  induction k with
  | zero => rfl
  | succ k ih =>
    rw [run_take_succ _ hk, run_take_succ _ hk, ih (by omega),
      step_overwrite (h.run _) ((congrArg Settings.policy (r.run_settings _)).trans hPolicy)
        (hQuiet k hk)]

/-- Two runs of the same calls under the two policies, call by call. -/
structure SameRun (r : Registry) (ops : List Op) : Prop where
  state : ∀ k ≤ ops.length, ((r.under .overwrite).run (ops.take k)) =
    ((r.under .reject).run (ops.take k)).under .overwrite
  answer : ∀ k (h : k < ops.length), (((r.under .overwrite).run (ops.take k)).step ops[k]).1 =
    (((r.under .reject).run (ops.take k)).step ops[k]).1.map (Reply.under .overwrite)

/-- From any registry that calls have led to, the two policies part in a request that reports a
conflict and in nothing else: a run that reports none is the same run under both. Where requests are
refused, a registration that succeeds and is not a pin leaves every record its tag. -/
theorem policies_part_on_conflicts {settings : Settings} (hCreate : create settings = .ok r)
    (past : List Op) :
    (∀ op q, op.request? = some q → (r.run past).Compared op q) ∧
      (∀ ops, ((r.run past).under .reject).Unopposed ops → (r.run past).SameRun ops) ∧
      ∀ op q address existing, op.request? = some q → q.mode ≠ .pinned →
        (((r.run past).under .reject).step op).1.isOk = true →
        (r.run past).record? address = some existing →
        ∃ after, (((r.run past).under .reject).step op).2.record? address = some after ∧
          after.tag = existing.tag ∧ after.mode.same existing.mode = true := by
  have hPast : (r.run past).WellFormed := (create_eq_ok hCreate ▸ empty_wellFormed settings).run past
  have hReject : ((r.run past).under .reject).WellFormed :=
    ⟨hPast.distinct, hPast.nonnull, hPast.sound⟩
  refine ⟨fun op q hOp => compared hPast hOp, fun ops hQuiet => ?_,
    fun op q address existing hOp hCounts hOk hFound => step_keeps hOp hCounts hOk hFound⟩
  have hState (k : Nat) (hk : k ≤ ops.length) : ((r.run past).under .overwrite).run (ops.take k) =
      (((r.run past).under .reject).run (ops.take k)).under .overwrite :=
    run_overwrite hReject rfl hQuiet hk
  refine ⟨hState, fun k hk => ?_⟩
  rw [hState k (by omega), step_overwrite (hReject.run _)
    (congrArg Settings.policy (run_settings _ _)) (hQuiet k hk)]

theorem policies_part_on_conflicts_dog :
    let past : List Op := [.defineSubtag ⟨"Dog"⟩ (some ⟨"Animal"⟩), .pin 48,
      .registerCounted 16 (some ⟨"Dog"⟩), .register 32 (some ⟨"Animal"⟩)]
    let s := (empty .standard).run past
    let widen := Op.registerCounted 16 (some ⟨"Animal"⟩)
    let ops : List Op := [.register 32 (some ⟨"Dog"⟩), .pin 16, .settings, .register 0 none]
    create .standard = .ok (empty .standard) ∧
      isConflict ((s.under .reject).step widen).1 = true ∧
      ((s.under .overwrite).step widen).2.records =
        [(48, .pinned), (16, ⟨some ⟨"Animal"⟩, .counted 1⟩), (32, ⟨some ⟨"Animal"⟩, .uncounted⟩)] ∧
      (s.under .reject).Unopposed ops ∧ s.SameRun ops ∧
      ∃ after, ((s.under .reject).step (.register 32 (some ⟨"Dog"⟩))).2.record? 32 = some after ∧
        after.tag = some ⟨"Animal"⟩ := by
  intro past s widen ops
  have hCreate : create .standard = .ok (empty .standard) := rfl
  have hQuiet : (s.under .reject).Unopposed ops := by decide +kernel
  obtain ⟨hCompared, hSame, hKeeps⟩ := policies_part_on_conflicts hCreate past
  have hConflict : isConflict ((s.under .reject).step widen).1 = true := by decide +kernel
  obtain ⟨-, hOverwritten⟩ := (hCompared widen _ rfl).overwritten hConflict
  obtain ⟨after, hAfter, hTag, -⟩ := hKeeps (.register 32 (some ⟨"Dog"⟩)) _ 32
    ⟨some ⟨"Animal"⟩, .uncounted⟩ rfl (by decide) (by decide +kernel) (by decide +kernel)
  refine ⟨hCreate, hConflict, ?_, hQuiet, hSame ops hQuiet, after, hAfter, hTag⟩
  rw [hOverwritten]
  decide +kernel

end ArenaRegistry.Registry
