import ArenaRegistry.Pointer.Compare
import ArenaRegistry.Proofs.Pointer.Text
import ArenaRegistry.Registry.Op

/-! Values given as texts. A call reads a value before it does anything else, and all that counts is
the pointer that it finds. So a pointer may be handed over as its text in any run of calls. -/

namespace ArenaRegistry

/-! ### Values -/

namespace Pointer.Value

variable {v w : Value}

theorem address_congr (h : v.pointer = w.pointer) : v.address = w.address := by
  simp only [address, h]

theorem tag_congr (h : v.pointer = w.pointer) : v.tag = w.tag := by
  simp only [tag, h]

theorem compare_congr {v' w' : Value} (h : v.pointer = w.pointer) (h' : v'.pointer = w'.pointer) :
    v.compare v' = w.compare w' := by
  simp only [compare, h, h']

end Pointer.Value

namespace Registry

open Pointer (Value)

variable {f : Value → Value}

/-! ### Calls -/

/-- A call on another value in place of the one it is made on. -/
def Op.mapValue (f : Value → Value) : Op → Op
  | .unregisterValue value expected => .unregisterValue (f value) expected
  | .unregisterAnyOf value tags => .unregisterAnyOf (f value) tags
  | .cast value tag => .cast (f value) tag
  | .unwrapTagged value expected => .unwrapTagged (f value) expected
  | .unwrapAnyOf value tags => .unwrapAnyOf (f value) tags
  | .verifyValue value expected => .verifyValue (f value) expected
  | .verifyAnyOf value tags => .verifyAnyOf (f value) tags
  | .dissect value expected => .dissect (f value) expected
  | .info value => .info (f value)
  | op => op

/-- A call does not tell values apart that stand for the same pointer. -/
theorem step_mapValue (hf : ∀ v, (f v).pointer = v.pointer) (r : Registry) (op : Op) :
    r.step (op.mapValue f) = r.step op := by
  cases op with
  | unregisterValue value expected =>
    simp only [Op.mapValue, step, unregisterValue, unwrapTagged, hf]
  | unregisterAnyOf value tags => simp only [Op.mapValue, step, unregisterAnyOf, unwrapAnyOf, hf]
  | cast value tag => simp only [Op.mapValue, step, cast, hf]
  | unwrapTagged value expected => simp only [Op.mapValue, step, unwrapTagged, hf]
  | unwrapAnyOf value tags => simp only [Op.mapValue, step, unwrapAnyOf, hf]
  | verifyValue value expected => simp only [Op.mapValue, step, verifyValue, unwrapTagged, hf]
  | verifyAnyOf value tags => simp only [Op.mapValue, step, verifyAnyOf, unwrapAnyOf, hf]
  | dissect value expected => simp only [Op.mapValue, step, dissect, hf]
  | info value => simp only [Op.mapValue, step, info, hf]
  | _ => rfl

/-! ### Runs -/

/-- The answers of the calls of a run. -/
def answers (r : Registry) : List Op → List (Except PointerError Reply)
  | [] => []
  | op :: ops => (r.step op).1 :: (r.step op).2.answers ops

theorem run_mapValue (hf : ∀ v, (f v).pointer = v.pointer) (r : Registry) (ops : List Op) :
    r.run (ops.map (Op.mapValue f)) = r.run ops ∧
      r.answers (ops.map (Op.mapValue f)) = r.answers ops := by
  induction ops generalizing r with
  | nil => exact ⟨rfl, rfl⟩
  | cons op ops ih =>
    obtain ⟨hRun, hAnswers⟩ := ih (r.step op).2
    constructor
    · show ((r.step (op.mapValue f)).2).run (ops.map (Op.mapValue f)) = (r.step op).2.run ops
      rw [step_mapValue hf, hRun]
    · rw [List.map_cons, answers, answers, step_mapValue hf, hAnswers]

/-- A pointer can be read back from its text, whatever its tag is, no two pointers have the same
text, and no call and no run of calls tells a pointer from its text. -/
theorem text_transparent :
    (∀ address tag, Pointer.parse (Pointer.wrap address tag).text = .ok (.wrap address tag)) ∧
      Function.Injective Pointer.text ∧
      (∀ v w : Value, v.spelled.address = v.address ∧ v.spelled.tag = v.tag ∧
        v.spelled.compare w = v.compare w ∧ w.compare v.spelled = w.compare v) ∧
      (∀ (r : Registry) (op : Op), r.step (op.mapValue Value.spelled) = r.step op) ∧
      ∀ (r : Registry) (ops : List Op),
        r.run (ops.map (Op.mapValue Value.spelled)) = r.run ops ∧
          r.answers (ops.map (Op.mapValue Value.spelled)) = r.answers ops := by
  refine ⟨fun _ _ => Pointer.parse_text _, Pointer.text_injective, ?_,
    step_mapValue Value.pointer_spelled, run_mapValue Value.pointer_spelled⟩
  intro v w
  have hRead := v.pointer_spelled
  exact ⟨Value.address_congr hRead, Value.tag_congr hRead, Value.compare_congr hRead rfl,
    Value.compare_congr rfl hRead⟩

example :
    let p := Pointer.wrap 16 (some ⟨"^ NULL\n"⟩)
    let ops : List Op := [.register p.address p.tag, .unregisterValue (.built p) none]
    (empty .standard).answers (ops.map (Op.mapValue Value.spelled)) =
      [.ok (.pointer p), .ok (.address 16)] := by
  decide +kernel

end Registry

end ArenaRegistry
