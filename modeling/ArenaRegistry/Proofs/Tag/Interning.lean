import ArenaRegistry.Tag.AtomTable
import Mathlib.Data.Finset.Card
import Mathlib.Data.List.DropRight
import Mathlib.Data.List.Induction

/-! The atom table and its past. Its atoms and its two counts are told by the texts that were interned
since the table was last cleared: each text is entered once, at its first interning, and every other
interning is a hit. -/

namespace ArenaRegistry.AtomTable

/-- The table after a series of calls. -/
def run (table : AtomTable) (ops : List Op) : AtomTable :=
  ops.foldl (fun table op => (table.step op).2) table

namespace Op

def text? : Op → Option String
  | intern text => some text
  | _ => none

/-- The calls since the last clearing. -/
def recent (ops : List Op) : List Op := ops.rtakeWhile (· ≠ clear)

/-- The texts of the internings since the last clearing, repeated as often as they were interned. -/
def interned (ops : List Op) : List String := (recent ops).filterMap text?

end Op

/-- A table in accord with the texts that were interned. -/
structure Accounts (table : AtomTable) (texts : List String) : Prop where
  once : (table.toList.map Tag.text).Nodup
  lists : ∀ text, text ∈ table.toList.map Tag.text ↔ text ∈ texts
  misses : table.misses = table.size
  calls : table.hits + table.misses = texts.length

/-- What the calls on a table answer when these texts were interned, and what they leave. -/
structure Answers (table : AtomTable) (texts : List String) : Prop where
  iterate : ∃ listed, table.step .iterate = (.texts listed, table) ∧ listed.Nodup ∧
    ∀ text, text ∈ listed ↔ text ∈ texts
  stats : ∃ s, table.step .stats = (.stats s, table) ∧ s.count = texts.toFinset.card ∧
    s.misses = texts.toFinset.card ∧ s.hits + s.misses = texts.length
  size : table.size = texts.toFinset.card
  get : ∀ text, table.step (.get text) = (.tag? (if text ∈ texts then some ⟨text⟩ else none), table)
  contains : ∀ text, table.step (.contains text) = (.flag (decide (text ∈ texts)), table)
  intern : ∀ text, (table.step (.intern text)).1 = .tag ⟨text⟩
  /-- A known text adds a hit and nothing else. -/
  again : ∀ text ∈ texts,
    (table.step (.intern text)).2 = { table with hits := table.hits + 1 }

variable {table : AtomTable} {texts : List String} {text : String} {ops : List Op}

/-! ### Searching and entering -/

theorem text_mem_iff : text ∈ table.toList.map Tag.text ↔ ⟨text⟩ ∈ table.atoms := by
  rw [List.mem_map]
  constructor
  · rintro ⟨tag, hMem, rfl⟩
    exact hMem
  · exact fun hMem => ⟨⟨text⟩, hMem, rfl⟩

/-- A search for a text finds the one tag that has it. -/
theorem get?_eq (table : AtomTable) (text : String) :
    table.get? text = if ⟨text⟩ ∈ table.atoms then some ⟨text⟩ else none := by
  unfold get?
  cases hFound : table.atoms.find? (·.text == text) with
  | some tag =>
    have hText := List.find?_some hFound
    have hTag : tag = ⟨text⟩ := congrArg Tag.mk (beq_iff_eq.mp hText)
    rw [if_pos (hTag ▸ List.mem_of_find?_eq_some hFound), hTag]
  | none =>
    rw [if_neg]
    intro hMem
    exact List.find?_eq_none.mp hFound ⟨text⟩ hMem (beq_self_eq_true text)

theorem Accounts.get?_eq (h : table.Accounts texts) (text : String) :
    table.get? text = if text ∈ texts then some ⟨text⟩ else none := by
  simp only [AtomTable.get?_eq, ← text_mem_iff, h.lists]

theorem Accounts.intern_known (h : table.Accounts texts) (hKnown : text ∈ texts) :
    table.intern text = (⟨text⟩, { table with hits := table.hits + 1 }) := by
  rw [intern, h.get?_eq, if_pos hKnown]

theorem Accounts.intern_new (h : table.Accounts texts) (hNew : text ∉ texts) :
    table.intern text =
      (⟨text⟩, { table with atoms := table.atoms ++ [⟨text⟩], misses := table.misses + 1 }) := by
  rw [intern, h.get?_eq, if_neg hNew]

/-! ### The history -/

/-- The texts interned up to a call, that call included. -/
def Op.extend (texts : List String) : Op → List String
  | intern text => texts ++ [text]
  | clear => []
  | _ => texts

theorem interned_concat (ops : List Op) (op : Op) :
    Op.interned (ops ++ [op]) = op.extend (Op.interned ops) := by
  rw [Op.interned, Op.recent, List.rtakeWhile_concat]
  cases op with
  | clear => rfl
  | intern text => simp [Op.interned, Op.recent, Op.extend, Op.text?]
  | _ => simp [Op.interned, Op.recent, Op.extend, Op.text?]

theorem accounts_empty : Accounts ∅ [] := ⟨.nil, fun _ => Iff.rfl, rfl, rfl⟩

theorem Accounts.intern (h : table.Accounts texts) (text : String) :
    (table.intern text).2.Accounts (texts ++ [text]) := by
  have hCalls := h.calls
  by_cases hKnown : text ∈ texts
  · rw [h.intern_known hKnown]
    refine ⟨h.once, fun other => ?_, h.misses, ?_⟩
    · rw [List.mem_append, List.mem_singleton]
      refine (h.lists other).trans ⟨.inl, ?_⟩
      rintro (hOther | rfl)
      · exact hOther
      · exact hKnown
    · simp only [List.length_append, List.length_singleton]
      omega
  · rw [h.intern_new hKnown]
    have hAbsent : text ∉ table.toList.map Tag.text := mt (h.lists text).mp hKnown
    refine ⟨?_, fun other => ?_, ?_, ?_⟩
    · simp only [toList, List.map_append, List.map_cons, List.map_nil, List.nodup_middle,
        List.append_nil]
      exact List.nodup_cons.mpr ⟨hAbsent, h.once⟩
    · simp only [toList, List.map_append, List.map_cons, List.map_nil, List.mem_append]
      exact or_congr (h.lists other) Iff.rfl
    · simp only [size, List.length_append, List.length_singleton]
      exact congrArg (· + 1) h.misses
    · simp only [List.length_append, List.length_singleton]
      omega

theorem Accounts.step (h : table.Accounts texts) (op : Op) :
    (table.step op).2.Accounts (op.extend texts) := by
  cases op with
  | intern text => exact h.intern text
  | clear => exact accounts_empty
  | _ => exact h

theorem run_concat (table : AtomTable) (ops : List Op) (op : Op) :
    table.run (ops ++ [op]) = ((table.run ops).step op).2 := by
  rw [run, List.foldl_append]
  rfl

/-- A table is in accord with the texts interned since its last clearing. -/
theorem accounts_run (ops : List Op) : (run ∅ ops).Accounts (Op.interned ops) := by
  induction ops using List.reverseRecOn with
  | nil => exact accounts_empty
  | append_singleton ops op ih =>
    rw [run_concat, interned_concat]
    exact ih.step op

/-! ### Answers -/

/-- There are as many atoms as different texts. -/
theorem Accounts.size_eq (h : table.Accounts texts) : table.size = texts.toFinset.card := by
  have hSame : (table.toList.map Tag.text).toFinset = texts.toFinset := by
    ext text
    simp only [List.mem_toFinset, h.lists]
  rw [← hSame, List.toFinset_card_of_nodup h.once, List.length_map]
  rfl

theorem Accounts.answers (h : table.Accounts texts) : table.Answers texts where
  iterate := by
    have hPerm : (table.sortedTexts).Perm (table.toList.map Tag.text) := List.mergeSort_perm _ _
    exact ⟨_, rfl, hPerm.nodup_iff.mpr h.once, fun text => hPerm.mem_iff.trans (h.lists text)⟩
  stats := ⟨_, rfl, h.size_eq, h.misses.trans h.size_eq, h.calls⟩
  size := h.size_eq
  get text := by rw [AtomTable.step, h.get?_eq]
  contains text := by
    rw [AtomTable.step, AtomTable.contains, h.get?_eq]
    split <;> simp [*]
  intern text := by
    by_cases hKnown : text ∈ texts
    · rw [AtomTable.step, h.intern_known hKnown]
    · rw [AtomTable.step, h.intern_new hKnown]
  again text hKnown := by rw [AtomTable.step, h.intern_known hKnown]

/-- Whatever was called on a table before, its answers are those that the texts interned since the
last clearing call for: the listing shows each of them once; the size and the misses are the number of
different ones, and the hits make up the number of internings; a search finds just these texts and
changes nothing; and whatever is found or interned has the text that was asked for, an interning of a
known text adding a hit and nothing else. -/
theorem answers_by_history (ops : List Op) : (run ∅ ops).Answers (Op.interned ops) :=
  (accounts_run ops).answers

/-- A text is interned anew after a clearing and once more, and another one is looked for. -/
example :
    run ∅ [.intern "Dog", .intern "Cat", .clear, .intern "Dog", .get "Cat", .intern "Dog"] =
      ⟨[⟨"Dog"⟩], 1, 1⟩ := by decide +kernel

end ArenaRegistry.AtomTable
