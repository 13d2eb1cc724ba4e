import ArenaRegistry.Arena.Settings
import ArenaRegistry.Registry.Settings
import Mathlib.Data.List.Nodup

/-! Settings and the environment. A variable that is set is never ignored, if it holds a text: either
the setting is what the text says, or the text is reported. The first text to be reported is that of
the first setting whose text says nothing. A variable that holds no text is taken for one that is not
set, so it goes unheeded unless the text of an earlier one is reported. -/

namespace ArenaRegistry

/-- One of the settings in `S`, and the variable that may say what it is. -/
structure Setting (S : Type) where
  Value : Type
  name : String
  parse : String → Option Value
  value : S → Value

/-- Settings that are read from the environment one after the other and checked in the end. -/
structure Scheme (S : Type) where
  settings : List (Setting S)
  standard : S
  validate : S → Except SettingError Unit
  ofEnvironment : Environment → Except SettingError S

namespace Setting

variable {S : Type} (x : Setting S) (env : Environment)

def IsSet : Prop := (env.bytes? x.name).isSome = true

/-- The variable holds a text that says what the setting is. -/
def Says (value : x.Value) : Prop :=
  ∃ text, env.text? x.name = some text ∧ x.parse (Text.trim text) = some value

/-- The variable holds a text that says nothing about the setting. -/
def Rejects (text : String) : Prop :=
  env.text? x.name = some text ∧ x.parse (Text.trim text) = none

/-- The variable is set to bytes that are no text. -/
def Unreadable : Prop := x.IsSet env ∧ env.text? x.name = none

/-- The variable is set and does not say what the setting is. -/
def Fails : Prop := x.IsSet env ∧ ∀ value, ¬x.Says env value

/-- The setting is what a variable that is set says, and the standard one otherwise. -/
structure Follows (standard s : S) : Prop where
  set : x.IsSet env → x.Says env (x.value s)
  unset : ¬x.IsSet env → x.value s = x.value standard

/-- The setting is what the text of the variable says, and the standard one without a text. -/
structure Reads (standard s : S) : Prop where
  text : ∀ text, env.text? x.name = some text → x.parse (Text.trim text) = some (x.value s)
  default : env.text? x.name = none → x.value s = x.value standard

end Setting

/-- The environment without the variables that hold no text. -/
def Environment.readable (env : Environment) : Environment where
  bytes? name := (env.bytes? name).filter fun bytes => (String.fromUTF8? bytes).isSome

namespace Scheme

variable {S : Type} (c : Scheme S) (env : Environment)

/-- Nothing that is set is ignored. Settings that are read follow the environment and pass the check.
Where they cannot be read, the error is that of the first variable that fails, or that of the check if
none does. -/
structure Heeds : Prop where
  ok : ∀ s, c.ofEnvironment env = .ok s →
    (∀ x ∈ c.settings, x.Follows env c.standard s) ∧ c.validate s = .ok ()
  error : ∀ e, c.ofEnvironment env = .error e →
    (∃ before x after value, c.settings = before ++ x :: after ∧ x.Fails env ∧
        (∀ y ∈ before, ¬y.Fails env) ∧ e = .invalidVariable x.name value ∧
        ∀ text, env.text? x.name = some text → value = text) ∨
      (∀ x ∈ c.settings, ¬x.Fails env) ∧
        ∃ s, (∀ x ∈ c.settings, x.Follows env c.standard s) ∧ c.validate s = .error e

/-- Before every variable that is set to no text there is one whose text is reported. -/
def Guarded : Prop := ∀ before x after, c.settings = before ++ x :: after → x.Unreadable env →
  ∃ y ∈ before, ∃ text, y.Rejects env text

/-- How the settings depend on the environment they are read from. -/
structure Faithful : Prop where
  heeds : c.Heeds env ↔ c.Guarded env
  /-- A variable that is set to no text counts as one that is not set. -/
  readable : c.ofEnvironment env = c.ofEnvironment env.readable ∧ c.Heeds env.readable
  others : ∀ env', (∀ x ∈ c.settings, env'.bytes? x.name = env.bytes? x.name) →
    c.ofEnvironment env' = c.ofEnvironment env

/-- What comes of reading settings in their order: all of them, or the first text that says nothing. -/
inductive Outcome (env : Environment) (standard : S) :
    List (Setting S) → Except SettingError S → Prop
  | ok {settings : List (Setting S)} {s : S} (reads : ∀ x ∈ settings, x.Reads env standard s) :
      Outcome env standard settings (.ok s)
  | error (before after : List (Setting S)) {x : Setting S} {text : String}
      (rejects : x.Rejects env text) (first : ∀ y ∈ before, ∀ text, ¬y.Rejects env text) :
      Outcome env standard (before ++ x :: after) (.error (.invalidVariable x.name text))

/-- The scheme reads its settings in their order, and then checks them. -/
structure Orderly : Prop where
  reads : ∀ env, ∃ result, Outcome env c.standard c.settings result ∧
    c.ofEnvironment env = do
      let s ← result
      c.validate s
      return s
  texts : ∀ env env', (∀ x ∈ c.settings, env'.text? x.name = env.text? x.name) →
    c.ofEnvironment env' = c.ofEnvironment env
  names : (c.settings.map Setting.name).Nodup
  invalid : ∀ s e, c.validate s = .error e → ∃ reason, e = .invalidSetting reason

end Scheme

/-! ### Variables -/

section Variables

variable {S : Type} {x : Setting S} {env : Environment} {standard s : S} {text : String}

theorem text?_readable (env : Environment) (name : String) :
    env.readable.text? name = env.text? name := by
  simp only [Environment.text?, Environment.readable]
  cases env.bytes? name with
  | none => rfl
  | some bytes =>
    cases hText : String.fromUTF8? bytes with
    | none => simp [Option.filter, hText]
    | some text => simp [Option.filter, hText]

namespace Setting

theorem isSet_of_text (h : env.text? x.name = some text) : x.IsSet env := by
  obtain ⟨bytes, hBytes, -⟩ := Option.bind_eq_some_iff.mp h
  rw [IsSet, hBytes]
  rfl

theorem not_unreadable_readable (x : Setting S) (env : Environment) :
    ¬x.Unreadable env.readable := by
  rintro ⟨hSet, hNone⟩
  obtain ⟨bytes, hBytes⟩ := Option.isSome_iff_exists.mp hSet
  obtain ⟨-, hText⟩ := Option.filter_eq_some_iff.mp hBytes
  rw [Environment.text?, hBytes, Option.bind_some] at hNone
  rw [hNone] at hText
  cases hText

/-- A variable that fails holds no text, or one that says nothing. -/
theorem fails_iff : x.Fails env ↔ x.Unreadable env ∨ ∃ text, x.Rejects env text := by
  constructor
  · rintro ⟨hSet, hSays⟩
    cases hText : env.text? x.name with
    | none => exact .inl ⟨hSet, hText⟩
    | some text =>
      refine .inr ⟨text, hText, ?_⟩
      rw [Option.eq_none_iff_forall_ne_some]
      exact fun value hValue => hSays value ⟨text, hText, hValue⟩
  · rintro (⟨hSet, hNone⟩ | ⟨text, hText, hParse⟩)
    · refine ⟨hSet, ?_⟩
      rintro value ⟨text, hText, -⟩
      rw [hNone] at hText
      cases hText
    · refine ⟨isSet_of_text hText, ?_⟩
      rintro value ⟨other, hOther, hValue⟩
      obtain rfl : text = other := Option.some.inj (hText.symm.trans hOther)
      rw [hParse] at hValue
      cases hValue

/-- Without bytes that are no text, reading a variable is following it. -/
theorem Reads.follows (h : x.Reads env standard s) (hReadable : ¬x.Unreadable env) :
    x.Follows env standard s := by
  cases hText : env.text? x.name with
  | none =>
    exact ⟨fun hSet => absurd ⟨hSet, hText⟩ hReadable, fun _ => h.default hText⟩
  | some text =>
    exact ⟨fun _ => ⟨text, hText, h.text text hText⟩,
      fun hUnset => absurd (isSet_of_text hText) hUnset⟩

theorem Reads.not_rejects (h : x.Reads env standard s) (text : String) : ¬x.Rejects env text := by
  rintro ⟨hText, hParse⟩
  rw [h.text text hText] at hParse
  cases hParse

end Setting

end Variables

/-! ### Reading in order -/

namespace Scheme

variable {S : Type} {c : Scheme S} {env : Environment} {standard : S}
  {settings : List (Setting S)}

theorem exists_of_bind_eq_ok {α : Type} {first : Except SettingError α}
    {next : α → Except SettingError S} {s : S} (h : first >>= next = .ok s) :
    ∃ a, next a = .ok s := by
  cases first with
  | error e => cases h
  | ok a => exact ⟨a, h⟩

/-- A variable that is read and not rejected changes nothing about what the others come to. -/
theorem Outcome.of_reads {x : Setting S} {result : Except SettingError S}
    (h : Outcome env standard settings result)
    (hReads : ∀ s, result = .ok s → x.Reads env standard s)
    (hRejects : ∀ text, ¬x.Rejects env text) : Outcome env standard (x :: settings) result := by
  cases h with
  | @ok _ s reads => exact .ok (List.forall_mem_cons.mpr ⟨hReads s rfl, reads⟩)
  | error before after rejects first =>
    exact .error (x :: before) after rejects (List.forall_mem_cons.mpr ⟨hRejects, first⟩)

/-- One more variable is read before all others. -/
theorem Outcome.cons (x : Setting S) {next : x.Value → Except SettingError S}
    (hValue : ∀ value s, next value = .ok s → x.value s = value)
    (hNext : ∀ value, Outcome env standard settings (next value)) :
    Outcome env standard (x :: settings)
      (env.readD x.name x.parse (x.value standard) >>= next) := by
  unfold Environment.readD Environment.read
  cases hText : env.text? x.name with
  | none =>
    refine (hNext _).of_reads (fun s hs => ⟨fun text h => ?_, fun _ => hValue _ s hs⟩)
      fun text h => ?_
    · cases hText.symm.trans h
    · cases hText.symm.trans h.1
  | some text =>
    cases hParse : x.parse (Text.trim text) with
    | some value =>
      simp only [hParse]
      refine (hNext value).of_reads (fun s hs => ⟨fun other h => ?_, fun h => ?_⟩) fun other h => ?_
      · obtain rfl : text = other := Option.some.inj (hText.symm.trans h)
        rw [hParse, hValue value s hs]
      · cases hText.symm.trans h
      · obtain rfl : text = other := Option.some.inj (hText.symm.trans h.1)
        cases hParse.symm.trans h.2
    | none =>
      simp only [hParse]
      exact .error [] settings ⟨hText, hParse⟩ nofun

/-- As far as no text is rejected, no variable fails. -/
theorem Guarded.not_fails (hGuarded : c.Guarded env) {before after : List (Setting S)}
    (hSettings : c.settings = before ++ after)
    (hFirst : ∀ y ∈ before, ∀ text, ¬y.Rejects env text) {x : Setting S} (hx : x ∈ before) :
    ¬x.Fails env := by
  rw [Setting.fails_iff]
  rintro (hUnreadable | ⟨text, hRejects⟩)
  · obtain ⟨earlier, later, rfl⟩ := List.append_of_mem hx
    obtain ⟨y, hy, text, hRejects⟩ := hGuarded earlier x (later ++ after)
      (by simpa using hSettings) hUnreadable
    exact hFirst y (List.mem_append_left _ hy) text hRejects
  · exact hFirst x hx text hRejects

namespace Orderly

variable (hOrderly : c.Orderly)

include hOrderly

/-- Without a variable that holds no text, the settings heed the environment. -/
theorem heeds_of_guarded (hGuarded : c.Guarded env) : c.Heeds env := by
  obtain ⟨result, hOutcome, hResult⟩ := hOrderly.reads env
  generalize hSettings : c.settings = settings at hOutcome
  cases hOutcome with
  | @ok _ s reads =>
    have hReads x (hx : x ∈ c.settings) : x.Reads env c.standard s := reads x (hSettings ▸ hx)
    have hFails x (hx : x ∈ c.settings) : ¬x.Fails env :=
      hGuarded.not_fails (List.append_nil _).symm (fun y hy => (hReads y hy).not_rejects) hx
    have hFollows x (hx : x ∈ c.settings) : x.Follows env c.standard s :=
      (hReads x hx).follows fun hUnreadable =>
        hFails x hx (Setting.fails_iff.mpr (.inl hUnreadable))
    cases hValid : c.validate s with
    | ok =>
      have hRead : c.ofEnvironment env = .ok s := by
        simp [hResult, bind, Except.bind, hValid, pure, Except.pure]
      refine ⟨fun s' h => ?_, fun e h => ?_⟩
      · obtain rfl : s = s' := Except.ok.inj (hRead.symm.trans h)
        exact ⟨hFollows, hValid⟩
      · cases hRead.symm.trans h
    | error e =>
      have hRead : c.ofEnvironment env = .error e := by
        simp [hResult, bind, Except.bind, hValid]
      refine ⟨fun s' h => ?_, fun e' h => ?_⟩
      · cases hRead.symm.trans h
      · obtain rfl : e = e' := Except.error.inj (hRead.symm.trans h)
        exact .inr ⟨hFails, s, hFollows, hValid⟩
  | @error before after x text rejects first =>
    refine ⟨fun s h => ?_, fun e h => ?_⟩
    · cases hResult.symm.trans h
    · obtain rfl := Except.error.inj (hResult.symm.trans h)
      refine .inl ⟨before, x, after, text, hSettings, Setting.fails_iff.mpr (.inr ⟨text, rejects⟩),
        fun y hy => hGuarded.not_fails hSettings first hy, rfl, fun other h => ?_⟩
      exact Option.some.inj (rejects.1.symm.trans h)

/-- A variable is reported only where its text is rejected. -/
theorem rejects_of_reported {x : Setting S} {value : String} (hx : x ∈ c.settings)
    (h : c.ofEnvironment env = .error (.invalidVariable x.name value)) : x.Rejects env value := by
  obtain ⟨result, hOutcome, hResult⟩ := hOrderly.reads env
  rw [h] at hResult
  generalize hSettings : c.settings = settings at hOutcome
  cases hOutcome with
  | @ok _ s reads =>
    cases hValid : c.validate s with
    | ok => simp [bind, Except.bind, hValid, pure, Except.pure] at hResult
    | error e =>
      obtain ⟨reason, rfl⟩ := hOrderly.invalid s e hValid
      simp [bind, Except.bind, hValid] at hResult
  | @error before after y text rejects first =>
    obtain ⟨hName, rfl⟩ : x.name = y.name ∧ value = text := by
      simpa [bind, Except.bind] using hResult
    obtain rfl : x = y :=
      List.inj_on_of_nodup_map hOrderly.names hx (hSettings ▸ by simp) hName
    exact rejects

/-- A variable that holds no text is ignored, unless the text of an earlier one is reported. -/
theorem guarded_of_heeds (hHeeds : c.Heeds env) : c.Guarded env := by
  intro before u after hSettings hUnreadable
  have hu : u ∈ c.settings := hSettings ▸ by simp
  have hFails : u.Fails env := Setting.fails_iff.mpr (.inl hUnreadable)
  cases hRead : c.ofEnvironment env with
  | ok s => exact absurd (((hHeeds.ok s hRead).1 u hu).set hUnreadable.1) (hFails.2 _)
  | error e =>
    obtain ⟨before', x, after', value, hSplit, -, hFirst, rfl, -⟩ | ⟨hNone, -⟩ :=
      hHeeds.error e hRead
    · have hRejects := hOrderly.rejects_of_reported (x := x) (hSplit ▸ by simp) hRead
      have hNe : u ≠ x := by
        rintro rfl
        cases hUnreadable.2.symm.trans hRejects.1
      -- Where the variable stood before the reported one, it would have been reported itself.
      obtain ⟨between, rfl, hAfter⟩ | ⟨between, rfl, hAfter⟩ :=
        List.append_eq_append_iff.mp (hSettings.symm.trans hSplit)
      · cases between with
        | nil => exact absurd (List.cons.inj hAfter).1 hNe
        | cons y rest =>
          obtain rfl := (List.cons.inj hAfter).1
          exact absurd hFails (hFirst u (by simp))
      · cases between with
        | nil => exact absurd (List.cons.inj hAfter).1.symm hNe
        | cons y rest =>
          obtain rfl := (List.cons.inj hAfter).1
          exact ⟨x, by simp, value, hRejects⟩
    · exact absurd hFails (hNone u hu)

/-- Settings that are read in their order and then checked depend on the texts of their own
variables only, and heed all of them. -/
theorem faithful (env : Environment) : c.Faithful env where
  heeds := ⟨hOrderly.guarded_of_heeds, hOrderly.heeds_of_guarded⟩
  readable := by
    refine ⟨(hOrderly.texts env env.readable fun x _ => text?_readable env x.name).symm,
      hOrderly.heeds_of_guarded fun _ x _ _ hUnreadable => ?_⟩
    exact absurd hUnreadable (x.not_unreadable_readable env)
  others env' h :=
    hOrderly.texts env env' fun x hx => congrArg (Option.bind · String.fromUTF8?) (h x hx)

end Orderly

end Scheme

/-! ### The settings of an arena and of a registry -/

namespace Arena.Settings

def scheme : Scheme Settings where
  settings := [⟨Nat, "XTH_LIFO_CHUNK_SIZE", Text.word?, chunkSize⟩,
    ⟨Bool, "XTH_LIFO_PANIC_ON_FAIL", Text.flag?, panics⟩]
  standard := standard
  validate := validate
  ofEnvironment := ofEnvironment

theorem scheme_orderly : scheme.Orderly where
  reads env := by
    refine ⟨do
      let chunkSize ← env.readD "XTH_LIFO_CHUNK_SIZE" Text.word? standard.chunkSize
      let panics ← env.readD "XTH_LIFO_PANIC_ON_FAIL" Text.flag? standard.panics
      return ⟨chunkSize, panics⟩, ?_, ?_⟩
    · refine .cons _ (fun chunkSize s h => ?_) fun chunkSize =>
        .cons _ (fun panics s h => ?_) fun panics => .ok nofun
      · obtain ⟨panics, h⟩ := Scheme.exists_of_bind_eq_ok h
        exact congrArg Settings.chunkSize (Except.ok.inj h).symm
      · exact congrArg Settings.panics (Except.ok.inj h).symm
    · simp only [scheme, ofEnvironment, bind_assoc, pure_bind]
  texts env env' h := by
    have hSize := h _ (.head _)
    have hPanics := h _ (.tail _ (.head _))
    simp only [scheme, ofEnvironment, Environment.readD, Environment.read] at *
    rw [hSize, hPanics]
  names := by decide
  invalid s e h := by
    simp only [scheme, validate] at h
    split at h
    · exact ⟨_, (Except.error.inj h).symm⟩
    · cases h

end Arena.Settings

namespace Registry.Settings

def scheme : Scheme Settings where
  settings := [⟨Nat, "XTH_PTR_SUBTAG_DEPTH", Text.word?, depthLimit⟩,
    ⟨Policy, "XTH_PTR_REREGISTER", Policy.ofWord?, policy⟩,
    ⟨Bool, "XTH_PTR_CAST_REQUIRES_REGISTRATION", Text.flag?, castRequiresRegistration⟩]
  standard := standard
  validate := validate
  ofEnvironment := ofEnvironment

theorem scheme_orderly : scheme.Orderly where
  reads env := by
    refine ⟨do
      let depthLimit ← env.readD "XTH_PTR_SUBTAG_DEPTH" Text.word? standard.depthLimit
      let policy ← env.readD "XTH_PTR_REREGISTER" Policy.ofWord? standard.policy
      let castRequires ← env.readD "XTH_PTR_CAST_REQUIRES_REGISTRATION" Text.flag?
        standard.castRequiresRegistration
      return ⟨depthLimit, policy, castRequires⟩, ?_, ?_⟩
    · refine .cons _ (fun depthLimit s h => ?_) fun depthLimit =>
        .cons _ (fun policy s h => ?_) fun policy =>
          .cons _ (fun castRequires s h => ?_) fun castRequires => .ok nofun
      · obtain ⟨policy, h⟩ := Scheme.exists_of_bind_eq_ok h
        obtain ⟨castRequires, h⟩ := Scheme.exists_of_bind_eq_ok h
        exact congrArg Settings.depthLimit (Except.ok.inj h).symm
      · obtain ⟨castRequires, h⟩ := Scheme.exists_of_bind_eq_ok h
        exact congrArg Settings.policy (Except.ok.inj h).symm
      · exact congrArg Settings.castRequiresRegistration (Except.ok.inj h).symm
    · simp only [scheme, ofEnvironment, bind_assoc, pure_bind]
  texts env env' h := by
    have hDepth := h _ (.head _)
    have hPolicy := h _ (.tail _ (.head _))
    have hCast := h _ (.tail _ (.tail _ (.head _)))
    simp only [scheme, ofEnvironment, Environment.readD, Environment.read] at *
    rw [hDepth, hPolicy, hCast]
  names := by decide
  invalid s e h := by
    simp only [scheme, validate] at h
    split at h
    · exact ⟨_, (Except.error.inj h).symm⟩
    · cases h

end Registry.Settings

/-- For every environment, reading the settings of an arena or of a registry heeds the variables
that are set exactly where no variable is set to bytes that are no text before the first text to be
reported. A variable that is set to such bytes counts as one that is not set, and once it is taken
out the environment is heeded. Other variables change nothing. -/
theorem environment_heeded (env : Environment) :
    Arena.Settings.scheme.Faithful env ∧ Registry.Settings.scheme.Faithful env :=
  ⟨Arena.Settings.scheme_orderly.faithful env, Registry.Settings.scheme_orderly.faithful env⟩

/-- A chunk size that is set to bytes that are no text is ignored without an error. -/
theorem not_heeds_unreadable :
    ¬Arena.Settings.scheme.Heeds (.ofList [("XTH_LIFO_CHUNK_SIZE", ⟨#[255]⟩)]) := by
  intro hHeeds
  have hRead : Arena.Settings.scheme.ofEnvironment (.ofList [("XTH_LIFO_CHUNK_SIZE", ⟨#[255]⟩)]) =
      .ok Arena.Settings.standard := by decide
  obtain ⟨text, hSays, -⟩ := ((hHeeds.ok _ hRead).1 _ (.head _)).set rfl
  have hText : (Environment.ofList [("XTH_LIFO_CHUNK_SIZE", ⟨#[255]⟩)]).text?
      "XTH_LIFO_CHUNK_SIZE" = none := by decide
  cases hText.symm.trans hSays

end ArenaRegistry
