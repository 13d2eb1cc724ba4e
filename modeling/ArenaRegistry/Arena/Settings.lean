import ArenaRegistry.Arena.Flags
import ArenaRegistry.Settings.Environment
import ArenaRegistry.Size
import ArenaRegistry.Text.Numeral
import ArenaRegistry.Text.Spelling

/-! The settings of an arena: how large its chunks are meant to be, and whether it panics where an
allocation fails. -/

namespace ArenaRegistry.Arena

structure Settings where
  chunkSize : Nat
  panics : Bool
deriving DecidableEq, Repr

namespace Settings

/-- The smallest chunk; a smaller wish is raised to it. -/
def minChunk : Nat := 8000

/-- The chunk size used where none is given. -/
def defaultChunk : Nat := 16000

/-- The largest chunk size that is accepted, a quarter of the largest request. -/
def maxChunk : Nat := Size.largest / 4

def standard : Settings := ⟨defaultChunk, false⟩

/-- The settings for a chunk size and raw flags. -/
def withHint (chunkSize : Nat) (flags : Flags) : Settings := ⟨chunkSize, flags.panics⟩

/-- Accepts settings whose chunk size is not too large. -/
def validate (s : Settings) : Except SettingError Unit :=
  if maxChunk < s.chunkSize then
    .error (.invalidSetting ("chunk_size " ++ toString s.chunkSize ++ " exceeds maximum " ++
      toString maxChunk))
  else .ok ()

/-- The chunk size that an arena uses: at least the smallest, in whole grains. -/
def effectiveChunkSize (s : Settings) : Nat := Size.roundUp (max s.chunkSize minChunk)

def flags (s : Settings) : Flags := .ofPanics s.panics

/-- The settings that the environment asks for, the standard ones where it is silent. -/
def ofEnvironment (env : Environment) : Except SettingError Settings := do
  let chunkSize ← env.readD "XTH_LIFO_CHUNK_SIZE" Text.word? standard.chunkSize
  let panics ← env.readD "XTH_LIFO_PANIC_ON_FAIL" Text.flag? standard.panics
  let settings : Settings := ⟨chunkSize, panics⟩
  settings.validate
  return settings

end Settings

end ArenaRegistry.Arena
