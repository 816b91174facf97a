import AudioFork.Text
import Mathlib.Algebra.Group.Int.Defs
import Mathlib.Algebra.Group.Nat.Defs

/-!
# Config — the parameters of a fork

`AudioFormat`, `Endpoint` and `ForkParams` of `config.hpp`, as far as a session reads them, and the
`Tuning` of `fork_session.hpp`.  Durations are in milliseconds.
-/

namespace AudioFork

structure AudioFormat where
  sampleRate : Nat
  channels : Nat
  deriving DecidableEq, Repr

def AudioFormat.bytesPerSecond (f : AudioFormat) : Nat := f.sampleRate * f.channels * 2

/-- Milliseconds are signed, the product is a `size_t`. -/
def AudioFormat.bytesForDuration (f : AudioFormat) (duration : Int) : Nat :=
  f.bytesPerSecond * (duration % 2 ^ 64).toNat % 2 ^ 64 / 1000

structure Endpoint where
  host : Text
  port : Nat
  path : Text
  tls : Bool
  deriving DecidableEq, Repr

structure ForkParams where
  callUuid : Text
  forkId : Text
  endpoint : Endpoint
  format : AudioFormat
  metadataJson : Text
  deriving DecidableEq, Repr

structure Tuning where
  sendCapBytes : Nat
  handoffBytes : Nat
  coalesceMaxBytes : Nat
  /-- Zero disables degradation. -/
  emergencyCapBytes : Nat
  drainTimeout : Nat
  /-- Zero disables playback. -/
  playbackHighWatermarkBytes : Nat
  playbackLowWatermarkBytes : Nat
  playbackHandoffBytes : Nat
  deriving DecidableEq, Repr

end AudioFork
