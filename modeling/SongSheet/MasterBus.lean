/-
SongSheet/MasterBus.lean

The output that all tones of a session are mixed into.

A bus has a volume between 0 and 1.  Tones are scaled by its gain, a tenth of
the volume, which leaves room for many tones that sound at once.
-/
import SongSheet.Binary.Value

namespace SongSheet

/-- The volume all tones are scaled by. -/
structure MasterBus where
  volume : Single
  deriving DecidableEq

namespace MasterBus

/-- Full volume. -/
def initial : MasterBus := ⟨Binary.ofNat 1⟩

/-- How much lower the gain is than the volume. -/
def attenuation : Nat := 10

/-- The volume that is kept when `x` is asked for: moved into `0 ..= 1`, and
silence for what is not a number. -/
def kept (x : Single) : Single :=
  if x.isNaN then Binary.zero false else x.clamp (Binary.zero false) (Binary.ofNat 1)

/-- The bus with the volume that is kept of `x`. -/
def withVolume (x : Single) : MasterBus := ⟨kept x⟩

/-- What the volume of a tone is multiplied by. -/
def gain (b : MasterBus) : Single := b.volume.divNat attenuation

@[simp] theorem volume_withVolume (x : Single) : (withVolume x).volume = kept x := by
  simp only [withVolume]

end MasterBus

end SongSheet
