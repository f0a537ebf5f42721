/-!
Timestamps are whole numbers of ticks that fit a signed word of 64 bits.
-/

namespace VideoSchedule.Tick

def lowest : Int := -0x8000000000000000

def highest : Int := 0x7FFFFFFFFFFFFFFF

def InRange (tick : Int) : Prop := lowest ≤ tick ∧ tick ≤ highest

instance (tick : Int) : Decidable (InRange tick) := inferInstanceAs (Decidable (_ ∧ _))

def saturate (tick : Int) : Int := max lowest (min highest tick)

def wrap (tick : Int) : Int := Int.bmod tick 0x10000000000000000

/-- A difference that does not fit is replaced by the lowest tick, whatever its sign. -/
def differenceOrLowest (first second : Int) : Int :=
  if InRange (first - second) then first - second else lowest

theorem saturate_of_inRange {tick : Int} (fits : InRange tick) : saturate tick = tick := by
  simp only [InRange, saturate, lowest, highest] at *
  omega

theorem wrap_of_inRange {tick : Int} (fits : InRange tick) : wrap tick = tick := by
  simp only [InRange, lowest, highest] at fits
  exact Int.bmod_eq_of_le_mul_two (by omega) (by omega)

end VideoSchedule.Tick
