import Mathlib.Algebra.Ring.Int.Defs
import Mathlib.Data.List.TakeWhile
import RoboticsIpc.Lib.ByteBuffer

/-!
What the model takes from the C++ runtime: exceptions, calls that may throw
after having changed some state, and NUL-terminated strings.
-/

namespace RoboticsIpc

open ByteBuffer

/-- `std::runtime_error` and its text. -/
structure RuntimeError where
  what : Bytes
deriving DecidableEq

/-- A call that returns or throws. Either way `state` is what it leaves behind:
effects before the throw are kept, as in the source. -/
@[ext]
structure Outcome (State Value : Type) where
  state : State
  result : Except RuntimeError Value

/-- `std::to_string`. -/
def toStdString (n : Int) : Bytes := ascii (toString n)

/-- A string as a `const char*` sees it: it ends at the first NUL. Equality of
two of them is `std::strcmp(a, b) == 0`. -/
structure CStr where
  bytes : Bytes
  noNul : (0 : UInt8) ∉ bytes
deriving DecidableEq

/-- `std::string::c_str`: bytes after an embedded NUL are out of reach. -/
def cStr (s : Bytes) : CStr where
  bytes := s.takeWhile (· != 0)
  noNul := by
    intro mem
    simpa using List.mem_takeWhile_imp mem

theorem cStr_of_noNul {text : Bytes} (noNul : (0 : UInt8) ∉ text) : (cStr text).bytes = text := by
  simp only [cStr]
  rw [List.takeWhile_eq_self_iff]
  intro c mem
  have nonzero : c ≠ 0 := fun zero => noNul (zero ▸ mem)
  simpa using nonzero

/-- A string is all of its text unless that has a NUL. -/
theorem cStr_bytes_iff (text : Bytes) : (cStr text).bytes = text ↔ (0 : UInt8) ∉ text := by
  constructor
  · intro whole
    rw [← whole]
    exact (cStr text).noNul
  · exact cStr_of_noNul

end RoboticsIpc
