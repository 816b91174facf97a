import Mathlib.Init

/-!
# Text — narrow strings

A `std::string` is a byte string: what arrives from the wire need not be valid UTF-8.
-/

namespace AudioFork

abbrev Text := List UInt8

/-- A C++ string literal. -/
def ascii (s : String) : Text := s.toUTF8.data.toList

end AudioFork
