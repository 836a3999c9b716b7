/-
The room that lists take in memory. Addresses end somewhere, so a list of too many items cannot be
made.
-/

namespace Fixtures.Memory

/-- The most bytes that one list may take. -/
def maxBytes : Nat := 0x7fffffffffffffff

/-- Whether a list of `count` items of `bytes` bytes each can be addressed. -/
def holds (bytes count : Nat) : Bool := bytes * count ≤ maxBytes

end Fixtures.Memory
