import HackToolchain.Machine.Alu

/-!
The data memory of the Hack computer: 32768 words, all zero at the start.
-/

namespace HackToolchain

/-- The contents of the data memory. -/
structure Memory where
  words : Vector Word 32768
deriving DecidableEq

namespace Memory

def size : Nat := 32768

def zero : Memory := ⟨Vector.replicate 32768 0⟩

def isAddress (address : Int) : Bool := 0 ≤ address && address < size

/-- The word at an address, and zero beyond the memory. -/
def get (m : Memory) (address : Nat) : Word := m.words[address]?.getD 0

/-- The memory with another word at an address; beyond the memory nothing changes. -/
def set (m : Memory) (address : Nat) (value : Word) : Memory := ⟨m.words.setIfInBounds address value⟩

/-- The word at an address, if it selects one. -/
def read? (m : Memory) (address : Int) : Option Word :=
  if isAddress address then some (m.get address.toNat) else none

/-- The non-zero words as maximal runs, each with its first address. -/
def runs (m : Memory) : List (Nat × List Word) :=
  (m.words.toList.foldr step ([], size)).1
where
  /-- Puts the word in front of a position before the runs found from there on. -/
  step (value : Word) : List (Nat × List Word) × Nat → List (Nat × List Word) × Nat
    | (found, position) =>
      let here := position - 1
      if value = 0 then (found, here)
      else match found with
        | (first, values) :: rest =>
          if first = position then ((here, value :: values) :: rest, here) else ((here, [value]) :: found, here)
        | [] => ([(here, [value])], here)

end Memory

end HackToolchain
