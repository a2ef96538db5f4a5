import HackToolchain.Machine.Memory

/-!
Words as addresses, and the memory as a function of them. A natural number below the size of the
memory is the word that selects it, and addition and subtraction of words are those of the numbers as
long as these stay in range.
-/

namespace HackToolchain

def Word.ofNat (n : Nat) : Word := Int16.ofNat n

namespace Word

theorem ofInt_natCast (n : Nat) : Int16.ofInt n = ofNat n := Int16.ofInt_eq_ofNat

theorem ofNat_add_one (n : Nat) : ofNat n + 1 = ofNat (n + 1) := (Int16.ofNat_add n 1).symm

theorem ofNat_sub_one {n : Nat} (positive : 0 < n) : ofNat n - 1 = ofNat (n - 1) :=
  (Int16.ofNat_sub n 1 positive).symm

theorem ofNat_add (n m : Nat) : ofNat n + ofNat m = ofNat (n + m) := (Int16.ofNat_add n m).symm

theorem ofNat_sub {n m : Nat} (le : m ≤ n) : ofNat n - ofNat m = ofNat (n - m) := (Int16.ofNat_sub n m le).symm

theorem toInt_ofNat {n : Nat} (fits : n < 32768) : (ofNat n).toInt = n := Int16.toInt_ofNat_of_lt fits

theorem toInt_range (w : Word) : -32768 ≤ w.toInt ∧ w.toInt ≤ 32767 :=
  ⟨Int16.le_toInt w, Int.lt_add_one_iff.mp (Int16.toInt_lt w)⟩

theorem index_ofNat {n : Nat} (fits : n < 32768) : (ofNat n).toInt.toNat = n := by
  rw [toInt_ofNat fits]
  simp

theorem isAddress_ofNat {n : Nat} (fits : n < 32768) : Memory.isAddress (ofNat n).toInt = true := by
  rw [toInt_ofNat fits]
  have low : (0 : Int) ≤ n := Int.natCast_nonneg n
  have high : (n : Int) < Memory.size := by
    simp only [Memory.size]
    omega
  simp only [Memory.isAddress, low, high, decide_true, Bool.and_self]

theorem eq_ofNat {w : Word} {n : Nat} (value : w.toInt = n) : w = ofNat n := by
  rw [← Int16.ofInt_toInt w, value]
  exact ofInt_natCast n

end Word

namespace Memory

theorem isAddress_fits {address : Int} (inside : isAddress address = true) : address.toNat < 32768 := by
  have high : address < (32768 : Int) := of_decide_eq_true (Bool.and_eq_true_iff.mp inside).2
  omega

theorem get_zero (address : Nat) : zero.get address = 0 := by
  simp only [get, zero, Vector.getElem?_replicate]
  split <;> rfl

theorem set_set (m : Memory) (address : Nat) (value : Word) :
    (m.set address value).set address value = m.set address value := by
  simp [set]

theorem get_set_self (m : Memory) {address : Nat} (value : Word) (fits : address < 32768) :
    (m.set address value).get address = value := by
  simp [get, set, fits]

theorem get_set_ne (m : Memory) {address other : Nat} (value : Word) (ne : other ≠ address) :
    (m.set address value).get other = m.get other := by
  simp [get, set, Vector.getElem?_setIfInBounds_ne ne.symm]

theorem get_set_congr {m m' : Memory} {address other : Nat} (value : Word) (fits : address < 32768)
    (same : m.get other = m'.get other) : (m.set address value).get other = (m'.set address value).get other := by
  by_cases here : other = address
  · rw [here, get_set_self _ _ fits, get_set_self _ _ fits]
  · rw [get_set_ne _ _ here, get_set_ne _ _ here, same]

/-- The memory after a push, when the stack pointer selects `s`. -/
def push (m : Memory) (s : Nat) (value : Word) : Memory := (m.set s value).set 0 (Word.ofNat (s + 1))

def pushes (m : Memory) : (s : Nat) → List Word → Memory
  | _, [] => m
  | s, value :: values => (m.push s value).pushes (s + 1) values

theorem get_push_zero (m : Memory) (s : Nat) (value : Word) : (m.push s value).get 0 = Word.ofNat (s + 1) :=
  get_set_self _ _ (by decide)

theorem get_push_ne (m : Memory) {s other : Nat} (value : Word) (zero : other ≠ 0) (ne : other ≠ s) :
    (m.push s value).get other = m.get other := by
  rw [push, get_set_ne _ _ zero, get_set_ne _ _ ne]

theorem get_push_self (m : Memory) {s : Nat} (value : Word) (low : 0 < s) (high : s < 32768) :
    (m.push s value).get s = value := by
  rw [push, get_set_ne _ _ (by omega), get_set_self _ _ high]

theorem get_pushes_zero {m : Memory} {s : Nat} (sp : m.get 0 = Word.ofNat s) (values : List Word) :
    (m.pushes s values).get 0 = Word.ofNat (s + values.length) := by
  induction values generalizing m s with
  | nil => exact sp
  | cons value values ih =>
    rw [pushes, ih (get_push_zero m s value), List.length_cons]
    congr 1
    omega

theorem get_pushes_outside (m : Memory) {s other : Nat} {values : List Word} (zero : other ≠ 0)
    (outside : other < s ∨ s + values.length ≤ other) : (m.pushes s values).get other = m.get other := by
  induction values generalizing m s with
  | nil => rfl
  | cons value values ih =>
    rw [List.length_cons] at outside
    rw [pushes, ih _ (by omega), get_push_ne _ _ zero (by omega)]

theorem get_pushes_inside (m : Memory) {s i : Nat} {values : List Word} (low : 0 < s)
    (high : s + values.length ≤ 32768) (inside : i < values.length) :
    (m.pushes s values).get (s + i) = values[i] := by
  induction values generalizing m s i with
  | nil => cases inside
  | cons value values ih =>
    rw [List.length_cons] at high
    cases i with
    | zero =>
      rw [pushes, get_pushes_outside _ (by omega) (by omega)]
      exact get_push_self _ _ low (by omega)
    | succ i =>
      rw [pushes, show s + (i + 1) = s + 1 + i by omega]
      exact ih _ (by omega) (by omega) (by simpa using inside)

end Memory

end HackToolchain
