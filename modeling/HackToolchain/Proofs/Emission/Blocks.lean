import HackToolchain.Proofs.Emission.Execution

/-!
What the blocks of generated code do to the memory, as long as the stack lies between the registers
and the end of the memory. The stack pointer is word 0; a block leaves alone every word that it does
not name.
-/

namespace HackToolchain.Emission

open Memory

/-- The predefined symbols and the numbers have their usual values. -/
structure Pointers (value : Text → Int) : Prop where
  sp : value "SP" = (0 : Nat)
  lcl : value "LCL" = (1 : Nat)
  arg : value "ARG" = (2 : Nat)
  this : value "THIS" = (3 : Nat)
  that : value "THAT" = (4 : Nat)
  r13 : value "R13" = (13 : Nat)
  r14 : value "R14" = (14 : Nat)
  number : ∀ n : Nat, n < 32768 → value (Text.ofInt n) = n

section Instructions

variable (value : Text → Int) (lines : List Line) {a d : Word} {m : Memory} {n : Nat}

theorem exec_number (pointers : Pointers value) (fits : n < 32768) :
    exec value (Line.number n :: lines) ⟨a, d, m⟩ = exec value lines ⟨Word.ofNat n, d, m⟩ := by
  rw [Line.number, exec_address, pointers.number n fits, Word.ofInt_natCast]

theorem exec_copyA : exec value (Line.set [.D] .x :: lines) ⟨a, d, m⟩ = exec value lines ⟨a, a, m⟩ :=
  exec_set value lines [.D] .x rfl

theorem exec_addA : exec value (Line.set [.A] .dPlusX :: lines) ⟨a, d, m⟩ = exec value lines ⟨d + a, d, m⟩ :=
  exec_set value lines [.A] .dPlusX rfl

theorem exec_addD : exec value (Line.set [.D] .dPlusX :: lines) ⟨a, d, m⟩ = exec value lines ⟨a, d + a, m⟩ :=
  exec_set value lines [.D] .dPlusX rfl

theorem exec_subtractA : exec value (Line.set [.A] .dMinusX :: lines) ⟨a, d, m⟩ = exec value lines ⟨d - a, d, m⟩ :=
  exec_set value lines [.A] .dMinusX rfl

theorem exec_subtractD : exec value (Line.set [.D] .dMinusX :: lines) ⟨a, d, m⟩ = exec value lines ⟨a, d - a, m⟩ :=
  exec_set value lines [.D] .dMinusX rfl

variable (fits : n < 32768)
include fits

theorem exec_loadA : exec value (Line.setM [.A] .x :: lines) ⟨Word.ofNat n, d, m⟩ =
    exec value lines ⟨m.get n, d, m⟩ := exec_setM value lines [.A] .x rfl fits

theorem exec_loadD : exec value (Line.setM [.D] .x :: lines) ⟨Word.ofNat n, d, m⟩ =
    exec value lines ⟨Word.ofNat n, m.get n, m⟩ := exec_setM value lines [.D] .x rfl fits

theorem exec_loadNext : exec value (Line.setM [.D] .xPlusOne :: lines) ⟨Word.ofNat n, d, m⟩ =
    exec value lines ⟨Word.ofNat n, m.get n + 1, m⟩ := exec_setM value lines [.D] .xPlusOne rfl fits

theorem exec_loadBefore : exec value (Line.setM [.A] .xMinusOne :: lines) ⟨Word.ofNat n, d, m⟩ =
    exec value lines ⟨m.get n - 1, d, m⟩ := exec_setM value lines [.A] .xMinusOne rfl fits

theorem exec_stepBack : exec value (Line.setM [.A, .M] .xMinusOne :: lines) ⟨Word.ofNat n, d, m⟩ =
    exec value lines ⟨m.get n - 1, d, m.set n (m.get n - 1)⟩ := exec_setM value lines [.A, .M] .xMinusOne rfl fits

theorem exec_increment : exec value (Line.setM [.M] .xPlusOne :: lines) ⟨Word.ofNat n, d, m⟩ =
    exec value lines ⟨Word.ofNat n, d, m.set n (m.get n + 1)⟩ := exec_setM value lines [.M] .xPlusOne rfl fits

theorem exec_difference : exec value (Line.setM [.D] .xMinusD :: lines) ⟨Word.ofNat n, d, m⟩ =
    exec value lines ⟨Word.ofNat n, m.get n - d, m⟩ := exec_setM value lines [.D] .xMinusD rfl fits

theorem exec_storeD : exec value (Line.set [.M] .d :: lines) ⟨Word.ofNat n, d, m⟩ =
    exec value lines ⟨Word.ofNat n, d, m.set n d⟩ := exec_store value lines [.M] .d rfl fits

theorem exec_storeZero : exec value (Line.set [.M] .zero :: lines) ⟨Word.ofNat n, d, m⟩ =
    exec value lines ⟨Word.ofNat n, d, m.set n 0⟩ := exec_store value lines [.M] .zero rfl fits

theorem exec_storeMinusOne : exec value (Line.set [.M] .minusOne :: lines) ⟨Word.ofNat n, d, m⟩ =
    exec value lines ⟨Word.ofNat n, d, m.set n (-1)⟩ := exec_store value lines [.M] .minusOne rfl fits

theorem exec_update {f : Alu} (uses : usesOperand f = true) :
    exec value (Line.setM [.M] f :: lines) ⟨Word.ofNat n, d, m⟩ =
      exec value lines ⟨Word.ofNat n, d, m.set n (f.eval (m.get n) d)⟩ := exec_setM value lines [.M] f uses fits

end Instructions

/-! ### The stack -/

section Stack

variable {value : Text → Int} (pointers : Pointers value) {a d : Word} {m : Memory} {s : Nat}
  (sp : m.get 0 = Word.ofNat s)
include pointers sp

theorem exec_pushD (low : 0 < s) (high : s < 32768) :
    exec value pushD ⟨a, d, m⟩ = some ⟨Word.ofNat 0, d, m.push s d⟩ := by
  simp (disch := omega) only [pushD, exec_address, pointers.sp, Word.ofInt_natCast, exec_loadA, sp, exec_storeD,
    exec_increment, get_set_ne, Word.ofNat_add_one, exec_nil, push]

theorem exec_popD (low : 1 < s) (high : s < 32768) :
    exec value popD ⟨a, d, m⟩ = some ⟨Word.ofNat (s - 1), m.get (s - 1), m.set 0 (Word.ofNat (s - 1))⟩ := by
  simp (disch := omega) only [popD, exec_address, pointers.sp, Word.ofInt_natCast, exec_stepBack, sp, exec_loadD,
    get_set_ne, Word.ofNat_sub_one, exec_nil]

theorem exec_pushConstant {n : Nat} (fits : n < 32768) (low : 0 < s) (high : s < 32768) :
    exec value (pushConstant n) ⟨a, d, m⟩ = some ⟨Word.ofNat 0, Word.ofNat n, m.push s (Word.ofNat n)⟩ := by
  rw [pushConstant, List.cons_append, List.singleton_append, exec_number _ _ pointers fits, exec_copyA,
    exec_pushD pointers sp low high]

theorem exec_pushPointer {pointer : Text} {k : Nat} (selects : value pointer = k) (small : k < 32768)
    (low : 0 < s) (high : s < 32768) :
    exec value (pushPointer pointer) ⟨a, d, m⟩ = some ⟨Word.ofNat 0, m.get k, m.push s (m.get k)⟩ := by
  rw [pushPointer, List.cons_append, List.singleton_append, exec_address, selects, Word.ofInt_natCast,
    exec_loadD _ _ small, exec_pushD pointers sp low high]

theorem exec_pushIndexed {pointer : Text} {k i target : Nat} (selects : value pointer = k) (small : k < 32768)
    (index : i < 32768) (lands : m.get k + Word.ofNat i = Word.ofNat target) (fits : target < 32768)
    (low : 0 < s) (high : s < 32768) :
    exec value (pushIndexed pointer i) ⟨a, d, m⟩ = some ⟨Word.ofNat 0, m.get target, m.push s (m.get target)⟩ := by
  rw [pushIndexed, exec_append]
  simp (disch := omega) only [exec_address, selects, Word.ofInt_natCast, exec_loadD,
    exec_number _ _ pointers, exec_addA, lands, exec_nil, exec_bind]
  exact exec_pushD pointers sp low high

theorem exec_popIndexed {pointer : Text} {k i target : Nat} (selects : value pointer = k) (small : k < 13)
    (index : i < 32768) (lands : m.get k + Word.ofNat i = Word.ofNat target) (fits : target < 32768)
    (low : 14 < s) (high : s < 32768) :
    exec value (popIndexed pointer i) ⟨a, d, m⟩ =
      some ⟨Word.ofNat target, m.get (s - 1),
        ((m.set 13 (Word.ofNat target)).set 0 (Word.ofNat (s - 1))).set target (m.get (s - 1))⟩ := by
  have kept : (m.set 13 (Word.ofNat target)).get 0 = Word.ofNat s := by rw [get_set_ne _ _ (by omega), sp]
  rw [popIndexed, exec_append, exec_append]
  simp (disch := omega) only [exec_address, selects, Word.ofInt_natCast, exec_loadD,
    exec_number _ _ pointers, exec_addD, lands, pointers.r13, exec_storeD, exec_nil, exec_bind]
  rw [exec_popD pointers kept (by omega) high]
  simp (disch := omega) only [exec_address, pointers.r13, Word.ofInt_natCast, exec_loadA, get_set_ne, get_set_self,
    exec_storeD, exec_nil, exec_bind]

theorem exec_combine {f : Alu} (uses : usesOperand f = true) (low : 2 < s) (high : s < 32768) :
    ∃ r, exec value (combine f) ⟨a, d, m⟩ = some r ∧
      r.memory = (m.set 0 (Word.ofNat (s - 1))).set (s - 2) (f.eval (m.get (s - 2)) (m.get (s - 1))) := by
  rw [combine, exec_append, exec_popD pointers sp (by omega) high]
  simp (disch := omega) only [exec_address, pointers.sp, Word.ofInt_natCast, exec_loadBefore, get_set_self,
    Word.ofNat_sub_one, exec_update _ _ _ uses, get_set_ne, exec_nil, exec_bind]
  exact ⟨_, rfl, rfl⟩

theorem exec_pushZeros {n : Nat} (low : 0 < s) (high : s + n ≤ 32767) :
    ∃ r, exec value (List.replicate n pushZero).flatten ⟨a, d, m⟩ = some r ∧
      r.memory = m.pushes s (List.replicate n 0) := by
  induction n generalizing a d m s with
  | zero => exact ⟨_, exec_nil _ _, rfl⟩
  | succ n ih =>
    have one : exec value pushZero ⟨a, d, m⟩ = some ⟨Word.ofNat 0, Word.ofNat 0, m.push s (Word.ofNat 0)⟩ :=
      @exec_pushConstant _ pointers _ _ _ _ sp 0 (by omega) low (by omega)
    rw [List.replicate_succ, List.flatten_cons, exec_append, one, exec_bind, List.replicate_succ, pushes]
    exact ih (get_push_zero m s _) (by omega) (by omega)

end Stack

/-! ### Functions -/

def callBody (name : Text) (arguments : Int) (returnLabel : Text) : List Line :=
  [.address returnLabel, Line.set [.D] .x] ++ pushD ++
    pushPointer "LCL" ++ pushPointer "ARG" ++ pushPointer "THIS" ++ pushPointer "THAT" ++
    [.address "SP", Line.setM [.D] .x, Line.number (argumentOffset arguments), Line.set [.D] .dMinusX,
      .address "ARG", Line.set [.M] .d, .address "SP", Line.setM [.D] .x, .address "LCL", Line.set [.M] .d,
      .address name]

theorem callCode_eq (name : Text) (arguments : Int) (returnLabel : Text) :
    callCode name arguments returnLabel = callBody name arguments returnLabel ++ [Line.jump, .label returnLabel] := by
  simp [callCode, callBody]

def restores : List Line :=
  restore "THAT" 1 ++ restore "THIS" 2 ++ restore "ARG" 3 ++ restore "LCL" 4 ++ [.address "R14", Line.setM [.A] .x]

def returnBody : List Line :=
  [.address "LCL", Line.setM [.D] .x, .address "R13", Line.set [.M] .d, Line.number frameSize,
      Line.set [.A] .dMinusX, Line.setM [.D] .x, .address "R14", Line.set [.M] .d] ++ popD ++
    [.address "ARG", Line.setM [.A] .x, Line.set [.M] .d, .address "ARG", Line.setM [.D] .xPlusOne,
      .address "SP", Line.set [.M] .d] ++ restores

theorem returnCode_eq : returnCode = returnBody ++ [Line.jump] := by
  simp [returnCode, returnBody, restores]

/-- The lines of a call in front of those that save the last pointer. -/
def callFront (returnLabel : Text) : List Line :=
  [.address returnLabel, Line.set [.D] .x] ++ pushD ++ pushPointer "LCL" ++ pushPointer "ARG" ++ pushPointer "THIS"

/-- The memory after the return address and all pointers but the last are pushed, each as it is when its turn comes. -/
def framedFront (m : Memory) (s back : Nat) : Memory :=
  let m := m.push s (Word.ofNat back)
  let m := m.push (s + 1) (m.get 1)
  let m := m.push (s + 2) (m.get 2)
  m.push (s + 3) (m.get 3)

def framed (m : Memory) (s back : Nat) : Memory :=
  (framedFront m s back).push (s + 4) ((framedFront m s back).get 4)

/-- Above the pointers, a frame saves them as they were before. -/
theorem framed_eq (m : Memory) {s : Nat} (back : Nat) (low : 4 < s) :
    framed m s back = m.pushes s [Word.ofNat back, m.get 1, m.get 2, m.get 3, m.get 4] := by
  simp (disch := omega) only [framed, framedFront, get_push_ne, pushes]

/-- The memory after a call, when the stack pointer selects `s`. -/
def called (m : Memory) (s n back : Nat) : Memory :=
  ((m.pushes s [Word.ofNat back, m.get 1, m.get 2, m.get 3, m.get 4]).set 2 (Word.ofNat (s - n))).set 1
    (Word.ofNat (s + 5))

/-- The memory after a return from a frame based at `base`, with the first argument at `result` and the
stack pointer at `top`. -/
def returned (m : Memory) (base result top : Nat) : Memory :=
  ((((((((m.set 13 (Word.ofNat base)).set 14 (m.get (base - 5))).set 0 (Word.ofNat (top - 1))).set result
    (m.get (top - 1))).set 0 (Word.ofNat (result + 1))).set 4 (m.get (base - 1))).set 3 (m.get (base - 2))).set 2
    (m.get (base - 3))).set 1 (m.get (base - 4))

theorem argumentOffset_eq {n : Nat} (small : n < 32768) : argumentOffset n = (n + 5 : Nat) := by
  rw [argumentOffset, frameSize, Int.bmod_eq_of_le (by omega) (by omega)]
  rfl

section Functions

variable {value : Text → Int} (pointers : Pointers value) {a d : Word} {m : Memory}
include pointers

theorem exec_setStackPointer {n : Nat} (fits : n < 32768) :
    exec value (setStackPointer n) ⟨a, d, m⟩ = some ⟨Word.ofNat 0, Word.ofNat n, m.set 0 (Word.ofNat n)⟩ := by
  simp (disch := omega) only [setStackPointer, exec_number _ _ pointers, exec_copyA, exec_address, pointers.sp,
    Word.ofInt_natCast, exec_storeD, exec_nil]

theorem exec_callFront {returnLabel : Text} {s back : Nat} (sp : m.get 0 = Word.ofNat s) (low : 0 < s) (high : s + 3 < 32768)
    (returns : value returnLabel = back) :
    ∃ d', exec value (callFront returnLabel) ⟨a, d, m⟩ = some ⟨Word.ofNat 0, d', framedFront m s back⟩ := by
  have first : exec value ([.address returnLabel, Line.set [.D] .x] ++ pushD) ⟨a, d, m⟩ =
      some ⟨Word.ofNat 0, Word.ofNat back, m.push s (Word.ofNat back)⟩ := by
    rw [List.cons_append, List.singleton_append, exec_address, returns, Word.ofInt_natCast, exec_copyA]
    exact exec_pushD pointers sp low (by omega)
  rw [callFront, exec_append, exec_append, exec_append, first, exec_bind,
    exec_pushPointer pointers (get_push_zero ..) pointers.lcl (by omega) (by omega) (by omega), exec_bind,
    exec_pushPointer pointers (get_push_zero ..) pointers.arg (by omega) (by omega) (by omega), exec_bind,
    exec_pushPointer pointers (get_push_zero ..) pointers.this (by omega) (by omega) (by omega), framedFront]
  exact ⟨_, rfl⟩

/-- The code of a call in front of its jump, wherever the stack lies. -/
theorem exec_callBody_framed {name returnLabel : Text} {s n back target : Nat} (sp : m.get 0 = Word.ofNat s)
    (low : 0 < s) (high : s + 4 < 32768) (arguments : n ≤ s) (few : n + 5 < 32768) (returns : value returnLabel = back)
    (calls : value name = target) :
    exec value (callBody name n returnLabel) ⟨a, d, m⟩ =
      some ⟨Word.ofNat target, Word.ofNat (s + 5),
        ((framed m s back).set 2 (Word.ofNat (s - n))).set 1 (Word.ofNat (s + 5))⟩ := by
  obtain ⟨d', front⟩ := @exec_callFront _ pointers a d _ _ _ _ sp low (by omega) returns
  have saves : (framedFront m s back).get 0 = Word.ofNat (s + 4) := get_push_zero ..
  rw [callBody, exec_append, exec_append, ← callFront, front, exec_bind,
    exec_pushPointer pointers saves pointers.that (by omega) (by omega) (by omega), exec_bind, argumentOffset_eq (by omega)]
  simp (disch := omega) only [exec_address, pointers.sp, pointers.arg, pointers.lcl, calls, Word.ofInt_natCast, exec_loadD,
    get_push_zero, exec_number _ _ pointers, exec_subtractD, Word.ofNat_sub, exec_storeD, get_set_ne, exec_nil,
    Nat.add_sub_add_right, framed]

theorem exec_callBody {name returnLabel : Text} {s n back target : Nat} (sp : m.get 0 = Word.ofNat s)
    (low : 4 < s) (high : s + 4 < 32768) (arguments : n ≤ s) (few : n + 5 < 32768) (returns : value returnLabel = back)
    (calls : value name = target) :
    exec value (callBody name n returnLabel) ⟨a, d, m⟩ =
      some ⟨Word.ofNat target, Word.ofNat (s + 5), called m s n back⟩ := by
  rw [exec_callBody_framed pointers sp (by omega) high arguments few returns calls, framed_eq m back low]
  rfl

theorem exec_restore {pointer : Text} {k base : Nat} (offset : Int) (n : Nat) (number : offset = n)
    (selects : value pointer = k) (small : k < 13) (points : m.get 13 = Word.ofNat base) (le : n ≤ base)
    (fits : base < 32768) :
    exec value (restore pointer offset) ⟨a, d, m⟩ =
      some ⟨Word.ofNat k, m.get (base - n), m.set k (m.get (base - n))⟩ := by
  subst number
  simp (disch := omega) only [restore, exec_address, pointers.r13, Word.ofInt_natCast, exec_loadD, points,
    exec_number _ _ pointers, exec_subtractA, Word.ofNat_sub, selects, exec_storeD, exec_nil]

theorem exec_restores {base : Nat} (points : m.get 13 = Word.ofNat base) (low : 21 ≤ base) (fits : base < 32768) :
    exec value restores ⟨a, d, m⟩ =
      some ⟨m.get 14, m.get (base - 4), (((m.set 4 (m.get (base - 1))).set 3 (m.get (base - 2))).set 2
        (m.get (base - 3))).set 1 (m.get (base - 4))⟩ := by
  have kept : ∀ {m : Memory} {k : Nat} {v : Word}, m.get 13 = Word.ofNat base → k < 13 →
      (m.set k v).get 13 = Word.ofNat base := by
    intro m k v points small
    rw [get_set_ne _ _ (by omega), points]
  rw [restores, exec_append, exec_append, exec_append, exec_append,
    exec_restore pointers 1 1 rfl pointers.that (by omega) points (by omega) fits, exec_bind,
    exec_restore pointers 2 2 rfl pointers.this (by omega) (kept points (by omega)) (by omega) fits, exec_bind,
    exec_restore pointers 3 3 rfl pointers.arg (by omega) (kept (kept points (by omega)) (by omega)) (by omega) fits,
    exec_bind, exec_restore pointers 4 4 rfl pointers.lcl (by omega)
      (kept (kept (kept points (by omega)) (by omega)) (by omega)) (by omega) fits, exec_bind]
  simp (disch := omega) only [exec_address, pointers.r14, Word.ofInt_natCast, exec_loadA, get_set_ne, exec_nil]

theorem exec_returnBody {base result top : Nat} (sp : m.get 0 = Word.ofNat top) (lcl : m.get 1 = Word.ofNat base)
    (arg : m.get 2 = Word.ofNat result) (low : 16 ≤ result) (below : result + 5 ≤ base) (fits : base < 32768)
    (nonempty : 16 ≤ top) (high : top < 32768) :
    exec value returnBody ⟨a, d, m⟩ = some ⟨m.get (base - 5), m.get (base - 4), returned m base result top⟩ := by
  have saved : exec value
      [.address "LCL", Line.setM [.D] .x, .address "R13", Line.set [.M] .d, Line.number (5 : Nat),
        Line.set [.A] .dMinusX, Line.setM [.D] .x, .address "R14", Line.set [.M] .d] ⟨a, d, m⟩ =
      some ⟨Word.ofNat 14, m.get (base - 5), (m.set 13 (Word.ofNat base)).set 14 (m.get (base - 5))⟩ := by
    simp (disch := omega) only [exec_address, pointers.lcl, pointers.r13, pointers.r14, Word.ofInt_natCast, exec_loadD,
      lcl, exec_storeD, exec_number _ _ pointers, exec_subtractA, Word.ofNat_sub, get_set_ne, exec_nil]
  have top_kept : ((m.set 13 (Word.ofNat base)).set 14 (m.get (base - 5))).get 0 = Word.ofNat top := by
    rw [get_set_ne _ _ (by omega), get_set_ne _ _ (by omega), sp]
  rw [returnBody, exec_append, exec_append, exec_append, show Line.number frameSize = Line.number (5 : Nat) from rfl,
    saved, exec_bind, exec_popD pointers top_kept (by omega) high, exec_bind]
  simp (disch := omega) only [exec_address, pointers.arg, pointers.sp, Word.ofInt_natCast, exec_loadA, get_set_ne, arg,
    exec_storeD, exec_loadNext, Word.ofNat_add_one, exec_nil, exec_bind]
  have points : (((((m.set 13 (Word.ofNat base)).set 14 (m.get (base - 5))).set 0 (Word.ofNat (top - 1))).set result
      (m.get (top - 1))).set 0 (Word.ofNat (result + 1))).get 13 = Word.ofNat base := by
    simp (disch := omega) only [get_set_ne, get_set_self]
  rw [exec_restores pointers points (by omega) fits]
  simp (disch := omega) only [get_set_ne, get_set_self, returned]

end Functions

end HackToolchain.Emission
