import HackToolchain.Proofs.Emission.Calling
import HackToolchain.Proofs.Simulation.Reference

/-!
Frames in memory. A frame that was called takes its arguments, five saved words, its locals and its
operands, in this order and right behind the frame of its caller; the first frame begins at the base of
the stack and has operands only.
-/

namespace HackToolchain

namespace Memory

/-- Words stand in memory one behind the other. -/
def Held (m : Memory) (start : Nat) (words : List Word) : Prop :=
  ∀ i value, words[i]? = some value → m.get (start + i) = value

theorem held_nil (m : Memory) (start : Nat) : m.Held start [] := by simp [Held]

theorem held_append {m : Memory} {start : Nat} {xs ys : List Word} :
    m.Held start (xs ++ ys) ↔ m.Held start xs ∧ m.Held (start + xs.length) ys := by
  constructor
  · intro held
    refine ⟨fun i value found => ?_, fun i value found => ?_⟩
    · have inside : i < xs.length := (List.getElem?_eq_some_iff.mp found).1
      exact held i value (by rw [List.getElem?_append_left inside, found])
    · rw [Nat.add_assoc]
      exact held _ value (by rw [List.getElem?_append_right (by omega), Nat.add_sub_cancel_left, found])
  · rintro ⟨front, back⟩ i value found
    by_cases inside : i < xs.length
    · exact front i value (by rwa [List.getElem?_append_left inside] at found)
    · rw [List.getElem?_append_right (by omega)] at found
      have later := back _ value found
      rwa [Nat.add_assoc, Nat.add_sub_cancel' (by omega)] at later

theorem held_singleton {m : Memory} {start : Nat} {value : Word} : m.Held start [value] ↔ m.get start = value := by
  constructor
  · intro held
    exact held 0 value rfl
  · intro same i other found
    match i, found with
    | 0, found => exact same.trans (Option.some.inj found)

theorem Held.congr {m m' : Memory} {start : Nat} {words : List Word} (held : m.Held start words)
    (same : ∀ x, start ≤ x → x < start + words.length → m'.get x = m.get x) : m'.Held start words := by
  intro i value found
  have inside : i < words.length := (List.getElem?_eq_some_iff.mp found).1
  rw [same _ (by omega) (by omega)]
  exact held i value found

theorem Held.set {m m' : Memory} {start i : Nat} {words : List Word} {value : Word} (held : m.Held start words)
    (stored : m'.get (start + i) = value)
    (same : ∀ x, start ≤ x → x < start + words.length → x ≠ start + i → m'.get x = m.get x) :
    m'.Held start (words.set i value) := by
  intro k other found
  have inside : k < words.length := by
    have := (List.getElem?_eq_some_iff.mp found).1
    simpa using this
  by_cases here : k = i
  · subst here
    rw [List.getElem?_set_self inside] at found
    exact stored.trans (Option.some.inj found)
  · rw [List.getElem?_set_ne (Ne.symm here)] at found
    rw [same _ (by omega) (by omega) (by omega)]
    exact held k other found

end Memory

namespace Reference

open Memory

/-- The words of a frame behind its saved words. -/
def Frame.body (f : Frame) : List Word := f.locals ++ f.operands.reverse

/-- What lies in memory below the body of a frame, with the pointers that the frame works with. -/
def Below (m : Memory) (address : Nat → Nat) (base : Nat) (f : Frame) :
    List Frame → (lcl arg : Word) → (start : Nat) → Prop
  | [], _, _, start => start = base ∧ f.arguments = [] ∧ f.locals = []
  | caller :: callers, lcl, arg, start =>
    ∃ first saved lcl' arg', Below m address base caller callers lcl' arg' first ∧ m.Held first caller.body ∧
      m.Held (first + caller.body.length) f.arguments ∧ saved = first + caller.body.length + f.arguments.length ∧
      m.Held saved [Word.ofNat (address f.back), lcl', arg'] ∧ start = saved + 5 ∧
      lcl = Word.ofNat start ∧ arg = Word.ofNat (first + caller.body.length)

/-- The frames of a state lie in memory, with the pointers of the latest. -/
def Placed (m : Memory) (address : Nat → Nat) (base : Nat) (f : Frame) (callers : List Frame) : Prop :=
  ∃ start, Below m address base f callers (m.get 1) (m.get 2) start ∧ m.Held start f.body ∧
    m.get 0 = Word.ofNat (start + f.body.length)

section Below

variable {m : Memory} {address : Nat → Nat} {base start : Nat} {f : Frame} {callers : List Frame} {lcl arg : Word}

theorem Below.extent (below : Below m address base f callers lcl arg start) :
    start + f.body.length = base + Reference.extent f callers := by
  induction callers generalizing f lcl arg start with
  | nil =>
    obtain ⟨rfl, -, -⟩ := below
    simp [Frame.body, Reference.extent]
  | cons caller callers ih =>
    obtain ⟨first, saved, lcl', arg', rest, -, -, rfl, -, rfl, -, -⟩ := below
    have := ih rest
    simp only [Frame.body, Reference.extent, List.length_append, List.length_reverse] at this ⊢
    omega

theorem Below.base_le (below : Below m address base f callers lcl arg start) : base ≤ start := by
  cases callers with
  | nil => exact Nat.le_of_eq below.1.symm
  | cons caller callers =>
    obtain ⟨first, saved, lcl', arg', rest, -, -, rfl, -, rfl, -, -⟩ := below
    have := rest.extent
    omega

/-- Memory above the base of the stack and below the body decides, and so do the parts of the frame
that lie there. -/
theorem Below.congr {m' : Memory} {f' : Frame} (below : Below m address base f callers lcl arg start)
    (same : ∀ x, base ≤ x → x < start → m'.get x = m.get x) (arguments : f'.arguments = f.arguments)
    (back : f'.back = f.back) (locals : f'.locals.length = f.locals.length) :
    Below m' address base f' callers lcl arg start := by
  induction callers generalizing f f' lcl arg start with
  | nil =>
    obtain ⟨rfl, none, empty⟩ := below
    rw [empty, List.length_nil] at locals
    exact ⟨rfl, arguments.trans none, List.eq_nil_of_length_eq_zero locals⟩
  | cons caller callers ih =>
    obtain ⟨first, saved, lcl', arg', rest, body, passed, rfl, frame, rfl, own⟩ := below
    have := rest.base_le
    refine ⟨first, _, lcl', arg', ih rest (fun x low high => same x low (by omega)) rfl rfl rfl,
      body.congr fun x low high => same x (by omega) (by omega), ?_, rfl, ?_, ?_, own⟩
    · rw [arguments]
      exact passed.congr fun x low high => same x (by omega) (by omega)
    · rw [arguments, back]
      exact frame.congr fun x low high => same x (by omega) (by simp at high; omega)
    · rw [arguments]

end Below

section Placed

variable {m m' : Memory} {address : Nat → Nat} {base i : Nat} {f : Frame} {callers : List Frame} {value : Word}

theorem operands_le_extent {f : Frame} {operands : List Word} (top : f.operands = operands) (callers : List Frame) :
    operands.length ≤ extent f callers := by
  subst top
  cases callers <;> simp [extent]

theorem extent_drop {n : Nat} {f : Frame} (enough : n ≤ f.operands.length) (callers : List Frame) :
    extent { f with operands := f.operands.drop n } callers + n = extent f callers := by
  cases callers <;> simp only [extent, List.length_drop] <;> omega

theorem Placed.sp (placed : Placed m address base f callers) : m.get 0 = Word.ofNat (base + extent f callers) := by
  obtain ⟨start, below, -, sp⟩ := placed
  rw [sp, below.extent]

/-! ### Operands -/

theorem Placed.operand {operands : List Word} (placed : Placed m address base f callers)
    (top : f.operands = operands) (i : Nat) (found : operands[i]? = some value) :
    m.get (base + extent f callers - 1 - i) = value := by
  obtain ⟨start, below, held, -⟩ := placed
  have inside : i < operands.length := (List.getElem?_eq_some_iff.mp found).1
  rw [← below.extent]
  rw [Frame.body, top, held_append] at held
  rw [Frame.body, top, List.length_append, List.length_reverse]
  have read := held.2 (operands.length - 1 - i) value (by
    rw [List.getElem?_reverse (by omega), ← found]
    congr 1
    omega)
  rw [← read]
  congr 1
  omega

/-- Operands at the top of the stack are replaced by others. -/
theorem Placed.operands {tops tops' rest : List Word} (placed : Placed m address base f callers)
    (were : f.operands = tops ++ rest)
    (pointers : m'.get 1 = m.get 1 ∧ m'.get 2 = m.get 2)
    (same : ∀ x, base ≤ x → x < base + extent f callers - tops.length → m'.get x = m.get x)
    (held : m'.Held (base + extent f callers - tops.length) tops'.reverse)
    (sp : m'.get 0 = Word.ofNat (base + extent f callers - tops.length + tops'.length)) :
    Placed m' address base { f with operands := tops' ++ rest } callers := by
  obtain ⟨start, below, body, -⟩ := placed
  have whole := below.extent
  have split : f.body = (f.locals ++ rest.reverse) ++ tops.reverse := by simp [Frame.body, were]
  have split' : Frame.body { f with operands := tops' ++ rest } = (f.locals ++ rest.reverse) ++ tops'.reverse := by
    simp [Frame.body]
  rw [split, held_append] at body
  rw [split, List.length_append, List.length_reverse] at whole
  refine ⟨start, ?_, ?_, ?_⟩
  · rw [pointers.1, pointers.2]
    exact below.congr (fun x low high => same x low (by omega)) rfl rfl rfl
  · have low := below.base_le
    rw [split', held_append]
    refine ⟨body.1.congr fun x above high => same x (by omega) (by omega), ?_⟩
    rwa [show start + (f.locals ++ rest.reverse).length = base + extent f callers - tops.length by omega]
  · rw [sp, split', List.length_append, List.length_reverse]
    congr 1
    omega

/-- Nothing but the pointers and the stack decides. -/
theorem Placed.congr (placed : Placed m address base f callers) (pointers : ∀ x < 3, m'.get x = m.get x)
    (same : ∀ x, base ≤ x → x < base + extent f callers → m'.get x = m.get x) : Placed m' address base f callers :=
  @Placed.operands m m' address base f callers [] [] f.operands placed rfl
    ⟨pointers 1 (by omega), pointers 2 (by omega)⟩ same (held_nil _ _) ((pointers 0 (by omega)).trans placed.sp)

theorem Placed.push (placed : Placed m address base f callers) (low : 2 < base) (high : base + extent f callers < 32768) :
    Placed (m.push (base + extent f callers) value) address base { f with operands := value :: f.operands } callers := by
  refine @Placed.operands m _ address base f callers [] [value] f.operands placed rfl
    ⟨get_push_ne _ _ (by omega) (by omega), get_push_ne _ _ (by omega) (by omega)⟩
    (fun x above below => get_push_ne _ _ (by omega) (Nat.ne_of_lt below)) ?_ (get_push_zero ..)
  exact held_singleton.mpr (get_push_self _ _ (by omega) high)

theorem Placed.pop {operands : List Word} (placed : Placed m address base f callers)
    (top : f.operands = value :: operands) (low : 2 < base) :
    Placed (m.set 0 (Word.ofNat (base + extent f callers - 1))) address base { f with operands } callers :=
  @Placed.operands m _ address base f callers [value] [] operands placed top
    ⟨get_set_ne _ _ (by omega), get_set_ne _ _ (by omega)⟩
    (fun x above below => get_set_ne _ _ (by omega)) (held_nil _ _) (get_set_self _ _ (by omega))

theorem Placed.combine {x y : Word} {operands : List Word} (placed : Placed m address base f callers)
    (top : f.operands = y :: x :: operands) (low : 2 < base) (high : base + extent f callers < 32768) :
    Placed ((m.set 0 (Word.ofNat (base + extent f callers - 1))).set (base + extent f callers - 2) value) address base
      { f with operands := value :: operands } callers := by
  have two : 2 ≤ extent f callers := Nat.le_trans (by simp) (operands_le_extent top callers)
  refine @Placed.operands m _ address base f callers [y, x] [value] operands placed top ⟨?_, ?_⟩ ?_ ?_ ?_
  · rw [get_set_ne _ _ (by omega), get_set_ne _ _ (by omega)]
  · rw [get_set_ne _ _ (by omega), get_set_ne _ _ (by omega)]
  · intro z above below
    have below : z < base + extent f callers - 2 := below
    rw [get_set_ne _ _ (by omega), get_set_ne _ _ (by omega)]
  · exact held_singleton.mpr (get_set_self _ _ (by omega))
  · rw [get_set_ne _ _ (by omega), get_set_self _ _ (by omega)]
    congr 1
    show _ = base + extent f callers - 2 + 1
    omega

/-! ### Segments -/

/-- A local is found behind the pointer to the locals, and stored there. -/
theorem Placed.atLocal (placed : Placed m address base f callers) (inside : i < f.locals.length) (low : 2 < base)
    (high : base + extent f callers < 32768) :
    ∃ start, m.get 1 = Word.ofNat start ∧ base ≤ start ∧ start + i < base + extent f callers ∧
      m.get (start + i) = f.locals[i] ∧
      ∀ value, Placed (m.set (start + i) value) address base { f with locals := f.locals.set i value } callers := by
  obtain ⟨start, below, body, sp⟩ := placed
  have whole := below.extent
  have above := below.base_le
  have fits : i < f.body.length := by simp only [Frame.body, List.length_append]; omega
  have read := body i f.locals[i] (by rw [Frame.body, List.getElem?_append_left inside, List.getElem?_eq_getElem inside])
  have pointer : m.get 1 = Word.ofNat start := by
    cases callers with
    | nil => simp [below.2.2] at inside
    | cons caller callers =>
      obtain ⟨_, _, _, _, -, -, -, -, -, -, lcl, -⟩ := below
      exact lcl
  refine ⟨start, pointer, above, by omega, read, fun value => ⟨start, ?_, ?_, ?_⟩⟩
  · rw [get_set_ne _ _ (by omega), get_set_ne _ _ (by omega)]
    exact below.congr (fun x _ high => get_set_ne _ _ (by omega)) rfl rfl (by simp)
  · have stored : (m.set (start + i) value).Held start (f.body.set i value) :=
      body.set (get_set_self m value (by omega)) fun x _ _ ne => get_set_ne _ _ ne
    rwa [Frame.body, List.set_append_left _ _ inside] at stored
  · rw [get_set_ne _ _ (by omega), sp]
    simp [Frame.body]

/-- An argument is found behind the pointer to the arguments, and stored there. -/
theorem Placed.atArgument (placed : Placed m address base f callers) (inside : i < f.arguments.length) (low : 2 < base)
    (high : base + extent f callers < 32768) :
    ∃ start, m.get 2 = Word.ofNat start ∧ base ≤ start ∧ start + i < base + extent f callers ∧
      m.get (start + i) = f.arguments[i] ∧
      ∀ value, Placed (m.set (start + i) value) address base { f with arguments := f.arguments.set i value } callers := by
  obtain ⟨start, below, body, sp⟩ := placed
  have whole := below.extent
  cases callers with
  | nil => simp [below.2.1] at inside
  | cons caller callers =>
    obtain ⟨first, saved, lcl', arg', rest, callerBody, passed, ends, frame, begins, lcl, arg⟩ := below
    have above := rest.base_le
    have read := passed i f.arguments[i] (List.getElem?_eq_getElem inside)
    refine ⟨_, arg, by omega, by omega, read, fun value =>
      ⟨start, ⟨first, saved, lcl', arg', ?_, ?_, ?_, ?_, ?_, begins, ?_, ?_⟩, ?_, ?_⟩⟩
    · exact rest.congr (fun x _ high => get_set_ne _ _ (by omega)) rfl rfl rfl
    · exact callerBody.congr fun x _ high => get_set_ne _ _ (by omega)
    · exact passed.set (get_set_self m value (by omega)) fun x _ _ ne => get_set_ne _ _ ne
    · rw [ends, List.length_set]
    · exact frame.congr fun x above _ => get_set_ne _ _ (by omega)
    · rw [get_set_ne _ _ (by omega), lcl]
    · rw [get_set_ne _ _ (by omega), arg]
    · exact body.congr fun x above _ => get_set_ne _ _ (by omega)
    · rw [get_set_ne _ _ (by omega), sp]
      rfl

/-! ### Calls -/

open Emission in
/-- A call turns operands into arguments, and zeros pushed behind it are the locals of the callee. -/
theorem Placed.enter {n k back : Nat} (placed : Placed m address base f callers) (enough : n ≤ f.operands.length)
    (low : 16 ≤ base) (high : base + extent f callers + 5 + k ≤ 32767) :
    Placed ((called m (base + extent f callers) n (address back)).pushes (base + extent f callers + 5)
        (List.replicate k 0)) address base
      { arguments := (f.operands.take n).reverse, locals := List.replicate k 0, back }
      ({ f with operands := f.operands.drop n } :: callers) := by
  have sp := placed.sp
  obtain ⟨start, below, body, -⟩ := placed
  have whole := below.extent
  have above := below.base_le
  have taken : (f.operands.take n).reverse.length = n := by simp [enough]
  -- The arguments are in place already, as the last words of the caller's body.
  have split : f.body = Frame.body { f with operands := f.operands.drop n } ++ (f.operands.take n).reverse := by
    rw [Frame.body, Frame.body, List.append_assoc, ← List.reverse_append, List.take_append_drop]
  generalize caller : ({ f with operands := f.operands.drop n } : Frame) = g at split
  rw [split, held_append] at body
  rw [split, List.length_append, taken] at whole
  generalize base + extent f callers = s at whole high sp ⊢
  obtain ⟨sp', lcl', arg'⟩ := @get_called_pointers m s n (address back) sp
  have same : ∀ x, 2 < x → x < s → ((called m s n (address back)).pushes (s + 5) (List.replicate k 0)).get x = m.get x := by
    intro x large below
    rw [get_pushes_outside _ (by omega) (.inl (by omega)), get_called_other large (.inl below)]
  refine ⟨s + 5, ⟨start, s, m.get 1, m.get 2, ?_, ?_, ?_, ?_, ?_, rfl, ?_, ?_⟩, ?_, ?_⟩
  · rw [← caller]
    exact below.congr (fun x _ high => same x (by omega) (by omega)) rfl rfl rfl
  · exact body.1.congr fun x _ high => same x (by omega) (by omega)
  · exact body.2.congr fun x _ high => same x (by omega) (by rw [taken] at high; omega)
  · rw [taken, ← whole, Nat.add_assoc]
  · intro i value found
    have small : i < 3 := (List.getElem?_eq_some_iff.mp found).1
    rw [get_pushes_outside _ (by omega) (.inl (by omega)), get_called_saved (by omega) (by omega) (by omega)]
    match i, found with
    | 0, found => exact Option.some.inj found
    | 1, found => exact Option.some.inj found
    | 2, found => exact Option.some.inj found
  · rw [get_pushes_outside _ (by omega) (.inl (by omega)), lcl']
  · rw [get_pushes_outside _ (by omega) (.inl (by omega)), arg', show s - n = start + g.body.length by omega]
  · intro i value found
    have body : Frame.body { arguments := (f.operands.take n).reverse, locals := List.replicate k 0, back } =
        List.replicate k 0 := by simp [Frame.body]
    rw [body] at found
    obtain ⟨inside, same⟩ := List.getElem?_eq_some_iff.mp found
    rw [get_pushes_inside _ (by omega) (by simp; omega) inside, same]
  · rw [get_pushes_zero sp']
    simp [Frame.body]

open Emission in
/-- A return takes the frame away and leaves its result to the caller. -/
theorem Placed.leave {caller : Frame} {operands : List Word} (placed : Placed m address base f (caller :: callers))
    (top : f.operands = value :: operands) (low : 16 ≤ base) (high : base + extent f (caller :: callers) ≤ 32767) :
    ∃ start result, m.get 1 = Word.ofNat start ∧ m.get 2 = Word.ofNat result ∧ 16 ≤ result ∧ result + 5 ≤ start ∧
      start < base + extent f (caller :: callers) ∧ m.get (start - 5) = Word.ofNat (address f.back) ∧
      Placed (returned m start result (base + extent f (caller :: callers))) address base
        { caller with operands := value :: caller.operands } callers := by
  have result := placed.operand top 0 rfl
  obtain ⟨start, ⟨first, saved, lcl', arg', rest, body, passed, ends, frame, begins, lcl, arg⟩, own, sp⟩ := placed
  have whole : start + f.body.length = base + extent f (caller :: callers) :=
    Below.extent ⟨first, saved, lcl', arg', rest, body, passed, ends, frame, begins, lcl, arg⟩
  have nonempty : 0 < f.body.length := by
    simp only [Frame.body, top, List.length_append, List.length_reverse, List.length_cons]
    omega
  have above := rest.base_le
  generalize base + extent f (caller :: callers) = s at whole result high ⊢
  have saved0 := frame 0 _ rfl
  have saved1 := frame 1 _ rfl
  have saved2 := frame 2 _ rfl
  obtain ⟨sp', lcl'', arg'', -, -⟩ := @get_returned_pointers m start (first + caller.body.length) s
  have same : ∀ x, base ≤ x → x < first + caller.body.length →
      (returned m start (first + caller.body.length) s).get x = m.get x := by
    intro x low high
    exact get_returned_other (by omega) (by omega)
  refine ⟨start, _, lcl, arg, by omega, by omega, by omega, ?_, first, ?_, ?_, ?_⟩
  · rw [← saved0, show start - 5 = saved + 0 by omega]
  · rw [lcl'', arg'', show start - 4 = saved + 1 by omega, show start - 3 = saved + 2 by omega, saved1, saved2]
    exact rest.congr (fun x low high => same x low (by omega)) rfl rfl rfl
  · have split : Frame.body { caller with operands := value :: caller.operands } = caller.body ++ [value] := by
      simp [Frame.body]
    rw [split, held_append, held_singleton]
    refine ⟨body.congr fun x _ high => same x (by omega) high, ?_⟩
    rw [get_returned_result (by omega) (by omega)]
    exact result
  · rw [sp']
    simp [Frame.body, Nat.add_assoc]

end Placed

end Reference

end HackToolchain
