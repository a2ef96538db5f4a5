import HackToolchain.Machine.Core

/-!
Runs of a core. Ticks compose as long as none of them stops the core, and a cycle limit that is not
reached changes nothing.
-/

namespace HackToolchain.Core

/-- A core that can make a number of ticks. -/
structure Ready (c : Core) (ticks : Nat) : Prop where
  running : c.halted = false
  sound : c.fault = none
  room : 0 < c.limit → c.cycles + ticks ≤ c.limit

theorem Ready.unspent {c : Core} {n : Nat} (ready : c.Ready (n + 1)) : ¬ (0 < c.limit ∧ c.limit ≤ c.cycles) := by
  rintro ⟨limited, spent⟩
  have := ready.room limited
  omega

/-! ### Ticks one after the other -/

theorem ticks_running {c d : Core} (ticked : c.tick = (.running, d)) (n made : Nat) :
    c.ticks (n + 1) made = d.ticks n (made + 1) := by
  rw [ticks, ticking, ticked]
  rfl

theorem ticks_last {c d : Core} {last : Tick} (ticked : c.tick = (last, d)) (ended : last ≠ .running) (n made : Nat) :
    c.ticks (n + 1) made = (made + 1, last, d) := by
  rw [ticks, ticking, ticked]
  cases last with
  | running => exact absurd rfl ended
  | stopped => rfl
  | crashed => rfl

theorem ticks_run (c : Core) (n made : Nat) : (c.ticks n made).2 = c.run n := by
  induction n generalizing c made with
  | zero => rfl
  | succ n ih =>
    rcases ticked : c.tick with ⟨last, d⟩
    by_cases ended : last = .running
    · subst ended
      rw [run, ticks_running ticked, ticks_running ticked, ih, ih]
    · rw [run, ticks_last ticked ended, ticks_last ticked ended]

theorem run_running {c d : Core} (ticked : c.tick = (.running, d)) (n : Nat) : c.run (n + 1) = d.run n := by
  rw [run, ticks_running ticked, ticks_run]

theorem run_last {c d : Core} {last : Tick} (ticked : c.tick = (last, d)) (ended : last ≠ .running) (n : Nat) :
    c.run (n + 1) = (last, d) := by
  rw [run, ticks_last ticked ended]

theorem run_one (c : Core) : c.run 1 = c.tick := by
  rcases ticked : c.tick with ⟨last, d⟩
  by_cases ended : last = .running
  · subst ended
    exact run_running ticked 0
  · exact run_last ticked ended 0

theorem ticks_add {c d : Core} {k : Nat} (ran : c.run k = (.running, d)) (n made : Nat) :
    c.ticks (k + n) made = d.ticks n (made + k) := by
  induction k generalizing c made with
  | zero =>
    obtain rfl : c = d := congrArg Prod.snd ran
    rw [Nat.zero_add, Nat.add_zero]
  | succ k ih =>
    rcases ticked : c.tick with ⟨last, next⟩
    by_cases ended : last = .running
    · subst ended
      rw [run_running ticked] at ran
      rw [show k + 1 + n = (k + n) + 1 by omega, ticks_running ticked, show made + (k + 1) = made + 1 + k by omega]
      exact ih ran (made + 1)
    · rw [run_last ticked ended] at ran
      exact absurd (congrArg Prod.fst ran) ended

theorem run_add {c after : Core} {n : Nat} (first : c.run n = (.running, after)) (m : Nat) :
    c.run (n + m) = after.run m := by
  rw [run, ticks_add first, ticks_run]

theorem run_stopped {c d e : Core} {k n : Nat} (ran : c.run k = (.running, d)) (last : d.tick = (.stopped, e)) (later : k < n) :
    c.run n = (.stopped, e) := by
  obtain ⟨m, rfl⟩ := Nat.exists_eq_add_of_lt later
  rw [Nat.add_assoc, run_add ran]
  exact run_last last (by simp) m

theorem tick_ready {c : Core} {n : Nat} {i : Instruction} (ready : c.Ready (n + 1)) (nonneg : 0 ≤ c.pc)
    (here : c.rom[c.pc.toNat]? = some i) :
    c.tick = match c.execute i with
      | (.advanced, after) => (if after.halted then .stopped else .running, { after with cycles := after.cycles + 1 })
      | (.faulted fault, after) => after.fail fault
      | (.crashed, after) => (.crashed, after) := by
  unfold tick
  rw [if_neg (by simp [ready.running, ready.sound]), if_neg ready.unspent, if_neg (by omega)]
  rcases done : c.execute i with ⟨progress, after⟩
  cases progress with
  | advanced => simp only [here, done]
  | faulted fault => simp only [here, done]
  | crashed => simp only [here, done]

/-- Beyond the end of its program a core halts. -/
theorem tick_beyond {c : Core} {n : Nat} (ready : c.Ready (n + 1)) (nonneg : 0 ≤ c.pc) (beyond : c.rom.size ≤ c.pc.toNat) :
    c.tick = (.stopped, { c with halted := true }) := by
  unfold tick
  rw [if_neg (by simp [ready.running, ready.sound]), if_neg ready.unspent, if_neg (by omega), Array.getElem?_eq_none beyond]

theorem Ready.mono {c : Core} {n m : Nat} (ready : c.Ready n) (less : m ≤ n) : c.Ready m :=
  ⟨ready.running, ready.sound, fun limited => by have := ready.room limited; omega⟩

/-- A core that neither faulted nor counts its cycles. -/
structure Free (c : Core) : Prop where
  sound : c.fault = none
  unlimited : c.limit ≤ 0

theorem Free.ready {c : Core} (free : c.Free) (running : c.halted = false) (n : Nat) : c.Ready n :=
  ⟨running, free.sound, fun limited => absurd limited (by have := free.unlimited; omega)⟩

/-- Some number of ticks leads from one core to another, which can tick on unless it halted. -/
def Reaches (c d : Core) : Prop := ∃ n last, c.run n = (last, d) ∧ (last = .running ∨ d.halted = true)

theorem run_halted {c : Core} (halted : c.halted = true) (n : Nat) : (c.run n).2 = c := by
  cases n with
  | zero => rfl
  | succ n =>
    have ended : c.tick = (.stopped, c) := by simp [tick, halted]
    rw [run_last ended (by simp)]

theorem reaches_refl (c : Core) : c.Reaches c := ⟨0, .running, rfl, .inl rfl⟩

theorem Reaches.trans {c d e : Core} (first : c.Reaches d) (second : d.Reaches e) : c.Reaches e := by
  obtain ⟨n, last, ran, ends⟩ := first
  obtain ⟨m, last', ran', ends'⟩ := second
  rcases ends with rfl | halted
  · exact ⟨n + m, last', (run_add ran m).trans ran', ends'⟩
  · have same := run_halted halted m
    rw [ran'] at same
    obtain rfl : e = d := same
    exact ⟨n, last, ran, .inr halted⟩

theorem reaches_of_run {c d : Core} {n : Nat} (ran : c.run n = (.running, d)) : c.Reaches d :=
  ⟨n, .running, ran, .inl rfl⟩

/-! ### Cycle limits -/

def limited (c : Core) (limit : Int) : Core := { c with limit }

/-- Something neither reads nor changes the cycle limit, nor changes the number of cycles. -/
structure Unlimited (f : Core → Progress × Core) (c : Core) : Prop where
  limit : (f c).2.limit = c.limit
  cycles : (f c).2.cycles = c.cycles
  commutes : ∀ limit, f (c.limited limit) = ((f c).1, (f c).2.limited limit)

theorem unlimited_proceed (jump : Text) (value : Word) (target : Int) (c : Core) :
    Unlimited (fun c => c.proceed jump value target) c := by
  unfold proceed
  by_cases plain : jump = []
  · simp only [if_pos plain]
    exact ⟨rfl, rfl, fun _ => rfl⟩
  · simp only [if_neg plain]
    cases Jump.ofText? jump with
    | none => exact ⟨rfl, rfl, fun _ => rfl⟩
    | some condition =>
      cases taken : condition.holds value with
      | true => exact ⟨by simp [taken], by simp [taken], fun _ => by simp [taken, limited]⟩
      | false => exact ⟨by simp [taken], by simp [taken], fun _ => by simp [taken, limited]⟩

theorem unlimited_compute (dest comp jump : Text) (c : Core) : Unlimited (fun c => c.compute dest comp jump) c := by
  cases found : Computation.ofText? comp with
  | none =>
    simp only [compute, found]
    exact ⟨rfl, rfl, fun _ => rfl⟩
  | some computation =>
    let value := computation.function.eval (if computation.memory then c.memory.get c.a.toInt.toNat else c.a) c.d
    obtain ⟨limit, cycles, commutes⟩ := unlimited_proceed jump value c.a.toInt (c.store dest value)
    cases unreadable : computation.memory && !Memory.isAddress c.a.toInt with
    | true => constructor <;> simp only [compute, found, limited, unreadable, if_true, implies_true]
    | false =>
      cases unwritable : dest.contains Register.M.letter && !Memory.isAddress c.a.toInt with
      | true =>
        constructor <;>
          simp only [compute, found, limited, unreadable, unwritable, if_true, Bool.false_eq_true, if_false, implies_true]
      | false =>
        constructor <;> simp only [compute, found, limited, unreadable, unwritable, Bool.false_eq_true, if_false]
        · exact limit
        · exact cycles
        · exact commutes

theorem unlimited_execute (i : Instruction) (c : Core) : Unlimited (fun c => c.execute i) c := by
  unfold execute
  cases i.operation with
  | compute dest comp jump => exact unlimited_compute dest comp jump c
  | _ => exact ⟨rfl, rfl, fun _ => rfl⟩

/-- A limit that is not reached changes nothing. -/
theorem tick_limited {c : Core} {limit : Int} (unlimited : c.limit ≤ 0) (below : limit ≤ 0 ∨ c.cycles < limit) :
    c.tick.2.limit = c.limit ∧ c.tick.2.cycles ≤ c.cycles + 1 ∧
      (c.limited limit).tick = (c.tick.1, c.tick.2.limited limit) := by
  have room : ¬ (0 < c.limit ∧ c.limit ≤ c.cycles) := by omega
  have room' : ¬ (0 < limit ∧ limit ≤ c.cycles) := by omega
  have settled : ∀ {last : Tick} {after : Core}, c.tick = (last, after) → after.limit = c.limit →
      after.cycles ≤ c.cycles + 1 → (c.limited limit).tick = (last, after.limited limit) →
      c.tick.2.limit = c.limit ∧ c.tick.2.cycles ≤ c.cycles + 1 ∧
        (c.limited limit).tick = (c.tick.1, c.tick.2.limited limit) := by
    intro last after ticked kept cycles ticked'
    rw [ticked, ticked']
    exact ⟨kept, cycles, rfl⟩
  by_cases ended : (c.halted || c.fault.isSome) = true
  · exact settled (if_pos ended) rfl (Nat.le_succ _) (if_pos ended)
  · by_cases outside : c.pc < 0
    · exact settled ((if_neg ended).trans ((if_neg room).trans (if_pos outside))) rfl (Nat.le_succ _)
        ((if_neg ended).trans ((if_neg room').trans (if_pos outside)))
    · cases found : c.rom[c.pc.toNat]? with
      | none =>
        have found' : (c.limited limit).rom[(c.limited limit).pc.toNat]? = none := found
        have ticked : c.tick = (.stopped, { c with halted := true }) :=
          (if_neg ended).trans ((if_neg room).trans ((if_neg outside).trans (by rw [found])))
        have ticked' : (c.limited limit).tick = (.stopped, { c with halted := true, limit }) :=
          (if_neg ended).trans ((if_neg room').trans ((if_neg outside).trans (by rw [found']; rfl)))
        exact settled ticked rfl (Nat.le_succ _) ticked'
      | some i =>
        obtain ⟨kept, cycles, commutes⟩ := unlimited_execute i c
        obtain ⟨running, sound⟩ : c.halted = false ∧ c.fault = none := by simpa using ended
        have ready : c.Ready (0 + 1) := ⟨running, sound, fun limited => by omega⟩
        have ready' : (c.limited limit).Ready (0 + 1) := ⟨running, sound, fun (limited : 0 < limit) => by show (c.cycles : Int) + (0 + 1 : Nat) ≤ limit; omega⟩
        rw [tick_ready ready (by omega) found, tick_ready ready' (Int.not_lt.mp outside) found, commutes limit]
        generalize c.execute i = executed at kept cycles ⊢
        obtain ⟨progress, after⟩ := executed
        cases progress with
        | advanced => exact ⟨kept, Nat.succ_le_succ (Nat.le_of_eq cycles), rfl⟩
        | faulted fault => exact ⟨kept, Nat.le_succ_of_le (Nat.le_of_eq cycles), rfl⟩
        | crashed => exact ⟨kept, Nat.le_succ_of_le (Nat.le_of_eq cycles), rfl⟩

/-- Nor does it over a run. -/
theorem run_limited {c : Core} {limit : Int} {n : Nat} (unlimited : c.limit ≤ 0) (below : limit ≤ 0 ∨ c.cycles + n ≤ limit) :
    (c.limited limit).run n = ((c.run n).1, (c.run n).2.limited limit) := by
  induction n generalizing c with
  | zero => rfl
  | succ n ih =>
    obtain ⟨kept, cycles, same⟩ := tick_limited unlimited (show limit ≤ 0 ∨ (c.cycles : Int) < limit by omega)
    rcases ticked : c.tick with ⟨last, next⟩
    rw [ticked] at kept cycles same
    by_cases ended : last = .running
    · subst ended
      have kept : next.limit = c.limit := kept
      have cycles : next.cycles ≤ c.cycles + 1 := cycles
      rw [run_running ticked, run_running same]
      exact @ih next (by omega) (by omega)
    · rw [run_last ticked ended, run_last same ended]

end HackToolchain.Core
