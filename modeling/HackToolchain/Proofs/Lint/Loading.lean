import HackToolchain.Proofs.Lint.Check

/-!
A check beside a loader. What a check reports as an undefined target is a variable that the loaded
program jumps to. The check looks at the entry behind the one that loads the symbol, which may be a label
that the loader leaves out, so that of these jumps it misses those that have a label of their own.
-/

namespace HackToolchain

open Assembly

/-- The instruction of a line, at an address, loads a variable, and the one behind it is a jump. -/
structure Program.Strays (p : Program) (symbol : Text) (line : Int) (address : Nat) : Prop where
  loads : ∃ i value, p.code[address]? = some i ∧ i.line = line ∧ i.operation = .address symbol value
  stored : symbol ∈ p.storage.map Prod.fst
  jumps : ∃ next dest comp jump, p.code[address + 1]? = some next ∧ next.operation = .compute dest comp jump ∧ jump ≠ []

theorem Program.Strays.unique {p : Program} {symbol : Text} {line : Int} {address address' : Nat}
    (increasing : p.code.Pairwise (fun i j => i.line < j.line)) (strays : p.Strays symbol line address)
    (strays' : p.Strays symbol line address') : address = address' := by
  obtain ⟨i, -, found, rfl, -⟩ := strays.loads
  obtain ⟨j, -, found', same, -⟩ := strays'.loads
  obtain ⟨inside, rfl⟩ := List.getElem?_eq_some_iff.mp found
  obtain ⟨inside', rfl⟩ := List.getElem?_eq_some_iff.mp found'
  have ordered := List.pairwise_iff_getElem.mp increasing
  rcases Nat.lt_trichotomy address address' with before | equal | behind
  · have := ordered address address' inside inside' before
    omega
  · exact equal
  · have := ordered address' address inside' inside behind
    omega

namespace Lint

theorem split_pair {α : Type} {l : List α} {k : Nat} {x y : α} (first : l[k]? = some x) (second : l[k + 1]? = some y) :
    ∃ front back, l = front ++ x :: y :: back ∧ front.length = k := by
  obtain ⟨inside, rfl⟩ := List.getElem?_eq_some_iff.mp first
  obtain ⟨inside', rfl⟩ := List.getElem?_eq_some_iff.mp second
  refine ⟨l.take k, l.drop (k + 2), ?_, by simp; omega⟩
  rw [← List.drop_eq_getElem_cons inside', ← List.drop_eq_getElem_cons inside, List.take_append_drop]

/-- No label stands for the address behind an instruction that another one follows at once. -/
theorem labelsFrom_between {front back : List Operation} {first second : Operation} (code : first.label? = none)
    (code' : second.label? = none) : size front + 1 ∉ (labelsFrom 0 (front ++ first :: second :: back)).map Prod.snd := by
  rw [labelsFrom_append, labelsFrom_code code, labelsFrom_code code']
  intro member
  obtain ⟨binding, bound, address⟩ := List.mem_map.mp member
  rcases List.mem_append.mp bound with early | late
  · have range := labelsFrom_range early
    omega
  · have range := labelsFrom_range late
    omega

theorem labelsFrom_behind {front back : List Operation} {first : Operation} {symbol : Text} (code : first.label? = none) :
    size front + 1 ∈ (labelsFrom 0 (front ++ first :: .label symbol :: back)).map Prod.snd := by
  rw [labelsFrom_append, labelsFrom_code code, labelsFrom]
  simp

theorem label?_of_address {i : Instruction} {symbol : Text} {value : Int} (loads : i.operation = .address symbol value) :
    i.operation.label? = none := by
  rw [loads]
  rfl

theorem label?_of_compute {i : Instruction} {dest comp jump : Text} (computes : i.operation = .compute dest comp jump) :
    i.operation.label? = none := by
  rw [computes]
  rfl

theorem bind_compute {value : Text → Nat} {operation : Operation} {dest comp jump : Text} :
    operation.bind value = .compute dest comp jump ↔ operation = .compute dest comp jump := by
  cases operation with
  | address name m => simp [Operation.bind]
  | _ => rfl

theorem layOut_at {instructions front back : List Instruction} {i : Instruction} (split : instructions = front ++ i :: back)
    (code : i.operation.label? = none) :
    (Program.layOut instructions).code[size (front.map (·.operation))]? =
      some { i with operation := i.operation.bind (Program.layOut instructions).address } := by
  rw [Program.layOut_code, List.getElem?_map, size_operations, split, List.filter_append, List.filter_cons_of_pos (by simp [code]),
    List.getElem?_append_right (Nat.le_refl _), Nat.sub_self]
  rfl

/-- A check reports the variables that a program jumps to, unless a label stands at the jump. -/
theorem reports_iff_strays {instructions : List Instruction} {p : Program} (loaded : Program.ofInstructions instructions = .ok p)
    {symbol : Text} {line : Int} :
    Reports instructions symbol line ↔ ∃ address, p.Strays symbol line address ∧ address + 1 ∉ p.labels.map Prod.snd := by
  obtain ⟨-, rfl⟩ := Program.ofInstructions_iff.mp loaded
  rw [reports_iff]
  constructor
  · rintro ⟨unknown, front, i, next, back, value, dest, comp, jump, split, loads, rfl, computes, jumps⟩
    have kept := label?_of_address loads
    have kept' := label?_of_compute computes
    have behind : size ((front ++ [i]).map (·.operation)) = size (front.map (·.operation)) + 1 := by
      rw [size_operations, size_operations, List.filter_append, List.filter_cons_of_pos (by simp [kept])]
      simp
    have here := layOut_at split kept
    have there := @layOut_at instructions (front ++ [i]) back next (by rw [split]; simp) kept'
    rw [behind] at there
    refine ⟨size (front.map (·.operation)), ⟨?_, ?_, ?_⟩, ?_⟩
    · exact ⟨_, _, here, rfl, by rw [loads]; rfl⟩
    · exact Program.layOut_storage.mpr ⟨⟨i, by rw [split]; simp, value, loads⟩, unknown⟩
    · exact ⟨_, dest, comp, jump, there, bind_compute.mpr computes, jumps⟩
    · show _ ∉ (labelsFrom 0 (instructions.map (·.operation))).map Prod.snd
      rw [split, List.map_append]
      exact labelsFrom_between kept kept'
  · rintro ⟨address, ⟨⟨bound, value, found, rfl, loads⟩, stored, next, dest, comp, jump, found', computes, jumps⟩, free⟩
    obtain ⟨-, unknown⟩ := Program.layOut_storage.mp stored
    rw [Program.layOut_code, List.getElem?_map] at found found'
    obtain ⟨i, here, rfl⟩ := Option.map_eq_some_iff.mp found
    obtain ⟨next, there, rfl⟩ := Option.map_eq_some_iff.mp found'
    obtain ⟨literal, named, -⟩ := Operation.bind_eq_address.mp loads
    have computed := bind_compute.mp computes
    -- Only labels can stand between the two instructions, and then one of them is bound to the second.
    obtain ⟨front, back, pair, rfl⟩ := split_pair here there
    obtain ⟨before, rest, rfl, rfl, first⟩ := List.filter_eq_append_iff.mp pair
    obtain ⟨skipped, later, rfl, labels, kept, second⟩ := List.filter_eq_cons_iff.mp first
    obtain ⟨between, last, rfl, labels', -, -⟩ := List.filter_eq_cons_iff.mp second
    cases between with
    | nil =>
      exact ⟨unknown, before ++ skipped, i, next, last, literal, dest, comp, jump, by simp, named, rfl, computed, jumps⟩
    | cons other between =>
      obtain ⟨name, label⟩ : ∃ name, other.operation = .label name := by
        have left := labels' other List.mem_cons_self
        cases operation : other.operation with
        | label name => exact ⟨name, rfl⟩
        | _ => exact absurd (by rw [operation]; rfl) left
      refine absurd ?_ free
      have early : size ((before ++ skipped).map (·.operation)) = (before.filter (·.operation.label?.isNone)).length := by
        rw [size_operations, List.filter_append, List.filter_eq_nil_iff.mpr labels, List.append_nil]
      have bound := @labelsFrom_behind ((before ++ skipped).map (·.operation)) ((between ++ next :: last).map (·.operation))
        i.operation name (label?_of_address named)
      rw [early, ← label] at bound
      simpa [Program.layOut] using bound

theorem layOut_lines {instructions : List Instruction} (increasing : instructions.Pairwise (fun i j => i.line < j.line)) :
    (Program.layOut instructions).code.Pairwise (fun i j => i.line < j.line) := by
  rw [Program.layOut_code, List.pairwise_map]
  exact increasing.filter _

/-- A check of a text that loads reports an undefined target on a line exactly when the instruction of that
line loads a variable, a jump follows it, and no label stands at the jump. Hence it finds all jumps to
variables exactly when no label stands at any of them. -/
theorem undefined_targets_iff {source : Text} {p : Program} (loaded : Program.load source = .ok p) :
    ∃ instructions, Assembly.parse source = .ok instructions ∧
      p.code.Pairwise (fun i j => i.line < j.line) ∧
      (∀ symbol line, Reports instructions symbol line ↔
        ∃ address, p.Strays symbol line address ∧ address + 1 ∉ p.labels.map Prod.snd) ∧
      ((∀ symbol line, Reports instructions symbol line ↔ ∃ address, p.Strays symbol line address) ↔
        ∀ symbol line address, p.Strays symbol line address → address + 1 ∉ p.labels.map Prod.snd) := by
  unfold Program.load at loaded
  cases parsed : Assembly.parse source with
  | error e => simp [parsed] at loaded
  | ok instructions =>
    simp only [parsed] at loaded
    have found {symbol : Text} {line : Int} := @reports_iff_strays instructions p loaded symbol line
    have increasing : p.code.Pairwise (fun i j => i.line < j.line) := by
      obtain ⟨-, rfl⟩ := Program.ofInstructions_iff.mp loaded
      exact layOut_lines (parse_lines parsed)
    refine ⟨instructions, rfl, increasing, fun symbol line => found, ?_⟩
    constructor
    · -- A line has one address only, so the jump that is reported is the one at hand.
      intro all symbol line address strays
      obtain ⟨address', strays', free⟩ := found.mp ((all symbol line).mpr ⟨address, strays⟩)
      rwa [strays.unique increasing strays']
    · intro free symbol line
      rw [found]
      exact exists_congr fun address => and_iff_left_of_imp (free symbol line address)

/-- A jump to a name that nothing declares, with or without a label of its own. -/
def astray (label : Text) : Text := "@foo\n" ++ label ++ "0;JMP\n"

theorem undefined_targets_iff_astray :
    (∃ p instructions, Program.load (astray []) = .ok p ∧ Assembly.parse (astray []) = .ok instructions ∧
      Reports instructions "foo" 1) ∧
    ∃ p instructions, Program.load (astray "(L)\n") = .ok p ∧ Assembly.parse (astray "(L)\n") = .ok instructions ∧
      p.Strays "foo" 1 0 ∧ ¬ Reports instructions "foo" 1 := by
  have loads {label : Text} {p : Program} (bound : (Program.load (astray label)).toOption = some p) :
      Program.load (astray label) = .ok p := by
    cases found : Program.load (astray label) with
    | error e => rw [found] at bound; cases bound
    | ok q => rw [found] at bound; rw [Option.some.inj bound]
  let code (line : Int) : List Instruction := [⟨.address "foo" 16, 1, "@foo"⟩, ⟨.compute [] "0" "JMP", line, "0;JMP"⟩]
  have strays (line : Int) (labels : Bindings Nat) : Program.Strays ⟨code line, labels, [("foo", 16)]⟩ "foo" 1 0 :=
    ⟨⟨_, 16, rfl, rfl, rfl⟩, List.mem_cons_self, _, [], "0", "JMP", rfl, rfl, by decide⟩
  constructor
  · have loaded := @loads [] ⟨code 2, [], [("foo", 16)]⟩ (by decide +kernel)
    obtain ⟨instructions, parsed, -, found, -⟩ := undefined_targets_iff loaded
    exact ⟨_, instructions, loaded, parsed, (found "foo" 1).mpr ⟨0, strays 2 [], by decide⟩⟩
  · have loaded := @loads "(L)\n" ⟨code 3, [("L", 1)], [("foo", 16)]⟩ (by decide +kernel)
    obtain ⟨instructions, parsed, increasing, found, -⟩ := undefined_targets_iff loaded
    refine ⟨_, instructions, loaded, parsed, strays 3 _, fun reported => ?_⟩
    obtain ⟨address, elsewhere, free⟩ := (found "foo" 1).mp reported
    obtain rfl := (strays 3 _).unique increasing elsewhere
    exact free (by decide)

end Lint

end HackToolchain
