import HackToolchain.Proofs.Emission.Naming

/-!
Lines of templates. Most lines in the code of a command are the same for every command of its kind: instructions
that compute, loads of pointers and of small numbers. A property that those have holds of the code as a whole just if
it holds of the few lines that the command itself decides.
-/

namespace HackToolchain.Emission

/-- The pointers and scratch words that templates load. -/
def pointers : List Text := ["SP", "LCL", "ARG", "THIS", "THAT", "R13", "R14"]

/-- A property of all lines that no command decides. -/
structure Routine (P : Line → Prop) : Prop where
  compute {dest : List Register} {comp : Computation} {jump : Option Jump} : P (.compute dest comp jump)
  pointer {symbol : Text} : symbol ∈ pointers → P (.address symbol)
  number {n : Int} : 0 ≤ n → n ≤ frameSize → P (Line.number n)

theorem Routine.imp {P Q : Line → Prop} (routine : Routine P) (weaker : ∀ l, P l → Q l) : Routine Q where
  compute := weaker _ routine.compute
  pointer member := weaker _ (routine.pointer member)
  number low high := weaker _ (routine.number low high)

/-- The lines in the code of a command that it decides. -/
def Naming.own (n : Naming) : Command → List Line
  | .arithmetic operation =>
    if operation = "eq" ∨ operation = "gt" then
      [.address (Session.compareLabels n.labels).1, .address (Session.compareLabels n.labels).2,
        .label (Session.compareLabels n.labels).1, .label (Session.compareLabels n.labels).2]
    else []
  | .push _ index | .pop _ index => [Line.number index]
  | .label name => [.label (n.qualify name)]
  | .goto name | .ifGoto name => [.address (n.qualify name)]
  | .function name _ => [.label name]
  | .call name arguments =>
    [.address (Session.returnLabel name n.calls), Line.number (argumentOffset arguments), .address name,
      .label (Session.returnLabel name n.calls)]
  | .ret => []

section Blocks

variable {P : Line → Prop} (routine : Routine P)

include routine

attribute [local simp] Line.set Line.setM Line.jump Line.jumpIf

theorem Routine.pushD : ∀ l ∈ pushD, P l := by
  simp (disch := decide) [Emission.pushD, routine.compute, routine.pointer]

theorem Routine.popD : ∀ l ∈ popD, P l := by
  simp (disch := decide) [Emission.popD, routine.compute, routine.pointer]

theorem Routine.combine (f : Alu) : ∀ l ∈ combine f, P l := by
  rw [Emission.combine, List.forall_mem_append]
  refine ⟨routine.popD, ?_⟩
  simp (disch := decide) [routine.compute, routine.pointer]

theorem Routine.compare (condition : Jump) (trueLabel endLabel : Text) :
    (∀ l ∈ compare condition trueLabel endLabel, P l) ↔
      ∀ l ∈ [.address trueLabel, .address endLabel, .label trueLabel, .label endLabel], P l := by
  rw [Emission.compare, List.forall_mem_append, and_iff_right routine.popD]
  simp (disch := decide) [routine.compute, routine.pointer]

theorem Routine.access {direction : Direction} {segment : Text} {index : Int} {code : List Line}
    (coded : Session.accessCode? direction segment index = some code) : (∀ l ∈ code, P l) ↔ P (Line.number index) := by
  have known : ∀ {pointer : Text}, Session.pointer? segment = some pointer → P (.address pointer) := by
    intro pointer found
    rcases Naming.pointer_ok found with rfl | rfl
    · exact routine.pointer (by decide)
    · exact routine.pointer (by decide)
  rcases Naming.access_shape coded with rfl | ⟨pointer, found, rfl | rfl⟩
  · rw [pushConstant, List.forall_mem_append, and_iff_left routine.pushD]
    simp [routine.compute]
  · rw [pushIndexed, List.forall_mem_append, and_iff_left routine.pushD]
    simp [routine.compute, known found]
  · rw [popIndexed, List.forall_mem_append, List.forall_mem_append, and_iff_left routine.popD]
    simp (disch := decide) [routine.compute, known found, routine.pointer]

theorem Routine.goToIf (label : Text) : (∀ l ∈ goToIf label, P l) ↔ P (.address label) := by
  rw [Emission.goToIf, List.forall_mem_append, and_iff_right routine.popD]
  simp [routine.compute]

theorem Routine.call (name : Text) (arguments : Int) (back : Text) :
    (∀ l ∈ callCode name arguments back, P l) ↔
      ∀ l ∈ [.address back, Line.number (argumentOffset arguments), .address name, .label back], P l := by
  have saved {pointer : Text} (known : pointer ∈ pointers) : ∀ l ∈ pushPointer pointer, P l := by
    rw [pushPointer, List.forall_mem_append]
    refine ⟨?_, routine.pushD⟩
    simp [routine.compute, routine.pointer known]
  rw [callCode]
  simp (disch := decide) only [List.forall_mem_append, iff_true_intro (saved _), iff_true_intro routine.pushD, and_true]
  simp (disch := decide) [routine.compute, routine.pointer]

theorem Routine.returns : ∀ l ∈ returnCode, P l := by
  have restored {pointer : Text} (known : pointer ∈ pointers) {offset : Int} (low : 0 ≤ offset) (high : offset ≤ frameSize) :
      ∀ l ∈ restore pointer offset, P l := by
    simp (disch := decide) [restore, routine.compute, routine.pointer, routine.pointer known, routine.number low high]
  have size : P (Line.number frameSize) := routine.number (by decide) (by decide)
  rw [returnCode]
  simp only [List.forall_mem_append]
  refine ⟨⟨⟨⟨⟨⟨⟨?_, routine.popD⟩, ?_⟩, ?_⟩, ?_⟩, ?_⟩, ?_⟩, ?_⟩
  any_goals exact restored (by decide) (by decide) (by decide)
  all_goals simp (disch := decide) [routine.compute, routine.pointer, size]

theorem Routine.pushZeros (n : Nat) : ∀ l ∈ (List.replicate n pushZero).flatten, P l := by
  have one : ∀ l ∈ pushZero, P l := by
    rw [pushZero, List.forall_mem_append]
    refine ⟨?_, routine.pushD⟩
    simp (disch := decide) [routine.compute, routine.number]
  intro l member
  obtain ⟨block, present, inside⟩ := List.mem_flatten.mp member
  rw [(List.mem_replicate.mp present).2] at inside
  exact one l inside

/-- A routine property holds of the code of a command just if it holds of the lines that the command decides. -/
theorem Routine.code {n : Naming} {c : Command} {code : List Line} (coded : n.code c = .ok code) :
    (∀ l ∈ code, P l) ↔ ∀ l ∈ n.own c, P l := by
  cases c with
  | arithmetic operation =>
    rcases Naming.arithmetic_ok coded with ⟨rfl, rfl⟩ | ⟨rfl, rfl⟩ | ⟨condition, named, rfl⟩
    · rw [Naming.own, if_neg (by decide)]
      exact iff_of_true (routine.combine _) (by simp)
    · rw [Naming.own, if_neg (by decide)]
      exact iff_of_true (routine.combine _) (by simp)
    · have compares : operation = "eq" ∨ operation = "gt" := named.imp And.left And.left
      rw [Naming.own, if_pos compares]
      exact routine.compare condition _ _
  | push segment index => simpa [Naming.own] using routine.access (Naming.access_ok coded)
  | pop segment index => simpa [Naming.own] using routine.access (Naming.access_ok coded)
  | label name =>
    obtain rfl := Except.ok.inj coded
    rfl
  | goto name =>
    obtain rfl := Except.ok.inj coded
    simp [goTo, routine.compute, Naming.own]
  | ifGoto name =>
    obtain rfl := Except.ok.inj coded
    simpa [Naming.own] using routine.goToIf (n.qualify name)
  | function name locals =>
    obtain rfl := Naming.function_ok coded
    rw [List.forall_mem_cons, and_iff_left (routine.pushZeros _)]
    simp [Naming.own]
  | call name arguments =>
    obtain rfl := Naming.call_ok coded
    exact routine.call name arguments _
  | ret =>
    obtain rfl := Except.ok.inj coded
    exact iff_of_true routine.returns (by simp [Naming.own])

theorem Routine.bootstrap (stackBase : Int) (entryPoint : Text) :
    (∀ l ∈ bootstrapLines stackBase entryPoint, P l) ↔
      (P (.comment "bootstrap") ∧ P (Line.number stackBase)) ∧ P (.comment (Command.call entryPoint 0).render) ∧
        ∀ l ∈ Naming.own {} (.call entryPoint 0), P l := by
  have base : (∀ l ∈ setStackPointer stackBase, P l) ↔ P (Line.number stackBase) := by
    simp (disch := decide) [setStackPointer, routine.compute, routine.pointer]
  rw [bootstrapLines, List.forall_mem_append, List.forall_mem_cons, List.forall_mem_cons, base, routine.call]
  rfl

end Blocks

end HackToolchain.Emission
