import HackToolchain.Proofs.Emission.Label
import HackToolchain.Proofs.Machine.Grammar
import HackToolchain.Proofs.Source.Lines
import HackToolchain.Proofs.Text.Token
import Mathlib.Data.List.Basic
import Mathlib.Data.List.TakeDrop

/-!
Generated lines as assembly. Each line is read back as the operation it was written for, so that the
output of a session is loaded line by line.
-/

namespace HackToolchain

namespace Operation

/-- The value of a symbol that is a number in range. -/
def literal (symbol : Text) : Int :=
  match Text.toInt? symbol with
  | some n => if isLiteral n then n else 0
  | none => 0

theorem ofText_label {symbol : Text} (nonempty : symbol ≠ []) : ofText (40 :: (symbol ++ [41])) = .label symbol :=
  @Form.Valid.ofText (.label symbol) nonempty

end Operation

namespace Emission

namespace Line

def jumpText : Option Jump → Text
  | some j => j.render
  | none => []

/-- The operation a line is read as; a comment is none. -/
def operation? : Line → Option Operation
  | .comment _ => none
  | line => some (Operation.ofText line.render)

/-- The parts of a line that computes. -/
def form (dest : List Register) (c : Computation) (jump : Option Jump) : Operation.Form :=
  .compute (if dest.isEmpty then none else some (dest.map Register.letter)) c.render (jump.map Jump.render)

theorem render_form (dest : List Register) (c : Computation) (jump : Option Jump) :
    (form dest c jump).render = (Line.compute dest c jump).render := by
  have tail : Operation.Form.tail c.render (jump.map Jump.render) = c.render ++ condition jump := by
    cases jump with
    | none => exact (List.append_nil _).symm
    | some j => rfl
  cases dest with
  | nil => exact tail
  | cons r dest =>
    show (r :: dest).map Register.letter ++ 61 :: Operation.Form.tail c.render (jump.map Jump.render) = _
    rw [tail]
    simp [render, destination]

theorem valid_form (dest : List Register) (c : Computation) (jump : Option Jump) : (form dest c jump).Valid := by
  refine ⟨?_, ?_, ?_⟩
  · intro letters present b member
    split at present
    · cases present
    · obtain rfl := Option.some.inj present
      obtain ⟨r, -, rfl⟩ := List.mem_map.mp member
      exact ⟨r, rfl⟩
  · obtain ⟨f, memory⟩ := c
    cases memory with
    | false => exact .inl (Operation.Form.render_mem f)
    | true => exact .inr ⟨_, Operation.Form.render_mem f, (Operation.Form.render_onMemory f).symm⟩
  · intro name present
    obtain ⟨j, -, rfl⟩ := Option.map_eq_some_iff.mp present
    cases j <;> exact .inr (by decide)

theorem operation?_compute (dest : List Register) (c : Computation) (jump : Option Jump) :
    (Line.compute dest c jump).operation? = some (.compute (dest.map Register.letter) c.render (jumpText jump)) := by
  rw [operation?, ← render_form, (valid_form dest c jump).ofText]
  · cases dest <;> cases jump <;> rfl
  · exact nofun

theorem operation?_address (symbol : Text) :
    (Line.address symbol).operation? = some (.address symbol (Operation.literal symbol)) := rfl

theorem operation?_label {symbol : Text} (nonempty : symbol ≠ []) :
    (Line.label symbol).operation? = some (.label symbol) :=
  congrArg some (Operation.ofText_label nonempty)

/-- The instruction a line is loaded as when symbols have given values; a label or comment is none. -/
def loaded? (value : Text → Int) : Line → Option Operation
  | .address symbol => some (.address symbol (value symbol))
  | .compute dest c jump => some (.compute (dest.map Register.letter) c.render (jumpText jump))
  | .comment _ | .label _ => none

def isCode : Line → Bool
  | .address _ | .compute .. => true
  | .comment _ | .label _ => false

/-- A line whose label, if it declares one, can be read back. -/
def Named : Line → Prop
  | .label symbol => symbol ≠ []
  | _ => True

end Line

def codeSize (lines : List Line) : Nat := lines.countP Line.isCode

def operations (lines : List Line) : List Operation := lines.filterMap Line.operation?

theorem codeSize_append (xs ys : List Line) : codeSize (xs ++ ys) = codeSize xs + codeSize ys :=
  List.countP_append

theorem operations_append (xs ys : List Line) : operations (xs ++ ys) = operations xs ++ operations ys := by
  simp [operations]

theorem size_operations {lines : List Line} (named : ∀ l ∈ lines, l.Named) :
    Assembly.size (operations lines) = codeSize lines := by
  rw [Assembly.size, ← List.countP_eq_length_filter, operations, List.countP_filterMap, codeSize]
  refine List.countP_congr fun line member => ?_
  cases line with
  | label symbol => simp [Line.operation?_label (named _ member), Line.isCode, Operation.label?]
  | compute dest c jump => simp [Line.operation?_compute, Line.isCode, Operation.label?]
  | address symbol => simp [Line.operation?_address, Line.isCode, Operation.label?]
  | comment text => simp [Line.operation?, Line.isCode]

theorem declared_operations {lines : List Line} (named : ∀ l ∈ lines, l.Named) :
    (operations lines).filterMap Operation.label? = declared lines := by
  rw [operations, declared, List.filterMap_filterMap]
  refine List.filterMap_congr fun line member => ?_
  cases line with
  | label symbol =>
    rw [Line.operation?_label (named _ member)]
    rfl
  | compute dest c jump =>
    rw [Line.operation?_compute]
    rfl
  | _ => rfl

end Emission

/-- The value an instruction loads for a symbol. -/
def Program.value (p : Program) (symbol : Text) : Int :=
  if (Text.toInt? symbol).isSome then Operation.literal symbol else p.address symbol

namespace Emission

/-- Loading fills in the values of symbols and leaves labels and comments out. -/
theorem loaded_operations {lines : List Line} (named : ∀ l ∈ lines, l.Named) (p : Program) :
    ((operations lines).filter (·.label?.isNone)).map (Operation.bind p.address) =
      lines.filterMap (Line.loaded? p.value) := by
  rw [operations, List.filter_filterMap, List.map_filterMap]
  refine List.filterMap_congr fun line member => ?_
  cases line with
  | address symbol => simp [Line.operation?_address, Line.loaded?, Operation.label?, Operation.bind, Program.value]
  | label symbol => simp [Line.operation?_label (named _ member), Line.loaded?, Operation.label?]
  | compute dest c jump => simp [Line.operation?_compute, Line.loaded?, Operation.label?, Operation.bind]
  | comment text => rfl

/-! ### Reading the output -/

namespace Line

/-- A line that is read back as it was written: nothing in it ends the line, and except in a comment
nothing in it is skipped. -/
def Sound : Line → Prop
  | .comment text => Text.newline ∉ text
  | line => Text.Clean line.render

theorem Sound.no_newline {line : Line} (sound : line.Sound) : Text.newline ∉ line.render := by
  cases line with
  | comment text =>
    have slashes : Text.newline ∉ Text.ofString "// " := by decide
    have inside : Text.newline ∉ text := sound
    simp [render, slashes, inside]
  | _ => exact (Text.clean_no_break sound).1

theorem render_ne_nil {line : Line} (code : ∀ text, line ≠ .comment text) : line.render ≠ [] := by
  cases line with
  | comment text => exact absurd rfl (code text)
  | address symbol => exact List.cons_ne_nil 64 symbol
  | label symbol => exact List.cons_ne_nil 40 (symbol ++ [41])
  | compute dest c jump =>
    have nonempty := (Operation.Form.comp_bytes (valid_form dest c jump).2.1).2.2.2.2
    simp [render, nonempty]

/-- A number in an address instruction is one that can be loaded. -/
def InRange : Line → Prop
  | .address symbol => ∀ n ∈ Text.toInt? symbol, Operation.isLiteral n = true
  | _ => True

/-- A line that can be read: what it names is there, and is in range if it is a number. -/
def Accepted : Line → Prop
  | .address symbol => symbol ≠ [] ∧ (address symbol).InRange
  | .label symbol => symbol ≠ []
  | _ => True

theorem Accepted.inRange {line : Line} (accepted : line.Accepted) : line.InRange := by
  cases line with
  | address symbol => exact accepted.2
  | _ => trivial

/-- The operation that a line is written for; a comment is none. -/
def meaning? : Line → Option Operation
  | .comment _ => none
  | .address symbol => some (.address symbol (Operation.literal symbol))
  | .label symbol => some (.label symbol)
  | .compute dest c jump => some (.compute (dest.map Register.letter) c.render (jumpText jump))

def instruction? (number : Nat) (line : Line) : Option Instruction :=
  line.meaning?.map fun operation => { operation, line := number, text := line.render }

theorem operation?_of_accepted {line : Line} (accepted : line.Accepted) : line.operation? = line.meaning? := by
  cases line with
  | comment text => rfl
  | address symbol => rfl
  | label symbol => exact operation?_label accepted
  | compute dest c jump => exact operation?_compute dest c jump

theorem malformed?_render {line : Line} (code : ∀ text, line ≠ .comment text) :
    Operation.malformed? line.render = none ↔ line.Accepted := by
  cases line with
  | comment text => exact absurd rfl (code text)
  | address symbol => exact Operation.malformed?_address
  | label symbol =>
    show Operation.malformed? (40 :: (symbol ++ [41])) = none ↔ symbol ≠ []
    rw [Operation.malformed?_label, Option.isSome_iff_exists]
    constructor
    · rintro ⟨name, named⟩
      obtain ⟨nonempty, same⟩ := Operation.labelName?_eq_some.mp named
      rwa [List.append_cancel_right same]
    · intro nonempty
      exact ⟨symbol, Operation.labelName?_eq_some.mpr ⟨nonempty, rfl⟩⟩
  | compute dest c jump =>
    refine iff_of_true ?_ trivial
    rw [← render_form]
    exact (valid_form dest c jump).malformed?

theorem bare_comment (text : Text) : Assembly.bare (comment text).render = [] := rfl

theorem bare_code {line : Line} (code : ∀ text, line ≠ .comment text) (sound : line.Sound) :
    Assembly.bare line.render = line.render := by
  cases line with
  | comment text => exact absurd rfl (code text)
  | _ => exact Text.read_clean sound

theorem accepted_render {line : Line} (sound : line.Sound) : Assembly.Accepted line.render ↔ line.Accepted := by
  by_cases comment : ∃ text, line = .comment text
  · obtain ⟨text, rfl⟩ := comment
    exact iff_of_true (.inl (bare_comment text)) trivial
  · have code : ∀ text, line ≠ .comment text := fun text same => comment ⟨text, same⟩
    rw [Assembly.Accepted, bare_code code sound, malformed?_render code]
    simp [render_ne_nil code]

theorem operationOf_render {line : Line} (sound : line.Sound) : Assembly.operationOf line.render = line.operation? := by
  by_cases comment : ∃ text, line = .comment text
  · obtain ⟨text, rfl⟩ := comment
    rfl
  · have code : ∀ text, line ≠ .comment text := fun text same => comment ⟨text, same⟩
    rw [Assembly.operationOf, bare_code code sound, if_neg (render_ne_nil code)]
    cases line with
    | comment text => exact absurd rfl (code text)
    | _ => rfl

/-- A line that can be read is read as what it is written for. -/
theorem instructionOf_render {line : Line} (sound : line.Sound) (accepted : line.Accepted) (number : Nat) :
    Assembly.instructionOf line.render number = line.instruction? number := by
  rw [Assembly.instructionOf, operationOf_render sound, operation?_of_accepted accepted, instruction?]
  by_cases comment : ∃ text, line = .comment text
  · obtain ⟨text, rfl⟩ := comment
    rfl
  · rw [bare_code (fun text same => comment ⟨text, same⟩) sound]

end Line

/-- The lines of texts with line ends behind them. -/
theorem raw_unlines (parts : List Text) : Lines.raw (Text.unlines parts) = parts.flatMap (Text.split Text.newline) := by
  have pieces : Text.split Text.newline (Text.unlines parts) = parts.flatMap (Text.split Text.newline) ++ [[]] := by
    induction parts with
    | nil => rfl
    | cons t parts ih =>
      have unlined : Text.unlines (t :: parts) = t ++ Text.newline :: Text.unlines parts := by
        simp [Text.unlines]
      rw [unlined, Text.split_append, ih, List.flatMap_cons, List.append_assoc]
  rw [Lines.raw, pieces]
  simp

theorem raw_unlines_whole {parts : List Text} (free : ∀ t ∈ parts, Text.newline ∉ t) : Lines.raw (Text.unlines parts) = parts := by
  have whole : ∀ t ∈ parts, Text.split Text.newline t = [t] := fun t member => Text.split_of_not_mem (free t member)
  rw [raw_unlines, List.flatMap_congr whole, List.flatMap_singleton']

theorem raw_written {lines : List Line} (sound : ∀ l ∈ lines, l.Sound) :
    Lines.raw (Session.written lines) = lines.map Line.render := by
  unfold Session.written
  exact raw_unlines_whole (List.forall_mem_map.mpr fun l member => (sound l member).no_newline)

/-- Written lines can be read if each of them can, and each is then one instruction or a comment. -/
theorem parse_written_iff {lines : List Line} {found : List Instruction} (sound : ∀ l ∈ lines, l.Sound) :
    Assembly.parse (Session.written lines) = .ok found ↔
      (∀ l ∈ lines, l.render.length < Lines.limit ∧ l.Accepted) ∧
        found = (lines.zipIdx 1).filterMap fun l => l.1.instruction? l.2 := by
  have fine : (∀ l ∈ lines, l.render.length < Lines.limit ∧ Assembly.Accepted l.render) ↔
      ∀ l ∈ lines, l.render.length < Lines.limit ∧ l.Accepted := by
    refine forall₂_congr fun l member => ?_
    rw [Line.accepted_render (sound l member)]
  rw [Assembly.parse_iff, raw_written sound, List.forall_mem_map, fine, List.zipIdx_map, List.filterMap_map]
  refine and_congr_right fun accepted => ?_
  have same : (lines.zipIdx 1).filterMap ((fun l => Assembly.instructionOf l.1 l.2) ∘ Prod.map Line.render id) =
      (lines.zipIdx 1).filterMap fun l => l.1.instruction? l.2 := by
    refine List.filterMap_congr fun l member => ?_
    have present := List.fst_mem_of_mem_zipIdx member
    exact Line.instructionOf_render (sound l.1 present) (accepted l.1 present).2 l.2
  rw [same]

/-- Written lines are read back, each as its operation, if their numbers are in range. -/
theorem parse_written {lines : List Line} {found : List Instruction} (sound : ∀ l ∈ lines, l.Sound)
    (read : Assembly.parse (Session.written lines) = .ok found) :
    found.map (·.operation) = operations lines ∧ ∀ l ∈ lines, l.InRange := by
  obtain ⟨accepted, -⟩ := (parse_written_iff sound).mp read
  refine ⟨?_, fun l member => (accepted l member).2.inRange⟩
  rw [Assembly.parse_operations read, raw_written sound, List.filterMap_map]
  exact List.filterMap_congr fun l member => Line.operationOf_render (sound l member)

end Emission

end HackToolchain
