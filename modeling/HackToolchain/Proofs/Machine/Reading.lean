import HackToolchain.Proofs.Machine.Load
import HackToolchain.Proofs.Text.Trim
import Mathlib.Data.List.Basic

/-!
Reading assembly line by line. A line is fine or at fault by itself, whatever stands around it; a text is read
if all of its lines are fine, and then each line with something in front of its comment is one instruction.
-/

namespace HackToolchain

namespace Lines

theorem ofText_short {source : Text} (short : ∀ line ∈ raw source, line.length < limit) :
    ofText source = { contents := (raw source).map dropReturn, overflows := false } := by
  have fits : ∀ line ∈ raw source, decide (line.length < limit) = true := by
    intro line member
    exact decide_eq_true (short line member)
  have all : (raw source).takeWhile (fun line => line.length < limit) = raw source := by
    have front := @List.takeWhile_append_of_pos _ _ (raw source) [] fits
    simpa using front
  have none : (raw source).any (fun line => limit ≤ line.length) = false := by
    rw [List.any_eq_false]
    intro line member
    have := short line member
    simp only [decide_eq_true_eq]
    omega
  simp only [ofText, all, none]

end Lines

namespace Operation

theorem isLiteral_iff {n : Int} : isLiteral n = true ↔ 0 ≤ n ∧ n ≤ 32767 := by
  simp only [isLiteral, Bool.and_eq_true, decide_eq_true_eq]
  rfl

theorem ofText_compute {t : Text} (first : t.head? ≠ some 64 ∧ t.head? ≠ some 40) :
    ofText t = .compute (parts t).1 (parts t).2.1 (parts t).2.2 := by
  unfold ofText
  split
  · simp at first
  · simp at first
  · rfl

theorem malformed?_address {symbol : Text} :
    malformed? (64 :: symbol) = none ↔ symbol ≠ [] ∧ ∀ n ∈ Text.toInt? symbol, isLiteral n = true := by
  simp only [malformed?]
  by_cases empty : symbol = []
  · simp [empty]
  · rw [if_neg empty]
    cases Text.toInt? symbol with
    | none => simp [empty]
    | some n => simp [empty]

theorem labelName?_eq_some {rest symbol : Text} : labelName? rest = some symbol ↔ symbol ≠ [] ∧ rest = symbol ++ [41] := by
  unfold labelName?
  constructor
  · intro named
    split at named
    · rename_i closed
      obtain ⟨front, rfl⟩ := List.getLast?_eq_some_iff.mp closed.1
      obtain rfl : front = symbol := by simpa using named
      refine ⟨?_, rfl⟩
      rintro rfl
      simp at closed
    · cases named
  · rintro ⟨nonempty, rfl⟩
    have := List.length_pos_iff.mpr nonempty
    rw [if_pos ⟨by simp, by simp; omega⟩]
    simp

theorem malformed?_label {rest : Text} : malformed? (40 :: rest) = none ↔ (labelName? rest).isSome = true := by
  simp only [malformed?]
  cases labelName? rest <;> simp

theorem malformed?_compute {t : Text} (first : t.head? ≠ some 64 ∧ t.head? ≠ some 40) :
    malformed? t = none ↔
      (Computation.ofText? (parts t).2.1).isSome = true ∧ (parts t).1.all (fun b => b == 65 || b == 77 || b == 68) = true ∧
        ((parts t).2.2 = [] ∨ (Jump.ofText? (parts t).2.2).isSome = true) := by
  unfold malformed?
  split
  · simp at first
  · simp at first
  · dsimp only
    cases Computation.ofText? (parts t).2.1 with
    | none => simp
    | some computation =>
      cases (parts t).1.all (fun b => b == 65 || b == 77 || b == 68) with
      | false => simp
      | true => cases Jump.ofText? (parts t).2.2 <;> simp

end Operation

namespace Assembly

/-- What is read of a line: its comment and all of its white space are left out. -/
def bare (line : Text) : Text := line.beforeComment.squeeze

def Accepted (line : Text) : Prop := bare line = [] ∨ Operation.malformed? (bare line) = none

def operationOf (line : Text) : Option Operation := if bare line = [] then none else some (.ofText (bare line))

def instructionOf (line : Text) (number : Nat) : Option Instruction :=
  (operationOf line).map fun operation => { operation, line := number, text := bare line }

theorem bare_dropReturn (line : Text) : bare (Lines.dropReturn line) = bare line := by
  rw [bare, Text.squeeze, Text.dropReturn_fields, bare, Text.squeeze]

theorem instruction?_iff {line : Text} {number : Nat} {found : Option Instruction} :
    instruction? line number = .ok found ↔ Accepted line ∧ found = instructionOf line number := by
  unfold instruction? instructionOf operationOf Accepted bare Text.squeeze
  generalize line.beforeComment.fields.flatten = text
  cases text with
  | nil => simp [eq_comm]
  | cons b rest =>
    simp only [Operation.parse]
    cases Operation.malformed? (b :: rest) with
    | none => simp [eq_comm]
    | some e => simp

theorem ofLines_iff {lines : List (Text × Nat)} {found : List Instruction} :
    ofLines lines = .ok found ↔
      (∀ l ∈ lines, Accepted l.1) ∧ found = lines.filterMap fun l => instructionOf l.1 l.2 := by
  induction lines generalizing found with
  | nil => simp [ofLines, eq_comm]
  | cons first rest ih =>
    obtain ⟨line, number⟩ := first
    constructor
    · intro read
      obtain ⟨head, later, here, there, rfl⟩ := ofLines_cons read
      obtain ⟨accepted, rfl⟩ := instruction?_iff.mp here
      obtain ⟨all, rfl⟩ := ih.mp there
      refine ⟨List.forall_mem_cons.mpr ⟨accepted, all⟩, ?_⟩
      cases known : instructionOf line number <;> simp [known]
    · rintro ⟨accepted, rfl⟩
      obtain ⟨here, there⟩ := List.forall_mem_cons.mp accepted
      simp only [ofLines, instruction?_iff.mpr ⟨here, rfl⟩, ih.mpr ⟨there, rfl⟩]
      cases known : instructionOf line number <;> simp [known]

theorem ofLines_numbered {source : Text} {found : List Instruction}
    (short : ∀ line ∈ Lines.raw source, line.length < Lines.limit) :
    ofLines (Lines.ofText source).numbered = .ok found ↔
      (∀ line ∈ Lines.raw source, Accepted line) ∧
        found = ((Lines.raw source).zipIdx 1).filterMap fun l => instructionOf l.1 l.2 := by
  have accepted : (∀ l ∈ (Lines.raw source).zipIdx 1, Accepted l.1) ↔ ∀ line ∈ Lines.raw source, Accepted line := by
    rw [← List.forall_mem_map (f := Prod.fst) (P := Accepted), List.zipIdx_map_fst]
  rw [Lines.numbered, Lines.ofText_short short, List.zipIdx_map, ofLines_iff, List.forall_mem_map, List.filterMap_map,
    ← accepted]
  -- The carriage return that a line loses is white space of it.
  simp only [Accepted, instructionOf, operationOf, Function.comp_def, Prod.map_fst, Prod.map_snd, bare_dropReturn, id]

/-- A text is read exactly if no line of it is too long or at fault. -/
theorem parse_iff {source : Text} {found : List Instruction} :
    parse source = .ok found ↔
      (∀ line ∈ Lines.raw source, line.length < Lines.limit ∧ Accepted line) ∧
        found = ((Lines.raw source).zipIdx 1).filterMap fun l => instructionOf l.1 l.2 := by
  unfold parse
  dsimp only
  by_cases short : ∀ line ∈ Lines.raw source, line.length < Lines.limit
  · have fine : (∀ line ∈ Lines.raw source, line.length < Lines.limit ∧ Accepted line) ↔
        ∀ line ∈ Lines.raw source, Accepted line := by
      constructor
      · intro fine line member
        exact (fine line member).2
      · intro accepted line member
        exact ⟨short line member, accepted line member⟩
    have fits : (Lines.ofText source).overflows = false := by rw [Lines.ofText_short short]
    rw [fine, ← ofLines_numbered short, fits]
    cases ofLines (Lines.ofText source).numbered <;> simp
  · have long : (Lines.ofText source).overflows = true := by
      obtain ⟨line, bad⟩ := Classical.not_forall.mp short
      obtain ⟨member, long⟩ := Classical.not_imp.mp bad
      exact List.any_eq_true.mpr ⟨line, member, decide_eq_true (Nat.not_lt.mp long)⟩
    constructor
    · intro read
      split at read
      · cases read
      · rw [long] at read
        cases read
    · rintro ⟨fine, -⟩
      exact absurd (fun line member => (fine line member).1) short

theorem parse_operations {source : Text} {found : List Instruction} (read : parse source = .ok found) :
    found.map (·.operation) = (Lines.raw source).filterMap operationOf := by
  obtain ⟨-, rfl⟩ := parse_iff.mp read
  rw [← List.zipIdx_map_fst 1 (Lines.raw source), List.filterMap_map, List.zipIdx_map_fst, List.map_filterMap]
  refine List.filterMap_congr fun l _ => ?_
  show (instructionOf l.1 l.2).map (·.operation) = operationOf l.1
  unfold instructionOf
  cases operationOf l.1 <;> rfl

end Assembly

/-- An instruction of a loaded program is what its text reads as, with the value of its symbol filled in. -/
theorem Program.mem_code {source : Text} {p : Program} (loaded : Program.load source = .ok p) {i : Instruction}
    (member : i ∈ p.code) :
    Operation.malformed? i.text = none ∧ (Operation.ofText i.text).label? = none ∧
      i.operation = (Operation.ofText i.text).bind p.address := by
  obtain ⟨instructions, parsed, -, rfl⟩ := load_layOut loaded
  obtain ⟨fine, rfl⟩ := Assembly.parse_iff.mp parsed
  rw [layOut_code] at member
  obtain ⟨j, kept, rfl⟩ := List.mem_map.mp member
  obtain ⟨read, code⟩ := List.mem_filter.mp kept
  obtain ⟨⟨line, number⟩, inside, found⟩ := List.mem_filterMap.mp read
  have accepted := (fine line (List.fst_mem_of_mem_zipIdx inside)).2
  obtain ⟨operation, known, rfl⟩ := Option.map_eq_some_iff.mp found
  unfold Assembly.operationOf at known
  split at known
  · cases known
  · rename_i nonempty
    obtain rfl := Option.some.inj known
    exact ⟨accepted.resolve_left nonempty, Option.isNone_iff_eq_none.mp code, rfl⟩

end HackToolchain
