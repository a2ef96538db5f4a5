import HackToolchain.Proofs.Machine.Reading
import Mathlib.Data.List.Basic
import Mathlib.Data.List.TakeDrop

/-!
The grammar of a line of assembly. A line is put together from parts with separators between them, and it is read
exactly if the parts are fine. No line is put together from fine parts in two ways, so that what is read are the
parts and nothing of the line is lost.
-/

namespace HackToolchain

namespace Text

theorem ne_of_free {separator : UInt8} {u : Text} (free : separator ∉ u) : ∀ b ∈ u, (b != separator) = true := by
  intro b member
  simp only [bne_iff_ne]
  rintro rfl
  exact free member

theorem cut_append {separator : UInt8} {u : Text} (v : Text) (free : separator ∉ u) :
    (u ++ separator :: v).cut separator = (u, some v) := by
  rw [cut, List.span_eq_takeWhile_dropWhile, List.takeWhile_append_of_pos (ne_of_free free),
    List.dropWhile_append_of_pos (ne_of_free free)]
  simp

theorem cut_whole {separator : UInt8} {u : Text} (free : separator ∉ u) : u.cut separator = (u, none) := by
  have front := @List.takeWhile_append_of_pos _ _ u [] (ne_of_free free)
  have rest := @List.dropWhile_append_of_pos _ _ u [] (ne_of_free free)
  simp only [List.append_nil, List.takeWhile_nil, List.dropWhile_nil] at front rest
  rw [cut, List.span_eq_takeWhile_dropWhile, front, rest]

end Text

namespace Operation

/-- A line of assembly by its parts. A part that is absent has no separator either. -/
inductive Form
  | address (symbol : Text)
  | label (symbol : Text)
  | compute (dest : Option Text) (comp : Text) (jump : Option Text)
deriving DecidableEq, Repr

namespace Form

def comps : List Text :=
  ["0", "1", "-1", "D", "A", "!D", "!A", "-D", "-A", "D+1", "A+1", "D-1", "A-1", "D+A", "A+D", "D-A", "A-D", "D&A", "A&D",
    "D|A", "A|D"]

def jumps : List Text := ["JGT", "JEQ", "JGE", "JLT", "JNE", "JLE", "JMP"]

/-- A computation with the memory word in place of the address register. -/
def onMemory (comp : Text) : Text := comp.map fun b => if b = Register.A.letter then Register.M.letter else b

def Valid : Form → Prop
  | .address symbol => symbol ≠ [] ∧ ∀ n, Text.toInt? symbol = some n → 0 ≤ n ∧ n ≤ 32767
  | .label symbol => symbol ≠ []
  | .compute dest comp jump =>
    (∀ letters ∈ dest, ∀ b ∈ letters, ∃ r : Register, b = r.letter) ∧
      (comp ∈ comps ∨ ∃ plain ∈ comps, comp = onMemory plain) ∧ ∀ name ∈ jump, name = [] ∨ name ∈ jumps

/-- A computation and the jump behind it. -/
def tail (comp : Text) : Option Text → Text
  | some jump => comp ++ 59 :: jump
  | none => comp

def render : Form → Text
  | .address symbol => 64 :: symbol
  | .label symbol => 40 :: (symbol ++ [41])
  | .compute (some dest) comp jump => dest ++ 61 :: tail comp jump
  | .compute none comp jump => tail comp jump

/-- What a line is read as: an absent part as an empty one, and a symbol that is a number with its value. -/
def operation : Form → Operation
  | .address symbol => .address symbol ((Text.toInt? symbol).getD 0)
  | .label symbol => .label symbol
  | .compute dest comp jump => .compute (dest.getD []) comp (jump.getD [])

/-! ### Parts of a computation -/

/-- The parts end where a reader looks for their ends: at the first equals sign, and at the first semicolon behind it. -/
structure Separated (dest : Option Text) (comp : Text) (jump : Option Text) : Prop where
  equals : ∀ letters ∈ dest, 61 ∉ letters
  undivided : dest = none → 61 ∉ tail comp jump
  semicolon : 59 ∉ comp

variable {dest dest' : Option Text} {comp comp' : Text} {jump jump' : Option Text}

theorem Separated.cut_tail (separated : Separated dest comp jump) : (tail comp jump).cut 59 = (comp, jump) := by
  cases jump with
  | none => exact Text.cut_whole separated.semicolon
  | some name => exact Text.cut_append name separated.semicolon

theorem Separated.cut_render (separated : Separated dest comp jump) :
    (render (.compute dest comp jump)).cut 61 = (dest.getD (tail comp jump), dest.map fun _ => tail comp jump) := by
  cases dest with
  | none => exact Text.cut_whole (separated.undivided rfl)
  | some letters => exact Text.cut_append _ (separated.equals letters rfl)

theorem Separated.parts (separated : Separated dest comp jump) :
    parts (render (.compute dest comp jump)) = (dest.getD [], comp, jump.getD []) := by
  unfold Operation.parts
  rw [separated.cut_render]
  cases dest <;> cases jump <;> simp [separated.cut_tail]

theorem Separated.unique (separated : Separated dest comp jump) (separated' : Separated dest' comp' jump')
    (same : render (.compute dest comp jump) = render (.compute dest' comp' jump')) :
    dest = dest' ∧ comp = comp' ∧ jump = jump' := by
  have cut := separated.cut_render
  rw [same, separated'.cut_render] at cut
  obtain ⟨front, back⟩ := Prod.mk.inj cut
  have tails : dest' = dest ∧ tail comp' jump' = tail comp jump := by
    cases dest <;> cases dest' <;> simp_all
  have ends := separated.cut_tail
  rw [← tails.2, separated'.cut_tail] at ends
  obtain ⟨rfl, rfl⟩ := Prod.mk.inj ends
  exact ⟨tails.1.symm, rfl, rfl⟩

theorem exists_tail (t : Text) : ∃ comp jump, 59 ∉ comp ∧ tail comp jump = t := by
  by_cases divided : 59 ∈ t
  · obtain ⟨comp, jump, rfl, free⟩ := List.eq_append_cons_of_mem divided
    exact ⟨comp, some jump, free, rfl⟩
  · exact ⟨t, none, divided, rfl⟩

theorem exists_separated (t : Text) : ∃ dest comp jump, Separated dest comp jump ∧ render (.compute dest comp jump) = t := by
  by_cases divided : 61 ∈ t
  · obtain ⟨letters, rest, rfl, free⟩ := List.eq_append_cons_of_mem divided
    obtain ⟨comp, jump, semicolon, rfl⟩ := exists_tail rest
    refine ⟨some letters, comp, jump, ⟨?_, ?_, semicolon⟩, rfl⟩
    · rintro _ ⟨⟩
      exact free
    · intro absent
      cases absent
  · obtain ⟨comp, jump, semicolon, rfl⟩ := exists_tail t
    exact ⟨none, comp, jump, ⟨by simp, fun _ => divided, semicolon⟩, rfl⟩

/-! ### Fine parts -/

theorem render_onMemory (f : Alu) : onMemory (f.render Register.A.letter) = f.render Register.M.letter := by
  cases f <;> decide

theorem render_mem (f : Alu) : f.render Register.A.letter ∈ comps := by
  cases f <;> decide

theorem ofText?_isSome : (Computation.ofText? comp).isSome = true ↔ comp ∈ comps ∨ ∃ plain ∈ comps, comp = onMemory plain := by
  constructor
  · intro known
    unfold Computation.ofText? at known
    dsimp only at known
    split at known
    · cases known
    · obtain ⟨f, found⟩ := Option.isSome_iff_exists.mp (Option.isSome_map ▸ known)
      have written := List.find?_some found
      rw [beq_iff_eq] at written
      split at written
      · right
        exact ⟨_, render_mem f, written.symm.trans (render_onMemory f).symm⟩
      · left
        exact written ▸ render_mem f
  · have plain : ∀ comp ∈ comps, (Computation.ofText? comp).isSome = true ∧ (Computation.ofText? (onMemory comp)).isSome = true := by
      decide
    rintro (member | ⟨comp, member, rfl⟩)
    · exact (plain _ member).1
    · exact (plain _ member).2

theorem known_jump {name : Text} : (Jump.ofText? name).isSome = true ↔ name ∈ jumps := by
  constructor
  · intro known
    obtain ⟨j, found⟩ := Option.isSome_iff_exists.mp known
    have written := List.find?_some found
    obtain rfl := beq_iff_eq.mp written
    cases j <;> decide
  · have all : ∀ name ∈ jumps, (Jump.ofText? name).isSome = true := by decide
    exact all name

theorem isRegister_iff {b : UInt8} : (b == 65 || b == 77 || b == 68) = true ↔ ∃ r : Register, b = r.letter := by
  simp only [Bool.or_eq_true, beq_iff_eq]
  constructor
  · rintro ((rfl | rfl) | rfl)
    · exact ⟨.A, rfl⟩
    · exact ⟨.M, rfl⟩
    · exact ⟨.D, rfl⟩
  · rintro ⟨r, rfl⟩
    cases r <;> decide

theorem valid_iff : Valid (.compute dest comp jump) ↔
    (Computation.ofText? comp).isSome = true ∧ (dest.getD []).all (fun b => b == 65 || b == 77 || b == 68) = true ∧
      (jump.getD [] = [] ∨ (Jump.ofText? (jump.getD [])).isSome = true) := by
  rw [ofText?_isSome, List.all_eq_true, known_jump, Valid, and_left_comm]
  simp only [isRegister_iff]
  cases dest <;> cases jump <;> simp

theorem comp_bytes (fine : comp ∈ comps ∨ ∃ plain ∈ comps, comp = onMemory plain) :
    61 ∉ comp ∧ 59 ∉ comp ∧ comp.head? ≠ some 64 ∧ comp.head? ≠ some 40 ∧ comp ≠ [] := by
  have all : ∀ comp ∈ comps ++ comps.map onMemory,
      61 ∉ comp ∧ 59 ∉ comp ∧ comp.head? ≠ some 64 ∧ comp.head? ≠ some 40 ∧ comp ≠ [] := by
    decide
  apply all
  rcases fine with plain | ⟨comp, plain, rfl⟩
  · exact List.mem_append_left _ plain
  · exact List.mem_append_right _ (List.mem_map_of_mem plain)

theorem Valid.separated (valid : Valid (.compute dest comp jump)) : Separated dest comp jump := by
  obtain ⟨letters, fine, jumping⟩ := valid
  obtain ⟨noEquals, noSemicolon, -⟩ := comp_bytes fine
  refine ⟨?_, ?_, noSemicolon⟩
  · intro word present member
    obtain ⟨r, same⟩ := letters word present 61 member
    cases r <;> cases same
  · intro _
    cases jump with
    | none => exact noEquals
    | some name =>
      have free : 61 ∉ name := by
        have all : ∀ name ∈ jumps, 61 ∉ name := by decide
        rcases jumping name rfl with rfl | known
        · exact List.not_mem_nil
        · exact all name known
      simp [tail, noEquals, free]

theorem Valid.first (valid : Valid (.compute dest comp jump)) :
    (render (.compute dest comp jump)).head? ≠ some 64 ∧ (render (.compute dest comp jump)).head? ≠ some 40 := by
  obtain ⟨letters, fine, -⟩ := valid
  cases dest with
  | none =>
    obtain ⟨-, -, notAt, notOpen, nonempty⟩ := comp_bytes fine
    obtain ⟨b, rest, rfl⟩ := List.exists_cons_of_ne_nil nonempty
    cases jump <;> exact ⟨notAt, notOpen⟩
  | some word =>
    cases word with
    | nil => exact ⟨by simp [render], by simp [render]⟩
    | cons b rest =>
      obtain ⟨r, rfl⟩ := letters _ rfl b List.mem_cons_self
      cases r <;> simp [render, Register.letter]

/-! ### Whole lines -/

theorem Valid.malformed? {form : Form} (valid : form.Valid) : malformed? form.render = none := by
  cases form with
  | address symbol =>
    refine malformed?_address.mpr ⟨valid.1, ?_⟩
    intro n read
    exact isLiteral_iff.mpr (valid.2 n read)
  | label symbol =>
    apply malformed?_label.mpr
    rw [labelName?_eq_some.mpr ⟨valid, rfl⟩]
    rfl
  | compute dest comp jump =>
    rw [malformed?_compute valid.first, valid.separated.parts]
    exact valid_iff.mp valid

theorem Valid.ofText {form : Form} (valid : form.Valid) : ofText form.render = form.operation := by
  cases form with
  | address symbol =>
    show Operation.address symbol _ = .address symbol _
    cases read : Text.toInt? symbol with
    | none => rfl
    | some n => simp [isLiteral_iff.mpr (valid.2 n read)]
  | label symbol =>
    show ((labelName? (symbol ++ [41])).map Operation.label).getD _ = .label symbol
    rw [labelName?_eq_some.mpr ⟨valid, rfl⟩]
    rfl
  | compute dest comp jump =>
    rw [ofText_compute valid.first, valid.separated.parts]
    rfl

theorem exists_form {t : Text} (fine : malformed? t = none) : ∃ form : Form, form.Valid ∧ form.render = t := by
  by_cases first : t.head? ≠ some 64 ∧ t.head? ≠ some 40
  · obtain ⟨dest, comp, jump, separated, rfl⟩ := exists_separated t
    rw [malformed?_compute first, separated.parts] at fine
    exact ⟨.compute dest comp jump, valid_iff.mpr fine, rfl⟩
  · obtain ⟨b, rest, rfl⟩ : ∃ b rest, t = b :: rest := by
      apply List.exists_cons_of_ne_nil
      rintro rfl
      simp at first
    obtain rfl | rfl : b = 64 ∨ b = 40 := by
      apply Decidable.or_iff_not_imp_left.mpr
      simpa using first
    · obtain ⟨nonempty, range⟩ := malformed?_address.mp fine
      refine ⟨.address rest, ⟨nonempty, ?_⟩, rfl⟩
      intro n read
      exact isLiteral_iff.mp (range n read)
    · obtain ⟨symbol, named⟩ := Option.isSome_iff_exists.mp (malformed?_label.mp fine)
      obtain ⟨nonempty, rfl⟩ := labelName?_eq_some.mp named
      exact ⟨.label symbol, nonempty, rfl⟩

theorem Valid.unique {form other : Form} (valid : form.Valid) (valid' : other.Valid) (same : form.render = other.render) :
    form = other := by
  -- The first byte tells the three kinds of lines apart.
  cases form with
  | address symbol =>
    cases other with
    | address symbol' => rw [(List.cons.inj same).2]
    | label symbol' => simp [render] at same
    | compute dest comp jump => exact absurd (same ▸ rfl) valid'.first.1
  | label symbol =>
    cases other with
    | address symbol' => simp [render] at same
    | label symbol' => rw [List.append_cancel_right (List.cons.inj same).2]
    | compute dest comp jump => exact absurd (same ▸ rfl) valid'.first.2
  | compute dest comp jump =>
    cases other with
    | address symbol => exact absurd (same ▸ rfl) valid.first.1
    | label symbol => exact absurd (same ▸ rfl) valid.first.2
    | compute dest' comp' jump' =>
      obtain ⟨rfl, rfl, rfl⟩ := valid.separated.unique valid'.separated same
      rfl

end Form

theorem parse_ok {t : Text} {operation : Operation} : parse t = .ok operation ↔ malformed? t = none ∧ ofText t = operation := by
  unfold parse
  cases malformed? t <;> simp

/-- A line is read exactly if fine parts make it up. There is only one choice of them, and they are what is read;
a line that computes never starts like an address or a label. -/
theorem parse_grammar (t : Text) :
    (∀ operation, parse t = .ok operation ↔ ∃ form : Form, form.Valid ∧ form.render = t ∧ form.operation = operation) ∧
      (∀ form other : Form, form.Valid → other.Valid → form.render = t → other.render = t → form = other) ∧
      ∀ dest comp jump, Form.Valid (.compute dest comp jump) → Form.render (.compute dest comp jump) = t →
        t.head? ≠ some 64 ∧ t.head? ≠ some 40 := by
  refine ⟨?_, ?_, ?_⟩
  · intro operation
    rw [parse_ok]
    constructor
    · rintro ⟨fine, rfl⟩
      obtain ⟨form, valid, rfl⟩ := Form.exists_form fine
      exact ⟨form, valid, rfl, valid.ofText.symm⟩
    · rintro ⟨form, valid, rfl, rfl⟩
      exact ⟨valid.malformed?, valid.ofText⟩
  · intro form other valid valid' here there
    exact valid.unique valid' (here.trans there.symm)
  · rintro dest comp jump valid rfl
    exact valid.first

end Operation

end HackToolchain
