import HackToolchain.Proofs.Emission.Branches
import HackToolchain.Proofs.Simulation.Reference

/-!
Where the code of each command stands in a loaded program, and what the labels in it stand for. A label
that a command jumps to is the one of that name in the same function, since both are written with the
name of the function they are in.
-/

namespace HackToolchain

namespace Reference

/-- The name of the function that a position lies in, empty where it lies in none. -/
def scopeName (cs : List Command) (i : Nat) : Text :=
  match (scope cs i).bind (cs[·]?) with
  | some (.function name _) => name
  | _ => []

theorem target_spec {cs : List Command} {i j : Nat} {name : Text} (found : target cs i name = some j) :
    cs[j]? = some (.label name) ∧ scopeName cs j = scopeName cs i := by
  have test := List.find?_some found
  rw [Bool.and_eq_true, beq_iff_eq, beq_iff_eq] at test
  exact ⟨test.1, by rw [scopeName, scopeName, test.2]⟩

theorem entry_spec {cs : List Command} {name : Text} {j locals : Nat} (found : entry cs name = some (j, locals)) :
    ∃ n : Int, cs[j]? = some (.function name n) ∧ locals = n.toNat := by
  obtain ⟨i, -, here⟩ := List.exists_of_findSome?_eq_some found
  cases at_ : cs[i]? with
  | none => simp [at_] at here
  | some c =>
    cases c with
    | function other n =>
      simp only [at_, Option.ite_none_right_eq_some, Option.some.injEq, Prod.mk.injEq] at here
      obtain ⟨rfl, rfl, rfl⟩ := here
      exact ⟨n, at_, rfl⟩
    | _ => simp [at_] at here

end Reference

namespace Emission

open Reference

/-- The address of the code for a position, behind other code. -/
def commandAddress (front : List Line) (names : Naming) (cs : List Command) (i : Nat) : Nat :=
  codeSize front + codeSize ((names.program (cs.take i)).toOption.getD [])

/-- A loaded program that was generated from commands, with other code in front. -/
structure Image (cs : List Command) (p : Program) where
  front : List Line
  lines : List Line
  names : Naming
  wellFormed : ∀ c ∈ cs, c.WellFormed
  unscoped : names.function = []
  coded : names.program cs = .ok lines
  loaded : p.LoadedFrom (operations (front ++ lines))
  named : ∀ l ∈ front ++ lines, l.Named
  inRange : ∀ l ∈ front ++ lines, l.InRange
  symbolic : ∀ {symbol value}, p.labels.lookup symbol = some value → Text.toInt? symbol = none
  pointers : Pointers p.value
  small : p.code.length ≤ 32767

namespace Image

variable {cs : List Command} {p : Program} (image : Image cs p)

def naming (i : Nat) : Naming := (cs.take i).foldl Naming.after image.names

def address : Nat → Nat := commandAddress image.front image.names cs

/-- Lines that stand somewhere in a program as they were written. -/
def Contains (start : Nat) (code : List Line) : Prop :=
  ∃ before after, image.front ++ image.lines = before ++ code ++ after ∧ codeSize before = start

variable {image} {i start : Nat} {c : Command} {code : List Line}

theorem Contains.loaded (contains : image.Contains start code) :
    (∀ l ∈ code, l.Named) ∧ ∃ before after, p.LoadedFrom (before ++ operations code ++ after) ∧ Assembly.size before = start := by
  obtain ⟨before, after, split, rfl⟩ := contains
  have named := image.named
  have loaded := image.loaded
  rw [split] at named loaded
  rw [operations_append, operations_append] at loaded
  refine ⟨fun l member => named l (by simp [member]), _, _, loaded, ?_⟩
  exact size_operations fun l member => named l (by simp [member])

theorem Contains.stands (contains : image.Contains start code) : Stands p.code.toArray p.value start code := by
  obtain ⟨named, before, after, loaded, rfl⟩ := contains.loaded
  exact stands_block loaded named

theorem Contains.inRange (contains : image.Contains start code) : ∀ l ∈ code, l.InRange := by
  obtain ⟨before, after, split, -⟩ := contains
  have inRange := image.inRange
  rw [split] at inRange
  exact fun l member => inRange l (by simp [member])

theorem Contains.number {n : Int} (contains : image.Contains start code) (member : Line.number n ∈ code)
    (fits : Text.fitsWord n = true) : n ≤ 32767 := by
  have literal := contains.inRange _ member n (Text.toInt?_ofInt fits)
  simp only [Operation.isLiteral, Bool.and_eq_true, decide_eq_true_eq] at literal
  exact literal.2

theorem Contains.fits (contains : image.Contains start code) : start + codeSize code ≤ 32767 := by
  obtain ⟨named, before, after, loaded, rfl⟩ := contains.loaded
  have length := loaded.length
  have small := image.small
  rw [Assembly.size_append, Assembly.size_append, size_operations named] at length
  omega

theorem Contains.label {front back : List Line} {symbol : Text} (contains : image.Contains start code)
    (split : code = front ++ .label symbol :: back) :
    p.labels.lookup symbol = some (start + codeSize front) ∧ p.value symbol = (start + codeSize front : Nat) := by
  obtain ⟨named, before, after, loaded, rfl⟩ := contains.loaded
  have known := lookup_block loaded named split
  exact ⟨known, value_label (image.symbolic known) known⟩

theorem Contains.comparison {condition : Jump} {trueLabel endLabel : Text}
    (contains : image.Contains start (compare condition trueLabel endLabel)) :
    p.value trueLabel = (start + 13 : Nat) ∧ p.value endLabel = (start + 16 : Nat) := by
  have isTrue : compare condition trueLabel endLabel = (compare condition trueLabel endLabel).take 13 ++
      .label trueLabel :: (compare condition trueLabel endLabel).drop 14 := rfl
  have isEnd : compare condition trueLabel endLabel = (compare condition trueLabel endLabel).take 17 ++
      .label endLabel :: [] := rfl
  exact ⟨(contains.label isTrue).2, (contains.label isEnd).2⟩

theorem Contains.outside {symbol : Text} {value : Nat} (contains : image.Contains start code) (plain : declared code = [])
    (known : p.labels.lookup symbol = some value) : value ≤ start ∨ start + codeSize code ≤ value := by
  obtain ⟨named, before, after, loaded, rfl⟩ := contains.loaded
  exact lookup_outside loaded named plain known

/-- Each command has its code at its address, and the next command begins behind it. -/
theorem block (here : cs[i]? = some c) :
    ∃ code, (image.naming i).code c = .ok code ∧ image.address (i + 1) = image.address i + codeSize code ∧
      image.Contains (image.address i) code := by
  obtain ⟨inside, rfl⟩ := List.getElem?_eq_some_iff.mp here
  have coded : image.names.program (cs.take i ++ cs[i] :: cs.drop (i + 1)) = .ok image.lines := by
    rw [← List.drop_eq_getElem_cons inside, List.take_append_drop, image.coded]
  obtain ⟨early, rest, first, later, split⟩ := Naming.program_append.mp coded
  obtain ⟨code, back, own, -, rfl⟩ := Naming.program_cons.mp later
  have next : image.names.program (cs.take (i + 1)) = .ok (early ++ (.comment cs[i].render :: code)) := by
    rw [List.take_succ_eq_append_getElem inside]
    exact Naming.program_append.mpr ⟨early, _, first, Naming.program_cons.mpr ⟨code, [], own, rfl, by simp⟩, rfl⟩
  have size : codeSize (.comment cs[i].render :: code) = codeSize code := by simp [codeSize, Line.isCode]
  refine ⟨code, own, ?_, image.front ++ (early ++ [.comment cs[i].render]), back, ?_, ?_⟩
  · rw [address, commandAddress, commandAddress, next, first]
    simp only [Except.toOption, Option.getD_some, codeSize_append, size]
    omega
  · rw [split]
    simp
  · rw [address, commandAddress, first]
    simp [Except.toOption, codeSize, Line.isCode]

theorem address_le (i : Nat) : image.address i ≤ 32767 := by
  have coded : image.names.program (cs.take i ++ cs.drop i) = .ok image.lines := by
    rw [List.take_append_drop, image.coded]
  obtain ⟨early, rest, first, -, split⟩ := Naming.program_append.mp coded
  have whole : image.Contains 0 (image.front ++ early) := ⟨[], rest, by simp [split], rfl⟩
  have fits := whole.fits
  rw [codeSize_append] at fits
  rw [address, commandAddress, first]
  simp only [Except.toOption, Option.getD_some]
  omega

theorem naming_succ (here : cs[i]? = some c) : image.naming (i + 1) = (image.naming i).after c := by
  rw [naming, naming, List.take_add_one, here]
  simp

theorem function_eq (i : Nat) : (image.naming i).function = scopeName cs i := by
  induction i with
  | zero => exact image.unscoped
  | succ i ih =>
    cases here : cs[i]? with
    | none =>
      have short : cs.length ≤ i := List.getElem?_eq_none_iff.mp here
      have same : image.naming (i + 1) = image.naming i := by
        rw [naming, naming, List.take_of_length_le short, List.take_of_length_le (by omega)]
      rw [same, ih, scopeName, scopeName, scope, here]
    | some c =>
      rw [naming_succ here, scopeName, scope, here]
      cases c with
      | function name locals => simp [Naming.after, here]
      | arithmetic operation =>
        simp only [Naming.after]
        split <;> exact ih
      | _ => exact ih

/-- A jump leads to the code of the label. -/
theorem value_target {name : Text} {j : Nat} (found : target cs i name = some j) :
    p.labels.lookup ((image.naming i).qualify name) = some (image.address j) ∧
      p.value ((image.naming i).qualify name) = image.address j ∧ image.address j ≤ 32767 := by
  obtain ⟨here, sameScope⟩ := target_spec found
  obtain ⟨code, coded, -, contains⟩ := image.block here
  have same : (image.naming i).qualify name = (image.naming j).qualify name := by
    rw [Naming.qualify, Naming.qualify, function_eq, function_eq, sameScope]
  obtain rfl := Except.ok.inj coded
  obtain ⟨known, value⟩ := contains.label (show _ = [] ++ Line.label _ :: _ from rfl)
  exact ⟨same ▸ known, same ▸ value, contains.fits⟩

/-- A call leads to the code of the function. -/
theorem value_entry {name : Text} {j locals : Nat} (found : entry cs name = some (j, locals)) :
    p.labels.lookup name = some (image.address j) ∧ p.value name = image.address j ∧
      image.Contains (image.address j) (.label name :: (List.replicate locals pushZero).flatten) ∧
      image.address (j + 1) = image.address j + codeSize (List.replicate locals pushZero).flatten := by
  obtain ⟨n, here, rfl⟩ := entry_spec found
  obtain ⟨code, coded, next, contains⟩ := image.block here
  obtain rfl := Naming.function_ok coded
  obtain ⟨known, value⟩ := contains.label (show _ = [] ++ Line.label _ :: _ from rfl)
  exact ⟨known, value, contains, next⟩

end Image

end Emission

end HackToolchain
