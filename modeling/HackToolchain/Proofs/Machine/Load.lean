import HackToolchain.Machine.Program
import HackToolchain.Proofs.Lookup

/-!
What loading makes of instructions. Labels are bound to the number of instructions in front of them,
which works exactly when no label is declared twice, and every symbol that is no number gets one
value throughout the program.
-/

namespace HackToolchain

namespace Operation

def label? : Operation → Option Text
  | .label symbol => some symbol
  | _ => none

def operand? : Operation → Option Text
  | .address symbol _ => some symbol
  | _ => none

/-- An operation with the value of its symbol filled in, unless that is a number. -/
def bind (value : Text → Nat) : Operation → Operation
  | .address symbol n => .address symbol (if (Text.toInt? symbol).isSome then n else value symbol)
  | operation => operation

theorem operand?_eq_some {operation : Operation} {symbol : Text} :
    operation.operand? = some symbol ↔ ∃ value, operation = .address symbol value := by
  cases operation <;> simp [operand?]

theorem bind_eq_address {value : Text → Nat} {operation : Operation} {symbol : Text} {n : Int} :
    operation.bind value = .address symbol n ↔
      ∃ m, operation = .address symbol m ∧ n = if (Text.toInt? symbol).isSome then m else value symbol := by
  cases operation with
  | address name m =>
    simp only [bind, address.injEq]
    constructor
    · rintro ⟨rfl, rfl⟩
      exact ⟨m, ⟨rfl, rfl⟩, rfl⟩
    · rintro ⟨_, ⟨rfl, rfl⟩, rfl⟩
      exact ⟨rfl, rfl⟩
  | _ => simp [bind]

theorem label?_eq_some {operation : Operation} {symbol : Text} :
    operation.label? = some symbol ↔ operation = .label symbol := by
  cases operation <;> simp [label?]

end Operation

namespace Assembly

def size (operations : List Operation) : Nat := (operations.filter (·.label?.isNone)).length

/-- The labels of operations with the addresses they stand for, from an address on. -/
def labelsFrom : (address : Nat) → List Operation → Bindings Nat
  | _, [] => []
  | address, .label symbol :: rest => (symbol, address) :: labelsFrom address rest
  | address, _ :: rest => labelsFrom (address + 1) rest

/-- A symbol that cannot be a variable where labels have given names: it is a number, one of the labels or
predefined. -/
def Known (labels : List Text) (symbol : Text) : Prop :=
  (Text.toInt? symbol).isSome = true ∨ symbol ∈ labels ∨ (predefined.lookup symbol).isSome = true

instance (labels : List Text) (symbol : Text) : Decidable (Known labels symbol) :=
  inferInstanceAs (Decidable (_ ∨ _ ∨ _))

/-- The symbols loaded by instructions that cannot be anything but variables, each as often as it is used. -/
def remaining (labels : List Text) (instructions : List Instruction) : List Text :=
  (instructions.filterMap (·.operation.operand?)).filter fun symbol => ¬ Known labels symbol

/-- What a symbol stands for under given bindings. -/
def addressOf (labels storage : Bindings Nat) (symbol : Text) : Nat :=
  (labels.lookup symbol <|> predefined.lookup symbol <|> storage.lookup symbol).getD 0

theorem size_append (xs ys : List Operation) : size (xs ++ ys) = size xs + size ys := by
  simp [size]

theorem size_operations (instructions : List Instruction) :
    size (instructions.map (·.operation)) = (instructions.filter (·.operation.label?.isNone)).length := by
  rw [size, List.filter_map, List.length_map]
  rfl

theorem labelsFrom_code {operation : Operation} (code : operation.label? = none) (address : Nat)
    (rest : List Operation) : labelsFrom address (operation :: rest) = labelsFrom (address + 1) rest := by
  cases operation with
  | label symbol => cases code
  | _ => rfl

theorem labelsFrom_append (address : Nat) (xs ys : List Operation) :
    labelsFrom address (xs ++ ys) = labelsFrom address xs ++ labelsFrom (address + size xs) ys := by
  induction xs generalizing address with
  | nil => rfl
  | cons operation xs ih =>
    cases known : operation.label? with
    | some symbol =>
      cases operation <;> cases known
      simp [labelsFrom, ih, size, Operation.label?]
    | none =>
      have grown : size (operation :: xs) = size xs + 1 := by simp [size, known]
      rw [List.cons_append, labelsFrom_code known, labelsFrom_code known, ih, grown]
      congr 2
      omega

theorem labelsFrom_names (address : Nat) (operations : List Operation) :
    (labelsFrom address operations).map Prod.fst = operations.filterMap Operation.label? := by
  induction operations generalizing address with
  | nil => rfl
  | cons operation operations ih => cases operation <;> simp [labelsFrom, List.filterMap_cons, Operation.label?, ih]

/-- A label lies between the first address and the end. -/
theorem labelsFrom_range {address : Nat} {operations : List Operation} {binding : Text × Nat}
    (member : binding ∈ labelsFrom address operations) :
    address ≤ binding.2 ∧ binding.2 ≤ address + size operations := by
  induction operations generalizing address with
  | nil => cases member
  | cons operation operations ih =>
    cases known : operation.label? with
    | some symbol =>
      cases operation <;> cases known
      have same : size (.label symbol :: operations) = size operations := by simp [size, Operation.label?]
      rcases List.mem_cons.mp member with rfl | later
      · exact ⟨Nat.le_refl _, Nat.le_add_right _ _⟩
      · rw [same]
        exact ih later
    | none =>
      have grown : size (operation :: operations) = size operations + 1 := by simp [size, known]
      rw [labelsFrom_code known] at member
      have range := ih member
      omega

/-! ### Reading -/

theorem instruction?_line {content : Text} {line : Nat} {i : Instruction} (read : instruction? content line = .ok (some i)) :
    i.line = line := by
  unfold instruction? at read
  split at read
  · cases read
  · split at read
    · obtain rfl := Option.some.inj (Except.ok.inj read)
      rfl
    · cases read

theorem ofLines_cons {content : Text} {line : Nat} {rest : List (Text × Nat)} {found : List Instruction}
    (read : ofLines ((content, line) :: rest) = .ok found) :
    ∃ first later, instruction? content line = .ok first ∧ ofLines rest = .ok later ∧ found = first.toList ++ later := by
  simp only [ofLines] at read
  cases head : instruction? content line with
  | error e => simp [head] at read
  | ok first =>
    cases tail : ofLines rest with
    | error e => simp [head, tail] at read
    | ok later =>
      simp only [head, tail] at read
      exact ⟨first, later, rfl, rfl, (Except.ok.inj read).symm⟩

theorem ofLines_lines {contents : List Text} {n : Nat} {found : List Instruction}
    (read : ofLines (contents.zipIdx n) = .ok found) :
    found.Pairwise (fun i j => i.line < j.line) ∧ ∀ i ∈ found, n ≤ i.line := by
  induction contents generalizing n found with
  | nil =>
    obtain rfl := Except.ok.inj read
    exact ⟨.nil, by simp⟩
  | cons content contents ih =>
    obtain ⟨first, later, head, tail, rfl⟩ := ofLines_cons read
    obtain ⟨increasing, behind⟩ := ih tail
    cases first with
    | none => exact ⟨increasing, fun i member => by have := behind i member; omega⟩
    | some i =>
      have line := instruction?_line head
      refine ⟨List.pairwise_cons.mpr ⟨fun j member => ?_, increasing⟩, fun j member => ?_⟩
      · have := behind j member
        omega
      · rcases List.mem_cons.mp member with rfl | member
        · omega
        · have := behind j member
          omega

/-- Every line has at most one instruction. -/
theorem parse_lines {source : Text} {found : List Instruction} (read : parse source = .ok found) :
    found.Pairwise (fun i j => i.line < j.line) := by
  simp only [parse] at read
  split at read
  · cases read
  · rename_i cut
    split at read
    · cases read
    · obtain rfl := Except.ok.inj read
      exact (ofLines_lines cut).1

/-! ### Labels -/

theorem bindLabels_code {i : Instruction} (code : i.operation.label? = none) (rest : List Instruction)
    (address : Nat) (labels : Bindings Nat) :
    bindLabels (i :: rest) address labels =
      match bindLabels rest (address + 1) labels with
      | .error e => .error e
      | .ok (code, bound) => .ok (i :: code, bound) := by
  obtain ⟨operation, line, text⟩ := i
  cases operation with
  | label symbol => cases code
  | _ => rfl

theorem nodup_concat {α : Type} {bindings : Bindings α} {name : Text} {value : α} (distinct : (bindings.map Prod.fst).Nodup)
    (fresh : bindings.lookup name = none) : ((bindings ++ [(name, value)]).map Prod.fst).Nodup := by
  have new : name ∉ bindings.map Prod.fst := by
    rw [← lookup_isSome, fresh]
    simp
  rw [List.map_append, List.nodup_append]
  refine ⟨distinct, by simp, ?_⟩
  rintro other member _ single rfl
  obtain rfl : other = name := by simpa using single
  exact new member

section Declared

variable {i : Instruction} {symbol : Text} (declares : i.operation = .label symbol) {labels : Bindings Nat}

include declares

theorem bindLabels_again {value : Nat} (used : labels.lookup symbol = some value) (rest : List Instruction) (address : Nat) :
    bindLabels (i :: rest) address labels = .error (.duplicateLabel i.line symbol) := by
  simp [bindLabels, declares, used]

theorem bindLabels_fresh (unused : labels.lookup symbol = none) (rest : List Instruction) (address : Nat) :
    bindLabels (i :: rest) address labels = bindLabels rest address (labels ++ [(symbol, address)]) := by
  simp [bindLabels, declares, unused]

end Declared

/-- Without a duplicate, labels are bound in order and the code is what is left. -/
theorem bindLabels_ok (instructions : List Instruction) (address : Nat) (labels : Bindings Nat)
    (distinct : (labels.map Prod.fst ++ instructions.filterMap (·.operation.label?)).Nodup) :
    bindLabels instructions address labels =
      .ok (instructions.filter (·.operation.label?.isNone),
        labels ++ labelsFrom address (instructions.map (·.operation))) := by
  induction instructions generalizing address labels with
  | nil => simp [bindLabels, labelsFrom]
  | cons i rest ih =>
    cases known : i.operation.label? with
    | some symbol =>
      have declares := Operation.label?_eq_some.mp known
      simp only [List.filterMap_cons, known] at distinct
      have unused : labels.lookup symbol = none := by
        apply Option.not_isSome_iff_eq_none.mp
        rw [lookup_isSome]
        intro used
        exact (List.nodup_append.mp distinct).2.2 symbol used symbol (List.mem_cons_self ..) rfl
      rw [bindLabels_fresh declares unused, ih address _ (by simpa using distinct)]
      simp [labelsFrom, declares, Operation.label?]
    | none =>
      simp only [List.filterMap_cons, known] at distinct
      rw [bindLabels_code known, ih (address + 1) labels distinct, List.map_cons, labelsFrom_code known]
      simp [known]

/-- Otherwise loading fails, and says so. -/
theorem bindLabels_duplicate (instructions : List Instruction) (address : Nat) (labels : Bindings Nat)
    (distinct : (labels.map Prod.fst).Nodup)
    (repeated : ¬ (labels.map Prod.fst ++ instructions.filterMap (·.operation.label?)).Nodup) :
    ∃ line symbol, bindLabels instructions address labels = .error (.duplicateLabel line symbol) := by
  induction instructions generalizing address labels with
  | nil => exact absurd (by simpa using distinct) repeated
  | cons i rest ih =>
    cases known : i.operation.label? with
    | some symbol =>
      have declares := Operation.label?_eq_some.mp known
      simp only [List.filterMap_cons, known] at repeated
      cases found : labels.lookup symbol with
      | some value => exact ⟨i.line, symbol, bindLabels_again declares found rest address⟩
      | none =>
        rw [bindLabels_fresh declares found]
        exact ih address _ (nodup_concat distinct found) (by simpa using repeated)
    | none =>
      simp only [List.filterMap_cons, known] at repeated
      obtain ⟨line, symbol, failed⟩ := ih (address + 1) labels distinct repeated
      exact ⟨line, symbol, by rw [bindLabels_code known, failed]⟩

/-! ### Variables -/

theorem lookup_grows {front all : Bindings Nat} {symbol : Text} {value : Nat} (longer : front <+: all)
    (found : front.lookup symbol = some value) : all.lookup symbol = some value := by
  obtain ⟨rest, rfl⟩ := longer
  rw [List.lookup_append, found]
  rfl

/-- The value a symbol is given stays its value however many variables follow. -/
theorem resolve_spec (labels storage : Bindings Nat) (symbol : Text) :
    storage <+: (resolve labels storage symbol).2 ∧
      ∀ all, (resolve labels storage symbol).2 <+: all →
        addressOf labels all symbol = (resolve labels storage symbol).1 := by
  unfold resolve addressOf
  cases bound : labels.lookup symbol with
  | some value => exact ⟨List.prefix_refl _, fun all _ => rfl⟩
  | none =>
    cases known : predefined.lookup symbol with
    | some value => exact ⟨List.prefix_refl _, fun all _ => rfl⟩
    | none =>
      cases stored : storage.lookup symbol with
      | some value =>
        refine ⟨List.prefix_refl _, fun all longer => ?_⟩
        simp [lookup_grows longer stored]
      | none =>
        refine ⟨List.prefix_append _ _, fun all longer => ?_⟩
        have added : (storage ++ [(symbol, variableBase + storage.length)]).lookup symbol =
            some (variableBase + storage.length) := by
          rw [List.lookup_append, stored]
          simp
        simp [lookup_grows longer added]

theorem bindVariables_grows (labels : Bindings Nat) (instructions : List Instruction) (storage : Bindings Nat) :
    storage <+: (bindVariables labels instructions storage).2 := by
  induction instructions generalizing storage with
  | nil => exact List.prefix_refl _
  | cons i rest ih =>
    obtain ⟨operation, line, text⟩ := i
    cases operation with
    | address symbol n =>
      simp only [bindVariables]
      split
      · exact ih storage
      · exact (resolve_spec labels storage symbol).1.trans (ih _)
    | _ => exact ih storage

/-- Every symbolic operand gets the value of its symbol under the final bindings, and nothing else changes. -/
theorem bindVariables_code (labels : Bindings Nat) (instructions : List Instruction) (storage : Bindings Nat) :
    (bindVariables labels instructions storage).1 = instructions.map fun i =>
      { i with operation := i.operation.bind (addressOf labels (bindVariables labels instructions storage).2) } := by
  induction instructions generalizing storage with
  | nil => rfl
  | cons i rest ih =>
    obtain ⟨operation, line, text⟩ := i
    cases operation with
    | address symbol n =>
      simp only [bindVariables]
      split
      · rename_i number
        simp [ih, Operation.bind, number]
      · rename_i symbolic
        have value := (resolve_spec labels storage symbol).2 _ (bindVariables_grows labels rest _)
        simp [ih, Operation.bind, symbolic, value]
    | _ => simp [bindVariables, ih, Operation.bind]

theorem eraseDups_concat (used : List Text) (symbol : Text) :
    (used ++ [symbol]).eraseDups = if symbol ∈ used then used.eraseDups else used.eraseDups ++ [symbol] := by
  rw [List.eraseDups_append]
  by_cases member : symbol ∈ used
  · simp [List.removeAll, member]
  · simp [List.removeAll, member, List.eraseDups_cons]

theorem not_known_iff {labels : Bindings Nat} {symbol : Text} :
    ¬ Known (labels.map Prod.fst) symbol ↔
      Text.toInt? symbol = none ∧ labels.lookup symbol = none ∧ predefined.lookup symbol = none := by
  rw [Known, ← @lookup_isSome _ _ _ _ labels]
  simp only [not_or, Option.not_isSome_iff_eq_none]

/-- A symbol that is no number lacks an address exactly if it can only be a variable and is none yet. -/
theorem unbound_iff {labels storage : Bindings Nat} {symbol : Text} (symbolic : Text.toInt? symbol = none) :
    (labels.lookup symbol <|> predefined.lookup symbol <|> storage.lookup symbol) = none ↔
      ¬ Known (labels.map Prod.fst) symbol ∧ symbol ∉ storage.map Prod.fst := by
  rw [not_known_iff, ← @lookup_isSome _ _ _ _ storage, Option.not_isSome_iff_eq_none]
  generalize storage.lookup symbol = stored
  cases labels.lookup symbol <;> cases predefined.lookup symbol <;> simp [symbolic]

theorem resolve_storage {labels : Bindings Nat} {symbol : Text} (symbolic : Text.toInt? symbol = none) (used : List Text) :
    (resolve labels (used.eraseDups.zipIdx variableBase) symbol).2 =
      (used ++ if Known (labels.map Prod.fst) symbol then [] else [symbol]).eraseDups.zipIdx variableBase := by
  have unbound := @unbound_iff labels (used.eraseDups.zipIdx variableBase) symbol symbolic
  rw [List.zipIdx_map_fst, List.mem_eraseDups] at unbound
  unfold resolve
  split
  · rename_i address bound
    rw [bound] at unbound
    by_cases known : Known (labels.map Prod.fst) symbol
    · rw [if_pos known, List.append_nil]
    · have member : symbol ∈ used := by
        apply Decidable.byContradiction
        intro fresh
        cases unbound.mpr ⟨known, fresh⟩
      rw [if_neg known, eraseDups_concat, if_pos member]
  · rename_i missing
    obtain ⟨unknown, fresh⟩ := unbound.mp missing
    rw [if_neg unknown, eraseDups_concat, if_neg fresh, List.zipIdx_append, List.length_zipIdx]
    rfl

/-- Variables are counted up in the order of their first use, behind those of the instructions before. -/
theorem bindVariables_storage (labels : Bindings Nat) (instructions : List Instruction) (used : List Text) :
    (bindVariables labels instructions (used.eraseDups.zipIdx variableBase)).2 =
      (used ++ remaining (labels.map Prod.fst) instructions).eraseDups.zipIdx variableBase := by
  induction instructions generalizing used with
  | nil => simp [bindVariables, remaining]
  | cons i rest ih =>
    obtain ⟨operation, line, text⟩ := i
    cases operation with
    | address symbol n =>
      have first : remaining (labels.map Prod.fst) (⟨.address symbol n, line, text⟩ :: rest) =
          (if Known (labels.map Prod.fst) symbol then [] else [symbol]) ++ remaining (labels.map Prod.fst) rest := by
        by_cases known : Known (labels.map Prod.fst) symbol <;> simp [remaining, Operation.operand?, known]
      simp only [bindVariables]
      split
      · rename_i number
        have known : Known (labels.map Prod.fst) symbol := .inl number
        rw [first, if_pos known, List.nil_append]
        exact ih used
      · rename_i symbolic
        rw [first, resolve_storage (Option.not_isSome_iff_eq_none.mp symbolic), ih, List.append_assoc]
    | _ => exact ih used

end Assembly

namespace Program

open Assembly

def address (p : Program) (symbol : Text) : Nat := addressOf p.labels p.storage symbol

/-- How a program follows from the operations it was loaded from. -/
structure LoadedFrom (p : Program) (operations : List Operation) : Prop where
  code : p.code.map (·.operation) = (operations.filter (·.label?.isNone)).map (Operation.bind p.address)
  labels : p.labels = labelsFrom 0 operations
  distinct : (operations.filterMap Operation.label?).Nodup

/-- The program that instructions make whose labels are distinct. -/
def layOut (instructions : List Instruction) : Program :=
  let labels := labelsFrom 0 (instructions.map (·.operation))
  let bound := bindVariables labels (instructions.filter (·.operation.label?.isNone)) []
  { code := bound.1, labels, storage := bound.2 }

theorem ofInstructions_iff {instructions : List Instruction} {p : Program} :
    ofInstructions instructions = .ok p ↔
      (instructions.filterMap (·.operation.label?)).Nodup ∧ p = layOut instructions := by
  unfold ofInstructions
  by_cases distinct : (instructions.filterMap (·.operation.label?)).Nodup
  · rw [bindLabels_ok instructions 0 [] (by simpa using distinct)]
    simp only [distinct, true_and, Except.ok.injEq]
    exact eq_comm
  · obtain ⟨line, symbol, failed⟩ := bindLabels_duplicate instructions 0 [] (by simp) (by simpa using distinct)
    simp [failed, distinct]

theorem layOut_code (instructions : List Instruction) :
    (layOut instructions).code = (instructions.filter (·.operation.label?.isNone)).map fun i =>
      { i with operation := i.operation.bind (layOut instructions).address } :=
  bindVariables_code _ _ _

theorem layOut_names (instructions : List Instruction) :
    (layOut instructions).labels.map Prod.fst = instructions.filterMap (·.operation.label?) := by
  rw [layOut, labelsFrom_names, List.filterMap_map]
  rfl

theorem remaining_code (labels : List Text) (instructions : List Instruction) :
    remaining labels (instructions.filter (·.operation.label?.isNone)) = remaining labels instructions := by
  rw [remaining, List.filterMap_filter, remaining]
  congr 2
  funext i
  cases label : i.operation.label? with
  | none => rfl
  | some name =>
    rw [Operation.label?_eq_some.mp label]
    rfl

theorem layOut_variables (instructions : List Instruction) :
    (layOut instructions).storage = (remaining (instructions.filterMap (·.operation.label?)) instructions).eraseDups.zipIdx 16 := by
  have counted := bindVariables_storage (layOut instructions).labels (instructions.filter (·.operation.label?.isNone)) []
  rw [layOut_names, remaining_code] at counted
  exact counted

/-- The variables of a program are the symbols it loads that cannot be anything else. -/
theorem layOut_storage {instructions : List Instruction} {name : Text} :
    name ∈ (layOut instructions).storage.map Prod.fst ↔
      (∃ i ∈ instructions, ∃ value, i.operation = .address name value) ∧
        ¬ Known (instructions.filterMap (·.operation.label?)) name := by
  rw [layOut_variables, List.zipIdx_map_fst, List.mem_eraseDups, remaining, List.mem_filter, List.mem_filterMap]
  simp only [Operation.operand?_eq_some, decide_eq_true_eq]

theorem ofInstructions_ok {instructions : List Instruction} {p : Program}
    (loaded : ofInstructions instructions = .ok p) : p.LoadedFrom (instructions.map (·.operation)) := by
  obtain ⟨distinct, rfl⟩ := ofInstructions_iff.mp loaded
  refine ⟨?_, rfl, ?_⟩
  · rw [layOut_code, List.map_map, List.filter_map, List.map_map]
    rfl
  · rwa [List.filterMap_map]

theorem load_of_parse {source : Text} {instructions : List Instruction} (parsed : parse source = .ok instructions) :
    load source = ofInstructions instructions := by
  delta load
  rw [parsed]

theorem load_layOut {source : Text} {p : Program} (loaded : load source = .ok p) :
    ∃ instructions, parse source = .ok instructions ∧
      (instructions.filterMap (·.operation.label?)).Nodup ∧ p = layOut instructions := by
  cases parsed : parse source with
  | error e =>
    delta load at loaded
    rw [parsed] at loaded
    cases loaded
  | ok instructions =>
    rw [load_of_parse parsed] at loaded
    exact ⟨instructions, rfl, ofInstructions_iff.mp loaded⟩

theorem load_ok {source : Text} {instructions : List Instruction} {p : Program}
    (parsed : parse source = .ok instructions) (loaded : load source = .ok p) :
    p.LoadedFrom (instructions.map (·.operation)) :=
  ofInstructions_ok ((load_of_parse parsed).symm.trans loaded)

/-- A text that reads as operations without duplicate labels is loaded. -/
theorem load_of_read {source : Text} {operations : List Operation}
    (read : (parse source).toOption.map (·.map (·.operation)) = some operations)
    (distinct : (operations.filterMap Operation.label?).Nodup) :
    ∃ instructions p, parse source = .ok instructions ∧ load source = .ok p ∧ instructions.map (·.operation) = operations := by
  cases parsed : parse source with
  | error e =>
    rw [parsed] at read
    cases read
  | ok instructions =>
    rw [parsed] at read
    have same : instructions.map (·.operation) = operations := Option.some.inj read
    rw [← same, List.filterMap_map] at distinct
    refine ⟨instructions, layOut instructions, rfl, ?_, same⟩
    rw [load_of_parse parsed]
    exact ofInstructions_iff.mpr ⟨distinct, rfl⟩

/-- Loading fails on a duplicate label exactly when there is one. -/
theorem ofInstructions_duplicate {instructions : List Instruction} :
    (∃ line symbol, ofInstructions instructions = .error (.duplicateLabel line symbol)) ↔
      ¬ (instructions.filterMap (·.operation.label?)).Nodup := by
  unfold ofInstructions
  constructor
  · rintro ⟨line, symbol, failed⟩ distinct
    rw [bindLabels_ok instructions 0 [] (by simpa using distinct)] at failed
    cases failed
  · intro repeated
    obtain ⟨line, symbol, failed⟩ := bindLabels_duplicate instructions 0 [] (by simp) (by simpa using repeated)
    exact ⟨line, symbol, by rw [failed]⟩

namespace LoadedFrom

variable {p : Program} {operations : List Operation} (loaded : p.LoadedFrom operations)

include loaded

theorem length : p.code.length = size operations := by
  have same := congrArg List.length loaded.code
  simpa [size] using same

/-- A label stands for the number of instructions in front of it. -/
theorem lookup_label {front back : List Operation} {symbol : Text}
    (split : operations = front ++ .label symbol :: back) : p.labels.lookup symbol = some (size front) := by
  have distinct := loaded.distinct
  subst split
  rw [loaded.labels, labelsFrom_append, List.lookup_append, labelsFrom, List.lookup_cons_self]
  have fresh : (labelsFrom 0 front).lookup symbol = none := by
    apply Option.not_isSome_iff_eq_none.mp
    rw [lookup_isSome, labelsFrom_names]
    intro used
    rw [List.filterMap_append, List.nodup_append] at distinct
    exact distinct.2.2 symbol used symbol (by simp [Operation.label?]) rfl
  simp [fresh]

theorem lookup_le {symbol : Text} {value : Nat} (known : p.labels.lookup symbol = some value) : value ≤ p.code.length := by
  have range := labelsFrom_range (loaded.labels ▸ mem_of_lookup known)
  rw [loaded.length]
  simpa using range.2

end LoadedFrom

theorem address_label {p : Program} {symbol : Text} {value : Nat} (known : p.labels.lookup symbol = some value) :
    p.address symbol = value := by
  simp [address, addressOf, known]

theorem address_predefined {p : Program} {symbol : Text} {value : Nat} (free : p.labels.lookup symbol = none)
    (known : predefined.lookup symbol = some value) : p.address symbol = value := by
  simp [address, addressOf, free, known]

end Program

end HackToolchain
