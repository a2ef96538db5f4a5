import HackToolchain.Proofs.Command.Reader
import HackToolchain.Proofs.Emission.Assembly
import HackToolchain.Proofs.Emission.Templates

/-!
The layout of a loaded program. The code of readable commands is read back line by line, so that
every line of it stands in the loaded program at the number of instructions in front of it.
-/

namespace HackToolchain.Emission

namespace Line

theorem sound_address {symbol : Text} (clean : Text.Clean symbol) : (address symbol).Sound :=
  @Text.clean_separators [64] symbol (by decide) clean

theorem sound_label {symbol : Text} (clean : Text.Clean symbol) : (label symbol).Sound := by
  have closed : Text.Clean (symbol ++ [41]) := Text.clean_append clean (Text.clean_literal (by decide)) (by decide)
  exact @Text.clean_separators [40] (symbol ++ [41]) (by decide) closed

theorem sound_compute (dest : List Register) (c : Computation) (jump : Option Jump) : (compute dest c jump).Sound := by
  have front : (destination dest).all Text.isSeparator = true := by
    have letters : ∀ r : Register, Text.isSeparator r.letter = true := by
      intro r
      cases r <;> decide
    unfold destination
    split
    · rfl
    · simp only [List.all_append, List.all_map, Bool.and_eq_true]
      exact ⟨List.all_eq_true.mpr fun r _ => letters r, by decide⟩
  have middle : c.render.all Text.isSeparator = true := by
    obtain ⟨f, memory⟩ := c
    cases f <;> cases memory <;> decide
  have last : (condition jump).all Text.isSeparator = true := by
    cases jump with
    | none => rfl
    | some j => cases j <;> decide
  exact Text.clean_literal (by simp [render, front, middle, last])

theorem legible_address {symbol : Text} (clean : Text.Clean symbol) : (address symbol).Sound ∧ (address symbol).Named :=
  ⟨sound_address clean, trivial⟩

theorem legible_label {symbol : Text} (token : Text.IsToken symbol) : (label symbol).Sound ∧ (label symbol).Named :=
  ⟨sound_label token.toClean, token.nonempty⟩

end Line

/-- Lines that are read back as they were written, labels included. -/
def Legible (lines : List Line) : Prop := ∀ l ∈ lines, l.Sound ∧ l.Named

theorem clean_ofInt (n : Int) : Text.Clean (Text.ofInt n) := Text.clean_literal (Text.ofInt_separators n)

theorem fitsWord_argumentOffset (arguments : Int) : Text.fitsWord (argumentOffset arguments) = true := by
  have below := @Int.bmod_lt (arguments + frameSize) 0x10000000000000000 (by decide)
  have above := @Int.le_bmod (arguments + frameSize) 0x10000000000000000 (by decide)
  simp only [Text.fitsWord, Bool.and_eq_true, decide_eq_true_eq]
  unfold Text.leastWord argumentOffset
  omega

theorem fitsWord_range {n : Int} (low : 0 ≤ n) (high : n ≤ 32767) : Text.fitsWord n = true := by
  simp only [Text.fitsWord, Bool.and_eq_true, decide_eq_true_eq]
  unfold Text.leastWord
  omega

theorem clean_pointers : ∀ symbol ∈ pointers, Text.Clean symbol := by
  have plain : ∀ symbol ∈ pointers, symbol.all Text.isSeparator = true := by decide
  exact fun symbol member => Text.clean_literal (plain symbol member)

theorem routine_legible : Routine fun l => l.Sound ∧ l.Named where
  compute := ⟨Line.sound_compute _ _ _, trivial⟩
  pointer member := Line.legible_address (clean_pointers _ member)
  number _ _ := Line.legible_address (clean_ofInt _)

theorem token_numbered {stem : Text} (n : Nat) (plain : stem.all Text.isSeparator = true) :
    Text.IsToken (stem ++ Text.ofNat n) where
  toClean := Text.clean_separators plain (Text.clean_literal (Text.ofNat_separators n))
  nonempty := by simp [Text.ofNat_ne_nil]

theorem token_compareLabels (n : Nat) :
    Text.IsToken (Session.compareLabels n).1 ∧ Text.IsToken (Session.compareLabels n).2 :=
  ⟨token_numbered n (by decide), token_numbered n (by decide)⟩

theorem token_returnLabel {callee : Text} (clean : Text.Clean callee) (n : Nat) :
    Text.IsToken (Session.returnLabel callee n) := by
  have number : Text.IsToken (Text.ofString "$ret." ++ Text.ofNat n) := token_numbered n (by decide)
  rw [Session.returnLabel, List.append_assoc]
  exact ⟨Text.clean_append clean number.toClean rfl, by simp [number.nonempty]⟩

theorem token_qualify {n : Naming} {name : Text} (scope : Text.Clean n.function) (token : Text.IsToken name) :
    Text.IsToken (n.qualify name) := by
  unfold Naming.qualify
  split
  · exact token
  · have dollar : Text.Clean (Text.ofString "$" ++ name) := Text.clean_separators (by decide) token.toClean
    rw [List.append_assoc]
    exact ⟨Text.clean_append scope dollar rfl, by simp [token.nonempty]⟩

theorem token_entryPoint {entryPoint : Text} (stackBase : Int) (device : Option Device) (clean : Text.Clean entryPoint) :
    Text.IsToken (Session.start stackBase entryPoint device).entryPoint := by
  show Text.IsToken (if entryPoint = [] then Session.defaultEntryPoint else entryPoint)
  split
  · exact ⟨Text.clean_literal (by decide), by decide⟩
  · rename_i nonempty
    exact ⟨clean, nonempty⟩

/-! ### Whole programs -/

theorem own_legible {n : Naming} {c : Command} (wellFormed : c.WellFormed) (scope : Text.Clean n.function) :
    Legible (n.own c) := by
  unfold Legible
  cases c with
  | arithmetic operation =>
    obtain ⟨isTrue, isEnd⟩ := token_compareLabels n.labels
    rw [Naming.own]
    split
    · simp [Line.legible_address isTrue.toClean, Line.legible_address isEnd.toClean, Line.legible_label isTrue,
        Line.legible_label isEnd]
    · simp
  | push segment index => simpa [Naming.own, Line.number] using Line.legible_address (clean_ofInt index)
  | pop segment index => simpa [Naming.own, Line.number] using Line.legible_address (clean_ofInt index)
  | label name => simpa [Naming.own] using Line.legible_label (token_qualify scope (wellFormed.token name rfl))
  | goto name => simpa [Naming.own] using Line.legible_address (token_qualify scope (wellFormed.token name rfl)).toClean
  | ifGoto name => simpa [Naming.own] using Line.legible_address (token_qualify scope (wellFormed.token name rfl)).toClean
  | function name locals => simpa [Naming.own] using Line.legible_label (wellFormed.token name rfl)
  | call name arguments =>
    have clean := (wellFormed.token name rfl).toClean
    have back := token_returnLabel clean n.calls
    have offset : (Line.number (argumentOffset arguments)).Sound ∧ (Line.number (argumentOffset arguments)).Named :=
      Line.legible_address (clean_ofInt _)
    simp [Naming.own, offset, Line.legible_address clean, Line.legible_address back.toClean, Line.legible_label back]
  | ret => simp [Naming.own]

theorem code_legible {n : Naming} {c : Command} {code : List Line} (wellFormed : c.WellFormed)
    (scope : Text.Clean n.function) (coded : n.code c = .ok code) : Legible code :=
  (routine_legible.code coded).mpr (own_legible wellFormed scope)

theorem render_no_newline {c : Command} (wellFormed : c.WellFormed) : Text.newline ∉ c.render := by
  have token : ∀ {name}, c.operand? = some name → Text.newline ∉ name := fun known =>
    (Text.clean_no_break (wellFormed.token _ known).toClean).1
  have number : ∀ n : Int, Text.newline ∉ Text.ofInt n := fun n => (Text.clean_no_break (clean_ofInt n)).1
  have words : ∀ word ∈ (["push ", "pop ", "label ", "goto ", "if-goto ", "function ", "call ", "return", " "] : List Text),
      Text.newline ∉ word := by decide
  cases c with
  | ret => exact words "return" (by decide)
  | _ => simp (disch := decide) [Command.render, token rfl, number, words]

theorem after_clean {n : Naming} {c : Command} (wellFormed : c.WellFormed) (scope : Text.Clean n.function) :
    Text.Clean (n.after c).function := by
  cases c with
  | arithmetic operation =>
    simp only [Naming.after]
    split <;> exact scope
  | function name locals => exact (wellFormed.token name rfl).toClean
  | _ => exact scope

theorem program_legible {n : Naming} {cs : List Command} {lines : List Line} (wellFormed : ∀ c ∈ cs, c.WellFormed)
    (scope : Text.Clean n.function) (coded : n.program cs = .ok lines) : Legible lines := by
  induction cs generalizing n lines with
  | nil =>
    obtain rfl := Except.ok.inj coded
    exact List.forall_mem_nil _
  | cons c cs ih =>
    obtain ⟨code, later, first, rest, rfl⟩ := Naming.program_cons.mp coded
    have head := wellFormed c (List.mem_cons_self ..)
    have comment : (Line.comment c.render).Sound ∧ (Line.comment c.render).Named := ⟨render_no_newline head, trivial⟩
    have front : Legible (.comment c.render :: code) := List.forall_mem_cons.mpr ⟨comment, code_legible head scope first⟩
    have back := ih (fun d member => wellFormed d (List.mem_cons_of_mem _ member)) (after_clean head scope) rest
    exact List.forall_mem_append.mpr ⟨front, back⟩

theorem bootstrap_legible (stackBase : Int) {entryPoint : Text} (token : Text.IsToken entryPoint) :
    Legible (bootstrapLines stackBase entryPoint) := by
  have call : (Command.call entryPoint 0).WellFormed := by
    constructor
    · rintro name ⟨⟩
      exact token
    · rintro n ⟨⟩
      decide
  apply (routine_legible.bootstrap stackBase entryPoint).mpr
  refine ⟨⟨⟨?_, trivial⟩, Line.legible_address (clean_ofInt stackBase)⟩, ⟨render_no_newline call, trivial⟩, own_legible call Text.clean_nil⟩
  show Text.newline ∉ Text.ofString "bootstrap"
  decide

/-! ### Addresses -/

/-- Lines stand in a memory of instructions from an address on, under given values of symbols. -/
def Stands (rom : Array Instruction) (value : Text → Int) (start : Nat) (lines : List Line) : Prop :=
  lines.filterMap (Line.loaded? value) <+: (rom.toList.map (·.operation)).drop start

theorem length_loaded (value : Text → Int) (lines : List Line) :
    (lines.filterMap (Line.loaded? value)).length = codeSize lines := by
  rw [List.length_filterMap_eq_countP, codeSize]
  refine List.countP_congr fun line _ => ?_
  cases line <;> simp [Line.loaded?, Line.isCode]

theorem stands_append {rom : Array Instruction} {value : Text → Int} {start : Nat} {xs ys : List Line} :
    Stands rom value start (xs ++ ys) ↔ Stands rom value start xs ∧ Stands rom value (start + codeSize xs) ys := by
  unfold Stands
  rw [List.filterMap_append, ← List.drop_drop, ← length_loaded value xs]
  constructor
  · rintro ⟨rest, split⟩
    rw [← split, List.append_assoc, List.drop_left]
    exact ⟨List.prefix_append _ _, List.prefix_append _ _⟩
  · rintro ⟨⟨rest, split⟩, later⟩
    rw [← split, List.drop_left] at later
    rw [← split]
    exact (List.prefix_append_right_inj _).mpr later

variable {p : Program} {before after : List Operation} {block : List Line}

/-- A block of lines stands where the instructions in front of it end. -/
theorem stands_block (loaded : p.LoadedFrom (before ++ operations block ++ after)) (named : ∀ l ∈ block, l.Named) :
    Stands p.code.toArray p.value (Assembly.size before) block := by
  have code := loaded.code
  rw [List.filter_append, List.filter_append, List.map_append, List.map_append, loaded_operations named p] at code
  have skipped : ((before.filter (·.label?.isNone)).map (Operation.bind p.address)).length = Assembly.size before := by
    simp [Assembly.size]
  unfold Stands
  rw [code, List.append_assoc, ← skipped, List.drop_left]
  exact List.prefix_append _ _

/-- A label in a block stands for the number of instructions in front of it. -/
theorem lookup_block {front back : List Line} {symbol : Text}
    (loaded : p.LoadedFrom (before ++ operations block ++ after)) (named : ∀ l ∈ block, l.Named)
    (split : block = front ++ .label symbol :: back) :
    p.labels.lookup symbol = some (Assembly.size before + codeSize front) := by
  subst split
  have front_named : ∀ l ∈ front, l.Named := fun l member => named l (List.mem_append_left _ member)
  have shape : before ++ operations (front ++ .label symbol :: back) ++ after =
      (before ++ operations front) ++ .label symbol :: (operations back ++ after) := by
    have label := Line.operation?_label (named (.label symbol) (by simp))
    simp [operations, label]
  rw [loaded.lookup_label shape, Assembly.size_append, size_operations front_named]

/-- No label stands inside a block that declares none. -/
theorem lookup_outside {symbol : Text} {value : Nat} (loaded : p.LoadedFrom (before ++ operations block ++ after))
    (named : ∀ l ∈ block, l.Named) (plain : declared block = []) (known : p.labels.lookup symbol = some value) :
    value ≤ Assembly.size before ∨ Assembly.size before + codeSize block ≤ value := by
  have member := mem_of_lookup known
  have silent : Assembly.labelsFrom (0 + Assembly.size before) (operations block) = [] := by
    apply List.map_eq_nil_iff.mp
    rw [Assembly.labelsFrom_names, declared_operations named, plain]
  rw [loaded.labels, Assembly.labelsFrom_append, Assembly.labelsFrom_append, silent, List.append_nil] at member
  rcases List.mem_append.mp member with early | late
  · have range := Assembly.labelsFrom_range early
    simp only at range
    omega
  · have range := Assembly.labelsFrom_range late
    rw [Assembly.size_append, size_operations named] at range
    simp only at range
    omega

end HackToolchain.Emission
