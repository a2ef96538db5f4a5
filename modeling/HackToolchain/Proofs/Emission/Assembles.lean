import HackToolchain.Proofs.Emission.Layout

/-!
Which generated programs assemble. A generated line is read as what it was written for unless it is too long or
loads a number out of range; and where such numbers come from is seen from the commands.
-/

namespace HackToolchain

/-- No number that an address instruction cannot load. -/
def Addressable (symbol : Text) : Prop := ∀ n ∈ Text.toInt? symbol, 0 ≤ n ∧ n ≤ 32767

instance (symbol : Text) : Decidable (Addressable symbol) :=
  inferInstanceAs (Decidable (∀ n ∈ Text.toInt? symbol, 0 ≤ n ∧ n ≤ 32767))

namespace Command

/-- The number of a command can be loaded, and so can the address of a callee. -/
def Loadable : Command → Prop
  | .push _ index | .pop _ index => index ≤ 32767
  | .call callee arguments => arguments ≤ 32762 ∧ Addressable callee
  | _ => True

def target? : Command → Option Text
  | .goto name | .ifGoto name => some name
  | _ => none

end Command

/-- The commands in front of the first function. -/
def preamble (cs : List Command) : List Command := cs.takeWhile (·.kind ≠ .function)

namespace Emission

open Session

/-- Lines that are read, if they are not too long. -/
def Acceptable (lines : List Line) : Prop := ∀ l ∈ lines, l.Accepted

theorem acceptable_append {xs ys : List Line} : Acceptable (xs ++ ys) ↔ Acceptable xs ∧ Acceptable ys :=
  List.forall_mem_append

theorem accepted_label {symbol : Text} (nonempty : symbol ≠ []) : (Line.label symbol).Accepted := by
  simp [Line.Accepted, nonempty]

theorem accepted_address {symbol : Text} (nonempty : symbol ≠ []) : (Line.address symbol).Accepted ↔ Addressable symbol := by
  simp [Line.Accepted, Line.InRange, Addressable, Operation.isLiteral_iff, nonempty]

def IsName (symbol : Text) : Prop := symbol ≠ [] ∧ Text.toInt? symbol = none

theorem accepted_name {symbol : Text} (name : IsName symbol) : (Line.address symbol).Accepted := by
  simp [accepted_address name.1, Addressable, name.2]

theorem accepted_number {n : Int} (fits : Text.fitsWord n = true) : (Line.number n).Accepted ↔ 0 ≤ n ∧ n ≤ 32767 := by
  have nonempty : Text.ofInt n ≠ [] := by
    intro empty
    have read := Text.toInt?_ofInt fits
    rw [empty] at read
    cases read
  rw [Line.number, accepted_address nonempty, Addressable, Text.toInt?_ofInt fits]
  simp

theorem accepted_range {n : Int} (low : 0 ≤ n) (high : n ≤ 32767) : (Line.number n).Accepted :=
  (accepted_number (fitsWord_range low high)).mpr ⟨low, high⟩

theorem name_pointers : ∀ symbol ∈ pointers, IsName symbol := by
  unfold IsName
  decide

theorem routine_acceptable : Routine Line.Accepted where
  compute := trivial
  pointer member := accepted_name (name_pointers _ member)
  number low high := accepted_range low (Int.le_trans high (by decide))

theorem name_returnLabel (callee : Text) (n : Nat) : IsName (returnLabel callee n) :=
  ⟨List.ne_nil_of_mem (dollar_mem_returnLabel callee n), symbolic_returnLabel callee n⟩

theorem name_compareLabels (n : Nat) : IsName (compareLabels n).1 ∧ IsName (compareLabels n).2 := by
  obtain ⟨first, second⟩ := letter_mem_compareLabels n
  obtain ⟨symbolicFirst, symbolicSecond⟩ := symbolic_compareLabels n
  exact ⟨⟨List.ne_nil_of_mem first, symbolicFirst⟩, List.ne_nil_of_mem second, symbolicSecond⟩

/-- The distance wraps to a negative number if it does not fit. -/
theorem argumentOffset_range {n : Int} (nonneg : 0 ≤ n) (fits : Text.fitsWord n = true) :
    0 ≤ argumentOffset n ∧ argumentOffset n ≤ 32767 ↔ n ≤ 32762 := by
  simp only [Text.fitsWord, Bool.and_eq_true, decide_eq_true_eq] at fits
  unfold argumentOffset frameSize
  rw [Int.bmod_def]
  split <;> omega

/-! ### Whole programs -/

theorem addressable_qualify {n : Naming} {name : Text} : Addressable (n.qualify name) ↔ (n.function = [] → Addressable name) := by
  unfold Naming.qualify
  split
  · rename_i unscoped
    simp [unscoped]
  · rename_i inside
    have dollar : (36 : UInt8) ∈ n.function ++ Text.ofString "$" ++ name :=
      List.mem_append_left _ (List.mem_append_right _ (by decide))
    rw [Addressable, Text.toInt?_eq_none dollar (by decide) (by decide)]
    simp [inside]

theorem own_acceptable {n : Naming} {c : Command} (wellFormed : c.WellFormed) (scope : Text.Clean n.function) :
    Acceptable (n.own c) ↔ c.Loadable ∧ (n.function = [] → ∀ name ∈ c.target?, Addressable name) := by
  have jump {name : Text} (token : Text.IsToken name) :
      (Line.address (n.qualify name)).Accepted ↔ (n.function = [] → Addressable name) :=
    (accepted_address (token_qualify scope token).nonempty).trans addressable_qualify
  unfold Acceptable
  cases c with
  | arithmetic operation =>
    obtain ⟨isTrue, isEnd⟩ := name_compareLabels n.labels
    refine iff_of_true ?_ ⟨trivial, fun _ _ none => by cases none⟩
    rw [Naming.own]
    split
    · simp [accepted_name isTrue, accepted_name isEnd, accepted_label isTrue.1, accepted_label isEnd.1]
    · simp
  | push segment index =>
    obtain ⟨nonneg, fits⟩ := wellFormed.number index rfl
    simp [Naming.own, accepted_number fits, nonneg, Command.Loadable, Command.target?]
  | pop segment index =>
    obtain ⟨nonneg, fits⟩ := wellFormed.number index rfl
    simp [Naming.own, accepted_number fits, nonneg, Command.Loadable, Command.target?]
  | label name =>
    have named := accepted_label (token_qualify scope (wellFormed.token name rfl)).nonempty
    simp [Naming.own, named, Command.Loadable, Command.target?]
  | goto name => simp [Naming.own, jump (wellFormed.token name rfl), Command.Loadable, Command.target?]
  | ifGoto name => simp [Naming.own, jump (wellFormed.token name rfl), Command.Loadable, Command.target?]
  | function name locals =>
    have named := accepted_label (wellFormed.token name rfl).nonempty
    simp [Naming.own, named, Command.Loadable, Command.target?]
  | call name arguments =>
    obtain ⟨nonneg, fits⟩ := wellFormed.number arguments rfl
    have back := name_returnLabel name n.calls
    simp [Naming.own, accepted_name back, accepted_label back.1, accepted_address (wellFormed.token name rfl).nonempty,
      accepted_number (fitsWord_argumentOffset arguments), argumentOffset_range nonneg fits, Command.Loadable,
      Command.target?]
  | ret => simp [Naming.own, Command.Loadable, Command.target?]

/-- A command yields lines that are read exactly if it can be loaded itself and jumps to nothing, in the scope of a function,
or to what can be loaded. -/
theorem code_acceptable {n : Naming} {c : Command} {code : List Line} (wellFormed : c.WellFormed)
    (scope : Text.Clean n.function) (coded : n.code c = .ok code) :
    Acceptable code ↔ c.Loadable ∧ (n.function = [] → ∀ name ∈ c.target?, Addressable name) :=
  (routine_acceptable.code coded).trans (own_acceptable wellFormed scope)

theorem unscoped_after {n : Naming} {c : Command} (wellFormed : c.WellFormed) :
    (n.after c).function = [] ↔ n.function = [] ∧ c.kind ≠ .function := by
  cases c with
  | arithmetic operation =>
    simp only [Naming.after]
    split <;> simp [Command.kind]
  | function name locals => simp [Naming.after, Command.kind, (wellFormed.token name rfl).nonempty]
  | _ => simp [Naming.after, Command.kind]

theorem program_acceptable {n : Naming} {cs : List Command} {lines : List Line} (wellFormed : ∀ c ∈ cs, c.WellFormed)
    (scope : Text.Clean n.function) (coded : n.program cs = .ok lines) :
    Acceptable lines ↔
      (∀ c ∈ cs, c.Loadable) ∧ (n.function = [] → ∀ c ∈ preamble cs, ∀ name ∈ c.target?, Addressable name) := by
  induction cs generalizing n lines with
  | nil =>
    obtain rfl := Except.ok.inj coded
    exact iff_of_true (List.forall_mem_nil _) ⟨by simp, by simp [preamble]⟩
  | cons c cs ih =>
    obtain ⟨code, later, first, rest, rfl⟩ := Naming.program_cons.mp coded
    obtain ⟨head, tail⟩ := List.forall_mem_cons.mp wellFormed
    have block : Acceptable (.comment c.render :: code) ↔ Acceptable code := by
      simp [Acceptable, Line.Accepted]
    rw [acceptable_append, block, code_acceptable head scope first, ih tail (after_clean head scope) rest,
      unscoped_after head, List.forall_mem_cons]
    -- The preamble ends with the first function, which is no jump itself.
    have front : (∀ d ∈ preamble (c :: cs), ∀ name ∈ d.target?, Addressable name) ↔
        (∀ name ∈ c.target?, Addressable name) ∧
          (c.kind ≠ .function → ∀ d ∈ preamble cs, ∀ name ∈ d.target?, Addressable name) := by
      unfold preamble
      rw [List.takeWhile_cons]
      by_cases function : c.kind = .function
      · have none : c.target? = none := by
          cases c <;> first | rfl | cases function
        simp [function, none]
      · simp [function]
    rw [front, imp_and, and_imp, and_and_and_comm]

theorem bootstrap_acceptable {stackBase : Int} {entryPoint : Text} (low : 0 ≤ stackBase) (high : stackBase ≤ 32767)
    (nonempty : entryPoint ≠ []) : Acceptable (bootstrapLines stackBase entryPoint) ↔ Addressable entryPoint := by
  have back := name_returnLabel entryPoint 0
  have comment (text : Text) : (Line.comment text).Accepted := trivial
  have offset : (Line.number (argumentOffset 0)).Accepted := accepted_range (by decide) (by decide)
  rw [Acceptable, routine_acceptable.bootstrap]
  simp [Naming.own, comment, accepted_range low high, offset, accepted_name back, accepted_label back.1,
    accepted_address nonempty]

def opening (bootstrap : Bool) (s : Session) : List Line :=
  if bootstrap then bootstrapLines s.stackBase s.entryPoint else []

theorem addressable_entryPoint (stackBase : Int) (entryPoint : Text) (device : Option Device) :
    Addressable (start stackBase entryPoint device).entryPoint ↔ Addressable entryPoint := by
  show Addressable (if entryPoint = [] then defaultEntryPoint else entryPoint) ↔ _
  split
  · rename_i empty
    rw [empty]
    exact iff_of_true (by decide) (by decide)
  · rfl

theorem opening_spec {bootstrap : Bool} {stackBase : Int} {entryPoint : Text} (device : Option Device)
    (base : bootstrap = true → 0 ≤ stackBase ∧ stackBase ≤ 32767) (clean : bootstrap = true → Text.Clean entryPoint) :
    Legible (opening bootstrap (start stackBase entryPoint device)) ∧
      (Acceptable (opening bootstrap (start stackBase entryPoint device)) ↔ (bootstrap = true → Addressable entryPoint)) := by
  cases bootstrap with
  | false => exact ⟨List.forall_mem_nil _, iff_of_true (List.forall_mem_nil _) (by simp)⟩
  | true =>
    have token := token_entryPoint stackBase device (clean rfl)
    have range : 0 ≤ (start stackBase entryPoint device).stackBase ∧ (start stackBase entryPoint device).stackBase ≤ 32767 := by
      show 0 ≤ (if stackBase = 0 then defaultStackBase else stackBase) ∧ (if stackBase = 0 then defaultStackBase else stackBase) ≤ 32767
      split
      · decide
      · exact base rfl
    refine ⟨bootstrap_legible _ token, ?_⟩
    rw [opening, if_pos rfl, bootstrap_acceptable range.1 range.2 token.nonempty, addressable_entryPoint]
    simp

/-- The output for readable commands, behind a bootstrap or not, is assembled exactly if every index, every number
of arguments and every target outside of functions can be loaded and no line is too long. It is then read line
by line as what was written, whatever names are in it. -/
theorem assembles_iff {bootstrap : Bool} {cs : List Command} {stackBase : Int} {entryPoint : Text} {device : Option Device}
    {session : Session} (readable : ∀ c ∈ cs, c.Readable) (base : bootstrap = true → 0 ≤ stackBase ∧ stackBase ≤ 32767)
    (clean : bootstrap = true → Text.Clean entryPoint)
    (accepted : generate bootstrap cs (start stackBase entryPoint device) = .ok () session) :
    ∃ program lines, Naming.program { calls := if bootstrap then 1 else 0 } cs = .ok program ∧
      lines = opening bootstrap (start stackBase entryPoint device) ++ program ∧
      Lines.raw session.sink.delivered.toList = lines.map Line.render ∧
      ((∃ found, Assembly.parse session.sink.delivered.toList = .ok found) ↔
        (∀ c ∈ cs, c.Loadable) ∧ (∀ c ∈ preamble cs, ∀ name ∈ c.target?, Addressable name) ∧
          (bootstrap = true → Addressable entryPoint) ∧ ∀ l ∈ lines, l.render.length ≤ 65535) ∧
      ∀ found, Assembly.parse session.sink.delivered.toList = .ok found →
        found = (lines.zipIdx 1).filterMap fun l => l.1.instruction? l.2 := by
  obtain ⟨program, coded, delivered⟩ := generate_ok accepted
  have wellFormed : ∀ c ∈ cs, c.WellFormed := fun c member => (readable c member).wellFormed
  obtain ⟨front, addressable⟩ := opening_spec device base clean
  have legible := List.forall_mem_append.mpr ⟨front, program_legible wellFormed Text.clean_nil coded⟩
  have sound : ∀ l ∈ opening bootstrap (start stackBase entryPoint device) ++ program, l.Sound :=
    fun l member => (legible l member).1
  have output : session.sink.delivered.toList = written (opening bootstrap (start stackBase entryPoint device) ++ program) :=
    delivered
  rw [output]
  refine ⟨program, _, coded, rfl, raw_written sound, ?_, ?_⟩
  · have acceptable := program_acceptable wellFormed Text.clean_nil coded
    simp only [forall_const] at acceptable
    calc (∃ found, Assembly.parse (written (opening bootstrap (start stackBase entryPoint device) ++ program)) = .ok found)
      _ ↔ ∀ l ∈ opening bootstrap (start stackBase entryPoint device) ++ program,
            l.render.length < Lines.limit ∧ l.Accepted := by
          simp only [parse_written_iff sound, exists_and_left, exists_eq, and_true]
      _ ↔ (∀ l ∈ opening bootstrap (start stackBase entryPoint device) ++ program, l.render.length < Lines.limit) ∧
            Acceptable (opening bootstrap (start stackBase entryPoint device) ++ program) := forall₂_and
      _ ↔ _ := by
          rw [acceptable_append, addressable, acceptable]
          constructor
          · rintro ⟨short, entry, loadable, targets⟩
            exact ⟨loadable, targets, entry, fun l member => Nat.le_of_lt_succ (short l member)⟩
          · rintro ⟨loadable, targets, entry, short⟩
            exact ⟨fun l member => Nat.lt_succ_of_le (short l member), entry, loadable, targets⟩
  · intro found parsed
    exact ((parse_written_iff sound).mp parsed).2

def odd (arguments : Int) : List Command := [.goto "7", .function "(x)" 0, .goto "99999", .call "D;JMP" arguments]

/-- Names that look like instructions, and a call with one argument too many or not. -/
theorem assembles_iff_odd :
    (∃ session found, generate true (odd 32762) (start 0 "@0" none) = .ok () session ∧
      Assembly.parse session.sink.delivered.toList = .ok found ∧ found.length = 105) ∧
    ∃ session, generate true (odd 32763) (start 0 "@0" none) = .ok () session ∧
      ¬ ∃ found, Assembly.parse session.sink.delivered.toList = .ok found := by
  have assembling {arguments : Int} {source : Text} {program : List Line}
      (read : (Reader.start [] source).readAll.1 = odd arguments) (coded : Naming.program { calls := 1 } (odd arguments) = .ok program)
      (short : ∀ l ∈ opening true (start 0 "@0" none) ++ program, l.render.length ≤ 65535) :
      ∃ session, generate true (odd arguments) (start 0 "@0" none) = .ok () session ∧
        ((∃ found, Assembly.parse session.sink.delivered.toList = .ok found) ↔ arguments ≤ 32762) ∧
        ∀ found, Assembly.parse session.sink.delivered.toList = .ok found → found =
          ((opening true (start 0 "@0" none) ++ program).zipIdx 1).filterMap fun l => l.1.instruction? l.2 := by
    obtain ⟨session, accepted, -⟩ := @generate_free true (odd arguments) program 0 "@0" coded
    obtain ⟨_, lines, recoded, rfl, -, assembles, meant⟩ := @assembles_iff true (odd arguments) 0 "@0" none session
      (fun c member => ⟨_, _, read ▸ member⟩) (by decide) (fun _ => Text.clean_literal (by decide)) accepted
    obtain rfl := Except.ok.inj (coded.symm.trans recoded)
    refine ⟨session, accepted, ?_, meant⟩
    rw [assembles]
    have callee : Addressable "D;JMP" := by decide
    have targets : ∀ c ∈ preamble (odd arguments), ∀ name ∈ c.target?, Addressable name := by
      have front : preamble (odd arguments) = [.goto "7"] := rfl
      rw [front]
      decide
    have entry : Addressable "@0" := by decide
    constructor
    · rintro ⟨loadable, -⟩
      exact (loadable (.call "D;JMP" arguments) (by simp [odd])).1
    · intro few
      refine ⟨?_, targets, fun _ => entry, short⟩
      simp [odd, Command.Loadable, callee, few]
  constructor
  · obtain ⟨session, accepted, assembles, meant⟩ := @assembling 32762 "goto 7\nfunction (x) 0\ngoto 99999\ncall D;JMP 32762\n"
      ((Naming.program { calls := 1 } (odd 32762)).toOption.getD []) (by decide +kernel) rfl (by decide +kernel)
    obtain ⟨found, parsed⟩ := assembles.mpr (by decide)
    refine ⟨session, found, accepted, parsed, ?_⟩
    rw [meant found parsed]
    decide +kernel
  · obtain ⟨session, accepted, assembles, -⟩ := @assembling 32763 "goto 7\nfunction (x) 0\ngoto 99999\ncall D;JMP 32763\n"
      ((Naming.program { calls := 1 } (odd 32763)).toOption.getD []) (by decide +kernel) rfl (by decide +kernel)
    refine ⟨session, accepted, ?_⟩
    rw [assembles]
    decide

end Emission

end HackToolchain
