import HackToolchain.Proofs.Emission.Layout
import HackToolchain.Proofs.Lint.Check

/-!
Checks of generated code. Every symbol that generated code loads is predefined, a number, declared next to
it, or the target of the jump that follows. A check of it therefore reports exactly the symbols that
loading it makes variables of.
-/

namespace HackToolchain.Emission

open Session

def Line.isJump : Line → Bool
  | .compute _ _ jump => jump.isSome
  | _ => false

/-- Each symbol that lines load has a meaning where labels have given names, or a jump follows at once. -/
def Answered (labels : List Text) : List Line → Prop
  | [] => True
  | .address symbol :: rest => (Assembly.Known labels symbol ∨ rest.head?.any Line.isJump = true) ∧ Answered labels rest
  | _ :: rest => Answered labels rest

theorem known_mono {labels more : List Text} {symbol : Text} (known : Assembly.Known labels symbol) (sub : labels ⊆ more) :
    Assembly.Known more symbol :=
  known.imp_right (Or.imp_left fun member => sub member)

theorem Answered.mono {labels more : List Text} {lines : List Line} (answered : Answered labels lines) (sub : labels ⊆ more) :
    Answered more lines := by
  induction lines with
  | nil => trivial
  | cons line lines ih =>
    cases line with
    | address symbol => exact ⟨answered.1.imp_left fun known => known_mono known sub, ih answered.2⟩
    | _ => exact ih answered

theorem Answered.append {labels : List Text} {xs ys : List Line} (left : Answered labels xs) (right : Answered labels ys) :
    Answered labels (xs ++ ys) := by
  induction xs with
  | nil => exact right
  | cons line xs ih =>
    cases line with
    | address symbol =>
      refine ⟨left.1.imp_right fun jumps => ?_, ih left.2⟩
      cases xs with
      | nil => cases jumps
      | cons next xs => exact jumps
    | _ => exact ih left

theorem known_pointers (labels : List Text) : ∀ symbol ∈ pointers, Assembly.Known labels symbol := by
  have reserved : ∀ symbol ∈ pointers, (Assembly.predefined.lookup symbol).isSome = true := by decide
  exact fun symbol member => .inr (.inr (reserved symbol member))

theorem known_ofInt {n : Int} (fits : Text.fitsWord n = true) (labels : List Text) : Assembly.Known labels (Text.ofInt n) :=
  .inl (by rw [Text.toInt?_ofInt fits]; rfl)

/-- A line that loads nothing without a meaning. -/
def Line.Meant (labels : List Text) : Line → Prop
  | .address symbol => Assembly.Known labels symbol
  | _ => True

theorem answered_of_meant {labels : List Text} {lines : List Line} (meant : ∀ l ∈ lines, l.Meant labels) :
    Answered labels lines := by
  induction lines with
  | nil => trivial
  | cons line lines ih =>
    obtain ⟨head, tail⟩ := List.forall_mem_cons.mp meant
    cases line with
    | address symbol => exact ⟨.inl head, ih tail⟩
    | _ => exact ih tail

theorem routine_meant (labels : List Text) : Routine (Line.Meant labels) where
  compute := trivial
  pointer member := known_pointers labels _ member
  number low high := known_ofInt (fitsWord_range low (Int.le_trans high (by decide))) labels

/-! ### Whole programs -/

theorem answered_call {labels : List Text} {name returnLabel : Text} {arguments : Int} (member : returnLabel ∈ labels) :
    Answered labels (callCode name arguments returnLabel) := by
  have known : Assembly.Known labels returnLabel := .inr (.inl member)
  have offset := known_ofInt (fitsWord_argumentOffset arguments) labels
  simp (disch := decide) [callCode, pushPointer, pushD, Answered, Line.number, Line.set, Line.setM, Line.jump, Line.isJump,
    known, offset, known_pointers]

theorem code_answered {n : Naming} {c : Command} {code : List Line} (wellFormed : c.WellFormed) (coded : n.code c = .ok code) :
    Answered (declared code) code := by
  have routine := routine_meant (declared code)
  have decided (own : ∀ l ∈ n.own c, l.Meant (declared code)) : Answered (declared code) code :=
    answered_of_meant ((routine.code coded).mpr own)
  have number {index : Int} (fits : Text.fitsWord index = true) : ∀ l ∈ [Line.number index], l.Meant (declared code) :=
    List.forall_mem_singleton.mpr (known_ofInt fits _)
  cases c with
  | arithmetic operation =>
    rcases Naming.arithmetic_ok coded with ⟨-, rfl⟩ | ⟨-, rfl⟩ | ⟨condition, -, rfl⟩
    · exact answered_of_meant (routine.combine _)
    · exact answered_of_meant (routine.combine _)
    · apply answered_of_meant
      apply (routine.compare condition _ _).mpr
      simp [declared_compare, Line.Meant, Assembly.Known]
  | push segment index => exact decided (number (wellFormed.number index rfl).2)
  | pop segment index => exact decided (number (wellFormed.number index rfl).2)
  | label name => exact Except.ok.inj coded ▸ trivial
  | goto name => exact Except.ok.inj coded ▸ ⟨.inr rfl, trivial⟩
  | ifGoto name =>
    obtain rfl := Except.ok.inj coded
    exact (answered_of_meant routine.popD).append ⟨.inr rfl, trivial⟩
  | function name locals => exact decided (by simp [Naming.own, Line.Meant])
  | call name arguments =>
    obtain rfl := Naming.call_ok coded
    exact answered_call (by rw [declared_callCode]; exact List.mem_singleton_self _)
  | ret => exact decided (by simp [Naming.own])

/-- Blocks that declare what they load can be joined. -/
theorem answered_join {xs ys : List Line} (left : Answered (declared xs) xs) (right : Answered (declared ys) ys) :
    Answered (declared (xs ++ ys)) (xs ++ ys) := by
  rw [declared_append]
  exact (left.mono (List.subset_append_left _ _)).append (right.mono (List.subset_append_right _ _))

theorem program_answered {n : Naming} {cs : List Command} {lines : List Line} (wellFormed : ∀ c ∈ cs, c.WellFormed)
    (coded : n.program cs = .ok lines) : Answered (declared lines) lines := by
  induction cs generalizing n lines with
  | nil =>
    obtain rfl := Except.ok.inj coded
    trivial
  | cons c cs ih =>
    obtain ⟨code, later, first, rest, rfl⟩ := Naming.program_cons.mp coded
    have own := code_answered (wellFormed c List.mem_cons_self) first
    have head : Answered (declared (.comment c.render :: code)) (.comment c.render :: code) := own
    exact answered_join head (ih (fun d member => wellFormed d (List.mem_cons_of_mem _ member)) rest)

theorem bootstrap_answered {stackBase : Int} (entryPoint : Text) (fits : Text.fitsWord stackBase = true) :
    Answered (declared (bootstrapLines stackBase entryPoint)) (bootstrapLines stackBase entryPoint) := by
  have base : Answered (declared (.comment "bootstrap" :: setStackPointer stackBase)) (.comment "bootstrap" :: setStackPointer stackBase) := by
    simp (disch := decide) [setStackPointer, Answered, Line.number, Line.set, known_ofInt fits, known_pointers]
  have call : Answered (declared (.comment (Command.call entryPoint 0).render :: callCode entryPoint 0 (returnLabel entryPoint 0)))
      (.comment (Command.call entryPoint 0).render :: callCode entryPoint 0 (returnLabel entryPoint 0)) :=
    answered_call List.mem_cons_self
  exact answered_join base call

/-- The output of a session is read back line by line, and declares what it loads or jumps to it. -/
theorem output_answered {bootstrap : Bool} {cs : List Command} {stackBase : Int} {entryPoint : Text} {device : Option Device}
    {session : Session} (readable : ∀ c ∈ cs, c.Readable) (word : Text.fitsWord stackBase = true)
    (clean : bootstrap = true → Text.Clean entryPoint)
    (accepted : generate bootstrap cs (start stackBase entryPoint device) = .ok () session) :
    ∃ lines, session.sink.delivered.toList = written lines ∧ Legible lines ∧ Answered (declared lines) lines := by
  obtain ⟨lines, coded, delivered⟩ := generate_ok accepted
  have wellFormed : ∀ c ∈ cs, c.WellFormed := fun c member => (readable c member).wellFormed
  have legible := program_legible wellFormed Text.clean_nil coded
  have answered := program_answered wellFormed coded
  refine ⟨_, delivered, ?_⟩
  cases bootstrap with
  | false => exact ⟨legible, answered⟩
  | true =>
    have token := token_entryPoint stackBase device (clean rfl)
    have fits : Text.fitsWord (start stackBase entryPoint device).stackBase = true := by
      show Text.fitsWord (if stackBase = 0 then defaultStackBase else stackBase) = true
      split
      · decide
      · exact word
    exact ⟨List.forall_mem_append.mpr ⟨bootstrap_legible _ token, legible⟩, answered_join (bootstrap_answered _ fits) answered⟩

/-- A symbol without a meaning is the target of a jump. -/
theorem Answered.jumps {labels : List Text} {lines : List Line} {symbol : Text} {value : Int} (answered : Answered labels lines)
    (named : ∀ l ∈ lines, l.Named) (unknown : ¬ Assembly.Known labels symbol) (loaded : .address symbol value ∈ operations lines) :
    ∃ front dest comp jump back, operations lines = front ++ .address symbol value :: .compute dest comp jump :: back ∧ jump ≠ [] := by
  induction lines with
  | nil => cases loaded
  | cons line lines ih =>
    -- A line adds at most one operation, in front of those of the lines behind it.
    have later (rest : Answered labels lines) (member : .address symbol value ∈ operations lines) :
        ∃ front dest comp jump back, operations (line :: lines) =
          front ++ .address symbol value :: .compute dest comp jump :: back ∧ jump ≠ [] := by
      obtain ⟨front, dest, comp, jump, back, split, jumps⟩ := ih rest (fun l inside => named l (List.mem_cons_of_mem _ inside)) member
      refine ⟨line.operation?.toList ++ front, dest, comp, jump, back, ?_, jumps⟩
      rw [← List.singleton_append, operations_append, split, List.append_assoc]
      cases found : line.operation? <;> simp [operations, found]
    cases line with
    | comment text => exact later answered loaded
    | label name =>
      rw [operations, List.filterMap_cons, Line.operation?_label (named _ List.mem_cons_self)] at loaded
      exact later answered ((List.mem_cons.mp loaded).resolve_left (by intro same; cases same))
    | compute dest comp jump =>
      rw [operations, List.filterMap_cons, Line.operation?_compute] at loaded
      exact later answered ((List.mem_cons.mp loaded).resolve_left (by intro same; cases same))
    | address name =>
      rw [operations, List.filterMap_cons, Line.operation?_address] at loaded
      rcases List.mem_cons.mp loaded with here | member
      · obtain ⟨rfl, rfl⟩ := Operation.address.inj here
        have follows := answered.1.resolve_left unknown
        cases lines with
        | nil => cases follows
        | cons next lines =>
          cases next with
          | compute dest comp jump =>
            obtain ⟨condition, rfl⟩ := Option.isSome_iff_exists.mp follows
            have nonempty : condition.render ≠ [] := by cases condition <;> decide
            refine ⟨[], dest.map Register.letter, comp.render, condition.render, operations lines, ?_, nonempty⟩
            rw [operations, List.filterMap_cons, Line.operation?_address, List.filterMap_cons, Line.operation?_compute]
            rfl
          | _ => cases follows
      · exact later answered.2 member

end HackToolchain.Emission

namespace HackToolchain.Lint

open Emission

theorem Reports.stored {instructions : List Instruction} {symbol : Text} {line : Int} (reported : Reports instructions symbol line) :
    symbol ∈ (Program.layOut instructions).storage.map Prod.fst := by
  obtain ⟨unknown, front, i, next, back, value, dest, comp, jump, rfl, loads, -⟩ := reports_iff.mp reported
  exact Program.layOut_storage.mpr ⟨⟨i, by simp, value, loads⟩, unknown⟩

/-- Where symbols without a meaning are jumped to, a check reports all variables. -/
theorem reports_of_stored {lines : List Line} {instructions : List Instruction} {symbol : Text}
    (read : instructions.map (·.operation) = operations lines) (named : ∀ l ∈ lines, l.Named)
    (answered : Answered (labels instructions) lines) (stored : symbol ∈ (Program.layOut instructions).storage.map Prod.fst) :
    ∃ line, Reports instructions symbol line := by
  obtain ⟨⟨i, member, value, loads⟩, unknown⟩ := Program.layOut_storage.mp stored
  have loaded : .address symbol value ∈ operations lines := by
    rw [← read, ← loads]
    exact List.mem_map_of_mem member
  obtain ⟨front, dest, comp, jump, back, split, jumps⟩ := answered.jumps named unknown loaded
  -- The two operations next to each other are those of two instructions next to each other.
  rw [← read] at split
  obtain ⟨before, behind, rfl, -, pair⟩ := List.map_eq_append_iff.mp split
  obtain ⟨j, rest, rfl, here, pair⟩ := List.map_eq_cons_iff.mp pair
  obtain ⟨next, after, rfl, there, -⟩ := List.map_eq_cons_iff.mp pair
  exact ⟨j.line, reports_iff.mpr ⟨unknown, before, j, next, after, value, dest, comp, jump, rfl, here, rfl, there, jumps⟩⟩

theorem check_of_reports {instructions : List Instruction}
    (complete : ∀ symbol ∈ (Program.layOut instructions).storage.map Prod.fst, ∃ line, Reports instructions symbol line) :
    (check instructions = [] ↔ ∃ p, Program.ofInstructions instructions = .ok p ∧ p.storage = []) ∧
      ∀ p, Program.ofInstructions instructions = .ok p →
        ∀ symbol, symbol ∈ p.storage.map Prod.fst ↔ ∃ line, Reports instructions symbol line := by
  constructor
  · rw [check_eq_nil]
    constructor
    · rintro ⟨distinct, silent⟩
      refine ⟨_, Program.ofInstructions_iff.mpr ⟨distinct, rfl⟩, ?_⟩
      apply List.eq_nil_iff_forall_not_mem.mpr
      intro binding member
      obtain ⟨line, reported⟩ := complete binding.1 (List.mem_map_of_mem member)
      exact silent _ _ reported
    · rintro ⟨p, loaded, none⟩
      obtain ⟨distinct, rfl⟩ := Program.ofInstructions_iff.mp loaded
      refine ⟨distinct, fun symbol line reported => ?_⟩
      have stored := reported.stored
      rw [none] at stored
      cases stored
  · intro p loaded symbol
    obtain ⟨-, rfl⟩ := Program.ofInstructions_iff.mp loaded
    exact ⟨complete symbol, fun ⟨line, reported⟩ => reported.stored⟩

/-- A check of the code generated for readable commands, behind a bootstrap or not, is exact: it has no
issues exactly when the code loads without a variable, and of code that loads it reports exactly the
variables. -/
theorem check_exact {bootstrap : Bool} {cs : List Command} {stackBase : Int} {entryPoint : Text} {device : Option Device}
    {session : Session} {instructions : List Instruction} (readable : ∀ c ∈ cs, c.Readable)
    (word : Text.fitsWord stackBase = true) (clean : bootstrap = true → Text.Clean entryPoint)
    (accepted : Session.generate bootstrap cs (Session.start stackBase entryPoint device) = .ok () session)
    (parsed : Assembly.parse session.sink.delivered.toList = .ok instructions) :
    (check instructions = [] ↔ ∃ p, Program.load session.sink.delivered.toList = .ok p ∧ p.storage = []) ∧
      ∀ p, Program.load session.sink.delivered.toList = .ok p →
        ∀ symbol, symbol ∈ p.storage.map Prod.fst ↔ ∃ line, Reports instructions symbol line := by
  obtain ⟨lines, delivered, legible, answered⟩ := output_answered readable word clean accepted
  have loads : Program.load session.sink.delivered.toList = Program.ofInstructions instructions := by
    rw [Program.load, parsed]
  rw [delivered] at parsed
  have read := (parse_written (fun l member => (legible l member).1) parsed).1
  have named : ∀ l ∈ lines, l.Named := fun l member => (legible l member).2
  have names : labels instructions = declared lines := by
    rw [← declared_operations named, ← read, List.filterMap_map]
    rfl
  rw [loads]
  exact check_of_reports fun symbol stored => reports_of_stored read named (names ▸ answered) stored

def wandering (target : Text) : List Command := [.function "Main" 0, .label "here", .goto target, .call "Main" 0]

/-- A jump inside a function to a label of it, or to one that it does not have. -/
theorem check_exact_wandering :
    (∃ session instructions, Session.generate true (wandering "here") (Session.start 0 "Main" none) = .ok () session ∧
      Assembly.parse session.sink.delivered.toList = .ok instructions ∧ check instructions = []) ∧
    ∃ session instructions, Session.generate true (wandering "there") (Session.start 0 "Main" none) = .ok () session ∧
      Assembly.parse session.sink.delivered.toList = .ok instructions ∧ check instructions ≠ [] ∧
        ∀ symbol, (∃ line, Reports instructions symbol line) ↔ symbol = "Main$there" := by
  have checking {target source : Text} {lines : List Line} {storage : Bindings Nat}
      (read : (Reader.start [] source).readAll.1 = wandering target)
      (coded : Naming.program { calls := 1 } (wandering target) = .ok lines)
      (bound : (Program.load (Session.written (bootstrapLines 256 "Main" ++ lines))).toOption.map (·.storage) = some storage) :
      ∃ session instructions, Session.generate true (wandering target) (Session.start 0 "Main" none) = .ok () session ∧
        Assembly.parse session.sink.delivered.toList = .ok instructions ∧ (check instructions = [] ↔ storage = []) ∧
          ∀ symbol, symbol ∈ storage.map Prod.fst ↔ ∃ line, Reports instructions symbol line := by
    obtain ⟨session, accepted, delivered⟩ := @Session.generate_free true (wandering target) lines 0 "Main" coded
    have output : session.sink.delivered.toList = Session.written (bootstrapLines 256 "Main" ++ lines) := delivered
    rw [← output] at bound
    cases parsed : Assembly.parse session.sink.delivered.toList with
    | error e => rw [Program.load, parsed] at bound; cases bound
    | ok instructions =>
      obtain ⟨silent, found⟩ := @check_exact true (wandering target) 0 "Main" none session instructions
        (fun c member => ⟨_, _, read ▸ member⟩) (by decide) (fun _ => Text.clean_literal (by decide)) accepted parsed
      cases loaded : Program.load session.sink.delivered.toList with
      | error e => rw [loaded] at bound; cases bound
      | ok p =>
        rw [loaded] at bound
        obtain rfl : p.storage = storage := Option.some.inj bound
        refine ⟨session, instructions, accepted, parsed, ?_, found p loaded⟩
        rw [silent, loaded]
        simp
  constructor
  · obtain ⟨session, instructions, accepted, parsed, silent, -⟩ := @checking "here"
      "function Main 0\nlabel here\ngoto here\ncall Main 0\n" ((Naming.program { calls := 1 } (wandering "here")).toOption.getD [])
      [] (by decide +kernel) rfl (by decide +kernel)
    exact ⟨session, instructions, accepted, parsed, silent.mpr rfl⟩
  · obtain ⟨session, instructions, accepted, parsed, silent, reported⟩ := @checking "there"
      "function Main 0\nlabel here\ngoto there\ncall Main 0\n" ((Naming.program { calls := 1 } (wandering "there")).toOption.getD [])
      [("Main$there", 16)] (by decide +kernel) rfl (by decide +kernel)
    refine ⟨session, instructions, accepted, parsed, fun none => ?_, fun symbol => ?_⟩
    · cases silent.mp none
    · rw [← reported]
      simp

end HackToolchain.Lint
