import Mathlib.Data.List.Nodup
import HackToolchain.Proofs.Emission.Layout

/-!
When two labels of an output are the same. Labels of comparisons and calls never clash with each other,
but a name in the source can be the text of any of them, and the text of a label in a function can be
that of another label or of a function. These are the only ways.
-/

namespace HackToolchain.Emission

open Session

/-- The names that the labels of an output are made from: the functions, the labels with the function
they are in, how many comparisons there are, and the functions called, in order. -/
structure Names where
  functions : List Text := []
  labels : List (Text × Text) := []
  comparisons : Nat := 0
  callees : List Text := []
deriving DecidableEq, Repr

def qualified (label : Text × Text) : Text := Naming.qualify { function := label.1 } label.2

namespace Names

/-- The names of commands that stand in a function, or outside any. -/
def ofCommands (scope : Text) : List Command → Names
  | [] => {}
  | .label name :: rest =>
    let later := ofCommands scope rest
    { later with labels := (scope, name) :: later.labels }
  | .function name _ :: rest =>
    let later := ofCommands name rest
    { later with functions := name :: later.functions }
  | .call name _ :: rest =>
    let later := ofCommands scope rest
    { later with callees := name :: later.callees }
  | .arithmetic operation :: rest =>
    let later := ofCommands scope rest
    if operation = "eq" ∨ operation = "gt" then { later with comparisons := later.comparisons + 1 } else later
  | _ :: rest => ofCommands scope rest

def source (n : Names) : List Text := n.functions ++ n.labels.map qualified

/-- The labels that are made up, from given numbers on. -/
def generated (n : Names) (labels calls : Nat) : List Text :=
  (List.range' labels n.comparisons).map (fun k => (compareLabels k).1) ++
    (List.range' labels n.comparisons).map (fun k => (compareLabels k).2) ++
      (n.callees.zipIdx calls).map fun call => returnLabel call.1 call.2

/-- Two different names have one text: those of a function and a label, of two labels, or of a function
or label and a label that is made up for a comparison or a call. -/
def Clash (n : Names) : Prop :=
  (∃ name ∈ n.functions, ∃ label ∈ n.labels, name = qualified label) ∨
    (∃ label ∈ n.labels, ∃ other ∈ n.labels, label ≠ other ∧ qualified label = qualified other) ∨
      (∃ name ∈ n.source, ∃ k < n.comparisons, name = (compareLabels k).1 ∨ name = (compareLabels k).2) ∨
        ∃ name ∈ n.source, ∃ call ∈ n.callees.zipIdx, name = returnLabel call.1 call.2

instance (n : Names) : Decidable n.Clash := inferInstanceAs (Decidable (_ ∨ _))

end Names

theorem declared_access {direction : Direction} {segment : Text} {index : Int} {code : List Line}
    (coded : accessCode? direction segment index = some code) : declared code = [] := by
  rcases Naming.access_shape coded with rfl | ⟨pointer, -, rfl | rfl⟩
  · rfl
  · rfl
  · rfl

theorem declared_arithmetic {n : Naming} {operation : Text} {code : List Line} (coded : n.code (.arithmetic operation) = .ok code) :
    declared code = if operation = "eq" ∨ operation = "gt" then [(compareLabels n.labels).1, (compareLabels n.labels).2] else [] := by
  rcases Naming.arithmetic_ok coded with ⟨rfl, rfl⟩ | ⟨rfl, rfl⟩ | ⟨condition, kind, rfl⟩
  · rfl
  · rfl
  · rw [if_pos (kind.imp And.left And.left), declared_compare]

/-- Every label of an output comes from one of its names. -/
theorem program_declared {n : Naming} {cs : List Command} {lines : List Line} (coded : n.program cs = .ok lines) :
    (declared lines).Perm ((Names.ofCommands n.function cs).source ++ (Names.ofCommands n.function cs).generated n.labels n.calls) := by
  -- Every command adds its labels to the front of one of the parts, which counting does not see.
  rw [List.perm_iff_count]
  intro t
  induction cs generalizing n lines with
  | nil =>
    obtain rfl := Except.ok.inj coded
    rfl
  | cons c cs ih =>
    obtain ⟨code, later, first, rest, rfl⟩ := Naming.program_cons.mp coded
    have behind := ih rest
    have front : declared (.comment c.render :: code ++ later) = declared code ++ declared later := declared_append code later
    rw [front, List.count_append, behind]
    cases c with
    | arithmetic operation =>
      rw [declared_arithmetic first]
      by_cases comparison : operation = "eq" ∨ operation = "gt"
      · simp only [if_pos comparison, Naming.after, Names.ofCommands, Names.source, Names.generated, List.range'_succ,
          List.map_cons, List.count_append, List.count_cons, List.count_nil]
        omega
      · simp only [if_neg comparison, Naming.after, Names.ofCommands, List.count_nil, Nat.zero_add]
    | push segment index =>
      rw [declared_access (Naming.access_ok first), List.count_nil, Nat.zero_add]
      rfl
    | pop segment index =>
      rw [declared_access (Naming.access_ok first), List.count_nil, Nat.zero_add]
      rfl
    | label name =>
      obtain rfl := Except.ok.inj first
      simp only [declared, List.filterMap_cons, Line.label?, List.filterMap_nil, Naming.after, Names.ofCommands, Names.source,
        Names.generated, List.map_cons, List.count_append, List.count_cons, List.count_nil, qualified, Naming.qualify]
      omega
    | goto name =>
      obtain rfl := Except.ok.inj first
      exact Nat.zero_add _
    | ifGoto name =>
      obtain rfl := Except.ok.inj first
      exact Nat.zero_add _
    | function name locals =>
      obtain rfl := Naming.function_ok first
      have own : declared (.label name :: (List.replicate locals.toNat pushZero).flatten) = [name] :=
        congrArg (name :: ·) (declared_pushZeros locals.toNat)
      simp only [own, Naming.after, Names.ofCommands, Names.source, Names.generated, List.count_append, List.count_cons,
        List.count_nil]
      omega
    | call name arguments =>
      obtain rfl := Naming.call_ok first
      simp only [declared_callCode, Naming.after, Names.ofCommands, Names.source, Names.generated, List.zipIdx_cons,
        List.map_cons, List.count_append, List.count_cons, List.count_nil]
      omega
    | ret =>
      obtain rfl := Except.ok.inj first
      exact Nat.zero_add _

/-! ### Which labels differ -/

theorem returns_above {callees : List Text} {calls : Nat} {t : Text}
    (member : t ∈ (callees.zipIdx calls).map fun call => returnLabel call.1 call.2) :
    ∃ callee k, calls ≤ k ∧ t = returnLabel callee k := by
  obtain ⟨⟨callee, k⟩, inside, rfl⟩ := List.mem_map.mp member
  exact ⟨callee, k, (List.mem_zipIdx inside).1, rfl⟩

theorem returns_nodup (callees : List Text) (calls : Nat) :
    ((callees.zipIdx calls).map fun call => returnLabel call.1 call.2).Nodup := by
  induction callees generalizing calls with
  | nil => exact List.nodup_nil
  | cons callee callees ih =>
    rw [List.zipIdx_cons, List.map_cons, List.nodup_cons]
    refine ⟨fun member => ?_, ih (calls + 1)⟩
    obtain ⟨other, k, above, same⟩ := returns_above member
    have := (returnLabel_injective same).2
    omega

theorem generated_nodup (n : Names) (labels calls : Nat) : (n.generated labels calls).Nodup := by
  unfold Names.generated
  rw [List.nodup_append, List.nodup_append]
  refine ⟨⟨?_, ?_, ?_⟩, returns_nodup n.callees calls, ?_⟩
  · exact List.Nodup.map (fun _ _ same => compareLabels_injective (.inl same)) List.nodup_range'
  · exact List.Nodup.map (fun _ _ same => compareLabels_injective (.inr same)) List.nodup_range'
  · rintro _ first _ second rfl
    obtain ⟨k, -, same⟩ := List.mem_map.mp first
    obtain ⟨m, -, other⟩ := List.mem_map.mp second
    exact compareLabels_apart k m (same.trans other.symm)
  · rintro t compared _ returned rfl
    obtain ⟨callee, k, -, rfl⟩ := returns_above returned
    have dollar := dollar_mem_returnLabel callee k
    rcases List.mem_append.mp compared with member | member
    · obtain ⟨m, -, same⟩ := List.mem_map.mp member
      exact (dollar_not_mem_compareLabels m).1 (same ▸ dollar)
    · obtain ⟨m, -, same⟩ := List.mem_map.mp member
      exact (dollar_not_mem_compareLabels m).2 (same ▸ dollar)

theorem mem_generated {n : Names} {t : Text} :
    t ∈ n.generated 0 0 ↔ (∃ k < n.comparisons, t = (compareLabels k).1 ∨ t = (compareLabels k).2) ∨
      ∃ call ∈ n.callees.zipIdx, t = returnLabel call.1 call.2 := by
  simp only [Names.generated, List.mem_append, List.mem_map, List.mem_range'_1, Nat.zero_add, Nat.zero_le, true_and]
  constructor
  · rintro ((⟨k, below, rfl⟩ | ⟨k, below, rfl⟩) | ⟨call, inside, rfl⟩)
    · exact .inl ⟨k, below, .inl rfl⟩
    · exact .inl ⟨k, below, .inr rfl⟩
    · exact .inr ⟨call, inside, rfl⟩
  · rintro (⟨k, below, rfl | rfl⟩ | ⟨call, inside, rfl⟩)
    · exact .inl (.inl ⟨k, below, rfl⟩)
    · exact .inl (.inr ⟨k, below, rfl⟩)
    · exact .inr ⟨call, inside, rfl⟩

/-- Labels are distinct exactly when no two names clash, as long as no function is declared twice, nor
a label in a function. -/
theorem nodup_iff_not_clash {n : Names} (functions : n.functions.Nodup) (labels : n.labels.Nodup) :
    (n.source ++ n.generated 0 0).Nodup ↔ ¬ n.Clash := by
  have generated := generated_nodup n 0 0
  constructor
  · intro distinct
    obtain ⟨own, -, outside⟩ := List.nodup_append.mp distinct
    obtain ⟨-, injective, apart⟩ := List.nodup_append.mp own
    rw [List.nodup_map_iff_inj_on labels] at injective
    rintro (⟨name, member, label, inside, same⟩ | ⟨label, inside, other, inside', ne, same⟩ |
      ⟨name, member, k, below, same⟩ | ⟨name, member, call, inside, same⟩)
    · exact apart name member _ (List.mem_map_of_mem inside) same
    · exact ne (injective label inside other inside' same)
    · exact outside name member name (mem_generated.mpr (.inl ⟨k, below, same⟩)) rfl
    · exact outside name member name (mem_generated.mpr (.inr ⟨call, inside, same⟩)) rfl
  · intro free
    refine List.nodup_append.mpr ⟨List.nodup_append.mpr ⟨functions, ?_, ?_⟩, generated, ?_⟩
    · rw [List.nodup_map_iff_inj_on labels]
      intro label inside other inside' same
      by_contra ne
      exact free (.inr (.inl ⟨label, inside, other, inside', ne, same⟩))
    · intro name member t declared same
      obtain ⟨label, inside, rfl⟩ := List.mem_map.mp declared
      exact free (.inl ⟨name, member, label, inside, same⟩)
    · rintro name member t made rfl
      rcases mem_generated.mp made with ⟨k, below, same⟩ | ⟨call, inside, same⟩
      · exact free (.inr (.inr (.inl ⟨name, member, k, below, same⟩)))
      · exact free (.inr (.inr (.inr ⟨name, member, call, inside, same⟩)))

/-- The names of a whole output, with those of a bootstrap. -/
def Names.ofProgram (bootstrap : Bool) (entryPoint : Text) (cs : List Command) : Names :=
  let n := Names.ofCommands [] cs
  if bootstrap then { n with callees := entryPoint :: n.callees } else n

theorem output_declared {bootstrap : Bool} {stackBase : Int} {entryPoint : Text} {cs : List Command} {lines : List Line}
    (coded : Naming.program { calls := if bootstrap then 1 else 0 } cs = .ok lines) :
    (declared ((if bootstrap then bootstrapLines stackBase entryPoint else []) ++ lines)).Perm
      ((Names.ofProgram bootstrap entryPoint cs).source ++ (Names.ofProgram bootstrap entryPoint cs).generated 0 0) := by
  have own := program_declared coded
  rw [declared_append]
  cases bootstrap with
  | false => exact own
  | true =>
    rw [List.perm_iff_count] at own ⊢
    intro t
    have front : declared (bootstrapLines stackBase entryPoint) = [returnLabel entryPoint 0] := rfl
    have rest := own t
    simp only [if_true, front, Names.ofProgram, Names.source, Names.generated, List.zipIdx_cons, List.map_cons,
      List.count_append, List.count_cons, List.count_nil, Nat.zero_add] at rest ⊢
    omega

/-! ### Loading -/

/-- Reading a text never finds a duplicate label. -/
theorem parse_malformed {text : Text} {e : Assembly.Error} (failed : Assembly.parse text = .error e) (line : Int)
    (symbol : Text) : e ≠ .duplicateLabel line symbol := by
  have ofLines : ∀ {lines : List (Text × Nat)} {e : Assembly.Error}, Assembly.ofLines lines = .error e →
      e ≠ .duplicateLabel line symbol := by
    intro lines e failed
    induction lines generalizing e with
    | nil => cases failed
    | cons first rest ih =>
      obtain ⟨content, number⟩ := first
      simp only [Assembly.ofLines] at failed
      split at failed
      · rename_i cause head
        obtain rfl := Except.error.inj failed
        unfold Assembly.instruction? at head
        split at head
        · cases head
        · split at head
          · cases head
          · obtain rfl := Except.error.inj head
            intro same
            cases same
      · split at failed
        · rename_i tail
          exact Except.error.inj failed ▸ ih tail
        · cases failed
  simp only [Assembly.parse] at failed
  split at failed
  · rename_i cause found
    exact Except.error.inj failed ▸ ofLines found
  · split at failed
    · obtain rfl := Except.error.inj failed
      intro same
      cases same
    · cases failed

/-- When the labels of an output are distinct, and when loading it fails on a duplicate. -/
theorem labels_distinct_iff {bootstrap : Bool} {cs : List Command} {stackBase : Int} {entryPoint : Text}
    {device : Option Device} {session : Session} (readable : ∀ c ∈ cs, c.Readable)
    (token : bootstrap = true → Text.IsToken (start stackBase entryPoint device).entryPoint)
    (accepted : generate bootstrap cs (start stackBase entryPoint device) = .ok () session)
    (functions : (Names.ofCommands [] cs).functions.Nodup) (labels : (Names.ofCommands [] cs).labels.Nodup) :
    ∃ lines, session.sink.delivered.toList = written lines ∧
      ((declared lines).Nodup ↔ ¬ (Names.ofProgram bootstrap (start stackBase entryPoint device).entryPoint cs).Clash) ∧
      ((∃ line symbol, Program.load session.sink.delivered.toList = .error (.duplicateLabel line symbol)) ↔
        (∃ instructions, Assembly.parse session.sink.delivered.toList = .ok instructions) ∧
          (Names.ofProgram bootstrap (start stackBase entryPoint device).entryPoint cs).Clash) := by
  obtain ⟨lines, coded, delivered⟩ := generate_ok accepted
  generalize (start stackBase entryPoint device).stackBase = base at delivered
  generalize (start stackBase entryPoint device).entryPoint = entryPoint at token delivered ⊢
  rw [delivered]
  have wellFormed : ∀ c ∈ cs, c.WellFormed := fun c member => (readable c member).wellFormed
  have distinct : (declared ((if bootstrap then bootstrapLines base entryPoint else []) ++ lines)).Nodup ↔
      ¬ (Names.ofProgram bootstrap entryPoint cs).Clash := by
    rw [(output_declared coded).nodup_iff]
    cases bootstrap with
    | false => exact nodup_iff_not_clash functions labels
    | true => exact nodup_iff_not_clash functions labels
  have legible : Legible ((if bootstrap then bootstrapLines base entryPoint else []) ++ lines) := by
    refine List.forall_mem_append.mpr ⟨?_, program_legible wellFormed Text.clean_nil coded⟩
    cases bootstrap with
    | false => exact List.forall_mem_nil _
    | true => exact bootstrap_legible base (token rfl)
  refine ⟨_, rfl, distinct, ?_⟩
  generalize (if bootstrap then bootstrapLines base entryPoint else []) ++ lines = output at distinct legible ⊢
  cases parsed : Assembly.parse (written output) with
  | error e =>
    have never := parse_malformed parsed
    constructor
    · rintro ⟨line, symbol, failed⟩
      rw [Program.load, parsed] at failed
      exact absurd (Except.error.inj failed) (never line symbol)
    · rintro ⟨⟨_, impossible⟩, -⟩
      cases impossible
  | ok instructions =>
    have operations := (parse_written (fun l member => (legible l member).1) parsed).1
    have names : instructions.filterMap (·.operation.label?) = declared output := by
      rw [← declared_operations fun l member => (legible l member).2, ← operations, List.filterMap_map]
      rfl
    have duplicate := @Program.ofInstructions_duplicate instructions
    rw [names, distinct, not_not] at duplicate
    simp only [Program.load, parsed]
    rw [duplicate]
    exact ⟨fun clash => ⟨⟨_, rfl⟩, clash⟩, fun both => both.2⟩

def calling (label : Text) : List Command := [.function "F" 0, .label label, .goto label, .call "F" 0]

/-- The label in the function is named like the one behind the call, or not. -/
theorem labels_distinct_iff_calling :
    (∃ session, generate false (calling "ret.0") (start 0 [] none) = .ok () session ∧
      (Names.ofCommands [] (calling "ret.0")).functions.Nodup ∧ (Names.ofCommands [] (calling "ret.0")).labels.Nodup ∧
        ∃ line symbol, Program.load session.sink.delivered.toList = .error (.duplicateLabel line symbol)) ∧
    ∃ session, generate false (calling "loop") (start 0 [] none) = .ok () session ∧
      ¬ ∃ line symbol, Program.load session.sink.delivered.toList = .error (.duplicateLabel line symbol) := by
  have functions (label : Text) : (Names.ofCommands [] (calling label)).functions.Nodup := List.nodup_singleton _
  have labels (label : Text) : (Names.ofCommands [] (calling label)).labels.Nodup := List.nodup_singleton _
  have loading {label source : Text} {lines : List Line} (read : (Reader.start [] source).readAll.1 = calling label)
      (coded : Naming.program {} (calling label) = .ok lines) :
      ∃ session, generate false (calling label) (start 0 [] none) = .ok () session ∧
        ((∃ line symbol, Program.load session.sink.delivered.toList = .error (.duplicateLabel line symbol)) ↔
          (∃ instructions, Assembly.parse (written lines) = .ok instructions) ∧ (Names.ofProgram false [] (calling label)).Clash) := by
    obtain ⟨session, accepted, delivered⟩ := @generate_free false (calling label) lines 0 [] coded
    have whole : session.sink.delivered.toList = written lines := delivered
    obtain ⟨-, -, -, fails⟩ := @labels_distinct_iff false (calling label) 0 [] none session
      (fun c member => ⟨_, _, read ▸ member⟩) nofun accepted (functions label) (labels label)
    exact ⟨session, accepted, by rw [whole] at fails ⊢; exact fails⟩
  constructor
  · obtain ⟨session, accepted, fails⟩ := @loading "ret.0" "function F 0\nlabel ret.0\ngoto ret.0\ncall F 0\n"
      ((Naming.program {} (calling "ret.0")).toOption.getD []) (by decide +kernel) rfl
    refine ⟨session, accepted, functions _, labels _, fails.mpr ⟨?_, by decide +kernel⟩⟩
    have parsed : (Assembly.parse (written ((Naming.program {} (calling "ret.0")).toOption.getD []))).isOk = true := by
      decide +kernel
    rcases found : Assembly.parse _ with e | instructions
    · rw [found] at parsed
      cases parsed
    · exact ⟨instructions, rfl⟩
  · obtain ⟨session, accepted, fails⟩ := @loading "loop" "function F 0\nlabel loop\ngoto loop\ncall F 0\n"
      ((Naming.program {} (calling "loop")).toOption.getD []) (by decide +kernel) rfl
    exact ⟨session, accepted, fun failed => absurd (fails.mp failed).2 (by decide +kernel)⟩

end HackToolchain.Emission
