import HackToolchain.Proofs.Emission.Output

/-!
The code of a command as a function of the names in force. A session writes, for each command, either
nothing at all or the command in a comment with its code behind it; which code depends on nothing but
the function being generated and the two counters.
-/

namespace HackToolchain.Emission

/-- What the names made up for a command depend on. -/
structure Naming where
  function : Text := []
  labels : Nat := 0
  calls : Nat := 0
deriving DecidableEq, Repr

namespace Naming

/-- A label of the program as it is written in the function being generated. -/
def qualify (n : Naming) (name : Text) : Text :=
  if n.function = [] then name else n.function ++ "$" ++ name

/-- The code of a command, or why there is none. -/
def code (n : Naming) : Command → Except EmitError (List Line)
  | .arithmetic operation =>
    if operation = "add" then .ok (combine .dPlusX)
    else if operation = "sub" then .ok (combine .xMinusD)
    else if operation = "eq" then .ok (compare .eq (Session.compareLabels n.labels).1 (Session.compareLabels n.labels).2)
    else if operation = "gt" then .ok (compare .gt (Session.compareLabels n.labels).1 (Session.compareLabels n.labels).2)
    else .error (.unsupportedOperation operation)
  | .push segment index => access .push segment index
  | .pop segment index => access .pop segment index
  | .label name => .ok [.label (n.qualify name)]
  | .goto name => .ok (goTo (n.qualify name))
  | .ifGoto name => .ok (goToIf (n.qualify name))
  | .function name locals =>
    if locals < 0 then .error .negativeIndex
    else .ok (.label name :: (List.replicate locals.toNat pushZero).flatten)
  | .call name arguments =>
    if arguments < 0 then .error .negativeIndex
    else .ok (callCode name arguments (Session.returnLabel name n.calls))
  | .ret => .ok returnCode
where
  access (direction : Direction) (segment : Text) (index : Int) : Except EmitError (List Line) :=
    if index < 0 then .error .negativeIndex
    else match Session.accessCode? direction segment index with
      | none => .error (.unsupportedSegment direction segment)
      | some code => .ok code

/-- The names in force behind a command. -/
def after (n : Naming) : Command → Naming
  | .arithmetic operation => if operation = "eq" ∨ operation = "gt" then { n with labels := n.labels + 1 } else n
  | .function name _ => { n with function := name }
  | .call _ _ => { n with calls := n.calls + 1 }
  | _ => n

/-- The code of commands one after the other, each behind a comment that shows it. -/
def program (n : Naming) : List Command → Except EmitError (List Line)
  | [] => .ok []
  | c :: rest =>
    match n.code c with
    | .error e => .error e
    | .ok code =>
      match (n.after c).program rest with
      | .error e => .error e
      | .ok later => .ok (.comment c.render :: code ++ later)

theorem access_ok {direction : Direction} {segment : Text} {index : Int} {lines : List Line}
    (coded : code.access direction segment index = .ok lines) :
    Session.accessCode? direction segment index = some lines := by
  unfold code.access at coded
  split at coded
  · cases coded
  · cases found : Session.accessCode? direction segment index with
    | none => simp [found] at coded
    | some block =>
      simp only [found] at coded
      rw [Except.ok.inj coded]

theorem pointer_ok {segment pointer : Text} (found : Session.pointer? segment = some pointer) : pointer = "LCL" ∨ pointer = "ARG" := by
  unfold Session.pointer? at found
  split at found
  · exact .inl (Option.some.inj found).symm
  · split at found
    · exact .inr (Option.some.inj found).symm
    · cases found

theorem access_shape {direction : Direction} {segment : Text} {index : Int} {lines : List Line}
    (coded : Session.accessCode? direction segment index = some lines) :
    lines = pushConstant index ∨ ∃ pointer, Session.pointer? segment = some pointer ∧
      (lines = pushIndexed pointer index ∨ lines = popIndexed pointer index) := by
  cases direction with
  | push =>
    simp only [Session.accessCode?] at coded
    split at coded
    · exact .inl (Option.some.inj coded).symm
    · obtain ⟨pointer, found, rfl⟩ := Option.map_eq_some_iff.mp coded
      exact .inr ⟨pointer, found, .inl rfl⟩
  | pop =>
    obtain ⟨pointer, found, rfl⟩ := Option.map_eq_some_iff.mp coded
    exact .inr ⟨pointer, found, .inr rfl⟩
  | neither => cases coded

theorem arithmetic_ok {n : Naming} {operation : Text} {lines : List Line}
    (coded : n.code (.arithmetic operation) = .ok lines) :
    operation = "add" ∧ lines = combine .dPlusX ∨ operation = "sub" ∧ lines = combine .xMinusD ∨
      ∃ condition, (operation = "eq" ∧ condition = .eq ∨ operation = "gt" ∧ condition = .gt) ∧
        lines = compare condition (Session.compareLabels n.labels).1 (Session.compareLabels n.labels).2 := by
  simp only [code] at coded
  split at coded
  · rename_i add
    exact .inl ⟨add, (Except.ok.inj coded).symm⟩
  · split at coded
    · rename_i sub
      exact .inr (.inl ⟨sub, (Except.ok.inj coded).symm⟩)
    · split at coded
      · rename_i eq
        exact .inr (.inr ⟨_, .inl ⟨eq, rfl⟩, (Except.ok.inj coded).symm⟩)
      · split at coded
        · rename_i gt
          exact .inr (.inr ⟨_, .inr ⟨gt, rfl⟩, (Except.ok.inj coded).symm⟩)
        · cases coded

theorem function_ok {n : Naming} {name : Text} {locals : Int} {lines : List Line}
    (coded : n.code (.function name locals) = .ok lines) :
    lines = .label name :: (List.replicate locals.toNat pushZero).flatten := by
  simp only [code] at coded
  split at coded
  · cases coded
  · exact (Except.ok.inj coded).symm

theorem call_ok {n : Naming} {name : Text} {arguments : Int} {lines : List Line}
    (coded : n.code (.call name arguments) = .ok lines) :
    lines = callCode name arguments (Session.returnLabel name n.calls) := by
  simp only [code] at coded
  split at coded
  · cases coded
  · exact (Except.ok.inj coded).symm

theorem access_error {direction : Direction} {segment : Text} {index : Int} {e : EmitError}
    (refused : code.access direction segment index = .error e) :
    e = .negativeIndex ∧ index < 0 ∨
      e = .unsupportedSegment direction segment ∧ Session.accessCode? direction segment index = none := by
  unfold code.access at refused
  split at refused
  · rename_i negative
    exact .inl ⟨(Except.error.inj refused).symm, negative⟩
  · split at refused
    · rename_i unsupported
      exact .inr ⟨(Except.error.inj refused).symm, unsupported⟩
    · cases refused

/-- The reasons for which a command has no code. -/
theorem code_error {n : Naming} {c : Command} {e : EmitError} (refused : n.code c = .error e) :
    (e = .negativeIndex ∧ ∃ i ∈ c.number?, i < 0) ∨
      (∃ operation, c = .arithmetic operation ∧ e = .unsupportedOperation operation) ∨
      ∃ direction segment index, (c = .push segment index ∧ direction = .push ∨ c = .pop segment index ∧ direction = .pop) ∧
        e = .unsupportedSegment direction segment ∧ Session.accessCode? direction segment index = none := by
  cases c with
  | arithmetic operation =>
    simp only [code] at refused
    repeat' split at refused
    all_goals cases refused
    exact .inr (.inl ⟨operation, rfl, rfl⟩)
  | push segment index =>
    rcases access_error refused with ⟨rfl, negative⟩ | ⟨rfl, unsupported⟩
    · exact .inl ⟨rfl, index, rfl, negative⟩
    · exact .inr (.inr ⟨.push, segment, index, .inl ⟨rfl, rfl⟩, rfl, unsupported⟩)
  | pop segment index =>
    rcases access_error refused with ⟨rfl, negative⟩ | ⟨rfl, unsupported⟩
    · exact .inl ⟨rfl, index, rfl, negative⟩
    · exact .inr (.inr ⟨.pop, segment, index, .inr ⟨rfl, rfl⟩, rfl, unsupported⟩)
  | function name locals =>
    simp only [code] at refused
    split at refused
    · rename_i negative
      exact .inl ⟨(Except.error.inj refused).symm, locals, rfl, negative⟩
    · cases refused
  | call name arguments =>
    simp only [code] at refused
    split at refused
    · rename_i negative
      exact .inl ⟨(Except.error.inj refused).symm, arguments, rfl, negative⟩
    · cases refused
  | label name => cases refused
  | goto name => cases refused
  | ifGoto name => cases refused
  | ret => cases refused

theorem program_cons {n : Naming} {c : Command} {rest : List Command} {lines : List Line} :
    n.program (c :: rest) = .ok lines ↔
      ∃ code later, n.code c = .ok code ∧ (n.after c).program rest = .ok later ∧
        lines = .comment c.render :: code ++ later := by
  rw [program]
  cases n.code c with
  | error e => simp
  | ok code =>
    cases (n.after c).program rest with
    | error e => simp
    | ok later => simp [eq_comm]

theorem program_append {n : Naming} {cs ds : List Command} {lines : List Line} :
    n.program (cs ++ ds) = .ok lines ↔
      ∃ front back, n.program cs = .ok front ∧ (cs.foldl after n).program ds = .ok back ∧
        lines = front ++ back := by
  induction cs generalizing n lines with
  | nil => simp [program]
  | cons c cs ih =>
    simp only [List.cons_append, program_cons, List.foldl_cons, ih]
    constructor
    · rintro ⟨code, later, coded, ⟨front, back, first, second, rfl⟩, rfl⟩
      exact ⟨_, back, ⟨code, front, coded, first, rfl⟩, second, by simp⟩
    · rintro ⟨front, back, ⟨code, later, coded, first, rfl⟩, second, rfl⟩
      exact ⟨code, later ++ back, coded, ⟨later, back, first, second, rfl⟩, by simp⟩

end Naming

/-- The output of a bootstrap in a new session. -/
def bootstrapLines (stackBase : Int) (entryPoint : Text) : List Line :=
  .comment "bootstrap" :: setStackPointer stackBase ++
    .comment (Command.call entryPoint 0).render :: callCode entryPoint 0 (Session.returnLabel entryPoint 0)

namespace Session

def naming (s : Session) : Naming := { function := s.function, labels := s.labels, calls := s.calls }

def rename (n : Naming) (s : Session) : Session :=
  { s with function := n.function, labels := n.labels, calls := n.calls }

/-- The session with the record that announces a command. -/
def trace (text : Text) (s : Session) : Session :=
  s.note
    { level := .trace
      message := "Translate"
      fields := [("Unit", .text s.unit), ("Function", .text s.function), ("Command", .text text),
        ("Line", .number s.lines)] }

theorem bind_run {α β : Type} (x : Emit α) (f : α → Emit β) (s : Session) :
    (x >>= f) s = match x s with | .ok a t => f a t | .error e t => .error e t := by
  show EStateM.bind x f s = _
  unfold EStateM.bind
  cases x s <;> rfl

theorem announce_run (text : Text) (s : Session) : announce text s = emit [.comment text] (s.trace text) := rfl

theorem announce_emit (text : Text) (code : List Line) (s : Session) :
    (do announce text; emit code) s = emit (.comment text :: code) (s.trace text) := by
  rw [← List.singleton_append, ← emit_emit]
  rfl

/-- Code may depend on what an announcement leaves as it is. -/
theorem announce_emit_get (text : Text) (code : Session → List Line) (s : Session)
    (stable : code ((s.trace text).append [.comment text]) = code s) :
    (do announce text; emit (code (← get))) s = emit (.comment text :: code s) (s.trace text) := by
  rw [← announce_emit]
  simp only [bind_run, announce_run]
  split
  · rename_i t done
    obtain ⟨rfl, -⟩ := emit_ok.mp done
    show emit (code ((s.trace text).append [.comment text])) _ = _
    rw [stable]
  · rfl

theorem writeAccess_run (direction : Direction) (segment : Text) (index : Int) (s : Session) :
    writeAccess direction segment index s =
      match Naming.code.access direction segment index with
      | .error e => .error e s
      | .ok code =>
        emit (.comment (direction.name ++ " " ++ segment ++ " " ++ Text.ofInt index) :: code)
          (s.trace (direction.name ++ " " ++ segment ++ " " ++ Text.ofInt index)) := by
  unfold writeAccess Naming.code.access
  split
  · rfl
  · cases accessCode? direction segment index with
    | none => rfl
    | some code => exact announce_emit _ _ _

/-- What a session does with a command: it refuses it and stays as it is, or it takes up the names
behind the command and emits the command and its code. -/
theorem write_run (c : Command) (s : Session) :
    write c s =
      match s.naming.code c with
      | .error e => .error e s
      | .ok code =>
        emit (.comment c.render :: code) ((s.rename (s.naming.after c)).trace c.render) := by
  cases c with
  | arithmetic operation =>
    unfold write writeArithmetic Naming.code Naming.after
    dsimp only
    split
    · rename_i add
      subst add
      rw [if_neg (by decide)]
      exact announce_emit _ _ _
    · split
      · rename_i sub
        subst sub
        rw [if_neg (by decide)]
        exact announce_emit _ _ _
      · split
        · rename_i eq
          subst eq
          rw [if_pos (by decide)]
          exact announce_emit _ _ _
        · split
          · rename_i gt
            subst gt
            rw [if_pos (by decide)]
            exact announce_emit _ _ _
          · rfl
  | push segment index => exact writeAccess_run .push segment index s
  | pop segment index => exact writeAccess_run .pop segment index s
  | label name =>
    exact announce_emit_get ("label " ++ name) (fun t => [.label (t.naming.qualify name)]) s rfl
  | goto name =>
    exact announce_emit_get ("goto " ++ name) (fun t => goTo (t.naming.qualify name)) s rfl
  | ifGoto name =>
    exact announce_emit_get ("if-goto " ++ name) (fun t => goToIf (t.naming.qualify name)) s rfl
  | function name locals =>
    unfold write writeFunction Naming.code Naming.after
    dsimp only
    split
    · rfl
    · have body := emit_emitTimes [.label name] pushZero locals.toNat
      rw [List.singleton_append] at body
      show (do announce _; emit [.label name]; emitTimes pushZero locals.toNat) (s.rename { s.naming with function := name }) = _
      rw [body]
      exact announce_emit _ _ _
  | call name arguments =>
    unfold write writeCall Naming.code Naming.after
    dsimp only
    split
    · rfl
    · exact announce_emit _ _ _
  | ret => exact announce_emit _ _ _

/-- What a session does with a bootstrap: it refuses it once anything was written, and otherwise sets
the stack pointer and calls the entry point. -/
theorem writeBootstrap_run (s : Session) :
    writeBootstrap s =
      if s.started then .error .bootstrapOrder s
      else match emit (.comment "bootstrap" :: setStackPointer s.stackBase) (s.trace "bootstrap") with
        | .ok _ t => write (.call s.entryPoint 0) t
        | .error e t => .error e t := by
  have opened : writeBootstrap s =
      (if s.started then throw .bootstrapOrder else do
        announce "bootstrap"
        emit (setStackPointer (← get).stackBase)
        writeCall (← get).entryPoint 0 : Emit Unit) s := by
    obtain ⟨stackBase, entryPoint, function, labels, calls, unit, started, lines, sink, log⟩ := s
    cases started <;> rfl
  rw [opened]
  split
  · rfl
  · have regroup : (do
          announce "bootstrap"
          emit (setStackPointer (← get).stackBase)
          writeCall (← get).entryPoint 0 : Emit Unit) =
        ((do announce "bootstrap"; emit (setStackPointer (← get).stackBase)) >>=
          fun _ => get >>= fun t => writeCall t.entryPoint 0) := by
      simp only [bind_assoc]
    rw [regroup, bind_run, announce_emit_get "bootstrap" (fun t => setStackPointer t.stackBase) s rfl]
    cases done : emit (.comment "bootstrap" :: setStackPointer s.stackBase) (s.trace "bootstrap") with
    | error e t => rfl
    | ok _ t =>
      obtain ⟨rfl, -⟩ := emit_ok.mp done
      rfl

/-! ### Whole programs -/

def writeAll : List Command → Emit Unit
  | [] => pure ()
  | c :: rest => do
    write c
    writeAll rest

/-- Writes a program to its end: a bootstrap, if it is wanted, then commands, then what is left in the
buffer. -/
def generate (bootstrap : Bool) (cs : List Command) : Emit Unit := do
  (if bootstrap then writeBootstrap else pure ())
  writeAll cs
  flush

theorem bind_ok {α β : Type} {x : Emit α} {f : α → Emit β} {s t : Session} {b : β}
    (done : (x >>= f) s = .ok b t) : ∃ a u, x s = .ok a u ∧ f a u = .ok b t := by
  rw [bind_run] at done
  cases first : x s with
  | error e u => simp [first] at done
  | ok a u => exact ⟨a, u, rfl, by simpa [first] using done⟩

/-- A command that is written extends the text by the command and its code. -/
theorem write_ok {c : Command} {s t : Session} (done : write c s = .ok () t) :
    ∃ code, s.naming.code c = .ok code ∧ t.text = s.text ++ written (.comment c.render :: code) ∧
      t.naming = s.naming.after c ∧ t.sink.failure = none := by
  rw [write_run] at done
  cases coded : s.naming.code c with
  | error e => simp [coded] at done
  | ok code =>
    simp only [coded] at done
    obtain ⟨rfl, sound⟩ := emit_ok.mp done
    exact ⟨code, rfl, append_text sound, rfl, sound⟩

theorem writeAll_ok {cs : List Command} {s t : Session} (done : writeAll cs s = .ok () t) :
    ∃ lines, s.naming.program cs = .ok lines ∧ t.text = s.text ++ written lines ∧
      t.naming = cs.foldl Naming.after s.naming := by
  induction cs generalizing s with
  | nil =>
    obtain rfl := (EStateM.Result.ok.inj done).2
    exact ⟨[], rfl, by simp [written_nil], rfl⟩
  | cons c cs ih =>
    obtain ⟨_, u, first, later⟩ := bind_ok done
    obtain ⟨code, coded, grown, names, -⟩ := write_ok first
    obtain ⟨lines, rest, text, final⟩ := ih later
    refine ⟨.comment c.render :: code ++ lines, Naming.program_cons.mpr ⟨code, lines, coded, names ▸ rest, rfl⟩, ?_, ?_⟩
    · rw [text, grown, written_append, List.append_assoc]
    · rw [final, names, List.foldl_cons]

theorem writeBootstrap_ok {s t : Session} (done : writeBootstrap s = .ok () t) :
    s.started = false ∧
      t.text = s.text ++ written (.comment "bootstrap" :: setStackPointer s.stackBase) ++
        written (.comment (Command.call s.entryPoint 0).render ::
          callCode s.entryPoint 0 (returnLabel s.entryPoint s.calls)) ∧
      t.naming = { s.naming with calls := s.calls + 1 } := by
  rw [writeBootstrap_run] at done
  split at done
  · cases done
  · rename_i fresh
    split at done
    · rename_i u first
      obtain ⟨rfl, sound⟩ := emit_ok.mp first
      obtain ⟨code, coded, grown, names, -⟩ := write_ok done
      obtain rfl := Except.ok.inj coded
      refine ⟨by simpa using fresh, ?_, names⟩
      rw [grown, append_text sound]
      rfl
    · cases done

/-- The output of a whole program: the lines of the bootstrap, if there is one, and those of the
commands. -/
theorem generate_ok {bootstrap : Bool} {cs : List Command} {stackBase : Int} {entryPoint : Text}
    {device : Option Device} {t : Session}
    (done : generate bootstrap cs (start stackBase entryPoint device) = .ok () t) :
    ∃ lines, Naming.program { calls := if bootstrap then 1 else 0 } cs = .ok lines ∧
      t.sink.delivered.toList = written
        ((if bootstrap then bootstrapLines (start stackBase entryPoint device).stackBase
            (start stackBase entryPoint device).entryPoint else []) ++ lines) := by
  obtain ⟨_, v, begun, rest⟩ := bind_ok done
  obtain ⟨_, u, wrote, flushed⟩ := bind_ok rest
  obtain ⟨lines, coded, text, -⟩ := writeAll_ok wrote
  have empty : (start stackBase entryPoint device).text = [] := rfl
  refine ⟨lines, ?_, ?_⟩
  · cases bootstrap with
    | false =>
      obtain rfl := (EStateM.Result.ok.inj begun).2
      exact coded
    | true => exact (writeBootstrap_ok begun).2.2 ▸ coded
  · rw [(flush_ok flushed).2, text, written_append]
    congr 1
    cases bootstrap with
    | false =>
      obtain rfl := (EStateM.Result.ok.inj begun).2
      simpa [written_nil] using empty
    | true =>
      rw [(writeBootstrap_ok begun).2.1, empty, List.nil_append, ← written_append]
      rfl

/-! ### Sessions without a device -/

theorem write_free {s : Session} {c : Command} {code : List Line} (free : s.sink.device = none)
    (sound : s.sink.failure = none) (coded : s.naming.code c = .ok code) :
    ∃ t, write c s = .ok () t ∧ t.sink.device = none ∧ t.sink.failure = none ∧ t.naming = s.naming.after c := by
  obtain ⟨done, free', sound'⟩ :=
    @emit_free ((s.rename (s.naming.after c)).trace c.render) free sound (.comment c.render :: code)
  exact ⟨_, by rw [write_run, coded]; exact done, free', sound', rfl⟩

theorem writeAll_free {s : Session} {cs : List Command} {lines : List Line} (free : s.sink.device = none)
    (sound : s.sink.failure = none) (coded : s.naming.program cs = .ok lines) :
    ∃ t, writeAll cs s = .ok () t ∧ t.sink.device = none ∧ t.sink.failure = none := by
  induction cs generalizing s lines with
  | nil => exact ⟨s, rfl, free, sound⟩
  | cons c cs ih =>
    obtain ⟨code, later, first, rest, -⟩ := Naming.program_cons.mp coded
    obtain ⟨t, wrote, free', sound', names⟩ := write_free free sound first
    obtain ⟨u, all, ends⟩ := ih free' sound' (names ▸ rest)
    exact ⟨u, by rw [writeAll, bind_run, wrote]; exact all, ends⟩

/-- A session without a device that has written nothing accepts a bootstrap. -/
theorem writeBootstrap_free {s : Session} (free : s.sink.device = none) (sound : s.sink.failure = none)
    (fresh : s.started = false) :
    ∃ t, writeBootstrap s = .ok () t ∧ t.sink.device = none ∧ t.sink.failure = none ∧
      t.naming = s.naming.after (.call s.entryPoint 0) := by
  obtain ⟨emitted, free', sound'⟩ :=
    @emit_free (s.trace "bootstrap") free sound (.comment "bootstrap" :: setStackPointer s.stackBase)
  obtain ⟨t, called, ends⟩ := write_free free' sound' (show Naming.code _ (.call s.entryPoint 0) = .ok _ from rfl)
  refine ⟨t, ?_, ends⟩
  rw [writeBootstrap_run, if_neg (by simp [fresh]), emitted]
  exact called

theorem generate_accepted {bootstrap : Bool} {cs : List Command} {lines : List Line} (stackBase : Int) (entryPoint : Text)
    (coded : Naming.program { calls := if bootstrap then 1 else 0 } cs = .ok lines) :
    ∃ t, generate bootstrap cs (start stackBase entryPoint none) = .ok () t := by
  have finish : ∀ {s : Session}, s.sink.device = none → s.sink.failure = none → s.naming.program cs = .ok lines →
      ∃ t, (writeAll cs >>= fun _ => flush) s = .ok () t := by
    intro s free sound coded
    obtain ⟨t, wrote, free', sound'⟩ := writeAll_free free sound coded
    refine ⟨{ t with sink := t.sink.flush }, ?_⟩
    rw [bind_run, wrote]
    exact flush_free free' sound'
  cases bootstrap with
  | false => exact finish rfl rfl coded
  | true =>
    obtain ⟨t, begun, free, sound, names⟩ := @writeBootstrap_free (start stackBase entryPoint none) rfl rfl rfl
    obtain ⟨u, done⟩ := finish free sound (names ▸ coded)
    exact ⟨u, by rw [generate, bind_run, if_pos rfl, begun]; exact done⟩

/-- Without a device that can fail, commands that have code are accepted. -/
theorem generate_free {bootstrap : Bool} {cs : List Command} {lines : List Line} (stackBase : Int) (entryPoint : Text)
    (coded : Naming.program { calls := if bootstrap then 1 else 0 } cs = .ok lines) :
    ∃ t, generate bootstrap cs (start stackBase entryPoint none) = .ok () t ∧
      t.sink.delivered.toList = written
        ((if bootstrap then bootstrapLines (start stackBase entryPoint none).stackBase
            (start stackBase entryPoint none).entryPoint else []) ++ lines) := by
  obtain ⟨t, accepted⟩ := generate_accepted stackBase entryPoint coded
  obtain ⟨output, recoded, delivered⟩ := generate_ok accepted
  obtain rfl : lines = output := Except.ok.inj (coded.symm.trans recoded)
  exact ⟨t, accepted, delivered⟩

end Session

end HackToolchain.Emission
