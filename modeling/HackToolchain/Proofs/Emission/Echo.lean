import HackToolchain.Proofs.Command.Rendering
import HackToolchain.Proofs.Emission.Assembles
import HackToolchain.Proofs.Emission.History

/-!
Comments as a copy of the program. Every command is written behind a comment that shows it, and no line of code
looks like a comment, whatever names are in it; so the program can be read off its own output.
-/

namespace HackToolchain

namespace Emission

open Session

/-- The text of a line that is a comment. -/
def commentOf : Text → Option Text
  | 47 :: 47 :: 32 :: text => some text
  | _ => none

def comments (output : Text) : List Text := (Lines.raw output).filterMap commentOf

def Line.comment? : Line → Option Text
  | .comment text => some text
  | _ => none

def commented (lines : List Line) : List Text := lines.filterMap Line.comment?

theorem commented_append (xs ys : List Line) : commented (xs ++ ys) = commented xs ++ commented ys :=
  List.filterMap_append

/-- A line of code starts with an at sign, a parenthesis, a register or an operand, and never with a slash. -/
theorem commentOf_render (l : Line) : commentOf l.render = l.comment? := by
  cases l with
  | comment text => rfl
  | address symbol => rfl
  | label symbol => rfl
  | compute dest c jump =>
    cases dest with
    | nil =>
      obtain ⟨f, memory⟩ := c
      cases f <;> cases memory <;> rfl
    | cons r dest => cases r <;> rfl

theorem routine_uncommented : Routine fun l => l.comment? = none where
  compute := rfl
  pointer _ := rfl
  number _ _ := rfl

theorem commented_code {n : Naming} {c : Command} {code : List Line} (coded : n.code c = .ok code) : commented code = [] := by
  apply List.filterMap_eq_nil_iff.mpr
  apply (routine_uncommented.code coded).mpr
  cases c with
  | arithmetic operation =>
    rw [Naming.own]
    split <;> simp [Line.comment?]
  | _ => simp [Naming.own, Line.number, Line.comment?]

/-- The comments of a program are its commands. -/
theorem commented_program {n : Naming} {cs : List Command} {lines : List Line} (coded : n.program cs = .ok lines) :
    commented lines = cs.map Command.render := by
  induction cs generalizing n lines with
  | nil =>
    obtain rfl := Except.ok.inj coded
    rfl
  | cons c cs ih =>
    obtain ⟨code, later, first, rest, rfl⟩ := Naming.program_cons.mp coded
    have head : commented (.comment c.render :: code) = [c.render] := congrArg (c.render :: ·) (commented_code first)
    rw [commented_append, head, ih rest]
    rfl

theorem commented_bootstrap (base : Int) (entryPoint : Text) :
    commented (bootstrapLines base entryPoint) =
      [Text.ofString "bootstrap", Text.ofString "call " ++ entryPoint ++ Text.ofString " 0"] := by
  have call : (Command.call entryPoint 0).render = Text.ofString "call " ++ entryPoint ++ Text.ofString " 0" :=
    List.append_assoc _ _ _
  rw [← call]
  rfl

/-! ### Lines of the output -/

/-- Lines that are written as one line each. -/
def Unbroken (lines : List Line) : Prop := ∀ l ∈ lines, Text.newline ∉ l.render

theorem Legible.unbroken {lines : List Line} (legible : Legible lines) : Unbroken lines :=
  fun l member => (legible l member).1.no_newline

theorem routine_unbroken : Routine fun l => Text.newline ∉ l.render :=
  routine_legible.imp fun _ legible => legible.1.no_newline

/-- An entry point may hold what a command may not, except for a line break. -/
theorem unbroken_bootstrap (base : Int) {entryPoint : Text} (free : Text.newline ∉ entryPoint) :
    Unbroken (bootstrapLines base entryPoint) := by
  have number (n : Int) : Text.newline ∉ (Line.number n).render := (Line.legible_address (clean_ofInt n)).1.no_newline
  have back : Text.newline ∉ returnLabel entryPoint 0 := by
    show Text.newline ∉ entryPoint ++ Text.ofString "$ret." ++ Text.ofNat 0
    simp only [List.mem_append, not_or]
    exact ⟨⟨free, by decide⟩, by decide⟩
  have address {symbol : Text} (free : Text.newline ∉ symbol) : Text.newline ∉ (Line.address symbol).render := by
    show Text.newline ∉ 64 :: symbol
    exact List.not_mem_cons_of_ne_of_not_mem (by decide) free
  have label : Text.newline ∉ (Line.label (returnLabel entryPoint 0)).render := by
    show Text.newline ∉ 40 :: (returnLabel entryPoint 0 ++ [41])
    apply List.not_mem_cons_of_ne_of_not_mem (by decide)
    simp [back, show Text.newline ≠ 41 by decide]
  have call : Text.newline ∉ (Line.comment (Command.call entryPoint 0).render).render := by
    show Text.newline ∉ Text.ofString "// " ++ (Text.ofString "call " ++ entryPoint ++ Text.ofString " " ++ Text.ofInt 0)
    simp only [List.mem_append, not_or]
    exact ⟨by decide, ⟨⟨by decide, free⟩, by decide⟩, by decide⟩
  apply (routine_unbroken.bootstrap base entryPoint).mpr
  refine ⟨⟨by decide, number base⟩, call, ?_⟩
  simp [Naming.own, address free, address back, label, number]

theorem raw_unbroken {lines : List Line} (unbroken : Unbroken lines) : Lines.raw (written lines) = lines.map Line.render := by
  unfold written
  exact raw_unlines_whole (List.forall_mem_map.mpr unbroken)

/-! ### Numbers of lines -/

theorem writeAll_count {cs : List Command} {s t : Session} {lines : List Line} (coded : s.naming.program cs = .ok lines)
    (done : writeAll cs s = .ok () t) : t.lines = s.lines + lines.length := by
  induction cs generalizing s lines with
  | nil =>
    obtain rfl := Except.ok.inj coded
    obtain rfl := (EStateM.Result.ok.inj done).2
    rfl
  | cons c cs ih =>
    obtain ⟨code, later, first, rest, rfl⟩ := Naming.program_cons.mp coded
    obtain ⟨_, u, wrote, all⟩ := bind_ok done
    rcases Request.write_coded first with ⟨v, again, grown, names⟩ | ⟨e, v, failed, -⟩
    · obtain rfl := (EStateM.Result.ok.inj (wrote.symm.trans again)).2
      rw [ih (names ▸ rest) all, grown.count, List.length_append, Nat.add_assoc]
    · rw [wrote] at failed
      cases failed

theorem writeBootstrap_count {s t : Session} (done : writeBootstrap s = .ok () t) :
    t.lines = s.lines + (Request.bootstrap.lines s).length := by
  have outcome := Request.outcome_bootstrap s
  rw [show Request.bootstrap.run s = .ok () t from done] at outcome
  cases outcome with
  | granted granted => exact granted.wrote.count

theorem generate_count {bootstrap : Bool} {cs : List Command} {stackBase : Int} {entryPoint : Text} {device : Option Device}
    {lines : List Line} {t : Session} (coded : Naming.program { calls := if bootstrap then 1 else 0 } cs = .ok lines)
    (done : generate bootstrap cs (start stackBase entryPoint device) = .ok () t) :
    t.lines = (opening bootstrap (start stackBase entryPoint device) ++ lines).length := by
  obtain ⟨_, v, begun, rest⟩ := bind_ok done
  obtain ⟨_, u, wrote, flushed⟩ := bind_ok rest
  obtain ⟨rfl, -⟩ := flush_ok flushed
  have opened : v.lines = (opening bootstrap (start stackBase entryPoint device)).length ∧
      v.naming = { calls := if bootstrap then 1 else 0 } := by
    cases bootstrap with
    | false =>
      obtain rfl := (EStateM.Result.ok.inj begun).2
      exact ⟨rfl, rfl⟩
    | true => exact ⟨(writeBootstrap_count begun).trans (Nat.zero_add _), (writeBootstrap_ok begun).2.2⟩
  have all := writeAll_count (opened.2 ▸ coded) wrote
  rwa [opened.1, ← List.length_append] at all

/-! ### The program in its output -/

theorem readAll_unlines {cs : List Command} (presentable : ∀ c ∈ cs, c.Presentable) (unit : Text) :
    (Reader.start unit (Text.unlines (cs.map Command.render))).readAll = (cs, none) := by
  have free : ∀ line ∈ cs.map Command.render, Text.newline ∉ line := by
    rw [List.forall_mem_map]
    intro c member
    exact render_no_newline (presentable c member).wellFormed
  rw [Reader.readAll_iff, raw_unlines_whole free]
  exact Reader.reads_renders presentable

/-- The comments of an output are the commands it was made from, behind those of a bootstrap, and the session has counted
the lines. Without a bootstrap the comments can be read as a source: they give the same commands, and these the same
output, whatever session they are written in. -/
theorem comments_copy_program {bootstrap : Bool} {cs : List Command} {stackBase : Int} {entryPoint : Text}
    {device : Option Device} {session : Session} (readable : ∀ c ∈ cs, c.Readable)
    (line : bootstrap = true → Text.newline ∉ entryPoint)
    (accepted : generate bootstrap cs (start stackBase entryPoint device) = .ok () session) :
    let output := session.sink.delivered.toList
    comments output =
        (if bootstrap then
          [Text.ofString "bootstrap", Text.ofString "call " ++ (start stackBase entryPoint device).entryPoint ++ Text.ofString " 0"]
        else []) ++ cs.map Command.render ∧
      session.lines = (Lines.raw output).length ∧
      (bootstrap = false → ∀ unit,
        (Reader.start unit (Text.unlines (comments output))).readAll = (cs, none) ∧
          ∀ base entry,
            (∃ again, generate false (Reader.start unit (Text.unlines (comments output))).readAll.1 (start base entry none) =
              .ok () again) ∧
            ∀ other again, generate false (Reader.start unit (Text.unlines (comments output))).readAll.1 (start base entry other) =
              .ok () again → again.sink.delivered.toList = output) := by
  intro output
  obtain ⟨program, coded, delivered⟩ := generate_ok accepted
  have wellFormed : ∀ c ∈ cs, c.WellFormed := fun c member => (readable c member).wellFormed
  have unbroken : Unbroken (opening bootstrap (start stackBase entryPoint device) ++ program) := by
    refine List.forall_mem_append.mpr ⟨?_, (program_legible wellFormed Text.clean_nil coded).unbroken⟩
    cases bootstrap with
    | false => exact List.forall_mem_nil _
    | true =>
      apply unbroken_bootstrap
      show Text.newline ∉ (if entryPoint = [] then defaultEntryPoint else entryPoint)
      split
      · decide
      · exact line rfl
  have lines : Lines.raw output = (opening bootstrap (start stackBase entryPoint device) ++ program).map Line.render := by
    rw [← raw_unbroken unbroken]
    exact congrArg Lines.raw delivered
  have copied : comments output = commented (opening bootstrap (start stackBase entryPoint device)) ++ cs.map Command.render := by
    rw [comments, lines, List.filterMap_map, ← commented_program coded, ← commented_append]
    exact List.filterMap_congr fun l _ => commentOf_render l
  refine ⟨?_, ?_, ?_⟩
  · rw [copied]
    cases bootstrap with
    | false => rfl
    | true => rw [opening, if_pos rfl, if_pos rfl, commented_bootstrap]
  · rw [lines, List.length_map]
    exact generate_count coded accepted
  · rintro rfl unit
    have source : comments output = cs.map Command.render := copied
    have again := readAll_unlines (fun c member => (readable c member).presentable) unit
    rw [source, again]
    refine ⟨rfl, fun base entry => ⟨generate_accepted base entry coded, ?_⟩⟩
    intro other t done
    obtain ⟨program', recoded, redelivered⟩ := generate_ok done
    obtain rfl := Except.ok.inj (coded.symm.trans recoded)
    exact redelivered.trans delivered.symm

def slashed : List Command := [.function "f" 1, .push "constant" 7, .ifGoto "a/b", .ret]

/-- The name of an entry point may start like a comment, and that of a label hold a slash. -/
theorem comments_copy_program_slashed :
    (∃ session, generate true slashed (start 0 "// x" none) = .ok () session ∧
      comments session.sink.delivered.toList = ["bootstrap", "call // x 0", "function f 1", "push constant 7", "if-goto a/b", "return"]) ∧
    ∃ session, generate false slashed (start 0 [] none) = .ok () session ∧ session.lines = 74 ∧
      comments session.sink.delivered.toList = ["function f 1", "push constant 7", "if-goto a/b", "return"] ∧
      (Reader.start [] (Text.unlines (comments session.sink.delivered.toList))).readAll = (slashed, none) := by
  have read : (Reader.start [] "function f 01 // local\npush constant +7\n\tif-goto  a/b\nreturn\r\n").readAll.1 = slashed := by
    decide +kernel
  have readable : ∀ c ∈ slashed, c.Readable := fun c member => ⟨_, _, read ▸ member⟩
  constructor
  · obtain ⟨session, accepted, -⟩ := @generate_free true slashed _ 0 "// x" rfl
    obtain ⟨copied, -⟩ := comments_copy_program readable (by decide) accepted
    exact ⟨session, accepted, copied⟩
  · obtain ⟨session, accepted, delivered⟩ := @generate_free false slashed _ 0 [] rfl
    obtain ⟨copied, counted, again⟩ := comments_copy_program readable (by decide) accepted
    refine ⟨session, accepted, ?_, copied, (again rfl []).1⟩
    rw [counted, delivered, written]
    decide +kernel

end Emission

end HackToolchain
