import HackToolchain.CommandLine.Execute
import HackToolchain.Proofs.Build.Outcome
import HackToolchain.Proofs.CommandLine.Arguments

/-!
What a check changes about a run of the program. It writes to the log and reports what it finds, so that
every file but the log is as without it, and so is the exit code, unless the output is no assembly.
-/

namespace HackToolchain

namespace Log

theorem reaches_error {r : Record} : r.reaches .error = true ↔ r.level = .error := by
  unfold Record.reaches
  cases r.level <;> decide

/-- Records that are not shown take no place in a file. -/
theorem contents_append {format : Format} {least : Level} {output : Text} {entries added : List Entry}
    (hidden : ∀ entry ∈ added, entry.record.reaches least = false) :
    contents format least output (entries ++ added) = contents format least output entries := by
  have none : added.filter (·.record.reaches least) = [] :=
    List.filter_eq_nil_iff.mpr fun entry member => by simp [hidden entry member]
  have same : trail format least (entries ++ added) = trail format least entries := by
    simp [trail, none]
  unfold contents
  rw [same]

theorem contents_nil (format : Format) (least : Level) (output : Text) : contents format least output [] = output := by
  simp [contents, trail, List.filterMap_map]

end Log

namespace CommandLine

theorem Failure.code_ne_zero (f : Failure) : f.code ≠ 0 := by
  unfold Failure.code
  split <;> decide

/-- The file that the log of a build is written to. A log of errors only stays empty. -/
def logPlace? (tree : Tree) (s : Settings) : Option Place :=
  match openLog tree s.log with
  | .ok (place, _) => if s.log.level? = some .error then none else place
  | .error _ => none

/-- The file that the output of a build is written to. -/
def outputPlace? (tree : Tree) (s : Settings) (input : Text) : Option Place :=
  match openLog tree s.log with
  | .ok (_, opened) => Build.outputPlace? s opened input
  | .error _ => none

section Build

variable {s : Settings} {tree opened : Tree} {input : Text} {place : Option Place}

/-- The build of a run, once the log file is open. -/
def built (s : Settings) (place : Option Place) (opened : Tree) (input : Text) : Build.Outcome Emission.Session Emission.EmitError :=
  Build.run (.logging (writeLog s.log place)) s opened input (Build.sessionOf s)

theorem build_opened (opens : openLog tree s.log = .ok (place, opened)) :
    (build false s tree input).tree = writeLog s.log place (built s place opened input).state (built s place opened input).tree ∧
      (build false s tree input).code = ((built s place opened input).error.map fun e => (Failure.build e).code).getD 0 := by
  unfold build
  rw [opens]
  dsimp only
  have lenient : ∀ r, (report false s r).2 = none := by
    intro r
    simp [report]
  unfold built
  generalize Build.run (.logging (writeLog s.log place)) s opened input (Build.sessionOf s) = done
  refine ⟨rfl, ?_⟩
  rcases ended : done.error with _ | e
  · simp [Answer.code, lenient]
  · rfl

theorem openLog_free {log : Place} (s : LogSettings) (opens : openLog tree s = .ok (some log, opened)) : opened.Free log := by
  unfold openLog at opens
  split at opens
  · cases opens
  · split at opens
    · rename_i created
      obtain ⟨same, rfl⟩ := Prod.mk.inj (Except.ok.inj opens)
      obtain rfl := Option.some.inj same
      obtain ⟨free, rfl, -⟩ := Tree.create_ok created
      exact free.write [] free.inside
    · cases opens

theorem logContents_quiet {s : LogSettings} (quiet : s.level? = some .error) (output : Text) {entries added : List Log.Entry}
    (hidden : ∀ entry ∈ added, entry.record.level ≠ .error) :
    logContents s output (added ++ entries) = logContents s output entries := by
  unfold logContents
  rw [quiet, List.reverse_append]
  refine Log.contents_append fun entry member => ?_
  have level := hidden entry (List.mem_reverse.mp member)
  exact Bool.eq_false_iff.mpr fun shown => level (Log.reaches_error.mp shown)

/-! ### Trees with a log in them -/

section WriteLog

variable {s : LogSettings} {session : Emission.Session}

/-- Records that a log of errors does not show make no difference to it. -/
theorem writeLog_quiet (silent : s.level? = some .error) {other : Emission.Session} {added : List Log.Entry}
    (grown : session.log = added ++ other.log) (hidden : ∀ entry ∈ added, entry.record.level ≠ .error) :
    writeLog s place session tree = writeLog s place other tree := by
  cases place with
  | none => rfl
  | some log =>
    unfold writeLog
    dsimp only
    rw [grown, logContents_quiet silent _ hidden]

variable (free : ∀ log, place = some log → tree.Free log)

include free

theorem node?_writeLog {other : Place} (apart : place ≠ some other) :
    (writeLog s place session tree).node? other = tree.node? other := by
  cases place with
  | none => rfl
  | some log =>
    refine Tree.node?_write_of_ne _ _ (free log rfl).inside ?_
    rintro rfl
    exact apart rfl

/-- A file holds what it held, unless the log shows in it. -/
theorem contents?_writeLog {output : Place} {contents : Text} (held : tree.contents? output = some contents)
    (hidden : place = some output → s.level? = some .error ∧ Build.Quiet session) :
    (writeLog s place session tree).contents? output = some contents := by
  by_cases shared : place = some output
  · obtain ⟨silent, quiet⟩ := hidden shared
    have nothing := @logContents_quiet s silent contents [] session.log quiet
    rw [List.append_nil] at nothing
    subst shared
    rw [writeLog, Tree.contents?_write _ _ (free output rfl).inside, held, Option.getD_some, nothing, logContents, List.reverse_nil,
      Log.contents_nil]
  · rw [Tree.contents?, node?_writeLog free shared]
    exact held

theorem read_writeLog {path contents : Text} {output : Place} (located : tree.locate path = .ok output)
    (held : tree.contents? output = some contents)
    (hidden : place = some output → s.level? = some .error ∧ Build.Quiet session) :
    (writeLog s place session tree).read path = .ok contents := by
  have same : (writeLog s place session tree).locate path = .ok output := by
    cases place with
    | none => exact located
    | some log => exact Tree.resolve_write (free log rfl) _ located
  exact Tree.read_ok.mpr ⟨output, same, contents?_writeLog free held hidden⟩

end WriteLog

/-! ### A check of what was built -/

theorem built_lint (off : s.lint = false) :
    built { s with lint := true } place opened input =
      let plain := built s place opened input
      if plain.error.isSome then plain
      else Build.checkOutput (.logging (writeLog s.log place)) plain.result (writeLog s.log place plain.state plain.tree) plain.tree
        plain.state :=
  Build.run_lint off

/-- What a check adds to a build: warnings in the log. -/
theorem built_frame (off : s.lint = false) :
    let plain := built s place opened input
    let checked := built { s with lint := true } place opened input
    checked.tree = plain.tree ∧ ∃ added, checked.state.log = added ++ plain.state.log ∧ ∀ entry ∈ added, entry.record.level = .warn := by
  intro plain checked
  rw [show checked = _ from built_lint off]
  dsimp only
  split
  · exact ⟨rfl, [], rfl, by simp⟩
  · exact Build.checkOutput_frame ..

theorem built_free (opens : openLog tree s.log = .ok (place, opened)) :
    ∀ log, place = some log → (built s place opened input).tree.Free log := by
  rintro log rfl
  exact Build.run_free (openLog_free s.log opens)

theorem node?_build_lint (off : s.lint = false) {other : Place} (apart : logPlace? tree s ≠ some other) :
    (build false { s with lint := true } tree input).tree.node? other = (build false s tree input).tree.node? other := by
  cases opens : openLog tree s.log with
  | error failure => simp only [build, opens]
  | ok found =>
    obtain ⟨log, opened⟩ := found
    have free := @built_free s tree opened input log opens
    obtain ⟨trees, added, grown, warnings⟩ := @built_frame s opened input log off
    rw [(build_opened opens).1, (@build_opened { s with lint := true } _ _ _ _ opens).1]
    show (writeLog s.log log _ _).node? other = _
    rw [trees]
    -- A log of errors only shows none of the warnings. Any other log is not in the place asked about.
    by_cases silent : s.log.level? = some .error
    · rw [writeLog_quiet silent grown]
      intro entry member
      rw [warnings entry member]
      intro same
      cases same
    · have elsewhere : log ≠ some other := by simpa [logPlace?, opens, silent] using apart
      rw [node?_writeLog free elsewhere, node?_writeLog free elsewhere]

/-- The output of a build that succeeded is what was delivered, unless it is written into by the log. It is found
there by a check and stays there in the end. -/
theorem build_output (off : s.lint = false) (opens : openLog tree s.log = .ok (place, opened))
    (apart : ∀ output, outputPlace? tree s input = some output → logPlace? tree s ≠ some output)
    (succeeded : (built s place opened input).error = none) :
    let plain := built s place opened input
    ∃ output, outputPlace? tree s input = some output ∧
      (build false s tree input).tree.contents? output = some plain.state.sink.delivered.toList ∧
      (writeLog s.log place plain.state plain.tree).read plain.result.output = .ok plain.state.sink.delivered.toList := by
  intro plain
  obtain ⟨output, located, contents, led⟩ := @Build.run_output _ _ (.logging (writeLog s.log place)) s opened input (Build.sessionOf s)
    (fun _ _ => rfl) off succeeded
  have located : outputPlace? tree s input = some output := by simpa only [outputPlace?, opens] using located
  have quiet : Build.Quiet plain.state := Build.run_quiet (writeLog s.log place) off
  have free := @built_free s tree opened input place opens
  have hidden : place = some output → s.log.level? = some .error ∧ Build.Quiet plain.state := by
    intro shared
    refine ⟨Decidable.byContradiction fun shown => apart output located ?_, quiet⟩
    simp [logPlace?, opens, shown, shared]
  refine ⟨output, located, ?_, read_writeLog free led contents hidden⟩
  rw [(build_opened opens).1]
  exact contents?_writeLog free contents hidden

/-- A run that succeeded although its output is no assembly. -/
def Unreadable (o : Outcome) (output : Option Place) : Prop :=
  o.code = 0 ∧ ∃ place source cause, output = some place ∧ o.tree.contents? place = some source ∧
    Assembly.parse source = .error cause

theorem code_build_lint (off : s.lint = false)
    (apart : ∀ output, outputPlace? tree s input = some output → logPlace? tree s ≠ some output) :
    (Unreadable (build false s tree input) (outputPlace? tree s input) → (build false { s with lint := true } tree input).code = 3) ∧
      (¬ Unreadable (build false s tree input) (outputPlace? tree s input) →
        (build false { s with lint := true } tree input).code = (build false s tree input).code) := by
  cases opens : openLog tree s.log with
  | error failure =>
    have same : build false { s with lint := true } tree input = build false s tree input := by simp only [build, opens]
    have nowhere : outputPlace? tree s input = none := by simp only [outputPlace?, opens]
    rw [same, nowhere]
    refine ⟨?_, fun _ => rfl⟩
    rintro ⟨-, place, source, cause, impossible, -⟩
    cases impossible
  | ok found =>
    obtain ⟨log, opened⟩ := found
    have plainCode := (@build_opened s tree opened input log opens).2
    have checkedCode := (@build_opened { s with lint := true } tree opened input log opens).2
    have output := @build_output s tree opened input log off opens apart
    rw [built_lint off] at checkedCode
    dsimp only at checkedCode
    cases ended : (built s log opened input).error with
    | some e =>
      rw [ended, Option.isSome_some, if_pos rfl, ended] at checkedCode
      rw [ended] at plainCode
      rw [plainCode, checkedCode]
      refine ⟨?_, fun _ => rfl⟩
      rintro ⟨succeeded, -⟩
      rw [plainCode] at succeeded
      exact absurd succeeded (Failure.code_ne_zero _)
    | none =>
      -- What the check reads is what was delivered, and that is what the output holds in the end.
      obtain ⟨place, located, contents, found⟩ := output ended
      rw [ended, Option.isSome_none, if_neg Bool.false_ne_true, Build.checkOutput_error found] at checkedCode
      rw [ended] at plainCode
      cases parsed : Assembly.parse (built s log opened input).state.sink.delivered.toList with
      | error cause =>
        rw [parsed] at checkedCode
        exact ⟨fun _ => checkedCode, fun readable => absurd ⟨plainCode, place, _, cause, located, contents, parsed⟩ readable⟩
      | ok instructions =>
        rw [parsed] at checkedCode
        refine ⟨?_, fun _ => checkedCode.trans plainCode.symm⟩
        rintro ⟨-, other, source, cause, located', contents', failed⟩
        obtain rfl := Option.some.inj (located.symm.trans located')
        obtain rfl := Option.some.inj (contents.symm.trans contents')
        cases parsed.symm.trans failed

/-- A checked run leaves all files but the log as the plain one does, its output among them, and ends with the
same exit code, unless the plain one succeeds with an output that is no assembly. -/
structure Undisturbed (plain checked : Outcome) (log output : Option Place) : Prop where
  files : ∀ place, log ≠ some place → checked.tree.node? place = plain.tree.node? place
  bytes : ∀ place, output = some place → checked.tree.contents? place = plain.tree.contents? place
  fails : Unreadable plain output → checked.code = 3
  code : ¬ Unreadable plain output → checked.code = plain.code

theorem undisturbed_build (off : s.lint = false)
    (apart : ∀ output, outputPlace? tree s input = some output → logPlace? tree s ≠ some output) :
    Undisturbed (build false s tree input) (build false { s with lint := true } tree input) (logPlace? tree s)
      (outputPlace? tree s input) where
  files _ elsewhere := node?_build_lint off elsewhere
  bytes place located := by rw [Tree.contents?, node?_build_lint off (apart place located), Tree.contents?]
  fails := (code_build_lint off apart).1
  code := (code_build_lint off apart).2

theorem undisturbed_none {plain checked : Outcome} {log : Option Place} (trees : checked.tree = plain.tree)
    (codes : checked.code = plain.code) : Undisturbed plain checked log none where
  files place _ := by rw [trees]
  bytes place located := by cases located
  fails := by
    rintro ⟨-, place, source, cause, impossible, -⟩
    cases impossible
  code _ := codes

end Build

/-! ### Whole runs -/

/-- The build that arguments ask for: its settings and its input. -/
def buildOf? (lib : Libraries) (tree : Tree) (arguments : List Text) : Option (Settings × Text) :=
  match lib.request arguments with
  | .translation o input => (settingsOf lib tree o).toOption.map (·, input)
  | .answer _ => none

def logFile? (lib : Libraries) (tree : Tree) (arguments : List Text) : Option Place :=
  (buildOf? lib tree arguments).bind fun (s, _) => logPlace? tree s

def outputFile? (lib : Libraries) (tree : Tree) (arguments : List Text) : Option Place :=
  (buildOf? lib tree arguments).bind fun (s, input) => outputPlace? tree s input

theorem settingsOf_linted (lib : Libraries) (tree : Tree) (o : Options) (given : List Flag) :
    settingsOf lib tree { o with given, lint := true } = (settingsOf lib tree o).map fun s => { s with lint := true } := by
  have overridden : ∀ s, override { o with given, lint := true } s = { override o s with lint := true } := by
    intro s
    simp [override]
  have valid : ∀ s : Settings, Settings.invalid? { s with lint := true } = s.invalid? := fun _ => rfl
  unfold settingsOf
  dsimp only
  split
  · rfl
  · simp only [overridden, valid]
    split <;> rfl

theorem strict_of_settingsOf {lib : Libraries} {tree : Tree} {o : Options} {s : Settings} (found : settingsOf lib tree o = .ok s)
    (off : s.lint = false) : o.strict = false := by
  unfold settingsOf at found
  dsimp only at found
  split at found
  · cases found
  · split at found
    · cases found
    · obtain rfl := Except.ok.inj found
      simp only [override, Bool.or_eq_false_iff] at off
      exact off.2

/-- Asking for a check changes nothing outside strict mode but the log, and the exit code where the output is no
assembly; as long as the log is not written into the output, and whatever libraries read the arguments read the flag
as such. -/
theorem lint_undisturbed (lib : Libraries) {tree : Tree} {arguments : List Text}
    (added : (lib.request arguments).Linted (lib.request ("--lint" :: arguments)))
    (off : ∀ s input, buildOf? lib tree arguments = some (s, input) → s.lint = false)
    (apart : ∀ place, outputFile? lib tree arguments = some place → logFile? lib tree arguments ≠ some place) :
    Undisturbed (execute lib tree arguments) (execute lib tree ("--lint" :: arguments)) (logFile? lib tree arguments)
      (outputFile? lib tree arguments) := by
  unfold execute
  cases asked : lib.request arguments with
  | answer a =>
    have nowhere : outputFile? lib tree arguments = none := by simp [outputFile?, buildOf?, asked]
    rw [asked] at added
    generalize lib.request ("--lint" :: arguments) = checked at added
    rw [nowhere]
    cases added with
    | answer same => exact undisturbed_none rfl same
  | translation o input =>
    rw [asked] at added
    generalize lib.request ("--lint" :: arguments) = checked at added
    cases added with
    | translation _ given =>
      simp only [translate, settingsOf_linted]
      cases found : settingsOf lib tree o with
      | error failure =>
        have nowhere : outputFile? lib tree arguments = none := by simp [outputFile?, buildOf?, asked, found, Except.toOption]
        rw [nowhere]
        exact undisturbed_none rfl rfl
      | ok s =>
        have wanted : buildOf? lib tree arguments = some (s, input) := by simp [buildOf?, asked, found, Except.toOption]
        have lint := off s input wanted
        have lenient := strict_of_settingsOf found lint
        simp only [logFile?, outputFile?, wanted, Option.bind_some] at apart ⊢
        simp only [Except.map, lenient]
        exact undisturbed_build lint apart

def single (source : Text) : Tree := { nodes := [(["Main.vm"], .file source)], here := [] }

def logging (file : Text) : List Text := ["--no-bootstrap", "--log-level", "warn", "--log-file", file, "Main.vm"]

/-- A jump to nowhere is reported and tolerated. A constant that cannot be loaded is not. -/
theorem lint_undisturbed_single :
    ((execute .standard (single "goto X\n") ("--lint" :: logging "Main.log")).code = 0 ∧
      (execute .standard (single "goto X\n") ("--lint" :: logging "Main.log")).tree.contents? ["Main.asm"] = some "// goto X\n@X\n0;JMP\n") ∧
    (execute .standard (single "push constant 99999\n") ("--lint" :: logging "Main.log")).code = 3 := by
  have unsaid : ∀ o others, Options.ofArguments (logging "Main.log") {} = .ok (o, others) → .lint ∉ o.given := by
    intro o others read
    obtain ⟨rfl, -⟩ := Prod.mk.inj (Except.ok.inj read)
    decide
  have typed : ∀ request, CompletionRequest.ofArguments? (logging "Main.log") = some request → request.arguments ≠ [] := by
    intro request asked
    cases (show CompletionRequest.ofArguments? (logging "Main.log") = none by decide).symm.trans asked
  have undisturbed {source : Text} (lint : (buildOf? .standard (single source) (logging "Main.log")).map (·.1.lint) = some false)
      (output : outputFile? .standard (single source) (logging "Main.log") = some (["Main.asm"] : Place))
      (log : logFile? .standard (single source) (logging "Main.log") = some (["Main.log"] : Place)) :
      Undisturbed (execute .standard (single source) (logging "Main.log")) (execute .standard (single source) ("--lint" :: logging "Main.log"))
        (some ["Main.log"]) (some ["Main.asm"]) := by
    rw [← log, ← output]
    refine lint_undisturbed .standard (Request.linted_ofArguments unsaid typed) (fun s input built => ?_)
      (fun place located shared => ?_)
    · rw [built] at lint
      exact Option.some.inj lint
    · rw [output] at located
      rw [log, ← located] at shared
      exact absurd shared (by decide)
  constructor
  · have plain := @undisturbed "goto X\n" (by decide +kernel) (by decide +kernel) (by decide +kernel)
    have bytes : (execute .standard (single "goto X\n") (logging "Main.log")).tree.contents? ["Main.asm"] =
        some ("// goto X\n@X\n0;JMP\n" : Text) := by decide +kernel
    have parsed : (Assembly.parse "// goto X\n@X\n0;JMP\n").isOk = true := by decide +kernel
    refine ⟨(plain.code ?_).trans (by decide +kernel), (plain.bytes _ rfl).trans bytes⟩
    rintro ⟨-, place, source, cause, located, contents, failed⟩
    obtain rfl := Option.some.inj located
    obtain rfl := Option.some.inj (bytes.symm.trans contents)
    rw [failed] at parsed
    cases parsed
  · have plain := @undisturbed "push constant 99999\n" (by decide +kernel) (by decide +kernel) (by decide +kernel)
    have bytes : (execute .standard (single "push constant 99999\n") (logging "Main.log")).tree.contents? ["Main.asm"] =
        some ("// push constant 99999\n@99999\nD=A\n@SP\nA=M\nM=D\n@SP\nM=M+1\n" : Text) := by decide +kernel
    have failed : (Assembly.parse "// push constant 99999\n@99999\nD=A\n@SP\nA=M\nM=D\n@SP\nM=M+1\n").isOk = false := by
      decide +kernel
    cases parsed : Assembly.parse "// push constant 99999\n@99999\nD=A\n@SP\nA=M\nM=D\n@SP\nM=M+1\n" with
    | error cause => exact plain.fails ⟨by decide +kernel, _, _, cause, rfl, bytes, parsed⟩
    | ok instructions =>
      rw [parsed] at failed
      cases failed

/-- The two runs that a check disturbs: its failure shows in the exit code, and its warnings in an output that is
the log file. -/
theorem lint_disturbs :
    ((execute .standard (single "push constant 99999\n") ["--no-bootstrap", "Main.vm"]).code = 0 ∧
      (execute .standard (single "push constant 99999\n") ["--lint", "--no-bootstrap", "Main.vm"]).code = 3) ∧
    ((execute .standard (single "goto X\n") (logging "Main.asm")).tree.contents? ["Main.asm"] = some "// goto X\n@X\n0;JMP\n" ∧
      (execute .standard (single "goto X\n") ("--lint" :: logging "Main.asm")).tree.contents? ["Main.asm"] ≠
        some "// goto X\n@X\n0;JMP\n") := by
  refine ⟨⟨?_, ?_⟩, ⟨?_, ?_⟩⟩
  all_goals decide +kernel

end CommandLine

end HackToolchain
