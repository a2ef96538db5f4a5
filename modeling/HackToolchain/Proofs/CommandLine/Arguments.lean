import HackToolchain.CommandLine.Request

/-!
A flag in front of all others. Whether arguments can be read does not depend on the options they are read
into, and a check that is asked for in front of arguments that do not mention it is asked for in the end.
Arguments then ask for the same translation, but a checked one.
-/

namespace HackToolchain.CommandLine.Options

/-- The options with a check asked for before everything else. -/
def linted (o : Options) : Options := { o with given := o.given ++ [.lint], lint := true }

/-- Options that differ in a check asked for at first, as long as nothing else was said about it. -/
def Ahead (o o' : Options) : Prop := .lint ∉ o.given → o' = o.linted

/-- Two readings that fail alike, or else agree but for a check asked for at first. -/
def Alike {α : Type} : Except UsageError (Options × α) → Except UsageError (Options × α) → Prop
  | .error e, .error e' => e = e'
  | .ok (o, a), .ok (o', a') => Ahead o o' ∧ a = a'
  | _, _ => False

theorem Alike.error {α : Type} {e : UsageError} {r' : Except UsageError (Options × α)} (alike : Alike (.error e) r') :
    r' = .error e := by
  cases r' with
  | error e' => rw [show e = e' from alike]
  | ok => exact alike.elim

theorem Alike.ok {α : Type} {o : Options} {a : α} {r' : Except UsageError (Options × α)} (alike : Alike (.ok (o, a)) r') :
    ∃ o', r' = .ok (o', a) ∧ Ahead o o' := by
  cases r' with
  | error e' => exact alike.elim
  | ok found =>
    obtain ⟨ahead, rfl⟩ := alike
    exact ⟨_, rfl, ahead⟩

theorem Ahead.setSwitch {o o' : Options} (ahead : Ahead o o') (flag : Flag) (on : Bool) :
    Ahead (o.setSwitch flag on) (o'.setSwitch flag on) := by
  intro unsaid
  have given : flag :: o.given = (o.setSwitch flag on).given := by cases flag <;> rfl
  rw [← given] at unsaid
  obtain ⟨other, earlier⟩ := not_or.mp (fun said => unsaid (List.mem_cons.mpr said))
  -- Flags set different fields, but for a check that is asked for again.
  rw [ahead earlier]
  cases flag <;> first | rfl | exact absurd rfl other

theorem Ahead.setText {o o' : Options} (ahead : Ahead o o') (flag : Flag) (value : Text) :
    Ahead (o.setText flag value) (o'.setText flag value) := by
  intro unsaid
  have given : flag :: o.given = (o.setText flag value).given := by cases flag <;> rfl
  rw [← given] at unsaid
  obtain ⟨other, earlier⟩ := not_or.mp (fun said => unsaid (List.mem_cons.mpr said))
  rw [ahead earlier]
  cases flag <;> rfl

section Reading

variable {o o' : Options} (ahead : Ahead o o')

include ahead

theorem alike_set {α : Type} (flag : Flag) (value : Text) (a : α) :
    Alike ((o.set flag value).map (·, a)) ((o'.set flag value).map (·, a)) := by
  unfold set
  split
  · cases switch? value with
    | none => rfl
    | some on => exact ⟨ahead.setSwitch flag on, rfl⟩
  · exact ⟨ahead.setText flag value, rfl⟩

theorem alike_setLetters (letters : Text) : Alike (setLetters letters o) (setLetters letters o') := by
  induction letters generalizing o o' with
  | nil => exact ⟨ahead, rfl⟩
  | cons letter rest ih =>
    unfold setLetters
    split
    · exact ⟨ahead, rfl⟩
    · cases Flag.ofLetter? letter with
      | none => rfl
      | some flag =>
        dsimp only
        split
        · exact alike_set ahead flag _ none
        · split
          · exact ih (ahead.setSwitch flag true)
          · split
            · exact ⟨ahead, rfl⟩
            · exact ⟨ahead.setText flag rest, rfl⟩

theorem alike_setNamed (argument name : Text) : Alike (setNamed argument name o) (setNamed argument name o') := by
  unfold setNamed
  split
  · rfl
  · dsimp only
    cases Flag.ofName? (Text.cut 61 name).1 with
    | none => rfl
    | some flag =>
      cases (Text.cut 61 name).2 with
      | some value => exact alike_set ahead flag value none
      | none =>
        dsimp only
        split
        · exact ⟨ahead.setSwitch flag true, rfl⟩
        · exact ⟨ahead, rfl⟩

end Reading

theorem alike_ofArguments {o o' : Options} (ahead : Ahead o o') (arguments : List Text) :
    Alike (ofArguments arguments o) (ofArguments arguments o') := by
  match arguments with
  | [] => exact ⟨ahead, rfl⟩
  | argument :: rest =>
    unfold ofArguments
    split
    · exact ⟨ahead, rfl⟩
    · -- Whether a flag waits for the next argument depends on the flag alone.
      rename_i name _
      have alike := alike_setNamed ahead (45 :: 45 :: name) name
      cases read : setNamed (45 :: 45 :: name) name o with
      | error e =>
        rw [read] at alike
        rw [alike.error]
        rfl
      | ok found =>
        obtain ⟨next, awaiting⟩ := found
        rw [read] at alike
        obtain ⟨next', read', ahead'⟩ := alike.ok
        rw [read']
        match awaiting, rest with
        | none, rest => exact alike_ofArguments ahead' rest
        | some flag, [] => rfl
        | some flag, value :: rest => exact alike_ofArguments (ahead'.setText flag value) rest
    · rename_i letter letters _ _
      have alike := alike_setLetters ahead (letter :: letters)
      cases read : setLetters (letter :: letters) o with
      | error e =>
        rw [read] at alike
        rw [alike.error]
        rfl
      | ok found =>
        obtain ⟨next, awaiting⟩ := found
        rw [read] at alike
        obtain ⟨next', read', ahead'⟩ := alike.ok
        rw [read']
        match awaiting, rest with
        | none, rest => exact alike_ofArguments ahead' rest
        | some (flag, last), [] => rfl
        | some (flag, last), value :: rest => exact alike_ofArguments (ahead'.setText flag value) rest
    · have alike := alike_ofArguments ahead rest
      cases read : ofArguments rest o with
      | error e =>
        rw [read] at alike
        rw [alike.error]
        rfl
      | ok found =>
        obtain ⟨next, others⟩ := found
        rw [read] at alike
        obtain ⟨next', read', ahead'⟩ := alike.ok
        rw [read']
        exact ⟨ahead', rfl⟩

theorem alike_lint (arguments : List Text) : Alike (ofArguments arguments {}) (ofArguments ("--lint" :: arguments) {}) :=
  @alike_ofArguments {} (linted {}) (fun _ => rfl) arguments

end HackToolchain.CommandLine.Options

namespace HackToolchain.CommandLine.CompletionRequest

/-- A check asked for in front does not hide a question of a shell, but becomes part of it. -/
theorem firstWord_lint (arguments : List Text) :
    firstWord ("--lint" :: arguments) = (firstWord arguments).map fun (word, others) => (word, "--lint" :: others) := by
  cases arguments with
  | nil => rfl
  | cons next rest =>
    have plain : awaitsValue "--lint" = false := by decide
    rw [firstWord, if_neg (by decide), plain, if_neg (by decide), if_pos (.inr (by decide))]

theorem ofArguments?_lint (arguments : List Text) :
    ofArguments? ("--lint" :: arguments) =
      (ofArguments? arguments).map fun request => { request with arguments := "--lint" :: request.arguments } := by
  unfold ofArguments?
  rw [firstWord_lint]
  cases firstWord arguments with
  | none => rfl
  | some found =>
    obtain ⟨word, others⟩ := found
    simp only [Option.map_some]
    split
    · rfl
    · split <;> rfl

end HackToolchain.CommandLine.CompletionRequest

namespace HackToolchain.CommandLine.Request

/-- What a check in front of arguments may change about what they ask for. A translation is checked and otherwise
stays as it is, and an answer keeps its exit code. -/
inductive Linted : Request → Request → Prop
  | translation (o : Options) (given : List Flag) (input : Text) :
    Linted (.translation o input) (.translation { o with given, lint := true } input)
  | answer {a a' : Answer} (same : a'.code = a.code) : Linted (.answer a) (.answer a')

theorem complete_lint {question : CompletionRequest} (typed : question.arguments ≠ []) :
    (complete { question with arguments := "--lint" :: question.arguments }).code = (complete question).code := by
  have last : (("--lint" : Text) :: question.arguments).getLast? = question.arguments.getLast? := by
    cases arguments : question.arguments with
    | nil => exact absurd arguments typed
    | cons => rfl
  unfold complete
  simp only [last]
  cases question.arguments.getLast? <;> rfl

/-- Arguments that do not mention a check are read alike with one in front of them, unless a shell asks for the
completion of nothing. -/
theorem linted_ofArguments {arguments : List Text}
    (unsaid : ∀ o others, Options.ofArguments arguments {} = .ok (o, others) → .lint ∉ o.given)
    (typed : ∀ question, CompletionRequest.ofArguments? arguments = some question → question.arguments ≠ []) :
    Linted (ofArguments arguments) (ofArguments ("--lint" :: arguments)) := by
  have alike := Options.alike_lint arguments
  unfold ofArguments
  rw [CompletionRequest.ofArguments?_lint]
  cases asked : CompletionRequest.ofArguments? arguments with
  | some question => exact .answer (complete_lint (typed question asked))
  | none =>
    cases read : Options.ofArguments arguments {} with
    | error e =>
      rw [read] at alike
      rw [alike.error]
      exact .answer rfl
    | ok found =>
      obtain ⟨o, others⟩ := found
      rw [read] at alike
      obtain ⟨o', read', ahead⟩ := alike.ok
      obtain rfl := ahead (unsaid o others read)
      rw [read']
      -- Whether help is asked for is left as it is by the check.
      show Linted (if o.help then _ else _) (if o.help then _ else _)
      split
      · exact .answer rfl
      · match others with
        | [] => exact .answer rfl
        | [input] => exact .translation o (o.given ++ [.lint]) input
        | _ :: _ :: _ => exact .answer rfl

end HackToolchain.CommandLine.Request
