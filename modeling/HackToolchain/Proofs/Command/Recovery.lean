import HackToolchain.Proofs.Command.Reader
import Mathlib.Data.List.Forall2

/-!
Reading on behind errors. A reader that is called until its source ends gives one result for each line with a
token, in the order of the lines and with their numbers, whatever the results in front of it were.
-/

namespace HackToolchain

namespace Reader

/-- Nothing is read behind the end of a source or a line that is too long. -/
def Item.ends : Item → Bool
  | .command _ | .failure (.malformed _) => false
  | .failure (.tooLong _) | .finished => true

/-- The results of calls one after the other, up to the one that ends the source, each with the line that the
reader is at after the call. -/
inductive Yields : Reader → List (Item × Nat) → Prop
  | last {r later : Reader} {found : Item} (called : r.next = (found, later)) (ends : found.ends = true) :
    Yields r [(found, later.line)]
  | onward {r later : Reader} {found : Item} {results : List (Item × Nat)} (called : r.next = (found, later))
    (more : found.ends = false) (rest : Yields later results) : Yields r ((found, later.line) :: results)

/-! ### Calls -/

variable {unit : Text} {n line : Nat} {content : Text} {rest : List (Text × Nat)} {overflows : Bool}

def ending (unit : Text) (overflows : Bool) : Item := if overflows then .failure (.tooLong unit) else .finished

theorem ending_ends (unit : Text) (overflows : Bool) : (ending unit overflows).ends = true := by
  cases overflows <;> rfl

theorem item?_continues {found : Item} (read : item? unit content n = some found) : found.ends = false := by
  unfold item? at read
  dsimp only at read
  split at read
  · cases read
  · obtain rfl := Option.some.inj read
    split <;> rfl

theorem next_nil : next ⟨unit, line, [], overflows⟩ = (ending unit overflows, ⟨unit, line, [], overflows⟩) := rfl

theorem go_pending (pending others : List (Text × Nat)) :
    next.go ⟨unit, line, others, overflows⟩ pending = next ⟨unit, line, pending, overflows⟩ := by
  have same : ∀ kept, next.go ⟨unit, line, others, overflows⟩ pending = next.go ⟨unit, line, kept, overflows⟩ pending := by
    intro kept
    induction pending with
    | nil => rfl
    | cons first pending ih =>
      simp only [next.go]
      split
      · exact ih
      · rfl
  exact same pending

theorem next_blank (blank : item? unit content n = none) :
    next ⟨unit, line, (content, n) :: rest, overflows⟩ = next ⟨unit, line, rest, overflows⟩ := by
  rw [next, next.go, blank]
  exact go_pending rest _

theorem next_found {found : Item} (read : item? unit content n = some found) :
    next ⟨unit, line, (content, n) :: rest, overflows⟩ = (found, ⟨unit, n, rest, overflows⟩) := by
  rw [next, next.go, read]

/-! ### Runs -/

theorem yields_last {r later : Reader} {found : Item} (called : r.next = (found, later)) (ends : found.ends = true)
    {results : List (Item × Nat)} : Yields r results ↔ results = [(found, later.line)] := by
  constructor
  · intro yields
    cases yields with
    | last again _ =>
      obtain ⟨rfl, rfl⟩ := Prod.mk.inj (called.symm.trans again)
      rfl
    | onward again more _ =>
      obtain ⟨rfl, rfl⟩ := Prod.mk.inj (called.symm.trans again)
      rw [ends] at more
      cases more
  · rintro rfl
    exact .last called ends

theorem yields_onward {r later : Reader} {found : Item} (called : r.next = (found, later)) (more : found.ends = false)
    {results : List (Item × Nat)} :
    Yields r results ↔ ∃ tail, Yields later tail ∧ results = (found, later.line) :: tail := by
  constructor
  · intro yields
    cases yields with
    | last again ends =>
      obtain ⟨rfl, rfl⟩ := Prod.mk.inj (called.symm.trans again)
      rw [more] at ends
      cases ends
    | onward again _ tail =>
      obtain ⟨rfl, rfl⟩ := Prod.mk.inj (called.symm.trans again)
      exact ⟨_, tail, rfl⟩
  · rintro ⟨tail, yields, rfl⟩
    exact .onward called more yields

theorem Yields.congr {r s : Reader} (same : r.next = s.next) {results : List (Item × Nat)} (yields : Yields r results) :
    Yields s results := by
  cases yields with
  | last called ends => exact .last (same ▸ called) ends
  | onward called more tail => exact .onward (same ▸ called) more tail

theorem items_blank (blank : item? unit content n = none) :
    items ⟨unit, line, (content, n) :: rest, overflows⟩ = items ⟨unit, line, rest, overflows⟩ := by
  simp only [items, List.filterMap_cons, blank, Option.map_none]

theorem items_found {found : Item} (read : item? unit content n = some found) :
    items ⟨unit, line, (content, n) :: rest, overflows⟩ = (found, n) :: items ⟨unit, n, rest, overflows⟩ := by
  simp only [items, List.filterMap_cons, read, Option.map_some, List.getLast?_cons, List.cons_append, Option.getD_some]
  rw [← Option.getD_map Prod.snd]

/-- Calls one after the other give what is read of the source as a whole. -/
theorem yields_iff {r : Reader} {results : List (Item × Nat)} : Yields r results ↔ results = r.items := by
  obtain ⟨unit, line, pending, overflows⟩ := r
  induction pending generalizing line results with
  | nil => exact yields_last next_nil (ending_ends unit overflows)
  | cons first rest ih =>
    obtain ⟨content, n⟩ := first
    cases read : item? unit content n with
    | none =>
      rw [items_blank read, ← ih line]
      exact ⟨.congr (next_blank read), .congr (next_blank read).symm⟩
    | some found =>
      rw [items_found read, yields_onward (next_found read) (item?_continues read)]
      simp only [ih n, exists_eq_left]

/-! ### Lines -/

/-- What is left of a line when its comment and the white space around it are cut off. -/
def code (line : Text) : Text := (Lines.dropReturn line).beforeComment.trim

/-- The result of a line by itself: what its tokens make, and its number. -/
inductive Answers (unit line : Text) (n : Nat) : Item × Nat → Prop
  | command {word : Text} {operands : List Text} {c : Command} (tokens : (code line).fields = word :: operands)
    (read : Command.ofTokens word operands = .ok c) : Answers unit line n (.command c, n)
  | malformed {word : Text} {operands : List Text} {cause : Command.Malformed}
    (tokens : (code line).fields = word :: operands) (refused : Command.ofTokens word operands = .error cause) :
    Answers unit line n (.failure (.malformed { unit, line := n, text := code line, cause }), n)

theorem fields_code (line : Text) : (code line).fields = line.beforeComment.fields := by
  rw [code, Text.trim_fields, Text.dropReturn_fields]

theorem code_eq_nil {line : Text} : code line = [] ↔ line.beforeComment.fields = [] := by
  rw [code, Text.trim_eq_nil, Text.dropReturn_fields]

theorem Answers.found {line : Text} {answer : Item × Nat} (answers : Answers unit line n answer) :
    (item? unit (Lines.dropReturn line) n).map (·, n) = some answer := by
  cases answers with
  | command tokens read =>
    rw [fields_code] at tokens
    rw [item?_read tokens read]
    rfl
  | malformed tokens refused =>
    rw [fields_code] at tokens
    rw [item?_malformed tokens refused]
    rfl

theorem Answers.unique {line : Text} {answer other : Item × Nat} (first : Answers unit line n answer)
    (second : Answers unit line n other) : answer = other :=
  Option.some.inj (first.found.symm.trans second.found)

theorem item?_answers {line : Text} (token : line.beforeComment.fields ≠ []) :
    ∃ found, item? unit (Lines.dropReturn line) n = some found ∧ Answers unit line n (found, n) := by
  obtain ⟨word, operands, tokens⟩ := List.exists_cons_of_ne_nil token
  have decoded : (code line).fields = word :: operands := (fields_code line).trans tokens
  cases read : Command.ofTokens word operands with
  | ok c => exact ⟨_, item?_read tokens read, .command decoded read⟩
  | error cause => exact ⟨_, item?_malformed tokens read, .malformed decoded read⟩

/-- Lines are answered one by one, those without a token left out. -/
theorem answers_lines (unit : Text) (n : Nat) (lines : List Text) :
    List.Forall₂ (fun l answer => Answers unit l.1 l.2 answer)
      ((lines.zipIdx n).filter fun l => l.1.beforeComment.fields ≠ [])
      (((lines.map Lines.dropReturn).zipIdx n).filterMap fun l => (item? unit l.1 l.2).map (·, l.2)) := by
  induction lines generalizing n with
  | nil => exact .nil
  | cons line lines ih =>
    rw [List.map_cons, List.zipIdx_cons, List.zipIdx_cons]
    by_cases blank : line.beforeComment.fields = []
    · rw [List.filter_cons_of_neg (by simp [blank]), List.filterMap_cons_none (by simp [item?_blank blank])]
      exact ih (n + 1)
    · obtain ⟨found, read, answers⟩ := @item?_answers unit n line blank
      rw [List.filter_cons_of_pos (by simp [blank]), List.filterMap_cons_some (b := (found, n)) (by simp [read])]
      exact .cons answers (ih (n + 1))

/-- Whatever the bytes of a source are, and however many of its lines are no commands, calling a reader until the
source ends gives one result for each line with a token, in order and with the number of the line. A line that is
too long ends the source in its place. No line is decoded without a token, although whether a line is passed over
is decided before it is cut into tokens. -/
theorem every_line_answered (unit source : Text) :
    ∃ results final, (∀ found, Yields (start unit source) found ↔ found = results ++ [final]) ∧
      List.Forall₂ (fun l answer => Answers unit l.1 l.2 answer)
        ((((Lines.raw source).takeWhile fun line => line.length < 65536).zipIdx 1).filter
          fun l => l.1.beforeComment.fields ≠ [])
        results ∧
      (∀ line n answer other, Answers unit line n answer → Answers unit line n other → answer = other) ∧
      final.1 = (if (Lines.raw source).any fun line => 65536 ≤ line.length then .failure (.tooLong unit) else .finished) ∧
      final.2 = (results.getLast?.map Prod.snd).getD 0 ∧
      ∀ line, (code line = [] ↔ line.beforeComment.fields = []) ∧ (code line ≠ [] → (code line).fields ≠ []) := by
  refine ⟨_, _, fun found => yields_iff, answers_lines unit 1 _, ?_, rfl, rfl, ?_⟩
  · intro line n answer other first second
    exact first.unique second
  intro line
  refine ⟨code_eq_nil, ?_⟩
  rw [fields_code, ne_eq, code_eq_nil]
  exact id

example : Yields (start "Main" "push x // no number\n\r\nadd\n")
    [(.failure (.malformed ⟨"Main", 1, "push x", .missingOperand⟩), 1), (.command (.arithmetic "add"), 3), (.finished, 3)] := by
  rw [yields_iff]
  decide +kernel

end Reader

end HackToolchain
