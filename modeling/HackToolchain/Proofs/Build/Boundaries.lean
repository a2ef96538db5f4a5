import HackToolchain.Proofs.Build.ByLine

/-!
Where one unit ends and the next begins leaves no trace in the output. Units one after the other make a session
write what a single unit with all their lines makes it write, and both stop at the same line.
-/

namespace HackToolchain

/-! ### Errors in another place -/

/-- An error found in another unit, some lines further down. -/
def ReadError.moved (unit : Text) (offset : Nat) : ReadError → ReadError
  | .malformed e => .malformed { e with unit, line := e.line + offset }
  | .tooLong _ => .tooLong unit

def Reader.Item.moved (unit : Text) (offset : Nat) : Reader.Item → Reader.Item
  | .failure cause => .failure (cause.moved unit offset)
  | item => item

theorem Reader.item?_moved (u v content : Text) (line offset : Nat) :
    item? v content (line + offset) = (item? u content line).map (.moved v offset) := by
  unfold item?
  dsimp only
  split
  · rfl
  · split
    · rfl
    · rfl

theorem Reader.item?_failure {unit content : Text} {line : Nat} {cause : ReadError}
    (found : item? unit content line = some (.failure cause)) :
    ∃ text why, cause = .malformed { unit, line, text, cause := why } := by
  unfold item? at found
  dsimp only at found
  split at found
  · cases found
  · split at found
    · cases found
    · cases found
      exact ⟨_, _, rfl⟩

namespace Build

open Emission Session

def UnitError.moved {ε : Type} (unit : Text) (offset : Nat) : UnitError ε → UnitError ε
  | .refused _ line c cause => .refused unit (line + offset) c cause
  | .unreadable cause => .unreadable (cause.moved unit offset)
  | error => error

/-- The line of a source at which an error stops its reading: the one the error names, or the first one that
is too long. -/
def UnitError.lineIn? {ε : Type} (source : Text) : UnitError ε → Option Nat
  | .refused _ line _ _ => some line
  | .unreadable (.malformed e) => some e.line
  | .unreadable (.tooLong _) => some ((Lines.ofText source).contents.length + 1)
  | _ => none

/-! ### Sessions that differ in name only -/

/-- Sessions that differ in nothing but the name of their unit and what they have logged. -/
structure Agree (s t : Session) : Prop where
  sink : s.sink = t.sink
  naming : s.naming = t.naming
  lines : s.lines = t.lines

theorem Agree.ample {s t : Session} (agree : Agree s t) (ample : Ample s) : Ample t :=
  ⟨agree.sink ▸ ample.free, agree.sink ▸ ample.sound⟩

theorem write_agree {s t : Session} (agree : Agree s t) (ample : Ample s) {c : Command} {code : List Line}
    (coded : s.naming.code c = .ok code) :
    ∃ s' t', Emitter.session.write c s = .ok () s' ∧ Emitter.session.write c t = .ok () t' ∧ Agree s' t' ∧ Ample s' := by
  obtain ⟨s', first, ample', rfl⟩ := write_ample ample coded
  obtain ⟨t', second, -, rfl⟩ := write_ample (agree.ample ample) (agree.naming ▸ coded)
  refine ⟨_, _, first, second, ⟨?_, ?_, ?_⟩, ample'⟩
  · show s.sink.put _ = t.sink.put _
    rw [agree.sink]
  · show s.naming.after c = t.naming.after c
    rw [agree.naming]
  · show s.lines + _ = t.lines + _
    rw [agree.lines]

/-- Agreeing sessions write the same lines alike, under whatever unit and number. -/
theorem writeLines_agree {s t : Session} (agree : Agree s t) (ample : Ample s) (u v : Text) (n offset : Nat)
    (lines : List Text) (done before : Nat) :
    ∃ k stopped s' t', writeLines .session u n lines done s = (done + k, stopped, s') ∧
      writeLines .session v (n + offset) lines before t = (before + k, stopped.map (.moved v offset), t') ∧
      Agree s' t' ∧ Ample s' := by
  induction lines generalizing s t n done before with
  | nil => exact ⟨0, none, s, t, rfl, rfl, agree, ample⟩
  | cons line rest ih =>
    have next : n + offset + 1 = n + 1 + offset := by omega
    unfold writeLines
    rw [Reader.item?_moved u v, next]
    split
    · exact ⟨0, _, s, t, rfl, rfl, agree, ample⟩
    · cases Reader.item? u (Lines.dropReturn line) n with
      | none => exact ih agree ample (n + 1) done before
      | some item =>
        cases item with
        | finished => exact ih agree ample (n + 1) done before
        | failure cause => exact ⟨0, _, s, t, rfl, rfl, agree, ample⟩
        | command c =>
          dsimp only [Option.map_some, Reader.Item.moved]
          -- The code depends on the names in force, and these are the same on both sides.
          cases coded : s.naming.code c with
          | error cause =>
            rw [write_refused coded, write_refused (agree.naming ▸ coded)]
            exact ⟨0, _, s, t, rfl, rfl, agree, ample⟩
          | ok code =>
            obtain ⟨s', t', first, second, agree', ample'⟩ := write_agree agree ample coded
            rw [first, second]
            obtain ⟨k, stopped, s'', t'', left, right, ends⟩ := ih agree' ample' (n + 1) (done + 1) (before + 1)
            refine ⟨k + 1, stopped, s'', t'', ?_, ?_, ends⟩
            · rw [show done + (k + 1) = done + 1 + k by omega]
              exact left
            · rw [show before + (k + 1) = before + 1 + k by omega]
              exact right

/-! ### Where lines stop -/

section Stops

variable {σ ε : Type} {e : Emitter σ ε} {unit : Text} {n done : Nat} {lines : List Text} {s : σ}

inductive Stop (unit : Text) (lines : List Text) : UnitError ε → Prop
  | refused (line : Nat) (c : Command) (cause : ε) : Stop unit lines (.refused unit line c cause)
  | malformed (line : Nat) (text : Text) (cause : Command.Malformed) :
    Stop unit lines (.unreadable (.malformed { unit, line, text, cause }))
  | tooLong {line : Text} (member : line ∈ lines) (long : Lines.limit ≤ line.length) :
    Stop unit lines (.unreadable (.tooLong unit))

theorem Stop.later {error : UnitError ε} (line : Text) (stop : Stop unit lines error) : Stop unit (line :: lines) error := by
  cases stop with
  | refused line c cause => exact .refused line c cause
  | malformed line text cause => exact .malformed line text cause
  | tooLong member long => exact .tooLong (List.mem_cons_of_mem _ member) long

theorem Stop.moved_self {error : UnitError ε} (stop : Stop unit lines error) : error.moved unit 0 = error := by
  cases stop <;> rfl

/-- Lines are written to their end, and then none is too long, or they stop. -/
theorem writeLines_cases :
    (writeLines e unit n lines done s).2.1 = none ∧ (∀ line ∈ lines, line.length < Lines.limit) ∨
      ∃ error, (writeLines e unit n lines done s).2.1 = some error ∧ Stop unit lines error := by
  induction lines generalizing n done s with
  | nil => exact .inl ⟨rfl, by simp⟩
  | cons line rest ih =>
    unfold writeLines
    split
    · rename_i long
      exact .inr ⟨_, rfl, .tooLong List.mem_cons_self long⟩
    · rename_i fits
      have goOn : ∀ {k t}, (writeLines e unit (n + 1) rest k t).2.1 = none ∧ (∀ l ∈ line :: rest, l.length < Lines.limit) ∨
          ∃ error, (writeLines e unit (n + 1) rest k t).2.1 = some error ∧ Stop unit (line :: rest) error := by
        intro k t
        rcases @ih (n + 1) k t with ⟨ended, short⟩ | ⟨error, stopped, stop⟩
        · exact .inl ⟨ended, List.forall_mem_cons.mpr ⟨by omega, short⟩⟩
        · exact .inr ⟨error, stopped, stop.later line⟩
      cases found : Reader.item? unit (Lines.dropReturn line) n with
      | none => exact goOn
      | some item =>
        cases item with
        | command c =>
          dsimp only
          cases e.write c s with
          | ok _ t => exact goOn
          | error cause t => exact .inr ⟨_, rfl, .refused n c cause⟩
        | failure cause =>
          obtain ⟨text, why, rfl⟩ := Reader.item?_failure found
          exact .inr ⟨_, rfl, .malformed n text why⟩
        | finished => exact goOn

end Stops

/-! ### Units joined -/

/-- The lines of units, one unit after the other; each has one line at least. -/
def linesOfAll (units : List (Text × Text)) : List Text := units.flatMap fun unit => Text.split Text.newline unit.2

theorem linesOfAll_cons (unit : Text × Text) (rest : List (Text × Text)) :
    linesOfAll (unit :: rest) = Text.split Text.newline unit.2 ++ linesOfAll rest :=
  List.flatMap_cons

def totalOf : List Tally → Nat
  | [] => 0
  | tally :: rest => tally.commands + totalOf rest

/-- The number of lines that units take up when they are joined. -/
def height (units : List (Text × Text)) : Nat := (linesOfAll units).length

/-- A unit among others that stops them: those before it have no line that is too long. -/
structure StopsAt (units before : List (Text × Text)) (unit : Text × Text) (error : UnitError EmitError) : Prop where
  among : ∃ after, units = before ++ unit :: after
  short : ∀ line ∈ linesOfAll before, line.length < Lines.limit
  stop : Stop unit.1 (Text.split Text.newline unit.2) error

theorem StopsAt.later {units before : List (Text × Text)} {unit first : Text × Text} {error : UnitError EmitError}
    (stops : StopsAt units before unit error)
    (short : ∀ line ∈ Text.split Text.newline first.2, line.length < Lines.limit) :
    StopsAt (first :: units) (first :: before) unit error where
  among := by
    obtain ⟨after, same⟩ := stops.among
    exact ⟨after, by rw [same, List.cons_append]⟩
  short := by
    rw [linesOfAll_cons]
    exact List.forall_mem_append.mpr ⟨short, stops.short⟩
  stop := stops.stop

/-- Units one after the other are the lines of all of them in a single unit. -/
theorem writeTexts_joined (tree : Tree) (name : Text) {s t : Session} (agree : Agree s t) (ample : Ample s)
    (units : List (Text × Text)) (offset done : Nat) :
    ∃ tallies stopped s' t' relocated,
      writeTexts tree units s = (tallies, stopped, s') ∧
      writeLines .session name (1 + offset) (linesOfAll units) done t =
        (done + totalOf tallies, relocated, t') ∧
      Agree s' t' ∧
      (stopped = none ∧ relocated = none ∨
        ∃ error before unit, stopped = some error ∧ relocated = some (error.moved name (offset + height before)) ∧
          tallies.length = before.length + 1 ∧ StopsAt units before unit error) := by
  induction units generalizing s t offset done with
  | nil => exact ⟨[], none, s, t, none, rfl, rfl, agree, .inl ⟨rfl, rfl⟩⟩
  | cons unit rest ih =>
    have named : Agree (Emitter.session.setUnit unit.1 s) t := ⟨agree.sink, agree.naming, agree.lines⟩
    have ready : Ample (Emitter.session.setUnit unit.1 s) := ⟨ample.free, ample.sound⟩
    obtain ⟨k, stopped, s', t', left, right, agree', ample'⟩ :=
      writeLines_agree named ready unit.1 name 1 offset (Text.split Text.newline unit.2) 0 done
    have source : writeSource .session unit.1 { text := unit.2 } s = (k, stopped, s') := by
      rw [writeSource_lines, ← writeLines_split, left, Nat.zero_add]
    have split := @writeLines_cases _ _ Emitter.session unit.1 1 0 (Text.split Text.newline unit.2)
      (Emitter.session.setUnit unit.1 s)
    rw [left] at split
    rw [linesOfAll_cons, writeLines_append, right]
    rcases split with ⟨rfl, short⟩ | ⟨error, rfl, stop⟩
    · -- The unit is written to its end, so the others start behind its lines.
      obtain ⟨tallies, stopped, s'', t'', relocated, written, joined, ends, how⟩ :=
        ih (s := Emitter.session.note (unitRecord ⟨unit.1, k⟩) s') (t := t') ⟨agree'.sink, agree'.naming, agree'.lines⟩
          ⟨ample'.free, ample'.sound⟩ (offset + (Text.split Text.newline unit.2).length) (done + k)
      refine ⟨⟨unit.1, k⟩ :: tallies, stopped, s'', t'', relocated, by rw [writeTexts_written source, written], ?_, ends, ?_⟩
      · rw [totalOf, ← Nat.add_assoc, Nat.add_assoc 1]
        exact joined
      · rcases how with ended | ⟨error, before, other, first, second, count, stops⟩
        · exact .inl ended
        · refine .inr ⟨error, unit :: before, other, first, ?_, by rw [List.length_cons, count, List.length_cons],
            stops.later short⟩
          rw [second, height, height, linesOfAll_cons, List.length_append, Nat.add_assoc]
    · refine ⟨[⟨unit.1, k⟩], some error, s', t', _, writeTexts_stopped source rest, rfl, agree', .inr ?_⟩
      exact ⟨error, [], unit, rfl, rfl, rfl, ⟨rest, rfl⟩, by simp [linesOfAll], stop⟩

def joined (units : List (Text × Text)) : Text := Text.join [Text.newline] (units.map (·.2))

theorem split_joined {units : List (Text × Text)} (nonempty : units ≠ []) :
    Text.split Text.newline (joined units) = linesOfAll units := by
  rw [joined, Text.split_join _ (by simpa using nonempty), List.flatMap_map, linesOfAll]

theorem writeLines_joined {σ ε : Type} (e : Emitter σ ε) (name : Text) (units : List (Text × Text)) (n done : Nat) (s : σ) :
    writeLines e name n (Lines.raw (joined units)) done s = writeLines e name n (linesOfAll units) done s := by
  cases units with
  | nil => rfl
  | cons unit rest => rw [← writeLines_split, split_joined (by simp)]

/-- The error that stops units is found behind the lines of the units before, when they are joined. -/
theorem StopsAt.lineIn?_joined {units before : List (Text × Text)} {unit : Text × Text} {error : UnitError EmitError}
    (stops : StopsAt units before unit error) (name : Text) :
    ∃ line, error.lineIn? unit.2 = some line ∧
      (error.moved name (height before)).lineIn? (joined units) = some (height before + line) := by
  cases stops with
  | mk among short stop =>
    cases stop with
    | refused line c cause => exact ⟨line, rfl, congrArg some (Nat.add_comm _ _)⟩
    | malformed line text cause => exact ⟨line, rfl, congrArg some (Nat.add_comm _ _)⟩
    | tooLong member long =>
      -- No line of the units before is too long, so the first such line is in this one.
      obtain ⟨after, rfl⟩ := among
      have all : Text.split Text.newline (joined (before ++ unit :: after)) =
          linesOfAll before ++ (Text.split Text.newline unit.2 ++ linesOfAll after) := by
        rw [split_joined (by simp), ← linesOfAll_cons]
        exact List.flatMap_append
      have here := Lines.contents_length ⟨_, member, long⟩
      have there := @Lines.contents_length (joined (before ++ unit :: after)) ⟨_, by
        rw [all]
        exact List.mem_append_right _ (List.mem_append_left _ member), long⟩
      refine ⟨_, rfl, congrArg some ?_⟩
      rw [here, there, all, List.takeWhile_append_of_pos (by simpa using short),
        Lines.takeWhile_append_of_long ⟨_, member, long⟩, List.length_append]
      exact Nat.add_assoc _ _ _

/-- Units leave behind what the single unit leaves that has all their lines: the same output, names and counts.
Both are written to their end, or both stop at the same line of the same text with the same error. -/
theorem boundaries_invisible (tree : Tree) (settings : Settings) (name : Text) (units : List (Text × Text)) :
    ∃ tallies stopped s commands relocated t,
      translate tree settings units = (tallies, stopped, s) ∧
      translate tree settings [(name, joined units)] = ([⟨name, commands⟩], relocated, t) ∧
      s.sink = t.sink ∧ s.naming = t.naming ∧ s.lines = t.lines ∧
      totalOf tallies = commands ∧
      (stopped = none ∧ relocated = none ∨
        ∃ error before unit after line,
          units = before ++ unit :: after ∧ tallies.length = before.length + 1 ∧
          stopped = some error ∧ error.moved unit.1 0 = error ∧ error.lineIn? unit.2 = some line ∧
          relocated = some (error.moved name (height before)) ∧
          (error.moved name (height before)).lineIn? (joined units) = some (height before + line)) := by
  obtain ⟨s, ample, behind⟩ := translate_behind tree settings
  have named : Agree s (Emitter.session.setUnit name s) := ⟨rfl, rfl, rfl⟩
  obtain ⟨tallies, stopped, s', t', relocated, many, one, agree, how⟩ :=
    writeTexts_joined tree name named ample units 0 0
  have source : writeSource .session name { text := joined units } s =
      (totalOf tallies, relocated, t') := by
    rw [writeSource_lines, writeLines_joined, ← Nat.zero_add (totalOf tallies)]
    exact one
  have single : ∃ t, translate tree settings [(name, joined units)] =
      ([⟨name, totalOf tallies⟩], relocated, t) ∧ Agree s' t := by
    rw [behind]
    cases relocated with
    | none => exact ⟨_, @writeTexts_written tree (name, joined units) _ _ _ source [], agree.sink, agree.naming, agree.lines⟩
    | some error => exact ⟨_, @writeTexts_stopped tree (name, joined units) _ _ _ _ source [], agree⟩
  obtain ⟨t, single, agree⟩ := single
  refine ⟨tallies, stopped, s', _, relocated, t, (behind units).trans many, single, agree.sink, agree.naming,
    agree.lines, rfl, ?_⟩
  rcases how with ended | ⟨error, before, unit, first, second, count, stops⟩
  · exact .inl ended
  · obtain ⟨after, among⟩ := stops.among
    obtain ⟨line, here, there⟩ := stops.lineIn?_joined name
    rw [Nat.zero_add] at second
    exact .inr ⟨error, before, unit, after, line, among, count, first, stops.stop.moved_self, here, second, there⟩

-- The second line of the second unit is the third of both.
example :
    let stop := fun units => (translate { nodes := [], here := [] } { Settings.default with bootstrap := false } units).2.1
    stop [("A", "add"), ("B", "eq\nneg")] = some (.refused "B" 2 (.arithmetic "neg") (.unsupportedOperation "neg")) ∧
      stop [("AB", "add\neq\nneg")] = some (.refused "AB" 3 (.arithmetic "neg") (.unsupportedOperation "neg")) := by
  decide +kernel

end Build

end HackToolchain
