import HackToolchain.Build.Run
import HackToolchain.Proofs.Emission.Naming
import HackToolchain.Proofs.File.Tree

/-!
How builds end. A build that succeeds leaves what its emitter delivered at the place of its output, a check
of the output comes behind everything else, and no build has an error to log.
-/

namespace HackToolchain.Build

variable {σ ε : Type}

def outputPath (settings : Settings) (inputs : Inputs) : Text :=
  if settings.output = [] then inputs.output else settings.output

def outputPlace? (settings : Settings) (tree : Tree) (path : Text) : Option Place :=
  match Inputs.resolve tree path with
  | .error _ => none
  | .ok inputs =>
    match tree.create (outputPath settings inputs) with
    | .error _ => none
    | .ok (place, _) => some place

/-- What becomes of the units of a build: the units written, what went wrong with them and with the flush
behind them, and the state of the emitter. -/
def emission (e : Emitter σ ε) (bootstrap : Bool) (units : List SourceUnit) (tree : Tree) (place : Place) (s : σ) :
    List Tally × Option (UnitError ε) × Option ε × σ :=
  let (tallies, failed, s) := writeUnits e (fun s source => source.read (e.noted s (tree.write place (e.delivered s)))) bootstrap units s
  match e.flush s with
  | .ok _ s => (tallies, failed, none, s)
  | .error cause s => (tallies, failed, some cause, s)

section Run

variable {e : Emitter σ ε} {settings : Settings} {tree : Tree} {path : Text} {s : σ}

/-- What a build does that finds its inputs and can create its output. -/
theorem run_emitted {emptied : Tree} {inputs : Inputs} {place : Place} {tallies : List Tally} {failed : Option (UnitError ε)}
    {flushed : Option ε} {t : σ} (resolved : Inputs.resolve tree path = .ok inputs)
    (created : tree.create (outputPath settings inputs) = .ok (place, emptied))
    (emitted : emission e settings.bootstrap inputs.units emptied place s = (tallies, failed, flushed, t)) :
    run e settings tree path s =
      let result := { output := outputPath settings inputs, tallies }
      let written := emptied.write place (e.delivered t)
      if failed.isSome || flushed.isSome then { result, error := some (.emission failed flushed), tree := written, state := t }
      else
        let noted := e.note (doneRecord (outputPath settings inputs) tallies) t
        if settings.lint then checkOutput e result (e.noted noted written) written noted else { result, error := none, tree := written, state := noted } := by
  unfold emission at emitted
  unfold outputPath at created ⊢
  unfold run
  rw [resolved]
  dsimp only
  rw [created]
  dsimp only
  generalize writeUnits e (fun s source => source.read (e.noted s (emptied.write place (e.delivered s)))) settings.bootstrap inputs.units s =
    units at emitted ⊢
  obtain ⟨tallies, failed, u⟩ := units
  dsimp only at emitted ⊢
  cases flush : e.flush u with
  | ok _ v =>
    rw [flush] at emitted
    cases emitted
    rfl
  | error cause v =>
    rw [flush] at emitted
    cases emitted
    rfl

variable (e settings tree path s) in
/-- A build either fails at once, checked or not, with nothing changed, or it comes to emit its units. -/
theorem run_course :
    (∃ result cause, ∀ lint, run e { settings with lint } tree path s = { result, error := some cause, tree, state := s }) ∨
      ∃ inputs place tallies failed flushed t, Inputs.resolve tree path = .ok inputs ∧
        tree.create (outputPath settings inputs) = .ok (place, tree.write place []) ∧
        emission e settings.bootstrap inputs.units (tree.write place []) place s = (tallies, failed, flushed, t) := by
  cases resolved : Inputs.resolve tree path with
  | error cause => exact .inl ⟨{}, .input cause, fun lint => by simp only [run, resolved]⟩
  | ok inputs =>
    cases created : tree.create (outputPath settings inputs) with
    | error cause =>
      unfold outputPath at created
      refine .inl ⟨{ output := outputPath settings inputs }, .create cause, fun lint => ?_⟩
      simp only [run, resolved, created, outputPath]
    | ok found =>
      obtain ⟨place, emptied⟩ := found
      obtain ⟨-, rfl, -⟩ := Tree.create_ok created
      exact .inr ⟨inputs, place, _, _, _, _, rfl, created, rfl⟩

/-- A check looks at what a build without it has done, if that succeeded. -/
theorem run_lint (off : settings.lint = false) :
    run e { settings with lint := true } tree path s =
      let plain := run e settings tree path s
      if plain.error.isSome then plain else checkOutput e plain.result (e.noted plain.state plain.tree) plain.tree plain.state := by
  rcases run_course e settings tree path s with
    ⟨result, cause, fails⟩ | ⟨inputs, place, tallies, failed, flushed, t, resolved, created, emitted⟩
  · have plain : run e settings tree path s = _ := fails settings.lint
    rw [plain, fails true]
    rfl
  · -- The setting is read behind the emission, so both builds emit the same.
    rw [run_emitted resolved created emitted, @run_emitted _ _ e { settings with lint := true } tree path s _ _ _ _ _ _ _
      resolved created emitted]
    dsimp only
    split
    · rfl
    · rw [off]
      rfl

/-- A build that succeeds leaves what was delivered at the place of its output, to which the path of the output
leads. -/
theorem run_output (kept : ∀ r s, e.delivered (e.note r s) = e.delivered s) (off : settings.lint = false)
    (succeeded : (run e settings tree path s).error = none) :
    let done := run e settings tree path s
    ∃ place, outputPlace? settings tree path = some place ∧ done.tree.contents? place = some (e.delivered done.state) ∧
      done.tree.locate done.result.output = .ok place := by
  intro done
  rcases run_course e settings tree path s with
    ⟨result, cause, fails⟩ | ⟨inputs, place, tallies, failed, flushed, t, resolved, created, emitted⟩
  · have plain : run e settings tree path s = _ := fails settings.lint
    rw [plain] at succeeded
    cases succeeded
  · have whole := run_emitted resolved created emitted
    rw [whole] at succeeded
    dsimp only at succeeded
    split at succeeded
    · cases succeeded
    · rename_i sound
      rw [if_neg sound, off] at whole
      simp only [Bool.false_eq_true, if_false] at whole
      obtain ⟨free, -, placed⟩ := Tree.create_ok created
      refine ⟨place, by simp only [outputPlace?, resolved, created], ?_, ?_⟩
      · rw [show done = _ from whole]
        dsimp only
        rw [kept]
        exact Tree.contents?_write _ _ free.inside
      · rw [show done = _ from whole]
        exact (Tree.read_created placed (e.delivered t)).1

theorem checkOutput_tree (result : Result) (seen : Tree) : (checkOutput e result seen tree s).tree = tree := by
  unfold checkOutput
  split
  · rfl
  · split <;> rfl

variable (e settings tree path s) in
/-- A build leaves the tree as it is, or writes to the place of its output. -/
theorem run_tree :
    (run e settings tree path s).tree = tree ∨
      ∃ inputs place written, Inputs.resolve tree path = .ok inputs ∧ tree.creationPlace (outputPath settings inputs) = .ok place ∧
        (run e settings tree path s).tree = (tree.write place []).write place written := by
  rcases run_course e settings tree path s with
    ⟨result, cause, fails⟩ | ⟨inputs, place, tallies, failed, flushed, t, resolved, created, emitted⟩
  · have plain : run e settings tree path s = _ := fails settings.lint
    rw [plain]
    exact .inl rfl
  · refine .inr ⟨inputs, place, e.delivered t, resolved, (Tree.create_ok created).2.2, ?_⟩
    rw [run_emitted resolved created emitted]
    dsimp only
    split
    · rfl
    · split
      · exact checkOutput_tree ..
      · rfl

theorem run_free {other : Place} (free : tree.Free other) : (run e settings tree path s).tree.Free other := by
  rcases run_tree e settings tree path s with same | ⟨inputs, place, written, -, placed, same⟩
  · rw [same]
    exact free
  · have inside := (Tree.creationPlace_ok placed).1.inside
    rw [same]
    exact (free.write [] inside).write written inside

end Run

/-! ### What is logged -/

def stateOf {α : Type} : EStateM.Result ε σ α → σ
  | .ok _ s => s
  | .error _ s => s

/-- Whatever is asked of an emitter keeps a property of its state, and so does every record that is no error. -/
structure Emitter.Keeps (e : Emitter σ ε) (P : σ → Prop) : Prop where
  bootstrap : ∀ {s}, P s → P (stateOf (e.bootstrap s))
  setUnit : ∀ {s} (name : Text), P s → P (e.setUnit name s)
  write : ∀ {s} (c : Command), P s → P (stateOf (e.write c s))
  flush : ∀ {s}, P s → P (stateOf (e.flush s))
  note : ∀ {s} {r : Log.Record}, r.level ≠ .error → P s → P (e.note r s)

namespace Emitter.Keeps

variable {e : Emitter σ ε} {P : σ → Prop} (keeps : e.Keeps P)

include keeps

theorem writeItems {unit : Text} {items : List (Reader.Item × Nat)} {n : Nat} {s : σ} (before : P s) :
    P (Build.writeItems e unit items n s).2.2 := by
  induction items generalizing n s with
  | nil => exact before
  | cons item items ih =>
    obtain ⟨item, line⟩ := item
    cases item with
    | command c =>
      have after := keeps.write c before
      unfold Build.writeItems
      generalize e.write c s = written at after ⊢
      cases written with
      | ok _ t => exact ih after
      | error cause t => exact after
    | failure cause => exact before
    | finished => exact before

theorem writeSource {unit : Text} {reading : Reading} {s : σ} (before : P s) :
    P (Build.writeSource e unit reading s).2.2 := by
  have after : P (Build.writeItems e unit (Reader.start unit reading.text).items 0 (e.setUnit unit s)).2.2 :=
    keeps.writeItems (keeps.setUnit unit before)
  unfold Build.writeSource
  split
  · rename_i n t found
    rwa [found] at after
  · exact after

theorem writeEach {read : σ → Source → Except FileError Reading} {units : List SourceUnit} {s : σ} (before : P s) :
    P (Build.writeEach e read units s).2.2 := by
  induction units generalizing s with
  | nil => exact before
  | cons unit units ih =>
    unfold Build.writeEach
    cases read (e.setUnit unit.name s) unit.source with
    | error cause => exact before
    | ok reading =>
      have after : P (Build.writeSource e unit.name reading s).2.2 := keeps.writeSource before
      dsimp only
      generalize Build.writeSource e unit.name reading s = written at after ⊢
      obtain ⟨n, failed, t⟩ := written
      cases failed with
      | some cause => exact after
      | none => exact ih (keeps.note (by intro same; cases same) after)

theorem emission {bootstrap : Bool} {units : List SourceUnit} {tree : Tree} {place : Place} {s : σ} (before : P s) :
    P (Build.emission e bootstrap units tree place s).2.2.2 := by
  have written : P (writeUnits e (fun s source => source.read (e.noted s (tree.write place (e.delivered s)))) bootstrap units s).2.2 := by
    unfold writeUnits
    split
    · have begun := keeps.bootstrap before
      generalize e.bootstrap s = started at begun ⊢
      cases started with
      | error cause t => exact begun
      | ok _ t => exact keeps.writeEach begun
    · exact keeps.writeEach before
  unfold Build.emission
  generalize writeUnits e (fun s source => source.read (e.noted s (tree.write place (e.delivered s)))) bootstrap units s = units at written ⊢
  obtain ⟨tallies, failed, t⟩ := units
  have flushed := keeps.flush written
  dsimp only at flushed ⊢
  generalize e.flush t = done at flushed ⊢
  cases done with
  | ok _ u => exact flushed
  | error cause u => exact flushed

theorem run {settings : Settings} {tree : Tree} {path : Text} {s : σ} (off : settings.lint = false) (before : P s) :
    P (Build.run e settings tree path s).state := by
  rcases run_course e settings tree path s with
    ⟨result, cause, fails⟩ | ⟨inputs, place, tallies, failed, flushed, t, resolved, created, emitted⟩
  · have plain : Build.run e settings tree path s = _ := fails settings.lint
    rw [plain]
    exact before
  · have after := @emission _ _ e P keeps settings.bootstrap inputs.units (tree.write place []) place s before
    rw [emitted] at after
    rw [run_emitted resolved created emitted, off]
    dsimp only
    split
    · exact after
    · exact keeps.note (by intro same; cases same) after

end Emitter.Keeps

open Emission Session

def Quiet (s : Session) : Prop := ∀ entry ∈ s.log, entry.record.level ≠ .error

theorem quiet_note {s : Session} {r : Log.Record} (level : r.level ≠ .error) (quiet : Quiet s) : Quiet (s.note r) :=
  List.forall_mem_cons.mpr ⟨level, quiet⟩

theorem stateOf_checked (s : Session) : stateOf s.checked = s := by
  unfold checked
  cases s.sink.failure <;> rfl

theorem quiet_emit {s : Session} (lines : List Line) (quiet : Quiet s) : Quiet (stateOf (emit lines s)) := by
  unfold emit
  split
  · rwa [stateOf_checked]
  · obtain ⟨n, frame⟩ := putLines_frame lines { s with started := true }
    rw [stateOf_checked, frame]
    exact quiet

theorem quiet_write {s : Session} (c : Command) (quiet : Quiet s) : Quiet (stateOf (Session.write c s)) := by
  rw [write_run]
  cases s.naming.code c with
  | error cause => exact quiet
  | ok code => exact quiet_emit _ (quiet_note (by intro same; cases same) quiet)

theorem keeps_quiet (noted : Session → Tree → Tree) : (Emitter.logging noted).Keeps Quiet where
  bootstrap := by
    intro s quiet
    show Quiet (stateOf (writeBootstrap s))
    rw [writeBootstrap_run]
    split
    · exact quiet
    · have announced := quiet_emit (.comment "bootstrap" :: setStackPointer s.stackBase) (s := s.trace "bootstrap")
        (quiet_note (by intro same; cases same) quiet)
      generalize emit (.comment "bootstrap" :: setStackPointer s.stackBase) (s.trace "bootstrap") = started at announced ⊢
      cases started with
      | ok _ t => exact quiet_write _ announced
      | error cause t => exact announced
  setUnit name quiet := quiet_note (by intro same; cases same) quiet
  write c quiet := quiet_write c quiet
  flush := by
    intro s quiet
    show Quiet (stateOf (Session.flush s))
    unfold Session.flush
    split
    · rwa [stateOf_checked]
    · rw [stateOf_checked]
      exact quiet
  note := quiet_note

/-- A build of a session that is not checked logs no error. -/
theorem run_quiet (noted : Session → Tree → Tree) {settings : Settings} {tree : Tree} {path : Text} (off : settings.lint = false) :
    Quiet (run (.logging noted) settings tree path (sessionOf settings)).state :=
  (keeps_quiet noted).run off (by intro entry member; cases member)

theorem notes_log (records : List Log.Record) (s : Session) :
    ∃ added, (records.foldl (fun s r => s.note r) s).log = added ++ s.log ∧ ∀ entry ∈ added, entry.record ∈ records := by
  induction records generalizing s with
  | nil => exact ⟨[], rfl, by simp⟩
  | cons r records ih =>
    obtain ⟨added, grown, from_records⟩ := ih (s.note r)
    refine ⟨added ++ [⟨r, s.sink.delivered.size⟩], by rw [List.foldl_cons, grown, List.append_assoc]; rfl, ?_⟩
    intro entry member
    rcases List.mem_append.mp member with early | last
    · exact List.mem_cons_of_mem r (from_records entry early)
    · rw [List.mem_singleton.mp last]
      exact List.mem_cons_self

/-- A check of a session leaves the tree as it is and logs warnings only. -/
theorem checkOutput_frame (noted : Session → Tree → Tree) (result : Result) (seen tree : Tree) (s : Session) :
    let checked := checkOutput (.logging noted) result seen tree s
    checked.tree = tree ∧ ∃ added, checked.state.log = added ++ s.log ∧ ∀ entry ∈ added, entry.record.level = .warn := by
  unfold checkOutput
  split
  · exact ⟨rfl, [], rfl, by simp⟩
  · split
    · exact ⟨rfl, [], rfl, by simp⟩
    · rename_i issues _
      obtain ⟨added, grown, from_issues⟩ := notes_log (issues.map issueRecord) s
      rw [List.foldl_map] at grown
      refine ⟨rfl, added, grown, fun entry member => ?_⟩
      obtain ⟨issue, -, same⟩ := List.mem_map.mp (from_issues entry member)
      rw [← same]
      rfl

/-- A check fails where what it reads is no assembly. -/
theorem checkOutput_error {e : Emitter σ ε} {result : Result} {seen : Tree} {contents : Text}
    (found : seen.read result.output = .ok contents) (tree : Tree) (s : σ) :
    (checkOutput e result seen tree s).error =
      match Assembly.parse contents with
      | .error cause => some (.lint ⟨cause⟩)
      | .ok _ => none := by
  unfold checkOutput Lint.checkText
  rw [found]
  dsimp only
  cases Assembly.parse contents <;> rfl

end HackToolchain.Build
