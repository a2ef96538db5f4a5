import HackToolchain.Build.Run
import HackToolchain.Proofs.Emission.Naming
import HackToolchain.Proofs.Source.Lines

/-!
A unit written line by line. What becomes of a unit is what becomes of the raw lines of its source, one after
the other up to the first that is too long or yields an error; so it can be cut at any line.
-/

namespace HackToolchain

theorem Reader.item?_nil (unit : Text) (line : Nat) : item? unit (Lines.dropReturn []) line = none := rfl

theorem Reader.item?_ne_finished (unit content : Text) (line : Nat) : item? unit content line ≠ some .finished := by
  unfold item?
  dsimp only
  split
  · simp
  · split <;> simp

namespace Build

variable {σ ε : Type}

/-- The error of the emitter behind an error, if it is one. -/
def UnitError.cause? : UnitError ε → Option ε
  | .bootstrap cause | .refused _ _ _ cause => some cause
  | _ => none

/-- Writes raw lines, the first of which has a number, when some commands are written already. -/
def writeLines (e : Emitter σ ε) (unit : Text) : Nat → List Text → Nat → σ → Nat × Option (UnitError ε) × σ
  | _, [], done, s => (done, none, s)
  | n, line :: rest, done, s =>
    if Lines.limit ≤ line.length then (done, some (.unreadable (.tooLong unit)), s)
    else match Reader.item? unit (Lines.dropReturn line) n with
      | some (.command c) =>
        match e.write c s with
        | .ok _ s => writeLines e unit (n + 1) rest (done + 1) s
        | .error cause s => (done, some (.refused unit n c cause), s)
      | some (.failure cause) => (done, some (.unreadable cause), s)
      | some .finished | none => writeLines e unit (n + 1) rest done s

theorem writeItems_lines (e : Emitter σ ε) (unit : Text) (n last : Nat) (lines : List Text) (done : Nat) (s : σ) :
    writeItems e unit
      (((((lines.takeWhile fun line => line.length < Lines.limit).map Lines.dropReturn).zipIdx n).filterMap
          fun (content, line) => (Reader.item? unit content line).map (·, line)) ++
        [(if lines.any fun line => Lines.limit ≤ line.length then .failure (.tooLong unit) else .finished, last)])
      done s =
      writeLines e unit n lines done s := by
  induction lines generalizing n done s with
  | nil => rfl
  | cons line rest ih =>
    by_cases long : Lines.limit ≤ line.length
    · have stops : ¬ line.length < Lines.limit := by omega
      simp [writeLines, writeItems, long, stops]
    · have short : line.length < Lines.limit := by omega
      have later := fun done s => ih (n + 1) done s
      simp only [List.takeWhile_cons, short, decide_true, if_true, List.map_cons, List.zipIdx_cons,
        List.filterMap_cons, List.any_cons, long, decide_false, Bool.false_or] at later ⊢
      rw [writeLines, if_neg long]
      cases found : Reader.item? unit (Lines.dropReturn line) n with
      | none => exact later done s
      | some item =>
        cases item with
        | command c =>
          simp only [Option.map_some, List.cons_append, writeItems]
          cases e.write c s with
          | ok _ t => exact later (done + 1) t
          | error cause t => rfl
        | failure cause => rfl
        | finished => exact (Reader.item?_ne_finished _ _ _ found).elim

theorem writeItems_start (e : Emitter σ ε) (unit source : Text) (done : Nat) (s : σ) :
    writeItems e unit (Reader.start unit source).items done s = writeLines e unit 1 (Lines.raw source) done s := by
  rw [← writeItems_lines e unit 1 _ (Lines.raw source) done s]
  rfl

theorem writeLines_append (e : Emitter σ ε) (unit : Text) (n : Nat) (front back : List Text) (done : Nat) (s : σ) :
    writeLines e unit n (front ++ back) done s =
      match writeLines e unit n front done s with
      | (k, none, t) => writeLines e unit (n + front.length) back k t
      | stopped => stopped := by
  induction front generalizing n done s with
  | nil => rfl
  | cons line front ih =>
    have length : n + (line :: front).length = n + 1 + front.length := by
      simp only [List.length_cons]
      omega
    rw [List.cons_append, writeLines, writeLines, length]
    split
    · rfl
    · cases Reader.item? unit (Lines.dropReturn line) n with
      | none => exact ih (n + 1) done s
      | some item =>
        cases item with
        | command c =>
          dsimp only
          cases e.write c s with
          | ok _ t => exact ih (n + 1) (done + 1) t
          | error cause t => rfl
        | failure cause => rfl
        | finished => exact ih (n + 1) done s

theorem writeLines_blank (e : Emitter σ ε) (unit : Text) (n done : Nat) (s : σ) :
    writeLines e unit n [[]] done s = (done, none, s) := by
  rw [writeLines, if_neg (by simp [Lines.limit]), Reader.item?_nil]
  rfl

/-- It makes no difference whether what follows the last line feed counts as a line. -/
theorem writeLines_split (e : Emitter σ ε) (unit : Text) (n : Nat) (source : Text) (done : Nat) (s : σ) :
    writeLines e unit n (Text.split Text.newline source) done s = writeLines e unit n (Lines.raw source) done s := by
  rcases Lines.split_raw source with same | more
  · rw [same]
  · rw [more, writeLines_append]
    rcases writeLines e unit n (Lines.raw source) done s with ⟨k, stopped, t⟩
    cases stopped with
    | none => exact writeLines_blank e unit _ k t
    | some error => rfl

theorem writeSource_lines (e : Emitter σ ε) (unit source : Text) (s : σ) :
    writeSource e unit { text := source } s = writeLines e unit 1 (Lines.raw source) 0 (e.setUnit unit s) := by
  rw [writeSource, writeItems_start]
  rcases writeLines e unit 1 (Lines.raw source) 0 (e.setUnit unit s) with ⟨n, stopped, t⟩
  cases stopped with
  | none => rfl
  | some error => rfl

/-! ### One unit after the other -/

section Each

variable {e : Emitter σ ε} {read : σ → Source → Except FileError Reading} {unit : SourceUnit} {reading : Reading} {s t : σ} {n : Nat}

theorem writeEach_unopened {cause : FileError} (opened : read (e.setUnit unit.name s) unit.source = .error cause) (rest : List SourceUnit) :
    writeEach e read (unit :: rest) s = ([⟨unit.name, 0⟩], some (.unopened unit.name cause), s) := by
  rw [writeEach, opened]

theorem writeEach_stopped {error : UnitError ε} (opened : read (e.setUnit unit.name s) unit.source = .ok reading)
    (stopped : writeSource e unit.name reading s = (n, some error, t)) (rest : List SourceUnit) :
    writeEach e read (unit :: rest) s = ([⟨unit.name, n⟩], some error, t) := by
  rw [writeEach, opened]
  dsimp only
  rw [stopped]

theorem writeEach_written (opened : read (e.setUnit unit.name s) unit.source = .ok reading)
    (written : writeSource e unit.name reading s = (n, none, t)) (rest : List SourceUnit) :
    let later := writeEach e read rest (e.note (unitRecord ⟨unit.name, n⟩) t)
    writeEach e read (unit :: rest) s = (⟨unit.name, n⟩ :: later.1, later.2) := by
  dsimp only
  rw [writeEach, opened]
  dsimp only
  rw [written]

end Each

/-! ### Units in memory -/

open Emission Session

/-- Units whose texts are at hand, each with its name. -/
def inMemory (units : List (Text × Text)) : List SourceUnit := units.map fun (name, text) => ⟨name, .text text⟩

def writeTexts (tree : Tree) (units : List (Text × Text)) (s : Session) : List Tally × Option (UnitError EmitError) × Session :=
  writeEach .session (fun _ source => source.read tree) (inMemory units) s

/-- What becomes of units in memory in a new session whose output nothing stops. -/
def translate (tree : Tree) (settings : Settings) (units : List (Text × Text)) :
    List Tally × Option (UnitError EmitError) × Session :=
  writeUnits .session (fun _ source => source.read tree) settings.bootstrap (inMemory units) (sessionOf settings)

/-- A session whose output nothing has stopped or can stop. -/
structure Ample (s : Session) : Prop where
  free : s.sink.device = none
  sound : s.sink.failure = none

theorem write_ample {s : Session} (ample : Ample s) {c : Command} {code : List Line} (coded : s.naming.code c = .ok code) :
    ∃ t, Emitter.session.write c s = .ok () t ∧ Ample t ∧
      t = ((s.rename (s.naming.after c)).trace c.render).append (.comment c.render :: code) := by
  obtain ⟨written, free, sound⟩ := @emit_free ((s.rename (s.naming.after c)).trace c.render) ample.free ample.sound
    (.comment c.render :: code)
  exact ⟨_, (write_run c s).trans (by rw [coded]; exact written), ⟨free, sound⟩, rfl⟩

theorem write_refused {s : Session} {c : Command} {cause : EmitError} (refused : s.naming.code c = .error cause) :
    Emitter.session.write c s = .error cause s :=
  (write_run c s).trans (by rw [refused])

section Texts

variable {tree : Tree} {unit : Text × Text} {s t : Session} {n : Nat}

theorem writeTexts_written (written : writeSource .session unit.1 { text := unit.2 } s = (n, none, t))
    (rest : List (Text × Text)) :
    let later := writeTexts tree rest (Emitter.session.note (unitRecord ⟨unit.1, n⟩) t)
    writeTexts tree (unit :: rest) s = (⟨unit.1, n⟩ :: later.1, later.2) :=
  @writeEach_written _ _ .session (fun _ source => source.read tree) ⟨unit.1, .text unit.2⟩ _ _ _ _ rfl written _

theorem writeTexts_stopped {error : UnitError EmitError}
    (stopped : writeSource .session unit.1 { text := unit.2 } s = (n, some error, t)) (rest : List (Text × Text)) :
    writeTexts tree (unit :: rest) s = ([⟨unit.1, n⟩], some error, t) :=
  @writeEach_stopped _ _ .session (fun _ source => source.read tree) ⟨unit.1, .text unit.2⟩ _ _ _ _ _ rfl stopped _

end Texts

/-- Units are written behind the bootstrap, if there is one, and the session is ample then. -/
theorem translate_behind (tree : Tree) (settings : Settings) :
    ∃ s, Ample s ∧ ∀ units, translate tree settings units = writeTexts tree units s := by
  cases wanted : settings.bootstrap with
  | false =>
    refine ⟨sessionOf settings, ⟨rfl, rfl⟩, fun units => ?_⟩
    rw [translate, writeUnits, wanted]
    rfl
  | true =>
    obtain ⟨s, begun, free, sound, -⟩ := @writeBootstrap_free (sessionOf settings) rfl rfl rfl
    refine ⟨s, ⟨free, sound⟩, fun units => ?_⟩
    have started : Emitter.session.bootstrap (sessionOf settings) = .ok () s := begun
    rw [translate, writeUnits, wanted, if_pos rfl, started]
    rfl

end Build

end HackToolchain
