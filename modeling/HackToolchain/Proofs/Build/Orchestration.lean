import HackToolchain.Proofs.Build.ByLine
import HackToolchain.Proofs.Build.Outcome

/-!
The calls that a build makes. Its units plan a sequence of calls, which ends early where a unit cannot be read;
whatever emitter takes them, the calls are made in that order up to the first that fails, the tallies count those
that succeeded, and one flush follows.
-/

namespace HackToolchain.Build

variable {σ ε : Type}

/-! ### Calls and what became of them -/

/-- Reading that the trace beside a state has no part in. -/
def beside (read : σ → Source → Except FileError Reading) (s : σ × Trace ε) (source : Source) : Except FileError Reading :=
  read s.1 source

theorem traceCall_ok {call : Call} {action : EStateM ε σ Unit} {s t : σ} (done : action s = .ok () t) (log : Trace ε) :
    traceCall call action (s, log) = .ok () (t, log ++ [(call, none)]) := by
  rw [traceCall, done]

theorem traceCall_error {call : Call} {action : EStateM ε σ Unit} {s t : σ} {cause : ε} (failed : action s = .error cause t)
    (log : Trace ε) : traceCall call action (s, log) = .error cause (t, log ++ [(call, some cause)]) := by
  rw [traceCall, failed]

/-- Calls to be made, and the fault that ends them early. -/
structure Plan (ε : Type) where
  calls : List Call
  fault : Option (UnitError ε)

/-- A plan and the one behind it, unless a fault ends the first. -/
def Plan.andThen (plan next : Plan ε) : Plan ε :=
  if plan.fault.isSome then plan else ⟨plan.calls ++ next.calls, next.fault⟩

/-- A plan is carried out without an error in any call, or up to the first call that fails; the error is then
about that one. -/
inductive Settles (plan : Plan ε) : Trace ε → Option (UnitError ε) → Prop
  | through : Settles plan (plan.calls.map (·, none)) plan.fault
  | failed {front back : List Call} {call : Call} {cause : ε} {error : UnitError ε}
    (planned : plan.calls = front ++ call :: back) (about : error.cause? = some cause) :
    Settles plan (front.map (·, none) ++ [(call, some cause)]) (some error)

namespace Settles

variable {plan : Plan ε} {error : Option (UnitError ε)} {trace : Trace ε}

theorem cons (call : Call) (settles : Settles plan trace error) :
    Settles ⟨call :: plan.calls, plan.fault⟩ ((call, none) :: trace) error := by
  cases settles with
  | through => exact @through _ ⟨call :: plan.calls, plan.fault⟩
  | @failed front back _ _ _ planned about =>
    exact @failed _ ⟨call :: plan.calls, plan.fault⟩ (call :: front) back _ _ _ (congrArg (call :: ·) planned) about

theorem append (front : List Call) (settles : Settles plan trace error) :
    Settles ⟨front ++ plan.calls, plan.fault⟩ (front.map (·, none) ++ trace) error := by
  induction front with
  | nil => exact settles
  | cons call front ih => exact ih.cons call

theorem mem {call : Call} {result : Option ε} (settles : Settles plan trace error) (member : (call, result) ∈ trace) :
    call ∈ plan.calls := by
  cases settles with
  | through =>
    obtain ⟨other, present, same⟩ := List.mem_map.mp member
    cases same
    exact present
  | failed planned about =>
    rw [planned]
    rcases List.mem_append.mp member with early | last
    · obtain ⟨other, present, same⟩ := List.mem_map.mp early
      cases same
      exact List.mem_append_left _ present
    · cases List.mem_singleton.mp last
      exact List.mem_append_right _ List.mem_cons_self

/-- There is no error just if no call failed and nothing ended the plan. -/
theorem error_eq_none (settles : Settles plan trace error) :
    error = none ↔ (∀ entry ∈ trace, entry.2 = none) ∧ plan.fault = none := by
  cases settles with
  | through =>
    constructor
    · intro ended
      refine ⟨fun entry member => ?_, ended⟩
      obtain ⟨call, -, rfl⟩ := List.mem_map.mp member
      rfl
    · intro ended
      exact ended.2
  | @failed _ _ call _ _ planned about =>
    constructor
    · intro ended
      cases ended
    · intro ended
      have last := ended.1 (call, some _) (List.mem_append_right _ List.mem_cons_self)
      cases last

theorem whole (settles : Settles plan trace error) (ended : error = none) :
    trace = plan.calls.map (·, none) ∧ plan.fault = none := by
  cases settles with
  | through => exact ⟨rfl, ended⟩
  | failed planned about => cases ended

theorem andThen {next : Plan ε} {later : Trace ε} {final : Option (UnitError ε)} (settles : Settles plan trace error)
    (ended : error = none) (others : Settles next later final) : Settles (plan.andThen next) (trace ++ later) final := by
  obtain ⟨rfl, fault⟩ := settles.whole ended
  rw [Plan.andThen, fault]
  exact others.append plan.calls

/-- What stops a plan stops it with any other behind it. -/
theorem stopped (settles : Settles plan trace error) (failed : error.isSome = true) (next : Plan ε) :
    Settles (plan.andThen next) trace error := by
  unfold Plan.andThen
  cases settles with
  | through =>
    rw [if_pos failed]
    exact .through
  | failed planned about =>
    split
    · exact .failed planned about
    · exact .failed (by rw [planned, List.append_assoc, List.cons_append]) about

end Settles

/-! ### Plans -/

/-- The calls a source asks for, and what ends them early. -/
def planOf (name : Text) (reading : Reading) : Plan ε :=
  let (commands, failure) := (Reader.start name reading.text).readAll
  ⟨.unit name :: commands.map .write, (failure.map .unreadable).or (reading.fault.map (.interrupted name))⟩

/-- The calls that units ask for, given what they are read as. -/
def planOfEach : List (Text × Except FileError Reading) → Plan ε
  | [] => ⟨[], none⟩
  | (name, .error cause) :: _ => ⟨[], some (.unopened name cause)⟩
  | (name, .ok reading) :: rest => (planOf name reading).andThen (planOfEach rest)

/-- The state in which the unit behind a unit is opened. -/
def stateBehind (e : Emitter σ ε) (read : σ → Source → Except FileError Reading) (unit : SourceUnit) (s : σ) : σ :=
  match read (e.setUnit unit.name s) unit.source with
  | .error _ => s
  | .ok reading =>
    match writeSource e unit.name reading s with
    | (n, none, t) => e.note (unitRecord ⟨unit.name, n⟩) t
    | (_, some _, t) => t

/-- What units are read as, each when its turn comes. -/
def openings (e : Emitter σ ε) (read : σ → Source → Except FileError Reading) :
    List SourceUnit → σ → List (Text × Except FileError Reading)
  | [], _ => []
  | unit :: rest, s => (unit.name, read (e.setUnit unit.name s) unit.source) :: openings e read rest (stateBehind e read unit s)

theorem openings_fixed (e : Emitter σ ε) (fixed : Source → Except FileError Reading) (units : List SourceUnit) (s : σ) :
    openings e (fun _ => fixed) units s = units.map fun unit => (unit.name, fixed unit.source) := by
  induction units generalizing s with
  | nil => rfl
  | cons unit rest ih => rw [openings, ih, List.map_cons]

/-! ### Tallies of a trace -/

def isWritten : Call × Option ε → Bool
  | (.write _, none) => true
  | _ => false

def isUnit : Call × Option ε → Bool
  | (.unit _, _) => true
  | _ => false

/-- For each unit in a trace, the number of commands written before the next one. -/
def tallied : Trace ε → List Tally
  | [] => []
  | (.unit name, _) :: rest => ⟨name, (rest.takeWhile fun entry => !isUnit entry).countP isWritten⟩ :: tallied rest
  | _ :: rest => tallied rest

/-- The entry of a unit that could not be opened, for which no call was made. -/
def unopenedTally : Option (UnitError ε) → List Tally
  | some (.unopened name _) => [⟨name, 0⟩]
  | _ => []

theorem tallied_append {made : Trace ε} (plain : ∀ entry ∈ made, isUnit entry = false) (rest : Trace ε) :
    tallied (made ++ rest) = tallied rest := by
  induction made with
  | nil => rfl
  | cons entry made ih =>
    obtain ⟨here, later⟩ := List.forall_mem_cons.mp plain
    obtain ⟨call, result⟩ := entry
    cases call with
    | unit name => cases here
    | bootstrap => exact ih later
    | write c => exact ih later
    | flush => exact ih later

/-- A trace that starts with a unit, if with anything. -/
def StartsWithUnit (trace : Trace ε) : Prop := ∀ entry ∈ trace.head?, isUnit entry = true

theorem tallied_unit {made rest : Trace ε} (plain : ∀ entry ∈ made, isUnit entry = false) (starts : StartsWithUnit rest)
    (name : Text) : tallied ((.unit name, none) :: made ++ rest) = ⟨name, made.countP isWritten⟩ :: tallied rest := by
  have cut : (made ++ rest).takeWhile (fun entry => !isUnit entry) = made := by
    rw [List.takeWhile_append_of_pos (by simpa using plain)]
    cases rest with
    | nil => simp
    | cons entry rest =>
      have first : isUnit entry = true := starts entry rfl
      simp [first]
  rw [List.cons_append, tallied, cut, tallied_append plain]

/-! ### One source -/

theorem writeItems_traced (e : Emitter σ ε) (unit : Text) (items : List (Reader.Item × Nat)) (done : Nat) (s : σ) (log : Trace ε) :
    ∃ made error t,
      writeItems e unit items done s = (done + made.countP isWritten, error, t) ∧
      writeItems e.traced unit items done (s, log) = (done + made.countP isWritten, error, (t, log ++ made)) ∧
      Settles ⟨(Reader.readAll.go items).1.map .write, (Reader.readAll.go items).2.map .unreadable⟩ made error := by
  induction items generalizing done s log with
  | nil => exact ⟨[], none, s, rfl, by simp [writeItems], .through⟩
  | cons item items ih =>
    obtain ⟨item, line⟩ := item
    cases item with
    | finished => exact ⟨[], none, s, rfl, by simp [writeItems], .through⟩
    | failure cause => exact ⟨[], some (.unreadable cause), s, rfl, by simp [writeItems], .through⟩
    | command c =>
      cases call : e.write c s with
      | error cause t =>
        have traced : e.traced.write c (s, log) = .error cause (t, log ++ [(.write c, some cause)]) := traceCall_error call log
        refine ⟨[(.write c, some cause)], some (.refused unit line c cause), t, ?_, ?_,
          @Settles.failed _ _ [] _ _ _ _ rfl rfl⟩
        · rw [writeItems, call]
          rfl
        · rw [writeItems, traced]
          rfl
      | ok _ t =>
        have traced : e.traced.write c (s, log) = .ok () (t, log ++ [(.write c, none)]) := traceCall_ok call log
        obtain ⟨made, error, u, plain, listed, settles⟩ := ih (done + 1) t (log ++ [(.write c, none)])
        have count : done + ((Call.write c, none) :: made).countP isWritten = done + 1 + made.countP isWritten := by
          rw [List.countP_cons_of_pos rfl]
          omega
        refine ⟨(.write c, none) :: made, error, u, ?_, ?_, settles.cons (.write c)⟩
        · rw [writeItems, call, count]
          exact plain
        · rw [List.append_assoc, List.singleton_append] at listed
          rw [writeItems, traced, count]
          exact listed

theorem writeSource_traced (e : Emitter σ ε) (unit : Text) (reading : Reading) (s : σ) (log : Trace ε) :
    ∃ made error t,
      writeSource e unit reading s = (made.countP isWritten, error, t) ∧
      writeSource e.traced unit reading (s, log) = (made.countP isWritten, error, (t, log ++ (.unit unit, none) :: made)) ∧
      Settles (planOf unit reading) ((.unit unit, none) :: made) error ∧
      (∀ entry ∈ made, isUnit entry = false) ∧ unopenedTally error = [] := by
  obtain ⟨made, error, t, plain, listed, settles⟩ := writeItems_traced e unit (Reader.start unit reading.text).items 0
    (e.setUnit unit s) (log ++ [(.unit unit, none)])
  rw [Nat.zero_add] at plain listed
  rw [List.append_assoc, List.singleton_append] at listed
  have writes : ∀ entry ∈ made, isUnit entry = false := by
    rintro ⟨call, result⟩ member
    obtain ⟨c, -, rfl⟩ := List.mem_map.mp (settles.mem member)
    rfl
  have named : e.traced.setUnit unit (s, log) = (e.setUnit unit s, log ++ [(.unit unit, none)]) := rfl
  have planned : planOf unit reading = (⟨.unit unit :: (Reader.start unit reading.text).readAll.1.map .write,
      ((Reader.start unit reading.text).readAll.2.map .unreadable).or (reading.fault.map (.interrupted unit))⟩ : Plan ε) := rfl
  rw [planned]
  unfold writeSource
  rw [named, plain, listed]
  have same : Reader.readAll.go (Reader.start unit reading.text).items = (Reader.start unit reading.text).readAll := rfl
  rw [same] at settles
  generalize (Reader.start unit reading.text).readAll = found at settles ⊢
  obtain ⟨commands, failure⟩ := found
  cases settles with
  | through =>
    -- A fault of the source shows only where the lines in front of it could all be read.
    cases failure with
    | none =>
      refine ⟨_, reading.fault.map (.interrupted unit), t, rfl, rfl, .through, writes, ?_⟩
      cases reading.fault <;> rfl
    | some cause => exact ⟨_, some (.unreadable cause), t, rfl, rfl, .through, writes, rfl⟩
  | @failed front back call cause error split about =>
    refine ⟨_, some error, t, rfl, rfl, @Settles.failed _ _ (.unit unit :: front) back call cause error
      (congrArg (.unit unit :: ·) split) about, writes, ?_⟩
    cases error with
    | unopened name cause => cases about
    | _ => rfl

/-! ### Units -/

theorem writeEach_traced (e : Emitter σ ε) (read : σ → Source → Except FileError Reading) (units : List SourceUnit) (s : σ)
    (log : Trace ε) :
    ∃ tallies error t made,
      writeEach e read units s = (tallies, error, t) ∧
      writeEach e.traced (beside read) units (s, log) = (tallies, error, (t, log ++ made)) ∧
      Settles (planOfEach (openings e read units s)) made error ∧
      StartsWithUnit made ∧ tallies = tallied made ++ unopenedTally error ∧
      tallies.map Tally.unit <+: units.map SourceUnit.name ∧ (error = none → tallies.length = units.length) := by
  induction units generalizing s log with
  | nil =>
    exact ⟨[], none, s, [], rfl, by simp [writeEach], .through, by simp [StartsWithUnit], rfl, by simp, fun _ => rfl⟩
  | cons unit rest ih =>
    have same : beside read (e.traced.setUnit unit.name (s, log)) unit.source = read (e.setUnit unit.name s) unit.source := rfl
    cases opened : read (e.setUnit unit.name s) unit.source with
    | error cause =>
      refine ⟨[⟨unit.name, 0⟩], some (.unopened unit.name cause), s, [], writeEach_unopened opened rest, ?_, ?_,
        by simp [StartsWithUnit], rfl, ⟨rest.map SourceUnit.name, rfl⟩, fun ended => by cases ended⟩
      · rw [List.append_nil]
        exact writeEach_unopened (same.trans opened) rest
      · rw [openings, opened]
        exact .through
    | ok reading =>
      obtain ⟨writes, error, t, plain, listed, settles, written, tally⟩ := writeSource_traced e unit.name reading s log
      cases error with
      | some error =>
        refine ⟨[⟨unit.name, writes.countP isWritten⟩], some error, t, (.unit unit.name, none) :: writes,
          writeEach_stopped opened plain rest, writeEach_stopped (same.trans opened) listed rest, ?_,
          by simp [StartsWithUnit, isUnit], ?_, ⟨rest.map SourceUnit.name, rfl⟩, fun ended => by cases ended⟩
        · rw [openings, opened]
          exact settles.stopped rfl _
        · have alone := @tallied_unit _ writes [] written (by simp [StartsWithUnit]) unit.name
          rw [List.append_nil] at alone
          rw [alone, tally]
          rfl
      | none =>
        -- The next unit is opened in the state that this one and the record of it leave.
        obtain ⟨tallies, error, u, made, others, others_listed, behind, starts, counted, names, all⟩ :=
          ih (e.note (unitRecord ⟨unit.name, writes.countP isWritten⟩) t) (log ++ (.unit unit.name, none) :: writes)
        have next : stateBehind e read unit s = e.note (unitRecord ⟨unit.name, writes.countP isWritten⟩) t := by
          rw [stateBehind, opened]
          dsimp only
          rw [plain]
        refine ⟨⟨unit.name, writes.countP isWritten⟩ :: tallies, error, u, (.unit unit.name, none) :: writes ++ made,
          ?_, ?_, ?_, by simp [StartsWithUnit, isUnit], ?_, ?_, ?_⟩
        · rw [writeEach_written opened plain, others]
        · have noted : e.traced.note (unitRecord ⟨unit.name, writes.countP isWritten⟩)
              (t, log ++ (.unit unit.name, none) :: writes) =
                (e.note (unitRecord ⟨unit.name, writes.countP isWritten⟩) t, log ++ (.unit unit.name, none) :: writes) := rfl
          rw [writeEach_written (same.trans opened) listed, noted, others_listed, List.append_assoc]
        · rw [openings, opened, next]
          exact settles.andThen rfl behind
        · rw [tallied_unit written starts, counted, List.cons_append]
        · exact (List.prefix_cons_inj _).mpr names
        · intro ended
          rw [List.length_cons, List.length_cons, all ended]

theorem planOf_calls {name : Text} {reading : Reading} {call : Call} (member : call ∈ (planOf name reading : Plan ε).calls) :
    call ≠ .bootstrap ∧ call ≠ .flush := by
  rcases List.mem_cons.mp member with rfl | write
  · simp
  · obtain ⟨c, -, rfl⟩ := List.mem_map.mp write
    simp

theorem planOfEach_calls {opened : List (Text × Except FileError Reading)} {call : Call}
    (member : call ∈ (planOfEach opened : Plan ε).calls) : call ≠ .bootstrap ∧ call ≠ .flush := by
  induction opened with
  | nil => cases member
  | cons unit rest ih =>
    obtain ⟨name, reading⟩ := unit
    cases reading with
    | error cause => cases member
    | ok reading =>
      rw [planOfEach, Plan.andThen] at member
      split at member
      · exact planOf_calls member
      · rcases List.mem_append.mp member with here | later
        · exact planOf_calls here
        · exact ih later

/-! ### The whole sequence -/

def planOfUnits (bootstrap : Bool) (opened : List (Text × Except FileError Reading)) : Plan ε :=
  let units : Plan ε := planOfEach opened
  if bootstrap then ⟨.bootstrap :: units.calls, units.fault⟩ else units

def begun (e : Emitter σ ε) (bootstrap : Bool) (s : σ) : σ := if bootstrap then stateOf (e.bootstrap s) else s

/-- A trace that a plan for units can leave, with the error and the tallies that go with it. -/
structure Orchestrated (plan : Plan ε) (units : List SourceUnit) (trace : Trace ε) (error : Option (UnitError ε))
    (tallies : List Tally) : Prop where
  settles : Settles plan trace error
  succeeds : error = none ↔ (∀ entry ∈ trace, entry.2 = none) ∧ plan.fault = none
  counts : tallies = tallied trace ++ unopenedTally error
  names : tallies.map Tally.unit <+: units.map SourceUnit.name
  complete : error = none → tallies.length = units.length
  unstarted : ∀ cause, (.bootstrap, some cause) ∈ trace → tallies = []
  unflushed : ∀ entry ∈ trace, entry.1 ≠ .flush

theorem writeUnits_traced (e : Emitter σ ε) (read : σ → Source → Except FileError Reading) (bootstrap : Bool)
    (units : List SourceUnit) (s : σ) :
    ∃ tallies error t trace,
      writeUnits e read bootstrap units s = (tallies, error, t) ∧
      writeUnits e.traced (beside read) bootstrap units (s, []) = (tallies, error, (t, trace)) ∧
      Orchestrated (planOfUnits bootstrap (openings e read units (begun e bootstrap s))) units trace error tallies := by
  cases bootstrap with
  | false =>
    obtain ⟨tallies, error, t, trace, plain, listed, settles, -, counts, names, complete⟩ := writeEach_traced e read units s []
    refine ⟨tallies, error, t, trace, plain, listed, settles, settles.error_eq_none, counts, names, complete, ?_, ?_⟩
    · intro cause member
      exact ((planOfEach_calls (settles.mem member)).1 rfl).elim
    · rintro ⟨call, result⟩ member
      exact (planOfEach_calls (settles.mem member)).2
  | true =>
    cases call : e.bootstrap s with
    | error cause t =>
      have traced : e.traced.bootstrap (s, []) = .error cause (t, [(.bootstrap, some cause)]) := traceCall_error call []
      have settles : Settles (planOfUnits true (openings e read units (begun e true s))) [(.bootstrap, some cause)]
          (some (.bootstrap cause)) := @Settles.failed _ _ [] _ _ _ _ rfl rfl
      refine ⟨[], some (.bootstrap cause), t, [(.bootstrap, some cause)], ?_, ?_, settles, settles.error_eq_none, rfl,
        ⟨_, rfl⟩, by simp, fun _ _ => rfl, by simp⟩
      · rw [writeUnits, call]
        rfl
      · rw [writeUnits, traced]
        rfl
    | ok _ t =>
      have traced : e.traced.bootstrap (s, []) = .ok () (t, [(.bootstrap, none)]) := traceCall_ok call []
      have start : begun e true s = t := by rw [begun, if_pos rfl, call, stateOf]
      obtain ⟨tallies, error, u, made, plain, listed, settles, -, counts, names, complete⟩ :=
        writeEach_traced e read units t [(.bootstrap, none)]
      have both := settles.cons .bootstrap
      rw [start]
      refine ⟨tallies, error, u, (.bootstrap, none) :: made, ?_, ?_, both, both.error_eq_none, counts, names, complete, ?_, ?_⟩
      · rw [writeUnits, call]
        exact plain
      · rw [writeUnits, traced]
        exact listed
      · intro cause member
        rcases List.mem_cons.mp member with first | later
        · cases first
        · exact ((planOfEach_calls (settles.mem later)).1 rfl).elim
      · rintro ⟨call, result⟩ member
        rcases List.mem_cons.mp member with first | later
        · cases first
          intro same
          cases same
        · exact (planOfEach_calls (settles.mem later)).2

/-- A build that can create its output makes the calls of its units, then flushes, and ends in what went wrong
with either. The trace beside it changes nothing. -/
theorem run_traced (e : Emitter σ ε) {settings : Settings} {tree emptied : Tree} {path : Text} {inputs : Inputs} {place : Place}
    {s t : σ} {tallies : List Tally} {failed : Option (UnitError ε)} {trace : Trace ε} (off : settings.lint = false)
    (resolved : Inputs.resolve tree path = .ok inputs)
    (created : tree.create (outputPath settings inputs) = .ok (place, emptied))
    (plain : writeUnits e (fun s source => source.read (e.noted s (emptied.write place (e.delivered s)))) settings.bootstrap inputs.units s =
      (tallies, failed, t))
    (listed : writeUnits e.traced (beside fun s source => source.read (e.noted s (emptied.write place (e.delivered s))))
      settings.bootstrap inputs.units (s, []) = (tallies, failed, (t, trace))) :
    ∃ flushed,
      let outcome := run e.traced settings tree path (s, [])
      outcome.state.2 = trace ++ [(.flush, flushed)] ∧ outcome.result.tallies = tallies ∧
      outcome.error = (if failed.isSome || flushed.isSome then some (.emission failed flushed) else none) ∧
      run e settings tree path s = ⟨outcome.result, outcome.error, outcome.tree, outcome.state.1⟩ := by
  have finish : ∀ {u flushed}, emission e settings.bootstrap inputs.units emptied place s = (tallies, failed, flushed, u) →
      emission e.traced settings.bootstrap inputs.units emptied place (s, []) =
        (tallies, failed, flushed, (u, trace ++ [(.flush, flushed)])) →
      let outcome := run e.traced settings tree path (s, [])
      outcome.state.2 = trace ++ [(.flush, flushed)] ∧ outcome.result.tallies = tallies ∧
      outcome.error = (if failed.isSome || flushed.isSome then some (.emission failed flushed) else none) ∧
      run e settings tree path s = ⟨outcome.result, outcome.error, outcome.tree, outcome.state.1⟩ := by
    intro u flushed without beside
    rw [run_emitted resolved created without, run_emitted resolved created beside, off]
    dsimp only
    split
    · exact ⟨rfl, rfl, rfl, rfl⟩
    · exact ⟨rfl, rfl, rfl, rfl⟩
  have units : writeUnits e.traced (fun s source => source.read (e.traced.noted s (emptied.write place (e.traced.delivered s))))
      settings.bootstrap inputs.units (s, []) = (tallies, failed, (t, trace)) := listed
  cases call : e.flush t with
  | ok _ u =>
    have flushed : e.traced.flush (t, trace) = .ok () (u, trace ++ [(.flush, none)]) := traceCall_ok call trace
    refine ⟨none, @finish u none ?_ ?_⟩
    · simp only [emission, plain, call]
    · simp only [emission, units, flushed]
  | error cause u =>
    have flushed : e.traced.flush (t, trace) = .error cause (u, trace ++ [(.flush, some cause)]) := traceCall_error call trace
    refine ⟨some cause, @finish u (some cause) ?_ ?_⟩
    · simp only [emission, plain, call]
    · simp only [emission, units, flushed]

/-- Whatever emitter takes them, the calls of units are those of their plan up to the first that fails, and the
error and the tallies say how far they came. A build that is not checked makes the same calls and one flush, on
every path, and has an error just if the units or the flush had; it holds both. -/
theorem orchestration_trace (e : Emitter σ ε) (settings : Settings) (s : σ) :
    (∀ read units, ∃ tallies error t trace,
      writeUnits e read settings.bootstrap units s = (tallies, error, t) ∧
      writeUnits e.traced (beside read) settings.bootstrap units (s, []) = (tallies, error, (t, trace)) ∧
      Orchestrated (planOfUnits settings.bootstrap (openings e read units (begun e settings.bootstrap s))) units trace error
        tallies) ∧
    (∀ fixed units s, openings e (fun _ => fixed) units s = units.map fun unit => (unit.name, fixed unit.source)) ∧
    ∀ tree path inputs place emptied, settings.lint = false → Inputs.resolve tree path = .ok inputs →
      tree.create (outputPath settings inputs) = .ok (place, emptied) →
      ∃ tallies failed t trace flushed,
        let read := fun s source => Source.read (e.noted s (emptied.write place (e.delivered s))) source
        let outcome := run e.traced settings tree path (s, [])
        writeUnits e.traced (beside read) settings.bootstrap inputs.units (s, []) = (tallies, failed, (t, trace)) ∧
        Orchestrated (planOfUnits settings.bootstrap (openings e read inputs.units (begun e settings.bootstrap s)))
          inputs.units trace failed tallies ∧
        outcome.state.2 = trace ++ [(.flush, flushed)] ∧ outcome.result.tallies = tallies ∧
        (outcome.error = none ↔ failed = none ∧ flushed = none) ∧
        (outcome.error ≠ none → outcome.error = some (.emission failed flushed)) ∧
        run e settings tree path s = ⟨outcome.result, outcome.error, outcome.tree, outcome.state.1⟩ := by
  refine ⟨fun read units => writeUnits_traced e read settings.bootstrap units s, openings_fixed e, ?_⟩
  intro tree path inputs place emptied off resolved created
  obtain ⟨tallies, failed, t, trace, plain, listed, orchestrated⟩ := writeUnits_traced e
    (fun s source => Source.read (e.noted s (emptied.write place (e.delivered s))) source) settings.bootstrap inputs.units s
  obtain ⟨flushed, calls, counted, error, undisturbed⟩ := run_traced e off resolved created plain listed
  refine ⟨tallies, failed, t, trace, flushed, listed, orchestrated, calls, counted, ?_, ?_, undisturbed⟩
  · rw [error]
    cases failed <;> cases flushed <;> simp
  · intro failing
    rw [error] at failing ⊢
    split
    · rfl
    · rename_i sound
      rw [if_neg sound] at failing
      exact (failing rfl).elim

/-- The second command is refused: the third is not written, and the flush is still made. -/
theorem orchestration_trace_refused :
    let tree : Tree := { nodes := [(["Main.vm"], .file "add\nsub\neq\n")], here := [] }
    let outcome := run Emitter.failing.traced .default tree "Main.vm" (4, [])
    ∃ flushed, outcome.state.2 = [(.bootstrap, none), (.unit "Main", none), (.write (.arithmetic "add"), none),
        (.write (.arithmetic "sub"), some ())] ++ [(.flush, flushed)] ∧
      outcome.result.tallies = [⟨"Main", 1⟩] ∧
      outcome.error = some (.emission (some (.refused "Main" 2 (.arithmetic "sub") ())) flushed) := by
  obtain ⟨tallies, failed, t, trace, flushed, written, -, calls, counted, ended, error, -⟩ :=
    (orchestration_trace Emitter.failing .default 4).2.2
      { nodes := [(["Main.vm"], .file "add\nsub\neq\n")], here := [] } "Main.vm"
      ⟨[⟨"Main", .file "Main.vm"⟩], "Main.asm"⟩ ["Main.asm"]
      { nodes := [(["Main.vm"], .file "add\nsub\neq\n"), (["Main.asm"], .file [])], here := [] } rfl rfl rfl
  have made : ([⟨"Main", 1⟩], some (.refused "Main" 2 (.arithmetic "sub") ()), (0, [(.bootstrap, none), (.unit "Main", none),
      (.write (.arithmetic "add"), none), (.write (.arithmetic "sub"), some ())])) = (tallies, failed, (t, trace)) :=
    Eq.trans (by decide +kernel) written
  cases made
  refine ⟨flushed, calls, counted, error fun none => ?_⟩
  cases (ended.mp none).1

end HackToolchain.Build
