import HackToolchain.Proofs.Emission.History
import HackToolchain.Proofs.Emission.Language

/-!
Rejected requests. Whether a session rejects a request depends on what is asked, and for a bootstrap on whether
anything was written before. It does so before it takes a number, changes the scope, logs or writes, so that what
follows is as if the request had not been made.
-/

namespace HackToolchain

def Direction.segments : Direction → List Text
  | .push => Command.pushSegments
  | .pop => Command.popSegments
  | .neither => []

namespace Emission

open Session

/-- An error of the request itself and not of the sink. -/
def EmitError.isRejection : EmitError → Bool
  | .write _ => false
  | .unsupportedOperation _ | .unsupportedSegment .. | .negativeIndex | .bootstrapOrder => true

def rejectedAccess? (direction : Direction) (segment : Text) (index : Int) : Option EmitError :=
  if index < 0 then some .negativeIndex
  else if segment ∈ direction.segments then none
  else some (.unsupportedSegment direction segment)

def rejectedCount? (n : Int) : Option EmitError := if n < 0 then some .negativeIndex else none

def rejectedCommand? : Command → Option EmitError
  | .arithmetic operation => if operation ∈ Command.operations then none else some (.unsupportedOperation operation)
  | .push segment index => rejectedAccess? .push segment index
  | .pop segment index => rejectedAccess? .pop segment index
  | .function _ locals => rejectedCount? locals
  | .call _ arguments => rejectedCount? arguments
  | .label _ | .goto _ | .ifGoto _ | .ret => none

/-- Why a request is rejected, if it is, by a session that has written something or nothing. -/
def Request.rejected? (started : Bool) : Request → Option EmitError
  | .bootstrap => if started then some .bootstrapOrder else none
  | .access direction segment index => rejectedAccess? direction segment index
  | r => r.command?.bind rejectedCommand?

/-! ### Commands -/

theorem accessCode?_eq_none (direction : Direction) (segment : Text) (index : Int) :
    accessCode? direction segment index = none ↔ segment ∉ direction.segments := by
  cases direction with
  | push => exact Command.accessCode?_push segment index
  | pop => exact Command.accessCode?_pop segment index
  | neither => simp [accessCode?, Direction.segments]

theorem access_rejected (direction : Direction) (segment : Text) (index : Int) :
    rejectedAccess? direction segment index =
      match Naming.code.access direction segment index with
      | .error e => some e
      | .ok _ => none := by
  unfold rejectedAccess? Naming.code.access
  split
  · rfl
  · cases found : accessCode? direction segment index with
    | none => rw [if_neg ((accessCode?_eq_none direction segment index).mp found)]
    | some code =>
      have known : segment ∈ direction.segments := by
        apply Decidable.of_not_not
        intro unknown
        rw [(accessCode?_eq_none direction segment index).mpr unknown] at found
        cases found
      rw [if_pos known]

/-- A command is rejected exactly if it has no code, whatever names are in force. -/
theorem command_rejected (n : Naming) (c : Command) :
    rejectedCommand? c = match n.code c with | .error e => some e | .ok _ => none := by
  cases c with
  | arithmetic operation =>
    by_cases known : operation ∈ Command.operations
    · rw [rejectedCommand?, if_pos known]
      simp only [Command.operations, List.mem_cons, List.not_mem_nil, or_false] at known
      rcases known with rfl | rfl | rfl | rfl <;> rfl
    · rw [rejectedCommand?, if_neg known]
      simp only [Command.operations, List.mem_cons, List.not_mem_nil, or_false, not_or] at known
      obtain ⟨add, sub, eq, gt⟩ := known
      rw [Naming.code, if_neg add, if_neg sub, if_neg eq, if_neg gt]
  | push segment index => exact access_rejected .push segment index
  | pop segment index => exact access_rejected .pop segment index
  | function name locals =>
    simp only [rejectedCommand?, rejectedCount?, Naming.code]
    split <;> rfl
  | call name arguments =>
    simp only [rejectedCommand?, rejectedCount?, Naming.code]
    split <;> rfl
  | _ => rfl

theorem code_isRejection {n : Naming} {c : Command} {e : EmitError} (refused : n.code c = .error e) :
    e.isRejection = true := by
  rcases Naming.code_error refused with ⟨rfl, -⟩ | ⟨_, -, rfl⟩ | ⟨_, _, _, -, rfl, -⟩ <;> rfl

namespace Session

theorem checked_error {s t : Session} {e : EmitError} (stopped : s.checked = .error e t) :
    t = s ∧ ∃ w, e = .write w ∧ s.sink.failure = some w := by
  unfold checked at stopped
  split at stopped
  · rename_i w known
    obtain ⟨rfl, rfl⟩ := EStateM.Result.error.inj stopped
    exact ⟨rfl, w, rfl, known⟩
  · cases stopped

theorem emit_write_error {lines : List Line} {s t : Session} {e : EmitError} (stopped : emit lines s = .error e t) :
    ∃ w, e = .write w ∧ t.sink.failure = some w ∧ (t.started = true ∨ t = s) := by
  unfold emit at stopped
  split at stopped
  · obtain ⟨rfl, w, rfl, known⟩ := checked_error stopped
    exact ⟨w, rfl, known, .inr rfl⟩
  · obtain ⟨rfl, w, rfl, known⟩ := checked_error stopped
    obtain ⟨n, frame⟩ := putLines_frame lines { s with started := true }
    exact ⟨w, rfl, known, .inl (by rw [frame])⟩

theorem write_cases (c : Command) (s : Session) :
    (∃ e, rejectedCommand? c = some e ∧ e.isRejection = true ∧ write c s = .error e s) ∨
      rejectedCommand? c = none ∧
        ((∃ t, write c s = .ok () t) ∨ ∃ w t, write c s = .error (.write w) t ∧ t.sink.failure = some w) := by
  rw [command_rejected s.naming, write_run]
  cases coded : s.naming.code c with
  | error e => exact .inl ⟨e, rfl, code_isRejection coded, rfl⟩
  | ok code =>
    refine .inr ⟨rfl, ?_⟩
    dsimp only
    cases emitted : emit (.comment c.render :: code) ((s.rename (s.naming.after c)).trace c.render) with
    | ok _ t => exact .inl ⟨t, rfl⟩
    | error e t =>
      obtain ⟨w, rfl, known, -⟩ := emit_write_error emitted
      exact .inr ⟨w, t, rfl, known⟩

end Session

namespace Request

theorem rejected?_command {r : Request} {c : Command} (asked : r.command? = some c) (started : Bool) :
    r.rejected? started = rejectedCommand? c := by
  cases r with
  | access direction segment index => cases direction <;> cases asked <;> rfl
  | _ => cases asked <;> rfl

/-- What becomes of a request: it is rejected and changes nothing, or it is done, or it fails with the error of the
sink. -/
theorem run_cases (r : Request) (s : Session) :
    (∃ e, r.rejected? s.started = some e ∧ e.isRejection = true ∧ r.run s = .error e s) ∨
      r.rejected? s.started = none ∧
        ((∃ t, r.run s = .ok () t) ∨ ∃ w t, r.run s = .error (.write w) t ∧ t.sink.failure = some w) := by
  cases asked : r.command? with
  | some c =>
    rw [rejected?_command asked, run_command asked]
    exact write_cases c s
  | none =>
    cases r with
    | bootstrap =>
      show (∃ e, (if s.started then _ else _) = some e ∧ e.isRejection = true ∧ writeBootstrap s = .error e s) ∨
        (if s.started then _ else _) = none ∧ ((∃ t, writeBootstrap s = .ok () t) ∨
          ∃ w t, writeBootstrap s = .error (.write w) t ∧ t.sink.failure = some w)
      rw [writeBootstrap_run]
      split
      · exact .inl ⟨_, rfl, rfl, rfl⟩
      · refine .inr ⟨rfl, ?_⟩
        cases emitted : emit (.comment "bootstrap" :: setStackPointer s.stackBase) (s.trace "bootstrap") with
        | error e t =>
          obtain ⟨w, rfl, known, -⟩ := emit_write_error emitted
          exact .inr ⟨w, t, rfl, known⟩
        | ok _ t =>
          -- The call behind it has no arguments, which are not too few.
          rcases write_cases (.call s.entryPoint 0) t with ⟨e, rejected, -⟩ | ⟨-, ends⟩
          · cases rejected
          · exact ends
    | flush =>
      refine .inr ⟨rfl, ?_⟩
      show (∃ t, Session.flush s = .ok () t) ∨ ∃ w t, Session.flush s = .error (.write w) t ∧ t.sink.failure = some w
      cases flushed : Session.flush s with
      | ok _ t => exact .inl ⟨t, rfl⟩
      | error e t =>
        unfold Session.flush at flushed
        split at flushed
        · obtain ⟨rfl, w, rfl, known⟩ := checked_error flushed
          exact .inr ⟨w, _, rfl, known⟩
        · obtain ⟨rfl, w, rfl, known⟩ := checked_error flushed
          exact .inr ⟨w, _, rfl, known⟩
    | unit name => exact .inr ⟨rfl, .inl ⟨_, rfl⟩⟩
    | access direction segment index =>
      cases direction with
      | neither =>
        show (∃ e, rejectedAccess? .neither segment index = some e ∧ e.isRejection = true ∧
          writeAccess .neither segment index s = .error e s) ∨ _
        rw [access_rejected, writeAccess_run]
        cases coded : Naming.code.access .neither segment index with
        | error e =>
          refine .inl ⟨e, rfl, ?_, rfl⟩
          rcases Naming.access_error coded with ⟨rfl, -⟩ | ⟨rfl, -⟩ <;> rfl
        | ok code => cases Naming.access_ok coded
      | push => cases asked
      | pop => cases asked
    | _ => cases asked

theorem failed_of_write_error {r : Request} {s t : Session} {w : WriteError}
    (stopped : r.run s = .error (.write w) t) : t.sink.failure = some w := by
  rcases r.run_cases s with ⟨e, -, rejection, ran⟩ | ⟨-, ⟨u, done⟩ | ⟨v, u, failed, known⟩⟩
  · obtain ⟨rfl, -⟩ := EStateM.Result.error.inj (ran.symm.trans stopped)
    cases rejection
  · cases done.symm.trans stopped
  · obtain ⟨same, rfl⟩ := EStateM.Result.error.inj (failed.symm.trans stopped)
    rw [known, EmitError.write.inj same]

/-- A request is rejected exactly for what it asks, and the session stays as it is. -/
theorem rejected_iff (r : Request) (s t : Session) (e : EmitError) :
    r.run s = .error e t ∧ e.isRejection = true ↔ r.rejected? s.started = some e ∧ t = s := by
  constructor
  · rintro ⟨stopped, rejection⟩
    rcases r.run_cases s with ⟨cause, rejected, -, ran⟩ | ⟨-, ⟨u, done⟩ | ⟨w, u, failed, -⟩⟩
    · obtain ⟨rfl, rfl⟩ := EStateM.Result.error.inj (ran.symm.trans stopped)
      exact ⟨rejected, rfl⟩
    · cases done.symm.trans stopped
    · obtain ⟨rfl, -⟩ := EStateM.Result.error.inj (failed.symm.trans stopped)
      cases rejection
  · rintro ⟨rejected, rfl⟩
    rcases r.run_cases t with ⟨cause, known, rejection, ran⟩ | ⟨valid, -⟩
    · obtain rfl := Option.some.inj (known.symm.trans rejected)
      exact ⟨ran, rejection⟩
    · rw [rejected] at valid
      cases valid

end Request

namespace Session

theorem writeAll_stopped {before : List Command} {s t : Session} (wrote : writeAll before s = .ok () t) {c : Command}
    {e : EmitError} {u : Session} (stopped : write c t = .error e u) (rest : List Command) :
    writeAll (before ++ c :: rest) s = .error e u := by
  induction before generalizing s with
  | nil =>
    obtain rfl := (EStateM.Result.ok.inj wrote).2
    rw [List.nil_append, writeAll, bind_run, stopped]
  | cons first before ih =>
    obtain ⟨_, middle, written, later⟩ := bind_ok wrote
    rw [List.cons_append, writeAll, bind_run, written]
    exact ih later

theorem generate_of_writeAll {cs : List Command} {s t : Session} (wrote : writeAll cs s = .ok () t) :
    generate false cs s = flush t := by
  show (writeAll cs >>= fun _ => flush) s = flush t
  rw [bind_run, wrote]

end Session

/-- A rejected request changes nothing. A session, whatever it has done before and whatever its sink is, rejects
exactly the requests that are at fault for what they ask, and it is then the same session as before. So where a command
is the first of many to be rejected, a flush behind it ends as it does when only the commands in front were written;
over a sink that takes everything it delivers what those come to. -/
theorem rejection_changes_nothing (s : Session) :
    (∀ (r : Request) (e : EmitError) (t : Session),
        r.run s = .error e t ∧ e.isRejection = true ↔ r.rejected? s.started = some e ∧ t = s) ∧
      ∀ (before : List Command) (c : Command) (rest : List Command) (e : EmitError) (t u : Session),
        writeAll before s = .ok () t → write c t = .error e u → e.isRejection = true →
        writeAll (before ++ c :: rest) s = .error e t ∧ flush t = generate false before s ∧
          (s.sink.device = none → s.sink.failure = none →
            ∃ v, flush t = .ok () v ∧ generate false before s = .ok () v ∧ v.sink.delivered.toList = t.text) := by
  refine ⟨fun r e t => r.rejected_iff s t e, ?_⟩
  intro before c rest e t u wrote stopped rejection
  obtain ⟨-, rfl⟩ := ((Request.translate c).rejected_iff t u e).mp ⟨stopped, rejection⟩
  have ends := generate_of_writeAll wrote
  refine ⟨writeAll_stopped wrote stopped rest, ends.symm, ?_⟩
  intro free sound
  obtain ⟨lines, coded, -⟩ := writeAll_ok wrote
  obtain ⟨v, all, free', sound'⟩ := writeAll_free free sound coded
  obtain rfl := (EStateM.Result.ok.inj (all.symm.trans wrote)).2
  have flushed := flush_free free' sound'
  exact ⟨_, flushed, ends.trans flushed, (flush_ok flushed).2⟩

/-- A number taken by a comparison and the scope of a function are what they were before a pop that is rejected. -/
theorem rejection_changes_nothing_pop :
    let s := Session.start 0 [] none
    ∃ t v, writeAll [.arithmetic "eq", .function "f" 1, .pop "constant" 3, .ret] s =
        .error (.unsupportedSegment .pop "constant") t ∧
      generate false [.arithmetic "eq", .function "f" 1] s = .ok () v ∧ flush t = .ok () v := by
  intro s
  obtain ⟨t, wrote, -⟩ := @writeAll_free s [.arithmetic "eq", .function "f" 1] _ rfl rfl rfl
  have stopped : write (.pop "constant" 3) t = .error (.unsupportedSegment .pop "constant") t := write_run _ t
  obtain ⟨ends, -, output⟩ := (rejection_changes_nothing s).2 _ (.pop "constant" 3) [.ret] _ t t wrote stopped rfl
  obtain ⟨v, flushed, generated, -⟩ := output rfl rfl
  exact ⟨t, v, ends, generated, flushed⟩

end Emission

end HackToolchain
