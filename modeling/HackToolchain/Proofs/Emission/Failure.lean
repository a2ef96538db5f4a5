import HackToolchain.Proofs.Emission.Delivery

/-!
Sessions whose sink has failed. The sink keeps its first failure, and every request that is not rejected for what it
asks fails with it; no line is written or counted any more. But a session looks at a request before it looks at the
sink. So a rejected request says why it is rejected, and a comparison, a call or a function still leaves its mark on the
names in force.
-/

namespace HackToolchain.Emission

open Session

theorem Sink.flush_empty {s : Sink} (empty : s.pending = #[]) (sound : s.failure = none) : s.flush = s := by
  obtain ⟨device, delivered, pending, failure⟩ := s
  obtain rfl : pending = #[] := empty
  obtain rfl : failure = none := sound
  cases device <;> simp [flush, deliver]

/-- Before it has written anything a session has nothing to deliver, and nothing has gone wrong. -/
def Session.Blank (s : Session) : Prop := s.started = false → s.sink.pending = #[] ∧ s.sink.failure = none

namespace Request

/-- A command that writes starts the session; another one leaves the sink as it is. -/
theorem write_started (c : Command) (s : Session) :
    (next (.translate c) s).started = true ∨
      (next (.translate c) s).started = s.started ∧ (next (.translate c) s).sink = s.sink := by
  have ran : (translate c).run s = write c s := rfl
  rw [write_run] at ran
  cases coded : s.naming.code c with
  | error e =>
    rw [coded] at ran
    rw [next_error ran]
    exact .inr ⟨rfl, rfl⟩
  | ok code =>
    rw [coded] at ran
    dsimp only at ran
    cases emitted : emit (.comment c.render :: code) ((s.rename (s.naming.after c)).trace c.render) with
    | ok _ t =>
      rw [next_ok (ran.trans emitted), (emit_ok.mp emitted).1]
      exact .inl rfl
    | error e t =>
      rw [next_error (ran.trans emitted)]
      obtain ⟨w, -, -, started | rfl⟩ := emit_write_error emitted
      · exact .inl started
      · exact .inr ⟨rfl, rfl⟩

theorem blank_next {s : Session} (blank : s.Blank) (r : Request) : (r.next s).Blank := by
  have kept : ∀ {u t : Session}, u.Blank → (t.started = true ∨ t.started = u.started ∧ t.sink = u.sink) → t.Blank := by
    rintro u t blank (begun | ⟨same, sink⟩) unstarted
    · rw [begun] at unstarted
      cases unstarted
    · rw [sink]
      exact blank (same ▸ unstarted)
  cases asked : r.command? with
  | some c =>
    have same : r.next s = next (.translate c) s := by
      simp only [next, run_command asked]
      rfl
    rw [same]
    exact kept blank (write_started c s)
  | none =>
    cases r with
    | bootstrap =>
      have ran : Request.bootstrap.run s = writeBootstrap s := rfl
      rw [writeBootstrap_run] at ran
      by_cases begun : s.started = true
      · rw [if_pos begun] at ran
        rwa [next_error ran]
      · rw [if_neg begun] at ran
        cases emitted : emit (.comment "bootstrap" :: setStackPointer s.stackBase) (s.trace "bootstrap") with
        | error e t =>
          rw [emitted] at ran
          rw [next_error ran]
          obtain ⟨w, -, -, started | rfl⟩ := emit_write_error emitted
          · exact kept blank (.inl started)
          · exact kept blank (.inr ⟨rfl, rfl⟩)
        | ok _ t =>
          have started : t.started = true := by
            rw [(emit_ok.mp emitted).1]
            rfl
          have same : Request.bootstrap.next s = next (.translate (.call s.entryPoint 0)) t := by
            rw [next, ran, emitted]
            rfl
          rw [same]
          rcases write_started (.call s.entryPoint 0) t with begun | ⟨same, -⟩
          · exact kept blank (.inl begun)
          · exact kept blank (.inl (same.trans started))
    | flush =>
      intro unstarted
      rw [next_flush] at unstarted ⊢
      obtain ⟨empty, sound⟩ := blank unstarted
      show s.sink.flush.pending = #[] ∧ s.sink.flush.failure = none
      rw [Sink.flush_empty empty sound]
      exact ⟨empty, sound⟩
    | unit name => exact blank
    | access direction segment index =>
      cases direction with
      | neither =>
        obtain ⟨e, refused⟩ := run_neither segment index s
        rwa [next_error refused]
      | push => cases asked
      | pop => cases asked
    | _ => cases asked

/-- What becomes of a request behind a failure of the sink, unless it is rejected: it fails likewise, and nothing has
changed but the names it would have taken up. -/
theorem run_failed {s : Session} {w : WriteError} (failed : s.sink.failure = some w) (started : s.started = true)
    {r : Request} (asks : ∀ name, r ≠ .unit name) (valid : r.rejected? true = none) :
    ∃ t, r.run s = .error (.write w) t ∧ t.sink = s.sink ∧ t.lines = s.lines ∧ t.started = true ∧
      t.naming = r.after s.naming := by
  cases asked : r.command? with
  | some c =>
    rw [rejected?_command asked, command_rejected s.naming] at valid
    rw [run_command asked, after_command asked, write_run]
    cases coded : s.naming.code c with
    | error e =>
      rw [coded] at valid
      cases valid
    | ok code => exact ⟨_, emit_of_failure failed, rfl, rfl, started, rfl⟩
  | none =>
    cases r with
    | bootstrap => cases valid
    | flush =>
      refine ⟨s, ?_, rfl, rfl, started, rfl⟩
      show Session.flush s = _
      rw [Session.flush, if_pos (by simp [failed]), checked, failed]
    | unit name => exact absurd rfl (asks name)
    | access direction segment index =>
      cases direction with
      | neither =>
        have valid : rejectedAccess? .neither segment index = none := valid
        rw [access_rejected] at valid
        cases coded : Naming.code.access .neither segment index with
        | error e =>
          rw [coded] at valid
          cases valid
        | ok code => cases Naming.access_ok coded
      | push => cases asked
      | pop => cases asked
    | _ => cases asked

theorem after_eq_iff {r : Request} (other : r ≠ .bootstrap) (n : Naming) :
    r.after n = n ↔ r.isComparison = false ∧ r.isCall = false ∧ ∀ name, r.function? = some name → name = n.function := by
  have labels := r.after_labels n
  have calls : (r.after n).calls = n.calls + if r.isCall then 1 else 0 := by simp [r.after_calls, other]
  have function := r.after_function n
  constructor
  · intro same
    rw [same] at labels calls function
    refine ⟨?_, ?_, ?_⟩
    · apply Bool.eq_false_iff.mpr
      intro compares
      rw [if_pos compares] at labels
      omega
    · apply Bool.eq_false_iff.mpr
      intro called
      rw [if_pos called] at calls
      omega
    · intro name known
      rw [known] at function
      exact function.symm
  · rintro ⟨compares, called, scope⟩
    rw [if_neg (by simp [compares])] at labels
    rw [if_neg (by simp [called])] at calls
    have function : (r.after n).function = n.function := by
      rw [function]
      cases known : r.function? with
      | none => rfl
      | some name => exact scope name known
    show (⟨(r.after n).function, (r.after n).labels, (r.after n).calls⟩ : Naming) = n
    rw [function, labels, calls]
    rfl

end Request

theorem Session.blank_served {s : Session} (blank : s.Blank) (requests : List Request) : (served requests s).Blank := by
  induction requests generalizing s with
  | nil => exact blank
  | cons r requests ih => exact ih (Request.blank_next blank r)

/-- How far a failure of the sink sticks. Once a request of a session has failed with a write error, the sink keeps that
error through all requests that follow. A later request that is at fault for what it asks, or asks for a bootstrap, is
rejected as ever and changes nothing. Every other one fails with that error, and writes and counts no line; but it takes
up its names all the same. So it returns the error and leaves names and count alone exactly if it is not rejected, no
comparison, no call, and no function but the one the session is in. -/
theorem failure_sticks_iff {stackBase : Int} {entryPoint : Text} {device : Option Device} {before : List Request}
    {r : Request} {w : WriteError} {u : Session}
    (stopped : r.run (served before (Session.start stackBase entryPoint device)) = .error (.write w) u)
    (between : List Request) (later : Request) (asks : ∀ name, later ≠ .unit name) :
    let s := served (before ++ r :: between) (Session.start stackBase entryPoint device)
    s.sink.failure = some w ∧
      (∀ e, later.rejected? true = some e → later.run s = .error e s) ∧
      (later.rejected? true = none → ∃ t, later.run s = .error (.write w) t ∧ t.sink = s.sink ∧ t.lines = s.lines ∧
        t.naming = later.after s.naming) ∧
      ((∃ t, later.run s = .error (.write w) t ∧ t.lines = s.lines ∧ t.naming = s.naming) ↔
        later.rejected? true = none ∧ later.isComparison = false ∧ later.isCall = false ∧
          ∀ name, later.function? = some name → name = s.function) := by
  intro s
  have reached : s = served between u := by
    show served (before ++ r :: between) _ = _
    rw [served_append, served, Request.next_error stopped]
  have known : u.sink.failure = some w := Request.failed_of_write_error stopped
  have failed : s.sink.failure = some w := by
    rw [reached, served_failed (by simp [known]), known]
  have started : s.started = true := by
    have blank : s.Blank := Session.blank_served (fun _ => ⟨rfl, rfl⟩) _
    cases begun : s.started with
    | true => rfl
    | false =>
      rw [(blank begun).2] at failed
      cases failed
  have rejects : ∀ e, later.rejected? true = some e → later.run s = .error e s ∧ e.isRejection = true := by
    intro e rejected
    exact (later.rejected_iff s s e).mpr ⟨started ▸ rejected, rfl⟩
  have fails := fun valid => Request.run_failed failed started asks valid
  have other : later.rejected? true = none → later ≠ .bootstrap := by
    rintro valid rfl
    cases valid
  refine ⟨failed, fun e rejected => (rejects e rejected).1, ?_, ?_⟩
  · intro valid
    obtain ⟨t, ran, sink, count, -, naming⟩ := fails valid
    exact ⟨t, ran, sink, count, naming⟩
  · constructor
    · rintro ⟨t, ran, -, same⟩
      cases valid : later.rejected? true with
      | some e =>
        obtain ⟨rejected, rejection⟩ := rejects e valid
        obtain ⟨rfl, -⟩ := EStateM.Result.error.inj (rejected.symm.trans ran)
        cases rejection
      | none =>
        obtain ⟨t', ran', -, -, -, naming⟩ := fails valid
        obtain ⟨-, rfl⟩ := EStateM.Result.error.inj (ran.symm.trans ran')
        exact ⟨rfl, (Request.after_eq_iff (other valid) s.naming).mp (naming.symm.trans same)⟩
    · rintro ⟨valid, unnamed⟩
      obtain ⟨t, ran, -, count, -, naming⟩ := fails valid
      exact ⟨t, ran, count, naming.trans ((Request.after_eq_iff (other valid) s.naming).mpr unnamed)⟩

/-- Behind a full disk a return fails as it should, an unknown operation is still rejected, and a comparison still
takes its number. -/
theorem failure_sticks_iff_full :
    let s := served [.label "A", .flush] (Session.start 0 [] (some { limit := 0, short := false }))
    (∃ t, Request.ret.run s = .error (.write .diskFull) t ∧ t.lines = s.lines ∧ t.naming = s.naming) ∧
      (Request.arithmetic "neg").run s = .error (.unsupportedOperation "neg") s ∧
      ∃ t, (Request.arithmetic "eq").run s = .error (.write .diskFull) t ∧ t.naming.labels = s.naming.labels + 1 := by
  intro s
  obtain ⟨u, stopped⟩ : ∃ u,
      Request.flush.run (served [.label "A"] (Session.start 0 [] (some { limit := 0, short := false }))) =
      .error (.write .diskFull) u := ⟨_, rfl⟩
  refine ⟨?_, ?_, ?_⟩
  · obtain ⟨-, -, -, sticks⟩ := failure_sticks_iff stopped [] .ret (by simp)
    exact sticks.mpr ⟨rfl, rfl, rfl, by simp [Request.function?, Request.command?]⟩
  · obtain ⟨-, rejects, -⟩ := failure_sticks_iff stopped [] (.arithmetic "neg") (by simp)
    exact rejects _ rfl
  · obtain ⟨-, -, fails, -⟩ := failure_sticks_iff stopped [] (.arithmetic "eq") (by simp)
    obtain ⟨t, ran, -, -, naming⟩ := fails rfl
    exact ⟨t, ran, by rw [naming]; rfl⟩

end HackToolchain.Emission
