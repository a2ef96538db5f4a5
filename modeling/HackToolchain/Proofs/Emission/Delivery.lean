import HackToolchain.Proofs.Emission.Rejection

/-!
What reaches a device that may fail. A session asks its sink for one byte after the other and now and then
for a flush, and what it asks for does not depend on the device until that has failed. So at every moment
the device holds the beginning of what a session without limit writes, and nothing follows a failure.
-/

namespace HackToolchain.Emission

namespace Sink

inductive Event
  | byte (b : UInt8)
  | flush
deriving DecidableEq, Repr

def Event.bytes : Event → Text
  | .byte b => [b]
  | .flush => []

def take (s : Sink) : Event → Sink
  | .byte b => s.putByte b
  | .flush => s.flush

/-- The sink behind events, one after the other. -/
def replay (s : Sink) (events : List Event) : Sink := events.foldl take s

def bytesOf (events : List Event) : Text := events.flatMap Event.bytes

theorem replay_append (s : Sink) (xs ys : List Event) : s.replay (xs ++ ys) = (s.replay xs).replay ys :=
  List.foldl_append

theorem replay_bytes (s : Sink) (t : Text) : s.replay (t.map .byte) = s.put t := by
  simp only [replay, put, List.foldl_map]
  rfl

theorem bytesOf_append (xs ys : List Event) : bytesOf (xs ++ ys) = bytesOf xs ++ bytesOf ys :=
  List.flatMap_append

theorem replay_failed {s : Sink} (failed : s.failure.isSome = true) (events : List Event) :
    s.replay events = s := by
  induction events with
  | nil => rfl
  | cons event events ih =>
    have same : s.take event = s := by
      cases event with
      | byte b => exact putByte_failed failed
      | flush => simp [take, flush, failed]
    show (s.take event).replay events = s
    rw [same, ih]

theorem replay_free {s : Sink} (free : s.device = none) (sound : s.failure = none) (events : List Event) :
    (s.replay events).device = none ∧ (s.replay events).failure = none := by
  induction events generalizing s with
  | nil => exact ⟨free, sound⟩
  | cons event events ih =>
    have next : (s.take event).device = none ∧ (s.take event).failure = none := by
      cases event with
      | byte b => exact put_free free sound [b]
      | flush => simp [take, flush, free, sound, deliver]
    exact ih next.1 next.2

theorem delivered_prefix (s : Sink) : s.delivered.toList <+: s.text :=
  ⟨s.pending.toList, by simp [text]⟩

/-- A byte that is not stored leaves everything where the flush in front of it put it. -/
theorem putByte_text {s : Sink} {b : UInt8} (failed : (s.putByte b).failure.isSome = true) :
    (s.putByte b).text = s.text := by
  have same : (if s.pending.size < capacity then s else s.flush).text = s.text := by
    split
    · rfl
    · exact flush_text s
  unfold putByte at failed ⊢
  dsimp only at failed ⊢
  generalize (if s.pending.size < capacity then s else s.flush) = ready at failed same ⊢
  split at failed
  · rename_i stuck
    rwa [if_pos stuck]
  · rename_i intact
    exact (intact failed).elim

/-- How a sink relates to the text it was asked to store: the device holds a beginning of it, and the sink
all of it unless it has failed. -/
structure Holds (s : Sink) (t : Text) : Prop where
  reached : s.delivered.toList <+: t
  stored : s.failure = none → s.text = t

theorem Holds.take {s : Sink} {t : Text} (holds : Holds s t) (event : Event) :
    Holds (s.take event) (t ++ event.bytes) := by
  by_cases failed : s.failure.isSome = true
  · have same : s.take event = s := replay_failed failed [event]
    rw [same]
    refine ⟨holds.reached.trans (List.prefix_append _ _), ?_⟩
    intro sound
    simp [sound] at failed
  · have stored : s.text = t := holds.stored (Option.not_isSome_iff_eq_none.mp failed)
    cases event with
    | flush =>
      have same : s.flush.text = t := (flush_text s).trans stored
      simp only [Sink.take, Event.bytes, List.append_nil]
      exact ⟨same ▸ delivered_prefix s.flush, fun _ => same⟩
    | byte b =>
      simp only [Sink.take, Event.bytes]
      cases known : (s.putByte b).failure with
      | none =>
        have grown : (s.putByte b).text = t ++ [b] := stored ▸ (putByte_sound known).2
        exact ⟨grown ▸ delivered_prefix (s.putByte b), fun _ => grown⟩
      | some e =>
        have same : (s.putByte b).text = t := (putByte_text (by simp [known])).trans stored
        refine ⟨?_, by simp [known]⟩
        exact (same ▸ delivered_prefix (s.putByte b)).trans (List.prefix_append t [b])

theorem Holds.replay {s : Sink} {t : Text} (holds : Holds s t) (events : List Event) :
    Holds (s.replay events) (t ++ bytesOf events) := by
  induction events generalizing s t with
  | nil => simpa [Sink.replay, bytesOf] using holds
  | cons event events ih =>
    have whole : t ++ bytesOf (event :: events) = (t ++ event.bytes) ++ bytesOf events := by simp [bytesOf]
    rw [whole]
    exact ih (holds.take event)

end Sink

open Session

/-- Sessions that do the same with every request, whatever becomes of their output. -/
structure Session.Alike (s t : Session) : Prop where
  stackBase : s.stackBase = t.stackBase
  entryPoint : s.entryPoint = t.entryPoint
  naming : s.naming = t.naming
  started : s.started = t.started

theorem Session.emit_cases {s : Session} (sound : s.sink.failure = none) (lines : List Line) :
    emit lines s = .ok () (s.append lines) ∨
      ∃ e t, emit lines s = .error (.write e) t ∧ t.sink = s.sink.put (written lines) ∧ t.sink.failure = some e := by
  obtain ⟨n, frame⟩ := putLines_frame lines { s with started := true }
  cases known : (s.sink.put (written lines)).failure with
  | none => exact .inl (emit_ok.mpr ⟨rfl, known⟩)
  | some e =>
    refine .inr ⟨e, putLines lines { s with started := true }, ?_, by rw [frame], by rw [frame]; exact known⟩
    rw [emit, if_neg (by simp [sound]), checked, frame]
    simp only [known]

namespace Request

/-- What a request asks of the sink: the bytes of its lines if it is granted, and nothing if it is refused. -/
def events (r : Request) (s : Session) : List Sink.Event :=
  if r = .flush then [.flush]
  else if r = .bootstrap ∧ s.started = true then []
  else (written (r.lines s)).map .byte

theorem next_ok {r : Request} {s t : Session} (done : r.run s = .ok () t) : r.next s = t := by
  simp [next, done]

theorem next_error {r : Request} {s t : Session} {e : EmitError} (stopped : r.run s = .error e t) :
    r.next s = t := by
  simp [next, stopped]

theorem next_flush (s : Session) : next .flush s = { s with sink := s.sink.flush } := by
  have ran : Request.flush.run s = checked { s with sink := s.sink.flush } := by
    show Session.flush s = _
    unfold Session.flush
    split
    · rename_i failed
      rw [show s.sink.flush = s.sink by simp [Sink.flush, failed]]
    · rfl
  cases known : s.sink.flush.failure with
  | none => exact next_ok (by rw [ran, checked]; simp only [known])
  | some w => exact next_error (e := .write w) (by rw [ran, checked]; simp only [known])

theorem lines_refused {r : Request} {c : Command} {e : EmitError} {s : Session} (asked : r.command? = some c)
    (refused : s.naming.code c = .error e) : r.lines s = [] := by
  cases r <;> simp_all [lines, command?]

/-- What one request does to a session, seen from one that is alike and has no device: the sink is asked for
the same, and unless it fails the two stay alike. -/
structure Twinned (r : Request) (s t : Session) : Prop where
  sink : (r.next s).sink = s.sink.replay (r.events t)
  alike : (r.next s).sink.failure = none → Alike (r.next s) (r.next t)

section Twins

variable {s t : Session} (alike : Alike s t) (sound : s.sink.failure = none) (free : t.sink.device = none)
  (intact : t.sink.failure = none)

include alike sound free intact

theorem twinned_command {r : Request} {c : Command} (asked : r.command? = some c) : Twinned r s t := by
  have listed : r.events t = (written (r.lines t)).map .byte := by
    rw [events, if_neg (by rintro rfl; cases asked), if_neg (by rintro ⟨rfl, -⟩; cases asked)]
  have runs : ∀ u, r.run u = write c u := congrFun (run_command asked)
  cases coded : t.naming.code c with
  | error e =>
    have first : r.next s = s := next_error (by rw [runs, write_run, alike.naming, coded])
    have second : r.next t = t := next_error (by rw [runs, write_run, coded])
    refine ⟨?_, fun _ => ?_⟩
    · rw [listed, lines_refused asked coded, written_nil, first]
      rfl
    · rw [first, second]
      exact alike
  | ok code =>
    obtain ⟨wrote, -⟩ := @emit_free ((t.rename (t.naming.after c)).trace c.render) free intact (.comment c.render :: code)
    have second := next_ok (r := r) (s := t) (by rw [runs, write_run, coded]; exact wrote)
    rw [lines_command asked coded] at listed
    rcases @emit_cases ((s.rename (t.naming.after c)).trace c.render) sound (.comment c.render :: code) with
      done | ⟨e, u, stopped, grown, known⟩
    · have first := next_ok (r := r) (s := s) (by rw [runs, write_run, alike.naming, coded]; exact done)
      refine ⟨?_, fun _ => ?_⟩
      · rw [listed, Sink.replay_bytes, first]
        rfl
      · rw [first, second]
        exact ⟨alike.stackBase, alike.entryPoint, rfl, rfl⟩
    · have first := next_error (r := r) (s := s) (by rw [runs, write_run, alike.naming, coded]; exact stopped)
      refine ⟨?_, fun sound => ?_⟩
      · rw [listed, Sink.replay_bytes, first]
        exact grown
      · rw [first] at sound
        simp [known] at sound

theorem twinned_bootstrap : Twinned .bootstrap s t := by
  have runs : ∀ u, Request.bootstrap.run u = writeBootstrap u := fun _ => rfl
  by_cases begun : t.started = true
  · have first : next .bootstrap s = s := next_error (by rw [runs, writeBootstrap_run, alike.started, if_pos begun])
    have second : next .bootstrap t = t := next_error (by rw [runs, writeBootstrap_run, if_pos begun])
    refine ⟨?_, fun _ => ?_⟩
    · rw [first, events, if_neg (by simp), if_pos ⟨rfl, begun⟩]
      rfl
    · rw [first, second]
      exact alike
  · -- The stack pointer is set by lines of their own, and the call behind them is a request like any other.
    obtain ⟨front, named⟩ : ∃ front, front = Line.comment "bootstrap" :: setStackPointer t.stackBase := ⟨_, rfl⟩
    let call : Request := .call t.entryPoint 0
    obtain ⟨wrote, free', intact'⟩ := @emit_free (t.trace "bootstrap") free intact front
    have listed : events .bootstrap t =
        (written front).map .byte ++ call.events ((t.trace "bootstrap").append front) := by
      have called : call.events ((t.trace "bootstrap").append front) =
          (written (call.lines ((t.trace "bootstrap").append front))).map .byte := by
        rw [events, if_neg (by simp [call]), if_neg (by simp [call])]
      rw [events, if_neg (by simp), if_neg (fun both => begun both.2), called, ← List.map_append, ← written_append, named]
      rfl
    have second : next .bootstrap t = call.next ((t.trace "bootstrap").append front) := by
      rw [next, runs, writeBootstrap_run, if_neg begun, ← named, wrote]
      rfl
    rcases @emit_cases (s.trace "bootstrap") sound front with done | ⟨e, u, stopped, grown, known⟩
    · have first : next .bootstrap s = call.next ((s.trace "bootstrap").append front) := by
        rw [next, runs, writeBootstrap_run, alike.started, if_neg begun, alike.stackBase, ← named, done, alike.entryPoint]
        rfl
      have between : Alike ((s.trace "bootstrap").append front) ((t.trace "bootstrap").append front) :=
        ⟨alike.stackBase, alike.entryPoint, alike.naming, rfl⟩
      have stored : ((s.trace "bootstrap").append front).sink.failure = none := (emit_ok.mp done).2
      obtain ⟨sink, after⟩ := twinned_command between stored free' intact' (show call.command? = some _ from rfl)
      refine ⟨?_, fun kept => ?_⟩
      · rw [first, sink, listed, Sink.replay_append, Sink.replay_bytes]
        rfl
      · rw [first] at kept ⊢
        rw [second]
        exact after kept
    · have first : next .bootstrap s = u := next_error (e := .write e)
        (by rw [runs, writeBootstrap_run, alike.started, if_neg begun, alike.stackBase, ← named, stopped])
      have failed : (s.sink.put (written front)).failure.isSome = true := by
        have same : u.sink = s.sink.put (written front) := grown
        rw [← same, known]
        rfl
      refine ⟨?_, fun kept => ?_⟩
      · rw [first, listed, Sink.replay_append, Sink.replay_bytes, Sink.replay_failed failed]
        exact grown
      · rw [first, known] at kept
        cases kept

omit sound free intact in
theorem twinned_flush : Twinned .flush s t := by
  refine ⟨?_, fun _ => ?_⟩
  · rw [next_flush]
    rfl
  · rw [next_flush, next_flush]
    exact ⟨alike.stackBase, alike.entryPoint, alike.naming, alike.started⟩

theorem twinned (r : Request) : Twinned r s t := by
  cases asked : r.command? with
  | some c => exact twinned_command alike sound free intact asked
  | none =>
    have silent : r ≠ .flush → r ≠ .bootstrap → r.lines t = [] → r.events t = [] := by
      intro other late empty
      rw [events, if_neg other, if_neg (fun both => late both.1), empty, written_nil]
      rfl
    cases r with
    | bootstrap => exact twinned_bootstrap alike sound free intact
    | flush => exact twinned_flush alike
    | unit name =>
      refine ⟨?_, fun _ => ⟨alike.stackBase, alike.entryPoint, alike.naming, alike.started⟩⟩
      rw [silent (by simp) (by simp) rfl]
      rfl
    | access direction segment index =>
      cases direction with
      | neither =>
        obtain ⟨e, first⟩ := run_neither segment index s
        obtain ⟨e', second⟩ := run_neither segment index t
        refine ⟨?_, fun _ => ?_⟩
        · rw [next_error first, silent (by simp) (by simp) rfl]
          rfl
        · rw [next_error first, next_error second]
          exact alike
      | push => cases asked
      | pop => cases asked
    | _ => cases asked

end Twins

end Request

namespace Session

/-- What requests ask of the sink of a session without a device, one after the other. -/
def stream : List Request → Session → List Sink.Event
  | [], _ => []
  | r :: requests, s => r.events s ++ stream requests (r.next s)

theorem stream_append (before rest : List Request) (s : Session) :
    stream (before ++ rest) s = stream before s ++ stream rest (served before s) := by
  induction before generalizing s with
  | nil => rfl
  | cons r before ih =>
    show r.events s ++ stream (before ++ rest) (r.next s) = _
    rw [ih, ← List.append_assoc]
    rfl

theorem served_failed {s : Session} (failed : s.sink.failure.isSome = true) (requests : List Request) :
    (served requests s).sink = s.sink := by
  induction requests generalizing s with
  | nil => rfl
  | cons r requests ih =>
    have same : (r.next s).sink = s.sink := Request.next_failed failed
    show (served requests (r.next s)).sink = s.sink
    rw [ih (same ▸ failed), same]

/-- The sink of a session is asked for what a session without a device asks for. After a failure the two
may name things differently, but then the sink takes nothing more. -/
theorem served_sink {s t : Session} (alike : s.sink.failure = none → Alike s t) (free : t.sink.device = none)
    (intact : t.sink.failure = none) (requests : List Request) :
    (served requests s).sink = s.sink.replay (stream requests t) := by
  induction requests generalizing s t with
  | nil => rfl
  | cons r requests ih =>
    by_cases failed : s.sink.failure.isSome = true
    · rw [served_failed failed, Sink.replay_failed failed]
    · have sound : s.sink.failure = none := Option.not_isSome_iff_eq_none.mp failed
      have step := Request.twinned (alike sound) sound free intact r
      have kept : (r.next t).sink.device = none ∧ (r.next t).sink.failure = none := by
        rw [(Request.twinned ⟨rfl, rfl, rfl, rfl⟩ intact free intact r).sink]
        exact Sink.replay_free free intact _
      show (served requests (r.next s)).sink = s.sink.replay (r.events t ++ stream requests (r.next t))
      rw [Sink.replay_append, ← step.sink]
      exact ih step.alike kept.1 kept.2

theorem flush_sound {s t : Session} (done : flush s = .ok () t) : s.sink.failure = none := by
  cases known : s.sink.failure with
  | none => rfl
  | some e => simp [flush, checked, known] at done

theorem flush_of_sound {s : Session} (sound : s.sink.flush.failure = none) :
    flush s = .ok () { s with sink := s.sink.flush } := by
  cases known : s.sink.failure with
  | none => simp [flush, checked, known, sound]
  | some e => simp [Sink.flush, known] at sound

end Session

/-- Output is not cut short in silence. Over a device that fails, or takes only part of a write, once its limit
is exceeded, a sink is asked for the same bytes and flushes as in a session without limit. At every moment
between two of these the device holds the beginning of the bytes asked for, which are the beginning of the
text without limit; behind a failure nothing more reaches it. If a last flush succeeds, no request before
it failed with a write error, and the device holds the whole text. -/
theorem no_silent_truncation (stackBase : Int) (entryPoint : Text) (device : Device) (requests : List Request) :
    let limited := Session.start stackBase entryPoint (some device)
    let free := Session.start stackBase entryPoint none
    let text := (served requests free).text
    let sink := fun moment => limited.sink.replay moment
    (∀ before after, requests = before ++ after →
        (served before limited).sink = sink (stream before free) ∧ stream before free <+: stream requests free) ∧
      (∀ moment, moment <+: stream requests free →
        (sink moment).delivered.toList <+: Sink.bytesOf moment ∧ Sink.bytesOf moment <+: text) ∧
      (∀ moment later, moment <+: later → (sink moment).failure.isSome = true →
        (sink later).delivered = (sink moment).delivered) ∧
      ∀ t, Session.flush (served requests limited) = .ok () t →
        (∀ before r after e u, requests = before ++ r :: after →
          r.run (served before limited) ≠ .error (.write e) u) ∧
        t.sink.delivered.toList = text := by
  intro limited free text sink
  have alike : Alike limited free := ⟨rfl, rfl, rfl, rfl⟩
  have reached : ∀ requests, (served requests limited).sink = sink (stream requests free) :=
    fun requests => served_sink (fun _ => alike) rfl rfl requests
  have holds : ∀ moment, (sink moment).Holds (Sink.bytesOf moment) := fun moment =>
    Sink.Holds.replay (s := limited.sink) (t := []) ⟨List.nil_prefix, fun _ => rfl⟩ moment
  have whole : Sink.bytesOf (stream requests free) = text := by
    have same : (served requests free).sink = free.sink.replay (stream requests free) :=
      served_sink (fun _ => ⟨rfl, rfl, rfl, rfl⟩) rfl rfl requests
    have stored := Sink.Holds.replay (s := free.sink) (t := []) ⟨List.nil_prefix, fun _ => rfl⟩ (stream requests free)
    show _ = (served requests free).sink.text
    rw [same, stored.stored (Sink.replay_free rfl rfl _).2]
    rfl
  refine ⟨?_, ?_, ?_, ?_⟩
  · rintro before after rfl
    refine ⟨reached before, ?_⟩
    rw [stream_append]
    exact List.prefix_append _ _
  · rintro moment ⟨rest, split⟩
    refine ⟨(holds moment).reached, ?_⟩
    rw [← whole, ← split, Sink.bytesOf_append]
    exact List.prefix_append _ _
  · rintro moment _ ⟨rest, rfl⟩ failed
    have same : sink (moment ++ rest) = sink moment := by
      show limited.sink.replay (moment ++ rest) = _
      rw [Sink.replay_append, Sink.replay_failed failed]
    rw [same]
  · intro t flushed
    have sound : (served requests limited).sink.failure = none := flush_sound flushed
    refine ⟨?_, ?_⟩
    · rintro before r after e u rfl stopped
      rw [served_append] at sound
      have after : (r.next (served before limited)).sink.failure = none := served_sound sound
      rw [Request.next_error stopped] at after
      have failed := Request.failed_of_write_error stopped
      simp [after] at failed
    · rw [(flush_ok flushed).2]
      show (served requests limited).sink.text = text
      rw [reached requests] at sound ⊢
      rw [(holds _).stored sound, whole]

/-- A text of as many bytes as a device takes is delivered whole. -/
theorem no_silent_truncation_fitting :
    ∃ t, Session.flush (served [.label "L"] (Session.start 0 [] (some { limit := 15, short := true }))) = .ok () t ∧
      t.sink.delivered.toList = "// label L\n(L)\n" := by
  have flushed := @flush_of_sound (served [.label "L"] (Session.start 0 [] (some { limit := 15, short := true })))
    (by decide +kernel)
  have whole := (no_silent_truncation 0 [] { limit := 15, short := true } [.label "L"]).2.2.2 _ flushed
  exact ⟨_, flushed, whole.2.trans (by decide +kernel)⟩

-- With one byte less the last write is short, and the sink notices.
example :
    let sink := (served [.label "L"] (Session.start 0 [] (some { limit := 14, short := true }))).sink.flush
    sink.failure = some .shortWrite ∧ sink.delivered.toList = "// label L\n(L)" := by decide +kernel

end HackToolchain.Emission
