import HackToolchain.Emission.Session

/-!
What a session has written. As long as the sink has not failed, its text grows by exactly the lines
that are emitted, wherever the buffer was emptied in between; and emitting lines in portions is
emitting them at once.
-/

namespace HackToolchain.Emission

namespace Sink

/-- Everything that was stored, delivered or not. -/
def text (s : Sink) : Text := (s.delivered ++ s.pending).toList

theorem deliver_text (s : Sink) (count : Nat) : (s.deliver count).text = s.text := by
  have rest : s.pending.toList.take (max count s.pending.size) = s.pending.toList :=
    List.take_of_length_le (Nat.le_max_right _ _)
  simp [text, deliver, rest]

theorem flush_text (s : Sink) : s.flush.text = s.text := by
  unfold flush
  split
  · rfl
  · split
    · exact deliver_text _ _
    · dsimp only
      split
      · exact deliver_text _ _
      · exact deliver_text _ _

/-- A flush that succeeds leaves nothing behind. -/
theorem flush_delivered {s : Sink} (sound : s.flush.failure = none) : s.flush.delivered.toList = s.text := by
  rw [← flush_text]
  have emptied : s.flush.pending = #[] := by
    unfold flush at sound ⊢
    split at sound
    · rename_i failed
      simp [sound] at failed
    · rename_i intact
      rw [if_neg intact]
      split at sound
      · rename_i free
        simp [free, deliver]
      · dsimp only at sound ⊢
        split at sound
        · rename_i fits
          simp [fits, deliver]
        · simp at sound
  simp [text, emptied]

theorem putByte_failed {s : Sink} {b : UInt8} (failed : s.failure.isSome = true) : s.putByte b = s := by
  unfold putByte
  have still : s.flush = s := by simp [flush, failed]
  simp [still, failed]

theorem putByte_sound {s : Sink} {b : UInt8} (sound : (s.putByte b).failure = none) :
    s.failure = none ∧ (s.putByte b).text = s.text ++ [b] := by
  have before : s.failure = none := by
    cases known : s.failure with
    | none => rfl
    | some e =>
      rw [putByte_failed (by simp [known])] at sound
      simp [known] at sound
  refine ⟨before, ?_⟩
  have same : (if s.pending.size < capacity then s else s.flush).text = s.text := by
    split
    · rfl
    · exact flush_text s
  unfold putByte at sound ⊢
  dsimp only at sound ⊢
  generalize (if s.pending.size < capacity then s else s.flush) = ready at sound same ⊢
  split at sound
  · rename_i failed
    simp [sound] at failed
  · rename_i intact
    rw [if_neg intact, ← same]
    simp [text]

theorem put_append (s : Sink) (t u : Text) : s.put (t ++ u) = (s.put t).put u := by
  simp [put]

theorem put_failed {s : Sink} {t : Text} (failed : s.failure.isSome = true) : s.put t = s := by
  induction t with
  | nil => rfl
  | cons b t ih =>
    show List.foldl putByte (s.putByte b) t = s
    rw [putByte_failed failed]
    exact ih

theorem put_sound {s : Sink} {t : Text} (sound : (s.put t).failure = none) :
    s.failure = none ∧ (s.put t).text = s.text ++ t := by
  induction t generalizing s with
  | nil => exact ⟨sound, by simp [put]⟩
  | cons b t ih =>
    obtain ⟨later, grown⟩ := ih (s := s.putByte b) sound
    obtain ⟨before, first⟩ := putByte_sound later
    refine ⟨before, ?_⟩
    show ((s.putByte b).put t).text = _
    rw [grown, first, List.append_assoc]
    rfl

/-- A sink without a device takes everything. -/
theorem put_free {s : Sink} (free : s.device = none) (sound : s.failure = none) (t : Text) :
    (s.put t).device = none ∧ (s.put t).failure = none := by
  induction t generalizing s with
  | nil => exact ⟨free, sound⟩
  | cons b t ih =>
    have flushed : s.flush.device = none ∧ s.flush.failure = none := by simp [flush, free, sound, deliver]
    have ready : ∀ r : Sink, r.device = none ∧ r.failure = none →
        (if r.failure.isSome then r else { r with pending := r.pending.push b }).device = none ∧
          (if r.failure.isSome then r else { r with pending := r.pending.push b }).failure = none := by
      rintro r ⟨free, sound⟩
      simp [free, sound]
    have first : (s.putByte b).device = none ∧ (s.putByte b).failure = none := by
      unfold putByte
      dsimp only
      split
      · exact ready s ⟨free, sound⟩
      · exact ready s.flush flushed
    exact ih first.1 first.2

end Sink

namespace Session

def text (s : Session) : Text := s.sink.text

@[irreducible] def written (lines : List Line) : Text := Text.unlines (lines.map Line.render)

theorem written_nil : written [] = [] := by
  simp [written, Text.unlines]

theorem written_append (xs ys : List Line) : written (xs ++ ys) = written xs ++ written ys := by
  simp [written, Text.unlines]

/-- The session after lines that were all stored. -/
def append (lines : List Line) (s : Session) : Session :=
  { s with started := true, lines := s.lines + lines.length, sink := s.sink.put (written lines) }

/-! ### Emitting -/

theorem putLines_failed {lines : List Line} {s : Session} (failed : s.sink.failure.isSome = true) :
    putLines lines s = s := by
  cases lines with
  | nil => rfl
  | cons line lines => simp [putLines, Sink.put_failed failed, failed]

theorem putLines_append (xs ys : List Line) (s : Session) :
    putLines (xs ++ ys) s = putLines ys (putLines xs s) := by
  induction xs generalizing s with
  | nil => rfl
  | cons line xs ih =>
    simp only [List.cons_append, putLines]
    split
    · rename_i failed
      exact (putLines_failed failed).symm
    · exact ih _

/-- Only the sink and the count change. Lines behind a failure change nothing, so that the sink takes
them all as one text. -/
theorem putLines_frame (lines : List Line) (s : Session) :
    ∃ n, putLines lines s = { s with lines := n, sink := s.sink.put (written lines) } := by
  induction lines generalizing s with
  | nil => exact ⟨s.lines, by rw [written_nil]; rfl⟩
  | cons line lines ih =>
    have split : written (line :: lines) = (line.render ++ [Text.newline]) ++ written lines := by
      simp [written, Text.unlines]
    rw [split, Sink.put_append, putLines]
    dsimp only
    split
    · rename_i failed
      exact ⟨s.lines, by rw [Sink.put_failed failed]⟩
    · obtain ⟨n, same⟩ := ih { s with sink := s.sink.put (line.render ++ [Text.newline]), lines := s.lines + 1 }
      exact ⟨n, same⟩

theorem putLines_sound {lines : List Line} {s : Session} (sound : (putLines lines s).sink.failure = none) :
    putLines lines s = { s with lines := s.lines + lines.length, sink := s.sink.put (written lines) } := by
  induction lines generalizing s with
  | nil => rw [written_nil]; rfl
  | cons line lines ih =>
    by_cases failed : (s.sink.put (line.render ++ [Text.newline])).failure.isSome = true
    · simp only [putLines, failed, if_true] at sound
      simp [sound] at failed
    · simp only [putLines, failed] at sound ⊢
      rw [if_neg (by simp), ih sound]
      simp [written, Text.unlines, Sink.put, Nat.add_assoc, Nat.add_comm 1]

/-- Emitting succeeds exactly when the sink takes all lines. -/
theorem emit_ok {lines : List Line} {s t : Session} :
    emit lines s = .ok () t ↔ t = s.append lines ∧ t.sink.failure = none := by
  obtain ⟨n, frame⟩ := putLines_frame lines { s with started := true }
  unfold emit
  constructor
  · intro done
    split at done
    · rename_i failed
      unfold checked at done
      split at done <;> simp_all
    · unfold checked at done
      split at done
      · cases done
      · rename_i sound
        obtain rfl := (EStateM.Result.ok.inj done).2
        exact ⟨putLines_sound sound, sound⟩
  · rintro ⟨rfl, sound⟩
    have before : s.sink.failure = none := (Sink.put_sound sound).1
    have after : (putLines lines { s with started := true }).sink.failure = none := by rw [frame]; exact sound
    rw [if_neg (by simp [before]), checked, after]
    exact congrArg _ (putLines_sound after)

theorem emit_free {s : Session} (free : s.sink.device = none) (sound : s.sink.failure = none) (lines : List Line) :
    emit lines s = .ok () (s.append lines) ∧ (s.append lines).sink.device = none ∧ (s.append lines).sink.failure = none :=
  have taken := Sink.put_free free sound (written lines)
  ⟨emit_ok.mpr ⟨rfl, taken.2⟩, taken⟩

theorem emit_error {lines : List Line} {s t : Session} {e : EmitError} (done : emit lines s = .error e t) :
    t.sink.failure.isSome = true := by
  have kept : ∀ {u : Session}, u.checked = .error e t → t.sink.failure.isSome = true := by
    intro u checked
    unfold Session.checked at checked
    split at checked
    · rename_i known
      obtain ⟨-, rfl⟩ := EStateM.Result.error.inj checked
      simp [known]
    · cases checked
  unfold emit at done
  split at done
  · exact kept done
  · exact kept done

theorem emit_of_failure {lines : List Line} {s : Session} {w : WriteError} (failed : s.sink.failure = some w) :
    emit lines s = .error (.write w) s := by
  rw [emit, if_pos (by simp [failed]), checked, failed]

theorem emit_failed {lines : List Line} {s : Session} (failed : s.sink.failure.isSome = true) :
    ∃ e, emit lines s = .error e s := by
  obtain ⟨w, known⟩ := Option.isSome_iff_exists.mp failed
  exact ⟨.write w, emit_of_failure known⟩

theorem emit_emit (xs ys : List Line) : (do emit xs; emit ys) = emit (xs ++ ys) := by
  funext s
  show EStateM.bind (emit xs) (fun _ => emit ys) s = _
  unfold EStateM.bind emit
  by_cases failed : s.sink.failure.isSome = true
  · cases known : s.sink.failure with
    | none => simp [known] at failed
    | some e => simp [checked, known]
  · simp only [failed]
    rw [if_neg (by simp), if_neg (by simp), putLines_append]
    obtain ⟨n, frame⟩ := putLines_frame xs { s with started := true }
    rw [frame]
    cases known : (s.sink.put (written xs)).failure with
    | some e =>
      have late := @putLines_failed ys { s with started := true, lines := n, sink := s.sink.put (written xs) }
        (by simp [known])
      simp [checked, known, late]
    | none => simp [checked, known]

theorem emit_emitTimes (xs ys : List Line) (n : Nat) :
    (do emit xs; emitTimes ys n) = emit (xs ++ (List.replicate n ys).flatten) := by
  induction n generalizing xs with
  | zero => simp [emitTimes]
  | succ n ih =>
    have regroup : (do emit xs; emitTimes ys (n + 1)) = (do (do emit xs; emit ys); emitTimes ys n) := by
      simp [emitTimes]
    rw [regroup, emit_emit, ih, List.replicate_succ, List.flatten_cons, List.append_assoc]

theorem append_text {lines : List Line} {s : Session} (sound : (s.append lines).sink.failure = none) :
    (s.append lines).text = s.text ++ written lines := (Sink.put_sound sound).2

/-- After a flush that succeeds the device holds everything that was written. -/
theorem flush_ok {s t : Session} (done : flush s = .ok () t) :
    t = { s with sink := s.sink.flush } ∧ t.sink.delivered.toList = s.text := by
  unfold flush at done
  split at done
  · rename_i failed
    unfold checked at done
    split at done <;> simp_all
  · unfold checked at done
    split at done
    · cases done
    · rename_i sound
      obtain rfl := (EStateM.Result.ok.inj done).2
      exact ⟨rfl, Sink.flush_delivered sound⟩

theorem flush_free {s : Session} (free : s.sink.device = none) (sound : s.sink.failure = none) :
    flush s = .ok () { s with sink := s.sink.flush } := by
  have flushed : s.sink.flush.failure = none := by simp [Sink.flush, free, sound, Sink.deliver]
  rw [flush, if_neg (by simp [sound]), checked, flushed]

end Session

end HackToolchain.Emission
