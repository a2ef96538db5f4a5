import HackToolchain.Source.Lines

/-!
Lines of texts that are put together. Cutting at a byte undoes joining with it, so the lines of a source that
is made of others are theirs, one source after the other.
-/

namespace HackToolchain

namespace Text

theorem split_cons (separator b : UInt8) (t : Text) :
    split separator (b :: t) =
      if b = separator then [] :: split separator t else (split separator t).modifyHead (b :: ·) := rfl

theorem split_ne_nil (separator : UInt8) (t : Text) : split separator t ≠ [] := by
  induction t with
  | nil => simp [split]
  | cons b t ih =>
    rw [split_cons]
    split
    · simp
    · cases parts : split separator t with
      | nil => exact (ih parts).elim
      | cons part parts => simp

theorem split_append (separator : UInt8) (s t : Text) :
    split separator (s ++ separator :: t) = split separator s ++ split separator t := by
  induction s with
  | nil => simp [split]
  | cons b s ih =>
    rw [List.cons_append, split_cons, split_cons, ih]
    split
    · rfl
    · obtain ⟨part, parts, first⟩ := List.exists_cons_of_ne_nil (split_ne_nil separator s)
      simp [first]

theorem split_of_not_mem {separator : UInt8} {t : Text} (free : separator ∉ t) : split separator t = [t] := by
  induction t with
  | nil => rfl
  | cons b t ih =>
    simp only [List.mem_cons, not_or] at free
    rw [split_cons, if_neg (fun same => free.1 same.symm), ih free.2]
    rfl

theorem split_free {separator : UInt8} {t part : Text} (member : part ∈ split separator t) : separator ∉ part := by
  induction t generalizing part with
  | nil =>
    obtain rfl := List.mem_singleton.mp member
    simp
  | cons b t ih =>
    rw [split_cons] at member
    split at member
    · rcases List.mem_cons.mp member with rfl | later
      · simp
      · exact ih later
    · rename_i other
      obtain ⟨first, rest, parts⟩ := List.exists_cons_of_ne_nil (split_ne_nil separator t)
      rw [parts] at member ih
      rcases List.mem_cons.mp member with rfl | later
      · have free := @ih first List.mem_cons_self
        simp [Ne.symm other, free]
      · exact ih (List.mem_cons_of_mem first later)

/-- The parts of joined texts, of which there is one at least. -/
theorem split_join (separator : UInt8) {texts : List Text} (nonempty : texts ≠ []) :
    split separator (join [separator] texts) = texts.flatMap (split separator) := by
  induction texts with
  | nil => exact (nonempty rfl).elim
  | cons t texts ih =>
    cases texts with
    | nil => simp [join]
    | cons u texts =>
      have joined : join [separator] (t :: u :: texts) = t ++ separator :: join [separator] (u :: texts) := by
        simp [join]
      rw [joined, split_append, ih (by simp), ← List.flatMap_cons]

end Text

namespace Lines

/-- The parts of a source are its lines, and an empty one behind the last line feed. -/
theorem split_raw (source : Text) :
    Text.split Text.newline source = raw source ∨ Text.split Text.newline source = raw source ++ [[]] := by
  unfold raw
  dsimp only
  split
  · rename_i ends
    right
    obtain ⟨front, last⟩ := List.getLast?_eq_some_iff.mp ends
    simp [last]
  · exact .inl rfl

theorem takeWhile_append_of_long {front back : List Text} (long : ∃ line ∈ front, limit ≤ line.length) :
    (front ++ back).takeWhile (fun line => line.length < limit) = front.takeWhile fun line => line.length < limit := by
  induction front with
  | nil =>
    obtain ⟨line, member, -⟩ := long
    cases member
  | cons line front ih =>
    rw [List.cons_append, List.takeWhile_cons, List.takeWhile_cons]
    split
    · rename_i short
      obtain ⟨other, member, long⟩ := long
      rcases List.mem_cons.mp member with rfl | later
      · simp only [decide_eq_true_eq] at short
        omega
      · rw [ih ⟨other, later, long⟩]
    · rfl

/-- Of a source that cannot be read to its end, the lines in front of the first that is too long are read. -/
theorem contents_length {source : Text} (long : ∃ line ∈ Text.split Text.newline source, limit ≤ line.length) :
    (ofText source).contents.length =
      ((Text.split Text.newline source).takeWhile fun line => line.length < limit).length := by
  have read : (ofText source).contents.length = ((raw source).takeWhile fun line => line.length < limit).length :=
    List.length_map _
  rcases split_raw source with same | more
  · rw [read, same]
  · rw [more] at long ⊢
    obtain ⟨line, member, long⟩ := long
    rcases List.mem_append.mp member with real | last
    · rw [read, takeWhile_append_of_long ⟨line, real, long⟩]
    · rw [List.mem_singleton.mp last] at long
      simp [limit] at long

end Lines

end HackToolchain
