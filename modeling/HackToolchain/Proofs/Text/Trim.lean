import HackToolchain.Proofs.Text.Token

/-!
Tokens of a text that is cut shorter. White space at either end of a text, and a carriage return at the end of
a line, take no part in its tokens; and a text without tokens is white space and nothing else.
-/

namespace HackToolchain.Text

theorem fields_eq (t : Text) : t.fields = (piecesFrom 0 t).filter fun token => !token.isEmpty := rfl

/-! ### White space at the start -/

theorem trimStartFrom_fields (skip : Nat) (t : Text) :
    (trimStartFrom skip t).fields = (piecesFrom skip t).filter fun token => !token.isEmpty := by
  induction t generalizing skip with
  | nil => cases skip <;> rfl
  | cons b rest ih =>
    cases skip with
    | succ skip => exact ih skip
    | zero =>
      cases width : blankWidth (b :: rest) with
      | zero => simp only [trimStartFrom, width, fields_eq]
      | succ more =>
        simp only [trimStartFrom, piecesFrom, width]
        exact ih more

theorem trimStartFrom_solid (skip : Nat) (t : Text) (nonempty : trimStartFrom skip t ≠ []) :
    blankWidth (trimStartFrom skip t) = 0 := by
  induction t generalizing skip with
  | nil => cases skip <;> exact (nonempty rfl).elim
  | cons b rest ih =>
    cases skip with
    | succ skip => exact ih skip nonempty
    | zero =>
      cases width : blankWidth (b :: rest) with
      | zero =>
        simp only [trimStartFrom, width]
      | succ more =>
        simp only [trimStartFrom, width] at nonempty ⊢
        exact ih more nonempty

theorem fields_ne_nil {t : Text} (nonempty : t ≠ []) (solid : blankWidth t = 0) : t.fields ≠ [] := by
  cases t with
  | nil => exact (nonempty rfl).elim
  | cons b rest =>
    obtain ⟨first, more, cut, -⟩ := piecesFrom_isSolid 0 rest
    simp [fields_eq, piecesFrom, solid, cut]

/-! ### White space at the end -/

theorem attach_eq_nil {b : UInt8} {t : Text} : attach b t = [] ↔ t = [] := by
  cases t <;> simp [attach]

theorem attach_of_ne_nil {b : UInt8} {t : Text} (nonempty : t ≠ []) : attach b t = b :: t := by
  cases t with
  | nil => exact (nonempty rfl).elim
  | cons c t => rfl

/-- What is cut off at the end belongs to no character in front of it. -/
theorem trimEndFrom_append (skip : Nat) (t : Text) (kept : skip = 0 ∨ trimEndFrom skip t ≠ []) :
    ∃ tail, t = trimEndFrom skip t ++ tail ∧ Leads tail := by
  induction t generalizing skip with
  | nil => exact ⟨[], by cases skip <;> rfl, by simp [Leads]⟩
  | cons b rest ih =>
    have attached : ∀ {skip}, trimEndFrom skip rest ≠ [] →
        ∃ tail, b :: rest = attach b (trimEndFrom skip rest) ++ tail ∧ Leads tail := by
      intro skip nonempty
      obtain ⟨tail, same, leads⟩ := ih skip (.inr nonempty)
      exact ⟨tail, by rw [attach_of_ne_nil nonempty, List.cons_append, ← same], leads⟩
    cases skip with
    | succ skip =>
      rcases kept with zero | nonempty
      · cases zero
      · exact attached fun empty => nonempty (attach_eq_nil.mpr empty)
    | zero =>
      cases width : blankWidth (b :: rest) with
      | zero =>
        obtain ⟨tail, same, leads⟩ := ih 0 (.inl rfl)
        simp only [trimEndFrom, width]
        exact ⟨tail, by rw [List.cons_append, ← same], leads⟩
      | succ more =>
        simp only [trimEndFrom, width]
        by_cases empty : trimEndFrom more rest = []
        · exact ⟨b :: rest, by rw [attach_eq_nil.mpr empty]; rfl, leads_of_blankWidth (by omega)⟩
        · exact attached empty

/-- Cutting off white space at the end takes away empty pieces. -/
theorem piecesFrom_trimEndFrom (skip : Nat) (t : Text) :
    ∃ n, piecesFrom skip t = piecesFrom skip (trimEndFrom skip t) ++ List.replicate n [] := by
  induction t generalizing skip with
  | nil => exact ⟨0, by cases skip <;> rfl⟩
  | cons b rest ih =>
    cases skip with
    | succ skip =>
      obtain ⟨n, same⟩ := ih skip
      refine ⟨n, same.trans ?_⟩
      rw [trimEndFrom]
      by_cases empty : trimEndFrom skip rest = []
      · rw [empty]
        cases skip <;> rfl
      · rw [attach_of_ne_nil empty]
        rfl
    | zero =>
      -- The bytes that stay are followed by white space, so they are cut as they were.
      obtain ⟨tail, whole, leads⟩ := trimEndFrom_append 0 (b :: rest) (.inl rfl)
      have width : trimEndFrom 0 (b :: rest) ≠ [] → blankWidth (trimEndFrom 0 (b :: rest)) = blankWidth (b :: rest) := by
        intro nonempty
        rw [← blankWidth_append nonempty leads, ← whole]
      cases here : blankWidth (b :: rest) with
      | zero =>
        obtain ⟨n, same⟩ := ih 0
        simp only [trimEndFrom, here] at width
        obtain ⟨first, more, cut, -⟩ := piecesFrom_isSolid 0 (trimEndFrom 0 rest)
        refine ⟨n, ?_⟩
        simp only [trimEndFrom, piecesFrom, here, width (by simp), same, cut]
        rfl
      | succ more =>
        obtain ⟨n, same⟩ := ih more
        simp only [trimEndFrom, here] at width
        by_cases empty : trimEndFrom more rest = []
        · refine ⟨n + 1, ?_⟩
          rw [empty] at same
          simp only [trimEndFrom, piecesFrom, here, same, empty, attach]
          rfl
        · refine ⟨n, ?_⟩
          rw [attach_of_ne_nil empty] at width
          simp only [trimEndFrom, piecesFrom, here, same, attach_of_ne_nil empty, width (by simp)]
          rfl

theorem trimEnd_fields (t : Text) : (trimEnd t).fields = t.fields := by
  obtain ⟨n, same⟩ := piecesFrom_trimEndFrom 0 t
  rw [fields_eq, fields_eq, same, List.filter_append, trimEnd]
  simp

/-! ### Both ends -/

theorem trim_fields (t : Text) : t.trim.fields = t.fields := by
  rw [trim, trimEnd_fields, trimStart, trimStartFrom_fields, fields_eq]

/-- A text has a token unless nothing is left when its white space is cut off. -/
theorem trim_eq_nil {t : Text} : t.trim = [] ↔ t.fields = [] := by
  constructor
  · intro empty
    rw [← trim_fields, empty]
    rfl
  · intro none
    have start : (trimStart t).fields = [] := by
      rw [trimStart, trimStartFrom_fields]
      exact none
    have empty : trimStart t = [] := by
      by_cases empty : trimStart t = []
      · exact empty
      · exact (fields_ne_nil empty (trimStartFrom_solid 0 t empty) start).elim
    rw [trim, empty]
    rfl

/-! ### Carriage returns -/

theorem leads_return : Leads [13] := by
  intro b first
  obtain rfl : 13 = b := by simpa using first
  decide

theorem blankWidth_le (t : Text) : blankWidth t ≤ t.length := by
  unfold blankWidth
  split
  · rename_i c more decoded
    split
    · cases t with
      | nil => cases decoded
      | cons b rest => exact Nat.succ_le_succ (decode?_length decoded)
    · exact Nat.zero_le _
  · exact Nat.zero_le _

theorem piecesFrom_return (skip : Nat) (t : Text) (inside : skip ≤ t.length) :
    piecesFrom skip (t ++ [13]) = piecesFrom skip t ++ [[]] := by
  -- Bytes to be skipped end in front of the carriage return: they are part of a character that is all there.
  induction t generalizing skip with
  | nil =>
    obtain rfl : skip = 0 := by simpa using inside
    rfl
  | cons b rest ih =>
    cases skip with
    | succ skip => exact ih skip (by simpa using inside)
    | zero =>
      have width := blankWidth_append (u := b :: rest) (by simp) leads_return
      have bound := blankWidth_le (b :: rest)
      rw [List.cons_append] at width ⊢
      cases here : blankWidth (b :: rest) with
      | zero =>
        obtain ⟨first, more, cut, -⟩ := piecesFrom_isSolid 0 rest
        simp only [piecesFrom, width, here, ih 0 (by omega), cut]
        rfl
      | succ more =>
        rw [here] at bound
        simp only [piecesFrom, width, here, ih more (by simpa using bound)]
        rfl

theorem beforeComment_return (t : Text) :
    (t ++ [13]).beforeComment = t.beforeComment ∨ (t ++ [13]).beforeComment = t.beforeComment ++ [13] := by
  fun_induction beforeComment t with
  | case1 rest => exact .inl rfl
  | case2 b rest other ih =>
    have apart : ∀ tail, b = 47 → rest ++ [13] = 47 :: tail → False := by
      intro tail slash same
      cases rest with
      | nil => simp at same
      | cons c rest => exact other rest slash (by rw [(List.cons.inj same).1])
    rw [List.cons_append, beforeComment]
    · rcases ih with same | more
      · exact .inl (by rw [same])
      · exact .inr (by rw [more, List.cons_append])
    · exact apart
  | case3 => exact .inr rfl

/-- The tokens of a line are those it has with the carriage return at its end. -/
theorem dropReturn_fields (line : Text) : (Lines.dropReturn line).beforeComment.fields = line.beforeComment.fields := by
  unfold Lines.dropReturn
  split
  · rename_i ends
    obtain ⟨front, rfl⟩ := List.getLast?_eq_some_iff.mp ends
    rw [List.dropLast_concat]
    rcases beforeComment_return front with same | more
    · rw [same]
    · rw [more, fields_eq, fields_eq, piecesFrom_return 0 _ (Nat.zero_le _), List.filter_append]
      simp
  · rfl

/-! ### All white space left out -/

def squeeze (t : Text) : Text := t.fields.flatten

theorem squeeze_eq (t : Text) : t.squeeze = (piecesFrom 0 t).flatten := by
  rw [squeeze, fields_eq]
  induction piecesFrom 0 t with
  | nil => rfl
  | cons piece pieces ih =>
    cases piece with
    | nil => simpa using ih
    | cons b piece => simpa using ih

theorem piecesFrom_cons (b : UInt8) (rest : Text) (solid : blankWidth (b :: rest) = 0) :
    (piecesFrom 0 (b :: rest)).flatten = b :: (piecesFrom 0 rest).flatten := by
  obtain ⟨first, more, cut, -⟩ := piecesFrom_isSolid 0 rest
  simp [piecesFrom, solid, cut]

theorem piecesFrom_append {u v : Text} (leads : Leads v) {skip : Nat} (inside : skip ≤ u.length) :
    (piecesFrom skip (u ++ v)).flatten = (piecesFrom skip u).flatten ++ (piecesFrom 0 v).flatten := by
  induction u generalizing skip with
  | nil =>
    obtain rfl : skip = 0 := by simpa using inside
    simp [piecesFrom]
  | cons b u ih =>
    cases skip with
    | succ skip => exact ih (by simpa using inside)
    | zero =>
      have width := blankWidth_append (u := b :: u) (by simp) leads
      have bound := blankWidth_le (b :: u)
      rw [List.cons_append] at width ⊢
      cases here : blankWidth (b :: u) with
      | zero => rw [piecesFrom_cons _ _ (width.trans here), piecesFrom_cons _ _ here, ih (Nat.zero_le _), List.cons_append]
      | succ more =>
        rw [here] at bound
        simpa only [piecesFrom, width, here, List.flatten_cons, List.nil_append] using ih (by simpa using bound)

/-- White space is left out on both sides of a joint that is in no character. -/
theorem squeeze_append (u : Text) {v : Text} (leads : Leads v) : (u ++ v).squeeze = u.squeeze ++ v.squeeze := by
  rw [squeeze_eq, squeeze_eq, squeeze_eq, piecesFrom_append leads (Nat.zero_le _)]

theorem squeeze_separator {b : UInt8} (separator : isSeparator b = true) (t : Text) : squeeze (b :: t) = b :: t.squeeze := by
  rw [squeeze_eq, squeeze_eq, piecesFrom_cons _ _ (isSeparator_solid separator t)]

theorem squeeze_of_clean {t : Text} (clean : Clean t) : t.squeeze = t := fields_flatten_of_isSolid clean.solid

theorem squeeze_ne_nil {t : Text} (nonempty : t.trim ≠ []) : t.squeeze ≠ [] := by
  intro empty
  have none : t.fields = [] := by
    apply List.eq_nil_iff_forall_not_mem.mpr
    intro token member
    exact (fields_isSolid member).1 (List.flatten_eq_nil_iff.mp empty token member)
  exact nonempty (trim_eq_nil.mpr none)

end HackToolchain.Text
