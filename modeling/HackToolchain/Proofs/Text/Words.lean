import HackToolchain.Proofs.Text.Trim

/-!
Words with single spaces between them. Tokens put together like that are cut apart again as they were, and no
text has its tokens in fewer bytes. What makes a token can be said about its characters: none of them is white
space.
-/

namespace HackToolchain.Text

/-! ### Characters -/

/-- No white space starts inside a character, so it is enough to look at the characters. -/
theorem isSolid_iff_from (skip : Nat) (t : Text) (continued : ∀ i < skip, ∀ x, t[i]? = some x → 0x80 ≤ x ∧ x ≤ 0xBF) :
    isSolid t = true ↔ ∀ c, .char c ∈ glyphsFrom skip t → isBlank c = false := by
  induction t generalizing skip with
  | nil => cases skip <;> simp [isSolid, glyphsFrom]
  | cons b rest ih =>
    cases skip with
    | succ skip =>
      have here : blankWidth (b :: rest) = 0 := by
        simp only [blankWidth, decode?_continuation (continued 0 (Nat.succ_pos skip) b rfl)]
      have later := ih skip fun i small x there => continued (i + 1) (Nat.succ_lt_succ small) x there
      rw [isSolid_cons, glyphsFrom, ← later]
      exact and_iff_right here
    | zero =>
      rw [isSolid_cons, glyphsFrom]
      cases decoded : decode? (b :: rest) with
      | none =>
        have here : blankWidth (b :: rest) = 0 := by simp only [blankWidth, decoded]
        have later := ih 0 (by simp)
        simp only [here, true_and, later, List.mem_cons, reduceCtorEq, false_or]
      | some found =>
        obtain ⟨c, more⟩ := found
        have here : blankWidth (b :: rest) = 0 ↔ isBlank c = false := by
          simp only [blankWidth, decoded]
          cases isBlank c <;> simp
        have later := ih more fun i small x there => by
          obtain ⟨y, same, range⟩ := decode?_continued decoded small
          exact Option.some.inj (there.symm.trans same) ▸ range
        rw [here, later]
        constructor
        · rintro ⟨first, rest⟩ d member
          rcases List.mem_cons.mp member with same | later
          · obtain rfl := Glyph.char.inj same
            exact first
          · exact rest d later
        · intro all
          exact ⟨all c List.mem_cons_self, fun d member => all d (List.mem_cons_of_mem _ member)⟩

theorem isToken_iff {t : Text} :
    IsToken t ↔ t ≠ [] ∧ (∀ c, .char c ∈ t.glyphs → isBlank c = false) ∧ ¬ [47, 47] <:+: t := by
  rw [← beforeComment_eq_self, glyphs, ← isSolid_iff_from 0 t (by simp)]
  constructor
  · rintro ⟨⟨solid, plain⟩, nonempty⟩
    exact ⟨nonempty, solid, plain⟩
  · rintro ⟨nonempty, solid, plain⟩
    exact ⟨⟨solid, plain⟩, nonempty⟩

/-! ### Tokens put together -/

theorem join_cons_cons (separator t u : Text) (rest : List Text) :
    join separator (t :: u :: rest) = t ++ (separator ++ join separator (u :: rest)) := by
  simp [join]

theorem join_singleton (separator t : Text) : join separator [t] = t := by
  simp [join]

theorem leads_space (t : Text) : Leads (32 :: t) := by
  intro b first
  obtain rfl : 32 = b := by simpa using first
  decide

theorem piecesFrom_space {u : Text} (solid : isSolid u = true) (v : Text) :
    piecesFrom 0 (u ++ 32 :: v) = u :: piecesFrom 0 v := by
  induction u with
  | nil => rfl
  | cons b u ih =>
    obtain ⟨here, rest⟩ := isSolid_cons.mp solid
    have width : blankWidth (b :: (u ++ 32 :: v)) = 0 :=
      (blankWidth_append (u := b :: u) (by simp) (leads_space v)).trans here
    rw [List.cons_append, piecesFrom, width]
    simp [ih rest]

/-- Words with spaces between them are the tokens of the text they make. -/
theorem fields_join {words : List Text} (tokens : ∀ word ∈ words, IsToken word) : (join [32] words).fields = words := by
  induction words with
  | nil => rfl
  | cons word words ih =>
    have token := tokens word List.mem_cons_self
    have kept (rest : List Text) : (word :: rest).filter (fun token => !token.isEmpty) =
        word :: rest.filter fun token => !token.isEmpty := List.filter_cons_of_pos (by simpa using token.nonempty)
    cases words with
    | nil =>
      rw [join_singleton, fields, pieces_of_isSolid token.solid]
      exact kept []
    | cons next words =>
      have rest := ih fun other member => tokens other (List.mem_cons_of_mem _ member)
      rw [join_cons_cons, List.singleton_append, fields_eq, piecesFrom_space token.solid, kept, ← fields_eq, rest]

theorem beforeComment_join {words : List Text} (tokens : ∀ word ∈ words, IsToken word) :
    (join [32] words).beforeComment = join [32] words := by
  induction words with
  | nil => rfl
  | cons word words ih =>
    have token := tokens word List.mem_cons_self
    cases words with
    | nil =>
      rw [join_singleton]
      exact token.plain
    | cons next words =>
      have rest := ih fun other member => tokens other (List.mem_cons_of_mem _ member)
      rw [join_cons_cons, beforeComment_append token.plain (by simp), List.singleton_append, beforeComment, rest]
      simp

/-! ### Length -/

theorem join_cons_length (separator t : Text) (rest : List Text) :
    (join separator rest).length ≤ (join separator (t :: rest)).length := by
  cases rest with
  | nil => exact Nat.zero_le _
  | cons u rest =>
    rw [join_cons_cons, List.length_append, List.length_append]
    omega

theorem join_sublist_length (separator : Text) {kept texts : List Text} (inside : kept.Sublist texts) :
    (join separator kept).length ≤ (join separator texts).length := by
  induction inside with
  | slnil => exact Nat.le_refl _
  | cons t _ ih => exact Nat.le_trans ih (join_cons_length separator t _)
  | @cons_cons kept texts t inside ih =>
    cases texts with
    | nil =>
      obtain rfl : kept = [] := List.sublist_nil.mp inside
      exact Nat.le_refl _
    | cons u texts =>
      cases kept with
      | nil =>
        rw [join_singleton, join_cons_cons, List.length_append]
        exact Nat.le_add_right _ _
      | cons v kept =>
        rw [join_cons_cons, join_cons_cons]
        simp only [List.length_append]
        omega

theorem join_concat_length (separator : Text) (texts : List Text) {t u : Text} (shorter : t.length ≤ u.length) :
    (join separator (texts ++ [t])).length ≤ (join separator (texts ++ [u])).length := by
  induction texts with
  | nil => simpa only [List.nil_append, join_singleton] using shorter
  | cons first texts ih =>
    cases texts with
    | nil =>
      rw [List.singleton_append, List.singleton_append, join_cons_cons, join_cons_cons, join_singleton, join_singleton]
      simpa only [List.length_append, Nat.add_le_add_iff_left] using shorter
    | cons second texts =>
      rw [List.cons_append, List.cons_append] at ih ⊢
      rw [List.cons_append, List.cons_append, join_cons_cons, join_cons_cons]
      simpa only [List.length_append, Nat.add_le_add_iff_left] using ih

/-- Each white-space character takes at least the byte of a space. -/
theorem join_pieces_length (skip : Nat) (t : Text) : (join [32] (piecesFrom skip t)).length ≤ t.length := by
  induction t generalizing skip with
  | nil => cases skip <;> exact Nat.le_refl _
  | cons b rest ih =>
    cases skip with
    | succ skip => exact Nat.le_succ_of_le (ih skip)
    | zero =>
      cases width : blankWidth (b :: rest) with
      | zero =>
        obtain ⟨first, more, cut, -⟩ := piecesFrom_isSolid 0 rest
        have bound := ih 0
        simp only [piecesFrom, width, cut, List.modifyHead_cons] at bound ⊢
        cases more with
        | nil =>
          rw [join_singleton] at bound ⊢
          exact Nat.succ_le_succ bound
        | cons next more =>
          rw [join_cons_cons] at bound ⊢
          exact Nat.succ_le_succ bound
      | succ more =>
        obtain ⟨first, later, cut, -⟩ := piecesFrom_isSolid more rest
        have bound := ih more
        simp only [piecesFrom, width, cut] at bound ⊢
        rw [join_cons_cons, List.nil_append]
        exact Nat.succ_le_succ bound

theorem join_fields_length (t : Text) : (join [32] t.fields).length ≤ t.length :=
  Nat.le_trans (join_sublist_length _ List.filter_sublist) (join_pieces_length 0 t)

end HackToolchain.Text
