import HackToolchain.Proofs.Text.Numeral
import HackToolchain.Source.Lines
import HackToolchain.Text.Blank

/-!
Texts in which neither white space nor a comment starts. The tokens of a line are such texts, and a
reader of lines gives a clean text back as it is. Putting clean texts together keeps them clean where
the byte at the joint belongs to no longer character and to no comment.
-/

namespace HackToolchain.Text

/-! ### White space -/

/-- A text that does not continue a character begun in front of it. -/
def Leads (t : Text) : Prop := ∀ b ∈ t.head?, continuation? b = none

/-- What follows a text that leads has no part in its characters. -/
theorem decode?_append {u v : Text} (nonempty : u ≠ []) (leads : Leads v) : decode? (u ++ v) = decode? u := by
  match u, v with
  | _, [] => simp
  | [b], c :: v =>
    have stop : continuation? c = none := leads c rfl
    simp [decode?, stop]
  | [b, x], c :: v =>
    have stop : continuation? c = none := leads c rfl
    simp [decode?, stop]
  | [b, x, y], c :: v =>
    have stop : continuation? c = none := leads c rfl
    simp [decode?, stop]
  | b :: x :: y :: z :: u, c :: v => simp [decode?]

theorem blankWidth_append {u v : Text} (nonempty : u ≠ []) (leads : Leads v) :
    blankWidth (u ++ v) = blankWidth u := by
  simp only [blankWidth, decode?_append nonempty leads]

theorem decode?_continuation {b : UInt8} {rest : Text} (inside : 0x80 ≤ b ∧ b ≤ 0xBF) :
    decode? (b :: rest) = none := by
  have low : 128 ≤ b.toNat := by simpa [UInt8.le_iff_toNat_le] using inside.1
  have high : b.toNat ≤ 191 := by simpa [UInt8.le_iff_toNat_le] using inside.2
  dsimp only [decode?]
  rw [if_neg, if_neg, if_neg, if_neg]
  all_goals simp [UInt8.le_iff_toNat_le, UInt8.lt_iff_toNat_lt]
  all_goals omega

/-- The bytes of a character behind its first continue it. -/
theorem decode?_continued {b : UInt8} {rest : Text} {c : Char} {more i : Nat} (decoded : decode? (b :: rest) = some (c, more))
    (inside : i < more) : ∃ x, rest[i]? = some x ∧ 0x80 ≤ x ∧ x ≤ 0xBF := by
  have found : ∀ {i payload : Nat}, rest[i]?.bind continuation? = some payload →
      ∃ x, rest[i]? = some x ∧ 0x80 ≤ x ∧ x ≤ 0xBF := by
    intro i payload read
    obtain ⟨x, there, continues⟩ := Option.bind_eq_some_iff.mp read
    unfold continuation? at continues
    split at continues
    · rename_i range
      exact ⟨x, there, range⟩
    · cases continues
  simp only [decode?, Option.bind_eq_bind] at decoded
  split at decoded
  · cases decoded
    cases inside
  · split at decoded
    · obtain ⟨_, first, same⟩ := Option.bind_eq_some_iff.mp decoded
      cases same
      match i, inside with
      | 0, _ => exact found first
    · split at decoded
      · obtain ⟨_, first, decoded⟩ := Option.bind_eq_some_iff.mp decoded
        obtain ⟨_, second, same⟩ := Option.bind_eq_some_iff.mp decoded
        split at same
        · cases same
          match i, inside with
          | 0, _ => exact found first
          | 1, _ => exact found second
        · cases same
      · split at decoded
        · obtain ⟨_, first, decoded⟩ := Option.bind_eq_some_iff.mp decoded
          obtain ⟨_, second, decoded⟩ := Option.bind_eq_some_iff.mp decoded
          obtain ⟨_, third, same⟩ := Option.bind_eq_some_iff.mp decoded
          split at same
          · cases same
            match i, inside with
            | 0, _ => exact found first
            | 1, _ => exact found second
            | 2, _ => exact found third
          · cases same
        · cases decoded

theorem decode?_length {b : UInt8} {rest : Text} {c : Char} {more : Nat} (decoded : decode? (b :: rest) = some (c, more)) :
    more ≤ rest.length := by
  cases more with
  | zero => exact Nat.zero_le _
  | succ more =>
    obtain ⟨x, there, -⟩ := decode?_continued decoded (Nat.lt_succ_self more)
    exact (List.getElem?_eq_some_iff.mp there).1

theorem leads_of_blankWidth {t : Text} (blank : blankWidth t ≠ 0) : Leads t := by
  intro b first
  cases t with
  | nil => simp at first
  | cons c rest =>
    obtain rfl : c = b := by simpa using first
    unfold continuation?
    split
    · rename_i inside
      exact absurd (by simp [blankWidth, decode?_continuation inside]) blank
    · rfl

/-- Whether no white-space character starts anywhere in a text. -/
def isSolid : Text → Bool
  | [] => true
  | b :: rest => blankWidth (b :: rest) == 0 && isSolid rest

theorem isSolid_cons {b : UInt8} {rest : Text} :
    isSolid (b :: rest) = true ↔ blankWidth (b :: rest) = 0 ∧ isSolid rest = true := by
  simp [isSolid]

theorem isSolid_append {u v : Text} (left : isSolid u = true) (right : isSolid v = true) (leads : Leads v) :
    isSolid (u ++ v) = true := by
  induction u with
  | nil => exact right
  | cons b u ih =>
    obtain ⟨here, rest⟩ := isSolid_cons.mp left
    refine isSolid_cons.mpr ⟨?_, ih rest⟩
    exact (blankWidth_append (u := b :: u) (by simp) leads).trans here

theorem pieces_of_isSolid {t : Text} (solid : isSolid t = true) : pieces t = [t] := by
  unfold pieces
  induction t with
  | nil => rfl
  | cons b rest ih =>
    obtain ⟨here, later⟩ := isSolid_cons.mp solid
    simp [piecesFrom, here, ih later]

theorem fields_flatten_of_isSolid {t : Text} (solid : isSolid t = true) : t.fields.flatten = t := by
  rw [fields, pieces_of_isSolid solid]
  cases t <;> simp

/-- Cutting at white space yields texts without it. The first piece is what the text starts with. -/
theorem piecesFrom_isSolid (skip : Nat) (t : Text) :
    ∃ first more, piecesFrom skip t = first :: more ∧
      (skip = 0 → ∃ rest, t = first ++ rest ∧ Leads rest) ∧
      ∀ piece ∈ first :: more, isSolid piece = true ∧ piece <:+: t := by
  induction t generalizing skip with
  | nil =>
    refine ⟨[], [], by simp [piecesFrom], fun _ => ⟨[], rfl, by simp [Leads]⟩, ?_⟩
    simp [isSolid]
  | cons b t ih =>
    cases skip with
    | succ skip =>
      obtain ⟨first, more, split, -, solid⟩ := ih skip
      refine ⟨first, more, split, by simp, ?_⟩
      intro piece member
      exact ⟨(solid piece member).1, (solid piece member).2.trans (List.infix_cons_iff.mpr (.inr (List.infix_refl t)))⟩
    | zero =>
      cases width : blankWidth (b :: t) with
      | zero =>
        obtain ⟨first, more, split, shape, solid⟩ := ih 0
        obtain ⟨rest, same, leads⟩ := shape rfl
        refine ⟨b :: first, more, by simp [piecesFrom, width, split], fun _ => ⟨rest, by simp [same], leads⟩, ?_⟩
        have here : blankWidth (b :: first) = 0 := by
          rw [← blankWidth_append (u := b :: first) (by simp) leads, List.cons_append, ← same]
          exact width
        intro piece member
        rcases List.mem_cons.mp member with rfl | member
        · refine ⟨isSolid_cons.mpr ⟨here, (solid first List.mem_cons_self).1⟩, ?_⟩
          exact ⟨[], rest, by simp [same]⟩
        · have known := solid piece (List.mem_cons_of_mem _ member)
          exact ⟨known.1, known.2.trans (List.infix_cons_iff.mpr (.inr (List.infix_refl t)))⟩
      | succ more' =>
        obtain ⟨first, more, split, -, solid⟩ := ih more'
        refine ⟨[], first :: more, by simp [piecesFrom, width, split], fun _ => ⟨b :: t, rfl, ?_⟩, ?_⟩
        · exact leads_of_blankWidth (by omega)
        · intro piece member
          rcases List.mem_cons.mp member with rfl | member
          · exact ⟨rfl, List.nil_infix⟩
          · have known := solid piece member
            exact ⟨known.1, known.2.trans (List.infix_cons_iff.mpr (.inr (List.infix_refl t)))⟩

theorem fields_isSolid {t token : Text} (member : token ∈ t.fields) :
    token ≠ [] ∧ isSolid token = true ∧ token <:+: t := by
  obtain ⟨present, nonempty⟩ := List.mem_filter.mp member
  obtain ⟨first, more, split, -, solid⟩ := piecesFrom_isSolid 0 t
  rw [pieces, split] at present
  exact ⟨by simpa using nonempty, solid token present⟩

/-! ### Comments -/

theorem beforeComment_eq_self {t : Text} : t.beforeComment = t ↔ ¬ [47, 47] <:+: t := by
  fun_induction beforeComment t with
  | case1 rest => simp [List.infix_cons_iff]
  | case2 b rest other ih =>
    have apart : ¬ [47, 47] <+: b :: rest := by
      rintro ⟨tail, same⟩
      simp only [List.cons_append, List.nil_append, List.cons.injEq] at same
      exact other tail same.1.symm same.2.symm
    simp [List.infix_cons_iff, apart, ih]
  | case3 => simp

theorem beforeComment_length (t : Text) : t.beforeComment.length ≤ t.length := by
  fun_induction beforeComment t with
  | case1 rest => exact Nat.zero_le _
  | case2 b rest other ih => exact Nat.succ_le_succ ih
  | case3 => exact Nat.le_refl _

theorem beforeComment_idem (t : Text) : t.beforeComment.beforeComment = t.beforeComment := by
  fun_induction beforeComment t with
  | case1 => rfl
  | case2 b rest other ih =>
    cases rest with
    | nil => simp [beforeComment]
    | cons c rest =>
      by_cases slashes : b = 47 ∧ (beforeComment (c :: rest)).head? = some 47
      · -- A slash that survives in front of a slash would have been a comment itself.
        have first : c = 47 := by
          have second := slashes.2
          unfold beforeComment at second
          split at second <;> simp_all
        exact (other rest slashes.1 (by rw [first])).elim
      · rw [beforeComment]
        · rw [ih]
        · rintro tail rfl same
          exact slashes ⟨rfl, by simp [same]⟩
  | case3 => rfl

theorem beforeComment_append {u v : Text} (plain : u.beforeComment = u) (joint : v.head? ≠ some 47) :
    (u ++ v).beforeComment = u ++ v.beforeComment := by
  induction u with
  | nil => rfl
  | cons b u ih =>
    have rest : beforeComment u = u := by
      rw [beforeComment_eq_self] at plain ⊢
      exact fun inside => plain (List.infix_cons_iff.mpr (.inr inside))
    have apart : ∀ tail, b = 47 → u ++ v = 47 :: tail → False := by
      rintro tail rfl same
      cases u with
      | nil => exact joint (by simp_all)
      | cons c u =>
        obtain rfl : c = 47 := by simpa using (List.cons.inj same).1
        exact (beforeComment_eq_self.mp plain) ⟨[], u, by simp⟩
    rw [List.cons_append, beforeComment, ih rest, List.cons_append]
    exact apart

/-! ### Clean texts -/

/-- A text in which neither white space nor a comment starts. -/
structure Clean (t : Text) : Prop where
  solid : isSolid t = true
  plain : t.beforeComment = t

/-- A name as it can stand in a line of commands. -/
structure IsToken (t : Text) : Prop extends Clean t where
  nonempty : t ≠ []

/-- Whether a byte is a character of its own that is neither white space nor part of a comment. -/
def isSeparator (b : UInt8) : Bool := b < 0x80 && !isBlank (Char.ofNat b.toNat) && b != 47

theorem isSeparator_solid {b : UInt8} (separator : isSeparator b = true) (rest : Text) :
    blankWidth (b :: rest) = 0 := by
  simp only [isSeparator, Bool.and_eq_true, decide_eq_true_eq, Bool.not_eq_true'] at separator
  simp [blankWidth, decode?, separator.1.1, separator.1.2]

theorem isSeparator_leads {b : UInt8} (separator : isSeparator b = true) (rest : Text) : Leads (b :: rest) := by
  intro c first
  obtain rfl : b = c := by simpa using first
  simp only [isSeparator, Bool.and_eq_true, decide_eq_true_eq] at separator
  have low : b.toNat < 128 := by simpa [UInt8.lt_iff_toNat_lt] using separator.1.1
  unfold continuation?
  rw [if_neg]
  simp only [UInt8.le_iff_toNat_le, not_and]
  intro inside
  simp at inside
  omega

theorem clean_nil : Clean [] := ⟨rfl, rfl⟩

theorem clean_separators {u v : Text} (separators : u.all isSeparator = true) (clean : Clean v) : Clean (u ++ v) := by
  induction u with
  | nil => exact clean
  | cons b u ih =>
    simp only [List.all_cons, Bool.and_eq_true] at separators
    obtain ⟨solid, plain⟩ := ih separators.2
    refine ⟨isSolid_cons.mpr ⟨isSeparator_solid separators.1 _, solid⟩, ?_⟩
    have other : b ≠ 47 := by
      rintro rfl
      exact absurd separators.1 (by decide)
    rw [List.cons_append, beforeComment, plain]
    exact fun _ slash _ => other slash

theorem clean_literal {t : Text} (separators : t.all isSeparator = true) : Clean t := by
  simpa using clean_separators separators clean_nil

/-- A clean text stays clean in front of one that starts with a separator. -/
theorem clean_append {u v : Text} (left : Clean u) (right : Clean v)
    (joint : v.head?.all isSeparator = true) : Clean (u ++ v) := by
  cases v with
  | nil => simpa using left
  | cons b v =>
    have separator : isSeparator b = true := by simpa using joint
    refine ⟨isSolid_append left.solid right.solid (isSeparator_leads separator v), ?_⟩
    rw [beforeComment_append left.plain, right.plain]
    simp only [List.head?_cons, ne_eq, Option.some.injEq]
    rintro rfl
    exact absurd separator (by decide)

theorem digits_separators {t : Text} (digits : t.all isDigit = true) : t.all isSeparator = true := by
  have ten : ∀ n < 10, isSeparator (digit n) = true := by decide
  refine List.all_eq_true.mpr fun b member => ?_
  have range : 48 ≤ b.toNat ∧ b.toNat ≤ 57 := by
    simpa [isDigit, UInt8.le_iff_toNat_le] using List.all_eq_true.mp digits b member
  have same : digit (b.toNat - 48) = b := by
    rw [digit, show 48 + (b.toNat - 48) = b.toNat by omega, UInt8.ofNat_toNat]
  rw [← same]
  exact ten _ (by omega)

theorem ofNat_separators (n : Nat) : (ofNat n).all isSeparator = true := digits_separators (ofNat_all n)

theorem ofInt_separators (n : Int) : (ofInt n).all isSeparator = true := by
  cases n with
  | ofNat n => exact ofNat_separators n
  | negSucc n =>
    simp only [ofInt, List.all_cons, ofNat_separators, Bool.and_true]
    decide

/-- A clean text holds no line end and no carriage return. -/
theorem clean_no_break {t : Text} (clean : Clean t) : newline ∉ t ∧ (13 : UInt8) ∉ t := by
  have solid := clean.solid
  clear clean
  induction t with
  | nil => simp
  | cons b t ih =>
    obtain ⟨here, rest⟩ := isSolid_cons.mp solid
    have apart : b ≠ newline ∧ b ≠ 13 := by
      constructor
      all_goals
        rintro rfl
        simp [blankWidth, decode?, newline] at here
        exact absurd here (by decide)
    simp only [List.mem_cons, not_or]
    exact ⟨⟨apart.1.symm, (ih rest).1⟩, apart.2.symm, (ih rest).2⟩

/-- What stands in front of the comment of a line is cut into tokens. -/
theorem isToken_of_fields {content token : Text} (member : token ∈ content.beforeComment.fields) :
    IsToken token := by
  obtain ⟨nonempty, solid, inside⟩ := fields_isSolid member
  refine ⟨⟨solid, ?_⟩, nonempty⟩
  have whole := beforeComment_eq_self.mp (beforeComment_idem content)
  exact beforeComment_eq_self.mpr fun comment => whole (comment.trans inside)

theorem read_clean {t : Text} (clean : Clean t) : t.beforeComment.fields.flatten = t := by
  rw [clean.plain, fields_flatten_of_isSolid clean.solid]

end HackToolchain.Text
