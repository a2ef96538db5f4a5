import HackToolchain.Proofs.Emission.Language
import HackToolchain.Proofs.Emission.Layout
import HackToolchain.Proofs.Text.Words

/-!
Commands as they are written. Reading undoes writing for every command that can be read at all, so a source
that is read without an error can be replaced by what its commands look like.
-/

namespace HackToolchain

namespace Command

/-! ### Words -/

/-- The words a command is written in. -/
def words (c : Command) : List Text := c.front ++ c.number?.toList.map Text.ofInt

theorem render_eq (c : Command) : c.render = Text.join [32] c.words := by
  have two (word name : Text) : word ++ [32] ++ name = Text.join [32] [word, name] := by simp [Text.join]
  have three (word name numeral : Text) : word ++ [32] ++ name ++ [32] ++ numeral = Text.join [32] [word, name, numeral] := by
    simp [Text.join]
  cases c with
  | arithmetic operation => exact (Text.join_singleton _ _).symm
  | push segment index => exact three "push" segment (Text.ofInt index)
  | pop segment index => exact three "pop" segment (Text.ofInt index)
  | label name => exact two "label" name
  | goto name => exact two "goto" name
  | ifGoto name => exact two "if-goto" name
  | function name locals => exact three "function" name (Text.ofInt locals)
  | call name arguments => exact three "call" name (Text.ofInt arguments)
  | ret => exact (Text.join_singleton _ _).symm

theorem name_isToken (k : Kind) : Text.IsToken k.name := by
  refine ⟨Text.clean_literal ?_, ?_⟩
  · cases k <;> decide
  · cases k <;> decide

theorem ofInt_isToken (n : Int) : Text.IsToken (Text.ofInt n) := by
  refine ⟨Text.clean_literal (Text.ofInt_separators n), ?_⟩
  cases n with
  | ofNat n => exact Text.ofNat_ne_nil n
  | negSucc n => exact List.cons_ne_nil _ _

theorem words_isToken {c : Command} (wellFormed : c.WellFormed) : ∀ word ∈ c.words, Text.IsToken word := by
  intro word member
  simp only [words, front, List.mem_append, List.mem_map, Option.mem_toList] at member
  rcases member with (keyword | operand) | ⟨n, -, rfl⟩
  · split at keyword
    · cases keyword
    · rw [List.mem_singleton.mp keyword]
      exact name_isToken _
  · exact wellFormed.token word operand
  · exact ofInt_isToken n

/-- A command is cut into its words. -/
theorem fields_render {c : Command} (wellFormed : c.WellFormed) : c.render.beforeComment.fields = c.words := by
  have tokens := words_isToken wellFormed
  rw [render_eq, Text.beforeComment_join tokens, Text.fields_join tokens]

theorem render_ne_nil {c : Command} (wellFormed : c.WellFormed) : c.render ≠ [] := by
  intro empty
  have none : c.words = [] := by
    rw [← fields_render wellFormed, empty]
    rfl
  cases c <;> cases none

/-! ### Tokens a command is read from -/

/-- A command is not longer than the tokens it was read from. -/
theorem render_length {word : Text} {operands : List Text} {c : Command} (read : ofTokens word operands = .ok c) :
    c.render.length ≤ (Text.join [32] (word :: operands)).length := by
  obtain ⟨-, numerals, rest, whole, counted⟩ := ofTokens_ok read
  have shorter : (Text.join [32] c.words).length ≤ (Text.join [32] (c.front ++ numerals)).length := by
    unfold words
    cases known : c.number? with
    | none =>
      rw [known] at counted
      rw [List.map_eq_nil_iff.mp counted]
      exact Nat.le_refl _
    | some n =>
      rw [known] at counted
      obtain ⟨token, rfl, number⟩ := List.map_eq_singleton_iff.mp counted
      obtain ⟨numeral, natural⟩ := number_iff.mp number
      exact Text.join_concat_length _ _ (Text.ofInt_length numeral natural)
  rw [render_eq, whole]
  exact Nat.le_trans shorter (Text.join_sublist_length _ (List.sublist_append_left _ rest))

/-! ### Commands that can be read -/

/-- A command that some source holds: its name is a token, its number is one that a numeral can give, and
it is not too long for a line. -/
structure Presentable (c : Command) : Prop where
  name : ∀ name ∈ c.operand?, name ≠ [] ∧ (∀ char, .char char ∈ name.glyphs → Text.isBlank char = false) ∧ ¬ [47, 47] <:+: name
  operation : ∀ operation, c = .arithmetic operation → operation ∉ keywords
  number : ∀ n ∈ c.number?, 0 ≤ n ∧ n ≤ 0x7FFFFFFFFFFFFFFF
  length : c.render.length ≤ 65535

theorem Presentable.wellFormed {c : Command} (presentable : c.Presentable) : c.WellFormed := by
  constructor
  · intro name known
    exact Text.isToken_iff.mpr (presentable.name name known)
  · intro n known
    obtain ⟨natural, small⟩ := presentable.number n known
    refine ⟨natural, ?_⟩
    simp only [Text.fitsWord, Bool.and_eq_true, decide_eq_true_eq]
    unfold Text.leastWord
    omega

theorem Presentable.ofTokens_words {c : Command} (presentable : c.Presentable) :
    ∃ word operands, c.words = word :: operands ∧ ofTokens word operands = .ok c := by
  have read : ∀ {n}, c.number? = some n → Text.toInt? (Text.ofInt n) = some n ∧ 0 ≤ n := by
    intro n known
    obtain ⟨natural, fits⟩ := presentable.wellFormed.number n known
    exact ⟨Text.toInt?_ofInt fits, natural⟩
  cases c with
  | arithmetic operation =>
    refine ⟨operation, [], rfl, ?_⟩
    rw [ofTokens, ofWord_eq_arithmetic.mpr (presentable.operation operation rfl)]
  | push segment index => exact ⟨_, _, rfl, (ofTokens_of_read (read rfl).1 (read rfl).2).1⟩
  | pop segment index => exact ⟨_, _, rfl, (ofTokens_of_read (read rfl).1 (read rfl).2).2.1⟩
  | label name => exact ⟨_, _, rfl, rfl⟩
  | goto name => exact ⟨_, _, rfl, rfl⟩
  | ifGoto name => exact ⟨_, _, rfl, rfl⟩
  | function name locals => exact ⟨_, _, rfl, (ofTokens_of_read (read rfl).1 (read rfl).2).2.2.1⟩
  | call name arguments => exact ⟨_, _, rfl, (ofTokens_of_read (read rfl).1 (read rfl).2).2.2.2⟩
  | ret => exact ⟨_, _, rfl, rfl⟩

theorem presentable_of_read {line word : Text} {operands : List Text} {c : Command} (short : line.length < Lines.limit)
    (found : line.beforeComment.fields = word :: operands) (read : ofTokens word operands = .ok c) : c.Presentable := by
  have wellFormed : c.WellFormed := ofTokens_wellFormed (fun token member => Text.isToken_of_fields (found ▸ member)) read
  refine ⟨?_, ?_, ?_, ?_⟩
  · intro name known
    exact Text.isToken_iff.mp (wellFormed.token name known)
  · rintro operation rfl
    obtain ⟨kind, numerals, rest, whole, -⟩ := ofTokens_ok read
    obtain rfl : word = operation := (List.cons.inj whole).1
    exact ofWord_eq_arithmetic.mp kind
  · intro n known
    obtain ⟨natural, fits⟩ := wellFormed.number n known
    simp only [Text.fitsWord, Bool.and_eq_true, decide_eq_true_eq] at fits
    omega
  · have tokens := Text.join_fields_length line.beforeComment
    have code := Text.beforeComment_length line
    rw [found] at tokens
    have whole := render_length read
    unfold Lines.limit at short
    omega

theorem Readable.presentable {c : Command} (readable : c.Readable) : c.Presentable := by
  obtain ⟨unit, source, member⟩ := readable
  obtain ⟨number, known⟩ := Reader.mem_readAll member
  obtain ⟨content, pending, found⟩ := Reader.mem_items known
  have kept : content ∈ (Lines.ofText source).contents := List.fst_mem_of_mem_zipIdx pending
  obtain ⟨line, read, rfl⟩ := List.mem_map.mp kept
  have short : line.length < Lines.limit := by simpa using List.all_eq_true.mp List.all_takeWhile line read
  obtain ⟨word, operands, tokens, command⟩ := Reader.item?_command found
  rw [Text.dropReturn_fields] at tokens
  exact presentable_of_read short tokens command

end Command

namespace Reader

open Command

theorem reads_renders {cs : List Command} (presentable : ∀ c ∈ cs, c.Presentable) : Reads (cs.map Command.render) cs := by
  induction cs with
  | nil => exact .nil
  | cons c cs ih =>
    have head := presentable c List.mem_cons_self
    obtain ⟨word, operands, split, read⟩ := head.ofTokens_words
    refine .command ?_ ?_ read (ih fun d member => presentable d (List.mem_cons_of_mem _ member))
    · exact Nat.lt_succ_of_le head.length
    · rw [fields_render head.wellFormed, split]

theorem Reads.presentable {lines : List Text} {cs : List Command} (reads : Reads lines cs) : ∀ c ∈ cs, c.Presentable := by
  induction reads with
  | nil => simp
  | blank _ _ _ ih => exact ih
  | command short found read _ ih =>
    intro d member
    rcases List.mem_cons.mp member with rfl | later
    · exact presentable_of_read short found read
    · exact ih d later

/-- Commands as they are written, one in each line. -/
def rendering (cs : List Command) : Text := Text.join [Text.newline] (cs.map Command.render)

theorem raw_rendering {cs : List Command} (presentable : ∀ c ∈ cs, c.Presentable) :
    Lines.raw (rendering cs) = cs.map Command.render := by
  by_cases empty : cs = []
  · subst empty
    rfl
  have whole : ∀ line ∈ cs.map Command.render, Text.split Text.newline line = [line] := by
    intro line member
    obtain ⟨c, known, rfl⟩ := List.mem_map.mp member
    exact Text.split_of_not_mem (Emission.render_no_newline (presentable c known).wellFormed)
  have parts : Text.split Text.newline (rendering cs) = cs.map Command.render := by
    rw [rendering, Text.split_join _ (by simpa using empty), List.flatMap_congr whole, List.flatMap_singleton']
  have last : (cs.map Command.render).getLast? ≠ some [] := by
    intro ends
    obtain ⟨c, known, blank⟩ := List.mem_map.mp (List.mem_of_getLast? ends)
    exact render_ne_nil (presentable c known).wellFormed blank
  rw [Lines.raw, parts]
  exact if_neg last

/-- Reading undoes writing for the commands that can be read, and no other command is ever read. -/
theorem reading_undoes_rendering (unit other : Text) :
    (∀ cs : List Command, (∀ c ∈ cs, c.Presentable) → (start unit (rendering cs)).readAll = (cs, none)) ∧
      ∀ (source : Text) (cs : List Command), (start other source).readAll = (cs, none) →
        (∀ c ∈ cs, c.Presentable) ∧ (start unit (rendering cs)).readAll = (cs, none) := by
  have again : ∀ cs : List Command, (∀ c ∈ cs, c.Presentable) → (start unit (rendering cs)).readAll = (cs, none) := by
    intro cs presentable
    rw [readAll_iff, raw_rendering presentable]
    exact reads_renders presentable
  refine ⟨again, ?_⟩
  intro source cs read
  have presentable := (readAll_iff.mp read).presentable
  exact ⟨presentable, again cs presentable⟩

/-- White space, comments, tokens behind the operands and the form of a number are what gets lost. -/
theorem reading_undoes_rendering_loose :
    let cs : List Command := [.push "constant" 7, .arithmetic "eq", .label "a/b"]
    (start "Main" "push  constant +007 // seven\r\n\n\t eq eq\nlabel a/b").readAll = (cs, none) ∧ (∀ c ∈ cs, c.Presentable) ∧
      (start "Main" "push constant 7\neq\nlabel a/b").readAll = (cs, none) := by
  intro cs
  have read : (start "Main" "push  constant +007 // seven\r\n\n\t eq eq\nlabel a/b").readAll = (cs, none) := by decide +kernel
  obtain ⟨presentable, -⟩ := (reading_undoes_rendering "Main" "Main").2 _ _ read
  exact ⟨read, presentable, (reading_undoes_rendering "Main" "Main").1 cs presentable⟩

end Reader

end HackToolchain
