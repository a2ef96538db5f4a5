import HackToolchain.Command.Reader
import HackToolchain.Proofs.Text.Trim

/-!
What a reader can produce. Whatever the source, the names of the commands read from it are tokens and
their numbers are words that are not negative; and a source is read without an error exactly if each of
its lines is, whatever stands around it.
-/

namespace HackToolchain

namespace Command

/-- A command some source holds. -/
def Readable (c : Command) : Prop := ∃ unit source, c ∈ (Reader.start unit source).readAll.1

/-- A command whose names are tokens and whose number is a word that is not negative. -/
structure WellFormed (c : Command) : Prop where
  token : ∀ name ∈ c.operand?, Text.IsToken name
  number : ∀ n ∈ c.number?, 0 ≤ n ∧ Text.fitsWord n = true

theorem number_iff {token : Text} {n : Int} : number token = .ok n ↔ Text.toInt? token = some n ∧ 0 ≤ n := by
  unfold number
  cases found : Text.toInt? token with
  | none => simp
  | some m =>
    dsimp only
    split
    · simp only [reduceCtorEq, Option.some.injEq, false_iff, not_and]
      omega
    · simp only [Except.ok.injEq, Option.some.injEq, iff_self_and]
      omega

theorem number_ok {token : Text} {n : Int} (read : number token = .ok n) : 0 ≤ n ∧ Text.fitsWord n = true := by
  obtain ⟨found, natural⟩ := number_iff.mp read
  unfold Text.toInt? at found
  exact ⟨natural, (Option.filter_eq_some_iff.mp found).2⟩

theorem nameAndNumber_iff {operands : List Text} {name : Text} {n : Int} :
    nameAndNumber operands = .ok (name, n) ↔ ∃ token rest, operands = name :: token :: rest ∧ number token = .ok n := by
  constructor
  · intro read
    unfold nameAndNumber at read
    split at read
    · rename_i first token rest
      cases counted : number token with
      | error e => simp [counted, Except.map] at read
      | ok m =>
        simp only [counted, Except.map, Except.ok.injEq, Prod.mk.injEq] at read
        obtain ⟨rfl, rfl⟩ := read
        exact ⟨token, rest, rfl, counted⟩
    · cases read
  · rintro ⟨token, rest, rfl, counted⟩
    rw [nameAndNumber, counted]
    rfl

theorem nameOnly_iff {operands : List Text} {name : Text} :
    nameOnly operands = .ok name ↔ ∃ rest, operands = name :: rest := by
  cases operands with
  | nil => simp [nameOnly]
  | cons first rest => simp [nameOnly, eq_comm]

theorem map_ok {ε α β : Type} {x : Except ε α} {f : α → β} {b : β} (h : x.map f = .ok b) :
    ∃ a, x = .ok a ∧ f a = b := by
  cases x with
  | error e => cases h
  | ok a => exact ⟨a, rfl, Except.ok.inj h⟩

theorem name_of_ofWord {word : Text} {k : Kind} (found : Kind.ofWord word = k) (keyword : k ≠ .arithmetic) : word = k.name := by
  unfold Kind.ofWord at found
  cases search : Kind.all.find? fun k => k != .arithmetic && k.name == word with
  | none =>
    rw [search] at found
    exact (keyword found.symm).elim
  | some other =>
    rw [search] at found
    obtain rfl : other = k := found
    have holds := List.find?_some search
    simp only [Bool.and_eq_true, beq_iff_eq] at holds
    exact holds.2.symm

/-- The words of a command in front of its number. -/
def front (c : Command) : List Text :=
  (if c.kind = .arithmetic then [] else [c.kind.name]) ++ c.operand?.toList

/-- A command is read from the words in front of its number and a numeral for that; what follows does not count. -/
theorem ofTokens_ok {word : Text} {operands : List Text} {c : Command} (read : ofTokens word operands = .ok c) :
    Kind.ofWord word = c.kind ∧ ∃ numerals rest, word :: operands = c.front ++ numerals ++ rest ∧
      numerals.map number = c.number?.toList.map .ok := by
  unfold ofTokens at read
  split at read
  case h_1 kind =>
    obtain rfl := Except.ok.inj read
    exact ⟨kind, [], operands, rfl, rfl⟩
  case h_9 kind =>
    obtain rfl := Except.ok.inj read
    obtain rfl := name_of_ofWord kind (by decide)
    exact ⟨kind, [], operands, rfl, rfl⟩
  case h_4 kind | h_5 kind | h_6 kind =>
    obtain ⟨name, found, rfl⟩ := map_ok read
    obtain ⟨rest, rfl⟩ := nameOnly_iff.mp found
    obtain rfl := name_of_ofWord kind (by decide)
    exact ⟨kind, [], rest, rfl, rfl⟩
  all_goals
    rename_i kind
    obtain ⟨⟨name, n⟩, found, rfl⟩ := map_ok read
    obtain ⟨token, rest, rfl, counted⟩ := nameAndNumber_iff.mp found
    obtain rfl := name_of_ofWord kind (by decide)
    exact ⟨kind, [token], rest, rfl, congrArg (fun found => [found]) counted⟩

/-- A command takes its name from the tokens it is read from. -/
theorem ofTokens_wellFormed {word : Text} {operands : List Text} {c : Command}
    (tokens : ∀ token ∈ word :: operands, Text.IsToken token) (read : ofTokens word operands = .ok c) :
    c.WellFormed := by
  obtain ⟨-, numerals, rest, whole, counted⟩ := ofTokens_ok read
  constructor
  · intro name known
    apply tokens
    rw [whole]
    exact List.mem_append_left _ (List.mem_append_left _ (List.mem_append_right _ (Option.mem_toList.mpr known)))
  · intro n known
    have listed : .ok n ∈ numerals.map number := by
      rw [counted]
      exact List.mem_map_of_mem (Option.mem_toList.mpr known)
    obtain ⟨token, -, found⟩ := List.mem_map.mp listed
    exact number_ok found

end Command

namespace Reader

theorem mem_readAll {items : List (Item × Nat)} {c : Command} (member : c ∈ (readAll.go items).1) :
    ∃ line, (Item.command c, line) ∈ items := by
  fun_induction readAll.go items with
  | case1 first line rest cs e found ih =>
    rcases List.mem_cons.mp member with rfl | later
    · exact ⟨line, List.mem_cons_self⟩
    · obtain ⟨line, known⟩ := ih (by simpa [found] using later)
      exact ⟨line, List.mem_cons_of_mem _ known⟩
  | case2 => simp at member
  | case3 => simp at member
  | case4 => simp at member

theorem mem_items {r : Reader} {c : Command} {line : Nat} (member : (Item.command c, line) ∈ r.items) :
    ∃ content, (content, line) ∈ r.pending ∧ item? r.unit content line = some (.command c) := by
  unfold items at member
  rcases List.mem_append.mp member with found | last
  · obtain ⟨⟨content, number⟩, present, same⟩ := List.mem_filterMap.mp found
    obtain ⟨item, read, pair⟩ := Option.map_eq_some_iff.mp same
    obtain ⟨rfl, rfl⟩ := Prod.mk.inj pair
    exact ⟨content, present, read⟩
  · have impossible := List.mem_singleton.mp last
    split at impossible <;> simp at impossible

theorem item?_command {unit content : Text} {line : Nat} {c : Command}
    (found : item? unit content line = some (.command c)) :
    ∃ word operands, content.beforeComment.fields = word :: operands ∧ Command.ofTokens word operands = .ok c := by
  unfold item? at found
  dsimp only at found
  split at found
  · cases found
  · rename_i word operands split
    cases read : Command.ofTokens word operands with
    | error cause => simp [read] at found
    | ok command =>
      simp only [read, Option.some.injEq, Item.command.injEq] at found
      subst found
      exact ⟨word, operands, split, read⟩

end Reader

theorem Command.Readable.wellFormed {c : Command} (readable : c.Readable) : c.WellFormed := by
  obtain ⟨unit, source, member⟩ := readable
  obtain ⟨line, known⟩ := Reader.mem_readAll member
  obtain ⟨content, -, found⟩ := Reader.mem_items known
  obtain ⟨word, operands, split, read⟩ := Reader.item?_command found
  refine ofTokens_wellFormed (fun token member => ?_) read
  exact Text.isToken_of_fields (split ▸ member)

/-! ### Lines -/

namespace Reader

variable {unit line : Text} {n : Nat}

theorem item?_blank (blank : line.beforeComment.fields = []) : item? unit (Lines.dropReturn line) n = none := by
  rw [← Text.dropReturn_fields] at blank
  simp only [item?, blank]

theorem item?_read {word : Text} {operands : List Text} {c : Command} (found : line.beforeComment.fields = word :: operands)
    (read : Command.ofTokens word operands = .ok c) : item? unit (Lines.dropReturn line) n = some (.command c) := by
  rw [← Text.dropReturn_fields] at found
  simp only [item?, found, read]

theorem item?_malformed {word : Text} {operands : List Text} {cause : Command.Malformed}
    (found : line.beforeComment.fields = word :: operands) (read : Command.ofTokens word operands = .error cause) :
    item? unit (Lines.dropReturn line) n =
      some (.failure (.malformed { unit, line := n, text := (Lines.dropReturn line).beforeComment.trim, cause })) := by
  rw [← Text.dropReturn_fields] at found
  simp only [item?, found, read]

/-- Lines that hold commands, one for each line with a token. -/
inductive Reads : List Text → List Command → Prop
  | nil : Reads [] []
  | blank {line : Text} {lines : List Text} {cs : List Command} (short : line.length < Lines.limit)
    (empty : line.beforeComment.fields = []) (rest : Reads lines cs) : Reads (line :: lines) cs
  | command {line word : Text} {operands lines : List Text} {c : Command} {cs : List Command}
    (short : line.length < Lines.limit) (found : line.beforeComment.fields = word :: operands)
    (read : Command.ofTokens word operands = .ok c) (rest : Reads lines cs) : Reads (line :: lines) (c :: cs)

namespace Reads

variable {lines : List Text} {cs : List Command} (reads : Reads (line :: lines) cs)
include reads

theorem short : line.length < Lines.limit := by
  cases reads with
  | blank short => exact short
  | command short => exact short

theorem of_blank (blank : line.beforeComment.fields = []) : Reads lines cs := by
  cases reads with
  | blank _ _ rest => exact rest
  | command _ found =>
    rw [blank] at found
    cases found

theorem of_tokens {word : Text} {operands : List Text} (found : line.beforeComment.fields = word :: operands) :
    ∃ c rest, Command.ofTokens word operands = .ok c ∧ cs = c :: rest ∧ Reads lines rest := by
  cases reads with
  | blank _ empty =>
    rw [found] at empty
    cases empty
  | command _ same read rest =>
    obtain ⟨rfl, rfl⟩ := List.cons.inj (same.symm.trans found)
    exact ⟨_, _, read, rfl, rest⟩

end Reads

theorem go_iff (unit : Text) (n last : Nat) (lines : List Text) (cs : List Command) :
    readAll.go
      (((((lines.takeWhile fun line => line.length < Lines.limit).map Lines.dropReturn).zipIdx n).filterMap
          fun l => (item? unit l.1 l.2).map (·, l.2)) ++
        [(if lines.any fun line => Lines.limit ≤ line.length then .failure (.tooLong unit) else .finished, last)]) =
      (cs, none) ↔ Reads lines cs := by
  induction lines generalizing n cs with
  | nil =>
    constructor
    · intro all
      obtain ⟨rfl, -⟩ := Prod.mk.inj all
      exact .nil
    · rintro ⟨⟩
      rfl
  | cons line lines ih =>
    by_cases long : Lines.limit ≤ line.length
    · have stops : ¬ line.length < Lines.limit := Nat.not_lt.mpr long
      simp only [List.takeWhile_cons, stops, decide_false, List.any_cons, long, decide_true, Bool.true_or, if_true]
      constructor
      · intro all
        cases all
      · intro reads
        exact (stops reads.short).elim
    have short : line.length < Lines.limit := Nat.lt_of_not_le long
    have later (cs : List Command) := ih (n + 1) cs
    simp only [List.takeWhile_cons, short, decide_true, if_true, List.map_cons, List.zipIdx_cons, List.filterMap_cons,
      List.any_cons, long, decide_false, Bool.false_or] at later ⊢
    cases found : line.beforeComment.fields with
    | nil =>
      rw [item?_blank found]
      exact (later cs).trans ⟨.blank short found, fun reads => reads.of_blank found⟩
    | cons word operands =>
      cases read : Command.ofTokens word operands with
      | error cause =>
        rw [item?_malformed found read]
        constructor
        · intro all
          cases all
        · intro reads
          obtain ⟨c, rest, ok, -⟩ := reads.of_tokens found
          rw [read] at ok
          cases ok
      | ok c =>
        rw [item?_read found read]
        constructor
        · intro all
          obtain ⟨rfl, none⟩ := Prod.mk.inj all
          exact .command short found read ((later _).mp (Prod.ext rfl none))
        · intro reads
          obtain ⟨d, rest, ok, rfl, tail⟩ := reads.of_tokens found
          obtain rfl := Except.ok.inj (read.symm.trans ok)
          exact congrArg (fun all => (c :: all.1, all.2)) ((later rest).mpr tail)

/-- A source is read without an error exactly if its lines hold the commands. -/
theorem readAll_iff {unit source : Text} {cs : List Command} :
    (start unit source).readAll = (cs, none) ↔ Reads (Lines.raw source) cs :=
  go_iff unit 1 _ (Lines.raw source) cs

end Reader

end HackToolchain
