import HackToolchain.Proofs.Emission.Naming
import HackToolchain.Proofs.Text.Numeral

/-!
Labels a session makes up. The number at the end of a label tells it from all others of its kind,
whatever the names of the callees are, and no label of a comparison is one of a call.
-/

namespace HackToolchain.Emission

open Session

def Line.label? : Line → Option Text
  | .label symbol => some symbol
  | _ => none

def declared (lines : List Line) : List Text := lines.filterMap Line.label?

theorem declared_append (xs ys : List Line) : declared (xs ++ ys) = declared xs ++ declared ys := by
  simp [declared]

theorem declared_callCode (name : Text) (arguments : Int) (returnLabel : Text) :
    declared (callCode name arguments returnLabel) = [returnLabel] := rfl

theorem declared_compare (condition : Jump) (trueLabel endLabel : Text) :
    declared (compare condition trueLabel endLabel) = [trueLabel, endLabel] := rfl

theorem declared_pushZeros (n : Nat) : declared (List.replicate n pushZero).flatten = [] := by
  induction n with
  | zero => rfl
  | succ n ih =>
    rw [List.replicate_succ, List.flatten_cons, declared_append, ih]
    rfl

/-! ### Labels of calls -/

/-- The digits at the end of a return label are its number. -/
theorem returnLabel_digits (callee : Text) (n : Nat) :
    (returnLabel callee n).reverse.takeWhile Text.isDigit = (Text.ofNat n).reverse := by
  have digits : ∀ b ∈ (Text.ofNat n).reverse, Text.isDigit b = true := fun b member =>
    List.all_eq_true.mp (Text.ofNat_all n) b (List.mem_reverse.mp member)
  have dot : ∃ rest, (callee ++ Text.ofString "$ret.").reverse = 46 :: rest :=
    ⟨116 :: 101 :: 114 :: 36 :: callee.reverse, by rw [List.reverse_append]; rfl⟩
  obtain ⟨rest, tail⟩ := dot
  rw [returnLabel, List.reverse_append, tail, List.takeWhile_append_of_pos digits]
  simp [Text.isDigit]

theorem returnLabel_injective {c d : Text} {m n : Nat} (same : returnLabel c m = returnLabel d n) :
    c = d ∧ m = n := by
  have digits : (Text.ofNat m).reverse = (Text.ofNat n).reverse := by
    rw [← returnLabel_digits c, same, returnLabel_digits]
  obtain rfl := Text.ofNat_injective (List.reverse_inj.mp digits)
  unfold returnLabel at same
  exact ⟨List.append_cancel_right (List.append_cancel_right same), rfl⟩

theorem dollar_mem_returnLabel (callee : Text) (n : Nat) : (36 : UInt8) ∈ returnLabel callee n := by
  have inside : (36 : UInt8) ∈ Text.ofString "$ret." := by decide
  unfold returnLabel
  exact List.mem_append_left _ (List.mem_append_right _ inside)

theorem symbolic_returnLabel (callee : Text) (n : Nat) : Text.toInt? (returnLabel callee n) = none :=
  Text.toInt?_eq_none (dollar_mem_returnLabel callee n) (by decide) (by decide)

/-! ### Labels of comparisons -/

theorem letter_mem_compareLabels (n : Nat) : (84 : UInt8) ∈ (compareLabels n).1 ∧ (69 : UInt8) ∈ (compareLabels n).2 :=
  ⟨List.mem_append_left _ (by decide), List.mem_append_left _ (by decide)⟩

theorem symbolic_compareLabels (n : Nat) :
    Text.toInt? (compareLabels n).1 = none ∧ Text.toInt? (compareLabels n).2 = none := by
  obtain ⟨first, second⟩ := letter_mem_compareLabels n
  exact ⟨Text.toInt?_eq_none first (by decide) (by decide), Text.toInt?_eq_none second (by decide) (by decide)⟩

theorem dollar_not_mem_ofNat (n : Nat) : (36 : UInt8) ∉ Text.ofNat n := by
  intro member
  exact absurd (List.all_eq_true.mp (Text.ofNat_all n) 36 member) (by decide)

theorem dollar_not_mem_compareLabels (n : Nat) :
    (36 : UInt8) ∉ (compareLabels n).1 ∧ (36 : UInt8) ∉ (compareLabels n).2 := by
  have first : (36 : UInt8) ∉ Text.ofString "TRUE_" := by decide
  have second : (36 : UInt8) ∉ Text.ofString "END_" := by decide
  have digits := dollar_not_mem_ofNat n
  simp only [compareLabels, List.mem_append, not_or]
  exact ⟨⟨first, digits⟩, second, digits⟩

theorem compareLabels_injective {m n : Nat}
    (same : (compareLabels m).1 = (compareLabels n).1 ∨ (compareLabels m).2 = (compareLabels n).2) : m = n := by
  rcases same with same | same
  · exact Text.ofNat_injective (List.append_cancel_left same)
  · exact Text.ofNat_injective (List.append_cancel_left same)

theorem compareLabels_apart (m n : Nat) : (compareLabels m).1 ≠ (compareLabels n).2 := by
  intro same
  have first := congrArg List.head? same
  simp [compareLabels, show Text.ofString "TRUE_" = [84, 82, 85, 69, 95] from rfl,
    show Text.ofString "END_" = [69, 78, 68, 95] from rfl] at first

/-! ### Labels up to a point -/

/-- A label made up while fewer numbers than these were given out. -/
inductive Numbered (n : Naming) : Text → Prop where
  | isTrue {k : Nat} (earlier : k < n.labels) : Numbered n (compareLabels k).1
  | isEnd {k : Nat} (earlier : k < n.labels) : Numbered n (compareLabels k).2
  | isReturn (callee : Text) {k : Nat} (earlier : k < n.calls) : Numbered n (returnLabel callee k)

theorem Numbered.mono {n m : Naming} {t : Text} (numbered : Numbered n t) (labels : n.labels ≤ m.labels)
    (calls : n.calls ≤ m.calls) : Numbered m t := by
  cases numbered with
  | isTrue earlier => exact .isTrue (Nat.lt_of_lt_of_le earlier labels)
  | isEnd earlier => exact .isEnd (Nat.lt_of_lt_of_le earlier labels)
  | isReturn callee earlier => exact .isReturn callee (Nat.lt_of_lt_of_le earlier calls)

theorem compareLabels_new (n : Naming) :
    ¬ Numbered n (compareLabels n.labels).1 ∧ ¬ Numbered n (compareLabels n.labels).2 := by
  have dollar := dollar_not_mem_compareLabels n.labels
  constructor
  · generalize same : (compareLabels n.labels).1 = t at dollar ⊢
    rintro (earlier | earlier | ⟨callee, earlier⟩)
    · have := compareLabels_injective (.inl same)
      omega
    · exact compareLabels_apart _ _ same
    · exact dollar.1 (dollar_mem_returnLabel _ _)
  · generalize same : (compareLabels n.labels).2 = t at dollar ⊢
    rintro (earlier | earlier | ⟨callee, earlier⟩)
    · exact compareLabels_apart _ _ same.symm
    · have := compareLabels_injective (.inr same)
      omega
    · exact dollar.2 (dollar_mem_returnLabel _ _)

theorem returnLabel_new (n : Naming) (callee : Text) : ¬ Numbered n (returnLabel callee n.calls) := by
  have dollar := dollar_mem_returnLabel callee n.calls
  generalize same : returnLabel callee n.calls = t at dollar ⊢
  rintro (earlier | earlier | ⟨other, earlier⟩)
  · exact (dollar_not_mem_compareLabels _).1 dollar
  · exact (dollar_not_mem_compareLabels _).2 dollar
  · have := (returnLabel_injective same).2
    omega

end HackToolchain.Emission
