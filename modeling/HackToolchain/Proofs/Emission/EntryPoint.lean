import HackToolchain.Proofs.Emission.Layout

/-!
How the name of an entry point is read. Nothing keeps line ends, comments or white space out of it. With one of
the first two in it the label of the function and the one behind the bootstrap are read as the same label, so the
output is not loaded; and white space is left out wherever the name is read.
-/

namespace HackToolchain

namespace Text

/-- A text that stays on its line and starts no comment. -/
structure Plain (t : Text) : Prop where
  line : newline ∉ t
  code : t.beforeComment = t

theorem Clean.toPlain {t : Text} (clean : Clean t) : Plain t := ⟨(clean_no_break clean).1, clean.plain⟩

theorem Plain.append {u v : Text} (left : Plain u) (right : Plain v) (joint : v.head? ≠ some 47) : Plain (u ++ v) := by
  refine ⟨?_, ?_⟩
  · simp [left.line, right.line]
  · rw [beforeComment_append left.code joint, right.code]

theorem beforeComment_cons {b : UInt8} (other : b ≠ 47) (t : Text) : beforeComment (b :: t) = b :: t.beforeComment := by
  rw [beforeComment]
  intro rest slash
  exact absurd slash other

theorem beforeComment_hides {u : Text} (comment : [47, 47] <:+: u) (v : Text) : (u ++ v).beforeComment = u.beforeComment := by
  fun_induction beforeComment u with
  | case1 rest => rfl
  | case2 b rest other ih =>
    have later : [47, 47] <:+: rest := by
      rcases List.infix_cons_iff.mp comment with ⟨tail, same⟩ | inside
      · simp only [List.cons_append, List.nil_append, List.cons.injEq] at same
        exact (other tail same.1.symm same.2.symm).elim
      · exact inside
    rw [List.cons_append, beforeComment, ih later]
    intro tail slash same
    cases rest with
    | nil => simp at later
    | cons c rest => exact other rest slash (by rw [(List.cons.inj same).1])
  | case3 => simp at comment

end Text

namespace Emission

open Session

namespace Line

def Plain : Line → Prop
  | .comment text => Text.newline ∉ text
  | .address symbol | .label symbol => Text.Plain symbol
  | .compute .. => True

/-- A line without the white space of its name. -/
def squeeze : Line → Line
  | .address symbol => .address symbol.squeeze
  | .label symbol => .label symbol.squeeze
  | line => line

/-- The operations that a line is read as; there may be several if its name holds line ends. -/
def readBack (line : Line) : List Operation := (Text.split Text.newline line.render).filterMap Assembly.operationOf

theorem bare_address {symbol : Text} (plain : Text.Plain symbol) :
    Assembly.bare (address symbol).render = (address symbol.squeeze).render := by
  show (Text.beforeComment (64 :: symbol)).squeeze = 64 :: symbol.squeeze
  rw [Text.beforeComment_cons (by decide), plain.code, Text.squeeze_separator (by decide)]

theorem bare_label {symbol : Text} (plain : Text.Plain symbol) :
    Assembly.bare (label symbol).render = (label symbol.squeeze).render := by
  show (Text.beforeComment (40 :: (symbol ++ [41]))).squeeze = 40 :: (symbol.squeeze ++ [41])
  have closed : Text.beforeComment [41] = [41] := rfl
  rw [Text.beforeComment_cons (by decide), Text.beforeComment_append plain.code (by decide), closed,
    Text.squeeze_separator (by decide), Text.squeeze_append symbol (Text.isSeparator_leads (by decide) [])]
  rfl

/-- A plain line is read as one operation, without its white space. -/
theorem readBack_plain {line : Line} (plain : line.Plain) : line.readBack = line.squeeze.operation?.toList := by
  cases line with
  | comment text =>
    have sound : (comment text).Sound := plain
    rw [readBack, Text.split_of_not_mem sound.no_newline]
    rfl
  | compute dest c jump =>
    have sound := sound_compute dest c jump
    rw [readBack, Text.split_of_not_mem sound.no_newline, List.filterMap_cons, operationOf_render sound]
    rfl
  | address symbol =>
    have free : Text.newline ∉ (address symbol).render := by
      show Text.newline ∉ [64] ++ symbol
      simp only [List.mem_append, not_or]
      exact ⟨by decide, Text.Plain.line plain⟩
    have nonempty : (address symbol.squeeze).render ≠ [] := List.cons_ne_nil _ _
    rw [readBack, Text.split_of_not_mem free, List.filterMap_cons, Assembly.operationOf, bare_address plain, if_neg nonempty]
    rfl
  | label symbol =>
    have free : Text.newline ∉ (label symbol).render := by
      show Text.newline ∉ [40] ++ symbol ++ [41]
      simp only [List.mem_append, not_or]
      exact ⟨⟨by decide, Text.Plain.line plain⟩, by decide⟩
    have nonempty : (label symbol.squeeze).render ≠ [] := List.cons_ne_nil _ _
    rw [readBack, Text.split_of_not_mem free, List.filterMap_cons, Assembly.operationOf, bare_label plain, if_neg nonempty]
    rfl

end Line

theorem parse_readBack {lines : List Line} {found : List Instruction} (read : Assembly.parse (written lines) = .ok found) :
    found.map (·.operation) = lines.flatMap Line.readBack := by
  rw [Assembly.parse_operations read, written, raw_unlines, List.flatMap_map, List.filterMap_flatMap]
  rfl

theorem flatMap_readBack {lines : List Line} (plain : ∀ l ∈ lines, l.Plain) :
    lines.flatMap Line.readBack = operations (lines.map Line.squeeze) := by
  rw [List.flatMap_congr fun l member => Line.readBack_plain (plain l member), operations, List.filterMap_map,
    List.filterMap_eq_flatMap_toList]
  rfl

/-! ### Openings -/

theorem plain_returnLabel {entryPoint : Text} (plain : Text.Plain entryPoint) (n : Nat) :
    Text.Plain (returnLabel entryPoint n) := by
  have number : Text.IsToken (Text.ofString "$ret." ++ Text.ofNat n) := token_numbered n (by decide)
  rw [returnLabel, List.append_assoc]
  refine plain.append number.toClean.toPlain ?_
  intro slash
  cases slash

theorem squeeze_returnLabel (entryPoint : Text) (n : Nat) : (returnLabel entryPoint n).squeeze = returnLabel entryPoint.squeeze n := by
  have number : Text.IsToken (Text.ofString "$ret." ++ Text.ofNat n) := token_numbered n (by decide)
  have leads : Text.Leads (Text.ofString "$ret." ++ Text.ofNat n) := Text.isSeparator_leads (b := 36) (by decide) _
  rw [returnLabel, List.append_assoc, Text.squeeze_append entryPoint leads, Text.squeeze_of_clean number.toClean,
    ← List.append_assoc]
  rfl

theorem squeeze_pointers : ∀ symbol ∈ pointers, symbol.squeeze = symbol :=
  fun symbol member => Text.squeeze_of_clean (clean_pointers symbol member)

theorem squeeze_ofInt (n : Int) : (Text.ofInt n).squeeze = Text.ofInt n := Text.squeeze_of_clean (clean_ofInt n)

theorem squeeze_call (name returnLabel : Text) (arguments : Int) :
    (callCode name arguments returnLabel).map Line.squeeze = callCode name.squeeze arguments returnLabel.squeeze := by
  simp (disch := decide) [callCode, pushPointer, pushD, Line.number, Line.set, Line.setM, Line.jump, Line.squeeze,
    squeeze_ofInt, squeeze_pointers]

theorem squeeze_setStackPointer (base : Int) : (setStackPointer base).map Line.squeeze = setStackPointer base := by
  simp (disch := decide) [setStackPointer, Line.number, Line.set, Line.squeeze, squeeze_ofInt, squeeze_pointers]

theorem plain_number (n : Int) : (Line.number n).Plain := (clean_ofInt n).toPlain

theorem routine_plain : Routine Line.Plain where
  compute := trivial
  pointer member := (clean_pointers _ member).toPlain
  number _ _ := plain_number _

/-- The opening for a plain entry point is read as that for the name without white space. -/
theorem readBack_bootstrap {entryPoint : Text} (plain : Text.Plain entryPoint) (base : Int) :
    (bootstrapLines base entryPoint).flatMap Line.readBack = operations (bootstrapLines base entryPoint.squeeze) := by
  have comments : ∀ l ∈ bootstrapLines base entryPoint, l.Plain := by
    have inside : Text.newline ∉ (Command.call entryPoint 0).render := by
      show Text.newline ∉ Text.ofString "call " ++ entryPoint ++ Text.ofString " " ++ Text.ofInt 0
      simp only [List.mem_append, not_or]
      exact ⟨⟨⟨by decide, plain.line⟩, by decide⟩, by decide⟩
    have word : Text.newline ∉ Text.ofString "bootstrap" := by decide
    apply (routine_plain.bootstrap base entryPoint).mpr
    refine ⟨⟨word, plain_number base⟩, inside, ?_⟩
    have offset := plain_number (argumentOffset 0)
    have back := plain_returnLabel plain 0
    simp only [Naming.own, List.forall_mem_cons]
    exact ⟨back, offset, plain, back, List.forall_mem_nil _⟩
  rw [flatMap_readBack comments, bootstrapLines, bootstrapLines, List.map_append, List.map_cons, List.map_cons,
    squeeze_setStackPointer, squeeze_call, squeeze_returnLabel]
  rfl

/-! ### Torn names -/

theorem bare_open (t : Text) : Assembly.bare (40 :: t) = 40 :: Assembly.bare t := by
  rw [Assembly.bare, Text.beforeComment_cons (by decide), Text.squeeze_separator (by decide), Assembly.bare]

/-- Of a label whose name holds a line end or a comment, the same is read whatever stands behind the name. -/
theorem torn_label {name : Text} (torn : ¬ Text.Plain name) :
    ∃ kept, ∀ more, Text.newline ∉ more →
      ∃ line ∈ Text.split Text.newline (40 :: (name ++ more)), Assembly.bare line = 40 :: kept := by
  by_cases broken : Text.newline ∈ name
  · -- The first of its lines ends in front of whatever follows.
    obtain ⟨front, back, rfl, free⟩ := List.eq_append_cons_of_mem broken
    refine ⟨Assembly.bare front, ?_⟩
    intro more _
    have first : Text.newline ∉ 40 :: front := List.not_mem_cons_of_ne_of_not_mem (by decide) free
    have shape : 40 :: (front ++ Text.newline :: back ++ more) = (40 :: front) ++ Text.newline :: (back ++ more) := by simp
    rw [shape, Text.split_append, Text.split_of_not_mem first]
    exact ⟨40 :: front, by simp, bare_open front⟩
  · have comment : [47, 47] <:+: name := by
      by_contra none
      exact torn ⟨broken, Text.beforeComment_eq_self.mpr none⟩
    refine ⟨Assembly.bare name, ?_⟩
    intro more free
    have whole : Text.newline ∉ 40 :: (name ++ more) := by
      refine List.not_mem_cons_of_ne_of_not_mem (by decide) ?_
      simp [broken, free]
    rw [Text.split_of_not_mem whole]
    refine ⟨_, List.mem_singleton_self _, ?_⟩
    rw [bare_open, Assembly.bare, Text.beforeComment_hides comment, Assembly.bare]

theorem operationOf_open {line kept : Text} (accepted : Assembly.Accepted line) (opens : Assembly.bare line = 40 :: kept) :
    ∃ symbol, Operation.labelName? kept = some symbol ∧ Assembly.operationOf line = some (.label symbol) := by
  have fine := accepted.resolve_left (by rw [opens]; exact List.cons_ne_nil _ _)
  rw [opens, Operation.malformed?_label] at fine
  obtain ⟨symbol, named⟩ := Option.isSome_iff_exists.mp fine
  exact ⟨symbol, named, by simp [Assembly.operationOf, opens, Operation.ofText, named]⟩

/-- A line declares what is read of its torn name. -/
theorem declares_torn {name kept : Text}
    (torn : ∀ more, Text.newline ∉ more → ∃ line ∈ Text.split Text.newline (40 :: (name ++ more)), Assembly.bare line = 40 :: kept)
    {more : Text} (free : Text.newline ∉ more) {lines : List Line} (member : .label (name ++ more) ∈ lines)
    (accepted : ∀ l ∈ lines, ∀ line ∈ Text.split Text.newline l.render, Assembly.Accepted line) :
    ∃ symbol, Operation.labelName? kept = some symbol ∧ symbol ∈ (lines.flatMap Line.readBack).filterMap Operation.label? := by
  have rendered : (Line.label (name ++ more)).render = 40 :: (name ++ (more ++ [41])) := by
    show 40 :: (name ++ more ++ [41]) = _
    rw [List.append_assoc]
  obtain ⟨line, inside, opens⟩ := torn (more ++ [41]) (by simp [free, show Text.newline ≠ 41 by decide])
  rw [← rendered] at inside
  obtain ⟨symbol, named, operation⟩ := operationOf_open (accepted _ member line inside) opens
  refine ⟨symbol, named, List.mem_filterMap.mpr ⟨.label symbol, ?_, rfl⟩⟩
  exact List.mem_flatMap.mpr ⟨_, member, List.mem_filterMap.mpr ⟨line, inside, operation⟩⟩

/-- Where labels are distinct, no name is torn that is declared once as it is and once with more behind it. -/
theorem plain_of_distinct {name more : Text} {xs ys : List Line} {found : List Instruction}
    (read : Assembly.parse (written (xs ++ ys)) = .ok found)
    (distinct : ((found.map (·.operation)).filterMap Operation.label?).Nodup) (longer : .label (name ++ more) ∈ xs)
    (free : Text.newline ∉ more) (shorter : .label name ∈ ys) : Text.Plain name := by
  -- Otherwise both lines declare what is left of the torn name, which is then declared twice.
  by_contra broken
  obtain ⟨kept, torn⟩ := torn_label broken
  have accepted : ∀ l ∈ xs ++ ys, ∀ line ∈ Text.split Text.newline l.render, Assembly.Accepted line := by
    intro l member line inside
    refine ((Assembly.parse_iff.mp read).1 line ?_).2
    rw [written, raw_unlines, List.flatMap_map]
    exact List.mem_flatMap.mpr ⟨l, member, inside⟩
  obtain ⟨left, right⟩ := List.forall_mem_append.mp accepted
  obtain ⟨symbol, named, first⟩ := declares_torn torn free longer left
  rw [← List.append_nil name] at shorter
  obtain ⟨other, again, second⟩ := declares_torn torn List.not_mem_nil shorter right
  obtain rfl := Option.some.inj (named.symm.trans again)
  rw [parse_readBack read, List.flatMap_append, List.filterMap_append, List.nodup_append] at distinct
  exact distinct.2.2 symbol first symbol second rfl

theorem function_declared {n : Naming} {cs : List Command} {lines : List Line} {name : Text} {locals : Int}
    (member : .function name locals ∈ cs) (coded : n.program cs = .ok lines) : .label name ∈ lines := by
  induction cs generalizing n lines with
  | nil => cases member
  | cons c cs ih =>
    obtain ⟨code, later, first, rest, rfl⟩ := Naming.program_cons.mp coded
    rcases List.mem_cons.mp member with rfl | behind
    · obtain rfl := Naming.function_ok first
      simp
    · exact List.mem_append_right _ (ih behind rest)

/-- A program that is loaded from an output with a bootstrap and the entry point in it starts with the bootstrap for
the name without white space, and has that name as a label. -/
theorem loaded_opening {base : Int} {entryPoint : Text} {program : List Line} {p : Program}
    (loaded : Program.load (written (bootstrapLines base entryPoint ++ program)) = .ok p)
    (nonempty : entryPoint.squeeze ≠ []) (declared : .label entryPoint ∈ program) :
    ∃ rest entry, p.LoadedFrom (operations (bootstrapLines base entryPoint.squeeze) ++ rest) ∧
      p.labels.lookup entryPoint.squeeze = some entry := by
  unfold Program.load at loaded
  split at loaded
  · cases loaded
  · rename_i instructions parsed
    have origin := Program.ofInstructions_ok loaded
    have plain : Text.Plain entryPoint := by
      have behind : Line.label (entryPoint ++ (Text.ofString "$ret." ++ Text.ofNat 0)) ∈ bootstrapLines base entryPoint := by
        rw [← List.append_assoc]
        show Line.label (returnLabel entryPoint 0) ∈ _
        simp [bootstrapLines, callCode]
      exact plain_of_distinct parsed origin.distinct behind (by decide) declared
    rw [parse_readBack parsed, List.flatMap_append, readBack_bootstrap plain] at origin
    have member : entryPoint.squeeze ∈ p.labels.map Prod.fst := by
      rw [origin.labels, Assembly.labelsFrom_names, List.filterMap_append]
      refine List.mem_append_right _ (List.mem_filterMap.mpr ⟨.label entryPoint.squeeze, ?_, rfl⟩)
      refine List.mem_flatMap.mpr ⟨_, declared, ?_⟩
      rw [@Line.readBack_plain (.label entryPoint) plain, Line.squeeze, Line.operation?_label nonempty]
      exact List.mem_singleton_self _
    obtain ⟨entry, known⟩ := Option.isSome_iff_exists.mp (lookup_isSome.mpr member)
    exact ⟨_, entry, origin, known⟩

end Emission

end HackToolchain
