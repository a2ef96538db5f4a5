import HackToolchain.Proofs.Command.Reader
import HackToolchain.Proofs.Emission.Naming

/-!
The commands that have code, as lists of tokens. A line is read and its command coded by two parties, each with
checks of its own; here both are put together, and the tokens alone decide.
-/

namespace HackToolchain.Command

open Emission

/-- A token for a number from 0 on that fits in 64 bits with a sign. -/
def IsIndex (token : Text) : Prop := ∃ n : Int, Text.toInt? token = some n ∧ 0 ≤ n ∧ n < 0x8000000000000000

def operations : List Text := ["add", "sub", "eq", "gt"]

/-- First words of commands that need a name. -/
def branches : List Text := ["label", "goto", "if-goto"]

/-- First words of commands that need a name and a number. -/
def counted : List Text := ["push", "pop", "function", "call"]

def keywords : List Text := "return" :: (branches ++ counted)

def pushSegments : List Text := ["constant", "local", "argument"]

def popSegments : List Text := ["local", "argument"]

/-- The tokens of commands that have code. What follows the operands does not count. -/
inductive Admitted : List Text → Prop
  | push {segment token : Text} {rest : List Text} (known : segment ∈ pushSegments)
    (index : IsIndex token) : Admitted ("push" :: segment :: token :: rest)
  | pop {segment token : Text} {rest : List Text} (known : segment ∈ popSegments)
    (index : IsIndex token) : Admitted ("pop" :: segment :: token :: rest)
  | operation {word : Text} {rest : List Text} (known : word ∈ operations) : Admitted (word :: rest)
  | branch {word name : Text} {rest : List Text} (known : word ∈ branches) : Admitted (word :: name :: rest)
  | function {name token : Text} {rest : List Text} (index : IsIndex token) : Admitted ("function" :: name :: token :: rest)
  | call {name token : Text} {rest : List Text} (index : IsIndex token) : Admitted ("call" :: name :: token :: rest)
  | ret {rest : List Text} : Admitted ("return" :: rest)

inductive Offence
  | malformed (cause : Malformed)
  | refused (c : Command) (cause : EmitError)

/-- The tokens that are not admitted, with what is wrong with them. -/
inductive Offends : List Text → Offence → Prop
  | noName {word : Text} (known : word ∈ branches) : Offends [word] (.malformed .missingOperand)
  | noNumber {word : Text} {operands : List Text} (known : word ∈ counted) (few : operands.length < 2) :
    Offends (word :: operands) (.malformed .missingOperand)
  | badNumber {word name token : Text} {rest : List Text} (known : word ∈ counted) (bad : ¬ IsIndex token) :
    Offends (word :: name :: token :: rest) (.malformed (.badNumber token))
  | push {segment token : Text} {rest : List Text} {n : Int}
    (unknown : segment ∉ pushSegments) (read : Text.toInt? token = some n)
    (natural : 0 ≤ n) :
    Offends ("push" :: segment :: token :: rest) (.refused (.push segment n) (.unsupportedSegment .push segment))
  | pop {segment token : Text} {rest : List Text} {n : Int}
    (unknown : segment ∉ popSegments) (read : Text.toInt? token = some n)
    (natural : 0 ≤ n) :
    Offends ("pop" :: segment :: token :: rest) (.refused (.pop segment n) (.unsupportedSegment .pop segment))
  | operation {word : Text} {rest : List Text} (other : word ∉ keywords)
    (unknown : word ∉ operations) :
    Offends (word :: rest) (.refused (.arithmetic word) (.unsupportedOperation word))

/-! ### Numbers and first words -/

theorem number_of_not_isIndex {token : Text} (bad : ¬ IsIndex token) : number token = .error (.badNumber token) := by
  cases found : number token with
  | ok n =>
    obtain ⟨read, natural⟩ := number_iff.mp found
    have fits := (number_ok found).2
    simp only [Text.fitsWord, Bool.and_eq_true, decide_eq_true_eq] at fits
    exact (bad ⟨n, read, natural, by omega⟩).elim
  | error cause =>
    unfold number at found
    split at found
    · split at found
      · rw [← Except.error.inj found]
      · cases found
    · rw [← Except.error.inj found]

theorem ofWord_eq_arithmetic {word : Text} : Kind.ofWord word = .arithmetic ↔ word ∉ keywords := by
  have selected : ∀ word ∈ keywords, Kind.ofWord word ≠ .arithmetic := by decide
  constructor
  · intro kind known
    exact selected word known kind
  · intro other
    simp only [keywords, branches, counted, List.cons_append, List.nil_append, List.mem_cons, List.not_mem_nil, or_false,
      not_or] at other
    obtain ⟨ret, label, goto, ifGoto, push, pop, function, call⟩ := other
    simp [Kind.ofWord, Kind.all, Kind.name, Ne.symm label, Ne.symm goto, Ne.symm ifGoto, Ne.symm push, Ne.symm pop,
      Ne.symm function, Ne.symm call, Ne.symm ret]

/-! ### Code -/

theorem accessCode?_push (segment : Text) (n : Int) :
    Session.accessCode? .push segment n = none ↔ segment ∉ pushSegments := by
  simp only [Session.accessCode?, Session.pointer?, pushSegments, List.mem_cons, List.not_mem_nil, or_false, not_or]
  split
  · simp_all
  · split
    · simp_all
    · split <;> simp_all

theorem accessCode?_pop (segment : Text) (n : Int) :
    Session.accessCode? .pop segment n = none ↔ segment ∉ popSegments := by
  simp only [Session.accessCode?, Session.pointer?, popSegments, List.mem_cons, List.not_mem_nil, or_false, not_or]
  split
  · simp_all
  · split <;> simp_all

theorem access_eq {direction : Direction} {segment : Text} {n : Int} (natural : 0 ≤ n) :
    Naming.code.access direction segment n =
      match Session.accessCode? direction segment n with
      | none => .error (.unsupportedSegment direction segment)
      | some code => .ok code :=
  if_neg (by omega)

theorem ofTokens_of_read {name token : Text} {rest : List Text} {n : Int} (read : Text.toInt? token = some n)
    (natural : 0 ≤ n) :
    ofTokens "push" (name :: token :: rest) = .ok (.push name n) ∧
      ofTokens "pop" (name :: token :: rest) = .ok (.pop name n) ∧
        ofTokens "function" (name :: token :: rest) = .ok (.function name n) ∧
          ofTokens "call" (name :: token :: rest) = .ok (.call name n) := by
  have operands : nameAndNumber (name :: token :: rest) = .ok (name, n) :=
    nameAndNumber_iff.mpr ⟨token, rest, rfl, number_iff.mpr ⟨read, natural⟩⟩
  refine ⟨?_, ?_, ?_, ?_⟩
  all_goals
    show (nameAndNumber _).map _ = _
    rw [operands]
    rfl

theorem ofTokens_counted {word : Text} (known : word ∈ counted) (operands : List Text) :
    ∃ f, ofTokens word operands = (nameAndNumber operands).map f := by
  simp only [counted, List.mem_cons, List.not_mem_nil, or_false] at known
  rcases known with rfl | rfl | rfl | rfl
  all_goals exact ⟨_, rfl⟩

theorem ofTokens_branch {word : Text} (known : word ∈ branches) (operands : List Text) :
    ∃ f, ofTokens word operands = (nameOnly operands).map f ∧ ∀ (names : Naming) name, ∃ code, names.code (f name) = .ok code := by
  simp only [branches, List.mem_cons, List.not_mem_nil, or_false] at known
  rcases known with rfl | rfl | rfl
  all_goals exact ⟨_, rfl, fun _ _ => ⟨_, rfl⟩⟩

/-- Admitted tokens are a command, and it has code whatever names are in force. -/
theorem Admitted.coded {word : Text} {operands : List Text} (admitted : Admitted (word :: operands)) :
    ∃ c, ofTokens word operands = .ok c ∧ ∀ names : Naming, ∃ code, names.code c = .ok code := by
  cases admitted with
  | @push segment token rest known index =>
    obtain ⟨n, read, natural, -⟩ := index
    refine ⟨.push segment n, (ofTokens_of_read read natural).1, fun names => ?_⟩
    cases coded : Session.accessCode? .push segment n with
    | none => exact ((accessCode?_push segment n).mp coded known).elim
    | some code => exact ⟨code, (access_eq natural).trans (by rw [coded])⟩
  | @pop segment token rest known index =>
    obtain ⟨n, read, natural, -⟩ := index
    refine ⟨.pop segment n, (ofTokens_of_read read natural).2.1, fun names => ?_⟩
    cases coded : Session.accessCode? .pop segment n with
    | none => exact ((accessCode?_pop segment n).mp coded known).elim
    | some code => exact ⟨code, (access_eq natural).trans (by rw [coded])⟩
  | operation known =>
    simp only [operations, List.mem_cons, List.not_mem_nil, or_false] at known
    rcases known with rfl | rfl | rfl | rfl
    all_goals exact ⟨.arithmetic _, rfl, fun _ => ⟨_, rfl⟩⟩
  | @branch word name rest known =>
    obtain ⟨f, read, coded⟩ := ofTokens_branch known (name :: rest)
    exact ⟨f name, read, fun names => coded names name⟩
  | @function name token rest index =>
    obtain ⟨n, read, natural, -⟩ := index
    exact ⟨.function name n, (ofTokens_of_read read natural).2.2.1, fun _ => ⟨_, if_neg (by omega)⟩⟩
  | @call name token rest index =>
    obtain ⟨n, read, natural, -⟩ := index
    exact ⟨.call name n, (ofTokens_of_read read natural).2.2.2, fun _ => ⟨_, if_neg (by omega)⟩⟩
  | ret => exact ⟨.ret, rfl, fun _ => ⟨_, rfl⟩⟩

/-- What is found wrong with tokens: by the reader, or by whoever codes the command, whatever names are in force. -/
def Offence.Found (tokens : Except Malformed Command) : Offence → Prop
  | .malformed cause => tokens = .error cause
  | .refused c cause => tokens = .ok c ∧ ∀ names : Naming, names.code c = .error cause

theorem Offends.found {word : Text} {operands : List Text} {offence : Offence} (offends : Offends (word :: operands) offence) :
    offence.Found (ofTokens word operands) := by
  cases offends with
  | noName known =>
    obtain ⟨f, read, -⟩ := ofTokens_branch known []
    exact read
  | noNumber known few =>
    obtain ⟨f, read⟩ := ofTokens_counted known operands
    have missing : nameAndNumber operands = .error .missingOperand := by
      match operands, few with
      | [], _ => rfl
      | [_], _ => rfl
    show ofTokens word operands = _
    rw [read, missing]
    rfl
  | @badNumber _ name token rest known bad =>
    obtain ⟨f, read⟩ := ofTokens_counted known (name :: token :: rest)
    show ofTokens word _ = _
    rw [read, nameAndNumber, number_of_not_isIndex bad]
    rfl
  | @push segment token rest n unknown read natural =>
    refine ⟨(ofTokens_of_read read natural).1, fun names => (access_eq natural).trans ?_⟩
    rw [(accessCode?_push segment n).mpr unknown]
  | @pop segment token rest n unknown read natural =>
    refine ⟨(ofTokens_of_read read natural).2.1, fun names => (access_eq natural).trans ?_⟩
    rw [(accessCode?_pop segment n).mpr unknown]
  | operation other unknown =>
    simp only [operations, List.mem_cons, List.not_mem_nil, or_false, not_or] at unknown
    obtain ⟨add, sub, eq, gt⟩ := unknown
    refine ⟨by rw [ofTokens, ofWord_eq_arithmetic.mpr other], fun names => ?_⟩
    simp only [Naming.code, add, sub, eq, gt, if_false]

/-! ### Every line has its verdict -/

theorem counted_cases (word : Text) (operands : List Text) (known : word ∈ counted) :
    (∃ offence, Offends (word :: operands) offence) ∨
      ∃ name token rest, operands = name :: token :: rest ∧ IsIndex token := by
  match operands with
  | [] => exact .inl ⟨_, .noNumber known (by simp)⟩
  | [_] => exact .inl ⟨_, .noNumber known (by simp)⟩
  | name :: token :: rest =>
    by_cases index : IsIndex token
    · exact .inr ⟨name, token, rest, rfl, index⟩
    · exact .inl ⟨_, .badNumber known index⟩

theorem admitted_or_offends (word : Text) (operands : List Text) :
    Admitted (word :: operands) ∨ ∃ offence, Offends (word :: operands) offence := by
  by_cases branch : word ∈ branches
  · cases operands with
    | nil => exact .inr ⟨_, .noName branch⟩
    | cons name rest => exact .inl (.branch branch)
  by_cases count : word ∈ counted
  · rcases counted_cases word operands count with offends | ⟨name, token, rest, rfl, index⟩
    · exact .inr offends
    have ⟨n, read, natural, _⟩ := index
    have numbered := count
    simp only [counted, List.mem_cons, List.not_mem_nil, or_false] at numbered
    rcases numbered with rfl | rfl | rfl | rfl
    · by_cases known : name ∈ pushSegments
      · exact .inl (.push known index)
      · exact .inr ⟨_, .push known read natural⟩
    · by_cases known : name ∈ popSegments
      · exact .inl (.pop known index)
      · exact .inr ⟨_, .pop known read natural⟩
    · exact .inl (.function index)
    · exact .inl (.call index)
  by_cases ret : word = "return"
  · subst ret
    exact .inl .ret
  by_cases known : word ∈ operations
  · exact .inl (.operation known)
  · refine .inr ⟨_, .operation ?_ known⟩
    simp only [keywords, List.mem_cons, List.mem_append, not_or]
    exact ⟨ret, branch, count⟩

end HackToolchain.Command
